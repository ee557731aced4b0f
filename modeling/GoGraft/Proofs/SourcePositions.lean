import GoGraft.Proofs.ImportShapes
import GoGraft.Proofs.Seams

/-!
# Positions in the whole source

The structure of a declaration can be read off where the declaration stands: positions are then counted from the
beginning of the source, and an indentation is that of a line of the source. Counted from the beginning of the
declaration, the positions are those that the declaration keeps, and the indentations are the same. They are asked for
only behind the keyword of the declaration, so that a line that begins before the declaration is none in either text.
-/

namespace GoGraft

open Grammar

def TypeBody.moved (move : Nat → Nat) : TypeBody → TypeBody
  | .record found => .record { found with close := move found.close }
  | .expr type => .expr type

def TypeSpec.moved (move : Nat → Nat) (spec : TypeSpec) : TypeSpec :=
  { spec with body := spec.body.moved move }

def ImportLayout.moved (move : Nat → Nat) : ImportLayout → ImportLayout
  | .grouped close indent => .grouped (move close) indent
  | .single start spec stop => .single (move start) (move spec) (move stop)

/-- The structure of a declaration whose positions are counted from elsewhere. -/
def DeclarationKind.moved (move : Nat → Nat) : DeclarationKind → DeclarationKind
  | .imports specs layout => .imports specs (layout.moved move)
  | .types specs => .types (specs.map (·.moved move))
  | .function name => .function name
  | .values names => .values names

theorem Text.lineIndent_append (front : Text) {text : Text} (hink : ¬ text.all isIndent) :
    lineIndent (front ++ text) = lineIndent text := by
  unfold lineIndent
  by_cases hmem : '\n' ∈ text
  · obtain ⟨left, line, rfl, hline⟩ := exists_last_newline hmem
    rw [← List.append_assoc, lastLine_newline hline, lastLine_newline hline]
  · have hself : lastLine text = text := @lastLine_append [] text hmem
    have hboth : ¬ (lastLine front ++ text).all isIndent := by
      rw [List.all_append, Bool.and_eq_true]
      exact fun hall => hink hall.2
    dsimp only
    rw [lastLine_append hmem, hself, if_neg hink, if_neg hboth]

namespace Structure

theorem place_add (base start : Nat) (marked : List Marked) :
    place (base + start) marked = (place start marked).map (Placed.moved (base + ·)) := by
  induction marked generalizing start with
  | nil => rfl
  | cons first rest ih =>
      rw [place, place, List.map_cons, ← ih, Nat.add_assoc]
      rfl

theorem exists_of_mem_place {start : Nat} {marked : List Marked} {placed : Placed} (hplaced : placed ∈ place start marked) :
    ∃ left right, marked = left ++ placed.marked :: right ∧ placed.start = start + (sourceOf left).length := by
  obtain ⟨before, after, hsplit⟩ := List.append_of_mem hplaced
  obtain ⟨left, right, rfl, -, hright⟩ := place_eq_append hsplit
  cases right with
  | nil => cases hright
  | cons first rest =>
      obtain ⟨rfl, -⟩ := List.cons.inj hright
      exact ⟨left, rest, rfl, rfl⟩

theorem trim_sublist (lexemes : List Placed) : (trim lexemes).Sublist lexemes := by
  have hfront := List.dropWhile_sublist Placed.isTrivia (l := lexemes)
  have hback := (List.dropWhile_sublist Placed.isTrivia (l := (lexemes.dropWhile Placed.isTrivia).reverse)).reverse
  rw [List.reverse_reverse] at hback
  exact hback.trans hfront

theorem sublist_of_mem_splitAt {role : Role} {lexemes part : List Placed} (hpart : part ∈ splitAt role lexemes) :
    part.Sublist lexemes := by
  induction lexemes generalizing part with
  | nil =>
      obtain rfl := List.mem_singleton.mp hpart
      exact .slnil
  | cons first rest ih =>
      by_cases hfirst : first.role = role
      · rw [splitAt_cons_of_eq hfirst] at hpart
        obtain rfl | hpart := List.mem_cons.mp hpart
        · exact List.nil_sublist _
        · exact (ih hpart).cons first
      · obtain ⟨front, parts, hrest⟩ := exists_splitAt role rest
        rw [hrest] at ih
        rw [splitAt_cons_of_ne hfirst hrest] at hpart
        obtain rfl | hpart := List.mem_cons.mp hpart
        · exact (ih List.mem_cons_self).cons_cons first
        · exact (ih (List.mem_cons_of_mem _ hpart)).cons first

theorem sublist_between (first last : Role) {lexemes rest : List Placed} {head : Placed}
    (hsublist : lexemes.Sublist (head :: rest)) : (between first last lexemes).Sublist rest := by
  unfold between
  rw [List.drop_one]
  exact (List.takeWhile_sublist _).trans ((List.dropWhile_sublist _).trans hsublist).tail

theorem sublist_of_mem_fieldParts {lexemes part : List Placed} (hpart : part ∈ fieldParts lexemes) :
    part.Sublist lexemes := by
  obtain ⟨whole, hwhole, rfl⟩ := List.mem_map.mp (List.mem_filter.mp hpart).1
  exact (trim_sublist whole).trans (sublist_of_mem_splitAt hwhole)

theorem sublist_typePart (part : List Placed) : (typePart part).Sublist part := by
  have hafter := (List.takeWhile_sublist (fun placed : Placed => !placed.marked.isHead) (l := part.reverse)).reverse
  rw [List.reverse_reverse] at hafter
  exact (trim_sublist _).trans hafter

/-- The lexemes that the parts of an import declaration are made of. -/
def isImportPart (placed : Placed) : Bool :=
  placed.role = .aliasing || placed.role = .path

theorem importParts_moved (move : Nat → Nat) (lexemes : List Placed) :
    importParts (lexemes.map (Placed.moved move)) = (importParts lexemes).map (List.map (Placed.moved move)) := by
  have hfilter : (lexemes.map (Placed.moved move)).filter isImportPart =
      (lexemes.filter isImportPart).map (Placed.moved move) := List.filter_map
  change List.foldr _ _ (List.filter isImportPart _) = List.map _ (List.foldr _ _ (List.filter isImportPart _))
  rw [hfilter]
  generalize lexemes.filter isImportPart = lexemes
  induction lexemes with
  | nil => rfl
  | cons first rest ih =>
      rw [List.map_cons, List.foldr_cons, List.foldr_cons, ih, show (first.moved move).role = first.role from rfl]
      split
      · rfl
      · cases rest.foldr _ [] <;> rfl

theorem flatten_importParts (lexemes : List Placed) : (importParts lexemes).flatten = lexemes.filter isImportPart := by
  change List.flatten (List.foldr _ _ (List.filter isImportPart _)) = _
  generalize lexemes.filter isImportPart = lexemes
  induction lexemes with
  | nil => rfl
  | cons first rest ih =>
      rw [List.foldr_cons]
      split
      · rw [List.flatten_cons, ih]
        rfl
      · cases hparts : rest.foldr _ [] with
        | nil =>
            rw [hparts] at ih
            rw [← ih]
            rfl
        | cons part others =>
            rw [hparts] at ih
            rw [← ih]
            rfl

theorem mem_of_mem_importParts {head placed : Placed} {rest part : List Placed} (hhead : ¬ isImportPart head)
    (hpart : part ∈ importParts (head :: rest)) (hplaced : placed ∈ part) : placed ∈ rest := by
  have hmem := List.mem_flatten_of_mem hpart hplaced
  rw [flatten_importParts, List.filter_cons_of_neg hhead] at hmem
  exact (List.mem_filter.mp hmem).1

section Moved

variable {base : Nat} {text other : Text} {head : Placed} {rest : List Placed}
  (hindent : ∀ placed ∈ rest, Text.lineIndent (other.take (base + placed.start)) = Text.lineIndent (text.take placed.start))

include hindent

theorem indentOf_moved {part : List Placed} (hpart : ∀ placed ∈ part, placed ∈ rest) :
    indentOf other (part.map (Placed.moved (base + ·))) = indentOf text part := by
  cases part with
  | nil => rfl
  | cons first more => exact hindent first (hpart first List.mem_cons_self)

theorem recordOf_moved {lexemes : List Placed} (hsublist : lexemes.Sublist (head :: rest)) :
    TypeBody.moved (· - base) (.record (recordOf other (lexemes.map (Placed.moved (base + ·))))) =
      .record (recordOf text lexemes) := by
  have hfields : (recordOf other (lexemes.map (Placed.moved (base + ·)))).fields = (recordOf text lexemes).fields := by
    change fieldsIn (between _ _ _) = fieldsIn (between _ _ _)
    rw [between_moved, fieldsIn_moved]
  have hclose : (recordOf other (lexemes.map (Placed.moved (base + ·)))).close - base = (recordOf text lexemes).close := by
    simp only [recordOf, List.find?_map, Option.map_map]
    change ((lexemes.find? (·.role = .recordClose)).map (base + ·.start)).getD 0 - base = _
    cases lexemes.find? (·.role = .recordClose) with
    | none => exact Nat.zero_sub base
    | some close => exact Nat.add_sub_cancel_left ..
  have hindents : (recordOf other (lexemes.map (Placed.moved (base + ·)))).indent = (recordOf text lexemes).indent := by
    change (fieldParts (between _ _ _)).getLast?.bind _ = (fieldParts (between _ _ _)).getLast?.bind _
    rw [between_moved, fieldParts_moved, List.getLast?_map]
    cases hlast : (fieldParts (between .recordOpen .recordClose lexemes)).getLast? with
    | none => rfl
    | some part =>
        have hpart := sublist_of_mem_fieldParts (List.mem_of_getLast? hlast)
        exact indentOf_moved hindent fun placed hplaced =>
          ((hpart.trans (sublist_between _ _ hsublist)).subset hplaced)
  rw [TypeBody.moved, hfields, hclose, hindents]

theorem typeSpecOf_rebased {part : List Placed} (hsublist : part.Sublist (head :: rest)) :
    (typeSpecOf other (part.map (Placed.moved (base + ·)))).moved (· - base) = typeSpecOf text part := by
  obtain ⟨hname, halias, -⟩ := TypeSpec.mk.inj (typeSpecOf_moved (base + ·) other text part)
  have hbody : (typeSpecOf other (part.map (Placed.moved (base + ·)))).body.moved (· - base) =
      (typeSpecOf text part).body := by
    rw [typeSpecOf_body, typeSpecOf_body, isStruct_moved, typePart_moved]
    split
    · exact recordOf_moved hindent ((sublist_typePart part).trans hsublist)
    · rw [source_moved]
      rfl
  rw [TypeSpec.moved, hname, halias, hbody]

theorem typeSpecsOf_rebased :
    (typeSpecsOf other ((head :: rest).map (Placed.moved (base + ·)))).map (·.moved (· - base)) =
      typeSpecsOf text (head :: rest) := by
  have hparts : specParts ((head :: rest).map (Placed.moved (base + ·))) =
      (specParts (head :: rest)).map (List.map (Placed.moved (base + ·))) := by
    have hgroup : ((head :: rest).map (Placed.moved (base + ·))).any (·.role = .groupOpen) =
        (head :: rest).any (·.role = .groupOpen) := List.any_map
    unfold specParts
    rw [hgroup, between_moved, splitAt_moved]
    split <;> rfl
  have hnamed : hasName ∘ List.map (Placed.moved (base + ·)) = hasName := by
    funext part
    exact List.any_map
  have hsublist : ∀ part ∈ specParts (head :: rest), part.Sublist (head :: rest) := by
    intro part hpart
    unfold specParts at hpart
    split at hpart
    · exact ((sublist_of_mem_splitAt hpart).trans (sublist_between _ _ (List.Sublist.refl _))).cons head
    · exact List.mem_singleton.mp hpart ▸ List.Sublist.refl _
  rw [typeSpecsOf_eq, typeSpecsOf_eq, hparts, List.filter_map, hnamed, List.map_map, List.map_map]
  apply List.map_congr_left
  intro part hpart
  exact typeSpecOf_rebased hindent (hsublist part (List.mem_filter.mp hpart).1)

theorem importLayoutOf_rebased (hhead : ¬ isImportPart head)
    (hparts : importParts (head :: rest) ≠ [] ∨ (head :: rest).any (·.role = .groupClose)) :
    (importLayoutOf other ((head :: rest).map (Placed.moved (base + ·)))).moved (· - base) =
      importLayoutOf text (head :: rest) := by
  have hclose : ((head :: rest).map (Placed.moved (base + ·))).find? (·.role = .groupClose) =
      ((head :: rest).find? (·.role = .groupClose)).map (Placed.moved (base + ·)) := List.find?_map
  have hword : ((head :: rest).map (Placed.moved (base + ·))).find? (·.marked.kind = .keyword .importWord) =
      ((head :: rest).find? (·.marked.kind = .keyword .importWord)).map (Placed.moved (base + ·)) := List.find?_map
  have hback (found : Option Placed) (position : Placed → Nat) (hposition : ∀ placed, position (placed.moved (base + ·)) =
      base + position placed) : ((found.map (Placed.moved (base + ·))).map position).getD 0 - base =
        (found.map position).getD 0 := by
    cases found with
    | none => exact Nat.zero_sub base
    | some placed =>
        change position (placed.moved (base + ·)) - base = position placed
        rw [hposition, Nat.add_sub_cancel_left]
  unfold importLayoutOf
  dsimp only
  rw [hclose, hword, importParts_moved]
  cases hfound : (head :: rest).find? (·.role = .groupClose) with
  | some close =>
      rw [Option.map_some]
      dsimp only
      rw [ImportLayout.moved, show (close.moved (base + ·)).start - base = close.start from Nat.add_sub_cancel_left ..,
        List.getLast?_map]
      cases hlast : (importParts (head :: rest)).getLast? with
      | none => rfl
      | some part =>
          have hindents := indentOf_moved hindent fun placed =>
            mem_of_mem_importParts hhead (List.mem_of_getLast? hlast)
          exact congrArg _ hindents
  | none =>
      rw [Option.map_none]
      dsimp only
      cases hfirst : (importParts (head :: rest)).head? with
      | none =>
          obtain hparts | hgroup := hparts
          · exact absurd (List.head?_eq_none_iff.mp hfirst) hparts
          · obtain ⟨close, hclose, hrole⟩ := List.any_eq_true.mp hgroup
            exact absurd hrole (List.find?_eq_none.mp hfound close hclose)
      | some part =>
          rw [List.head?_map, hfirst, Option.map_some]
          dsimp only
          rw [ImportLayout.moved, hback _ _ (fun _ => rfl), List.head?_map, List.getLast?_map, hback _ _ (fun _ => rfl),
            hback _ _ (fun placed => Nat.add_assoc ..)]

theorem kindAt_rebased (kind : ItemKind) (hhead : kind = .importDeclaration → ¬ isImportPart head)
    (hparts : kind = .importDeclaration →
      importParts (head :: rest) ≠ [] ∨ (head :: rest).any (·.role = .groupClose)) :
    (kindAt kind other ((head :: rest).map (Placed.moved (base + ·)))).moved (· - base) =
      kindAt kind text (head :: rest) := by
  have hnames : (((head :: rest).map (Placed.moved (base + ·))).filter (·.role = .name)).map Placed.text =
      ((head :: rest).filter (·.role = .name)).map Placed.text := by
    rw [List.filter_map, List.map_map]
    rfl
  cases kind with
  | importDeclaration =>
      have hspecs : (importParts ((head :: rest).map (Placed.moved (base + ·)))).map importSpecOf =
          (importParts (head :: rest)).map importSpecOf := by
        rw [importParts_moved, List.map_map]
        apply List.map_congr_left
        intro part _
        simp only [Function.comp_apply, importSpecOf, List.find?_map, Option.map_map]
        rfl
      rw [kindAt, kindAt, DeclarationKind.moved, hspecs, importLayoutOf_rebased hindent (hhead rfl) (hparts rfl)]
  | typeDeclaration => rw [kindAt, kindAt, DeclarationKind.moved, typeSpecsOf_rebased hindent]
  | functionDeclaration => exact congrArg (fun names => DeclarationKind.function (names.head?.getD [])) hnames
  | packageClause | valueDeclaration | statement => exact congrArg DeclarationKind.values hnames

end Moved

end Structure

namespace Declaration.ReadAs

variable {declaration : Declaration} {gap rest tail : List Marked} {head : Marked} {frames final : List Frame}

theorem not_isIndent_head (hread : declaration.ReadAs gap head rest tail frames final) :
    ¬ head.text.all Text.isIndent := by
  obtain ⟨word, hword⟩ : ∃ word, head.kind = .keyword word := by
    have hdeclares := hread.declares
    unfold Section.kind at hdeclares
    split at hdeclares
    case h_7 => cases hdeclares
    all_goals exact ⟨_, Option.some.inj ‹_›⟩
  have hkeywords : ∀ entry ∈ Lexeme.keywords, ¬ entry.1.all Text.isIndent := by decide
  exact hkeywords _ ((hread.cuts.isCut head.lexeme (by simp)).keyword hword)

theorem lineIndent_eq (hread : declaration.ReadAs gap head rest tail frames final) (before after : Text) :
    ∀ placed ∈ Structure.place ((sourceOf gap).length + head.text.length) rest,
      Text.lineIndent ((before ++ (declaration.text ++ after)).take (before.length + placed.start)) =
        Text.lineIndent ((sourceOf (gap ++ head :: rest)).take placed.start) := by
  intro placed hplaced
  obtain ⟨left, right, rfl, hstart⟩ := Structure.exists_of_mem_place hplaced
  have hfront : placed.start = (sourceOf (gap ++ head :: left)).length := by
    simp [hstart, Nat.add_assoc]
  have hink : ¬ (sourceOf (gap ++ head :: left)).all Text.isIndent := by
    rw [sourceOf_append, sourceOf_cons, List.all_append, List.all_append]
    simp [hread.not_isIndent_head]
  have hsplit (more : List Marked) :
      sourceOf (gap ++ head :: (left ++ more)) = sourceOf (gap ++ head :: left) ++ sourceOf more := by simp
  have hown : (sourceOf (gap ++ head :: (left ++ placed.marked :: right))).take placed.start =
      sourceOf (gap ++ head :: left) := by
    rw [hfront, hsplit, List.take_left]
  have hwhole : (before ++ (declaration.text ++ after)).take (before.length + placed.start) =
      before ++ sourceOf (gap ++ head :: left) := by
    have htext : gap ++ head :: (left ++ placed.marked :: right) ++ tail =
        gap ++ head :: (left ++ (placed.marked :: right ++ tail)) := by simp
    rw [List.take_length_add_append, hread.text_eq, hfront, htext, hsplit, List.append_assoc, List.take_left]
  rw [hown, hwhole, Text.lineIndent_append before hink]

theorem importWord_of_section (hread : declaration.ReadAs gap head rest tail frames final)
    (hsection : (Section.mk gap (head :: rest)).kind = .importDeclaration) : head.kind = .keyword .importWord := by
  have hkind := hread.kind_eq
  rw [hsection] at hkind
  exact (hread.importWord_of_imports hkind).1

/-- What is read off a declaration where it stands in a source, with all positions counted from its beginning, is what
the declaration keeps. -/
theorem kind_rebased (hread : declaration.ReadAs gap head rest tail frames final) (before after : Text) :
    (Structure.kindAt (Section.mk gap (head :: rest)).kind (before ++ (declaration.text ++ after))
      (Structure.place before.length (gap ++ head :: rest))).moved (· - before.length) = declaration.kind := by
  have hloose {start : Nat} := @Structure.forall_place start _ _ hread.gap_loose
  rw [hread.kind_eq, Structure.kindOf_eq_kindAt, Structure.place_append, Structure.place_append,
    Structure.kindAt_loose hloose, Structure.kindAt_loose hloose, Structure.place_add, Nat.zero_add, Structure.place]
  apply Structure.kindAt_rebased (hread.lineIndent_eq before after)
  · intro hsection
    rw [hread.head_eq_importWord (hread.importWord_of_section hsection)]
    exact Bool.false_ne_true
  · intro hsection
    have hhead := hread.importWord_of_section hsection
    have hrole : head.role = .inner := by rw [hread.head_eq_importWord hhead]
    obtain ⟨lead, spec, rfl, hlead, hspec⟩ | ⟨kept, close, rfl, hclose, -⟩ :=
      (hread.import_reads hhead).import_shape hread.not_trivia_last
    · have hroles : ∀ m ∈ head :: lead, m.role ≠ .aliasing ∧ m.role ≠ .path := by
        refine List.forall_mem_cons.mpr ⟨by rw [hrole]; decide, fun m hm => ?_⟩
        rw [(hlead m hm).1]
        decide
      obtain ⟨part, hpart, -⟩ := Structure.importParts_run
        ((sourceOf gap).length + head.text.length + (sourceOf lead).length) hspec
      left
      have hfront := @Structure.forall_place (sourceOf gap).length _ _ hroles
      rw [Structure.place] at hfront
      rw [Structure.place_append, ← List.cons_append, Structure.importParts_append _ hfront, hpart]
      exact List.cons_ne_nil _ _
    · right
      rw [Structure.place_append, Structure.place]
      simp [Structure.Placed.role, hclose]

end Declaration.ReadAs

/-- Each declaration of a file that was read has the structure that the source shows at its place. -/
theorem SourceFile.kind_of_parse {text : Text} {file : SourceFile} {earlier later : List Declaration}
    {declaration : Declaration} (hparse : parse text = .ok file)
    (hsplit : file.declarations = earlier ++ declaration :: later) :
    ∃ before after gap body, text = before ++ (declaration.text ++ after) ∧
      sourceOf (gap ++ body) <+: declaration.text ∧
      (Structure.kindAt (Section.mk gap body).kind text (Structure.place before.length (gap ++ body))).moved
        (· - before.length) = declaration.kind := by
  obtain ⟨gap, head, rest, tail, frames, final, hread⟩ := isRead_of_parse hparse declaration (by simp [hsplit])
  have htext : text = (file.header ++ earlier.flatMap Declaration.text) ++
      (declaration.text ++ (later.flatMap Declaration.text ++ file.trailer)) := by
    rw [← render_of_parse hparse, render, hsplit]
    simp
  refine ⟨_, _, gap, head :: rest, htext, ⟨sourceOf tail, ?_⟩, ?_⟩
  · rw [hread.text_eq, ← sourceOf_append]
  · rw [htext]
    exact hread.kind_rebased _ _

end GoGraft
