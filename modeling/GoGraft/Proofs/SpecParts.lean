import GoGraft.Proofs.FieldLists
import GoGraft.Proofs.Lookups

/-!
# The specifications of a type declaration

A type declaration is one specification, or a group of them in parentheses. What is read of a struct type in it depends
only on what stands between the braces of that struct type.
-/

namespace GoGraft.Structure

open Grammar

theorem afterLast_append {p : Placed → Bool} {left right : List Placed} (hleft : ∀ last ∈ left.getLast?, p last)
    (hright : ∀ placed ∈ right, ¬ p placed) : afterLast p (left ++ right) = right := by
  have hreverse : ∀ placed ∈ right.reverse, (!p placed) = true := by simpa using hright
  unfold afterLast
  rw [List.reverse_append, List.takeWhile_append_of_pos hreverse]
  have hnil : left.reverse.takeWhile (!p ·) = [] := by
    rw [← List.head?_reverse] at hleft
    cases hlast : left.reverse with
    | nil => rfl
    | cons last front =>
        rw [hlast] at hleft
        rw [List.takeWhile_cons_of_neg]
        simpa using hleft last rfl
  rw [hnil, List.append_nil, List.reverse_reverse]

theorem between_append {first last : Role} {front after : List Placed} {opening : Placed}
    (hfront : ∀ placed ∈ front, placed.role ≠ first) (hopening : opening.role = first) :
    between first last (front ++ opening :: after) = after.takeWhile (·.role ≠ last) := by
  unfold between
  rw [List.dropWhile_append_of_pos (by simpa using hfront), List.dropWhile_cons_of_neg (by simpa using hopening)]
  rfl

theorem head?_trim {lexemes : List Placed} {first : Placed} (hfirst : (trim lexemes).head? = some first) :
    (lexemes.dropWhile Placed.isTrivia).head? = some first := by
  have hsuffix := List.dropWhile_suffix Placed.isTrivia (l := (lexemes.dropWhile Placed.isTrivia).reverse)
  have hfront : trim lexemes <+: lexemes.dropWhile Placed.isTrivia := by
    rw [← List.reverse_prefix, List.reverse_reverse] at hsuffix
    exact hsuffix
  obtain ⟨rest, hrest⟩ := hfront
  rw [← hrest, List.head?_append, hfirst, Option.some_or]

theorem firstKind_place (start : Nat) (marked : List Marked) :
    ((place start marked).dropWhile Placed.isTrivia).head?.map (·.marked.kind) =
      (marked.dropWhile Marked.isTrivia).head?.map Marked.kind := by
  have hdrop : (marked.dropWhile Marked.isTrivia) =
      ((place start marked).dropWhile Placed.isTrivia).map Placed.marked := by
    conv => lhs; rw [← map_marked_place start marked]
    exact List.dropWhile_map ..
  rw [hdrop, List.head?_map, Option.map_map]
  rfl

theorem isIndent_recordOf {text given : Text} {lexemes : List Placed}
    (hindent : (recordOf text lexemes).indent = some given) : given.all Text.isIndent := by
  obtain ⟨part, -, hpart⟩ := Option.bind_eq_some_iff.mp hindent
  obtain ⟨first, -, hfirst⟩ := Option.bind_eq_some_iff.mp hpart
  exact isIndent_lineIndent hfirst

theorem recordOf_eq {text : Text} {front body : List Placed} {opening close : Placed}
    (hfront : ∀ placed ∈ front, placed.role = .trivia ∨ placed.role = .inner)
    (hopening : opening.role = .recordOpen) (hbody : ∀ placed ∈ body, placed.role.IsBody)
    (hclose : close.role = .recordClose) :
    (recordOf text (front ++ opening :: (body ++ [close]))).fields = fieldsIn body ∧
      (recordOf text (front ++ opening :: (body ++ [close]))).close = close.start := by
  have hfrontRole : ∀ placed ∈ front, placed.role ≠ .recordOpen ∧ placed.role ≠ .recordClose := by
    intro placed hplaced
    obtain hrole | hrole := hfront placed hplaced <;> rw [hrole] <;> decide
  have hbodyRole : ∀ placed ∈ body, placed.role ≠ .recordClose := by
    intro placed hplaced hrole
    have hisBody := hbody placed hplaced
    rw [hrole] at hisBody
    exact Role.not_isBody_recordClose hisBody
  have hbetween : between .recordOpen .recordClose (front ++ opening :: (body ++ [close])) = body := by
    rw [between_append (fun placed hplaced => (hfrontRole placed hplaced).1) hopening,
      List.takeWhile_append_of_pos (by simpa using hbodyRole), List.takeWhile_cons_of_neg (by simpa using hclose),
      List.append_nil]
  constructor
  · simp only [recordOf, hbetween]
    rfl
  · have hnone : (front ++ opening :: body).find? (·.role = .recordClose) = none := by
      rw [List.find?_eq_none]
      intro placed hplaced
      rw [List.mem_append, List.mem_cons] at hplaced
      rw [decide_eq_true_eq]
      obtain hplaced | rfl | hplaced := hplaced
      · exact (hfrontRole placed hplaced).2
      · rw [hopening]
        decide
      · exact hbodyRole placed hplaced
    have hfind : (front ++ opening :: (body ++ [close])).find? (·.role = .recordClose) = some close := by
      rw [← List.cons_append, ← List.append_assoc, List.find?_append, hnone, Option.none_or,
        List.find?_cons_of_pos (by simpa using hclose)]
    simp [recordOf, hfind]

theorem typeSpecOf_name {lead rest : List Marked} {name : Marked} (hlead : ∀ m ∈ lead, ¬ m.isHead)
    (hname : name.role = .name) (text : Text) (start : Nat) :
    (typeSpecOf text (place start (lead ++ name :: rest))).name = name.text := by
  have hfind : (place start (lead ++ name :: rest)).find? (·.role = .name) =
      some ⟨start + (sourceOf lead).length, name⟩ := by
    apply @find?_place_append start lead rest name (fun m => m.role = .name)
    · intro m hm hrole
      exact hlead m hm (by rw [Marked.isHead, of_decide_eq_true hrole]; rfl)
    · exact decide_eq_true hname
  simp [typeSpecOf, hfind, Placed.text]

theorem typeSpecOf_isAlias {lead heads type : List Marked} {name : Marked} (hlead : ∀ m ∈ lead, ¬ m.isHead)
    (hname : name.role = .name) (htype : ∀ m ∈ type, ¬ m.isHead) (text : Text) (start : Nat) :
    (typeSpecOf text (place start (lead ++ name :: (heads ++ type)))).isAlias =
      heads.any (·.role = .aliasing) := by
  have hnone {marked : List Marked} (hmarked : ∀ m ∈ marked, ¬ m.isHead) :
      marked.any (·.role = .aliasing) = false := by
    rw [List.any_eq_false]
    intro m hm haliasing
    exact hmarked m hm (by rw [Marked.isHead, of_decide_eq_true haliasing]; rfl)
  have hany : (place start (lead ++ name :: (heads ++ type))).any (·.role = .aliasing) =
      (lead ++ name :: (heads ++ type)).any (·.role = .aliasing) := by
    conv => rhs; rw [← map_marked_place start (lead ++ name :: (heads ++ type)), List.any_map]
    rfl
  change List.any _ _ = _
  rw [hany, List.any_append, List.any_cons, List.any_append, hnone hlead, hnone htype, hname]
  simp

/-- The lexemes of the type of a specification. -/
def typePart (part : List Placed) : List Placed :=
  trim (afterLast (·.marked.isHead) part)

theorem typeSpecOf_body (text : Text) (part : List Placed) :
    (typeSpecOf text part).body =
      if (typePart part).head?.any (·.marked.kind = .keyword .structWord) then
        .record (recordOf text (typePart part))
      else
        .expr (TypeExpr.readOrKeep (source (typePart part))) :=
  rfl

theorem afterLast_moved (move : Nat → Nat) (p : Marked → Bool) (lexemes : List Placed) :
    afterLast (fun placed => p placed.marked) (lexemes.map (Placed.moved move)) =
      (afterLast (fun placed => p placed.marked) lexemes).map (Placed.moved move) := by
  unfold afterLast
  rw [← List.map_reverse, List.takeWhile_map, ← List.map_reverse]
  rfl

theorem between_moved (move : Nat → Nat) (first last : Role) (lexemes : List Placed) :
    between first last (lexemes.map (Placed.moved move)) = (between first last lexemes).map (Placed.moved move) := by
  unfold between
  rw [List.dropWhile_map, ← List.map_drop, List.takeWhile_map]
  rfl

theorem typePart_moved (move : Nat → Nat) (part : List Placed) :
    typePart (part.map (Placed.moved move)) = (typePart part).map (Placed.moved move) := by
  rw [typePart, afterLast_moved, trim_moved, typePart]

theorem isStruct_moved (move : Nat → Nat) (part : List Placed) :
    (typePart (part.map (Placed.moved move))).head?.any (·.marked.kind = .keyword .structWord) =
      (typePart part).head?.any (·.marked.kind = .keyword .structWord) := by
  rw [typePart_moved, List.head?_map, Option.any_map]
  rfl

theorem typeSpecOf_moved (move : Nat → Nat) (text other : Text) (part : List Placed) :
    (typeSpecOf text (part.map (Placed.moved move))).unplaced = (typeSpecOf other part).unplaced := by
  have hname : (typeSpecOf text (part.map (Placed.moved move))).name = (typeSpecOf other part).name := by
    have hfind : (part.map (Placed.moved move)).find? (·.role = .name) =
        (part.find? (·.role = .name)).map (Placed.moved move) := List.find?_map
    simp only [typeSpecOf, hfind, Option.map_map]
    rfl
  have halias : (typeSpecOf text (part.map (Placed.moved move))).isAlias = (typeSpecOf other part).isAlias :=
    List.any_map
  have hfields : (recordOf text (typePart (part.map (Placed.moved move)))).fields =
      (recordOf other (typePart part)).fields := by
    rw [typePart_moved]
    change fieldsIn (between _ _ _) = fieldsIn (between _ _ _)
    rw [between_moved, fieldsIn_moved]
  unfold TypeSpec.unplaced
  rw [hname, halias, typeSpecOf_body, typeSpecOf_body, isStruct_moved]
  by_cases hrecord : (typePart part).head?.any (·.marked.kind = .keyword .structWord)
  · rw [if_pos hrecord, if_pos hrecord, TypeBody.unplaced, TypeBody.unplaced, hfields]
  · rw [if_neg hrecord, if_neg hrecord, typePart_moved, source_moved]

theorem unplaced_place (start : Nat) (marked : List Marked) :
    (place start marked).map (Placed.moved fun _ => 0) = marked.map (⟨0, ·⟩) := by
  conv => rhs; rw [← map_marked_place start marked, List.map_map]
  rfl

theorem typePart_eq {lead heads type : List Marked} {name : Marked} (hname : name.role = .name)
    (hheads : ∀ last ∈ heads.getLast?, last.isHead) (htype : ∀ m ∈ type, ¬ m.isHead) (start : Nat) :
    typePart (place start (lead ++ name :: (heads ++ type))) =
      trim (place (start + (sourceOf (lead ++ name :: heads)).length) type) := by
  have hsplit : lead ++ name :: (heads ++ type) = (lead ++ name :: heads) ++ type := by simp
  rw [hsplit, place_append, typePart, afterLast_append]
  · intro last hlast
    obtain ⟨-, hmarked⟩ := getLast?_place hlast
    rw [List.getLast?_append, List.getLast?_cons] at hmarked
    cases hend : heads.getLast? with
    | none =>
        obtain hlast : name = last.marked := by simpa [hend] using hmarked
        rw [← hlast, Marked.isHead, hname]
        rfl
    | some other =>
        obtain hlast : other = last.marked := by simpa [hend] using hmarked
        rw [← hlast]
        exact hheads other hend
  · exact forall_place htype

theorem trim_record {front body rest : List Marked} {opening close : Marked}
    (hopens : OpensRecord front opening) (hclose : close.role = .recordClose)
    (hrest : ∀ m ∈ rest, m.role = .trivia) (start : Nat) :
    ∃ place1 place2, trim (place start (front ++ opening :: (body ++ close :: rest))) =
      (place start front).dropWhile Placed.isTrivia ++ ⟨place1, opening⟩ :: (place place2 body ++
        [⟨start + (sourceOf (front ++ opening :: body)).length, close⟩]) := by
  have hsplit : front ++ opening :: (body ++ close :: rest) = (front ++ opening :: body) ++ close :: rest := by
    simp
  have hstruct := hopens.struct
  rw [← firstKind_place start front] at hstruct
  have hnotrivia : (⟨start + (sourceOf (front ++ opening :: body)).length, close⟩ : Placed).role ≠ .trivia := by
    change close.role ≠ _
    rw [hclose]
    decide
  rw [hsplit, place_append, place, trim_append_cons hnotrivia (forall_place hrest), place_append, place,
    List.append_assoc, List.dropWhile_append]
  split
  · rename_i hempty
    rw [List.isEmpty_iff] at hempty
    rw [hempty] at hstruct
    cases hstruct
  · exact ⟨_, _, rfl⟩

theorem not_isHead_of_level {m : Marked} (hrole : m.role = .trivia ∨ m.role.level ≤ 2) : ¬ m.isHead := by
  simp only [Marked.isHead, Bool.or_eq_true, decide_eq_true_eq]
  rintro ((hhead | hhead) | hhead)
  all_goals
    rw [hhead] at hrole
    obtain hrole | hrole := hrole
    · cases hrole
    · exact absurd hrole (by decide)

theorem fieldsIn_place_eq (start : Nat) (marked : List Marked) :
    fieldsIn (place start marked) = fieldsIn (marked.map (Placed.mk 0)) := by
  rw [← fieldsIn_moved fun _ => 0, unplaced_place]

theorem not_isHead_record {front body rest : List Marked} {opening close : Marked} (hopens : OpensRecord front opening)
    (hbody : ∀ m ∈ body, m.role.IsBody) (hclose : close.role = .recordClose) (hrest : ∀ m ∈ rest, m.role = .trivia) :
    ∀ m ∈ front ++ opening :: (body ++ close :: rest), ¬ m.isHead := by
  intro m hm
  apply not_isHead_of_level
  simp only [List.mem_append, List.mem_cons] at hm
  obtain hm | rfl | hm | rfl | hm := hm
  · obtain hrole | hrole := hopens.front_roles m hm <;> rw [hrole] <;> decide
  · rw [hopens.opens]
    decide
  · obtain hrole | hrole | hrole := hbody m hm
    · exact .inl hrole
    · exact .inr (Nat.le_trans hrole (by decide))
    · rw [hrole]
      decide
  · rw [hclose]
    decide
  · exact .inl (hrest m hm)

/-- A struct type is read from what stands between its braces. -/
theorem typeSpecOf_record {lead heads front body rest : List Marked} {name opening close : Marked}
    (hlead : ∀ m ∈ lead, ¬ m.isHead) (hopens : OpensRecord front opening) (hname : name.role = .name)
    (hheads : ∀ last ∈ heads.getLast?, last.isHead) (hbody : ∀ m ∈ body, m.role.IsBody)
    (hclose : close.role = .recordClose) (hrest : ∀ m ∈ rest, m.role = .trivia) (text : Text) (start : Nat) :
    ∃ record, typeSpecOf text (place start
        (lead ++ name :: (heads ++ (front ++ opening :: (body ++ close :: rest))))) =
          ⟨name.text, heads.any (·.role = .aliasing), .record record⟩ ∧
      record.fields = fieldsIn (place 0 body) ∧
      record.close = start +
        (sourceOf (lead ++ name :: (heads ++ (front ++ opening :: body)))).length ∧
      ∀ given ∈ record.indent, given.all Text.isIndent := by
  have htype := not_isHead_record hopens hbody hclose hrest
  have hspecName := @typeSpecOf_name lead (heads ++ (front ++ opening :: (body ++ close :: rest))) name hlead hname
    text start
  have halias := @typeSpecOf_isAlias lead heads _ name hlead hname htype text start
  have hpart := @typePart_eq lead heads _ name hname hheads htype start
  obtain ⟨place1, place2, htrim⟩ := trim_record hopens hclose hrest
    (start + (sourceOf (lead ++ name :: heads)).length)
  rw [htrim] at hpart
  generalize hplaced : place start (lead ++ name :: (heads ++ (front ++ opening :: (body ++ close :: rest)))) =
    placed at hpart hspecName halias ⊢
  have hfront : ∀ other ∈ (place (start + (sourceOf (lead ++ name :: heads)).length) front).dropWhile
      Placed.isTrivia, other.role = .trivia ∨ other.role = .inner := by
    intro other hother
    exact forall_place hopens.front_roles other ((List.dropWhile_suffix _).mem hother)
  obtain ⟨hfields, hcloses⟩ := @recordOf_eq text _ (place place2 body) ⟨place1, opening⟩
    ⟨_, close⟩ hfront hopens.opens (forall_place hbody) hclose
  have hstruct : (typePart placed).head?.any (·.marked.kind = .keyword .structWord) := by
    have hkind := hopens.struct
    rw [← firstKind_place (start + (sourceOf (lead ++ name :: heads)).length) front] at hkind
    obtain ⟨first, hfirst, hkind⟩ := Option.map_eq_some_iff.mp hkind
    rw [hpart, List.head?_append, hfirst, Option.some_or]
    simpa using hkind
  refine ⟨recordOf text (typePart placed), ?_, ?_, ?_, fun given hgiven => isIndent_recordOf hgiven⟩
  · have hbody := typeSpecOf_body text placed
    rw [if_pos hstruct] at hbody
    rw [← hspecName, ← halias, ← hbody]
  · rw [hpart, hfields]
    rw [fieldsIn_place_eq, fieldsIn_place_eq]
  · rw [hpart, hcloses]
    simp only [sourceOf_append, sourceOf_cons, List.length_append]
    omega

theorem struct_of_record? {lead heads type : List Marked} {name : Marked} {text : Text} {start : Nat}
    {record : Record} (hname : name.role = .name) (hheads : ∀ last ∈ heads.getLast?, last.isHead)
    (htype : ∀ m ∈ type, ¬ m.isHead)
    (hrecord : (typeSpecOf text (place start (lead ++ name :: (heads ++ type)))).record? = some record) :
    (type.dropWhile Marked.isTrivia).head?.map Marked.kind = some (.keyword .structWord) := by
  have hstruct : (typePart (place start (lead ++ name :: (heads ++ type)))).head?.any
      (·.marked.kind = .keyword .structWord) := by
    apply Decidable.byContradiction
    intro hnot
    rw [TypeSpec.record?, typeSpecOf_body, if_neg hnot] at hrecord
    cases hrecord
  rw [typePart_eq hname hheads htype] at hstruct
  generalize start + (sourceOf (lead ++ name :: heads)).length = offset at hstruct
  cases hfirst : (trim (place offset type)).head? with
  | none =>
      rw [hfirst] at hstruct
      cases hstruct
  | some first =>
      rw [hfirst] at hstruct
      rw [← firstKind_place offset type, head?_trim hfirst]
      exact congrArg some (of_decide_eq_true hstruct)

/-- The parts of a type declaration that hold one specification each. -/
def specParts (lexemes : List Placed) : List (List Placed) :=
  if lexemes.any (·.role = .groupOpen) then
    splitAt .groupSplit (between .groupOpen .groupClose lexemes)
  else
    [lexemes]

def hasName (part : List Placed) : Bool :=
  part.any (·.role = .name)

theorem typeSpecsOf_eq (text : Text) (lexemes : List Placed) :
    typeSpecsOf text lexemes = ((specParts lexemes).filter hasName).map (typeSpecOf text) :=
  rfl

theorem specParts_single {lexemes : List Placed} (hlexemes : ∀ placed ∈ lexemes, placed.role ≠ .groupOpen) :
    specParts lexemes = [lexemes] := by
  have hnone : lexemes.any (·.role = .groupOpen) = false := by simpa using hlexemes
  rw [specParts, hnone]
  rfl

theorem specParts_grouped {front after : List Placed} {opening : Placed}
    (hfront : ∀ placed ∈ front, placed.role ≠ .groupOpen) (hopening : opening.role = .groupOpen) :
    specParts (front ++ opening :: after) = splitAt .groupSplit (after.takeWhile (·.role ≠ .groupClose)) := by
  have hany : (front ++ opening :: after).any (·.role = .groupOpen) := by simp [hopening]
  rw [specParts, if_pos hany, between_append hfront hopening]

/-- The run through a specification that is read as a struct type. -/
theorem split_typeSpec {lead marked : List Marked} {name : Marked} {next : List Frame} {kind : LexemeKind}
    {text : Text} {start : Nat} {record : Record} (hname : name.role = .name)
    (hreads : Reads [.decl (.typeName true)] marked next) (hleaves : Leaves kind next)
    (hrecord : (typeSpecOf text (place start (lead ++ name :: marked))).record? = some record) :
    ∃ heads front opening body close last rest,
      marked = heads ++ (front ++ opening :: (body ++ close :: rest)) ∧
      (∀ last ∈ heads.getLast?, last.isHead) ∧ OpensRecord front opening ∧
      Reads [.decl (.typeName true)] (heads ++ (front ++ [opening])) [.type (.fields true)] ∧
      ReadsBody [.type (.fields true)] body close last ∧ ∀ m ∈ rest, m.role = .trivia := by
  have hawaits : AwaitsType [.decl (.typeName true)] := .inl rfl
  obtain ⟨heads, type, middle, rfl, hheads, htype, hplain, hmiddle⟩ :=
    hreads.split_head hawaits.standing hawaits.below
  have hlast : ∀ last ∈ heads.getLast?, last.isHead := by
    intro last hmem
    obtain ⟨rfl, -⟩ | ⟨-, other, hother, hhead⟩ := hmiddle
    · cases hmem
    · obtain rfl := Option.some.inj (hother.symm.trans hmem)
      exact hhead
  have htypeAwaits : AwaitsType middle := by
    obtain ⟨-, rfl⟩ | ⟨hmiddle, -⟩ := hmiddle
    · exact hawaits
    · exact hmiddle
  have hstruct := struct_of_record? hname hlast hplain hrecord
  obtain ⟨front, opening, body, close, last, rest, rfl, hopens, hfront, hbody, hrest⟩ :=
    htype.split_record htypeAwaits hleaves hstruct
  exact ⟨heads, front, opening, body, close, last, rest, rfl, hlast, hopens, hheads.append hfront, hbody, hrest⟩

/-- The parts of a group after a specification that `after` follows. -/
def laterParts (start : Nat) : List Marked → List (List Placed)
  | [] => []
  | first :: rest =>
      if first.role = .groupSplit then
        splitAt .groupSplit ((place (start + first.text.length) rest).takeWhile (·.role ≠ .groupClose))
      else
        []

/-- What the specifications of some parts say. -/
def specsIn (parts : List (List Placed)) : List TypeSpec :=
  (parts.filter hasName).map fun part => (typeSpecOf [] part).unplaced

theorem map_unplaced (text : Text) (parts : List (List Placed)) :
    ((parts.filter hasName).map (typeSpecOf text)).map TypeSpec.unplaced = specsIn parts := by
  rw [List.map_map]
  apply List.map_congr_left
  intro part _
  exact (typeSpecOf_moved id [] text part).symm.trans (typeSpecOf_moved id [] [] part)

theorem specsIn_moved (move : Nat → Nat) (parts : List (List Placed)) :
    specsIn (parts.map (List.map (Placed.moved move))) = specsIn parts := by
  have hnamed : hasName ∘ List.map (Placed.moved move) = hasName := by
    funext part
    exact List.any_map
  unfold specsIn
  rw [List.filter_map, hnamed, List.map_map]
  apply List.map_congr_left
  intro part _
  exact typeSpecOf_moved move [] [] part

theorem specsIn_laterParts (start other : Nat) (after : List Marked) :
    specsIn (laterParts start after) = specsIn (laterParts other after) := by
  have hunplaced (start : Nat) (rest : List Marked) :
      (splitAt .groupSplit ((place start rest).takeWhile (·.role ≠ .groupClose))).map
          (List.map (Placed.moved fun _ => 0)) =
        splitAt .groupSplit ((rest.map (Placed.mk 0)).takeWhile (·.role ≠ .groupClose)) := by
    rw [← splitAt_moved, ← unplaced_place start rest, List.takeWhile_map]
    rfl
  cases after with
  | nil => rfl
  | cons first rest =>
      by_cases hfirst : first.role = .groupSplit
      · rw [laterParts, laterParts, if_pos hfirst, if_pos hfirst, ← specsIn_moved fun _ => 0, hunplaced,
          ← hunplaced (other + first.text.length), specsIn_moved]
      · rw [laterParts, laterParts, if_neg hfirst, if_neg hfirst]

/-- What the specifications of a declaration are read as when a struct type has another body. -/
structure RecordAt (gap : List Marked) (head : Marked) (front : List Marked) (bottom : List Frame)
    (earlier : List TypeSpec) (name : Text) (isAlias : Bool) : Prop where
  specBottom : SpecBottom bottom
  brace : ∃ opening, front.getLast? = some opening ∧ opening.kind = .mark .openBrace
  reads : Reads [.decl (.types true)] front (.type (.fields true) :: bottom)
  specs {gap' body rest after : List Marked} {close : Marked} (text : Text)
    (hgap : ∀ m ∈ gap', m.role = .trivia ∨ m.role = .ending) (hsource : sourceOf gap' = sourceOf gap)
    (hbody : ∀ m ∈ body, m.role.IsBody) (hclose : close.role = .recordClose)
    (hrest : ∀ m ∈ rest, m.role = .trivia) (hbottom : bottom = [] → after = [])
    (hafter : ∀ m ∈ after.head?, m.role = .groupSplit ∨ m.role = .groupClose) :
    ∃ before others record,
      typeSpecsOf text (place 0 (gap' ++ head :: (front ++ (body ++ close :: (rest ++ after))))) =
        before ++ ⟨name, isAlias, .record record⟩ :: others ∧
      before.map TypeSpec.unplaced = earlier ∧
      others.map TypeSpec.unplaced = specsIn (laterParts 0 after) ∧
      record.fields = fieldsIn (place 0 body) ∧
      record.close = (sourceOf (gap' ++ head :: (front ++ body))).length ∧
      ∀ given ∈ record.indent, given.all Text.isIndent

/-- A role that a lexeme of one specification can have. -/
def inSpec (role : Role) : Prop :=
  role ≠ .groupOpen ∧ role ≠ .groupSplit ∧ role ≠ .groupClose

theorem inSpec_of_level {role : Role} (hrole : role = .trivia ∨ role.level ≤ 3) : inSpec role := by
  refine ⟨?_, ?_, ?_⟩
  all_goals
    rintro rfl
    obtain hrole | hrole := hrole
    · cases hrole
    · exact absurd hrole (by decide)

theorem inSpec_of_isBody {role : Role} (hrole : role.IsBody) : inSpec role := by
  apply inSpec_of_level
  obtain hrole | hrole | rfl := hrole
  · exact .inl hrole
  · exact .inr (Nat.le_trans hrole (by decide))
  · decide

theorem inSpec_record {lead heads front body rest : List Marked} {name opening close : Marked}
    (hlead : ∀ m ∈ lead, inSpec m.role) (hname : name.role = .name)
    (hheads : Reads [.decl (.typeName true)] (heads ++ (front ++ [opening])) [.type (.fields true)])
    (hbody : ∀ m ∈ body, m.role.IsBody) (hclose : close.role = .recordClose)
    (hrest : ∀ m ∈ rest, m.role = .trivia) :
    ∀ m ∈ lead ++ name :: (heads ++ (front ++ opening :: (body ++ close :: rest))), inSpec m.role := by
  have hawaits : AwaitsType [.decl (.typeName true)] := .inl rfl
  have hhead : ∀ m ∈ heads ++ (front ++ [opening]), inSpec m.role := fun m hm =>
    inSpec_of_level ((hheads.level_le hawaits.below).2 m hm)
  intro m hm
  simp only [List.mem_append, List.mem_cons] at hm
  obtain hm | rfl | hm | hm | rfl | hm | rfl | hm := hm
  · exact hlead m hm
  · rw [hname]
    exact ⟨nofun, nofun, nofun⟩
  · exact hhead m (by simp [hm])
  · exact hhead m (by simp [hm])
  · exact hhead m (by simp)
  · exact inSpec_of_isBody (hbody m hm)
  · rw [hclose]
    exact ⟨nofun, nofun, nofun⟩
  · exact inSpec_of_level (.inl (hrest m hm))

theorem hasName_place {lead rest : List Marked} {name : Marked} (hname : name.role = .name) (start : Nat) :
    hasName (place start (lead ++ name :: rest)) := by
  have hmem : name ∈ lead ++ name :: rest := by simp
  obtain ⟨placed, hplaced, hmarked⟩ := @mem_place start _ _ hmem
  refine List.any_eq_true.mpr ⟨placed, hplaced, decide_eq_true ?_⟩
  rw [Placed.role, hmarked, hname]

theorem role_before_specs {gap lead : List Marked} {head : Marked}
    (hgap : ∀ m ∈ gap, m.role = .trivia ∨ m.role = .ending) (hhead : head.role = .inner)
    (hlead : ∀ m ∈ lead, m.role = .trivia) :
    ∀ m ∈ gap ++ head :: lead, m.role = .trivia ∨ m.role = .ending ∨ m.role = .inner := by
  intro m hm
  rw [List.mem_append, List.mem_cons] at hm
  obtain hm | rfl | hm := hm
  · exact (hgap m hm).imp_right .inl
  · exact .inr (.inr hhead)
  · exact .inl (hlead m hm)

theorem recordAt_single {gap lead marked : List Marked} {head name : Marked} {final : List Frame}
    {kind : LexemeKind} {text : Text} {spec : TypeSpec} {record : Record}
    (hgap : ∀ m ∈ gap, m.role = .trivia ∨ m.role = .ending) (hhead : head.role = .inner)
    (hlead : ∀ m ∈ lead, m.role = .trivia) (hskip : Reads [.decl (.types true)] lead [.decl (.types true)])
    (hname : name.role = .name)
    (hadvance : advance [.decl (.types true)] name.kind = some (name.role, [.decl (.typeName true)]))
    (hreads : Reads [.decl (.typeName true)] marked final) (hleaves : Leaves kind final)
    (hspec : typeSpecOf text (place 0 (gap ++ head :: (lead ++ name :: marked))) = spec)
    (hrecord : spec.record? = some record) :
    ∃ front body close rest last, lead ++ name :: marked = front ++ (body ++ close :: rest) ∧
      RecordAt gap head front [] [] spec.name spec.isAlias ∧ ReadsBody [.type (.fields true)] body close last ∧
      ∀ m ∈ rest, m.role = .trivia := by
  have hsplit : gap ++ head :: (lead ++ name :: marked) = (gap ++ head :: lead) ++ name :: marked := by simp
  rw [hsplit] at hspec
  obtain ⟨heads, front, opening, body, close, last, rest, rfl, hheads, hopens, hfront, hbody, hrest⟩ :=
    split_typeSpec hname hreads hleaves (hspec ▸ hrecord)
  have hbefore {gap' : List Marked} (hgap' : ∀ m ∈ gap', m.role = .trivia ∨ m.role = .ending) :
      ∀ m ∈ gap' ++ head :: lead, inSpec m.role ∧ ¬ m.isHead := by
    intro m hm
    rw [Marked.isHead, inSpec]
    obtain hrole | hrole | hrole := role_before_specs hgap' hhead hlead m hm <;> rw [hrole] <;> decide
  obtain ⟨old, hold, -⟩ := @typeSpecOf_record (gap ++ head :: lead) _ _ _ _ _ _ _ (fun m hm => (hbefore hgap m hm).2)
    hopens hname hheads hbody.roles hbody.role hrest text 0
  obtain rfl := hold.symm.trans hspec
  refine ⟨lead ++ name :: (heads ++ (front ++ [opening])), body, close, rest, last, by simp, ?_, hbody, hrest⟩
  refine ⟨.inl rfl, ⟨opening, by simp [List.getLast?_append, List.getLast?_cons], hopens.brace⟩,
    hskip.append (.step hadvance hfront), ?_⟩
  intro gap' body' rest' after close' text' hgap' hsource hbody' hclose' hrest' hbottom hafter
  obtain rfl := hbottom rfl
  have hmarked : gap' ++ head :: (lead ++ name :: (heads ++ (front ++ [opening])) ++
      (body' ++ close' :: (rest' ++ []))) = (gap' ++ head :: lead) ++ name :: (heads ++
        (front ++ opening :: (body' ++ close' :: rest'))) := by
    simp
  have hbefore' := hbefore hgap'
  have hall := inSpec_record (fun m hm => (hbefore' m hm).1) hname hfront hbody' hclose' hrest'
  obtain ⟨record', hrecord', hfields, hclose, hindent⟩ := @typeSpecOf_record (gap' ++ head :: lead) _ _ _ _ _ _ _
    (fun m hm => (hbefore' m hm).2) hopens hname hheads hbody' hclose' hrest' text' 0
  refine ⟨[], [], record', ?_, rfl, rfl, hfields, ?_, hindent⟩
  · rw [hmarked, typeSpecsOf_eq, specParts_single (forall_place fun m hm => (hall m hm).1)]
    rw [List.filter_cons_of_pos (hasName_place hname 0), List.map_cons, hrecord']
    rfl
  · rw [hclose]
    simp

/-- A specification of a group that is read alone: from the name on it runs to its end. -/
theorem split_groupPart {front part after : List Marked} {final : List Frame} {kind : LexemeKind}
    (hreads : Reads [.decl (.typeGroup true)] (front ++ (part ++ after)) final) (hleaves : Leaves kind final)
    (hfront : ∀ m ∈ front, m.role ≠ .groupClose) (hlast : ∀ last ∈ front.getLast?, last.role = .groupSplit)
    (hpart : ∀ m ∈ part, m.role ≠ .groupSplit ∧ m.role ≠ .groupClose) (hname : ∃ m ∈ part, m.role = .name)
    (hafter : ∀ m ∈ after.head?, m.role = .groupSplit ∨ m.role = .groupClose) :
    ∃ lead name marked next ends, part = lead ++ name :: marked ∧ (∀ m ∈ lead, m.role = .trivia) ∧
      name.role = .name ∧
      Reads [.decl (.typeGroup true)] (front ++ (lead ++ [name])) [.decl (.typeName true), specFloor] ∧
      Reads [.decl (.typeName true), specFloor] marked (next ++ [specFloor]) ∧
      Reads [.decl (.typeName true)] marked next ∧ Leaves ends next := by
  obtain ⟨first, hfrontReads, hreads⟩ := hreads.of_append
  obtain ⟨hgroup, hsplit⟩ := hfrontReads.after_groupSplit (.inl rfl) hfront
  have hfirst : first = [.decl (.typeGroup true)] := by
    cases hend : front.getLast? with
    | none =>
        obtain rfl := List.getLast?_eq_none_iff.mp hend
        cases hfrontReads
        rfl
    | some last => exact hsplit last hend (hlast last hend)
  subst hfirst
  obtain ⟨second, hpartReads, hreads⟩ := hreads.of_append
  obtain ⟨-, htrivia⟩ | ⟨lead, name, marked, middle, rfl, hskip, hlead, hnot, hadvance, hmarked⟩ :=
    hpartReads.skip_trivia (by simp; decide)
  · obtain ⟨m, hm, hrole⟩ := hname
    cases (htrivia m hm).symm.trans hrole
  obtain ⟨hrole, rfl⟩ | ⟨hclose, -⟩ := advance_typeGroup hadvance hnot
  · obtain ⟨next, hnext, rfl⟩ := @Reads.above _ _ [.decl (.typeName true)] [specFloor] hmarked (.inr rfl)
      fun m hm => hpart m (by simp [hm])
    obtain ⟨spec, others, last, ends, rfl, hspec, hends, -⟩ := hreads.split_spec (.inr rfl) hleaves
    obtain ⟨rfl⟩ : spec = [] := by
      cases spec with
      | nil => rfl
      | cons m spec =>
          have hawaits : AwaitsType [.decl (.typeName true)] := .inl rfl
          have hlevel := (hspec.level_le (hnext.level_le hawaits.below).1).2 m (by simp)
          obtain ⟨-, hsplit, hclose⟩ := inSpec_of_level hlevel
          obtain hrole | hrole := hafter m rfl
          · exact absurd hrole hsplit
          · exact absurd hrole hclose
    cases hspec
    exact ⟨lead, name, marked, next, ends, rfl, hlead, hrole,
      hfrontReads.append (hskip.append (.step hadvance (.refl _))), hmarked, hnext, hends⟩
  · exact absurd hclose (hpart name (by simp)).2

theorem splitAt_groupPart {front part after : List Marked} {before : List (List Placed)} {start : Nat}
    (hbefore : ∀ other, splitAt .groupSplit (place start front ++ other) = before ++ splitAt .groupSplit other)
    (hfront : ∀ m ∈ front, m.role ≠ .groupClose) (hpart : ∀ m ∈ part, inSpec m.role)
    (hafter : ∀ m ∈ after.head?, m.role = .groupSplit ∨ m.role = .groupClose) :
    splitAt .groupSplit ((place start (front ++ (part ++ after))).takeWhile (·.role ≠ .groupClose)) =
      before ++ place (start + (sourceOf front).length) part ::
        laterParts (start + (sourceOf front).length + (sourceOf part).length) after := by
  have hfrontPlaced : ∀ placed ∈ place start front, (decide (placed.role ≠ .groupClose)) = true :=
    fun placed hplaced => decide_eq_true (forall_place hfront placed hplaced)
  have hpartPlaced : ∀ placed ∈ place (start + (sourceOf front).length) part,
      (decide (placed.role ≠ .groupClose)) = true :=
    fun placed hplaced => decide_eq_true (forall_place hpart placed hplaced).2.2
  rw [place_append, place_append, List.takeWhile_append_of_pos hfrontPlaced,
    List.takeWhile_append_of_pos hpartPlaced, hbefore]
  generalize start + (sourceOf front).length = offset
  have hne : ∀ placed ∈ place offset part, placed.role ≠ .groupSplit :=
    fun placed hplaced => (forall_place hpart placed hplaced).2.1
  cases after with
  | nil => rw [place, List.takeWhile_nil, List.append_nil, splitAt_of_ne hne, laterParts]
  | cons m after =>
      obtain hsplit | hclose := hafter m rfl
      · rw [place, List.takeWhile_cons_of_pos (by simp [Placed.role, hsplit]),
          splitAt_append_cons (show Placed.role ⟨_, m⟩ = .groupSplit from hsplit), splitAt_of_ne hne, laterParts,
          if_pos hsplit]
        rfl
      · rw [place, List.takeWhile_cons_of_neg (by simp [Placed.role, hclose]), List.append_nil,
          splitAt_of_ne hne, laterParts, if_neg (by rw [hclose]; decide)]

theorem exists_groupPart {marked : List Marked} {before after : List (List Placed)} {part : List Placed}
    {start : Nat} (hparts : splitAt .groupSplit ((place start marked).takeWhile (·.role ≠ .groupClose)) =
      before ++ part :: after) :
    ∃ front spec back, marked = front ++ (spec ++ back) ∧
      part = place (start + (sourceOf front).length) spec ∧
      (∀ other, splitAt .groupSplit (place start front ++ other) = before ++ splitAt .groupSplit other) ∧
      (∀ m ∈ front, m.role ≠ .groupClose) ∧ (∀ last ∈ front.getLast?, last.role = .groupSplit) ∧
      (∀ m ∈ spec, m.role ≠ .groupSplit ∧ m.role ≠ .groupClose) ∧
      ∀ m ∈ back.head?, m.role = .groupSplit ∨ m.role = .groupClose := by
  obtain ⟨placedFront, placedBack, htake, hbefore, hlast, hne, hback⟩ := splitAt_eq_append hparts
  have hplace : place start marked = placedFront ++ (part ++ (placedBack ++
      (place start marked).dropWhile (·.role ≠ .groupClose))) := by
    conv => lhs; rw [← List.takeWhile_append_dropWhile (p := fun placed : Placed => placed.role ≠ .groupClose)
      (l := place start marked), htake]
    simp
  have hopen : ∀ placed ∈ placedFront ++ (part ++ placedBack), placed.role ≠ .groupClose := by
    intro placed hplaced
    rw [← htake] at hplaced
    simpa using List.all_eq_true.mp List.all_takeWhile placed hplaced
  have hclose : ∀ placed ∈ ((place start marked).dropWhile (·.role ≠ .groupClose)).head?,
      placed.role = .groupClose := by
    intro placed hplaced
    have hhead := List.head?_dropWhile_not (fun placed : Placed => placed.role ≠ .groupClose) (place start marked)
    rw [hplaced] at hhead
    simpa using hhead
  -- What comes apart with places comes apart without them.
  generalize (place start marked).dropWhile (·.role ≠ .groupClose) = placedRest at hplace hclose
  obtain ⟨front, others, rfl, rfl, hothers⟩ := place_eq_append hplace
  obtain ⟨spec, back, rfl, rfl, hbackEq⟩ := place_eq_append hothers.symm
  refine ⟨front, spec, back, rfl, rfl, hbefore, ?_, ?_, ?_, ?_⟩
  · intro m hm
    obtain ⟨placed, hplaced, rfl⟩ := @mem_place start front m hm
    exact hopen placed (by simp [hplaced])
  · intro last hmem
    rw [← map_marked_place start front, List.getLast?_map] at hmem
    obtain ⟨placed, hplaced, rfl⟩ := Option.map_eq_some_iff.mp hmem
    exact hlast placed hplaced
  · intro m hm
    obtain ⟨placed, hplaced, rfl⟩ := @mem_place (start + (sourceOf front).length) spec m hm
    exact ⟨hne placed hplaced, hopen placed (by simp [hplaced])⟩
  · intro m hm
    rw [← map_marked_place (start + (sourceOf front).length + (sourceOf spec).length) back, ← hbackEq,
      List.head?_map, List.head?_append] at hm
    obtain ⟨placed, hplaced, rfl⟩ := Option.map_eq_some_iff.mp hm
    cases hfirst : placedBack.head? with
    | none =>
        rw [hfirst, Option.none_or] at hplaced
        exact .inr (hclose placed hplaced)
    | some first =>
        rw [hfirst, Option.some_or] at hplaced
        obtain rfl := Option.some.inj hplaced
        exact .inl (hback first hfirst)

theorem reads_in_group {front rest : List Marked} {next final : List Frame}
    (hreads : Reads [.decl (.typeName true), specFloor] (front ++ rest) final)
    (halone : Reads [.decl (.typeName true)] front next) :
    Reads [.decl (.typeName true), specFloor] front (next ++ [specFloor]) := by
  have hawaits : AwaitsType [.decl (.typeName true)] := .inl rfl
  obtain ⟨middle, hmiddle, -⟩ := hreads.of_append
  obtain ⟨above, habove, rfl⟩ := @Reads.above _ _ [.decl (.typeName true)] [specFloor] hmiddle (.inr rfl) fun m hm =>
    (inSpec_of_level ((halone.level_le hawaits.below).2 m hm)).2
  obtain rfl := halone.unique habove
  exact hmiddle

theorem recordAt_grouped {gap lead marked : List Marked} {head group : Marked} {final : List Frame}
    {kind : LexemeKind} {text : Text} {spec : TypeSpec} {record : Record} {before after : List (List Placed)}
    {part : List Placed} {start : Nat} (hstart : start = (sourceOf (gap ++ head :: (lead ++ [group]))).length)
    (hhead : head.role = .inner) (hlead : ∀ m ∈ lead, m.role = .trivia)
    (hskip : Reads [.decl (.types true)] lead [.decl (.types true)]) (hgroup : group.role = .groupOpen)
    (hadvance : advance [.decl (.types true)] group.kind = some (group.role, [.decl (.typeGroup true)]))
    (hreads : Reads [.decl (.typeGroup true)] marked final) (hleaves : Leaves kind final)
    (hparts : splitAt .groupSplit ((place start marked).takeWhile (·.role ≠ .groupClose)) =
      before ++ part :: after)
    (hname : hasName part) (hspec : typeSpecOf text part = spec) (hrecord : spec.record? = some record) :
    ∃ front body close rest others last,
      lead ++ group :: marked = front ++ (body ++ close :: (rest ++ others)) ∧
      RecordAt gap head front [specFloor] (specsIn before) spec.name spec.isAlias ∧
      ReadsBody [.type (.fields true)] body close last ∧ (∀ m ∈ rest, m.role = .trivia) ∧
      ∀ m ∈ others.head?, m.role = .groupSplit ∨ m.role = .groupClose := by
  obtain ⟨front, part, back, rfl, rfl, hbefore, hfront, hlast, hpart, hback⟩ := exists_groupPart hparts
  have hnamed : ∃ m ∈ part, m.role = .name := by
    obtain ⟨placed, hplaced, hrole⟩ := List.any_eq_true.mp hname
    refine ⟨placed.marked, ?_, of_decide_eq_true hrole⟩
    rw [← map_marked_place (start + (sourceOf front).length) part]
    exact List.mem_map_of_mem hplaced
  obtain ⟨inner, name, marked, next, ends, rfl, hinner, hnameRole, hfrontReads, hcombined, hmarked, hends⟩ :=
    split_groupPart hreads hleaves hfront hlast hpart hnamed hback
  obtain ⟨heads, open', opening, body, close, last, rest, rfl, hheads, hopens, hopening, hbody, hrest⟩ :=
    split_typeSpec hnameRole hmarked hends (hspec ▸ hrecord)
  have hunnamed : ∀ m ∈ inner, ¬ m.isHead := fun m hm => not_isHead_of_level (.inl (hinner m hm))
  obtain ⟨old, hold, -⟩ := @typeSpecOf_record inner _ _ _ _ _ _ _ hunnamed hopens hnameRole hheads hbody.roles
    hbody.role hrest text (start + (sourceOf front).length)
  obtain rfl := hold.symm.trans hspec
  refine ⟨lead ++ group :: (front ++ (inner ++ name :: (heads ++ (open' ++ [opening])))), body, close, rest, back,
    last, by simp, ⟨.inr rfl, ⟨opening, ?_, hopens.brace⟩, ?_, ?_⟩, hbody, hrest, hback⟩
  · simp [List.getLast?_append, List.getLast?_cons]
  · have hsplit : heads ++ (open' ++ opening :: (body ++ close :: rest)) =
        (heads ++ (open' ++ [opening])) ++ (body ++ close :: rest) := by
      simp
    rw [hsplit] at hcombined
    have hnamed := hfrontReads.append (reads_in_group hcombined hopening)
    simpa using hskip.append (.step hadvance hnamed)
  -- With another body and other text behind it, the parts before the specification are the same.
  · intro gap' body' rest' after' close' text' hgap hsource hbody' hclose' hrest' hbottom hafter'
    have hmarked' : gap' ++ head :: (lead ++ group :: (front ++ (inner ++ name :: (heads ++ (open' ++ [opening])))) ++
        (body' ++ close' :: (rest' ++ after'))) = (gap' ++ head :: lead) ++ group :: (front ++
          ((inner ++ name :: (heads ++ (open' ++ opening :: (body' ++ close' :: rest')))) ++ after')) := by
      simp
    have hgroupOpen : ∀ m ∈ gap' ++ head :: lead, m.role ≠ .groupOpen := by
      intro m hm
      obtain hrole | hrole | hrole := role_before_specs hgap hhead hlead m hm <;> rw [hrole] <;> decide
    have hoffset : 0 + (sourceOf (gap' ++ head :: lead)).length + group.text.length = start := by
      simp only [hstart, sourceOf_append, sourceOf_cons, sourceOf_nil, hsource, List.length_append, List.length_nil]
      omega
    have hinSpec := inSpec_record (fun m hm => inSpec_of_level (.inl (hinner m hm))) hnameRole hopening hbody'
      hclose' hrest'
    obtain ⟨later, hothers⟩ : ∃ later, splitAt .groupSplit ((place start (front ++ (_ ++ after'))).takeWhile
        (·.role ≠ .groupClose)) = before ++ place (start + (sourceOf front).length) _ :: laterParts later after' :=
      ⟨_, splitAt_groupPart hbefore hfront hinSpec hafter'⟩
    obtain ⟨record', hrecord', hfields, hcloses, hindent⟩ := @typeSpecOf_record inner _ _ _ _ _ _ _
      hunnamed hopens hnameRole hheads hbody' hclose' hrest' text' (start + (sourceOf front).length)
    refine ⟨(before.filter hasName).map (typeSpecOf text'), ((laterParts later after').filter hasName).map
      (typeSpecOf text'), record', ?_, map_unplaced text' before, ?_, hfields, ?_, hindent⟩
    · rw [hmarked', place_append, place, hoffset, typeSpecsOf_eq,
        specParts_grouped (forall_place hgroupOpen) (show Placed.role ⟨_, group⟩ = _ from hgroup), hothers,
        List.filter_append, List.filter_cons_of_pos (hasName_place hnameRole _), List.map_append, List.map_cons,
        hrecord']
    · rw [map_unplaced]
      exact specsIn_laterParts _ 0 after'
    · rw [hcloses, ← hoffset]
      simp only [sourceOf_append, sourceOf_cons, sourceOf_nil, List.length_append, List.length_nil]
      omega

theorem advance_typeKeyword {kind : LexemeKind} {role : Role} {next : List Frame}
    (hadvance : advance [.decl (.types true)] kind = some (role, next)) (hrole : role ≠ .trivia) :
    (role = .name ∧ next = [.decl (.typeName true)]) ∨ (role = .groupOpen ∧ next = [.decl (.typeGroup true)]) := by
  obtain ⟨htrivia, -⟩ | hread := advance_whole hadvance fun mark left right hhalves => by
    cases mark <;> cases hhalves <;> rfl
  · exact absurd htrivia hrole
  · have hmove := move_of_read hread
    simp only [Frame.move, DeclFrame.move] at hmove
    repeat' split at hmove
    all_goals cases hmove
    · exact .inr ⟨rfl, rfl⟩
    · exact .inl ⟨rfl, rfl⟩

theorem filter_map_eq_append {α β : Type} {p : α → Bool} {f : α → β} {l : List α} {before after : List β} {b : β}
    (hsplit : (l.filter p).map f = before ++ b :: after) :
    ∃ left a right, l = left ++ a :: right ∧ p a ∧ f a = b ∧ (left.filter p).map f = before := by
  obtain ⟨kept, others, hkept, rfl, hothers⟩ := List.map_eq_append_iff.mp hsplit
  obtain ⟨a, rest, rfl, rfl, -⟩ := List.map_eq_cons_iff.mp hothers
  obtain ⟨left, more, rfl, hleft, hmore⟩ := List.filter_eq_append_iff.mp hkept
  obtain ⟨skipped, right, rfl, hskipped, ha, -⟩ := List.filter_eq_cons_iff.mp hmore
  refine ⟨left ++ skipped, a, right, by simp, ha, rfl, ?_⟩
  rw [List.filter_append, hleft, List.filter_eq_nil_iff.mpr hskipped, List.append_nil]

theorem eq_of_singleton {α : Type} {a b : α} {left right : List α} (hsingle : [a] = left ++ b :: right) :
    left = [] ∧ a = b := by
  obtain ⟨rfl, hright⟩ := List.append_eq_singleton_iff.mp hsingle.symm |>.resolve_right (by simp)
  exact ⟨rfl, (List.cons.inj hright).1.symm⟩

/-- Where a struct type stands in a type declaration. -/
theorem exists_recordAt {gap rest : List Marked} {head : Marked} {final : List Frame} {kind : LexemeKind}
    {text : Text} {before others : List TypeSpec} {spec : TypeSpec} {record : Record}
    (hgap : ∀ m ∈ gap, m.role = .trivia ∨ m.role = .ending) (hhead : head.role = .inner)
    (hreads : Reads [.decl (.types true)] rest final) (hleaves : Leaves kind final)
    (hspecs : typeSpecsOf text (place 0 (gap ++ head :: rest)) = before ++ spec :: others)
    (hrecord : spec.record? = some record) :
    ∃ front body close trivia after bottom last,
      rest = front ++ (body ++ close :: (trivia ++ after)) ∧
      RecordAt gap head front bottom (before.map TypeSpec.unplaced) spec.name spec.isAlias ∧
      ReadsBody [.type (.fields true)] body close last ∧ (∀ m ∈ trivia, m.role = .trivia) ∧
      (bottom = [] → after = []) ∧ ∀ m ∈ after.head?, m.role = .groupSplit ∨ m.role = .groupClose := by
  have hbefore {lead : List Marked} (hlead : ∀ m ∈ lead, m.role = .trivia) :
      ∀ m ∈ gap ++ head :: lead, m.role ≠ .groupOpen ∧ m.role ≠ .name := by
    intro m hm
    obtain hrole | hrole | hrole := role_before_specs hgap hhead hlead m hm <;> rw [hrole] <;> decide
  rw [typeSpecsOf_eq] at hspecs
  obtain ⟨left, part, right, hparts, hname, hspec, hleft⟩ := filter_map_eq_append hspecs
  obtain ⟨-, htrivia⟩ | ⟨lead, first, marked, middle, rfl, hskip, hlead, hnot, hadvance, hmarked⟩ :=
    hreads.skip_trivia (by simp; decide)
  -- Trivia has no name in it, and the part that `spec` was read from has one.
  · have hnone := hbefore htrivia
    rw [specParts_single (forall_place fun m hm => (hnone m hm).1)] at hparts
    obtain ⟨rfl, rfl⟩ := eq_of_singleton hparts
    obtain ⟨placed, hplaced, hrole⟩ := List.any_eq_true.mp hname
    exact absurd (of_decide_eq_true hrole) (forall_place (fun m hm => (hnone m hm).2) placed hplaced)
  obtain ⟨hrole, rfl⟩ | ⟨hrole, rfl⟩ := advance_typeKeyword hadvance hnot
  -- A specification without parentheses is the only part.
  · have hawaits : AwaitsType [.decl (.typeName true)] := .inl rfl
    have hsingle : ∀ m ∈ gap ++ head :: (lead ++ first :: marked), m.role ≠ .groupOpen := by
      intro m hm
      have hmem : m ∈ gap ++ head :: lead ∨ m = first ∨ m ∈ marked := by simpa [or_assoc] using hm
      obtain hm | rfl | hm := hmem
      · exact (hbefore hlead m hm).1
      · rw [hrole]
        decide
      · exact (inSpec_of_level ((hmarked.level_le hawaits.below).2 m hm)).1
    rw [specParts_single (forall_place hsingle)] at hparts
    obtain ⟨rfl, rfl⟩ := eq_of_singleton hparts
    obtain ⟨front, body, close, trivia, last, hrest, hat, hbody, htrivia⟩ :=
      recordAt_single hgap hhead hlead hskip hrole hadvance hmarked hleaves hspec hrecord
    refine ⟨front, body, close, trivia, [], [], last, by simpa using hrest, ?_, hbody, htrivia, fun _ => rfl,
      by simp⟩
    rw [← hleft]
    exact hat
  -- In a group, the parts are counted from its parenthesis on.
  · have hplace : place 0 (gap ++ head :: (lead ++ first :: marked)) = place 0 (gap ++ head :: lead) ++
        ⟨0 + (sourceOf (gap ++ head :: lead)).length, first⟩ ::
          place (sourceOf (gap ++ head :: (lead ++ [first]))).length marked := by
      have hsplit : gap ++ head :: (lead ++ first :: marked) = (gap ++ head :: lead) ++ first :: marked := by simp
      rw [hsplit, place_append, place]
      simp [Nat.add_assoc]
    rw [hplace, specParts_grouped (forall_place fun m hm => (hbefore hlead m hm).1)
      (show Placed.role ⟨_, first⟩ = _ from hrole)] at hparts
    obtain ⟨front, body, close, trivia, after, last, hrest, hat, hbody, htrivia, hafter⟩ :=
      recordAt_grouped rfl hhead hlead hskip hrole hadvance hmarked hleaves hparts hname hspec hrecord
    refine ⟨front, body, close, trivia, after, [specFloor], last, hrest, ?_, hbody, htrivia, by rintro ⟨⟩, hafter⟩
    rw [← hleft, map_unplaced]
    exact hat

end GoGraft.Structure
