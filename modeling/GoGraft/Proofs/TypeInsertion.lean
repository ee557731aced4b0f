import GoGraft.Proofs.FileEdits
import GoGraft.Proofs.SpecParts

/-!
# Types that are added

A new type is written after empty lines and its comment, as a declaration without parentheses. Its name is the only
lexeme of the declaration that is read as the name of a type, whatever the text of its body is read as.
-/

namespace GoGraft

open Grammar Lexeme

/-- The keyword of a type declaration. -/
def typeWord : Lexeme :=
  ⟨.keyword .typeWord, "type".toList⟩

namespace Declaration.ReadAs

variable {declaration : Declaration} {gap rest tail : List Marked} {head : Marked}
  {frames final : List Frame}

theorem typeSpecs_eq (hread : declaration.ReadAs gap head rest tail frames final)
    (hhead : head.kind = .keyword .typeWord) :
    declaration.typeSpecs = Structure.typeSpecsOf (sourceOf (gap ++ head :: rest))
      (Structure.place 0 (gap ++ head :: rest)) := by
  have hkind := hread.kind_eq
  have hsection : (Section.mk gap (head :: rest)).kind = .typeDeclaration := by
    simp [Section.kind, hhead]
  rw [hsection] at hkind
  simp [Declaration.typeSpecs, hkind, Structure.kindOf]

theorem frames_types (hread : declaration.ReadAs gap head rest tail frames final)
    (hhead : head.kind = .keyword .typeWord) :
    frames = [.decl (.types true)] ∧ head.role = .inner := by
  have hopens := hread.head_opens
  rw [hhead] at hopens
  obtain ⟨hrole, hframes⟩ := Prod.mk.inj (Option.some.inj hopens)
  exact ⟨(@List.append_cancel_right Frame [.decl (.types true)] _ _ hframes).symm, hrole.symm⟩

end Declaration.ReadAs

namespace Grammar

theorem isLoose_ofWord (text : Text) : isLoose (ofWord text) = false := by
  unfold ofWord
  split
  · rfl
  · split <;> rfl

theorem advance_types {text : Text} {role : Role} {next : List Frame}
    (hadvance : advance [.decl (.types true)] (ofWord text) = some (role, next)) :
    role = .name ∧ next = [.decl (.typeName true)] := by
  unfold ofWord at hadvance
  split at hadvance
  · rename_i word _
    cases word <;> cases hadvance
  · split at hadvance
    · cases hadvance
      exact ⟨rfl, rfl⟩
    · cases hadvance
      exact ⟨rfl, rfl⟩

theorem Reads.type_named {rest : List Marked} {final : List Frame} {blank : Lexeme} {name : Text}
    {more : List Lexeme} (hreads : Reads [.decl (.types true)] rest final) (hblank : blank.kind = .blank)
    (hlexemes : rest.map Marked.lexeme = blank :: ⟨ofWord name, name⟩ :: more) :
    ∃ others, rest = ⟨blank, .trivia⟩ :: ⟨⟨ofWord name, name⟩, .name⟩ :: others ∧
      Reads [.decl (.typeName true)] others final := by
  obtain ⟨first, rest, rfl, rfl, hnext⟩ := List.map_eq_cons_iff.mp hlexemes
  obtain ⟨second, others, rfl, hsecond, -⟩ := List.map_eq_cons_iff.mp hnext
  have htrivia : advance [.decl (.types true)] .blank = some (.trivia, [.decl (.types true)]) := rfl
  have hkind : first.kind = .blank := hblank
  have hkindName : second.kind = ofWord name := congrArg Lexeme.kind hsecond
  cases hreads with
  | step hfirst hreads =>
      rw [hkind, htrivia] at hfirst
      obtain ⟨hrole, rfl⟩ := Prod.mk.inj (Option.some.inj hfirst)
      cases hreads with
      | step hname hreads =>
          rw [hkindName] at hname
          obtain ⟨hnameRole, rfl⟩ := advance_types hname
          refine ⟨others, ?_, hreads⟩
          rw [hrole, ← hsecond, ← hnameRole]

theorem Reads.not_isName {others : List Marked} {final : List Frame}
    (hreads : Reads [.decl (.typeName true)] others final) :
    ∀ m ∈ others, m.role ≠ .name ∧ m.role ≠ .groupOpen := by
  have hbelow : Below 3 [.decl (.typeName true)] := by
    simp [Frame.level, DeclFrame.level, levelOnTop]
  intro m hm
  obtain hrole | hlevel := (hreads.level_le hbelow).2 m hm
  · rw [hrole]
    decide
  · constructor
    · intro hrole
      rw [hrole] at hlevel
      exact absurd hlevel (by decide)
    · intro hrole
      rw [hrole] at hlevel
      exact absurd hlevel (by decide)

end Grammar

theorem Structure.typeSpecsOf_single {text : Text} {before after : List Marked} {m : Marked}
    (hbefore : ∀ other ∈ before, ¬ other.isHead ∧ other.role ≠ .groupOpen)
    (hm : m.role = .name) (hafter : ∀ other ∈ after, other.role ≠ .name ∧ other.role ≠ .groupOpen) :
    typeSpecsOf text (place 0 (before ++ m :: after)) = [typeSpecOf text (place 0 (before ++ m :: after))] ∧
      (typeSpecOf text (place 0 (before ++ m :: after))).name = m.text := by
  have hsingle : ∀ other ∈ before ++ m :: after, other.role ≠ .groupOpen := by
    refine List.forall_mem_append.mpr ⟨fun other hother => (hbefore other hother).2, ?_⟩
    refine List.forall_mem_cons.mpr ⟨?_, fun other hother => (hafter other hother).2⟩
    rw [hm]
    decide
  refine ⟨?_, typeSpecOf_name (fun other hother => (hbefore other hother).1) hm text 0⟩
  rw [typeSpecsOf_eq, specParts_single (forall_place hsingle), List.filter_cons_of_pos (hasName_place hm 0)]
  rfl

/-- What is written of a type after its name. -/
def NewType.bodyText (type : NewType) (newline : Text) : Text :=
  match type.body with
  | .record fields => "struct \x7b".toList ++ newline ++ fields.flatMap (·.render ['\t'] newline) ++ ['\x7d']
  | .defined type => type.render
  | .aliased type => "= ".toList ++ type.render

theorem NewType.render_eq (type : NewType) (newline : Text) :
    type.render newline =
      renderDoc type.doc [] newline ++ ("type ".toList ++ (type.name ++ ' ' :: type.bodyText newline)) := by
  obtain ⟨name, doc, body⟩ := type
  cases body <;> simp [NewType.render, NewType.bodyText]

theorem not_isSpace_renderDoc (doc : Option Text) {newline rest : Text}
    (hrest : ∀ c ∈ rest.head?, ¬ Text.isSpace c) :
    ∀ c ∈ (renderDoc doc [] newline ++ rest).head?, ¬ Text.isSpace c := by
  unfold renderDoc
  cases Text.lines (doc.getD []) with
  | nil => exact hrest
  | cons line lines =>
      intro c hc
      obtain rfl : '/' = c := by simpa using hc
      decide

theorem lexemes_newTypeText (type : NewType) {newline : Text} (hnewline : IsLineEnding newline) :
    ∃ front, Scan.lexemes (newline ++ newline ++ type.render newline) =
        front ++ typeWord :: Scan.lexemes ([' '] ++ (type.name ++ ' ' :: type.bodyText newline)) ∧
      ∀ lexeme ∈ front, isLoose lexeme.kind := by
  have hrender := type.render_eq newline
  generalize type.name ++ ' ' :: type.bodyText newline = text at hrender ⊢
  have hgap : ∀ c ∈ newline ++ newline, Text.isSpace c := by
    simpa using hnewline.isSpace
  have hink : ∀ c ∈ ("type ".toList ++ text).head?, ¬ Text.isSpace c := by
    intro c hc
    obtain rfl := Option.some.inj hc
    decide
  obtain ⟨doc, hdoc, hdocTrivial⟩ := @Scan.lexemes_renderDoc type.doc [] newline ("type ".toList ++ text) rfl hnewline
  have hword : Scan.lexemes ("type ".toList ++ text) = typeWord :: Scan.lexemes ([' '] ++ text) := by
    apply @Scan.lexemes_word 't' "ype".toList _ (by decide) (List.all_eq_true.mp (by decide))
    intro d hd
    obtain rfl := Option.some.inj hd
    decide
  refine ⟨Scan.lexemes (newline ++ newline) ++ doc, ?_, ?_⟩
  · rw [hrender, Scan.lexemes_white hgap (not_isSpace_renderDoc type.doc hink), hdoc, hword, List.append_assoc]
  · rw [List.forall_mem_append]
    constructor
    · intro lexeme hlexeme
      exact isLoose_of_isWhite (Scan.isWhite_of_mem_lexemes hgap lexeme hlexeme)
    · intro lexeme hlexeme
      exact isLoose_of_isTrivial (hdocTrivial lexeme hlexeme)

theorem lexemes_newType {type : NewType} {newline : Text} (hname : isIdentifier type.name)
    (hnewline : IsLineEnding newline)
    (hstray : ∀ lexeme ∈ Scan.lexemes (newline ++ newline ++ type.render newline),
      lexeme.kind ≠ .stray) :
    ∃ front, Scan.lexemes (newline ++ newline ++ type.render newline) =
        front ++ typeWord :: ⟨.blank, [' ']⟩ :: ⟨ofWord type.name, type.name⟩ ::
          Scan.lexemes (' ' :: type.bodyText newline) ∧
      ∀ lexeme ∈ front, isLoose lexeme.kind := by
  obtain ⟨front, hall, hfront⟩ := lexemes_newTypeText type hnewline
  have hblank := @Scan.lexemes_white [' '] (type.name ++ ' ' :: type.bodyText newline)
    (List.forall_mem_singleton.mpr (by decide)) (Scan.not_isSpace_identifier hname)
  have hidentifier : Scan.lexemes (type.name ++ ' ' :: type.bodyText newline) =
      ⟨ofWord type.name, type.name⟩ :: Scan.lexemes (' ' :: type.bodyText newline) := by
    apply Scan.lexemes_identifier hname
    · intro d hd
      obtain rfl := Option.some.inj hd
      decide
    · intro lexeme hlexeme
      apply hstray lexeme
      rw [hall, hblank]
      simp [hlexeme]
  refine ⟨front, ?_, hfront⟩
  rw [hall, hblank, hidentifier]
  rfl

/-- Whatever a new type is called, it is read as no import. -/
theorem not_isImport_of_newType {type : NewType} {newline : Text} {declaration : Declaration}
    (hnewline : IsLineEnding newline) (hparse : Declaration.parse (newTypeText type newline) = .ok declaration) :
    ¬ declaration.isImport := by
  obtain ⟨⟨gap, head, rest, tail, frames, final, hread⟩, htext⟩ := Declaration.isRead_of_parse hparse
  obtain ⟨front, hlexemes, hfront⟩ := lexemes_newTypeText type hnewline
  rw [← newTypeText, ← htext] at hlexemes
  obtain ⟨-, hhead, -⟩ := hread.split_lexemes hlexemes hfront (by decide)
  intro himport
  have hword := hread.importWord_of_isImport himport
  rw [Marked.kind, hhead] at hword
  cases hword

/-- A new type is read from its name on as a specification without parentheses. -/
theorem exists_readAs_of_newType {type : NewType} {newline : Text} {declaration : Declaration}
    (hname : isIdentifier type.name) (hnewline : IsLineEnding newline)
    (hparse : Declaration.parse (newline ++ newline ++ type.render newline) = .ok declaration) :
    ∃ gap head others tail final,
      declaration.ReadAs gap head (⟨⟨.blank, [' ']⟩, .trivia⟩ :: ⟨⟨ofWord type.name, type.name⟩, .name⟩ :: others) tail
        [.decl (.types true)] final ∧
      head.kind = .keyword .typeWord ∧ head.role = .inner ∧ Reads [.decl (.typeName true)] others final ∧
      others.map Marked.lexeme ++ tail.map Marked.lexeme = Scan.lexemes (' ' :: type.bodyText newline) := by
  obtain ⟨⟨gap, head, rest, tail, frames, final, hread⟩, htext⟩ := Declaration.isRead_of_parse hparse
  have hstray : ∀ lexeme ∈ Scan.lexemes (newline ++ newline ++ type.render newline),
      lexeme.kind ≠ .stray := by
    intro lexeme hlexeme
    exact hread.lexemes_ne_stray lexeme (htext ▸ hlexeme)
  obtain ⟨front, hlexemes, hfront⟩ := lexemes_newType hname hnewline hstray
  rw [← htext] at hlexemes
  obtain ⟨-, hhead, hrest⟩ := hread.split_lexemes hlexemes hfront (by decide)
  have hsplit : rest.map Marked.lexeme ++ tail.map Marked.lexeme =
      [⟨.blank, [' ']⟩] ++ ⟨ofWord type.name, type.name⟩ :: Scan.lexemes (' ' :: type.bodyText newline) := hrest
  obtain ⟨more, hmore, hback⟩ := hread.split_rest hsplit (by simp [isLoose_ofWord])
  have hkind : head.kind = .keyword .typeWord := congrArg Lexeme.kind hhead
  obtain ⟨rfl, hinner⟩ := hread.frames_types hkind
  obtain ⟨others, rfl, hothers⟩ := hread.rest_reads.type_named rfl hmore
  refine ⟨gap, head, others, tail, final, hread, hkind, hinner, hothers, ?_⟩
  rw [hback, ← (List.cons.inj (List.cons.inj hmore).2).2]

/-- A struct type, as opposed to a type that is defined by another. -/
def NewType.isRecord (type : NewType) : Bool :=
  type.body matches .record _

theorem struct_of_isRecord {type : NewType} {newline : Text} {others tail : List Marked} {final : List Frame}
    (hrecord : type.isRecord) (hreads : Reads [.decl (.typeName true)] others final)
    (htail : ∀ lexeme ∈ tail.map Marked.lexeme, isLoose lexeme.kind)
    (hlexemes : others.map Marked.lexeme ++ tail.map Marked.lexeme = Scan.lexemes (' ' :: type.bodyText newline)) :
    (others.dropWhile Marked.isTrivia).head?.map Marked.kind = some (.keyword .structWord) := by
  obtain ⟨rest, hbody⟩ : ∃ rest, type.bodyText newline = "struct".toList ++ ' ' :: rest := by
    obtain ⟨name, doc, body⟩ := type
    cases body with
    | record fields => exact ⟨_, rfl⟩
    | defined | aliased => cases hrecord
  have hwhite : Scan.lexemes ([' '] ++ ("struct".toList ++ ' ' :: rest)) =
      Scan.lexemes [' '] ++ Scan.lexemes ("struct".toList ++ ' ' :: rest) := by
    apply Scan.lexemes_white (List.forall_mem_singleton.mpr (by decide))
    intro c hc
    obtain rfl := Option.some.inj hc
    decide
  have hword : Scan.lexemes ("struct".toList ++ ' ' :: rest) =
      ⟨.keyword .structWord, "struct".toList⟩ :: Scan.lexemes (' ' :: rest) := by
    apply @Scan.lexemes_word 's' "truct".toList _ (by decide) (List.all_eq_true.mp (by decide))
    intro d hd
    obtain rfl := Option.some.inj hd
    decide
  have hsplit : others.map Marked.lexeme ++ tail.map Marked.lexeme =
      [⟨.blank, [' ']⟩] ++ ⟨.keyword .structWord, "struct".toList⟩ :: Scan.lexemes (' ' :: rest) := by
    rw [hlexemes, hbody, ← hword]
    exact hwhite
  obtain ⟨more, hmore, -⟩ :=
    @split_before_tail _ (fun lexeme => isLoose lexeme.kind) _ _ _ _ _ hsplit htail (by decide)
  obtain ⟨blank, rest, rfl, hblank, hrest⟩ := List.map_eq_cons_iff.mp hmore
  obtain ⟨word, others, rfl, hword, -⟩ := List.map_eq_cons_iff.mp hrest
  have hblankKind : blank.kind = .blank := congrArg Lexeme.kind hblank
  have hwordKind : word.kind = .keyword .structWord := congrArg Lexeme.kind hword
  cases hreads with
  | step hadvance hreads =>
      rw [hblankKind] at hadvance
      obtain ⟨hblankRole, rfl⟩ := Prod.mk.inj (Option.some.inj hadvance)
      cases hreads with
      | step hadvance hreads =>
          rw [hwordKind, advance_struct (.inl rfl)] at hadvance
          obtain ⟨hwordRole, -⟩ := Prod.mk.inj (Option.some.inj hadvance)
          rw [List.dropWhile_cons_of_pos (by simp [Marked.isTrivia, ← hblankRole]),
            List.dropWhile_cons_of_neg (by simp [Marked.isTrivia, ← hwordRole])]
          exact congrArg some hwordKind

/-- A new type is read as one type of its name, and a struct type as a struct type. -/
theorem typeSpecs_of_newType {type : NewType} {newline : Text} {declaration : Declaration}
    (hname : isIdentifier type.name) (hnewline : IsLineEnding newline)
    (hparse : Declaration.parse (newline ++ newline ++ type.render newline) = .ok declaration) :
    ∃ spec, declaration.typeSpecs = [spec] ∧ spec.name = type.name ∧ (type.isRecord → spec.record?.isSome) := by
  obtain ⟨gap, head, others, tail, final, hread, hkind, hinner, hothers, hlexemes⟩ :=
    exists_readAs_of_newType hname hnewline hparse
  have hplain {m : Marked} (hrole : m.role = .trivia ∨ m.role = .ending ∨ m.role = .inner) :
      ¬ m.isHead ∧ m.role ≠ .groupOpen := by
    rw [Marked.isHead]
    obtain hrole | hrole | hrole := hrole <;> rw [hrole] <;> decide
  have hbefore : ∀ m ∈ gap ++ [head, ⟨⟨.blank, [' ']⟩, .trivia⟩],
      ¬ m.isHead ∧ m.role ≠ .groupOpen := by
    intro m hm
    apply hplain
    simp only [List.mem_append, List.mem_cons, List.not_mem_nil, or_false] at hm
    obtain hm | rfl | rfl := hm
    · exact (hread.gap_loose m hm).1.imp_right .inl
    · exact .inr (.inr hinner)
    · exact .inl rfl
  have hsplit : gap ++ head :: ⟨⟨.blank, [' ']⟩, .trivia⟩ :: ⟨⟨ofWord type.name, type.name⟩, .name⟩ :: others =
      (gap ++ [head, ⟨⟨.blank, [' ']⟩, .trivia⟩]) ++ ⟨⟨ofWord type.name, type.name⟩, .name⟩ :: others := by
    simp
  have hspecs := hread.typeSpecs_eq hkind
  rw [hsplit] at hspecs
  obtain ⟨hsingle, hspecName⟩ := @Structure.typeSpecsOf_single
    (sourceOf ((gap ++ [head, ⟨⟨.blank, [' ']⟩, .trivia⟩]) ++ ⟨⟨ofWord type.name, type.name⟩, .name⟩ :: others))
    _ others ⟨⟨ofWord type.name, type.name⟩, .name⟩ hbefore rfl hothers.not_isName
  refine ⟨_, hspecs.trans hsingle, hspecName, ?_⟩
  intro hrecord
  have hleaves := hread.ends
  have hstruct := struct_of_isRecord hrecord hothers hread.isLoose_tail hlexemes
  obtain ⟨front, opening, body, close, last, rest, rfl, hopens, -, hbody, hrest⟩ :=
    hothers.split_record (.inl rfl) hleaves hstruct
  obtain ⟨record, hspecBody, -⟩ := @Structure.typeSpecOf_record (gap ++ [head, ⟨⟨.blank, [' ']⟩, .trivia⟩]) [] _ _ _
    ⟨⟨ofWord type.name, type.name⟩, .name⟩ _ _ (fun m hm => (hbefore m hm).1) hopens rfl (by simp) hbody.roles
    hbody.role hrest
    (sourceOf ((gap ++ [head, ⟨⟨.blank, [' ']⟩, .trivia⟩]) ++ ⟨⟨ofWord type.name, type.name⟩, .name⟩ ::
      (front ++ opening :: (body ++ close :: rest)))) 0
  rw [List.nil_append] at hspecBody
  rw [TypeSpec.record?, hspecBody]
  rfl

namespace SourceFile

variable {file edited : SourceFile}

theorem hasType_of_insertType {type : NewType} {index position : Nat} (hread : file.IsRead)
    (hname : isIdentifier type.name) (hinsert : file.insertType index type = .ok (edited, position)) :
    edited.IsRead ∧ edited.hasType type.name := by
  obtain ⟨new, hparse, rfl⟩ := insertType_cases hinsert
  refine ⟨isRead_insert index hread (Declaration.isRead_of_parse hparse).1, ?_⟩
  obtain ⟨spec, hspecs, hspecName, -⟩ :=
    typeSpecs_of_newType hname file.isLineEnding_lineEnding hparse
  rw [hasType_eq, allTypeSpecs_insert, List.any_eq_true]
  refine ⟨spec, ?_, decide_eq_true hspecName⟩
  simp [hspecs]

end SourceFile

end GoGraft
