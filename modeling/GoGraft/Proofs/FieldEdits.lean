import GoGraft.Proofs.SpecParts
import GoGraft.Proofs.TypeInsertion

/-!
# Fields that are added

A field is written on a line of its own before the closing brace of a struct type. What was read before it is read
again, and its name stands where a field can begin. That the struct type then has a field of this name is not a matter
of course: a type that begins with a dot makes the name that of a package.
-/

namespace GoGraft

open Grammar Lexeme

theorem isLetterOrNumber_of_isIdentifier {name : Text} (hname : isIdentifier name) :
    ∀ c ∈ name, Text.isLetterOrNumber c ∨ c = '_' := by
  obtain ⟨first, rest, rfl, hfirst, hrest⟩ := isIdentifier_cases hname
  exact List.forall_mem_cons.mpr ⟨hfirst.imp_left Text.isLetterOrNumber_of_isLetter, hrest⟩

theorem not_mem_of_isIdentifier {name : Text} {c : Char} (hname : isIdentifier name)
    (hletter : Text.isLetterOrNumber c = false) (hline : c ≠ '_') : c ∉ name := by
  intro hc
  obtain hc | hc := isLetterOrNumber_of_isIdentifier hname c hc
  · rw [hletter] at hc
    cases hc
  · exact hline hc

theorem not_isSpace_of_isIdentifier {name : Text} (hname : isIdentifier name) : ∀ c ∈ name, ¬ Text.isSpace c := by
  intro c hc
  obtain hc | rfl := isLetterOrNumber_of_isIdentifier hname c hc
  · exact Text.not_isSpace_of_isLetterOrNumber hc
  · decide

theorem Text.splitAt_of_not_mem {mark : Char} {t : Text} (hmark : mark ∉ t) : Text.splitAt mark t = [t] := by
  induction t with
  | nil => rfl
  | cons c t ih =>
      obtain ⟨hc, ht⟩ := not_or.mp (mt List.mem_cons.mpr hmark)
      rw [Text.splitAt_cons, if_neg (by simpa using Ne.symm hc), ih ht]

theorem Text.trim_append {text white : Text} (htext : ∀ c ∈ text, ¬ Text.isSpace c)
    (hwhite : ∀ c ∈ white, Text.isSpace c) (hne : text ≠ []) : Text.trim (text ++ white) = text := by
  obtain ⟨first, rest, rfl⟩ := List.exists_cons_of_ne_nil hne
  have hink : ¬ Text.isSpace first := htext first (by simp)
  have hlast : ∀ c ∈ (first :: rest).reverse.head?, ¬ Text.isSpace c := by
    intro c hc
    exact htext c (List.mem_reverse.mp (List.mem_of_mem_head? hc))
  unfold Text.trim Text.trimStart Text.trimEnd
  rw [List.cons_append, List.dropWhile_cons_of_neg hink, ← List.cons_append, List.reverse_append,
    List.dropWhile_append_of_pos (by simpa using hwhite)]
  cases hreverse : (first :: rest).reverse with
  | nil => simp at hreverse
  | cons c front =>
      rw [hreverse] at hlast
      rw [List.dropWhile_cons_of_neg (hlast c rfl), ← hreverse, List.reverse_reverse]

namespace Structure

theorem embeddedName_of_isIdentifier {name rest : Text} (hname : isIdentifier name)
    (hrest : rest = [] ∨ ∃ more, rest = ' ' :: '[' :: more) : embeddedName (name ++ rest) = name := by
  have hnot {c : Char} := @not_mem_of_isIdentifier name c hname
  have hne : name ≠ [] := by
    rintro rfl
    cases hname
  have hbracket : ∀ c ∈ name, (c != '[') = true := by
    intro c hc
    rw [bne_iff_ne]
    rintro rfl
    exact hnot (by decide) (by decide) hc
  obtain ⟨white, hbase, hwhite, hdot⟩ : ∃ white, (name ++ rest).takeWhile (· != '[') = name ++ white ∧
      (∀ c ∈ white, Text.isSpace c) ∧ '.' ∉ name ++ white := by
    obtain rfl | ⟨more, rfl⟩ := hrest
    · refine ⟨[], ?_, by simp, by simpa using hnot (by decide) (by decide)⟩
      rw [List.takeWhile_append_of_pos hbracket, List.takeWhile_nil]
    · refine ⟨[' '], ?_, by simp; decide, ?_⟩
      · rw [List.takeWhile_append_of_pos hbracket]
        rfl
      · rw [List.mem_append, not_or]
        exact ⟨hnot (by decide) (by decide), by decide⟩
  unfold embeddedName
  dsimp only
  rw [hbase, Text.splitAt_of_not_mem hdot, List.getLast?_singleton, Option.getD_some,
    Text.trim_append (not_isSpace_of_isIdentifier hname) hwhite hne]
  cases name with
  | nil => exact absurd rfl hne
  | cons first others =>
      have hstar : first ≠ '*' := by
        rintro rfl
        exact hnot (by decide) (by decide) List.mem_cons_self
      rw [List.dropWhile_cons_of_neg (by simpa using hstar)]

section Named

variable {first blank second : Placed} {more : List Placed}

theorem mem_fieldsIn {lexemes part : List Placed} {parts : List (List Placed)} {field : Field}
    (hsplit : splitAt .recordSplit lexemes = part :: parts) (hfield : field ∈ fieldsOf (trim part))
    (hne : trim part ≠ []) : field ∈ fieldsIn lexemes := by
  unfold fieldsIn
  rw [hsplit, List.map_cons, List.filter_cons_of_pos (by simpa using hne), List.flatMap_cons]
  exact List.mem_append_left _ hfield

theorem exists_of_fieldNamed (hfirst : first.role = .field)
    (hnamed : (first :: more).any (·.role = .fieldNamed)) :
    ∃ field ∈ fieldsOf (first :: more), field.name = first.text := by
  have htyped : (first :: more).takeWhile (·.role ≠ .tag) = first :: more.takeWhile (·.role ≠ .tag) := by
    rw [List.takeWhile_cons_of_pos (by simp [hfirst])]
  unfold fieldsOf
  simp only [hnamed, if_true, htyped]
  rw [List.filter_cons_of_pos (by simpa using hfirst), List.map_cons]
  exact ⟨_, List.mem_cons_self, rfl⟩

theorem exists_of_embedded {typed : List Placed} {name rest : Text} (hname : isIdentifier name)
    (hrest : rest = [] ∨ ∃ more, rest = ' ' :: '[' :: more)
    (htyped : (first :: more).takeWhile (·.role ≠ .tag) = typed)
    (hstar : first.marked.kind ≠ .mark .star) (hhead : typed.head? = some first)
    (hnamed : ¬ (first :: more).any (·.role = .fieldNamed)) (hsource : source (trim typed) = name ++ rest) :
    ∃ field ∈ fieldsOf (first :: more), field.name = name := by
  unfold fieldsOf
  simp only [hnamed, if_false, htyped, hhead, Option.any_some, hstar, decide_false, Bool.false_eq_true, hsource]
  exact ⟨_, List.mem_singleton_self _, embeddedName_of_isIdentifier hname hrest⟩

theorem exists_of_alone (hname : isIdentifier first.text) (hrole : first.role = .field)
    (hstar : first.marked.kind ≠ .mark .star) : ∃ field ∈ fieldsOf [first], field.name = first.text := by
  have htrim : trim [first] = [first] := by
    simp [trim, Placed.isTrivia, hrole]
  refine exists_of_embedded hname (.inl rfl) (List.takeWhile_cons_of_pos (by simp [hrole])) hstar rfl ?_ ?_
  · simp [hrole]
  · rw [List.takeWhile_nil, htrim, source, List.flatMap_cons, List.flatMap_nil]

theorem trim_cons_cons (hfirst : first.role ≠ .trivia) (hsecond : second.role ≠ .trivia) :
    ∃ rest, trim (first :: blank :: second :: more) = first :: blank :: second :: rest := by
  have hnot {placed : Placed} (hrole : placed.role ≠ .trivia) : ¬ placed.isTrivia := by
    simpa [Placed.isTrivia] using hrole
  refine ⟨(more.reverse.dropWhile Placed.isTrivia).reverse, ?_⟩
  have hreverse : (first :: blank :: second :: more).reverse = more.reverse ++ [second, blank, first] := by simp
  have hdrop : (more.reverse ++ [second, blank, first]).dropWhile Placed.isTrivia =
      more.reverse.dropWhile Placed.isTrivia ++ [second, blank, first] := by
    rw [List.dropWhile_append]
    split
    · rename_i hempty
      rw [List.isEmpty_iff] at hempty
      rw [hempty, List.dropWhile_cons_of_neg (hnot hsecond)]
      rfl
    · rfl
  unfold trim
  rw [List.dropWhile_cons_of_neg (hnot hfirst), hreverse, hdrop]
  simp

theorem exists_of_followed (hname : isIdentifier first.text) (hrole : first.role = .field)
    (hstar : first.marked.kind ≠ .mark .star) (hblank : blank.role = .trivia) (hspace : blank.text = [' '])
    (hsecond : second.role = .fieldNamed ∨ second.role = .tag ∨ (second.role = .inner ∧ second.text = ['['])) :
    ∃ field ∈ fieldsOf (first :: blank :: second :: more), field.name = first.text := by
  by_cases hnamed : (first :: blank :: second :: more).any (·.role = .fieldNamed)
  · exact exists_of_fieldNamed hrole hnamed
  obtain hsecond | hsecond | ⟨hsecond, hbracket⟩ := hsecond
  · simp [hsecond] at hnamed
  · have htyped : (first :: blank :: second :: more).takeWhile (·.role ≠ .tag) = [first, blank] := by
      simp [hrole, hblank, hsecond]
    have htrim : trim [first, blank] = [first] := by
      simp [trim, Placed.isTrivia, hrole, hblank]
    refine exists_of_embedded hname (.inl rfl) htyped hstar rfl hnamed ?_
    rw [htrim, source, List.flatMap_cons, List.flatMap_nil]
  · have htyped : (first :: blank :: second :: more).takeWhile (·.role ≠ .tag) =
        first :: blank :: second :: more.takeWhile (·.role ≠ .tag) := by
      simp [hrole, hblank, hsecond]
    obtain ⟨rest, htrim⟩ := @trim_cons_cons first blank second (more.takeWhile (·.role ≠ .tag))
      (by rw [hrole]; decide) (by rw [hsecond]; decide)
    refine exists_of_embedded hname (.inr ⟨source rest, rfl⟩) htyped hstar rfl hnamed ?_
    rw [htrim]
    simp [source, hspace, hbracket]

/-- A name where a field can begin is that of a field, if what follows it does not make it part of a longer name. -/
theorem exists_field_of_name {rest : List Placed} (hname : isIdentifier first.text) (hrole : first.role = .field)
    (hstar : first.marked.kind ≠ .mark .star) (hblank : blank.role = .trivia) (hspace : blank.text = [' '])
    (hrest : ∀ second ∈ rest.head?, second.role = .recordSplit ∨ second.role = .fieldNamed ∨ second.role = .tag ∨
      (second.role = .inner ∧ second.text = ['['])) :
    ∃ field ∈ fieldsIn (first :: blank :: rest), field.name = first.text := by
  have hfirst : first.role ≠ .recordSplit := by rw [hrole]; decide
  have hsecond : blank.role ≠ .recordSplit := by rw [hblank]; decide
  have hboth : splitAt .recordSplit [first, blank] = [[first, blank]] := splitAt_of_ne (by simp [hfirst, hsecond])
  have htrim : trim [first, blank] = [first] := by
    simp [trim, Placed.isTrivia, hrole, hblank]
  obtain ⟨field, hfield, hfieldName⟩ := exists_of_alone hname hrole hstar
  cases rest with
  | nil => exact ⟨field, mem_fieldsIn hboth (htrim ▸ hfield) (by rw [htrim]; simp), hfieldName⟩
  | cons second more =>
      obtain hsplit | hinside := hrest second rfl
      · have hparts : splitAt .recordSplit (first :: blank :: second :: more) =
            [first, blank] :: splitAt .recordSplit more := by
          rw [splitAt_cons_of_ne hfirst (splitAt_cons_of_ne hsecond (splitAt_cons_of_eq hsplit))]
        exact ⟨field, mem_fieldsIn hparts (htrim ▸ hfield) (by rw [htrim]; simp), hfieldName⟩
      · obtain ⟨part, parts, hparts⟩ := exists_splitAt .recordSplit more
        have hne : second.role ≠ .trivia ∧ second.role ≠ .recordSplit := by
          obtain hrole | hrole | ⟨hrole, -⟩ := hinside <;> rw [hrole] <;> decide
        have hall := splitAt_cons_of_ne hfirst (splitAt_cons_of_ne hsecond (splitAt_cons_of_ne hne.2 hparts))
        obtain ⟨others, hothers⟩ := @trim_cons_cons first blank second part (by rw [hrole]; decide) hne.1
        obtain ⟨field, hfield, hfieldName⟩ :=
          @exists_of_followed first blank second others hname hrole hstar hblank hspace hinside
        exact ⟨field, mem_fieldsIn hall (hothers ▸ hfield) (by rw [hothers]; simp), hfieldName⟩

end Named

end Structure

namespace Grammar

theorem read_fieldName {kind : LexemeKind} {role : Role} {next : List Frame}
    (hread : read [.type (.fieldName true), fieldFloor] kind = some (role, next)) (hdot : kind ≠ .mark .dot) :
    role = .fieldNamed ∨ role = .tag ∨ (role = .inner ∧ kind = .mark .openBracket) ∨ role = .recordSplit ∨
      role = .recordClose := by
  cases kind with
  | keyword word => cases word <;> cases hread <;> exact .inl rfl
  | mark mark =>
      cases mark
      case dot => exact absurd rfl hdot
      case openBracket =>
        cases hread
        exact .inr (.inr (.inl ⟨rfl, rfl⟩))
      case semicolon | zero =>
        cases hread
        exact .inr (.inr (.inr (.inl rfl)))
      case closeBrace =>
        cases hread
        exact .inr (.inr (.inr (.inr rfl)))
      all_goals cases hread <;> exact .inl rfl
  | newline =>
      cases hread
      exact .inr (.inr (.inr (.inl rfl)))
  | string =>
      cases hread
      exact .inr (.inl rfl)
  | word | maker =>
      cases hread
      exact .inl rfl
  | _ => cases hread

theorem advance_fieldName {kind : LexemeKind} {role : Role} {next : List Frame}
    (hadvance : advance [.type (.fieldName true), fieldFloor] kind = some (role, next))
    (hdot : kind ≠ .mark .dot) (hblank : kind ≠ .blank) (hcomment : kind ≠ .comment) :
    role = .fieldNamed ∨ role = .tag ∨ (role = .inner ∧ kind = .mark .openBracket) ∨ role = .recordSplit ∨
      role = .recordClose := by
  obtain ⟨htrivia, -, hkind⟩ | hread | ⟨mark, left, right, first, middle, -, hhalves, hleft, -⟩ :=
    advance_cases hadvance
  · obtain rfl | rfl | rfl := hkind
    · exact absurd rfl hblank
    · exact absurd rfl hcomment
    · cases hadvance
      cases htrivia
  · exact read_fieldName hread hdot
  · cases mark <;> cases hhalves <;> cases hleft

theorem advance_fields {text : Text} {role : Role} {next : List Frame}
    (hadvance : advance [.type (.fields true)] (ofWord text) = some (role, next)) :
    role = .field ∧ next = [.type (.fieldName true), fieldFloor] := by
  unfold ofWord at hadvance
  split at hadvance
  · rename_i word _
    cases word <;> cases hadvance
  · split at hadvance
    all_goals
      cases hadvance
      exact ⟨rfl, rfl⟩

end Grammar

namespace Structure

theorem ofWord_ne_mark (text : Text) (mark : Mark) : ofWord text ≠ .mark mark := by
  unfold ofWord
  split
  · nofun
  · split <;> nofun

theorem text_of_openBracket {lexeme : Lexeme} (hcut : lexeme.IsCut) (hkind : lexeme.kind = .mark .openBracket) :
    lexeme.text = ['['] := by
  have hmarks : ∀ mark ∈ marks, mark.2 = .openBracket → mark.1 = ['['] := by decide
  exact hmarks _ (hcut.mark hkind) rfl

/-- A name where a field can begin is the name of a field, if neither a dot nor a comment follows it. -/
theorem exists_field_of_reads {name : Text} {more : List Marked} {close : Marked} {last : List Frame}
    {first : Lexeme} {rest others : List Lexeme} (hname : isIdentifier name)
    (hbody : ReadsBody [.type (.fieldName true), fieldFloor] more close last)
    (hlexemes : more.map Marked.lexeme ++ close.lexeme :: rest = ⟨.blank, [' ']⟩ :: first :: others)
    (hcut : first.IsCut) (hdot : first.kind ≠ .mark .dot) (hblank : first.kind ≠ .blank)
    (hcomment : first.kind ≠ .comment) :
    ∃ field ∈ fieldsIn (place 0 (⟨⟨ofWord name, name⟩, .field⟩ :: more)), field.name = name := by
  obtain ⟨hreads, -, hroles, -, hcloseKind, -⟩ := hbody
  obtain ⟨blank, more, rfl, hblankLexeme, hlexemes⟩ : ∃ blank tail, more = blank :: tail ∧
      blank.lexeme = ⟨.blank, [' ']⟩ ∧ tail.map Marked.lexeme ++ close.lexeme :: rest = first :: others := by
    cases more with
    | nil =>
        obtain ⟨hclose, -⟩ := List.cons.inj hlexemes
        cases hcloseKind.symm.trans (congrArg Lexeme.kind hclose)
    | cons blank more =>
        obtain ⟨hblank, hlexemes⟩ := List.cons.inj hlexemes
        exact ⟨blank, more, rfl, hblank, hlexemes⟩
  cases hreads with
  | step hadvance hreads =>
      have hkind : blank.kind = .blank := congrArg Lexeme.kind hblankLexeme
      rw [hkind] at hadvance
      obtain ⟨hblankRole, rfl⟩ := Prod.mk.inj (Option.some.inj hadvance)
      have hspace : blank.text = [' '] := congrArg Lexeme.text hblankLexeme
      rw [place, place]
      refine exists_field_of_name hname rfl (ofWord_ne_mark name .star) hblankRole.symm hspace ?_
      intro second hsecond
      obtain ⟨-, hhead⟩ := head?_place hsecond
      cases hreads with
      | refl => cases hhead
      | @step _ next _ m more hadvance hreads =>
          obtain rfl := Option.some.inj hhead
          obtain ⟨hfirst, -⟩ := List.cons.inj hlexemes
          have hmKind : second.marked.kind = first.kind := congrArg Lexeme.kind hfirst
          have hmText : second.text = first.text := congrArg Lexeme.text hfirst
          rw [hmKind] at hadvance
          obtain hrole | hrole | ⟨hrole, hbracket⟩ | hrole | hrole :=
            advance_fieldName hadvance hdot hblank hcomment
          · exact .inr (.inl hrole)
          · exact .inr (.inr (.inl hrole))
          · exact .inr (.inr (.inr ⟨hrole, hmText.trans (text_of_openBracket hcut hbracket)⟩))
          · exact .inl hrole
          · have hbody := hroles second.marked (by simp)
            rw [hrole] at hbody
            exact absurd hbody Role.not_isBody_recordClose

theorem exists_field_of_named {name : Text} {body : List Marked} {close : Marked} {last : List Frame}
    {first : Lexeme} {rest others : List Lexeme} (hname : isIdentifier name)
    (hbody : ReadsBody [.type (.fields true)] body close last)
    (hlexemes : body.map Marked.lexeme ++ close.lexeme :: rest =
      ⟨ofWord name, name⟩ :: ⟨.blank, [' ']⟩ :: first :: others)
    (hcut : first.IsCut) (hdot : first.kind ≠ .mark .dot) (hblank : first.kind ≠ .blank)
    (hcomment : first.kind ≠ .comment) : ∃ field ∈ fieldsIn (place 0 body), field.name = name := by
  obtain ⟨hreads, hlast, hroles, hrole, hkind, hcloses⟩ := hbody
  cases hreads with
  | refl =>
      obtain ⟨hclose, -⟩ := List.cons.inj hlexemes
      exact absurd ((congrArg Lexeme.kind hclose).symm.trans hkind) (ofWord_ne_mark _ _)
  | @step _ _ _ m more hadvance hreads =>
      obtain ⟨hm, hlexemes⟩ := List.cons.inj hlexemes
      obtain ⟨-, hroles⟩ := List.forall_mem_cons.mp hroles
      have hword : m.kind = ofWord name := congrArg Lexeme.kind hm
      rw [hword] at hadvance
      obtain ⟨hfield, rfl⟩ := advance_fields hadvance
      rw [show m = ⟨⟨ofWord name, name⟩, .field⟩ by rw [← hm, ← hfield]]
      exact exists_field_of_reads hname ⟨hreads, hlast, hroles, hrole, hkind, hcloses⟩ hlexemes hcut hdot hblank
        hcomment

end Structure

end GoGraft
