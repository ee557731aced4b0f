import GoGraft.Proofs.Blocks
import GoGraft.Proofs.Reparsing
import GoGraft.Proofs.SpecParts

/-!
# Where two texts of a file meet

A declaration reads the same behind any stack from which its gap can be read. Two neighbours can stand next to each
other where exactly one of them has the terminator between them, a newline apart, and a comment that goes on to the end
of its line has that end.
-/

namespace GoGraft

open Grammar Scan

namespace Structure

/-- The structure of a declaration, from its text and its lexemes. -/
def kindAt (kind : ItemKind) (text : Text) (lexemes : List Placed) : DeclarationKind :=
  let names := (lexemes.filter (·.role = .name)).map Placed.text
  match kind with
  | .importDeclaration => .imports ((importParts lexemes).map importSpecOf) (importLayoutOf text lexemes)
  | .typeDeclaration => .types (typeSpecsOf text lexemes)
  | .functionDeclaration => .function (names.head?.getD [])
  | _ => .values names

theorem kindOf_eq_kindAt (kind : ItemKind) (marked : List Marked) :
    kindOf kind marked = kindAt kind (sourceOf marked) (place 0 marked) :=
  rfl

section Loose

variable {gap rest : List Placed} (hgap : ∀ placed ∈ gap, placed.marked.IsLoose)

include hgap

theorem role_ne_of_loose (role : Role) (hrole : role.level ≤ 4) : ∀ placed ∈ gap, placed.role ≠ role := by
  rintro placed hplaced rfl
  exact (hgap placed hplaced).not_level hrole

theorem find?_loose (role : Role) (hrole : role.level ≤ 4) :
    (gap ++ rest).find? (·.role = role) = rest.find? (·.role = role) := by
  have hnone : gap.find? (·.role = role) = none := by
    simpa using role_ne_of_loose hgap role hrole
  rw [List.find?_append, hnone, Option.none_or]

theorem any_loose (role : Role) (hrole : role.level ≤ 4) :
    (gap ++ rest).any (·.role = role) = rest.any (·.role = role) := by
  have hnone : gap.any (·.role = role) = false := by
    simpa using role_ne_of_loose hgap role hrole
  rw [List.any_append, hnone, Bool.false_or]

theorem importParts_loose : importParts (gap ++ rest) = importParts rest := by
  have hnone : gap.filter (fun placed => placed.role = .aliasing || placed.role = .path) = [] := by
    have haliasing := role_ne_of_loose hgap .aliasing (by decide)
    have hpath := role_ne_of_loose hgap .path (by decide)
    simpa using fun placed hplaced => ⟨haliasing placed hplaced, hpath placed hplaced⟩
  simp only [importParts, List.filter_append, hnone, List.nil_append]

theorem importLayoutOf_loose (text : Text) : importLayoutOf text (gap ++ rest) = importLayoutOf text rest := by
  have hnone : gap.find? (·.marked.kind = .keyword .importWord) = none := by
    simp only [List.find?_eq_none, decide_eq_true_eq]
    intro placed hplaced hkind
    have hloose := (hgap placed hplaced).2
    rw [hkind] at hloose
    cases hloose
  simp only [importLayoutOf, find?_loose hgap .groupClose (by decide), importParts_loose hgap, List.find?_append, hnone,
    Option.none_or]

theorem typeSpecOf_loose (text : Text) (hname : hasName rest) : typeSpecOf text (gap ++ rest) = typeSpecOf text rest := by
  have hlast (isHead : Placed → Bool) (hhead : ∀ placed, placed.role = .name → isHead placed) :
      afterLast isHead (gap ++ rest) = afterLast isHead rest := by
    unfold afterLast
    rw [List.reverse_append, List.takeWhile_append, if_neg]
    intro hlength
    obtain ⟨placed, hplaced, hrole⟩ := List.any_eq_true.mp hname
    have hall := (List.takeWhile_prefix fun placed => !isHead placed).eq_of_length hlength
    have hnot := List.all_eq_true.mp (hall ▸ List.all_takeWhile) placed (List.mem_reverse.mpr hplaced)
    rw [hhead placed (of_decide_eq_true hrole)] at hnot
    cases hnot
  unfold typeSpecOf
  dsimp only
  rw [find?_loose hgap .name (by decide), any_loose hgap .aliasing (by decide), hlast]
  intro placed hrole
  simp [hrole]

theorem typeSpecsOf_loose (text : Text) : typeSpecsOf text (gap ++ rest) = typeSpecsOf text rest := by
  rw [typeSpecsOf_eq, typeSpecsOf_eq]
  unfold specParts
  rw [any_loose hgap .groupOpen (by decide)]
  split
  · have hbetween : between .groupOpen .groupClose (gap ++ rest) = between .groupOpen .groupClose rest := by
      unfold between
      rw [List.dropWhile_append_of_pos]
      simpa using role_ne_of_loose hgap .groupOpen (by decide)
    rw [hbetween]
  · have hnamed : hasName (gap ++ rest) = hasName rest := any_loose hgap .name (by decide)
    cases hname : hasName rest with
    | false => simp [hnamed, hname]
    | true => simp [hnamed, hname, typeSpecOf_loose hgap text hname]

/-- What stands before an item is nothing to its structure but text. -/
theorem kindAt_loose (kind : ItemKind) (text : Text) : kindAt kind text (gap ++ rest) = kindAt kind text rest := by
  have hnone : gap.filter (·.role = .name) = [] := by
    simpa using role_ne_of_loose hgap .name (by decide)
  simp only [kindAt, importParts_loose hgap, importLayoutOf_loose hgap, typeSpecsOf_loose hgap, List.filter_append, hnone,
    List.nil_append]

end Loose

theorem kindOf_congr {gap other rest : List Marked} (kind : ItemKind) (hgap : ∀ m ∈ gap, m.IsLoose)
    (hother : ∀ m ∈ other, m.IsLoose) (hlexemes : gap.map Marked.lexeme = other.map Marked.lexeme) :
    kindOf kind (gap ++ rest) = kindOf kind (other ++ rest) := by
  have hsource : sourceOf gap = sourceOf other := by
    rw [← source_map_lexeme, hlexemes, source_map_lexeme]
  simp only [kindOf_eq_kindAt, place_append, sourceOf_append]
  rw [kindAt_loose (forall_place hgap), kindAt_loose (forall_place hother), hsource]

end Structure

namespace Grammar

variable {stack : List Frame} {kind : LexemeKind}

theorem advance_of_read {role : Role} {next : List Frame} (hterminator : isTerminator kind)
    (hread : read stack kind = some (role, next)) : advance stack kind = some (role, next) := by
  unfold isTerminator at hterminator
  split at hterminator
  case h_4 => cases hterminator
  all_goals simp [advance, hread]

theorem advance_of_leaves {final : List Frame} (hterminator : isTerminator kind) (hleaves : Leaves kind final) :
    advance (final ++ [.decl .itemEnd]) kind = some (.ending, fileStack) := by
  apply advance_of_read hterminator
  rw [read_of_leaves isFloor_itemEnd.resume hleaves, read, settle]
  simp [Frame.move, DeclFrame.move, hterminator, fileStack]

theorem Pauses.advance_newline (hpauses : Pauses stack) :
    ∃ role, (role = .trivia ∨ role = .ending) ∧ advance stack .newline = some (role, fileStack) := by
  obtain rfl | ⟨upper, -, hends, rfl⟩ := hpauses
  · exact ⟨.trivia, .inl rfl, rfl⟩
  · exact ⟨.ending, .inr rfl, advance_of_leaves rfl hends⟩

theorem Pauses.next_eq {next : List Frame} {m : Marked} (hpauses : Pauses stack) (hloose : m.IsLoose)
    (hterminator : isTerminator m.kind) (hadvance : advance stack m.kind = some (m.role, next)) :
    next = fileStack := by
  have hpauses' := hpauses
  obtain rfl | ⟨upper, hupper, hends, rfl⟩ := hpauses
  · obtain ⟨-, rfl, -⟩ | ⟨hrole, -⟩ := advance_fileStack hadvance
    · rfl
    · exact absurd hrole hloose.not_level
  · obtain ⟨rest, -, rfl, htrivia, ⟨hrole, rfl, -⟩ | hrole⟩ | ⟨-, hnext, -⟩ := advance_item hupper hadvance
    · rw [hrole] at htrivia
      obtain ⟨-, hkind | hkind | hkind⟩ := advance_trivia htrivia (hupper.mono (by decide))
      · rw [hkind] at hterminator
        cases hterminator
      · rw [hkind] at hterminator
        cases hterminator
      · obtain ⟨role, -, hnewline⟩ := hpauses'.advance_newline
        rw [hkind, hnewline] at hadvance
        exact (Prod.mk.inj (Option.some.inj hadvance)).2.symm
    · exact absurd hrole hloose.not_level
    · exact hnext

/-- A gap that begins with a terminator can be read from any stack that the terminator ends. -/
theorem IsGap.moved {start : List Frame} {gap : List Marked} {first : Lexeme} {role : Role} (hpauses : Pauses start)
    (hgap : IsGap start gap) (hfirst : (gap.map Marked.lexeme).find? (·.kind ≠ .blank) = some first)
    (hterminator : isTerminator first.kind) (hrole : role = .trivia ∨ role = .ending)
    (hadvance : advance stack first.kind = some (role, fileStack)) :
    ∃ other, other.map Marked.lexeme = gap.map Marked.lexeme ∧ IsGap stack other := by
  obtain ⟨hloose, hreads⟩ := hgap
  induction gap with
  | nil => cases hfirst
  | cons m gap ih =>
      obtain ⟨hm, hothers⟩ := List.forall_mem_cons.mp hloose
      cases hreads with
      | @step _ next _ _ _ hstep hreads =>
          by_cases hblank : m.kind = .blank
          · have hblankLexeme : m.lexeme.kind = .blank := hblank
            rw [hblank] at hstep
            obtain ⟨-, rfl⟩ := Prod.mk.inj (Option.some.inj hstep)
            rw [List.map_cons, List.find?_cons_of_neg (by simp [hblankLexeme])] at hfirst
            obtain ⟨other, hlexemes, hother⟩ := ih hfirst hothers hreads
            have htrivia : advance stack m.kind = some (.trivia, stack) := by
              rw [hblank]
              rfl
            exact ⟨⟨m.lexeme, .trivia⟩ :: other, by simp [hlexemes], hother.cons ⟨.inl rfl, hm.2⟩ htrivia⟩
          · have hkept : m.lexeme.kind ≠ .blank := hblank
            rw [List.map_cons, List.find?_cons_of_pos (by simpa using hkept)] at hfirst
            obtain rfl := Option.some.inj hfirst
            obtain rfl := hpauses.next_eq hm hterminator hstep
            exact ⟨⟨m.lexeme, role⟩ :: gap, by simp, IsGap.cons ⟨hrole, hm.2⟩ hadvance ⟨hothers, hreads⟩⟩

end Grammar

/-- The item that the lexemes hold has its terminator: read alone, they leave nothing open. -/
def isTerminated (lexemes : List Lexeme) : Bool :=
  (Grammar.parse (lexemes.dropWhile (isLoose ·.kind))).isSome

def endsInLineComment (lexemes : List Lexeme) : Bool :=
  lexemes.getLast?.any Lexeme.isLineComment

/-- What the lexemes of a header or a declaration leave behind: a stack, and a last lexeme. The stack takes any
terminator, unless there is one already. -/
structure EndsOn (lexemes : List Lexeme) (stack : List Frame) (last : Lexeme) : Prop where
  pauses : Pauses stack
  last_eq : lexemes.getLast? = some last
  cut : last.IsCut
  not_blank : last.kind ≠ .blank
  not_stray : last.kind ≠ .stray
  closed : isTerminated lexemes ↔ stack = fileStack
  comment : isTerminated lexemes → last.kind = .comment
  takes : ¬ isTerminated lexemes → ∀ kind, isTerminator kind → advance stack kind = some (.ending, fileStack)

namespace Grammar

theorem Reads.parse_isSome {marked : List Marked} {exit : List Frame} (hreads : Reads fileStack marked exit) :
    (parse (marked.map Marked.lexeme)).isSome ↔ exit = fileStack := by
  unfold parse
  rw [hreads.foldlM_eq, Option.bind_eq_bind, Option.bind_some]
  split
  · rename_i hexit
    simpa using hexit
  · rename_i hexit
    simpa using hexit

theorem Reads.eq_of_blank {marked : List Marked} {stack next : List Frame} (hreads : Reads stack marked next)
    (hblank : (marked.map Marked.lexeme).find? (·.kind ≠ .blank) = none) : stack = next := by
  induction hreads with
  | refl => rfl
  | @step _ _ _ m _ hadvance _ ih =>
      obtain ⟨hm, hothers⟩ := List.forall_mem_cons.mp (List.find?_eq_none.mp hblank)
      have hkind : m.kind = .blank := Decidable.not_not.mp (mt decide_eq_true hm)
      rw [hkind] at hadvance
      obtain ⟨-, rfl⟩ := Prod.mk.inj (Option.some.inj hadvance)
      exact ih (List.find?_eq_none.mpr hothers)

/-- Where an item can begin, a terminator other than a newline begins one: an empty statement. -/
theorem IsGap.first_eq_newline {gap : List Marked} {first : Lexeme} (hgap : IsGap fileStack gap)
    (hfirst : (gap.map Marked.lexeme).find? (·.kind ≠ .blank) = some first) (hterminator : isTerminator first.kind) :
    first.kind = .newline := by
  obtain ⟨hloose, hreads⟩ := hgap
  induction gap with
  | nil => cases hfirst
  | cons m gap ih =>
      obtain ⟨hm, hothers⟩ := List.forall_mem_cons.mp hloose
      cases hreads with
      | step hadvance hreads =>
          by_cases hblank : m.lexeme.kind = .blank
          · rw [List.map_cons, List.find?_cons_of_neg (by simp [hblank])] at hfirst
            rw [show m.kind = .blank from hblank] at hadvance
            obtain ⟨-, rfl⟩ := Prod.mk.inj (Option.some.inj hadvance)
            exact ih hfirst hothers hreads
          · rw [List.map_cons, List.find?_cons_of_pos (by simpa using hblank)] at hfirst
            obtain rfl := Option.some.inj hfirst
            obtain ⟨htrivia, -⟩ | ⟨hrole, -⟩ := advance_fileStack hadvance
            · rw [htrivia] at hadvance
              obtain ⟨-, hkind | hkind | hkind⟩ := advance_trivia hadvance (by simp [fileStack]; decide)
              · exact absurd hkind hblank
              · rw [show m.lexeme.kind = .comment from hkind] at hterminator
                cases hterminator
              · exact hkind
            · exact absurd hrole hm.not_level

theorem IsItem.endsOn {gap tail rest : List Marked} {head m : Marked} {frames final exit : List Frame}
    (hitem : IsItem head rest frames final) (hgap : ∀ marked ∈ gap, marked.IsLoose) (hhead : ¬ isLoose head.kind)
    (hloose : ∀ marked ∈ tail, marked.IsLoose) (hattached : IsAttached tail)
    (htail : Reads (final ++ [.decl .itemEnd]) tail exit) (hlast : (head :: rest ++ tail).getLast? = some m)
    (hcut : m.lexeme.IsCut) : EndsOn ((gap ++ head :: rest ++ tail).map Marked.lexeme) exit m.lexeme := by
  have hreads : Reads fileStack (head :: rest ++ tail) exit := (Reads.step hitem.opens hitem.reads).append htail
  have hbody : ((gap ++ head :: rest ++ tail).map Marked.lexeme).dropWhile (isLoose ·.kind) =
      (head :: rest ++ tail).map Marked.lexeme := by
    have hfront : ∀ lexeme ∈ gap.map Marked.lexeme, isLoose lexeme.kind := by
      intro lexeme hlexeme
      obtain ⟨marked, hmarked, rfl⟩ := List.mem_map.mp hlexeme
      exact (hgap marked hmarked).2
    rw [List.append_assoc, List.map_append, List.dropWhile_append_of_pos hfront]
    exact List.dropWhile_cons_of_neg hhead
  have hterminated : isTerminated ((gap ++ head :: rest ++ tail).map Marked.lexeme) ↔ exit = fileStack := by
    rw [isTerminated, hbody]
    exact hreads.parse_isSome
  refine ⟨(Pauses.after_item hitem.final_below hitem.ends).through hloose htail, ?_, hcut,
    hitem.last_kind hattached hlast, ?_, hterminated, ?_, ?_⟩
  · rw [List.append_assoc, List.map_append, List.getLast?_append, List.getLast?_map, hlast]
    rfl
  · exact hreads.ne_stray (by simp [fileStack]; decide) m (List.mem_of_getLast? hlast)
  · intro hclosed
    apply hattached.comment m
    cases tail with
    | nil =>
        cases htail
        exact absurd (hterminated.mp hclosed).symm (ne_fileStack final)
    | cons first tail => rwa [List.getLast?_append, List.getLast?_cons, Option.some_or, ← List.getLast?_cons] at hlast
  · intro hopen kind hkind
    obtain rfl | ⟨hexit, -⟩ := htail.after_item hitem.final_below hloose
    · exact advance_of_leaves hkind (hitem.ends_before hkind)
    · exact absurd (hterminated.mpr hexit) hopen

end Grammar

theorem Scan.head?_source {lexemes : List Lexeme} {next : Option Char} {c : Char} (hcuts : Cuts lexemes next)
    (hc : c ∈ (Lexeme.source lexemes).head?) : ∃ lexeme ∈ lexemes.head?, c ∈ lexeme.text.head? := by
  cases lexemes with
  | nil => cases hc
  | cons lexeme others =>
      refine ⟨lexeme, rfl, ?_⟩
      have hne := hcuts.1.text_ne_nil
      rw [Lexeme.source_cons, List.head?_append, List.head?_eq_some_head hne, Option.some_or] at hc
      rwa [List.head?_eq_some_head hne]

theorem head?_terminator {lexeme : Lexeme} {c : Char} (hcut : lexeme.IsCut) (hterminator : isTerminator lexeme.kind)
    (hc : c ∈ lexeme.text.head?) : Text.isSpace c ∨ c = ';' ∨ c = '\x00' := by
  have htexts : ∀ mark ∈ Lexeme.marks, (mark.2 = .semicolon → mark.1 = [';']) ∧ (mark.2 = .zero → mark.1 = ['\x00']) := by
    decide
  unfold isTerminator at hterminator
  split at hterminator
  case h_1 hkind =>
    rw [hcut.newline hkind] at hc
    obtain rfl := Option.some.inj hc
    exact .inl (by decide)
  case h_2 hkind =>
    have htext : lexeme.text = [';'] := (htexts _ (hcut.mark hkind)).1 rfl
    rw [htext] at hc
    exact .inr (.inl (Option.some.inj hc).symm)
  case h_3 hkind =>
    have htext : lexeme.text = ['\x00'] := (htexts _ (hcut.mark hkind)).2 rfl
    rw [htext] at hc
    exact .inr (.inr (Option.some.inj hc).symm)
  case h_4 => cases hterminator

/-- The terminator that a text begins with, if it begins with one. -/
def leadingTerminator? (lexemes : List Lexeme) : Option LexemeKind :=
  ((lexemes.find? (·.kind ≠ .blank)).map Lexeme.kind).filter isTerminator

theorem leadingTerminator?_append {gap more : List Lexeme} (hmore : ∀ lexeme ∈ more.head?, ¬ isLoose lexeme.kind) :
    leadingTerminator? (gap ++ more) = leadingTerminator? gap := by
  unfold leadingTerminator?
  rw [List.find?_append]
  cases gap.find? (·.kind ≠ .blank) with
  | some first => rfl
  | none =>
      cases more with
      | nil => rfl
      | cons lexeme more =>
          have hloose := hmore lexeme rfl
          have hblank : lexeme.kind ≠ .blank := by
            intro hblank
            exact hloose (by rw [hblank]; rfl)
          have hterminator : ¬ isTerminator lexeme.kind := fun hterminator =>
            hloose (isLoose_of_isTerminator hterminator)
          rw [Option.none_or, List.find?_cons_of_pos (by simpa using hblank)]
          simpa using hterminator

/-- A gap whose comments have a newline before them begins with a terminator, unless it is blank. -/
theorem isTerminator_of_free {gap : List Marked} {first : Lexeme} (hloose : ∀ marked ∈ gap, marked.IsLoose)
    (hfree : isFree (gap.map Marked.lexeme))
    (hfirst : (gap.map Marked.lexeme).find? (·.kind ≠ .blank) = some first) : isTerminator first.kind := by
  induction gap with
  | nil => cases hfirst
  | cons m gap ih =>
      obtain ⟨hm, hothers⟩ := List.forall_mem_cons.mp hloose
      rw [List.map_cons, isFree] at hfree
      by_cases hblank : m.lexeme.kind = .blank
      · rw [List.map_cons, List.find?_cons_of_neg (by simp [hblank])] at hfirst
        rw [hblank] at hfree
        exact ih hothers (by simpa using hfree) hfirst
      · rw [List.map_cons, List.find?_cons_of_pos (by simpa using hblank)] at hfirst
        obtain rfl := Option.some.inj hfirst
        obtain hkind | hkind | hterminator := isLoose_cases hm.2
        · exact absurd hkind hblank
        · have hcomment : m.lexeme.kind = .comment := hkind
          simp [hcomment] at hfree
        · exact hterminator

/-- Of two neighbours one has the terminator between them, with a newline as well at most, and no comment on the left
runs on into the right one. -/
structure CanFollow (left right : List Lexeme) : Prop where
  once : ∀ kind ∈ leadingTerminator? right, kind = .newline ∨ ¬ isTerminated left
  terminated : leadingTerminator? right = none → isTerminated left
  line : (Lexeme.source right).head? = some '\n' ∨ ¬ endsInLineComment left

namespace CanFollow

variable {left right : List Lexeme} {last : Lexeme} {stack : List Frame}

theorem endsBefore (hfollow : CanFollow left right) (hleft : EndsOn left stack last) (hcuts : Cuts right none) :
    ∀ c ∈ (Lexeme.source right).head?, last.EndsBefore c := by
  intro c hc
  have hline : c = '\n' ∨ ¬ last.isLineComment := by
    obtain hnewline | hline := hfollow.line
    · exact .inl (Option.some.inj (hc.symm.trans hnewline))
    · exact .inr (by simpa [endsInLineComment, hleft.last_eq] using hline)
  by_cases hcomment : last.kind = .comment
  · exact hleft.cut.endsBefore_of_comment hcomment hline
  · have hspace (hspace : Text.isSpace c) : last.EndsBefore c :=
      hleft.cut.endsBefore_space hleft.not_blank hleft.not_stray (fun hkind => absurd hkind hcomment) hspace
    obtain ⟨lexeme, hhead, hmem⟩ := head?_source hcuts hc
    have hcut := hcuts.isCut lexeme (List.mem_of_mem_head? hhead)
    by_cases hblank : lexeme.kind = .blank
    · exact hspace ((hcut.blank hblank) c (List.mem_of_mem_head? hmem)).1
    · obtain ⟨others, rfl⟩ := List.head?_eq_some_iff.mp hhead
      have hterminator : isTerminator lexeme.kind := by
        refine Decidable.byContradiction fun hterminator => ?_
        have hnone : leadingTerminator? (lexeme :: others) = none := by
          rw [leadingTerminator?, List.find?_cons_of_pos (by simpa using hblank)]
          simpa using hterminator
        exact hcomment (hleft.comment (hfollow.terminated hnone))
      obtain hwhite | hmark := head?_terminator hcut hterminator hmem
      · exact hspace hwhite
      · exact hleft.cut.endsBefore_mark hleft.not_stray hcomment hmark

theorem exists_gap {start : List Frame} {gap : List Marked} {more : List Lexeme}
    (hfollow : CanFollow left right) (hleft : EndsOn left stack last) (hpauses : Pauses start)
    (hgap : IsGap start gap) (hfree : isFree (gap.map Marked.lexeme)) (hright : right = gap.map Marked.lexeme ++ more)
    (hmore : ∀ lexeme ∈ more.head?, ¬ isLoose lexeme.kind) :
    ∃ other, other.map Marked.lexeme = gap.map Marked.lexeme ∧ IsGap stack other := by
  have hlead : leadingTerminator? right = leadingTerminator? (gap.map Marked.lexeme) := by
    rw [hright]
    exact leadingTerminator?_append hmore
  cases hfirst : (gap.map Marked.lexeme).find? (·.kind ≠ .blank) with
  | none =>
      -- The gap is blank, so it stands where an item can begin, and the left side has to lead there.
      have hnone : leadingTerminator? (gap.map Marked.lexeme) = none := by
        rw [leadingTerminator?, hfirst]
        rfl
      obtain rfl := hleft.closed.mp (hfollow.terminated (hlead.trans hnone))
      obtain rfl := hgap.reads.eq_of_blank hfirst
      exact ⟨gap, rfl, hgap⟩
  | some first =>
      have hterminator : isTerminator first.kind := isTerminator_of_free hgap.loose hfree hfirst
      obtain ⟨role, hrole, hadvance⟩ : ∃ role, (role = .trivia ∨ role = .ending) ∧
          advance stack first.kind = some (role, fileStack) := by
        have hkind : first.kind ∈ leadingTerminator? right := by
          rw [hlead, leadingTerminator?, hfirst]
          simpa using hterminator
        obtain hnewline | hopen := hfollow.once first.kind hkind
        · rw [hnewline]
          exact hleft.pauses.advance_newline
        · exact ⟨.ending, .inr rfl, hleft.takes hopen first.kind hterminator⟩
      exact hgap.moved hpauses hfirst hterminator hrole hadvance

/-- Texts that are read one behind the other can follow each other. -/
theorem of_gap {gap : List Marked} {more : List Lexeme} (hleft : EndsOn left stack last) (hgap : IsGap stack gap)
    (hfree : isFree (gap.map Marked.lexeme)) (hright : right = gap.map Marked.lexeme ++ more)
    (hmore : ∀ lexeme ∈ more.head?, ¬ isLoose lexeme.kind)
    (hbehind : ∀ c ∈ (Lexeme.source right).head?, last.EndsBefore c)
    (hline : last.isLineComment → Lexeme.source right ≠ []) : CanFollow left right := by
  have hlead : leadingTerminator? right = leadingTerminator? (gap.map Marked.lexeme) := by
    rw [hright]
    exact leadingTerminator?_append hmore
  refine ⟨?_, ?_, ?_⟩
  · intro kind hkind
    rw [hlead, leadingTerminator?, Option.mem_def, Option.filter_eq_some_iff] at hkind
    obtain ⟨hkind, hterminator⟩ := hkind
    obtain ⟨first, hfirst, rfl⟩ := Option.map_eq_some_iff.mp hkind
    by_cases hclosed : isTerminated left
    · obtain rfl := hleft.closed.mp hclosed
      exact .inl (hgap.first_eq_newline hfirst hterminator)
    · exact .inr hclosed
  · intro hnone
    cases hfirst : (gap.map Marked.lexeme).find? (·.kind ≠ .blank) with
    | none => exact hleft.closed.mpr (hgap.reads.eq_of_blank hfirst)
    | some first =>
        have hterminator : isTerminator first.kind := isTerminator_of_free hgap.loose hfree hfirst
        rw [hlead, leadingTerminator?, hfirst] at hnone
        simp [hterminator] at hnone
  · by_cases hends : endsInLineComment left
    · have hcomment : last.isLineComment := by simpa [endsInLineComment, hleft.last_eq] using hends
      have hhead := List.head?_eq_some_head (hline hcomment)
      exact .inl (hhead.trans (congrArg some (Lexeme.eq_newline_of_isLineComment hcomment (hbehind _ hhead))))
    · exact .inr hends

end CanFollow

end GoGraft
