import GoGraft.Source.Scan

/-!
# Lexemes and the text between their ends

The scanner is a fold over characters, and what it makes of a character depends on the lexeme that is open. The
lexemes of a text are nevertheless a property of the text alone: each is what its own characters are read as, and
each ends where the next character cannot be added to it. `Cuts` says this for a list of lexemes that some
character follows; `lexemes_append` is the one way in which later proofs cut a text.
-/

namespace GoGraft

namespace Scan

/-- The mode after some more characters of the same lexeme. -/
def Mode.through (mode : Mode) (read : Text) : Text → Option Mode
  | [] => some mode
  | c :: rest => (mode.extend read c).bind fun next => next.through (c :: read) rest

/-- The mode at the end of a text that is one lexeme. -/
def mode? : Text → Option Mode
  | [] => none
  | c :: rest => (Mode.opening c).through [c] rest

/-- The lexemes of a text that is read while a lexeme is open, first one first. -/
def emit (current : Option (Mode × Text)) : Text → List Lexeme
  | [] =>
      match current with
      | none => []
      | some (mode, read) => [⟨mode.kind read.reverse, read.reverse⟩]
  | c :: rest =>
      match current with
      | none => emit (some (.opening c, [c])) rest
      | some (mode, read) =>
          match mode.extend read c with
          | some mode => emit (some (mode, c :: read)) rest
          | none => ⟨mode.kind read.reverse, read.reverse⟩ :: emit (some (.opening c, [c])) rest

theorem foldl_step_lexemes (t : Text) (finished : List Lexeme) (current : Option (Mode × Text)) :
    (t.foldl State.step ⟨finished, current⟩).lexemes.reverse =
      finished.reverse ++ emit current t := by
  induction t generalizing finished current with
  | nil => cases current <;> simp [State.lexemes, emit]
  | cons c rest ih =>
      rw [List.foldl_cons]
      cases current with
      | none =>
          simp only [State.step, emit]
          exact ih finished _
      | some open_ =>
          obtain ⟨mode, read⟩ := open_
          simp only [State.step, emit]
          cases mode.extend read c with
          | some next => exact ih finished _
          | none =>
              rw [ih]
              simp [State.lexemes]

theorem lexemes_eq_emit (t : Text) : lexemes t = emit none t := by
  simpa [lexemes, State.initial] using foldl_step_lexemes t [] none

theorem emit_through {mode last : Mode} {read word rest : Text}
    (hthrough : mode.through read word = some last)
    (hend : ∀ c ∈ rest.head?, last.extend (word.reverse ++ read) c = none) :
    emit (some (mode, read)) (word ++ rest) =
      ⟨last.kind (read.reverse ++ word), read.reverse ++ word⟩ :: emit none rest := by
  induction word generalizing mode read with
  | nil =>
      obtain rfl := Option.some.inj hthrough
      cases rest with
      | nil => simp [emit]
      | cons c rest =>
          have hnone := hend c rfl
          simp only [List.reverse_nil, List.nil_append] at hnone
          simp [emit, hnone]
  | cons c word ih =>
      obtain ⟨next, hnext, hthrough⟩ := Option.bind_eq_some_iff.mp hthrough
      rw [List.cons_append, emit]
      simp only [hnext]
      rw [ih hthrough (by simpa using hend)]
      simp

end Scan

namespace Lexeme

open Scan

/-- The text of the lexeme is read as one lexeme of its kind. -/
def IsCut (lexeme : Lexeme) : Prop :=
  ∃ mode, mode? lexeme.text = some mode ∧ lexeme.kind = mode.kind lexeme.text

/-- A character that cannot be added to the lexeme. -/
def EndsBefore (lexeme : Lexeme) (c : Char) : Prop :=
  ∀ mode, mode? lexeme.text = some mode → mode.extend lexeme.text.reverse c = none

theorem IsCut.text_ne_nil {lexeme : Lexeme} (hcut : lexeme.IsCut) : lexeme.text ≠ [] := by
  obtain ⟨mode, hmode, -⟩ := hcut
  intro hnil
  rw [hnil] at hmode
  cases hmode

@[simp]
theorem source_nil : source [] = [] := rfl

@[simp]
theorem source_cons (lexeme : Lexeme) (lexemes : List Lexeme) :
    source (lexeme :: lexemes) = lexeme.text ++ source lexemes := by
  simp [source]

@[simp]
theorem source_append (left right : List Lexeme) :
    source (left ++ right) = source left ++ source right := by
  simp [source]

theorem getLast?_source {lexemes : List Lexeme} {last : Lexeme} (hlast : lexemes.getLast? = some last)
    (hne : last.text ≠ []) : (source lexemes).getLast? = last.text.getLast? := by
  obtain ⟨front, rfl⟩ := List.getLast?_eq_some_iff.mp hlast
  rw [source_append, source_cons, source_nil, List.append_nil, List.getLast?_append,
    List.getLast?_eq_some_getLast hne, Option.some_or]

end Lexeme

namespace Scan

open Lexeme (source)

/-- Each lexeme is one by itself and ends where the text goes on; `next` is the character after the last one. -/
def Cuts : List Lexeme → Option Char → Prop
  | [], _ => True
  | lexeme :: rest, next =>
      lexeme.IsCut ∧ (∀ c ∈ (source rest).head?.or next, lexeme.EndsBefore c) ∧ Cuts rest next

namespace Cuts

variable {left right lexemes : List Lexeme} {next : Option Char}

theorem isCut (hcuts : Cuts lexemes next) : ∀ lexeme ∈ lexemes, lexeme.IsCut := by
  induction lexemes with
  | nil => simp
  | cons lexeme rest ih => simpa using ⟨hcuts.1, ih hcuts.2.2⟩

theorem append_iff : Cuts (left ++ right) next ↔
    Cuts left ((source right).head?.or next) ∧ Cuts right next := by
  induction left with
  | nil => simp [Cuts]
  | cons lexeme left ih =>
      rw [List.cons_append, Cuts, Cuts, ih, Lexeme.source_append, List.head?_append,
        Option.or_assoc]
      simp only [and_assoc]

theorem forget (hcuts : Cuts lexemes next) : Cuts lexemes none := by
  induction lexemes with
  | nil => trivial
  | cons lexeme rest ih =>
      obtain ⟨hcut, hend, hrest⟩ := hcuts
      refine ⟨hcut, ?_, ih hrest⟩
      intro c hc
      rw [Option.or_none] at hc
      apply hend
      rw [Option.mem_def.mp hc]
      rfl

theorem of_infix {before lexemes after : List Lexeme} (hcuts : Cuts (before ++ (lexemes ++ after)) next) :
    Cuts lexemes none :=
  (append_iff.mp (append_iff.mp hcuts).2).1.forget

end Cuts

/-- The lexemes of a text that begins with cut lexemes. -/
theorem lexemes_append {cut : List Lexeme} {rest : Text} (hcuts : Cuts cut rest.head?) :
    lexemes (source cut ++ rest) = cut ++ lexemes rest := by
  simp only [lexemes_eq_emit]
  induction cut with
  | nil => rfl
  | cons lexeme cut ih =>
      obtain ⟨⟨mode, hmode, hkind⟩, hend, hrest⟩ := hcuts
      rw [Lexeme.source_cons, List.append_assoc]
      cases htext : lexeme.text with
      | nil =>
          rw [htext] at hmode
          cases hmode
      | cons c word =>
          have hthrough := hmode
          rw [htext] at hthrough
          have hstop : ∀ d ∈ (source cut ++ rest).head?,
              mode.extend (word.reverse ++ [c]) d = none := by
            intro d hd
            rw [List.head?_append] at hd
            have hnone := hend d hd mode hmode
            rwa [htext, List.reverse_cons] at hnone
          have hlexeme : (⟨mode.kind ([c].reverse ++ word), [c].reverse ++ word⟩ : Lexeme) =
              lexeme := by
            obtain ⟨kind, text⟩ := lexeme
            simp only at htext hkind
            subst htext
            simp [hkind]
          rw [List.cons_append, emit, emit_through hthrough hstop, ih hrest, hlexeme,
            List.cons_append]

theorem through_append (mode : Mode) (read word more : Text) :
    mode.through read (word ++ more) =
      (mode.through read word).bind fun next => next.through (word.reverse ++ read) more := by
  induction word generalizing mode read with
  | nil => rfl
  | cons c word ih =>
      simp only [List.cons_append, Mode.through, ih]
      cases mode.extend read c <;> simp

theorem mode?_append_singleton {word : Text} {mode : Mode} (c : Char) (hmode : mode? word = some mode) :
    mode? (word ++ [c]) = mode.extend word.reverse c := by
  cases word with
  | nil => cases hmode
  | cons d word =>
      simp only [mode?] at hmode
      simp [mode?, through_append, hmode, Mode.through]

theorem cuts_emit {mode : Mode} {read : Text} (t : Text) (hmode : mode? read.reverse = some mode) :
    source (emit (some (mode, read)) t) = read.reverse ++ t ∧
      Cuts (emit (some (mode, read)) t) none := by
  induction t generalizing mode read with
  | nil => simpa [emit, Cuts] using ⟨mode, hmode, rfl⟩
  | cons c rest ih =>
      simp only [emit]
      cases hextend : mode.extend read c with
      | some next =>
          have hnext : mode? (c :: read).reverse = some next := by
            rw [List.reverse_cons, mode?_append_singleton c hmode, List.reverse_reverse, hextend]
          simpa using ih hnext
      | none =>
          obtain ⟨hsource, hcuts⟩ := @ih (.opening c) [c] rfl
          refine ⟨by simp [hsource], ⟨mode, hmode, rfl⟩, ?_, hcuts⟩
          intro d hd other hother
          obtain rfl := Option.some.inj (hmode.symm.trans hother)
          rw [hsource] at hd
          obtain rfl : c = d := by simpa using hd
          rw [List.reverse_reverse]
          exact hextend

theorem cuts_lexemes (t : Text) : Cuts (lexemes t) none := by
  rw [lexemes_eq_emit]
  cases t with
  | nil => trivial
  | cons c rest => exact (cuts_emit rest rfl).2

/-- The lexemes of a text make it up. -/
@[simp]
theorem source_lexemes (t : Text) : source (lexemes t) = t := by
  rw [lexemes_eq_emit]
  cases t with
  | nil => rfl
  | cons c rest => exact (cuts_emit rest rfl).1

@[simp]
theorem source_file (t : Text) : source (file t) = t := by
  unfold file
  split
  · rw [Lexeme.source_cons, source_lexemes]
    rfl
  · exact source_lexemes t

end Scan

end GoGraft
