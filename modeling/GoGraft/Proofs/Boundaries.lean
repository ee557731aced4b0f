import GoGraft.Proofs.Characters
import GoGraft.Proofs.Lexemes

/-!
# Where lexemes end

What a lexeme looks like at its end decides what may be written after it. Apart from line comments, a lexeme that is
no white space ends in a character that is none, and white space can follow it; a line comment goes on to the end of
its line. Strays are left out: the grammar takes none.
-/

namespace GoGraft

namespace Scan

/-- The text ends in a character that is not white space. -/
def EndsInInk (text : Text) : Prop :=
  ∃ front c, text = front ++ [c] ∧ ¬ Text.isSpace c

/-- What the text of a lexeme in a mode looks like. -/
def Mode.Fits (mode : Mode) (text : Text) : Prop :=
  match mode with
  | .whole .newline => text = ['\n']
  | .whole .blank | .whole (.keyword _) => False
  | .whole _ | .word | .number _ _ | .mark => EndsInInk text
  | .blank => ∀ c ∈ text, Text.isSpace c ∧ c ≠ '\n'
  | .lineComment => ['/', '/'] <+: text ∧ '\n' ∉ text
  | _ => True

theorem not_isSpace_of_beginsMark {text : Text} (hbegins : Lexeme.beginsMark text) :
    ∀ c ∈ text, ¬ Text.isSpace c := by
  intro c hc
  obtain ⟨mark, hmark, hfront⟩ := List.any_eq_true.mp hbegins
  have hmem : c ∈ mark.1 := (List.isPrefixOf_iff_prefix.mp hfront).subset hc
  have hmarks : Lexeme.marks.all fun mark => mark.1.all fun c => !Text.isSpace c := by decide
  have hink := List.all_eq_true.mp (List.all_eq_true.mp hmarks mark hmark) c hmem
  simpa using hink

theorem Mode.fits_opening (c : Char) : (Mode.opening c).Fits [c] := by
  unfold Mode.opening
  split
  · rename_i hnewline
    rw [beq_iff_eq.mp hnewline]
    rfl
  · rename_i hnewline
    split
    · rename_i hspace
      intro d hd
      obtain rfl := List.mem_singleton.mp hd
      exact ⟨hspace, by simpa using hnewline⟩
    · rename_i hink
      have hends : EndsInInk [c] := ⟨[], c, rfl, hink⟩
      repeat' split
      all_goals first
        | exact hends
        | trivial

theorem not_isSpace_of_number {c : Char}
    (hnumber : c.isAlpha || c.isDigit || c == '_' || c == '.') : ¬ Text.isSpace c := by
  simp only [Bool.or_eq_true, beq_iff_eq] at hnumber
  obtain ((halpha | hdigit) | rfl) | rfl := hnumber
  · exact Text.not_isSpace_of_isAlpha halpha
  · exact Text.not_isSpace_of_isDigit hdigit
  · decide
  · decide

/-- Inside a string or a rune: the lexeme is not complete yet. -/
def Mode.InLiteral : Mode → Prop
  | .rawString | .string | .stringEscape | .stringHex _ | .rune | .runeEscape | .runeDigits _ _ | .runeEnd => True
  | _ => False

/-- What one more character can make of a mode, after the text read so far. -/
inductive Mode.Grows (read : Text) (c : Char) : Mode → Mode → Prop where
  | blank (hspace : Text.isSpace c) (hline : c ≠ '\n') : Grows read c .blank .blank
  | word (hpart : Text.isWordPart c) : Grows read c .word .word
  | number {hex power hex' power' : Bool} (hpart : c.isAlpha || c.isDigit || c == '_' || c == '.') :
      Grows read c (.number hex power) (.number hex' power')
  | sign {hex : Bool} (hsign : c = '+' ∨ c = '-') : Grows read c (.number hex true) (.number hex false)
  | mark (hbegins : Lexeme.beginsMark (c :: read).reverse) : Grows read c .mark .mark
  | fraction (hdigit : c.isDigit) : Grows read c .mark (.number false false)
  | lineComment (hread : read = ['/']) (hc : c = '/') : Grows read c .mark .lineComment
  | blockComment (hread : read = ['/']) (hc : c = '*') : Grows read c .mark (.blockComment false)
  | line (hc : c ≠ '\n') : Grows read c .lineComment .lineComment
  | block {star : Bool} : Grows read c (.blockComment star) (.blockComment (c == '*'))
  | blockEnd (hc : c = '/') : Grows read c (.blockComment true) (.whole .comment)
  | literal {mode next : Mode} (hmode : mode.InLiteral) (hnext : next.InLiteral) : Grows read c mode next
  | literalEnd {mode : Mode} {kind : LexemeKind} (hmode : mode.InLiteral) (hkind : kind = .string ∨ kind = .rune)
      (hink : ¬ Text.isSpace c) : Grows read c mode (.whole kind)

theorem Mode.grows_of_extend {mode next : Mode} {read : Text} {c : Char} (hextend : mode.extend read c = some next) :
    mode.Grows read c next := by
  cases mode <;> simp only [Mode.extend] at hextend
  case whole => cases hextend
  case blank =>
    obtain ⟨hspace, ⟨⟩⟩ := Option.ite_none_right_eq_some.mp hextend
    simp only [Bool.and_eq_true, bne_iff_ne] at hspace
    exact .blank hspace.1 hspace.2
  case word =>
    obtain ⟨hpart, ⟨⟩⟩ := Option.ite_none_right_eq_some.mp hextend
    exact .word hpart
  case number hex power =>
    split at hextend
    · rename_i hpart
      cases hextend
      refine .number ?_
      simp only [Bool.or_eq_true, Bool.and_eq_true] at hpart ⊢
      exact hpart.imp_right And.left
    · obtain ⟨hsign, ⟨⟩⟩ := Option.ite_none_right_eq_some.mp hextend
      simp only [Bool.and_eq_true, Bool.or_eq_true, beq_iff_eq] at hsign
      obtain ⟨rfl, hsign⟩ := hsign
      exact .sign hsign
  case mark =>
    simp only [Bool.and_eq_true, beq_iff_eq] at hextend
    repeat' split at hextend
    all_goals cases hextend
    case isTrue hslash => exact .lineComment hslash.1 hslash.2
    case isFalse.isTrue hstar => exact .blockComment hstar.1 hstar.2
    case isFalse.isFalse.isTrue hdot => exact .fraction hdot.2
    case isFalse.isFalse.isFalse.isTrue hbegins => exact .mark hbegins
  case lineComment =>
    obtain ⟨hc, ⟨⟩⟩ := Option.ite_none_left_eq_some.mp hextend
    exact .line (by simpa using hc)
  case blockComment star =>
    split at hextend
    · rename_i hclose
      cases hextend
      simp only [Bool.and_eq_true, beq_iff_eq] at hclose
      obtain ⟨rfl, hc⟩ := hclose
      exact .blockEnd hc
    · cases hextend
      exact .block
  case rawString | string =>
    split at hextend
    · rename_i hquote
      cases hextend
      exact .literalEnd trivial (.inl rfl) (by rw [beq_iff_eq.mp hquote]; decide)
    · repeat' split at hextend
      all_goals cases hextend
      all_goals exact .literal trivial trivial
  case runeEnd =>
    obtain ⟨hquote, ⟨⟩⟩ := Option.ite_none_right_eq_some.mp hextend
    exact .literalEnd trivial (.inr rfl) (by rw [beq_iff_eq.mp hquote]; decide)
  case stringEscape | stringHex | rune | runeEscape | runeDigits =>
    repeat' split at hextend
    all_goals cases hextend
    all_goals exact .literal trivial trivial

theorem Mode.fits_extend {mode next : Mode} {read : Text} {c : Char} (hfits : mode.Fits read.reverse)
    (hextend : mode.extend read c = some next) : next.Fits (read.reverse ++ [c]) := by
  have hends (hink : ¬ Text.isSpace c) : EndsInInk (read.reverse ++ [c]) :=
    ⟨read.reverse, c, rfl, hink⟩
  cases Mode.grows_of_extend hextend with
  | blank hspace hline =>
      simpa only [Mode.Fits, List.forall_mem_append, List.forall_mem_singleton]
        using ⟨hfits, hspace, hline⟩
  | word hpart => exact hends (Text.not_isSpace_of_isWordPart hpart)
  | number hpart => exact hends (not_isSpace_of_number hpart)
  | sign hsign =>
      obtain rfl | rfl := hsign
      · exact hends (by decide)
      · exact hends (by decide)
  | mark hbegins => exact hends (not_isSpace_of_beginsMark hbegins c (by simp))
  | fraction hdigit => exact hends (Text.not_isSpace_of_isDigit hdigit)
  | lineComment hread hc =>
      subst hread hc
      simp [Mode.Fits]
  | line hc =>
      obtain ⟨hslash, hline⟩ := hfits
      refine ⟨hslash.trans (List.prefix_append _ _), ?_⟩
      simp only [List.mem_append, List.mem_singleton, not_or]
      exact ⟨hline, hc.symm⟩
  | blockComment | block => trivial
  | blockEnd hc => exact hends (by rw [hc]; decide)
  | literal _ hnext => cases next <;> trivial
  | literalEnd _ hkind hink => obtain rfl | rfl := hkind <;> exact hends hink

theorem Mode.fits_through {mode last : Mode} {read word : Text} (hfits : mode.Fits read.reverse)
    (hthrough : mode.through read word = some last) : last.Fits (read.reverse ++ word) := by
  induction word generalizing mode read with
  | nil =>
      obtain rfl := Option.some.inj hthrough
      rw [List.append_nil]
      exact hfits
  | cons c word ih =>
      obtain ⟨next, hnext, hthrough⟩ := Option.bind_eq_some_iff.mp hthrough
      have hcons : (c :: read).reverse = read.reverse ++ [c] := List.reverse_cons
      have hlast := ih (hcons ▸ Mode.fits_extend hfits hnext) hthrough
      rw [hcons, List.append_assoc] at hlast
      exact hlast

theorem fits_of_mode? {text : Text} {mode : Mode} (hmode : mode? text = some mode) :
    mode.Fits text := by
  cases text with
  | nil => cases hmode
  | cons c word => exact Mode.fits_through (Mode.fits_opening c) hmode

/-- What the first character of a lexeme in a mode is, where the mode tells. Marks are never complete before the
character that follows them. -/
def Mode.BeginsWith (mode : Mode) (c : Char) : Prop :=
  match mode with
  | .whole .comment | .lineComment | .blockComment _ => c = '/'
  | .whole (.mark _) => False
  | _ => True

theorem Mode.beginsWith_opening (c : Char) : (Mode.opening c).BeginsWith c := by
  unfold Mode.opening
  repeat' split
  all_goals trivial

theorem Mode.beginsWith_extend {mode next : Mode} {read : Text} {first c : Char}
    (hbegins : mode.BeginsWith first) (hfirst : read.getLast? = some first)
    (hextend : mode.extend read c = some next) : next.BeginsWith first := by
  cases Mode.grows_of_extend hextend with
  | lineComment hread | blockComment hread =>
      rw [hread] at hfirst
      exact (Option.some.inj hfirst).symm
  | line | block | blockEnd => exact hbegins
  | literal _ hnext => cases next <;> trivial
  | literalEnd _ hkind => obtain rfl | rfl := hkind <;> trivial
  | _ => trivial

theorem Mode.beginsWith_through {mode last : Mode} {read word : Text} {first : Char}
    (hbegins : mode.BeginsWith first) (hfirst : read.getLast? = some first)
    (hthrough : mode.through read word = some last) : last.BeginsWith first := by
  induction word generalizing mode read with
  | nil =>
      obtain rfl := Option.some.inj hthrough
      exact hbegins
  | cons c word ih =>
      obtain ⟨next, hnext, hthrough⟩ := Option.bind_eq_some_iff.mp hthrough
      refine ih (Mode.beginsWith_extend hbegins hfirst hnext) ?_ hthrough
      rw [List.getLast?_cons, hfirst]
      rfl

theorem beginsWith_of_mode? {text : Text} {mode : Mode} {c : Char} (hmode : mode? text = some mode)
    (hc : text.head? = some c) : mode.BeginsWith c := by
  cases text with
  | nil => cases hmode
  | cons first word =>
      obtain rfl := Option.some.inj hc
      exact Mode.beginsWith_through (Mode.beginsWith_opening first) rfl hmode

/-- The kinds that a lexeme in a mode can have. -/
inductive Mode.HasKind (text : Text) : Mode → LexemeKind → Prop where
  | whole (kind : LexemeKind) : HasKind text (.whole kind) kind
  | blank : HasKind text .blank .blank
  | keyword {which : Keyword} (hmem : (text, which) ∈ Lexeme.keywords) : HasKind text .word (.keyword which)
  | maker : HasKind text .word .maker
  | word : HasKind text .word .word
  | number {hex power : Bool} : HasKind text (.number hex power) .number
  | mark {which : Mark} (hmem : (text, which) ∈ Lexeme.marks) : HasKind text .mark (.mark which)
  | lineComment : HasKind text .lineComment .comment
  | stray (mode : Mode) : HasKind text mode .stray

theorem mem_of_lookup {α β : Type} [BEq α] [LawfulBEq α] {table : List (α × β)} {key : α} {value : β}
    (hlookup : table.lookup key = some value) : (key, value) ∈ table := by
  obtain ⟨front, back, rfl, -⟩ := List.lookup_eq_some_iff.mp hlookup
  simp

theorem Mode.hasKind (mode : Mode) (text : Text) : mode.HasKind text (mode.kind text) := by
  cases mode with
  | whole kind => exact .whole kind
  | blank => exact .blank
  | word =>
      simp only [Mode.kind, Lexeme.ofWord]
      split
      · rename_i which hlookup
        exact .keyword (mem_of_lookup hlookup)
      · split
        · exact .maker
        · exact .word
  | number =>
      simp only [Mode.kind]
      split
      · exact .number
      · exact .stray _
  | mark =>
      simp only [Mode.kind, Lexeme.ofMark]
      split
      · rename_i which hlookup
        exact .mark (mem_of_lookup hlookup)
      · exact .stray _
  | lineComment => exact .lineComment
  | _ => exact .stray _

/-- Blanks and newlines. -/
def isWhite : LexemeKind → Bool
  | .blank | .newline => true
  | _ => false

/-- Blanks, newlines and comments. -/
def isTrivial : LexemeKind → Bool
  | .blank | .newline | .comment => true
  | _ => false

theorem isTrivial_of_isWhite {kind : LexemeKind} (hwhite : isWhite kind) : isTrivial kind := by
  cases kind <;> first | rfl | cases hwhite

end Scan

namespace Lexeme

open Scan

/-- A comment that goes on to the end of its line. -/
def isLineComment (lexeme : Lexeme) : Bool :=
  Scan.mode? lexeme.text = some .lineComment

variable {lexeme : Lexeme}

theorem newline_not_mem_of_isLineComment (hline : lexeme.isLineComment) : '\n' ∉ lexeme.text :=
  (fits_of_mode? (of_decide_eq_true hline)).2

theorem slash_mem_of_isLineComment (hline : lexeme.isLineComment) : '/' ∈ lexeme.text :=
  (fits_of_mode? (of_decide_eq_true hline)).1.subset (by simp)

theorem eq_newline_of_isLineComment {c : Char} (hline : lexeme.isLineComment) (hends : lexeme.EndsBefore c) :
    c = '\n' := by
  have hnone := hends .lineComment (of_decide_eq_true hline)
  simp only [Mode.extend] at hnone
  split at hnone
  · rename_i hnewline
    exact beq_iff_eq.mp hnewline
  · cases hnone

theorem mode_of_isWhite {mode : Mode} {text : Text} (hwhite : isWhite (mode.kind text)) :
    (∃ kind, mode = .whole kind) ∨ mode = .blank := by
  have hkind := mode.hasKind text
  generalize mode.kind text = kind at hkind hwhite
  cases hkind with
  | whole kind => exact .inl ⟨kind, rfl⟩
  | blank => exact .inr rfl
  | _ => cases hwhite

namespace IsCut

theorem exists_hasKind (hcut : lexeme.IsCut) :
    ∃ mode, mode? lexeme.text = some mode ∧ mode.HasKind lexeme.text lexeme.kind := by
  obtain ⟨mode, hmode, hkind⟩ := hcut
  exact ⟨mode, hmode, hkind ▸ mode.hasKind lexeme.text⟩

theorem newline (hcut : lexeme.IsCut) (hkind : lexeme.kind = .newline) : lexeme.text = ['\n'] := by
  obtain ⟨mode, hmode, hmodeKind⟩ := hcut
  have hfits := fits_of_mode? hmode
  rw [hkind] at hmodeKind
  obtain ⟨kind, rfl⟩ | rfl := @mode_of_isWhite mode lexeme.text (hmodeKind ▸ rfl)
  · obtain rfl : LexemeKind.newline = kind := hmodeKind
    exact hfits
  · cases hmodeKind

theorem blank (hcut : lexeme.IsCut) (hkind : lexeme.kind = .blank) :
    ∀ c ∈ lexeme.text, Text.isSpace c ∧ c ≠ '\n' := by
  obtain ⟨mode, hmode, hmodeKind⟩ := hcut
  have hfits := fits_of_mode? hmode
  rw [hkind] at hmodeKind
  obtain ⟨kind, rfl⟩ | rfl := @mode_of_isWhite mode lexeme.text (hmodeKind ▸ rfl)
  · obtain rfl : LexemeKind.blank = kind := hmodeKind
    exact absurd hfits id
  · exact hfits

theorem white (hcut : lexeme.IsCut) (hwhite : isWhite lexeme.kind) :
    ∀ c ∈ lexeme.text, Text.isSpace c := by
  cases hkind : lexeme.kind <;> rw [hkind] at hwhite
  case blank => exact fun c hc => (hcut.blank hkind c hc).1
  case newline =>
    rw [hcut.newline hkind, List.forall_mem_singleton]
    decide
  all_goals cases hwhite

theorem endsBefore_of_isWhite (hcut : lexeme.IsCut) (hwhite : isWhite lexeme.kind) {c : Char}
    (hc : ¬ Text.isSpace c) : lexeme.EndsBefore c := by
  intro mode hmode
  obtain ⟨other, hother, hkind⟩ := hcut
  obtain rfl := Option.some.inj (hmode.symm.trans hother)
  rw [hkind] at hwhite
  obtain ⟨kind, rfl⟩ | rfl := mode_of_isWhite hwhite
  · rfl
  · simp [Mode.extend, hc]

theorem endsBefore_of_newline (hcut : lexeme.IsCut) (hkind : lexeme.kind = .newline) (c : Char) :
    lexeme.EndsBefore c := by
  intro mode hmode
  obtain ⟨other, hother, hmodeKind⟩ := hcut
  obtain rfl := Option.some.inj (hmode.symm.trans hother)
  rw [hkind] at hmodeKind
  obtain ⟨kind, rfl⟩ | rfl := @mode_of_isWhite mode lexeme.text (hmodeKind ▸ rfl)
  · rfl
  · cases hmodeKind

/-- A lexeme other than white space ends in ink, or is a comment up to the end of its line. -/
theorem ink (hcut : lexeme.IsCut) (hwhite : ¬ isWhite lexeme.kind) (hstray : lexeme.kind ≠ .stray) :
    EndsInInk lexeme.text ∨ lexeme.isLineComment := by
  obtain ⟨mode, hmode, hmodeKind⟩ := hcut
  have hfits := fits_of_mode? hmode
  cases mode with
  | whole kind =>
      obtain rfl : lexeme.kind = kind := hmodeKind
      cases hkind : lexeme.kind <;> rw [hkind] at hfits hwhite
      case blank | newline => exact absurd rfl hwhite
      case keyword => exact hfits.elim
      all_goals exact .inl hfits
  | blank =>
      rw [hmodeKind] at hwhite
      exact absurd rfl hwhite
  | word | number | mark => exact .inl hfits
  | lineComment => exact .inr (decide_eq_true hmode)
  | _ => exact absurd hmodeKind hstray

theorem isLineComment_of_space (hcut : lexeme.IsCut) (hwhite : ¬ isWhite lexeme.kind) (hstray : lexeme.kind ≠ .stray)
    {c : Char} (hlast : lexeme.text.getLast? = some c) (hspace : Text.isSpace c) : lexeme.isLineComment := by
  obtain ⟨front, d, htext, hd⟩ | hline := hcut.ink hwhite hstray
  · rw [htext, List.getLast?_concat] at hlast
    obtain rfl := Option.some.inj hlast
    exact absurd hspace hd
  · exact hline

theorem kind_eq_newline (hcut : lexeme.IsCut) (hstray : lexeme.kind ≠ .stray)
    (hlast : lexeme.text.getLast? = some '\n') : lexeme.kind = .newline := by
  have hmem := List.mem_of_getLast? hlast
  by_cases hwhite : isWhite lexeme.kind
  · unfold isWhite at hwhite
    split at hwhite
    · rename_i hblank
      exact absurd rfl (hcut.blank hblank '\n' hmem).2
    · assumption
    · cases hwhite
  · have hline := hcut.isLineComment_of_space hwhite hstray hlast rfl
    exact absurd hmem (newline_not_mem_of_isLineComment hline)

theorem keyword {word : Keyword} (hcut : lexeme.IsCut) (hkind : lexeme.kind = .keyword word) :
    (lexeme.text, word) ∈ keywords := by
  obtain ⟨mode, hmode, hhas⟩ := hcut.exists_hasKind
  rw [hkind] at hhas
  cases hhas with
  | whole => exact (fits_of_mode? hmode).elim
  | keyword hmem => exact hmem

theorem head?_of_comment (hcut : lexeme.IsCut) (hkind : lexeme.kind = .comment) : lexeme.text.head? = some '/' := by
  obtain ⟨c, hc⟩ : ∃ c, lexeme.text.head? = some c := ⟨_, List.head?_eq_some_head hcut.text_ne_nil⟩
  obtain ⟨mode, hmode, hhas⟩ := hcut.exists_hasKind
  have hbegins := beginsWith_of_mode? hmode hc
  rw [hkind] at hhas
  cases hhas with
  | whole | lineComment => rw [hc, show c = '/' from hbegins]

theorem mark {which : Mark} (hcut : lexeme.IsCut) (hkind : lexeme.kind = .mark which) :
    (lexeme.text, which) ∈ marks := by
  obtain ⟨c, hc⟩ : ∃ c, lexeme.text.head? = some c := ⟨_, List.head?_eq_some_head hcut.text_ne_nil⟩
  obtain ⟨mode, hmode, hhas⟩ := hcut.exists_hasKind
  rw [hkind] at hhas
  cases hhas with
  | whole => exact (beginsWith_of_mode? hmode hc).elim
  | mark hmem => exact hmem

/-- White space can follow a lexeme, unless it is a comment that goes on to the end of its line. -/
theorem endsBefore_space (hcut : lexeme.IsCut) (hblank : lexeme.kind ≠ .blank)
    (hstray : lexeme.kind ≠ .stray)
    (hcomment : lexeme.kind = .comment → ∃ c, lexeme.EndsBefore c ∧ c ≠ '\n') {d : Char}
    (hd : Text.isSpace d) : lexeme.EndsBefore d := by
  obtain ⟨mode, hmode, hmodeKind⟩ := hcut
  intro other hother
  obtain rfl := Option.some.inj (hmode.symm.trans hother)
  apply Option.eq_none_iff_forall_ne_some.mpr
  intro next hextend
  cases Mode.grows_of_extend hextend with
  | blank => exact hblank hmodeKind
  | word hpart => exact Text.not_isSpace_of_isWordPart hpart hd
  | number hpart => exact not_isSpace_of_number hpart hd
  | sign hsign => obtain rfl | rfl := hsign <;> exact absurd hd (by decide)
  | mark hbegins => exact not_isSpace_of_beginsMark hbegins d (by simp) hd
  | fraction hdigit => exact Text.not_isSpace_of_isDigit hdigit hd
  | lineComment _ hslash => exact absurd hd (by rw [hslash]; decide)
  | blockComment _ hstar => exact absurd hd (by rw [hstar]; decide)
  | line =>
      obtain ⟨c, hends, hc⟩ := hcomment hmodeKind
      exact hc (eq_newline_of_isLineComment (decide_eq_true hmode) hends)
  | block | blockEnd => exact hstray hmodeKind
  -- Where a literal goes on, what was read of it is no lexeme of any rule.
  | literal hopen | literalEnd hopen => cases mode <;> first | exact hstray hmodeKind | exact hopen.elim

theorem mode_of_comment (hcut : lexeme.IsCut) (hkind : lexeme.kind = .comment) {mode : Mode}
    (hmode : mode? lexeme.text = some mode) : mode = .whole .comment ∨ mode = .lineComment := by
  obtain ⟨other, hother, hhas⟩ := hcut.exists_hasKind
  obtain rfl := Option.some.inj (hmode.symm.trans hother)
  rw [hkind] at hhas
  cases hhas with
  | whole => exact .inl rfl
  | lineComment => exact .inr rfl

theorem endsBefore_of_comment (hcut : lexeme.IsCut) (hkind : lexeme.kind = .comment) {c : Char}
    (hc : c = '\n' ∨ ¬ lexeme.isLineComment) : lexeme.EndsBefore c := by
  intro mode hmode
  obtain rfl | rfl := hcut.mode_of_comment hkind hmode
  · rfl
  · obtain rfl | hline := hc
    · rfl
    · exact absurd (decide_eq_true hmode) hline

theorem mode_of_string (hcut : lexeme.IsCut) (hkind : lexeme.kind = .string) :
    mode? lexeme.text = some (.whole .string) := by
  obtain ⟨mode, hmode, hhas⟩ := hcut.exists_hasKind
  rw [hkind] at hhas
  cases hhas with
  | whole => exact hmode

theorem endsInInk_of_string (hcut : lexeme.IsCut) (hkind : lexeme.kind = .string) : EndsInInk lexeme.text :=
  fits_of_mode? (hcut.mode_of_string hkind)

theorem endsBefore_of_string (hcut : lexeme.IsCut) (hkind : lexeme.kind = .string) (c : Char) :
    lexeme.EndsBefore c := by
  intro mode hmode
  obtain rfl := Option.some.inj ((hcut.mode_of_string hkind).symm.trans hmode)
  rfl

theorem text_of_closeParen (hcut : lexeme.IsCut) (hkind : lexeme.kind = .mark .closeParen) : lexeme.text = [')'] := by
  simpa [marks] using hcut.mark hkind

theorem endsBefore_of_closeParen (hcut : lexeme.IsCut) (hkind : lexeme.kind = .mark .closeParen) (c : Char) :
    lexeme.EndsBefore c := by
  have htext := hcut.text_of_closeParen hkind
  have hmark : mode? [')'] = some .mark := rfl
  intro mode hmode
  rw [htext] at hmode ⊢
  obtain rfl := Option.some.inj (hmark.symm.trans hmode)
  simp [Mode.extend, beginsMark, marks]

theorem not_beginsMark_terminator {text : Text} {c : Char} (hc : c = ';' ∨ c = '\x00') (htext : text ≠ []) :
    beginsMark (text ++ [c]) = false := by
  have halone : marks.all fun mark => [';', '\x00'].all fun c => mark.1 == [c] || !mark.1.elem c := by decide
  apply Bool.eq_false_iff.mpr
  intro hbegins
  obtain ⟨mark, hmark, hfront⟩ := List.any_eq_true.mp hbegins
  have hfront := List.isPrefixOf_iff_prefix.mp hfront
  have hmem : c ∈ mark.1 := hfront.subset (by simp)
  have hsingle := List.all_eq_true.mp (List.all_eq_true.mp halone mark hmark) c (by simpa using hc)
  have hmark : mark.1 = [c] := by simpa [hmem] using hsingle
  rw [hmark] at hfront
  have hlength := hfront.length_le
  rw [List.length_append] at hlength
  exact htext (List.length_eq_zero_iff.mp (by simpa using hlength))

theorem endsBefore_mark (hcut : lexeme.IsCut) (hstray : lexeme.kind ≠ .stray) (hcomment : lexeme.kind ≠ .comment)
    {c : Char} (hc : c = ';' ∨ c = '\x00') : lexeme.EndsBefore c := by
  obtain ⟨mode, hmode, hmodeKind⟩ := hcut
  intro other hother
  obtain rfl := Option.some.inj (hmode.symm.trans hother)
  cases mode with
  | whole => rfl
  | blank | word | number =>
      obtain rfl | rfl := hc <;> simp [Mode.extend] <;> decide
  | mark =>
      have hnone : mode? lexeme.text ≠ none := by simp [hmode]
      have htext : lexeme.text ≠ [] := fun hnil => hnone (hnil ▸ rfl)
      have hmark := not_beginsMark_terminator hc htext
      obtain rfl | rfl := hc <;> simp [Mode.extend, hmark]
  | lineComment => exact absurd hmodeKind hcomment
  | _ => exact absurd hmodeKind hstray

end IsCut

end Lexeme

namespace Text

theorem lastLine_append {front : Text} {line : Text} (hline : '\n' ∉ line) :
    lastLine (front ++ line) = lastLine front ++ line := by
  have hall : ∀ c ∈ line.reverse, (c != '\n') = true := by
    intro c hc
    rw [bne_iff_ne]
    rintro rfl
    exact hline (List.mem_reverse.mp hc)
  unfold lastLine
  rw [List.reverse_append, List.takeWhile_append_of_pos hall, List.reverse_append,
    List.reverse_reverse]

theorem lastLine_newline {front : Text} {line : Text} (hline : '\n' ∉ line) :
    lastLine (front ++ '\n' :: line) = line := by
  have hnil : lastLine (front ++ ['\n']) = [] := by simp [lastLine]
  rw [← List.singleton_append, ← List.append_assoc, lastLine_append hline, hnil, List.nil_append]

theorem exists_last_newline {text : Text} (hmem : '\n' ∈ text) :
    ∃ front line, text = front ++ '\n' :: line ∧ '\n' ∉ line := by
  obtain ⟨after, before, hreverse, hafter⟩ := List.eq_append_cons_of_mem (List.mem_reverse.mpr hmem)
  refine ⟨before.reverse, after.reverse, ?_, by simpa using hafter⟩
  rw [← List.reverse_reverse text, hreverse]
  simp

end Text

namespace Scan

open Lexeme (source newline_not_mem_of_isLineComment slash_mem_of_isLineComment)

theorem not_isIndent_lastLine {lexeme : Lexeme} (hcut : lexeme.IsCut) (hwhite : ¬ isWhite lexeme.kind)
    (hstray : lexeme.kind ≠ .stray) (front : Text) :
    ¬ (Text.lastLine (front ++ lexeme.text)).all Text.isIndent := by
  intro hall
  rw [List.all_eq_true] at hall
  obtain ⟨init, c, htext, hink⟩ | hline := hcut.ink hwhite hstray
  · have hc : '\n' ∉ [c] := by
      rw [List.mem_singleton]
      rintro rfl
      exact hink (by decide)
    rw [htext, ← List.append_assoc, Text.lastLine_append hc] at hall
    have hindent := hall c (by simp)
    simp only [Text.isIndent, Bool.or_eq_true, beq_iff_eq] at hindent
    obtain rfl | rfl := hindent <;> exact hink (by decide)
  · rw [Text.lastLine_append (newline_not_mem_of_isLineComment hline)] at hall
    exact absurd (hall '/' (List.mem_append_right _ (slash_mem_of_isLineComment hline))) (by decide)

theorem Cuts.extend {lexemes : List Lexeme} {next : Option Char} (hcuts : Cuts lexemes none)
    (hlast : ∀ lexeme ∈ lexemes.getLast?, ∀ c ∈ next, lexeme.EndsBefore c) : Cuts lexemes next := by
  induction lexemes with
  | nil => trivial
  | cons lexeme rest ih =>
      obtain ⟨hcut, hend, hrest⟩ := hcuts
      cases rest with
      | nil => exact ⟨hcut, by simpa using hlast lexeme rfl, trivial⟩
      | cons second others =>
          refine ⟨hcut, ?_, ih hrest hlast⟩
          have hne : source (second :: others) ≠ [] := by
            simp [hrest.1.text_ne_nil]
          rw [Option.or_none] at hend
          rwa [List.head?_eq_some_head hne, Option.some_or, ← List.head?_eq_some_head hne]

theorem Cuts.extend_space {lexemes : List Lexeme} {next : Option Char} (hcuts : Cuts lexemes none)
    (hlast : ∀ last ∈ lexemes.getLast?, ¬ isTrivial last.kind ∧ last.kind ≠ .stray)
    (hnext : ∀ c ∈ next, Text.isSpace c) : Cuts lexemes next := by
  apply hcuts.extend
  intro lexeme hlexeme c hc
  obtain ⟨htrivial, hstray⟩ := hlast lexeme hlexeme
  apply (hcuts.isCut lexeme (List.mem_of_mem_getLast? hlexeme)).endsBefore_space
  · intro hkind
    exact htrivial (by rw [hkind]; rfl)
  · exact hstray
  · intro hkind
    exact absurd (by rw [hkind]; rfl) htrivial
  · exact hnext c hc

theorem lexemes_cons {word rest : Text} {mode : Mode} (hmode : mode? word = some mode)
    (hend : ∀ c ∈ rest.head?, mode.extend word.reverse c = none) :
    lexemes (word ++ rest) = ⟨mode.kind word, word⟩ :: lexemes rest := by
  have hcuts : Cuts [⟨mode.kind word, word⟩] rest.head? := by
    refine ⟨⟨mode, hmode, rfl⟩, ?_, trivial⟩
    intro c hc other hother
    obtain rfl := Option.some.inj (hmode.symm.trans hother)
    exact hend c hc
  simpa using lexemes_append hcuts

/-- Only a byte order mark keeps the lexemes of a file from being those of its text. -/
theorem file_cases (text : Text) :
    (∃ rest, text = '\uFEFF' :: rest ∧ file text = ⟨.blank, ['\uFEFF']⟩ :: lexemes rest) ∨
      (text.head? ≠ some '\uFEFF' ∧ file text = lexemes text) := by
  unfold file
  split
  · exact .inl ⟨_, rfl, rfl⟩
  · rename_i hmark
    refine .inr ⟨?_, rfl⟩
    intro hhead
    obtain ⟨rest, rfl⟩ := List.head?_eq_some_iff.mp hhead
    exact hmark rest rfl

theorem isCut_file {text : Text} : ∀ lexeme ∈ file text, lexeme.IsCut ∨ lexeme = ⟨.blank, ['\uFEFF']⟩ := by
  intro lexeme hlexeme
  obtain ⟨rest, -, hmark⟩ | ⟨-, hmark⟩ := file_cases text
  · rw [hmark] at hlexeme
    obtain rfl | hrest := List.mem_cons.mp hlexeme
    · exact .inr rfl
    · exact .inl ((cuts_lexemes rest).isCut lexeme hrest)
  · rw [hmark] at hlexeme
    exact .inl ((cuts_lexemes text).isCut lexeme hlexeme)

/-- From its first lexeme that is no white space on, a file is cut as any text is. -/
theorem cuts_file {text : Text} {front others : List Lexeme} {last : Lexeme}
    (hfile : file text = front ++ last :: others) (hlast : last.kind ≠ .blank) :
    Cuts (last :: others) none := by
  obtain ⟨rest, -, hmark⟩ | ⟨-, hmark⟩ := file_cases text
  · rw [hmark] at hfile
    cases front with
    | nil =>
        obtain ⟨rfl, -⟩ := List.cons.inj hfile
        exact absurd rfl hlast
    | cons first front =>
        obtain ⟨-, hrest⟩ := List.cons.inj hfile
        exact (Cuts.append_iff.mp (hrest ▸ cuts_lexemes rest)).2
  · exact (Cuts.append_iff.mp (hmark.symm.trans hfile ▸ cuts_lexemes text)).2

/-- What a file begins with is read alike whatever follows it. -/
theorem file_append {text other : Text} {front others : List Lexeme} {last : Lexeme}
    (hfile : file text = front ++ last :: others) (hlast : last.kind ≠ .blank)
    (hother : ∀ c ∈ other.head?, last.EndsBefore c) :
    file (source (front ++ [last]) ++ other) = front ++ last :: lexemes other := by
  have hread {front others : List Lexeme} (hcuts : Cuts (front ++ last :: others) none) :
      lexemes (source (front ++ [last]) ++ other) = front ++ last :: lexemes other := by
    rw [List.append_cons] at hcuts
    rw [lexemes_append ((Cuts.append_iff.mp hcuts).1.forget.extend (by simpa using hother))]
    simp
  obtain ⟨rest, -, hmark⟩ | ⟨hhead, hmark⟩ := file_cases text
  · rw [hmark] at hfile
    cases front with
    | nil =>
        obtain ⟨rfl, -⟩ := List.cons.inj hfile
        exact absurd rfl hlast
    | cons first front =>
        obtain ⟨rfl, hrest⟩ := List.cons.inj hfile
        have hlexemes := hread (hrest ▸ cuts_lexemes rest)
        simp only [List.cons_append, Lexeme.source_cons]
        rw [← hlexemes]
        rfl
  · rw [hmark] at hfile
    have hcuts := cuts_lexemes text
    rw [hfile] at hcuts
    have hne : source (front ++ [last]) ≠ [] := by
      simp [(hcuts.isCut last (by simp)).text_ne_nil]
    have hfirst (rest : Text) : (source (front ++ [last]) ++ rest).head? = (source (front ++ [last])).head? := by
      rw [List.head?_append, List.head?_eq_some_head hne, Option.some_or]
    have hsource := source_lexemes text
    rw [hfile, List.append_cons, Lexeme.source_append] at hsource
    obtain ⟨rest, hrest, -⟩ | ⟨-, hother⟩ := file_cases (source (front ++ [last]) ++ other)
    · rw [← hsource, hfirst] at hhead
      exact absurd ((hfirst other).symm.trans (congrArg List.head? hrest)) hhead
    · rw [hother, hread hcuts]

end Scan

end GoGraft
