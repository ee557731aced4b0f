import GoGraft.Proofs.Boundaries
import GoGraft.Request.Basic

/-! How text that is written into a file is cut again: white space, line comments, identifiers and import paths. -/

namespace GoGraft

theorem isIdentifier_cases {name : Text} (hname : isIdentifier name) :
    ∃ first rest, name = first :: rest ∧ (Text.isLetter first ∨ first = '_') ∧
      ∀ c ∈ rest, Text.isLetterOrNumber c ∨ c = '_' := by
  cases name with
  | nil => cases hname
  | cons first rest =>
      simp only [isIdentifier, Bool.and_eq_true, Bool.or_eq_true, beq_iff_eq, List.all_eq_true] at hname
      exact ⟨first, rest, rfl, hname⟩

namespace Scan

open Lexeme (source)

theorem through_blank {read word : Text} {mode : Mode} (hthrough : Mode.blank.through read word = some mode) :
    mode = .blank := by
  induction word generalizing read with
  | nil => exact (Option.some.inj hthrough).symm
  | cons c word ih =>
      obtain ⟨next, hnext, hthrough⟩ := Option.bind_eq_some_iff.mp hthrough
      simp only [Mode.extend] at hnext
      split at hnext
      · cases hnext
        exact ih hthrough
      · cases hnext

theorem isWhite_of_isSpace {lexeme : Lexeme} (hcut : lexeme.IsCut)
    (hspace : ∀ c ∈ lexeme.text.head?, Text.isSpace c) : isWhite lexeme.kind := by
  obtain ⟨mode, hmode, hkind⟩ := hcut
  rw [hkind]
  cases htext : lexeme.text with
  | nil =>
      rw [htext] at hmode
      cases hmode
  | cons c word =>
      rw [htext] at hmode hspace
      have hc : Text.isSpace c := hspace c rfl
      simp only [mode?, Mode.opening, hc, if_true] at hmode
      split at hmode
      · cases word with
        | nil =>
            obtain rfl := Option.some.inj hmode
            rfl
        | cons => cases hmode
      · rw [through_blank hmode]
        rfl

theorem not_isSpace_head {lexeme : Lexeme} (hcut : lexeme.IsCut) (hink : ¬ isWhite lexeme.kind) :
    ∀ c ∈ lexeme.text.head?, ¬ Text.isSpace c := by
  intro c hc hspace
  apply hink
  apply isWhite_of_isSpace hcut
  intro d hd
  obtain rfl := Option.some.inj (hc.symm.trans hd)
  exact hspace

theorem isWhite_of_mem_lexemes {white : Text} (hwhite : ∀ c ∈ white, Text.isSpace c) :
    ∀ lexeme ∈ lexemes white, isWhite lexeme.kind := by
  intro lexeme hlexeme
  apply isWhite_of_isSpace ((cuts_lexemes white).isCut lexeme hlexeme)
  intro c hc
  apply hwhite
  rw [← source_lexemes white]
  exact List.mem_flatMap.mpr ⟨lexeme, hlexeme, List.mem_of_mem_head? hc⟩

theorem cuts_white {white : Text} {next : Option Char} (hwhite : ∀ c ∈ white, Text.isSpace c)
    (hnext : ∀ c ∈ next, ¬ Text.isSpace c) : Cuts (lexemes white) next := by
  have hcuts := cuts_lexemes white
  apply hcuts.extend
  intro lexeme hlast c hc
  have hlexeme := List.mem_of_mem_getLast? hlast
  have hkind := isWhite_of_mem_lexemes hwhite lexeme hlexeme
  exact (hcuts.isCut lexeme hlexeme).endsBefore_of_isWhite hkind (hnext c hc)

/-- White space does not touch the ink that follows it. -/
theorem lexemes_white {white rest : Text} (hwhite : ∀ c ∈ white, Text.isSpace c)
    (hrest : ∀ c ∈ rest.head?, ¬ Text.isSpace c) :
    lexemes (white ++ rest) = lexemes white ++ lexemes rest := by
  have happend := lexemes_append (cuts_white hwhite hrest)
  rwa [source_lexemes] at happend

theorem lexemes_line {white : Text} (hwhite : ∀ c ∈ white, Text.isSpace c) (hlast : white.getLast? = some '\n')
    (rest : Text) : lexemes (white ++ rest) = lexemes white ++ lexemes rest := by
  have hcuts : Cuts (lexemes white) rest.head? := by
    apply (cuts_lexemes white).extend
    intro lexeme hlexeme c _
    have hmem := List.mem_of_mem_getLast? hlexeme
    have hcut := (cuts_lexemes white).isCut lexeme hmem
    have hends : lexeme.text.getLast? = some '\n' := by
      obtain ⟨front, hfront⟩ := List.getLast?_eq_some_iff.mp hlexeme
      rw [← source_lexemes white, hfront, Lexeme.source_append, Lexeme.source_cons, Lexeme.source_nil, List.append_nil,
        List.getLast?_append] at hlast
      cases htext : lexeme.text.getLast? with
      | none => exact absurd (List.getLast?_eq_none_iff.mp htext) hcut.text_ne_nil
      | some d => rwa [htext, Option.some_or] at hlast
    cases hkind : lexeme.kind with
    | newline => exact hcut.endsBefore_of_newline hkind c
    | blank => exact absurd rfl (hcut.blank hkind '\n' (List.mem_of_getLast? hends)).2
    | _ =>
        have hisWhite := isWhite_of_mem_lexemes hwhite lexeme hmem
        rw [hkind] at hisWhite
        cases hisWhite
  have happend := lexemes_append hcuts
  rwa [source_lexemes] at happend

theorem exists_newline {white : Text} (hwhite : ∀ c ∈ white, Text.isSpace c) (hnewline : '\n' ∈ white) :
    ∃ lexeme ∈ lexemes white, lexeme.kind = .newline := by
  rw [← source_lexemes white] at hnewline
  obtain ⟨lexeme, hlexeme, hmem⟩ := List.mem_flatMap.mp hnewline
  refine ⟨lexeme, hlexeme, ?_⟩
  have hkind := isWhite_of_mem_lexemes hwhite lexeme hlexeme
  cases hcase : lexeme.kind <;> rw [hcase] at hkind
  case blank => exact absurd rfl (((cuts_lexemes white).isCut lexeme hlexeme).blank hcase _ hmem).2
  all_goals cases hkind

theorem Mode.through_self {mode : Mode} {word : Text}
    (hstays : ∀ c ∈ word, ∀ read, mode.extend read c = some mode) (read : Text) :
    mode.through read word = some mode := by
  induction word generalizing read with
  | nil => rfl
  | cons c word ih =>
      obtain ⟨hc, hword⟩ := List.forall_mem_cons.mp hstays
      rw [Mode.through, hc, Option.bind_some]
      exact ih hword (c :: read)

theorem through_word {read word : Text} (hword : ∀ c ∈ word, Text.isWordPart c) :
    Mode.word.through read word = some .word := by
  apply Mode.through_self
  intro c hc read
  exact if_pos (hword c hc)

theorem mode?_word {c : Char} {word : Text} (hstart : Text.isWordStart c)
    (hword : ∀ d ∈ word, Text.isWordPart d) : mode? (c :: word) = some .word := by
  have hspace := Text.not_isSpace_of_isWordPart (Text.isWordPart_of_isWordStart hstart)
  have hnewline : ¬ (c == '\n') := by
    rw [beq_iff_eq]
    rintro rfl
    exact hspace (by decide)
  simp only [mode?, Mode.opening, hnewline, hspace, hstart, if_false, if_true, Bool.false_eq_true]
  exact through_word hword

theorem lexemes_word {c : Char} {word rest : Text} (hstart : Text.isWordStart c)
    (hword : ∀ d ∈ word, Text.isWordPart d) (hrest : ∀ d ∈ rest.head?, ¬ Text.isWordPart d) :
    lexemes (c :: word ++ rest) = ⟨Lexeme.ofWord (c :: word), c :: word⟩ :: lexemes rest := by
  apply lexemes_cons (mode?_word hstart hword)
  intro d hd
  simp [Mode.extend, hrest d hd]

theorem not_mem_marks {c : Char} (hhigh : 0x80 ≤ c.toNat) {mark : Text × Mark}
    (hmark : mark ∈ Lexeme.marks) : c ∉ mark.1 := by
  intro hmem
  have hlow : Lexeme.marks.all fun mark => mark.1.all fun c => decide (c.toNat < 0x80) := by decide
  have hc := List.all_eq_true.mp (List.all_eq_true.mp hlow mark hmark) c hmem
  rw [decide_eq_true_eq] at hc
  omega

/-- A character that only an identifier has is cut off as a stray. -/
theorem lexemes_high {c : Char} {rest : Text} (hhigh : 0x80 ≤ c.toNat) (hspace : ¬ Text.isSpace c)
    (hstart : ¬ Text.isWordStart c) : lexemes (c :: rest) = ⟨.stray, [c]⟩ :: lexemes rest := by
  have hne {d : Char} (hlow : d.toNat < 0x80) : c ≠ d := by
    rintro rfl
    omega
  have hdigit : ¬ c.isDigit := by
    intro hdigit
    have hrange := Text.isDigit_toNat hdigit
    omega
  have hnewline : (c == '\n') = false := beq_false_of_ne (hne (by decide))
  have hquote : (c == '\x22') = false := beq_false_of_ne (hne (by decide))
  have hbackquote : (c == '\x60') = false := beq_false_of_ne (hne (by decide))
  have hrune : (c == '\x27') = false := beq_false_of_ne (hne (by decide))
  have hmode : mode? [c] = some .mark := by
    simp only [mode?, Mode.opening, Mode.through, hnewline, hspace, hstart, hdigit, hquote,
      hbackquote, hrune, Bool.false_eq_true, if_false]
  have hbegins (d : Char) : Lexeme.beginsMark [c, d] = false := by
    apply Bool.eq_false_iff.mpr
    intro hbegins
    obtain ⟨mark, hmark, hfront⟩ := List.any_eq_true.mp hbegins
    exact not_mem_marks hhigh hmark ((List.isPrefixOf_iff_prefix.mp hfront).subset (by simp))
  have hkind : Lexeme.ofMark [c] = .stray := by
    have hlookup : Lexeme.marks.lookup [c] = none := by
      rw [List.lookup_eq_none_iff]
      intro mark hmark
      rw [bne_iff_ne]
      intro heq
      exact not_mem_marks hhigh hmark (heq ▸ List.mem_singleton_self c)
    rw [Lexeme.ofMark, hlookup]
  have hcut : lexemes ([c] ++ rest) = ⟨Lexeme.ofMark [c], [c]⟩ :: lexemes rest := by
    apply lexemes_cons hmode
    intro d _
    have hslash : c ≠ '/' := hne (by decide)
    have hdot : c ≠ '.' := hne (by decide)
    simp [Mode.extend, hslash, hdot, hbegins]
  rw [hkind] at hcut
  exact hcut

/-- An identifier in source that the grammar takes is one word. -/
theorem lexemes_identifier {name others : Text} (hname : isIdentifier name)
    (hothers : ∀ d ∈ others.head?, ¬ Text.isWordPart d)
    (hstray : ∀ lexeme ∈ lexemes (name ++ others), lexeme.kind ≠ .stray) :
    lexemes (name ++ others) = ⟨Lexeme.ofWord name, name⟩ :: lexemes others := by
  obtain ⟨c, word, rfl, hc, hword⟩ := isIdentifier_cases hname
  have hnot (front : List Lexeme) (rest : Text) {d : Char} (hhigh : 0x80 ≤ d.toNat)
      (hspace : ¬ Text.isSpace d) (hstart : ¬ Text.isWordStart d) :
      lexemes (c :: word ++ others) ≠ front ++ lexemes (d :: rest) := by
    intro heq
    apply hstray ⟨.stray, [d]⟩
    · rw [heq, lexemes_high hhigh hspace hstart]
      simp
    · rfl
  -- A character that identifiers have and words do not would be a stray, at the front or behind a word.
  have hstart : Text.isWordStart c := by
    apply Decidable.byContradiction
    intro hstart
    obtain hletter | rfl := hc
    · have hspace := Text.not_isSpace_of_isLetterOrNumber (Text.isLetterOrNumber_of_isLetter hletter)
      exact hnot [] (word ++ others) (Text.high_of_isLetter hletter hstart) hspace hstart rfl
    · exact hstart (by decide)
  have hsplit := @List.takeWhile_append_dropWhile _ Text.isWordPart word
  have hparts : ∀ d ∈ word.takeWhile Text.isWordPart, Text.isWordPart d :=
    List.all_eq_true.mp List.all_takeWhile
  cases hdrop : word.dropWhile Text.isWordPart with
  | nil =>
      rw [hdrop, List.append_nil] at hsplit
      exact lexemes_word hstart (hsplit ▸ hparts) hothers
  | cons d rest =>
      have hpart : ¬ Text.isWordPart d := by
        have hhead := List.head?_dropWhile_not Text.isWordPart word
        rw [hdrop] at hhead
        simpa using hhead
      have hd : Text.isLetterOrNumber d := by
        have hmem : d ∈ word := by
          rw [← hsplit, hdrop]
          simp
        obtain hletter | rfl := hword d hmem
        · exact hletter
        · exact absurd (by decide) hpart
      have hword : lexemes (c :: word.takeWhile Text.isWordPart ++ (d :: rest ++ others)) =
          ⟨_, _⟩ :: lexemes (d :: (rest ++ others)) :=
        lexemes_word hstart hparts (by simpa using hpart)
      rw [← hdrop, ← List.append_assoc, List.cons_append, hsplit] at hword
      exact absurd hword (hnot [_] (rest ++ others) (Text.high_of_isLetterOrNumber hd hpart)
        (Text.not_isSpace_of_isLetterOrNumber hd) (mt Text.isWordPart_of_isWordStart hpart))

theorem through_string {read word : Text} (hword : ∀ c ∈ word, c ≠ '\x22' ∧ c ≠ '\\' ∧ c ≠ '\n') :
    Mode.string.through read word = some .string := by
  apply Mode.through_self
  intro c hc read
  obtain ⟨hquote, hescape, hnewline⟩ := hword c hc
  simp only [Mode.extend, beq_iff_eq, hquote, hescape, hnewline, if_false]

theorem lexemes_quoted {text rest : Text} (hchars : ∀ c ∈ text, c ≠ '\x22' ∧ c ≠ '\\' ∧ c ≠ '\n') :
    lexemes ('\x22' :: (text ++ ['\x22']) ++ rest) =
      ⟨.string, '\x22' :: (text ++ ['\x22'])⟩ :: lexemes rest := by
  have hmode : mode? ('\x22' :: (text ++ ['\x22'])) = some (.whole .string) := by
    change Mode.string.through ['\x22'] (text ++ ['\x22']) = some (.whole .string)
    rw [through_append, through_string hchars]
    rfl
  exact lexemes_cons hmode fun _ _ => rfl

theorem through_rawString {read word : Text} (hword : '\x60' ∉ word) :
    Mode.rawString.through read word = some .rawString := by
  apply Mode.through_self
  intro c hc read
  have hne : c ≠ '\x60' := by
    rintro rfl
    exact hword hc
  simp only [Mode.extend, beq_iff_eq, hne, if_false]

theorem lexemes_backquoted {text rest : Text} (htext : '\x60' ∉ text) :
    lexemes ('\x60' :: (text ++ ['\x60']) ++ rest) =
      ⟨.string, '\x60' :: (text ++ ['\x60'])⟩ :: lexemes rest := by
  have hmode : mode? ('\x60' :: (text ++ ['\x60'])) = some (.whole .string) := by
    change Mode.rawString.through ['\x60'] (text ++ ['\x60']) = some (.whole .string)
    rw [through_append, through_rawString htext]
    rfl
  exact lexemes_cons hmode fun _ _ => rfl

theorem lexemes_path {path rest : Text} (hpath : isImportPath path) :
    lexemes ('\x22' :: (path ++ ['\x22']) ++ rest) =
      ⟨.string, '\x22' :: (path ++ ['\x22'])⟩ :: lexemes rest := by
  apply lexemes_quoted
  intro c hc
  have hplain := List.all_eq_true.mp hpath c hc
  refine ⟨?_, ?_, ?_⟩
  all_goals
    rintro rfl
    exact absurd hplain (by decide)

theorem not_isSpace_identifier {name others : Text} (hname : isIdentifier name) :
    ∀ c ∈ (name ++ others).head?, ¬ Text.isSpace c := by
  intro c hc
  obtain ⟨first, rest, rfl, hfirst, -⟩ := isIdentifier_cases hname
  obtain rfl := Option.some.inj hc
  obtain hletter | rfl := hfirst
  · exact Text.not_isSpace_of_isLetterOrNumber (Text.isLetterOrNumber_of_isLetter hletter)
  · decide

theorem not_isSpace_renderImport {path others : Text} {localName : Option Text}
    (hname : ∀ name ∈ localName, name = ['.'] ∨ isIdentifier name) :
    ∀ c ∈ (renderImport path localName ++ others).head?, ¬ Text.isSpace c := by
  cases localName with
  | none =>
      intro c hc
      obtain rfl := Option.some.inj hc
      decide
  | some name =>
      obtain rfl | hidentifier := hname name rfl
      · intro c hc
        obtain rfl := Option.some.inj hc
        decide
      · simp only [renderImport, List.append_assoc]
        exact not_isSpace_identifier hidentifier

theorem lexemes_renderImport {path rest : Text} {localName : Option Text} (hpath : isImportPath path)
    (hname : ∀ name ∈ localName, name = ['.'] ∨ isIdentifier name)
    (hstray : ∀ lexeme ∈ lexemes (renderImport path localName ++ rest), lexeme.kind ≠ .stray) :
    ∃ front, lexemes (renderImport path localName ++ rest) =
      front ++ ⟨.string, '\x22' :: (path ++ ['\x22'])⟩ :: lexemes rest := by
  cases localName with
  | none => exact ⟨[], lexemes_path hpath⟩
  | some name =>
      have hblank : lexemes ([' '] ++ ('\x22' :: (path ++ ['\x22']) ++ rest)) =
          lexemes [' '] ++ lexemes ('\x22' :: (path ++ ['\x22']) ++ rest) := by
        apply lexemes_white (List.forall_mem_singleton.mpr (by decide))
        intro c hc
        obtain rfl := Option.some.inj hc
        decide
      rw [lexemes_path hpath] at hblank
      simp only [renderImport, List.append_assoc, List.cons_append] at hstray ⊢
      obtain ⟨kind, hname⟩ : ∃ kind, lexemes (name ++ ' ' :: '\x22' :: (path ++ ['\x22'] ++ rest)) =
          ⟨kind, name⟩ :: lexemes (' ' :: '\x22' :: (path ++ ['\x22'] ++ rest)) := by
        obtain rfl | hidentifier := hname name rfl
        · exact ⟨_, @lexemes_cons ['.'] _ .mark rfl (by simp; decide)⟩
        · refine ⟨_, lexemes_identifier hidentifier ?_ ?_⟩
          · intro d hd
            obtain rfl := Option.some.inj hd
            decide
          · simpa using hstray
      refine ⟨⟨kind, name⟩ :: lexemes [' '], ?_⟩
      simpa using hname.trans (congrArg _ hblank)

theorem through_lineComment {read word : Text} (hword : '\n' ∉ word) :
    Mode.lineComment.through read word = some .lineComment := by
  apply Mode.through_self
  intro c hc read
  have hne : c ≠ '\n' := by
    rintro rfl
    exact hword hc
  simp only [Mode.extend, beq_iff_eq, hne, if_false]

theorem lexemes_lineComment {line rest : Text} (hline : '\n' ∉ line) :
    lexemes ('/' :: '/' :: line ++ '\n' :: rest) =
      ⟨.comment, '/' :: '/' :: line⟩ :: ⟨.newline, ['\n']⟩ :: lexemes rest := by
  have hmode : mode? ('/' :: '/' :: line) = some .lineComment := by
    change Mode.lineComment.through ['/', '/'] line = some .lineComment
    exact through_lineComment hline
  rw [lexemes_cons hmode]
  · congr 1
    exact @lexemes_cons ['\n'] rest (.whole .newline) rfl fun _ _ => rfl
  · intro c hc
    obtain rfl : '\n' = c := by simpa using hc
    rfl

end Scan

namespace Text

theorem splitAt_cons (mark c : Char) (t : Text) :
    splitAt mark (c :: t) =
      if c == mark then [] :: splitAt mark t
      else
        match splitAt mark t with
        | [] => [[c]]
        | part :: others => (c :: part) :: others :=
  rfl

theorem not_mem_of_mem_splitAt {mark : Char} {t part : Text} (hpart : part ∈ splitAt mark t) :
    mark ∉ part := by
  induction t generalizing part with
  | nil =>
      obtain rfl : part = [] := by simpa [splitAt] using hpart
      simp
  | cons c t ih =>
      rw [splitAt_cons] at hpart
      split at hpart
      · obtain rfl | hpart := List.mem_cons.mp hpart
        · simp
        · exact ih hpart
      · rename_i hc
        have hne : mark ≠ c := fun heq => hc (beq_iff_eq.mpr heq.symm)
        split at hpart
        · obtain rfl := List.mem_singleton.mp hpart
          simpa using hne
        · rename_i first others hsplit
          obtain rfl | hpart := List.mem_cons.mp hpart
          · have hfirst := ih (hsplit ▸ List.mem_cons_self)
            simp [hne, hfirst]
          · exact ih (hsplit ▸ List.mem_cons_of_mem first hpart)

theorem mem_of_mem_dropReturn {line : Text} {c : Char} (hc : c ∈ dropReturn line) : c ∈ line := by
  unfold dropReturn at hc
  split at hc
  · exact List.dropLast_subset line hc
  · exact hc

theorem not_mem_lines {t line : Text} (hline : line ∈ lines t) : '\n' ∉ line := by
  have hdropped {line : Text} (hline : line ∈ (splitAt '\n' t).dropLast.map dropReturn) :
      '\n' ∉ line := by
    obtain ⟨part, hpart, rfl⟩ := List.mem_map.mp hline
    exact mt mem_of_mem_dropReturn (not_mem_of_mem_splitAt (List.dropLast_subset _ hpart))
  unfold lines at hline
  dsimp only at hline
  split at hline
  · exact hdropped hline
  · rename_i last hlast
    obtain hline | hline := List.mem_append.mp hline
    · exact hdropped hline
    · obtain rfl := List.mem_singleton.mp hline
      exact not_mem_of_mem_splitAt (List.mem_of_getLast? (by assumption))
  · cases hline

end Text

/-- The two ways to end a line. -/
def IsLineEnding (newline : Text) : Prop :=
  newline = ['\n'] ∨ newline = ['\r', '\n']

namespace IsLineEnding

variable {newline : Text}

theorem ne_nil (hnewline : IsLineEnding newline) : newline ≠ [] := by
  obtain rfl | rfl := hnewline <;> simp

theorem isSpace (hnewline : IsLineEnding newline) : ∀ c ∈ newline, Text.isSpace c := by
  obtain rfl | rfl := hnewline
  · exact List.all_eq_true.mp (by decide)
  · exact List.all_eq_true.mp (by decide)

theorem getLast?_append (hnewline : IsLineEnding newline) (front : Text) :
    (front ++ newline).getLast? = some '\n' := by
  obtain rfl | rfl := hnewline <;> simp [List.getLast?_append]

end IsLineEnding

namespace Scan

theorem isSpace_of_isIndent {indent : Text} (hindent : indent.all Text.isIndent) :
    ∀ c ∈ indent, Text.isSpace c := by
  intro c hc
  have hboth := List.all_eq_true.mp hindent c hc
  simp only [Text.isIndent, Bool.or_eq_true, beq_iff_eq] at hboth
  obtain rfl | rfl := hboth <;> decide

theorem lexemes_commentLine {line indent newline : Text} (rest : Text) (hline : '\n' ∉ line)
    (hindent : indent.all Text.isIndent) (hnewline : IsLineEnding newline) :
    ∃ front, lexemes (indent ++ ('/' :: '/' :: line ++ newline) ++ rest) = front ++ lexemes rest ∧
      ∀ lexeme ∈ front, isTrivial lexeme.kind := by
  obtain ⟨text, htext, hnotext⟩ : ∃ text, line ++ newline = text ++ ['\n'] ∧ '\n' ∉ text := by
    obtain rfl | rfl := hnewline
    · exact ⟨line, rfl, hline⟩
    · exact ⟨line ++ ['\r'], by simp, by simpa using hline⟩
  have hcomment := @lexemes_lineComment text rest hnotext
  have hsplit : indent ++ ('/' :: '/' :: line ++ newline) ++ rest =
      indent ++ ('/' :: '/' :: text ++ '\n' :: rest) := by
    simp only [List.cons_append, List.append_assoc, htext, List.nil_append]
  have hspace := isSpace_of_isIndent hindent
  have hkinds := isWhite_of_mem_lexemes hspace
  have hwhite := @lexemes_white indent ('/' :: '/' :: text ++ '\n' :: rest) hspace (by simp; decide)
  refine ⟨lexemes indent ++ [⟨.comment, '/' :: '/' :: text⟩, ⟨.newline, ['\n']⟩], ?_, ?_⟩
  · rw [hsplit, hwhite, hcomment]
    simp
  · intro lexeme hlexeme
    obtain hlexeme | hlexeme := List.mem_append.mp hlexeme
    · exact isTrivial_of_isWhite (hkinds lexeme hlexeme)
    · simp only [List.mem_cons, List.not_mem_nil, or_false] at hlexeme
      obtain rfl | rfl := hlexeme <;> rfl

/-- A doc comment is cut into comments and white space, and does not touch what follows it. -/
theorem lexemes_renderDoc (doc : Option Text) {indent newline : Text} (rest : Text)
    (hindent : indent.all Text.isIndent) (hnewline : IsLineEnding newline) :
    ∃ front, lexemes (renderDoc doc indent newline ++ rest) = front ++ lexemes rest ∧
      ∀ lexeme ∈ front, isTrivial lexeme.kind := by
  have hlines : ∀ line ∈ Text.lines (doc.getD []), '\n' ∉ line := fun line => Text.not_mem_lines
  unfold renderDoc
  generalize Text.lines (doc.getD []) = lines at hlines
  induction lines with
  | nil => exact ⟨[], by simp, by simp⟩
  | cons line lines ih =>
      obtain ⟨hline, hlines⟩ := List.forall_mem_cons.mp hlines
      obtain ⟨others, hothers, htrivial⟩ := ih hlines
      have hbody : '\n' ∉ (if line.isEmpty then [] else ' ' :: line) := by
        split
        · simp
        · simpa using hline
      obtain ⟨front, hfront, hfrontTrivial⟩ := lexemes_commentLine
        (lines.flatMap (fun line => indent ++ "//".toList ++
          (if line.isEmpty then [] else ' ' :: line) ++ newline) ++ rest) hbody hindent hnewline
      refine ⟨front ++ others, ?_, ?_⟩
      · rw [List.append_assoc front, ← hothers, ← hfront, List.flatMap_cons]
        simp
      · intro lexeme hlexeme
        obtain hlexeme | hlexeme := List.mem_append.mp hlexeme
        · exact hfrontTrivial lexeme hlexeme
        · exact htrivial lexeme hlexeme

end Scan

end GoGraft
