import Mathlib.Data.List.TakeWhile
import GoGraft.Proofs.Beginnings
import GoGraft.Proofs.KeptEndings

/-!
# The line ending that a file shows

A file is asked for its line ending one text at a time, so a carriage return is seen only in the text that has the
newline. The first line of a file can be made up of whole texts; then the newline begins the next text, and nothing
stands before it there. Such a line is a file in itself, and it ends in a comment: no other lexeme that a header or a
declaration ends with takes a carriage return. Conversely, where the first line is such a file, the whole file has its
texts.
-/

namespace GoGraft

open Grammar Text

/-! ## Texts one after the other -/

theorem firstLineEnding_eq_none {text : Text} (hnone : '\n' ∉ text) : firstLineEnding text = none := by
  rw [firstLineEnding, List.dropWhile_eq_nil_iff.mpr (bne_newline_of_mem hnone)]

/-- The line ends in a carriage return, and it is not made up of the first few texts. -/
def ReturnsInside (parts : List Text) (line : Text) : Prop :=
  line.getLast? = some '\r' ∧ ∀ n, (parts.take n).flatten ≠ line

section Parts

variable {part line back : Text} {parts : List Text}

theorem returnsInside_of_newline (hline : '\n' ∉ line) (hpart : '\n' ∈ part) :
    ReturnsInside (part :: parts) line ↔ line.getLast? = some '\r' := by
  refine ⟨And.left, fun hreturn => ⟨hreturn, fun n hflatten => ?_⟩⟩
  cases n with
  | zero =>
      rw [← hflatten] at hreturn
      cases hreturn
  | succ n =>
      rw [← hflatten, List.take_succ_cons, List.flatten_cons] at hline
      exact hline (List.mem_append_left _ hpart)

theorem returnsInside_cons {left : Text} : ReturnsInside (part :: parts) (part ++ left) ↔ ReturnsInside parts left := by
  have hcons (n : Nat) : ((part :: parts).take (n + 1)).flatten = part ++ (parts.take n).flatten := rfl
  constructor
  · rintro ⟨hreturn, hcut⟩
    have hne : left ≠ [] := by
      rintro rfl
      exact hcut 1 (hcons 0)
    refine ⟨?_, fun n hflatten => hcut (n + 1) (by rw [hcons, hflatten])⟩
    rwa [List.getLast?_append, List.getLast?_eq_some_getLast hne, Option.some_or,
      ← List.getLast?_eq_some_getLast hne] at hreturn
  · rintro ⟨hreturn, hcut⟩
    refine ⟨by rw [List.getLast?_append, hreturn, Option.some_or], fun n hflatten => ?_⟩
    cases n with
    | zero =>
        rw [(List.append_eq_nil_iff.mp hflatten.symm).2] at hreturn
        cases hreturn
    | succ n => exact hcut n (List.append_cancel_left ((hcons n).symm.trans hflatten))

theorem exists_left {others : Text} (hpart : '\n' ∉ part) (htext : part ++ others = line ++ '\n' :: back) :
    ∃ left, line = part ++ left ∧ others = left ++ '\n' :: back := by
  obtain ⟨left, hleft⟩ | ⟨more, rfl, hmore⟩ := List.append_eq_append_iff.mp htext
  · exact ⟨left, hleft⟩
  · cases more with
    | nil => exact ⟨[], by simp, hmore.symm⟩
    | cons c more =>
        obtain ⟨rfl, -⟩ := List.cons.inj hmore
        simp at hpart

/-- A carriage return is shown if the first line ends in one inside a text. -/
theorem findSome?_firstLineEnding (htext : parts.flatten = line ++ '\n' :: back) (hline : '\n' ∉ line) :
    parts.findSome? firstLineEnding = some crlf ↔ ReturnsInside parts line := by
  induction parts generalizing line with
  | nil => simp at htext
  | cons part parts ih =>
      rw [List.flatten_cons] at htext
      rw [List.findSome?_cons]
      by_cases hpart : '\n' ∈ part
      · rw [returnsInside_of_newline hline hpart]
        obtain ⟨first, rest, rfl, hfirst⟩ := List.eq_append_cons_of_mem hpart
        rw [List.append_assoc, List.cons_append] at htext
        obtain ⟨rfl, -, -⟩ := split_first htext (bne_newline_of_mem hfirst) (bne_newline_of_mem hline) (by decide)
          (by decide)
        rw [firstLineEnding_line hline]
        by_cases hreturn : first.getLast? = some '\r'
        · simp [hreturn]
        · simp [hreturn, crlf]
      · -- The line begins with this text, and what is left of it is the first line of the others.
        obtain ⟨left, rfl, hleft⟩ := exists_left hpart htext
        rw [firstLineEnding_eq_none hpart, returnsInside_cons]
        exact ih hleft fun hmem => hline (List.mem_append_right part hmem)

end Parts

namespace SourceFile

variable {file : SourceFile} {text : Text}

/-- The texts of a file, in their order. -/
def parts (file : SourceFile) : List Text :=
  file.header :: file.declarations.map Declaration.text ++ [file.trailer]

theorem flatten_parts (file : SourceFile) : file.parts.flatten = file.render := by
  simp [parts, render, List.flatMap_def]

theorem take_parts {n : Nat} (hn : n ≤ file.declarations.length) :
    file.parts.take (n + 1) = file.header :: (file.declarations.take n).map Declaration.text := by
  rw [parts, List.cons_append, List.take_succ_cons, List.take_append_of_le_length (by simpa using hn), List.map_take]

theorem lineEnding_eq_crlf :
    file.lineEnding = crlf ↔
      ∃ line back, file.render = line ++ '\n' :: back ∧ '\n' ∉ line ∧ ReturnsInside file.parts line := by
  have hfound : file.lineEnding = crlf ↔ file.parts.findSome? firstLineEnding = some crlf := by
    change (file.parts.findSome? firstLineEnding).getD ['\n'] = crlf ↔ _
    cases file.parts.findSome? firstLineEnding with
    | none => simp [crlf]
    | some ending => simp
  rw [hfound]
  constructor
  · intro hcrlf
    obtain ⟨part, hpart, hending⟩ := List.exists_of_findSome?_eq_some hcrlf
    have hmem : '\n' ∈ file.parts.flatten := by
      apply List.mem_flatten.mpr
      refine ⟨part, hpart, Decidable.byContradiction fun hnone => ?_⟩
      rw [firstLineEnding_eq_none hnone] at hending
      cases hending
    obtain ⟨line, back, htext, hline⟩ := List.eq_append_cons_of_mem hmem
    exact ⟨line, back, file.flatten_parts ▸ htext, hline, (findSome?_firstLineEnding htext hline).mp hcrlf⟩
  · rintro ⟨line, back, htext, hline, hshown⟩
    exact (findSome?_firstLineEnding (file.flatten_parts.trans htext) hline).mpr hshown

end SourceFile

/-! ## The beginning of a file -/

theorem canFollow_newline (lexemes : List Lexeme) : CanFollow lexemes (Scan.lexemes ['\n']) := by
  have hlexemes : Scan.lexemes ['\n'] = [⟨.newline, ['\n']⟩] := by decide
  have hleading : leadingTerminator? [⟨.newline, ['\n']⟩] = some .newline := by decide
  rw [hlexemes]
  refine ⟨?_, ?_, .inl rfl⟩
  · rw [hleading]
    rintro _ ⟨⟩
    exact .inl rfl
  · rw [hleading]
    rintro ⟨⟩

theorem Row.beginning {front back : List Declaration} {trailer : Text} {stack : List Frame} {last : Lexeme}
    {lexemes : List Lexeme} (hrow : Row stack last (front ++ back) trailer) (hends : EndsOn lexemes stack last) :
    Row stack last front ['\n'] := by
  induction front generalizing stack last lexemes with
  | nil => exact isTrailer_newline.row hends (canFollow_newline lexemes)
  | cons declaration front ih =>
      cases hrow with
      | declaration hgap hread hbehind htail hlast hrow =>
          have hnext : declaration.EndsAt _ _ := ⟨_, _, _, _, _, _, _, hread, htail, hlast, rfl⟩
          exact .declaration hgap hread hbehind htail hlast (ih hrow hnext.endsOn)

namespace SourceFile

variable {file : SourceFile} {text : Text}

/-- The first declarations of a file. -/
def beginning (file : SourceFile) (n : Nat) : SourceFile :=
  { file with declarations := file.declarations.take n, trailer := [] }

/-- The file ends in a comment that goes on to the end of its line. -/
def endsInComment (file : SourceFile) : Bool :=
  file.trailer.isEmpty && endsInLineComment (file.leftLexemes file.declarations.getLast?)

theorem isRead_beginning (hread : file.IsRead) (n : Nat) : (file.beginning n).IsRead :=
  fun declaration hmem => hread declaration (List.mem_of_mem_take hmem)

/-- What a file begins with, up to the end of a declaration, is a file. If it ends in white space, it ends in a
comment. -/
theorem parse_beginning (hparse : parse text = .ok file) (n : Nat) :
    parse (file.beginning n).render = .ok (file.beginning n) ∧
      ((file.beginning n).render.getLast? = some '\r' → (file.beginning n).endsInComment) := by
  obtain ⟨gap, head, rest, tail, frames, final, exit, last, hheader, hrow⟩ := exists_row_of_parse hparse
  have hread := isRead_beginning hrow.isRead n
  obtain ⟨stack, before, hends, hkind⟩ :=
    @exists_endsOn_left (file.beginning n) _ _ _ _ _ _ _ _ hheader hread (file.beginning n).declarations.getLast?
      fun declaration hmem => List.mem_of_getLast? hmem
  have hlast := getLast?_render hread
  rw [show (file.beginning n).trailer.getLast? = none from rfl, Option.none_or] at hlast
  constructor
  · have hending : (file.beginning n).ending = ['\n'] := if_neg (hlast ▸ hends.getLast?_ne_newline hkind)
    rw [← List.take_append_drop n file.declarations] at hrow
    exact parse_of_row hheader (hending ▸ hrow.beginning hheader.endsOn)
  · intro hreturn
    have hline := hends.isLineComment_of_space hkind (hlast ▸ hreturn) rfl
    rw [endsInComment, endsInLineComment, hends.last_eq]
    simpa [beginning] using hline

theorem exists_take_parts {line back : Text} (hparse : parse (line ++ '\n' :: back) = .ok file) (hline : '\n' ∉ line)
    (hreturn : line.getLast? = some '\r') :
    (∃ n, (file.parts.take n).flatten = line) ↔ ∃ first, parse line = .ok first ∧ first.endsInComment := by
  have hrender := render_of_parse hparse
  constructor
  · rintro ⟨n, hflatten⟩
    cases n with
    | zero =>
        rw [← hflatten] at hreturn
        cases hreturn
    | succ n =>
        -- The trailer is not in the line, or the whole file would be.
        have hn : n ≤ file.declarations.length := by
          apply Decidable.byContradiction
          intro hn
          have hall : file.parts.take (n + 1) = file.parts := List.take_of_length_le (by simp [parts]; omega)
          rw [hall, flatten_parts, hrender] at hflatten
          rw [← hflatten] at hline
          simp at hline
        have hbeginning : (file.beginning n).render = line := by
          rw [← hflatten, take_parts hn]
          simp [beginning, render, List.flatMap_def]
        obtain ⟨hfirst, hcomment⟩ := parse_beginning hparse n
        rw [hbeginning] at hfirst hcomment
        exact ⟨_, hfirst, hcomment hreturn⟩
  · rintro ⟨first, hfirst, hcomment⟩
    have hlast : line.getLast? ≠ some '\n' := by
      rw [hreturn]
      decide
    obtain ⟨hheader, hdeclarations⟩ := begins_of_parse hlast hfirst hparse
    refine ⟨first.declarations.length + 1, ?_⟩
    rw [take_parts hdeclarations.length_le, ← List.prefix_iff_eq_take.mp hdeclarations, hheader]
    obtain ⟨htrailer, -⟩ := Bool.and_eq_true_iff.mp hcomment
    rw [← render_of_parse hfirst, render, List.isEmpty_iff.mp htrailer]
    simp [List.flatMap_def]

/-- A file shows a carriage return if its first line ends in one, unless this line is a file that ends in a comment. -/
theorem lineEnding_eq_crlf_iff (hparse : parse text = .ok file) :
    file.lineEnding = crlf ↔ ∃ line back, text = line ++ '\n' :: back ∧ '\n' ∉ line ∧
      line.getLast? = some '\r' ∧ ¬ ∃ first, parse line = .ok first ∧ first.endsInComment := by
  rw [lineEnding_eq_crlf, render_of_parse hparse]
  constructor
  · rintro ⟨line, back, rfl, hline, hreturn, hparts⟩
    refine ⟨line, back, rfl, hline, hreturn, ?_⟩
    rw [← exists_take_parts hparse hline hreturn]
    exact not_exists.mpr hparts
  · rintro ⟨line, back, rfl, hline, hreturn, hfirst⟩
    rw [← exists_take_parts hparse hline hreturn] at hfirst
    exact ⟨line, back, rfl, hline, hreturn, not_exists.mp hfirst⟩

-- Both first lines end in a comment, but the second is no file.
theorem lineEnding_eq_crlf_iff_comment :
    (∃ file, parse "package a // a\r\n".toList = .ok file ∧ file.lineEnding ≠ crlf) ∧
      ∃ file, parse "package a; type A struct \x7b // a\r\n\x7d\r\n".toList = .ok file ∧ file.lineEnding = crlf := by
  constructor
  · have hrun : (parse "package a // a\r\n".toList).toOption.isSome ∧
        (parse "package a // a\r".toList).toOption.any endsInComment := by
      decide
    obtain ⟨file, hfile⟩ := Option.isSome_iff_exists.mp hrun.1
    obtain ⟨first, hfirst, hcomment⟩ := (Option.any_eq_true ..).mp hrun.2
    have hparse := eq_ok_of_toOption hfile
    refine ⟨file, hparse, fun hcrlf => ?_⟩
    obtain ⟨line, back, htext, hline, -, hnone⟩ := (lineEnding_eq_crlf_iff hparse).mp hcrlf
    have hfirstLine : '\n' ∉ "package a // a\r".toList := by decide
    obtain ⟨rfl, -, -⟩ := @split_first _ (· != '\n') "package a // a\r".toList _ [] _ '\n' _ htext
      (bne_newline_of_mem hfirstLine) (bne_newline_of_mem hline) (by decide) (by decide)
    exact hnone ⟨first, eq_ok_of_toOption hfirst, hcomment⟩
  · have hrun : (parse "package a; type A struct \x7b // a\r\n\x7d\r\n".toList).toOption.isSome ∧
        (parse "package a; type A struct \x7b // a\r".toList).toOption = none := by
      decide
    obtain ⟨file, hfile⟩ := Option.isSome_iff_exists.mp hrun.1
    have hparse := eq_ok_of_toOption hfile
    refine ⟨file, hparse, (lineEnding_eq_crlf_iff hparse).mpr ?_⟩
    refine ⟨"package a; type A struct \x7b // a\r".toList, "\x7d\r\n".toList, rfl, by decide, by decide, ?_⟩
    rintro ⟨first, hfirst, -⟩
    have hnone := hrun.2
    rw [hfirst] at hnone
    cases hnone

end SourceFile

end GoGraft
