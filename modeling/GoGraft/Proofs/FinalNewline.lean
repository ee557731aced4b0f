import GoGraft.Proofs.EditRuns
import GoGraft.Proofs.ReadAlone

/-!
# The newline at the end of a file

A text without a final newline is read with one, which is then taken off the trailer. This needs the newline to be in the
trailer, and there it always is: neither a header nor a declaration ends in a newline, whether its last lexeme is a
comment or belongs to the item. So a file is read alike with the newline and without it, up to its trailer.
-/

namespace GoGraft

open Grammar

namespace SourceFile

variable {file : SourceFile} {text : Text}

theorem exists_endsOn_left {gap rest tail : List Marked} {head : Marked} {frames final exit : List Frame} {last : Lexeme}
    (hheader : HasHeader file.header file.package gap head rest tail frames final exit last) (hread : file.IsRead)
    {left : Option Declaration} (hleft : ∀ declaration ∈ left, declaration ∈ file.declarations) :
    ∃ stack before, EndsOn (file.leftLexemes left) stack before ∧ before.kind ≠ .newline := by
  cases left with
  | none => exact ⟨exit, last, hheader.endsOn, hheader.ne_newline⟩
  | some declaration =>
      obtain ⟨stack, before, hends⟩ := (hread declaration (hleft declaration rfl)).exists_endsAt
      exact ⟨stack, before, hends.endsOn, hends.ne_newline⟩

/-- The newline at the end of a text is the one at the end of the trailer. -/
theorem getLast?_trailer (hparse : parseTerminated text = .ok file) (hlast : text.getLast? = some '\n') :
    file.trailer.getLast? = some '\n' := by
  obtain ⟨gap, head, rest, tail, frames, final, exit, last, hheader, hrow⟩ := exists_row_of_parseTerminated hparse
  have hread : file.IsRead := hrow.isRead
  -- What stands before the trailer has a last lexeme, and it is no newline.
  obtain ⟨stack, before, hends, hkind⟩ :=
    @exists_endsOn_left file _ _ _ _ _ _ _ _ hheader hread file.declarations.getLast?
      fun declaration hmem => List.mem_of_getLast? hmem
  rw [← render_of_parseTerminated hparse, getLast?_render hread, Option.or_eq_some_iff] at hlast
  obtain htrailer | ⟨-, hleft⟩ := hlast
  · exact htrailer
  · exact absurd hleft (hends.getLast?_ne_newline hkind)

/-- The file with one more newline at its end. -/
def terminated (file : SourceFile) : SourceFile :=
  { file with trailer := file.trailer ++ ['\n'] }

theorem parse_eq_parseTerminated (hlast : text.getLast? = some '\n') : parse text = parseTerminated text :=
  if_pos hlast

theorem parse_append_newline (hlast : text.getLast? ≠ some '\n') :
    parse (text ++ ['\n']) = (parse text).map terminated := by
  rw [parse_eq_parseTerminated List.getLast?_concat, parse, if_neg hlast]
  cases hparse : parseTerminated (text ++ ['\n']) with
  | error => rfl
  | ok file =>
      have htrailer := getLast?_trailer hparse (by simp)
      obtain ⟨front, hfront⟩ := List.getLast?_eq_some_iff.mp htrailer
      have hsame : file.trailer.dropLast ++ ['\n'] = file.trailer := by simp [hfront]
      simp only [htrailer, if_true, Except.map, terminated, hsame]

theorem parseTerminated_of_parse (hlast : text.getLast? ≠ some '\n') (hparse : parse text = .ok file) :
    parseTerminated (text ++ ['\n']) = .ok file.terminated := by
  rw [← parse_eq_parseTerminated List.getLast?_concat, parse_append_newline hlast, hparse]
  rfl

theorem parseTerminated_ne_notOneDeclaration (text near : Text) :
    parseTerminated text ≠ .error (.notOneDeclaration near) := by
  intro herror
  unfold parseTerminated at herror
  split at herror
  · unfold ofOutline at herror
    split at herror
    · cases herror
    · split at herror
      · cases herror
      · dsimp only at herror
        split at herror <;> cases herror
  · cases herror

theorem parse_ne_notOneDeclaration (text near : Text) : parse text ≠ .error (.notOneDeclaration near) := by
  intro herror
  by_cases hlast : text.getLast? = some '\n'
  · rw [parse_eq_parseTerminated hlast] at herror
    exact parseTerminated_ne_notOneDeclaration _ _ herror
  · apply parseTerminated_ne_notOneDeclaration (text ++ ['\n']) near
    rw [← parse_eq_parseTerminated List.getLast?_concat, parse_append_newline hlast, herror]
    rfl

end SourceFile

namespace IndexedFile

/-- The file with one more newline at its end, and the same tables. -/
def terminated (indexed : IndexedFile) : IndexedFile :=
  { indexed with file := indexed.file.terminated }

/-- A file is read alike with its final newline and without it, and where it is not read, it is for the same cause. -/
theorem parse_final_newline (text : Text) :
    (text.getLast? ≠ some '\n' → parse (text ++ ['\n']) = (parse text).map terminated) ∧
      ∀ near, parse text ≠ .error (.notOneDeclaration near) := by
  constructor
  · intro hlast
    unfold parse
    rw [SourceFile.parse_append_newline hlast]
    cases SourceFile.parse text <;> rfl
  · intro near herror
    obtain hfails | ⟨file, -, hpure⟩ := bind_eq_error.mp herror
    · exact SourceFile.parse_ne_notOneDeclaration text near hfails
    · cases hpure

theorem parse_final_newline_comment :
    let text := "package a\n\nfunc f() /* f */ // g".toList
    text.getLast? ≠ some '\n' ∧
      ∃ indexed, parse text = .ok indexed ∧ parse (text ++ ['\n']) = .ok indexed.terminated := by
  repeat rw [String.toList_ofList]
  intro text
  have hlast : text.getLast? ≠ some '\n' := by decide
  refine ⟨hlast, ?_⟩
  have hread : (parse text).toOption.isSome := by decide
  obtain ⟨indexed, hindexed⟩ := Option.isSome_iff_exists.mp hread
  have hparse := eq_ok_of_toOption hindexed
  refine ⟨indexed, hparse, ?_⟩
  rw [(parse_final_newline text).1 hlast, hparse]
  rfl

end IndexedFile

end GoGraft
