import GoGraft.File.Edit
import GoGraft.Proofs.Written

/-!
# Entries on lines of their own

An entry is written before a closing mark. The lexemes up to the last one that is no white space stay as they are,
and white space with a newline in it separates them from the entry, whether the mark stood on its own line or not.
-/

namespace GoGraft

open Lexeme (source)

/-- The start of the line on which a position lies. -/
def lineStart (text : Text) (close : Nat) : Nat :=
  (text.take close).length - (Text.lastLine (text.take close)).length

/-- The indentation that an entry is made for. -/
def spliceIndent (text : Text) (close : Nat) (indent : Option Text) : Text :=
  indent.getD (Text.indent (text.drop (lineStart text close)) ++ ['\t'])

/-- What stands after an entry. -/
def spliceRest (text : Text) (close : Nat) : Text :=
  if (Text.lastLine (text.take close)).all Text.isIndent then
    text.drop (lineStart text close)
  else
    Text.indent (text.drop (lineStart text close)) ++ text.drop close

theorem isIndent_indent (text : Text) : (Text.indent text).all Text.isIndent :=
  List.all_takeWhile

theorem isIndent_spliceIndent {text : Text} {close : Nat} {indent : Option Text}
    (hindent : ∀ given ∈ indent, given.all Text.isIndent) :
    (spliceIndent text close indent).all Text.isIndent := by
  cases indent with
  | some given => exact hindent given rfl
  | none =>
      simp only [spliceIndent, Option.getD_none, List.all_append, isIndent_indent, Bool.true_and]
      decide

theorem spliceBefore_own {text newline : Text} {close : Nat} {indent : Option Text} {entry : Text → Text}
    (hown : (Text.lastLine (text.take close)).all Text.isIndent) :
    spliceBefore text close indent newline entry =
      text.take (lineStart text close) ++
        (entry (spliceIndent text close indent) ++ spliceRest text close) := by
  simp only [spliceBefore, spliceRest, hown, if_true, List.append_assoc]
  rfl

theorem spliceBefore_other {text newline : Text} {close : Nat} {indent : Option Text}
    {entry : Text → Text} (hother : ¬ (Text.lastLine (text.take close)).all Text.isIndent) :
    spliceBefore text close indent newline entry =
      text.take close ++ newline ++
        (entry (spliceIndent text close indent) ++ spliceRest text close) := by
  simp only [spliceBefore, spliceRest, hother, Bool.false_eq_true, if_false, List.append_assoc]
  rfl

theorem Text.lastLine_suffix (text : Text) : Text.lastLine text <:+ text := by
  rw [← List.reverse_prefix, Text.lastLine, List.reverse_reverse]
  exact List.takeWhile_prefix _

theorem take_lineStart {text front line : Text} {close : Nat} (hline : '\n' ∉ line)
    (htake : text.take close = front ++ '\n' :: line) : text.take (lineStart text close) = front ++ ['\n'] := by
  have hstart : lineStart text close = (front ++ ['\n']).length := by
    rw [lineStart, htake, Text.lastLine_newline hline]
    simp only [List.length_append, List.length_cons, List.length_nil]
    omega
  have hsplit : text = (front ++ ['\n']) ++ (line ++ text.drop close) := by
    calc text
        = text.take close ++ text.drop close := (List.take_append_drop _ _).symm
      _ = (front ++ ['\n']) ++ (line ++ text.drop close) := by rw [htake]; simp
  rw [hstart]
  calc text.take (front ++ ['\n']).length
      = ((front ++ ['\n']) ++ (line ++ text.drop close)).take (front ++ ['\n']).length := by rw [← hsplit]
    _ = front ++ ['\n'] := List.take_left

theorem spliceRest_eq (text : Text) (close : Nat) :
    ∃ indent, indent.all Text.isIndent ∧ spliceRest text close = indent ++ text.drop close := by
  unfold spliceRest
  split
  · rename_i hindent
    obtain ⟨front, hfront⟩ := Text.lastLine_suffix (text.take close)
    refine ⟨Text.lastLine (text.take close), hindent, ?_⟩
    have hstart : lineStart text close = front.length := by
      have hlength := congrArg List.length hfront
      rw [List.length_append] at hlength
      rw [lineStart]
      omega
    calc text.drop (lineStart text close)
        = (text.take close ++ text.drop close).drop front.length := by rw [hstart, List.take_append_drop]
      _ = (front ++ (Text.lastLine (text.take close) ++ text.drop close)).drop front.length := by
          rw [← List.append_assoc, hfront]
      _ = Text.lastLine (text.take close) ++ text.drop close := List.drop_left
  · exact ⟨_, isIndent_indent _, rfl⟩

/-- An entry is put between two parts of a text. Only indentation stands between the entry and the mark. -/
theorem spliceBefore_parts (text : Text) (close : Nat) (indent : Option Text) (newline : Text) (entry : Text → Text) :
    ∃ front back lead after, text = front ++ back ∧
      spliceBefore text close indent newline entry =
        front ++ (lead ++ (entry (spliceIndent text close indent) ++ (after ++ back))) ∧
      (lead = [] ∨ lead = newline) ∧ after.all Text.isIndent ∧
      ∃ white, white.all Text.isIndent ∧ back = white ++ text.drop close := by
  by_cases hown : (Text.lastLine (text.take close)).all Text.isIndent
  · have hrest : spliceRest text close = text.drop (lineStart text close) := if_pos hown
    obtain ⟨white, hwhite, hback⟩ := spliceRest_eq text close
    refine ⟨text.take (lineStart text close), text.drop (lineStart text close), [], [],
      (List.take_append_drop _ _).symm, ?_, .inl rfl, rfl, white, hwhite, hrest.symm.trans hback⟩
    rw [spliceBefore_own hown, hrest]
    rfl
  · have hrest : spliceRest text close = Text.indent (text.drop (lineStart text close)) ++ text.drop close := if_neg hown
    refine ⟨text.take close, text.drop close, newline, Text.indent (text.drop (lineStart text close)),
      (List.take_append_drop _ _).symm, ?_, .inr rfl, isIndent_indent _, [], rfl, rfl⟩
    rw [spliceBefore_other hown, hrest, List.append_assoc]

theorem length_spliceBefore (text : Text) (close : Nat) (indent : Option Text) (newline : Text) (entry : Text → Text) :
    text.length + (entry (spliceIndent text close indent)).length ≤
      (spliceBefore text close indent newline entry).length := by
  obtain ⟨front, back, lead, after, htext, hsplice, -⟩ := spliceBefore_parts text close indent newline entry
  have hlength := congrArg List.length htext
  rw [hsplice]
  simp only [List.length_append] at hlength ⊢
  omega

theorem Text.head?_append {left : Text} (right : Text) (hne : left ≠ []) :
    (left ++ right).head? = left.head? := by
  cases left with
  | nil => exact absurd rfl hne
  | cons => rfl

theorem exists_core {α : Type} (p : α → Bool) (l : List α) :
    ∃ core rest, l = core ++ rest ∧ (∀ x ∈ rest, p x) ∧ ∀ last ∈ core.getLast?, ¬ p last := by
  refine ⟨(l.reverse.dropWhile p).reverse, (l.reverse.takeWhile p).reverse, ?_, ?_, ?_⟩
  · rw [← List.reverse_append, List.takeWhile_append_dropWhile, List.reverse_reverse]
  · intro x hx
    exact List.all_eq_true.mp List.all_takeWhile x (List.mem_reverse.mp hx)
  · intro last hlast
    rw [List.getLast?_reverse] at hlast
    have hhead := List.head?_dropWhile_not p l.reverse
    rw [hlast] at hhead
    simpa using hhead

namespace Scan

/-- White space can take the place of what follows a lexeme that is none itself. -/
theorem Cuts.before_space {core : List Lexeme} {last : Lexeme} {mark c : Char}
    (hcuts : Cuts core (some mark)) (hlast : core.getLast? = some last) (hink : ¬ isWhite last.kind)
    (hstray : last.kind ≠ .stray) (hmark : ¬ Text.isSpace mark) (hc : Text.isSpace c) :
    Cuts core (some c) := by
  obtain ⟨front, hfront⟩ := List.getLast?_eq_some_iff.mp hlast
  have hend : last.EndsBefore mark := by
    rw [hfront] at hcuts
    exact (Cuts.append_iff.mp hcuts).2.2.1 mark rfl
  have hcut := hcuts.isCut last (List.mem_of_getLast? hlast)
  have hblank : last.kind ≠ .blank := by
    intro hkind
    rw [hkind] at hink
    exact hink rfl
  have hne : mark ≠ '\n' := by
    rintro rfl
    exact hmark (by decide)
  apply hcuts.forget.extend
  intro lexeme hlexeme d hd
  obtain rfl := Option.some.inj (hlast.symm.trans hlexeme)
  obtain rfl := Option.some.inj hd
  exact hcut.endsBefore_space hblank hstray (fun _ => ⟨mark, hend, hne⟩) hc

/-- On a line that holds only indentation, the newline before it is white space after the last ink. -/
theorem newline_mem_of_isIndent {core : List Lexeme} {last : Lexeme} {white : Text}
    (hlast : core.getLast? = some last) (hcut : last.IsCut) (hink : ¬ isWhite last.kind)
    (hstray : last.kind ≠ .stray) (hown : (Text.lastLine (source core ++ white)).all Text.isIndent) :
    '\n' ∈ white := by
  apply Decidable.byContradiction
  intro hnot
  obtain ⟨front, rfl⟩ := List.getLast?_eq_some_iff.mp hlast
  rw [Text.lastLine_append hnot, List.all_append, Bool.and_eq_true, Lexeme.source_append] at hown
  have hindent := not_isIndent_lastLine hcut hink hstray (source front)
  simp only [Lexeme.source_cons, Lexeme.source_nil, List.append_nil] at hown
  exact hindent hown.1

theorem Cuts.before_lineEnding {core : List Lexeme} {last : Lexeme} {white newline : Text} {mark : Char}
    (hcuts : Cuts core (white.head?.or (some mark))) (hlast : core.getLast? = some last)
    (hink : ¬ isWhite last.kind) (hstray : last.kind ≠ .stray) (hmark : ¬ Text.isSpace mark)
    (hnewline : IsLineEnding newline) : Cuts core (white ++ newline).head? := by
  cases white with
  | nil =>
      have hspace : Text.isSpace (newline.head hnewline.ne_nil) := hnewline.isSpace _ (List.head_mem _)
      rw [List.nil_append, List.head?_eq_some_head hnewline.ne_nil]
      exact Cuts.before_space hcuts hlast hink hstray hmark hspace
  | cons => exact hcuts

/-- The text around an entry, where the mark follows `core` and some white space. -/
theorem spliceBefore_eq {core white : List Lexeme} {last : Lexeme} {rest newline : Text} {mark : Char}
    (indent : Option Text) (entry : Text → Text)
    (hcuts : Cuts (core ++ white) (some mark)) (hlast : core.getLast? = some last)
    (hink : ¬ isWhite last.kind) (hstray : last.kind ≠ .stray)
    (hwhite : ∀ lexeme ∈ white, isWhite lexeme.kind) (hmark : ¬ Text.isSpace mark)
    (hnewline : IsLineEnding newline) {text : Text} {close : Nat}
    (htext : text = source (core ++ white) ++ mark :: rest)
    (hclose : close = (source (core ++ white)).length) :
    ∃ before, (∀ c ∈ before, Text.isSpace c) ∧ before.getLast? = some '\n' ∧ Cuts core before.head? ∧
      spliceBefore text close indent newline entry =
        source core ++
          (before ++ (entry (spliceIndent text close indent) ++ spliceRest text close)) := by
  obtain ⟨hcore, hcutsWhite⟩ := Cuts.append_iff.mp hcuts
  have hspaces : ∀ c ∈ source white, Text.isSpace c := by
    intro c hc
    obtain ⟨lexeme, hlexeme, hc⟩ := List.mem_flatMap.mp hc
    exact (hcutsWhite.isCut lexeme hlexeme).white (hwhite lexeme hlexeme) c hc
  have htake : text.take close = source core ++ source white := by
    rw [htext, hclose, List.take_left, Lexeme.source_append]
  have hlastCut := hcore.isCut last (List.mem_of_getLast? hlast)
  by_cases hown : (Text.lastLine (source core ++ source white)).all Text.isIndent
  -- The mark has its line for itself: the entry goes behind the last newline of the white space.
  · have hmem := newline_mem_of_isIndent hlast hlastCut hink hstray hown
    obtain ⟨front, line, hsource, hline⟩ := Text.exists_last_newline hmem
    have hstart : text.take (lineStart text close) = source core ++ front ++ ['\n'] := by
      apply take_lineStart hline
      rw [htake, hsource, List.append_assoc]
    rw [hsource] at hcore hspaces
    refine ⟨front ++ ['\n'], ?_, by simp, ?_, ?_⟩
    · intro c hc
      apply hspaces c
      simp only [List.mem_append, List.mem_cons, List.not_mem_nil, or_false] at hc ⊢
      exact hc.imp_right .inl
    · cases front with
      | nil => exact hcore
      | cons => exact hcore
    · rw [spliceBefore_own (htake ▸ hown), hstart]
      simp only [List.append_assoc]
  -- The mark ends a line with ink in it: a line ending comes behind the white space.
  · refine ⟨source white ++ newline, ?_, hnewline.getLast?_append _, ?_, ?_⟩
    · exact List.forall_mem_append.mpr ⟨hspaces, hnewline.isSpace⟩
    · exact hcore.before_lineEnding hlast hink hstray hmark hnewline
    · rw [spliceBefore_other (htake ▸ hown), htake]
      simp only [List.append_assoc]

end Scan

end GoGraft
