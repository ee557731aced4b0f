import GoGraft.File.Basic
import GoGraft.Proofs.Reads
import GoGraft.Proofs.Results

/-!
# Reading a file loses nothing

Lexemes make up the text, sections and what follows them make up the lexemes, and header, declarations and trailer
share out the sections: each gap is cut in two, and the two sides go to the item before and the item after it. A
newline that was added for reading is the last character of the trailer, and is taken off again.
-/

namespace GoGraft

namespace Grammar

/-- The lexemes of an outline, in their order. -/
def Outline.marked (outline : Outline) : List Marked :=
  outline.sections.flatMap (fun s => s.gap ++ s.body) ++ outline.rest

namespace Outline

/-- The lexemes of a draft, in their order. -/
def Draft.marked (draft : Draft) : List Marked :=
  draft.sections.reverse.flatMap (fun s => s.gap ++ s.body) ++ draft.gap.reverse ++
    draft.body.reverse ++ draft.tail.reverse

/-- Nothing stands after a body that has not begun. -/
def Draft.IsOrdered (draft : Draft) : Prop :=
  draft.body = [] → draft.tail = []

theorem Draft.step_marked (draft : Draft) (marked : Marked) (hordered : draft.IsOrdered) :
    (draft.step marked).marked = draft.marked ++ [marked] ∧ (draft.step marked).IsOrdered := by
  obtain ⟨sections, gap, body, tail⟩ := draft
  unfold Draft.step
  split
  · split
    · rename_i hbody
      obtain rfl : body = [] := by simpa using hbody
      obtain rfl : tail = [] := hordered rfl
      exact ⟨by simp [Draft.marked], fun _ => rfl⟩
    · rename_i hbody
      refine ⟨by simp [Draft.marked], ?_⟩
      intro hempty
      simp_all
  · exact ⟨by simp [Draft.marked], fun _ => rfl⟩
  · exact ⟨by simp [Draft.marked], fun _ => rfl⟩

theorem Draft.foldl_marked (marked : List Marked) (draft : Draft) (hordered : draft.IsOrdered) :
    (marked.foldl Draft.step draft).marked = draft.marked ++ marked ∧
      (marked.foldl Draft.step draft).IsOrdered := by
  induction marked generalizing draft with
  | nil => simpa using hordered
  | cons head marked ih =>
      obtain ⟨hstep, hnext⟩ := Draft.step_marked draft head hordered
      obtain ⟨hfold, hlast⟩ := ih (draft.step head) hnext
      refine ⟨?_, hlast⟩
      rw [List.foldl_cons, hfold, hstep]
      simp

theorem Draft.finish_marked (draft : Draft) (hordered : draft.IsOrdered) :
    draft.finish.marked = draft.marked := by
  obtain ⟨sections, gap, body, tail⟩ := draft
  unfold Draft.finish
  split
  · rename_i hbody
    obtain rfl : body = [] := by simpa using hbody
    obtain rfl : tail = [] := hordered rfl
    simp [Outline.marked, Draft.marked]
  · simp [Outline.marked, Draft.marked]

theorem ofMarked_marked (marked : List Marked) : (ofMarked marked).marked = marked := by
  obtain ⟨hfold, hordered⟩ := Draft.foldl_marked marked ⟨[], [], [], []⟩ (fun _ => rfl)
  unfold ofMarked
  rw [Draft.finish_marked _ hordered, hfold]
  rfl

theorem source_eq (outline : Outline) : outline.source = sourceOf outline.marked := by
  rw [Outline.source, Outline.marked, sourceOf_append, sourceOf, sourceOf, List.flatMap_assoc]
  simp only [List.flatMap_append]
  rfl

end Outline

/-- The outline of a text is a run of the machine over the lexemes of the text. -/
theorem outline?_eq_some {text : Text} {outline : Outline} (houtline : outline? text = some outline) :
    ∃ marked, Reads fileStack marked fileStack ∧ marked.map Marked.lexeme = Scan.file text ∧
      outline = Outline.ofMarked marked := by
  obtain ⟨marked, hparse, rfl⟩ := Option.map_eq_some_iff.mp houtline
  obtain ⟨hreads, hlexemes⟩ := reads_of_parse hparse
  exact ⟨marked, hreads, hlexemes, rfl⟩

theorem source_of_outline? {text : Text} {outline : Outline} (houtline : outline? text = some outline) :
    outline.source = text := by
  obtain ⟨marked, -, hlexemes, rfl⟩ := outline?_eq_some houtline
  rw [Outline.source_eq, Outline.ofMarked_marked, ← source_map_lexeme, hlexemes, Scan.source_file]

theorem splitAttached_append (gap : List Marked) : (splitAttached gap).1 ++ (splitAttached gap).2 = gap := by
  induction gap with
  | nil => rfl
  | cons marked rest ih =>
      unfold splitAttached
      split
      · rfl
      · dsimp only
        split
        · rfl
        · simp [ih]

theorem sourceOf_splitAttached (gap : List Marked) :
    sourceOf (splitAttached gap).1 ++ sourceOf (splitAttached gap).2 = sourceOf gap := by
  rw [← sourceOf_append, splitAttached_append]

end Grammar

namespace SourceFile

open Grammar

theorem declarationOf_text (s : Section) (after : List Marked) :
    (declarationOf s after).text =
      sourceOf (splitAttached s.gap).2 ++ (sourceOf s.body ++ sourceOf (splitAttached after).1) := by
  simp [declarationOf]

theorem withGaps_cons (s : Section) (sections : List Section) (rest : List Marked) :
    withGaps (s :: sections) rest =
      (s, (sections.head?.map Section.gap).getD rest) :: withGaps sections rest := by
  cases sections <;> simp [withGaps]

/-- Declarations, from the free side of the first gap to the attached side of the last one. -/
theorem source_declarations (sections : List Section) (rest : List Marked) :
    sourceOf (splitAttached ((sections.head?.map Section.gap).getD rest)).1 ++
        ((withGaps sections rest).map fun (s, after) => declarationOf s after).flatMap
          Declaration.text ++
        sourceOf (splitAttached rest).2 =
      sections.flatMap Section.source ++ sourceOf rest := by
  induction sections with
  | nil => simpa [withGaps] using sourceOf_splitAttached rest
  | cons s sections ih =>
      have hgap := sourceOf_splitAttached s.gap
      rw [withGaps_cons]
      simp only [List.head?_cons, Option.map_some, Option.getD_some, List.map_cons,
        List.flatMap_cons, declarationOf_text, Section.source]
      rw [List.append_assoc (sourceOf s.gap ++ sourceOf s.body), ← ih, ← hgap]
      simp only [List.append_assoc]

theorem render_of_ofOutline {outline : Outline} {file : SourceFile}
    (hfile : ofOutline outline = .ok file) : file.render = outline.source := by
  unfold ofOutline at hfile
  split at hfile
  · cases hfile
  · rename_i clause others hsections
    split at hfile
    · cases hfile
    dsimp only at hfile
    split at hfile
    · cases hfile
    · obtain rfl := Except.ok.inj hfile
      have hlast : (if others.isEmpty then (others.head?.map Section.gap).getD outline.rest
          else outline.rest) = outline.rest := by
        cases others <;> simp
      have hdeclarations := source_declarations others outline.rest
      rw [hlast]
      simp only [render, Outline.source, hsections, List.flatMap_cons, List.append_assoc]
      rw [← hdeclarations]
      simp only [List.append_assoc]

theorem render_of_parseTerminated {text : Text} {file : SourceFile}
    (hparse : parseTerminated text = .ok file) : file.render = text := by
  unfold parseTerminated at hparse
  split at hparse
  · rename_i outline houtline
    rw [render_of_ofOutline hparse, source_of_outline? houtline]
  · cases hparse

/-- A file is read as it stands, or with a newline after it that is not kept. -/
theorem parse_eq_ok {text : Text} {file : SourceFile} (hparse : parse text = .ok file) :
    parseTerminated text = .ok file ∨
      parseTerminated (text ++ ['\n']) = .ok { file with trailer := file.trailer ++ ['\n'] } := by
  unfold parse at hparse
  split at hparse
  · exact .inl hparse
  · split at hparse
    · cases hparse
    · rename_i padded hpadded
      split at hparse
      · rename_i hnewline
        obtain rfl := Except.ok.inj hparse
        obtain ⟨front, hfront⟩ := List.getLast?_eq_some_iff.mp hnewline
        have htrailer : padded.trailer.dropLast ++ ['\n'] = padded.trailer := by simp [hfront]
        exact .inr (by rw [hpadded, htrailer])
      · cases hparse

/-- A file that was read prints as the text that it was read from. -/
theorem render_of_parse {text : Text} {file : SourceFile} (hparse : parse text = .ok file) :
    file.render = text := by
  obtain hread | hpadded := parse_eq_ok hparse
  · exact render_of_parseTerminated hread
  · have hrender := render_of_parseTerminated hpadded
    simp only [render, ← List.append_assoc] at hrender
    exact List.append_cancel_right hrender

/-- Reading is lossless: what was read prints as the text it came from, and reads as itself again. -/
theorem parse_roundtrip {text : Text} {file : SourceFile} (hparse : parse text = .ok file) :
    file.render = text ∧ parse file.render = .ok file := by
  have hrender := render_of_parse hparse
  exact ⟨hrender, hrender.symm ▸ hparse⟩

theorem parse_roundtrip_unterminated :
    let text := "package a // ü\n\ntype T struct \x7b\x7d // t\n// end".toList
    ∃ file, parse text = .ok file ∧ file.declarations.length = 1 ∧ file.render = text ∧
      parse file.render = .ok file := by
  repeat rw [String.toList_ofList]
  intro text
  exact ⟨_, rfl, rfl, parse_roundtrip rfl⟩

end SourceFile

end GoGraft
