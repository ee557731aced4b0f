import GoGraft.Proofs.Departures
import GoGraft.Proofs.EditRuns

/-!
# Imports come first and stay first

A type that a change inserts goes behind the leading imports, whatever its anchor is, and a new import declaration goes
right behind them; a declaration that is written anew is an import declaration if it was one. So changes keep all import
declarations before the others, those that fail in the middle too, and the check never has a reason to report an import
declaration that was not late before.
-/

namespace GoGraft

open Relation

namespace SourceFile

variable {file edited : SourceFile} {changes : List Change} {lead body : List Declaration}

theorem Split.importsLead (hsplit : file.Split lead body) : file.ImportsLead := by
  have hlead : ∀ earlier ∈ lead.map Declaration.isImport, earlier := List.forall_mem_map.mpr hsplit.imports
  have hbody : ∀ later ∈ body.map Declaration.isImport, ¬ later := List.forall_mem_map.mpr hsplit.others
  unfold ImportsLead
  rw [hsplit.declarations_eq, List.map_append, List.pairwise_append]
  refine ⟨?_, ?_, fun earlier hearlier _ _ _ => hlead earlier hearlier⟩
  · exact List.pairwise_of_forall_mem_list fun earlier hearlier _ _ _ => hlead earlier hearlier
  · exact List.pairwise_of_forall_mem_list fun _ _ later hlater himport => absurd himport (hbody later hlater)

/-- One edit keeps the import declarations before the others. -/
theorem ImportsLead.altered (hleads : file.ImportsLead) (haltered : Altered file edited) : edited.ImportsLead := by
  obtain ⟨lead, body, hsplit⟩ := hleads.exists_split
  obtain ⟨body', hedited, -⟩ | ⟨lead', hedited, -⟩ := hsplit.altered haltered
  · exact hedited.importsLead
  · exact hedited.importsLead

theorem importsLead_of_steps (hsteps : ReflTransGen (Stepped changes) file edited) (hread : file.IsRead)
    (hleads : file.ImportsLead) : edited.IsRead ∧ edited.ImportsLead := by
  induction hsteps with
  | refl => exact ⟨hread, hleads⟩
  | tail _ hstepped ih =>
      obtain ⟨hmiddle, hleads⟩ := ih
      exact ⟨(edited_kept hstepped.edited hmiddle).2, hleads.altered (altered_of_stepped hmiddle hstepped)⟩

/-- The file after changes have been tried one after the other. -/
def afterChanges (file : SourceFile) (changes : List Change) : SourceFile :=
  changes.foldl (fun file change => (change.apply file).state) file

theorem importsLead_afterChanges (hread : file.IsRead) (hleads : file.ImportsLead) (changes : List Change) :
    (file.afterChanges changes).ImportsLead := by
  induction changes generalizing file with
  | nil => exact hleads
  | cons change others ih =>
      obtain ⟨hnext, hleads⟩ :=
        importsLead_of_steps (Change.stepped_of_apply file (List.mem_singleton_self change)) hread hleads
      exact ih hnext hleads

/-- In a file whose import declarations come before all others they still do after any changes, and then the check
reports none of them as late. -/
theorem imports_stay_first {text : Text} {start : IndexedFile} (hparse : IndexedFile.parse text = .ok start)
    (edits : List IndexedFile.Edit) (hleads : (start.run edits).file.ImportsLead) :
    (∀ change edited outcome, Change.apply change (start.run edits).file = ⟨edited, .ok outcome⟩ →
        edited.ImportsLead) ∧
      ∀ changes, ∀ violation ∈ ((start.run edits).file.afterChanges changes).check,
        violation.fault ≠ .importAfterDeclaration := by
  have hread := (IndexedFile.isSound_of_run hparse edits).read
  constructor
  · intro change edited outcome happly
    have hedited := importsLead_afterChanges hread hleads [change]
    rwa [afterChanges, List.foldl_cons, happly] at hedited
  · intro changes
    exact importsLead_iff.mp (importsLead_afterChanges hread hleads changes)

-- The type asks for a place before all others, its package needs an import, and the second change finds no struct type.
theorem imports_stay_first_anchored :
    let text := "package a\n\nimport \"C\"\n\ntype A struct \x7b\n\x7d\n".toList
    let time : NewField := ⟨['T'], .qualified "time".toList "Time".toList, none, none⟩
    let edits : List IndexedFile.Edit := [.insertType 7 (.record ['Z'])]
    let changes : List Change :=
      [.addType (.record ['B']) (.before ['A']), .addField ['N'] time, .addField ['A'] time]
    ∃ start, IndexedFile.parse text = .ok start ∧ (start.run edits).file.ImportsLead ∧
      ((start.run edits).file.afterChanges changes).declarations.map Declaration.isImport =
        [true, true, false, false, false] ∧
      ∀ violation ∈ ((start.run edits).file.afterChanges changes).check,
        violation.fault ≠ .importAfterDeclaration := by
  intro text time edits changes
  have hrun : (IndexedFile.parse text).toOption.any fun start =>
      decide ((start.run edits).file.declarations.map Declaration.isImport = [true, false, false]) &&
        decide (((start.run edits).file.afterChanges changes).declarations.map Declaration.isImport =
          [true, true, false, false, false]) := by
    decide
  obtain ⟨start, hstart, hrun⟩ := (Option.any_eq_true ..).mp hrun
  simp only [Bool.and_eq_true, decide_eq_true_eq] at hrun
  obtain ⟨hbefore, hafter⟩ := hrun
  have hleads : (start.run edits).file.ImportsLead := by
    rw [ImportsLead, hbefore]
    decide
  exact ⟨start, eq_ok_of_toOption hstart, hleads, hafter,
    (imports_stay_first (eq_ok_of_toOption hstart) edits hleads).2 changes⟩

end SourceFile

end GoGraft
