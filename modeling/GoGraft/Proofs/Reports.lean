import GoGraft.Proofs.ImportOrder

/-!
# Reports tell what happened

A change that reports nothing to do has made no edit, and one that reports to be applied has made at least one. Edits
that lead to a file which passes the checks never lead back to the text that they started from. So a report tells from
its outcomes alone, for each change and for the batch as a whole, whether the text is another one.
-/

namespace GoGraft

open Relation

/-- A change that succeeds had nothing to do, or it made an edit. -/
theorem Change.steps_of_apply {changes : List Change} {change : Change} {file edited : SourceFile} {outcome : Outcome}
    (hchange : change ∈ changes) (happly : change.apply file = ⟨edited, .ok outcome⟩) :
    (outcome = .alreadyPresent ∧ edited = file) ∨ (outcome = .applied ∧ TransGen (Stepped changes) file edited) := by
  obtain ⟨-, rfl, rfl⟩ | ⟨-, rfl, next, hedits, hensured⟩ := change.apply_eq_ok happly
  · exact .inl ⟨rfl, rfl⟩
  · have hsteps := SourceFile.stepped_of_ensureImports next hchange fun package hpackage => .inr ⟨hpackage, rfl⟩
    rw [hensured] at hsteps
    exact .inr ⟨rfl, .head' (hedits.stepped hchange) hsteps⟩

namespace SourceFile

variable {file final : SourceFile} {changes : List Change} {settings : Settings} {steps : List Step}

theorem render_ne_of_steps (hsteps : TransGen (Stepped changes) file final) (hread : file.IsRead)
    (hfinal : final.ImportsLead) : final.render ≠ file.render := by
  have hkept {edited : SourceFile} (hsteps : ReflTransGen (Stepped changes) file edited) :=
    edits_kept (ReflTransGen.mono (fun _ _ => Stepped.edited) _ _ hsteps) hread
  obtain ⟨middle, hbefore, hlast⟩ := TransGen.tail'_iff.mp hsteps
  have haltered := altered_of_stepped (hkept hbefore).2 hlast
  have hmoved : Moved file final := by
    have hleads := haltered.importsLead hfinal
    obtain rfl | hmoved := (moved_of_steps hbefore hread hleads).1
    · exact moved_of_altered hleads haltered
    · exact hmoved.step haltered
  obtain ⟨⟨hheader, -, htrailer⟩, hfinalRead⟩ := hkept hsteps.to_reflTransGen
  exact hmoved.render_ne hread hfinalRead hheader htrailer

/-- Each step of a batch tells whether the file before it and the file after it are the same, or have other texts. -/
theorem outcomes_of_performAll (hread : file.IsRead) (hperform : performAll settings file changes = ⟨final, .ok steps⟩) :
    final = file.afterChanges changes ∧ steps.length = changes.length ∧
      ∀ i change, changes[i]? = some change → ∃ outcome, steps[i]? = some ⟨change.describe, outcome⟩ ∧
        (outcome = .alreadyPresent → file.afterChanges (changes.take (i + 1)) = file.afterChanges (changes.take i)) ∧
        (outcome = .applied →
          (file.afterChanges (changes.take (i + 1))).render ≠ (file.afterChanges (changes.take i)).render) := by
  induction changes generalizing file steps with
  | nil =>
      obtain ⟨rfl, hsteps⟩ := Attempt.mk.inj hperform
      obtain rfl := Except.ok.inj hsteps
      exact ⟨rfl, rfl, by simp⟩
  | cons change others ih =>
      obtain ⟨next, ⟨description, outcome⟩, rest, hnext, hlast, rfl⟩ := performAll_cons hperform
      obtain ⟨happly, hviolations, rfl⟩ := Change.perform_eq_ok hnext
      have hfile : (change.apply file).state = next := congrArg Attempt.state happly
      have hafter (later : List Change) : file.afterChanges (change :: later) = next.afterChanges later := by
        rw [← hfile]
        rfl
      obtain ⟨hfinal, hlength, hothers⟩ := ih (leads_kept (.step happly (.refl next)) hread).2 hlast
      refine ⟨hfinal.trans (hafter others).symm, congrArg (· + 1) hlength, ?_⟩
      intro i other hother
      cases i with
      | succ i =>
          obtain ⟨outcome, hstep, htruth⟩ := hothers i other hother
          refine ⟨outcome, hstep, ?_⟩
          rw [List.take_succ_cons, List.take_succ_cons, hafter, hafter]
          exact htruth
      | zero =>
          obtain rfl := Option.some.inj hother
          refine ⟨outcome, rfl, ?_⟩
          rw [List.take_succ_cons, List.take_zero, List.take_zero, hafter]
          change (outcome = .alreadyPresent → next = file) ∧ (outcome = .applied → next.render ≠ file.render)
          obtain ⟨rfl, hsame⟩ | ⟨rfl, hsteps⟩ := Change.steps_of_apply (List.mem_singleton_self change) happly
          · exact ⟨fun _ => hsame, fun happlied => absurd happlied (by decide)⟩
          · exact ⟨fun hpresent => absurd hpresent (by decide),
              fun _ => render_ne_of_steps hsteps hread (importsLead_of_violations hviolations)⟩

/-- A batch whose report counts no change has left the file alone, and every other one has made edits. -/
theorem steps_of_performAll {all : List Change} (hperform : performAll settings file changes = ⟨final, .ok steps⟩)
    (hall : ∀ change ∈ changes, change ∈ all) :
    (steps.countP (·.outcome = .applied) = 0 ∧ final = file) ∨
      (0 < steps.countP (·.outcome = .applied) ∧ TransGen (Stepped all) file final) := by
  induction changes generalizing file steps with
  | nil =>
      obtain ⟨rfl, hsteps⟩ := Attempt.mk.inj hperform
      obtain rfl := Except.ok.inj hsteps
      exact .inl ⟨rfl, rfl⟩
  | cons change others ih =>
      obtain ⟨hchange, hothers⟩ := List.forall_mem_cons.mp hall
      obtain ⟨next, step, rest, hnext, hlast, rfl⟩ := performAll_cons hperform
      have happly := (Change.perform_eq_ok hnext).1
      have hrest := ih hlast hothers
      obtain ⟨houtcome, rfl⟩ | ⟨houtcome, hsteps⟩ := Change.steps_of_apply hchange happly
      · rwa [List.countP_cons_of_neg (by simp [houtcome])]
      · rw [List.countP_cons_of_pos (by simp [houtcome])]
        refine .inr ⟨Nat.succ_pos _, ?_⟩
        obtain ⟨-, rfl⟩ | ⟨-, hmore⟩ := hrest
        · exact hsteps
        · exact hsteps.trans hmore

/-- The report of a batch has one step for each change, in order. A step that reports nothing to do has left the file as
it was, one that reports a change has changed its text, and the report as a whole counts no change exactly if the text
is the same as before the batch. -/
theorem report_of_applyAll {text : Text} {report : Report} (hparse : parse text = .ok file)
    (hall : file.applyAll changes settings = ⟨final, .ok report⟩) :
    final = file.afterChanges changes ∧ report.steps.length = changes.length ∧
      (∀ i change, changes[i]? = some change → ∃ outcome, report.steps[i]? = some ⟨change.describe, outcome⟩ ∧
        (outcome = .alreadyPresent → file.afterChanges (changes.take (i + 1)) = file.afterChanges (changes.take i)) ∧
        (outcome = .applied →
          (file.afterChanges (changes.take (i + 1))).render ≠ (file.afterChanges (changes.take i)).render)) ∧
      (report.isNoop ↔ final.render = file.render) := by
  have hread := isRead_of_parse hparse
  have hperform := applyAll_eq_ok hall
  obtain ⟨hfinal, hlength, houtcomes⟩ := outcomes_of_performAll hread hperform
  refine ⟨hfinal, hlength, houtcomes, ?_⟩
  rw [Report.isNoop, Report.applied, decide_eq_true_eq]
  obtain ⟨hcount, rfl⟩ | ⟨hcount, hsteps⟩ := steps_of_performAll hperform fun _ hchange => hchange
  · exact ⟨fun _ => rfl, fun _ => hcount⟩
  · obtain ⟨rfl, rfl⟩ | hviolations := violations_of_performAll hperform
    · simp [List.eq_nil_of_length_eq_zero hlength] at hcount
    · have hne := render_ne_of_steps hsteps hread (importsLead_of_violations hviolations)
      exact ⟨fun hnone => absurd hnone (Nat.ne_of_gt hcount), fun hsame => absurd hsame hne⟩

-- The second change makes the import declaration shorter than it was, and the third finds the field of the first.
theorem report_of_applyAll_shorter :
    let text := "package a\n\nimport /* a comment that does not stay */ \x22fmt\x22\n\n".toList ++
      "type A struct \x7b\n\x7d\n".toList
    let field : Change := .addField ['A'] ⟨['X'], .verbatim "int".toList, none, none⟩
    let changes : List Change := [field, .addImport "os".toList none, field]
    ∃ file final report, parse text = .ok file ∧ file.applyAll changes .standard = ⟨final, .ok report⟩ ∧
      report.steps.map Step.outcome = [.applied, .applied, .alreadyPresent] ∧
      final.render.length < text.length ∧ final.render ≠ file.render ∧
      (file.afterChanges (changes.take 2)).render ≠ (file.afterChanges (changes.take 1)).render ∧
      file.afterChanges (changes.take 3) = file.afterChanges (changes.take 2) := by
  repeat rw [String.toList_ofList]
  intro text field changes
  have hrun : (parse text).toOption.any fun file => (file.applyAll changes .standard).toOption.any fun result =>
      decide (result.2.steps.map Step.outcome = [.applied, .applied, .alreadyPresent]) &&
        decide (¬ result.2.isNoop) && decide (result.1.render.length < text.length) := by
    decide +kernel
  obtain ⟨file, hfile, hrun⟩ := (Option.any_eq_true ..).mp hrun
  obtain ⟨⟨final, report⟩, hfinal, hrun⟩ := (Option.any_eq_true ..).mp hrun
  simp only [Bool.and_eq_true, decide_eq_true_eq] at hrun
  obtain ⟨⟨houtcomes, hsome⟩, hshorter⟩ := hrun
  have hparse := eq_ok_of_toOption hfile
  have hall := Attempt.eq_of_toOption hfinal
  obtain ⟨-, -, hsteps, hnoop⟩ := report_of_applyAll hparse hall
  have houtcome {i : Nat} {description : Text} {outcome : Outcome}
      (hstep : report.steps[i]? = some ⟨description, outcome⟩) :
      [Outcome.applied, .applied, .alreadyPresent][i]? = some outcome := by
    rw [← houtcomes, List.getElem?_map, hstep]
    rfl
  obtain ⟨second, hsecond, -, hchanged⟩ := hsteps 1 _ rfl
  obtain ⟨third, hthird, hsame, -⟩ := hsteps 2 _ rfl
  exact ⟨file, final, report, hparse, hall, houtcomes, hshorter, fun hsame => hsome (hnoop.mpr hsame),
    hchanged (Option.some.inj (houtcome hsecond)).symm, hsame (Option.some.inj (houtcome hthird)).symm⟩

end SourceFile

end GoGraft
