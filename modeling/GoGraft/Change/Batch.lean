import GoGraft.Change.Apply
import GoGraft.Settings

/-! Batches of changes. After each change the file is checked, and a batch that fails leaves no trace. -/

namespace GoGraft

structure Step where
  description : Text
  outcome : Outcome
deriving DecidableEq, Repr

/-- What became of each change of a batch, in order. -/
structure Report where
  steps : List Step
deriving DecidableEq, Repr

def Report.applied (report : Report) : Nat :=
  report.steps.countP (·.outcome = .applied)

def Report.isNoop (report : Report) : Bool :=
  report.applied = 0

/-- All faults that the settings ask to look for. -/
def SourceFile.violations (file : SourceFile) (settings : Settings) : List Violation :=
  file.check ++ if settings.checkSelfReferences then file.checkSelfReferences else []

def SourceFile.accept (file : SourceFile) (settings : Settings) : Except Failure Unit :=
  match file.violations settings with
  | [] => .ok ()
  | violations => .error (.invalid violations)

/-- Applies one change and checks the file that it leads to. -/
def Change.perform (change : Change) (settings : Settings) (file : SourceFile) : Attempt SourceFile Failure Step :=
  (change.apply file).andThen fun file outcome =>
    match file.accept settings with
    | .ok () => .ok file ⟨change.describe, outcome⟩
    | .error failure => .fail file failure

/-- Applies changes one after the other, up to the first that fails. -/
def performAll (settings : Settings) (file : SourceFile) : List Change → Attempt SourceFile Failure (List Step)
  | [] => .ok file []
  | change :: others =>
      (change.perform settings file).andThen fun file step =>
        (performAll settings file others).andThen fun file steps => .ok file (step :: steps)

/-- Applies a batch as a whole. When a change fails, the file is again what it was. -/
def SourceFile.applyAll (file : SourceFile) (changes : List Change) (settings : Settings) :
    Attempt SourceFile Failure Report :=
  ((performAll settings file changes).onFailure fun _ => file).andThen fun file steps => .ok file ⟨steps⟩

end GoGraft
