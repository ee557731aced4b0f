import GoGraft.Change.Apply
import GoGraft.Proofs.Results

/-!
# How a change can end

A change finds what it asks for and leaves the file alone, or it makes one edit and then imports the packages that its
types name. It fails where there is no struct type to add a field to, and where an edit is refused. Whatever is said
about changes is said for these cases.
-/

namespace GoGraft

theorem SourceFile.ensureImports_error {file : SourceFile} {packages : List Text} {last : SourceFile}
    {failure : Failure} (herror : file.ensureImports packages = ⟨last, .error failure⟩) :
    ∃ error, failure = .unedited error := by
  induction packages generalizing file with
  | nil => cases herror
  | cons package others ih =>
      unfold ensureImports at herror
      split at herror
      · exact ih herror
      · split at herror
        · exact ih herror
        · rename_i error _
          exact ⟨error, (Except.error.inj (Attempt.mk.inj herror).2).symm⟩

namespace Change

/-- The types that are written into the file. -/
def types : Change → List TypeExpr
  | .addField _ field => [field.type]
  | .addType type _ => type.referencedTypes
  | .addImport _ _ => []

/-- The file has what the change asks for. -/
def isPresent (file : SourceFile) : Change → Bool
  | .addField record field => (file.record? record).any (·.hasField field.name)
  | .addType type _ => file.hasType type.name
  | .addImport path _ => file.hasImport path

/-- The edit that a change makes of a file that has not what it asks for. -/
inductive Edits (file : SourceFile) : Change → SourceFile → Prop where
  | field {record : Text} {field : NewField} {location : TypeLocation} {next : SourceFile}
      (hlocation : file.recordLocation? record = some location)
      (happend : file.appendField location field = .ok next) : Edits file (.addField record field) next
  | type {type : NewType} {placement : Placement} {next : SourceFile} {position : Nat}
      (hinsert : file.insertType (file.resolve placement) type = .ok (next, position)) :
      Edits file (.addType type placement) next
  | imports {path : Text} {localName : Option Text} {next : SourceFile}
      (happend : file.appendImport path localName = .ok next) : Edits file (.addImport path localName) next

/-- The ways in which the change of a file can end. -/
inductive Ends (change : Change) (file : SourceFile) : Attempt SourceFile Failure Outcome → Prop where
  | present (hpresent : change.isPresent file) : Ends change file (.ok file .alreadyPresent)
  | missing {record : Text} {field : NewField} (hchange : change = .addField record field)
      (hnone : file.recordLocation? record = none) : Ends change file (.fail file (.targetNotFound record))
  | refused (habsent : ¬ change.isPresent file) (error : EditError) : Ends change file (.fail file (.unedited error))
  | edited {next : SourceFile} (habsent : ¬ change.isPresent file) (hedits : change.Edits file next) :
      Ends change file
        ((next.ensureImports (requiredPackages change.types)).andThen fun file _ => .ok file .applied)

theorem ends_apply (change : Change) (file : SourceFile) : change.Ends file (change.apply file) := by
  cases change with
  | addField record field =>
      change Ends _ file (file.addField record field)
      unfold SourceFile.addField
      split
      · rename_i hnone
        exact .missing rfl hnone
      rename_i location hlocation
      split
      · rename_i hpresent
        exact .present hpresent
      rename_i habsent
      split
      · rename_i error _
        refine .refused ?_ error
        exact habsent
      · rename_i next happend
        exact .edited habsent (.field hlocation happend)
  | addType type placement =>
      change Ends _ file (file.addType type placement)
      unfold SourceFile.addType
      split
      · rename_i hpresent
        exact .present hpresent
      rename_i habsent
      split
      · rename_i error _
        refine .refused ?_ error
        exact habsent
      · rename_i next position hinsert
        exact .edited habsent (.type hinsert)
  | addImport path localName =>
      change Ends _ file (file.addImport path localName)
      unfold SourceFile.addImport
      split
      · rename_i hpresent
        exact .present hpresent
      rename_i habsent
      split
      · rename_i error _
        refine .refused ?_ error
        exact habsent
      · rename_i next happend
        exact .edited habsent (.imports happend)

/-- A change that succeeds had nothing to do, or it made its edit and all imports that its types need. -/
theorem apply_eq_ok {change : Change} {file edited : SourceFile} {outcome : Outcome}
    (happly : change.apply file = ⟨edited, .ok outcome⟩) :
    (change.isPresent file ∧ file = edited ∧ outcome = .alreadyPresent) ∨
      (¬ change.isPresent file ∧ outcome = .applied ∧
        ∃ next, change.Edits file next ∧ next.ensureImports (requiredPackages change.types) = ⟨edited, .ok ()⟩) := by
  have hends := change.ends_apply file
  generalize change.apply file = attempt at hends happly
  cases hends with
  | present hpresent =>
      obtain ⟨rfl, houtcome⟩ := Attempt.mk.inj happly
      exact .inl ⟨hpresent, rfl, (Except.ok.inj houtcome).symm⟩
  | missing | refused => cases happly
  | @edited next habsent hedits =>
      obtain ⟨last, _, hensured, happly⟩ := Attempt.andThen_eq_ok.mp happly
      obtain ⟨rfl, houtcome⟩ := Attempt.mk.inj happly
      exact .inr ⟨habsent, (Except.ok.inj houtcome).symm, next, hedits, hensured⟩

theorem apply_of_isPresent {change : Change} {file : SourceFile} (hpresent : change.isPresent file) :
    change.apply file = ⟨file, .ok .alreadyPresent⟩ := by
  have hends := change.ends_apply file
  generalize change.apply file = attempt at hends ⊢
  cases hends with
  | present => rfl
  | missing hchange hnone =>
      subst hchange
      obtain ⟨record, hrecord, -⟩ := (Option.any_eq_true ..).mp hpresent
      obtain ⟨location, hlocation, -⟩ := Option.bind_eq_some_iff.mp hrecord
      rw [hnone] at hlocation
      cases hlocation
  | refused habsent | edited habsent => exact absurd hpresent habsent

end Change

end GoGraft
