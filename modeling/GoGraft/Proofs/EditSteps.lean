import Mathlib.Logic.Relation
import Mathlib.Order.Monotone.Basic
import GoGraft.Proofs.Execution
import GoGraft.Proofs.FileEdits

/-!
# What a batch of changes does to the declarations

Whatever a change does, it does by edits of two kinds: it inserts a declaration that was written for it, or it writes
one declaration anew, a type declaration with a further field or an import declaration with a further import. So each
declaration of a file can be followed through a batch: it is at a later place, in the same order, and it is the same
unless the batch adds a field to one of its types or it can take imports.
-/

namespace GoGraft

open Relation

namespace Change

/-- The imports that a change can lead to: one that it asks for, and those of packages that its types name. -/
def MayImport (change : Change) (path : Text) (localName : Option Text) : Prop :=
  change = .addImport path localName ∨ (path ∈ requiredPackages change.types ∧ localName = none)

end Change

/-- A declaration that is written for a change of a batch. -/
inductive IsNew (changes : List Change) (declaration : Declaration) : Prop where
  | type {type : NewType} {placement : Placement} {newline : Text}
      (hchange : Change.addType type placement ∈ changes) (hnewline : IsLineEnding newline)
      (hparse : Declaration.parse (newTypeText type newline) = .ok declaration)
  | imports {change : Change} {path : Text} {localName : Option Text} {newline : Text}
      (hchange : change ∈ changes) (himport : change.MayImport path localName) (hnewline : IsLineEnding newline)
      (hparse : Declaration.parse (newImportText path localName newline) = .ok declaration)

/-- A declaration that is written anew for a change of a batch. -/
inductive Rewritten (changes : List Change) (old new : Declaration) : Prop where
  | field {name : Text} {field : NewField} {spec : TypeSpec} {record : Record} {newline : Text}
      (hchange : Change.addField name field ∈ changes) (hspec : spec ∈ old.typeSpecs) (hname : spec.name = name)
      (hbody : spec.body = .record record) (hnewline : IsLineEnding newline)
      (hparse : Declaration.parse (spliceBefore old.text record.close record.indent newline
        fun indent => field.render indent newline) = .ok new)
  | imports {change : Change} {path : Text} {localName : Option Text} {specs : List ImportSpec}
      {layout : ImportLayout} {newline : Text} (hchange : change ∈ changes)
      (himport : change.MayImport path localName) (hkind : old.kind = .imports specs layout)
      (hextendable : ∀ spec ∈ specs, spec.path ≠ SourceFile.preamblePath) (hnewline : IsLineEnding newline)
      (hparse : Declaration.parse
        (SourceFile.extendImport old.text layout newline (renderImport path localName)) = .ok new)

/-- One edit of a file for a change of a batch. -/
inductive Edited (changes : List Change) (file : SourceFile) : SourceFile → Prop where
  | insert (index : Nat) {declaration : Declaration} (hnew : IsNew changes declaration) :
      Edited changes file (file.insert index declaration)
  | replace {index : Nat} {old new : Declaration} (hold : file.declarations[index]? = some old)
      (hrewritten : Rewritten changes old new) : Edited changes file (file.replace index new)

theorem Edited.split {changes : List Change} {file : SourceFile} {earlier later : List Declaration}
    {old new : Declaration} (hsplit : file.declarations = earlier ++ old :: later)
    (hrewritten : Rewritten changes old new) :
    Edited changes file { file with declarations := earlier ++ new :: later } := by
  have hold : file.declarations[earlier.length]? = some old := by simp [hsplit]
  have hreplace : file.replace earlier.length new = { file with declarations := earlier ++ new :: later } := by
    simp [SourceFile.replace, hsplit]
  exact hreplace ▸ .replace hold hrewritten

namespace SourceFile

variable {file edited : SourceFile} {changes : List Change}

theorem typeSpec?_of_recordLocation? {name : Text} {location : TypeLocation}
    (hlocation : file.recordLocation? name = some location) :
    ∃ spec record, file.typeSpec? location = some spec ∧ spec.name = name ∧ spec.body = .record record := by
  obtain ⟨found, hfound, hlocation⟩ := Option.bind_eq_some_iff.mp hlocation
  obtain ⟨spec, hspec, hlocation⟩ := Option.bind_eq_some_iff.mp hlocation
  obtain ⟨record, hrecord, hlocation⟩ := Option.bind_eq_some_iff.mp hlocation
  obtain rfl := Option.some.inj hlocation
  refine ⟨spec, record, hspec, ?_, ?_⟩
  · have hfind := file.find?_allTypeSpecs name
    rw [hfound, Option.bind_some, hspec] at hfind
    simpa using List.find?_some hfind
  · unfold TypeSpec.record? at hrecord
    split at hrecord
    · rename_i hbody
      rw [hbody, Option.some.inj hrecord]
    · cases hrecord

theorem edited_of_appendField {name : Text} {field : NewField} {location : TypeLocation}
    (hchange : Change.addField name field ∈ changes) (hlocation : file.recordLocation? name = some location)
    (happend : file.appendField location field = .ok edited) : Edited changes file edited := by
  obtain ⟨spec, record, hspec, hname, -⟩ := typeSpec?_of_recordLocation? hlocation
  obtain ⟨earlier, old, later, before, found, others, record, new, hsplit, rfl, hspecs, hbody, hparse, rfl⟩ :=
    appendField_cases happend
  have hfound : file.typeSpec? ⟨earlier.length, before.length⟩ = some found := by
    simp [typeSpec?, hsplit, hspecs]
  obtain rfl := Option.some.inj (hspec.symm.trans hfound)
  exact .split hsplit (.field hchange (by simp [hspecs]) hname hbody file.isLineEnding_lineEnding hparse)

theorem edited_of_insertType {type : NewType} {placement : Placement} {index position : Nat}
    (hchange : Change.addType type placement ∈ changes)
    (hinsert : file.insertType index type = .ok (edited, position)) : Edited changes file edited := by
  obtain ⟨new, hparse, rfl⟩ := insertType_cases hinsert
  exact .insert index (.type hchange file.isLineEnding_lineEnding hparse)

theorem edited_of_appendImport {change : Change} {path : Text} {localName : Option Text}
    (hchange : change ∈ changes) (himport : change.MayImport path localName)
    (happend : file.appendImport path localName = .ok edited) : Edited changes file edited := by
  have hnewline := file.isLineEnding_lineEnding
  obtain ⟨new, -, hparse, rfl⟩ | ⟨earlier, old, later, specs, layout, new, hsplit, -, hold, hkind, hparse, rfl⟩ :=
    appendImport_cases happend
  · exact .insert _ (.imports hchange himport hnewline hparse)
  · refine .split hsplit (.imports hchange himport hkind ?_ hnewline hparse)
    simpa [Declaration.isExtendable, Declaration.isImport, Declaration.imports, hkind] using hold

end SourceFile

/-- One edit for a change of a batch, as it is asked of the file. -/
inductive Stepped (changes : List Change) (file : SourceFile) : SourceFile → Prop where
  | field {name : Text} {field : NewField} {location : TypeLocation} {edited : SourceFile}
      (hchange : Change.addField name field ∈ changes) (hlocation : file.recordLocation? name = some location)
      (happend : file.appendField location field = .ok edited) : Stepped changes file edited
  | type {type : NewType} {placement : Placement} {edited : SourceFile} {position : Nat}
      (hchange : Change.addType type placement ∈ changes)
      (hinsert : file.insertType (file.resolve placement) type = .ok (edited, position)) :
      Stepped changes file edited
  | imports {change : Change} {path : Text} {localName : Option Text} {edited : SourceFile}
      (hchange : change ∈ changes) (himport : change.MayImport path localName)
      (happend : file.appendImport path localName = .ok edited) : Stepped changes file edited

theorem Stepped.edited {changes : List Change} {file edited : SourceFile} (hstepped : Stepped changes file edited) :
    Edited changes file edited := by
  cases hstepped with
  | field hchange hlocation happend => exact SourceFile.edited_of_appendField hchange hlocation happend
  | type hchange hinsert => exact SourceFile.edited_of_insertType hchange hinsert
  | imports hchange himport happend => exact SourceFile.edited_of_appendImport hchange himport happend

namespace SourceFile

variable {file edited : SourceFile} {changes : List Change}

theorem stepped_of_ensureImports {change : Change} {packages : List Text} (file : SourceFile)
    (hchange : change ∈ changes) (hpackages : ∀ package ∈ packages, change.MayImport package none) :
    ReflTransGen (Stepped changes) file (file.ensureImports packages).state := by
  induction packages generalizing file with
  | nil => exact .refl
  | cons package others ih =>
      obtain ⟨hpackage, hothers⟩ := List.forall_mem_cons.mp hpackages
      unfold ensureImports
      split
      · exact ih file hothers
      · split
        · rename_i next happend
          exact .head (.imports hchange hpackage happend) (ih next hothers)
        · exact .refl

end SourceFile

open SourceFile

theorem Change.Edits.stepped {changes : List Change} {change : Change} {file next : SourceFile}
    (hedits : change.Edits file next) (hchange : change ∈ changes) : Stepped changes file next := by
  cases hedits with
  | field hlocation happend => exact .field hchange hlocation happend
  | type hinsert => exact .type hchange hinsert
  | imports happend => exact .imports hchange (.inl rfl) happend

/-- A change is a run of edits, also where it fails. -/
theorem Change.stepped_of_apply {changes : List Change} {change : Change} (file : SourceFile)
    (hchange : change ∈ changes) : ReflTransGen (Stepped changes) file (change.apply file).state := by
  have hends := change.ends_apply file
  generalize change.apply file = attempt at hends ⊢
  cases hends with
  | present | missing | refused => exact .refl
  | edited _ hedits =>
      rw [Attempt.state_andThen_ok]
      exact .head (hedits.stepped hchange)
        (stepped_of_ensureImports _ hchange fun package hpackage => .inr ⟨hpackage, rfl⟩)

theorem Leads.stepped {file final : SourceFile} {changes others : List Change} (hleads : Leads file others final)
    (hothers : ∀ change ∈ others, change ∈ changes) : ReflTransGen (Stepped changes) file final := by
  induction hleads with
  | refl => exact .refl
  | @step file _ _ _ _ _ happly hrest ih =>
      obtain ⟨hchange, hothers⟩ := List.forall_mem_cons.mp hothers
      have hstepped := Change.stepped_of_apply file hchange
      rw [happly] at hstepped
      exact hstepped.trans (ih hothers)

theorem Leads.edited {file final : SourceFile} {changes : List Change} (hleads : Leads file changes final) :
    ReflTransGen (Edited changes) file final :=
  ReflTransGen.mono (fun _ _ => Stepped.edited) _ _ (hleads.stepped fun _ hchange => hchange)

end GoGraft
