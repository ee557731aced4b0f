import GoGraft.File.Index
import GoGraft.Proofs.FileEdits

/-!
# Runs of edits

A file is read, and then edits are asked of it, in any order and any number; those that fail change nothing. Each edit
that succeeds reads one text as a declaration, puts that declaration among the others or in the place of one, and makes
the tables anew. So after every run each declaration is what its text is read as, and a name that is looked up in a
table is found where the declarations have it first.
-/

namespace GoGraft

theorem lookup_foldl_names (declarations : List Declaration) (start : Nat) (table : List (Text × Nat)) (name : Text) :
    ((declarations.zipIdx start).foldl (fun table (declaration, i) =>
        declaration.names.foldl (fun table name => enter table name i) table) table).lookup name =
      (table.lookup name).or ((declarations.findIdx? (name ∈ ·.names)).map (start + ·)) := by
  induction declarations generalizing start table with
  | nil => simp
  | cons declaration others ih =>
      have hnames := lookup_foldl_enter id (fun _ => start) declaration.names table name
      rw [List.zipIdx_cons, List.foldl_cons, ih, List.findIdx?_cons]
      simp only [id_eq] at hnames
      rw [hnames, Option.or_assoc]
      by_cases hmem : name ∈ declaration.names
      · have hfound : (declaration.names.find? fun other => other = name).isSome :=
          List.find?_isSome.mpr ⟨name, hmem, decide_eq_true rfl⟩
        obtain ⟨found, hfound⟩ := Option.isSome_iff_exists.mp hfound
        simp [hmem, hfound]
      · have hnone : (declaration.names.find? fun other => other = name) = none := by
          apply List.find?_eq_none.mpr
          rintro other hother heq
          exact hmem (of_decide_eq_true heq ▸ hother)
        rw [hnone, Option.map_none, Option.none_or, decide_eq_false hmem]
        cases others.findIdx? (name ∈ ·.names) <;> simp [Nat.add_assoc, Nat.add_comm 1]

theorem SourceFile.positionOf?_eq (file : SourceFile) (name : Text) :
    file.positionOf? name = file.declarations.findIdx? (name ∈ ·.names) := by
  rw [positionOf?, nameTable, lookup_foldl_names]
  simp

namespace IndexedFile

variable {indexed edited start : IndexedFile} {text : Text}

/-- What can be asked of a file. -/
inductive Edit where
  | appendField (location : TypeLocation) (field : NewField)
  | insertType (index : Nat) (type : NewType)
  | appendImport (path : Text) (localName : Option Text)
deriving DecidableEq, Repr

def Edit.perform (edit : Edit) (indexed : IndexedFile) : Attempt IndexedFile EditError Unit :=
  match edit with
  | .appendField location field => indexed.appendField location field
  | .insertType index type => (indexed.insertType index type).andThen fun indexed _ => .ok indexed ()
  | .appendImport path localName => indexed.appendImport path localName

/-- What there is after an edit has been asked for, whether it has succeeded or not. -/
def after (indexed : IndexedFile) (edit : Edit) : IndexedFile :=
  (edit.perform indexed).state

def run (indexed : IndexedFile) (edits : List Edit) : IndexedFile :=
  edits.foldl after indexed

/-- The tables are those of the declarations. -/
def IsCurrent (indexed : IndexedFile) : Prop :=
  indexed.types = indexed.file.typeTable ∧ indexed.names = indexed.file.nameTable

theorem isCurrent_reindex (indexed : IndexedFile) : indexed.reindex.IsCurrent :=
  ⟨rfl, rfl⟩

theorem parse_eq_ok (hparse : parse text = .ok indexed) :
    SourceFile.parse text = .ok indexed.file ∧ indexed.IsCurrent := by
  obtain ⟨file, hfile, hpure⟩ := bind_eq_ok.mp hparse
  obtain rfl := pure_eq_ok.mp hpure
  exact ⟨hfile, isCurrent_reindex _⟩

/-! ## One edit -/

/-- What an edit makes of the declarations of a file. -/
inductive Edit.Makes (file : SourceFile) : Edit → SourceFile → Prop where
  | appendField {location : TypeLocation} {field : NewField} {edited : SourceFile}
      (happend : file.appendField location field = .ok edited) : Makes file (.appendField location field) edited
  | insertType {index position : Nat} {type : NewType} {edited : SourceFile}
      (hinsert : file.insertType index type = .ok (edited, position)) : Makes file (.insertType index type) edited
  | appendImport {path : Text} {localName : Option Text} {edited : SourceFile}
      (happend : file.appendImport path localName = .ok edited) : Makes file (.appendImport path localName) edited

section Adopting

variable {α : Type} {made : Except EditError (SourceFile × α)}

theorem adopt_eq_ok {value : α} :
    indexed.adopt made = ⟨edited, .ok value⟩ ↔
      ∃ file, made = .ok (file, value) ∧ edited = ⟨file, file.typeTable, file.nameTable⟩ := by
  unfold adopt
  constructor
  · intro hadopt
    split at hadopt
    · rename_i file found
      obtain ⟨rfl, hvalue⟩ := Attempt.mk.inj hadopt
      obtain rfl := Except.ok.inj hvalue
      exact ⟨file, rfl, rfl⟩
    · cases hadopt
  · rintro ⟨file, rfl, rfl⟩
    rfl

theorem adopt_eq_error {error : EditError} (hadopt : indexed.adopt made = ⟨edited, .error error⟩) :
    edited = indexed := by
  unfold adopt at hadopt
  split at hadopt
  · cases hadopt
  · exact (Attempt.mk.inj hadopt).1.symm

end Adopting

/-- An edit that succeeds edits the declarations, and the tables follow. -/
theorem makes_of_perform {edit : Edit} (hperform : edit.perform indexed = ⟨edited, .ok ()⟩) :
    edit.Makes indexed.file edited.file ∧ edited.IsCurrent := by
  cases edit with
  | appendField location field =>
      obtain ⟨file, hmade, rfl⟩ := adopt_eq_ok.mp hperform
      obtain ⟨_, happend, hfile⟩ := map_eq_ok.mp hmade
      obtain ⟨rfl, -⟩ := Prod.mk.inj hfile
      exact ⟨.appendField happend, rfl, rfl⟩
  | insertType index type =>
      rw [Edit.perform] at hperform
      obtain ⟨next, position, hadopt, hdone⟩ := Attempt.andThen_eq_ok.mp hperform
      obtain ⟨rfl, -⟩ := Attempt.mk.inj hdone
      obtain ⟨file, hinsert, rfl⟩ := adopt_eq_ok.mp hadopt
      exact ⟨.insertType hinsert, rfl, rfl⟩
  | appendImport path localName =>
      obtain ⟨file, hmade, rfl⟩ := adopt_eq_ok.mp hperform
      obtain ⟨_, happend, hfile⟩ := map_eq_ok.mp hmade
      obtain ⟨rfl, -⟩ := Prod.mk.inj hfile
      exact ⟨.appendImport happend, rfl, rfl⟩

/-- An edit that fails leaves the declarations and the tables alone. -/
theorem perform_eq_error {edit : Edit} {error : EditError} (hperform : edit.perform indexed = ⟨edited, .error error⟩) :
    edited = indexed := by
  cases edit with
  | appendField | appendImport => exact adopt_eq_error hperform
  | insertType =>
      rw [Edit.perform] at hperform
      obtain hadopt | ⟨_, _, -, hdone⟩ := Attempt.andThen_eq_error.mp hperform
      · exact adopt_eq_error hadopt
      · cases hdone

/-- One declaration is read and put among the others, or in the place of one of them. -/
inductive Places (file : SourceFile) : SourceFile → Prop where
  | insert (index : Nat) {text : Text} {new : Declaration} (hparse : Declaration.parse text = .ok new) :
      Places file (file.insert index new)
  | replace {earlier later : List Declaration} {old new : Declaration} {text : Text}
      (hfile : file.declarations = earlier ++ old :: later) (hparse : Declaration.parse text = .ok new) :
      Places file { file with declarations := earlier ++ new :: later }

theorem Edit.Makes.places {edit : Edit} {file edited : SourceFile} (hmakes : edit.Makes file edited) :
    Places file edited := by
  cases hmakes with
  | appendField happend =>
      obtain ⟨earlier, old, later, _, _, _, _, new, hfile, -, -, -, hparse, rfl⟩ :=
        SourceFile.appendField_cases happend
      exact .replace hfile hparse
  | insertType hinsert =>
      obtain ⟨new, hparse, rfl⟩ := SourceFile.insertType_cases hinsert
      exact .insert _ hparse
  | appendImport happend =>
      obtain ⟨new, -, hparse, rfl⟩ | ⟨earlier, old, later, _, _, new, hfile, -, -, -, hparse, rfl⟩ :=
        SourceFile.appendImport_cases happend
      · exact .insert _ hparse
      · exact .replace hfile hparse

/-- An edit that succeeds places one declaration, and the tables follow. -/
theorem perform_eq_ok {edit : Edit} (hperform : edit.perform indexed = ⟨edited, .ok ()⟩) :
    Places indexed.file edited.file ∧ edited.IsCurrent := by
  obtain ⟨hmakes, hcurrent⟩ := makes_of_perform hperform
  exact ⟨hmakes.places, hcurrent⟩

theorem isRead_of_places {file edited : SourceFile} (hplaces : Places file edited) (hread : file.IsRead) :
    edited.IsRead := by
  cases hplaces with
  | insert index hparse => exact SourceFile.isRead_insert index hread (Declaration.isRead_of_parse hparse).1
  | replace hfile hparse => exact SourceFile.isRead_split hread hfile (Declaration.isRead_of_parse hparse).1

/-! ## Any number of edits -/

/-- A file whose declarations are what their texts are read as, with the tables of these declarations. -/
structure IsSound (indexed : IndexedFile) : Prop where
  read : indexed.file.IsRead
  current : indexed.IsCurrent

theorem isSound_of_parse (hparse : parse text = .ok indexed) : indexed.IsSound := by
  obtain ⟨hfile, hcurrent⟩ := parse_eq_ok hparse
  exact ⟨SourceFile.isRead_of_parse hfile, hcurrent⟩

theorem IsSound.after (hsound : indexed.IsSound) (edit : Edit) : (indexed.after edit).IsSound := by
  unfold IndexedFile.after
  generalize hperform : edit.perform indexed = attempt
  obtain ⟨edited, ⟨⟩ | ⟨⟩⟩ := attempt
  · obtain rfl := perform_eq_error hperform
    exact hsound
  · obtain ⟨hplaces, hcurrent⟩ := perform_eq_ok hperform
    exact ⟨isRead_of_places hplaces hsound.read, hcurrent⟩

theorem IsSound.run (hsound : indexed.IsSound) (edits : List Edit) : (indexed.run edits).IsSound := by
  induction edits generalizing indexed with
  | nil => exact hsound
  | cons edit edits ih => exact ih (hsound.after edit)

theorem isSound_of_run (hparse : parse text = .ok start) (edits : List Edit) : (start.run edits).IsSound :=
  (isSound_of_parse hparse).run edits

theorem IsCurrent.typeLocation?_eq (hcurrent : indexed.IsCurrent) (name : Text) :
    indexed.typeLocation? name = indexed.file.typeLocation? name := by
  rw [typeLocation?, hcurrent.1, SourceFile.typeLocation?]

theorem IsCurrent.positionOf?_eq (hcurrent : indexed.IsCurrent) (name : Text) :
    indexed.positionOf? name = indexed.file.positionOf? name := by
  rw [positionOf?, hcurrent.2, SourceFile.positionOf?]

/-- After any run of edits the tables agree with the declarations: a type is found where the first specification of its
name stands, and a bound name at the first declaration that binds it. -/
theorem lookups_of_run (hparse : parse text = .ok start) (edits : List Edit) (name : Text) :
    (start.run edits).typeLocation? name =
        ((start.run edits).file.typeSpecs.find? (·.2.name = name)).map Prod.fst ∧
      (start.run edits).positionOf? name =
        (start.run edits).file.declarations.findIdx? (name ∈ ·.names) := by
  have hcurrent := (isSound_of_run hparse edits).current
  constructor
  · rw [hcurrent.typeLocation?_eq, SourceFile.typeLocation?_eq]
  · rw [hcurrent.positionOf?_eq, SourceFile.positionOf?_eq]

-- The first edit finds no declaration. The second declares `B` before the group that has it, and the third writes a
-- field into that group, where the table no longer points.
theorem lookups_of_run_shadowed :
    let text := "package a\n\nvar x, y = 1, 2\n\ntype (\n\tA int\n\tB struct \x7b\n\t\x7d\n)\n\n".toList ++
      "func (b B) y() \x7b\n\x7d\n".toList
    let field : NewField := ⟨['F'], .verbatim "int".toList, none, none⟩
    let edits : List Edit :=
      [.appendField ⟨7, 0⟩ field, .insertType 0 (.record ['B']), .appendField ⟨2, 1⟩ field,
        .appendImport "fmt".toList none]
    ∃ start, parse text = .ok start ∧ start.after (.appendField ⟨7, 0⟩ field) = start ∧
      start.typeLocation? ['B'] = some ⟨1, 1⟩ ∧ (start.run edits).typeLocation? ['B'] = some ⟨1, 0⟩ ∧
      start.positionOf? ['y'] = some 0 ∧ (start.run edits).positionOf? ['y'] = some 2 := by
  repeat rw [String.toList_ofList]
  intro text field edits
  have hrun : (parse text).toOption.any fun start =>
      decide (start.after (.appendField ⟨7, 0⟩ field) = start) &&
        [(start, 1, 1, 0), (start.run edits, 1, 0, 2)].all fun (indexed, declaration, spec, position) =>
          decide ((indexed.file.typeSpecs.find? (·.2.name = ['B'])).map Prod.fst = some ⟨declaration, spec⟩) &&
            decide (indexed.file.declarations.findIdx? (['y'] ∈ ·.names) = some position) := by
    decide +kernel
  obtain ⟨start, hstart, hrun⟩ := (Option.any_eq_true ..).mp hrun
  simp only [List.all_cons, List.all_nil, Bool.and_true, Bool.and_eq_true, decide_eq_true_eq] at hrun
  obtain ⟨hfails, ⟨htype, hposition⟩, htype', hposition'⟩ := hrun
  have hparse := eq_ok_of_toOption hstart
  have hfirst (name : Text) := lookups_of_run hparse [] name
  have hlast (name : Text) := lookups_of_run hparse edits name
  exact ⟨start, hparse, hfails, (hfirst _).1.trans htype, (hlast _).1.trans htype', (hfirst _).2.trans hposition,
    (hlast _).2.trans hposition'⟩

end IndexedFile

end GoGraft
