import GoGraft.Proofs.PlainFields

/-!
# What changes do to the types of a file

A file is looked at as a table from names to types. A change that adds a type adds one entry, one that adds a field
lengthens one entry, and every other entry stays as it is, so that what a name stands for is never lost.
-/

namespace GoGraft

/-- The declaration of the type is read as that of a struct type. -/
def NewType.IsStruct (type : NewType) : Prop :=
  ∃ newline declaration spec, IsLineEnding newline ∧
    Declaration.parse (newTypeText type newline) = .ok declaration ∧
    spec ∈ declaration.typeSpecs ∧ spec.record?.isSome

namespace SourceFile

variable {file edited : SourceFile} {outcome : Outcome}

/-- What a name stands for among the types of a file: nothing, a type that is no struct type, or a struct type with its
fields. -/
def type? (file : SourceFile) (name : Text) : Option (Option (List Field)) :=
  (file.allTypeSpecs.find? (·.name = name)).map fun spec => spec.record?.map Record.fields

theorem type?_eq (file : SourceFile) (name : Text) :
    file.type? name = ((file.allTypeSpecs.map TypeSpec.summary).find? (·.1 = name)).map Prod.snd := by
  rw [List.find?_map, Option.map_map]
  rfl

theorem hasType_iff (file : SourceFile) (name : Text) : file.hasType name = (file.type? name).isSome := by
  rw [hasType_eq, type?, Option.isSome_map, List.isSome_find?]

theorem record?_fields (file : SourceFile) (name : Text) :
    (file.record? name).map Record.fields = (file.type? name).join := by
  rw [record?_eq, type?]
  cases file.allTypeSpecs.find? (·.name = name) <;> rfl

theorem isSome_recordLocation? (file : SourceFile) (name : Text) :
    (file.recordLocation? name).isSome = (file.record? name).isSome := by
  unfold record? recordLocation?
  cases file.typeLocation? name with
  | none => rfl
  | some location =>
      cases hspec : file.typeSpec? location with
      | none => simp [hspec]
      | some spec => cases hrecord : spec.record? <;> simp [hspec, hrecord]

theorem isSome_recordLocation?_iff (file : SourceFile) (name : Text) :
    (file.recordLocation? name).isSome ↔ ∃ fields, file.type? name = some (some fields) := by
  rw [isSome_recordLocation?, ← @Option.isSome_map _ _ Record.fields, record?_fields, Option.isSome_iff_exists]
  simp only [Option.join_eq_some_iff]

theorem hasType_of_recordLocation? {file : SourceFile} {name : Text} (hlocation : (file.recordLocation? name).isSome) :
    file.hasType name := by
  obtain ⟨fields, htype⟩ := (file.isSome_recordLocation?_iff name).mp hlocation
  rw [hasType_iff, htype]
  rfl

section Entries

variable {name key : Text} {value : Option (List Field)} {before after : List (Text × Option (List Field))}

theorem find?_entry (hbefore : ∀ other ∈ before, other.1 ≠ name) :
    (before ++ (name, value) :: after).find? (·.1 = name) = some (name, value) := by
  rw [List.find?_append, List.find?_eq_none.mpr (by simpa using hbefore), Option.none_or,
    List.find?_cons_of_pos (by simp)]

theorem find?_of_ne (hname : name ≠ key) :
    (before ++ (key, value) :: after).find? (·.1 = name) = (before ++ after).find? (·.1 = name) := by
  rw [List.find?_append, List.find?_cons_of_neg (by simpa using Ne.symm hname), List.find?_append]

end Entries

/-- A field that is added lengthens the entry of its struct type by the fields that its line is read as. -/
theorem type?_of_appendField {record : Text} {field : NewField} {location : TypeLocation} {fields : List Field}
    (hread : file.IsRead) (hname : isIdentifier field.name)
    (hfields : readFields (field.line file.lineEnding) = some fields)
    (hlocation : file.recordLocation? record = some location) (happend : file.appendField location field = .ok edited) :
    edited.IsRead ∧ (∀ name, name ≠ record → edited.type? name = file.type? name) ∧
      ∃ old, file.type? record = some (some old) ∧ edited.type? record = some (some (old ++ fields)) := by
  obtain ⟨earlier, old, later, before, spec, others, found, new, hsplit, hspecs, rfl, hbody, hbefore, hparse, rfl⟩ :=
    appendField_eq_ok hlocation happend
  obtain ⟨gap, head, front, body, white, close, trivia, after, tail, inside, bottom, final, hrecord⟩ :=
    (hread old (by simp [hsplit])).exists_hasRecord hspecs hbody
  have hsummaries := hrecord.summaries_of_readFields hname hfields file.isLineEnding_lineEnding hparse
  have hsummary : spec.summary = (spec.name, some found.fields) := by
    rw [TypeSpec.summary, TypeSpec.record?, hbody]
    rfl
  have hold : file.allTypeSpecs.map TypeSpec.summary =
      (earlier.flatMap Declaration.typeSpecs ++ before).map TypeSpec.summary ++ (spec.name, some found.fields) ::
        (others ++ later.flatMap Declaration.typeSpecs).map TypeSpec.summary := by
    rw [allTypeSpecs, hsplit, ← hsummary]
    simp [hspecs]
  have hnew : (SourceFile.mk file.header file.package (earlier ++ new :: later) file.trailer).allTypeSpecs.map
      TypeSpec.summary = (earlier.flatMap Declaration.typeSpecs ++ before).map TypeSpec.summary ++
        (spec.name, some (found.fields ++ fields)) ::
          (others ++ later.flatMap Declaration.typeSpecs).map TypeSpec.summary := by
    rw [allTypeSpecs, List.flatMap_append, List.flatMap_cons, List.map_append, List.map_append, hsummaries]
    simp
  have hfirst : ∀ other ∈ (earlier.flatMap Declaration.typeSpecs ++ before).map TypeSpec.summary,
      other.1 ≠ spec.name := by
    intro other hother
    obtain ⟨same, hsame, rfl⟩ := List.mem_map.mp hother
    exact hbefore same hsame
  refine ⟨isRead_split hread hsplit (Declaration.isRead_of_parse hparse).1, ?_, found.fields, ?_, ?_⟩
  · intro name hne
    rw [type?_eq, type?_eq, hold, hnew, find?_of_ne hne, find?_of_ne hne]
  · rw [type?_eq, hold, find?_entry hfirst]
    rfl
  · rw [type?_eq, hnew, find?_entry hfirst]
    rfl

theorem type?_of_allTypeSpecs {name : Text} (htypes : edited.allTypeSpecs = file.allTypeSpecs) :
    edited.type? name = file.type? name := by
  rw [type?, htypes, type?]

theorem type?_of_addField {record : Text} {field : NewField} (hread : file.IsRead) (hname : isIdentifier field.name)
    (hcontained : field.isContained) (hadd : file.addField record field = ⟨edited, .ok outcome⟩) :
    edited.IsRead ∧ (∀ name, name ≠ record → edited.type? name = file.type? name) ∧
      ∃ fields new, file.type? record = some (some fields) ∧ edited.type? record = some (some (fields ++ new)) ∧
        (field.isWhole → field.name ∈ (fields ++ new).map Field.name) := by
  obtain ⟨hpresent, rfl, -⟩ | ⟨-, -, next, ⟨hlocation, happend⟩, hensure⟩ :=
    @Change.apply_eq_ok (.addField record field) _ _ _ hadd
  · obtain ⟨found, hfound, hfield⟩ := (Option.any_eq_true ..).mp hpresent
    have htype : file.type? record = some (some found.fields) := by
      apply Option.join_eq_some_iff.mp
      rw [← record?_fields, hfound]
      rfl
    refine ⟨hread, fun _ _ => rfl, found.fields, [], htype, by rw [List.append_nil, htype], fun _ => ?_⟩
    obtain ⟨same, hsame, hsameName⟩ := List.any_eq_true.mp hfield
    rw [List.append_nil, ← of_decide_eq_true hsameName]
    exact List.mem_map_of_mem hsame
  obtain ⟨new, hfields, hnames⟩ := field.exists_readFields hcontained file.isLineEnding_lineEnding
  obtain ⟨hnext, hothers, fields, hold, hnew⟩ := type?_of_appendField hread hname hfields hlocation happend
  obtain ⟨hedited, htypes⟩ := ensureImports_types hnext hensure
  refine ⟨hedited, ?_, fields, new, hold, ?_, ?_⟩
  · intro name hne
    rw [type?_of_allTypeSpecs htypes, hothers name hne]
  · rw [type?_of_allTypeSpecs htypes, hnew]
  · intro hwhole
    rw [List.map_append]
    exact List.mem_append_right _ (hnames hwhole)

theorem type?_of_addType {type : NewType} {placement : Placement} (hread : file.IsRead)
    (hname : isIdentifier type.name) (hadd : file.addType type placement = ⟨edited, .ok outcome⟩) :
    edited.IsRead ∧ (∀ name, name ≠ type.name ∨ (file.type? name).isSome → edited.type? name = file.type? name) ∧
      (file.type? type.name = none →
        ∃ made, edited.type? type.name = some made ∧ (type.isRecord → made.isSome) ∧
          (made.isSome → type.IsStruct)) := by
  obtain ⟨hpresent, rfl, -⟩ | ⟨hpresent, -, next, hedits, hensure⟩ :=
    @Change.apply_eq_ok (.addType type placement) _ _ _ hadd
  · refine ⟨hread, fun _ _ => rfl, ?_⟩
    intro hnone
    rw [Change.isPresent, hasType_iff, hnone] at hpresent
    cases hpresent
  · rw [Change.isPresent, hasType_iff, Bool.not_eq_true, Option.isSome_eq_false_iff, Option.isNone_iff_eq_none] at hpresent
    obtain ⟨new, hparse, rfl⟩ : ∃ new, Declaration.parse (newTypeText type file.lineEnding) = .ok new ∧
        next = file.insert (file.resolve placement) new := by
      cases hedits with
      | type hinsert => exact insertType_cases hinsert
    obtain ⟨hedited, htypes⟩ :=
      ensureImports_types (isRead_insert _ hread (Declaration.isRead_of_parse hparse).1) hensure
    obtain ⟨spec, hspecs, hspecName, hrecord⟩ := typeSpecs_of_newType hname file.isLineEnding_lineEnding hparse
    -- The table of the new file is the old one with one entry put in between.
    have hold : file.allTypeSpecs.map TypeSpec.summary =
        ((file.declarations.take (file.resolve placement)).flatMap Declaration.typeSpecs).map TypeSpec.summary ++
        ((file.declarations.drop (file.resolve placement)).flatMap Declaration.typeSpecs).map TypeSpec.summary := by
      rw [allTypeSpecs, ← List.map_append, ← List.flatMap_append, List.take_append_drop]
    have hnew : edited.allTypeSpecs.map TypeSpec.summary =
        ((file.declarations.take (file.resolve placement)).flatMap Declaration.typeSpecs).map TypeSpec.summary ++
        (type.name, spec.record?.map Record.fields) ::
        ((file.declarations.drop (file.resolve placement)).flatMap Declaration.typeSpecs).map TypeSpec.summary := by
      rw [htypes, allTypeSpecs_insert, hspecs, List.map_append, List.map_append, ← hspecName]
      rfl
    refine ⟨hedited, ?_, fun _ => ⟨spec.record?.map Record.fields, ?_, ?_, ?_⟩⟩
    · intro name hkept
      have hne : name ≠ type.name := by
        rintro rfl
        obtain hne | hsome := hkept
        · exact hne rfl
        · rw [hpresent] at hsome
          cases hsome
      rw [type?_eq, type?_eq, hold, hnew, find?_of_ne hne]
    · rw [type?_eq, hnew, find?_entry]
      · rfl
      · intro other hother heq
        rw [type?_eq, hold, Option.map_eq_none_iff, List.find?_eq_none] at hpresent
        exact hpresent other (List.mem_append_left _ hother) (decide_eq_true heq)
    · intro hisRecord
      rw [Option.isSome_map]
      exact hrecord hisRecord
    · intro hstruct
      rw [Option.isSome_map] at hstruct
      exact ⟨file.lineEnding, new, spec, file.isLineEnding_lineEnding, hparse, by simp [hspecs], hstruct⟩

theorem type?_of_addImport {path : Text} {localName : Option Text} (hread : file.IsRead)
    (hadd : file.addImport path localName = ⟨edited, .ok outcome⟩) :
    edited.IsRead ∧ ∀ name, edited.type? name = file.type? name := by
  obtain ⟨-, rfl, -⟩ | ⟨-, -, next, hedits, hensure⟩ := @Change.apply_eq_ok (.addImport path localName) _ _ _ hadd
  · exact ⟨hread, fun _ => rfl⟩
  · obtain rfl := (Attempt.mk.inj hensure).1
    cases hedits with
    | imports happend =>
        obtain ⟨hnext, htypes⟩ := appendImport_types hread happend
        exact ⟨hnext, fun _ => type?_of_allTypeSpecs htypes⟩

end SourceFile

/-- The names that a change brings are names of the language. -/
def Change.IsNamed : Change → Prop
  | .addField _ field => isIdentifier field.name
  | .addType type _ => isIdentifier type.name
  | .addImport path localName =>
      path ≠ [] ∧ isImportPath path ∧ ∀ name ∈ localName, name = ['.'] ∨ isIdentifier name

theorem Request.isNamed_of_toChange {request : Request} {change : Change} (hchange : request.toChange = .ok change) :
    change.IsNamed := by
  cases request with
  | addField record field =>
      obtain ⟨made, rfl, hname, -⟩ := toChange_addField hchange
      exact hname
  | addType type =>
      obtain ⟨made, placement, rfl, -, hname⟩ := toChange_addType hchange
      exact hname
  | addImport path localName =>
      have hgiven : path ≠ [] := by
        obtain ⟨_, hrequire, -⟩ := bind_eq_ok.mp hchange
        rintro rfl
        cases hrequire
      obtain ⟨rfl, hnames⟩ := toChange_addImport hchange
      exact ⟨hgiven, hnames⟩

/-- What the change adds to a struct type is fields. -/
def Change.isWhole : Change → Bool
  | .addField _ field => field.isWhole
  | _ => true

/-- What the change adds to a struct type stays between its braces. -/
def Change.isContained : Change → Bool
  | .addField _ field => field.isContained
  | _ => true

theorem Change.isContained_of_isWhole {change : Change} (hwhole : change.isWhole) : change.isContained := by
  cases change with
  | addField record field => exact NewField.isContained_of_isWhole hwhole
  | addType | addImport => rfl

/-- Every type of the one file is in the other, and struct types have the fields that they had. -/
structure SourceFile.Keeps (file edited : SourceFile) : Prop where
  records {name : Text} {fields : List Field} (htype : file.type? name = some (some fields)) :
    ∃ new, edited.type? name = some (some (fields ++ new))
  others {name : Text} (htype : file.type? name = some none) : edited.type? name = some none

namespace SourceFile.Keeps

variable {file edited final : SourceFile}

theorem of_eq (hsame : ∀ name, (file.type? name).isSome → edited.type? name = file.type? name) :
    file.Keeps edited where
  records {name fields} htype := ⟨[], by rw [hsame name (by simp [htype]), htype, List.append_nil]⟩
  others {name} htype := by rw [hsame name (by simp [htype]), htype]

theorem trans (hfirst : file.Keeps edited) (hsecond : edited.Keeps final) : file.Keeps final where
  records {name fields} htype := by
    obtain ⟨new, hedited⟩ := hfirst.records htype
    obtain ⟨more, hfinal⟩ := hsecond.records hedited
    exact ⟨new ++ more, by rw [hfinal, List.append_assoc]⟩
  others {name} htype := hsecond.others (hfirst.others htype)

theorem none_before (hkeeps : file.Keeps edited) {name : Text} (hnone : edited.type? name = none) :
    file.type? name = none := by
  cases htype : file.type? name with
  | none => rfl
  | some made =>
      cases made with
      | none => cases hnone.symm.trans (hkeeps.others htype)
      | some fields =>
          obtain ⟨new, hnew⟩ := hkeeps.records htype
          cases hnone.symm.trans hnew

end SourceFile.Keeps

/-- A change keeps all types, and a name gets a meaning only from a change that adds a type of this name. -/
theorem Change.keeps_of_apply {file edited : SourceFile} {change : Change} {outcome : Outcome} (hread : file.IsRead)
    (hnamed : change.IsNamed) (hcontained : change.isContained) (happly : change.apply file = ⟨edited, .ok outcome⟩) :
    edited.IsRead ∧ file.Keeps edited ∧ ∀ name, file.type? name = none →
      (∀ type placement, change = .addType type placement → type.name ≠ name) → edited.type? name = none := by
  cases change with
  | addField record field =>
      obtain ⟨hedited, hothers, fields, new, hold, hnew, -⟩ :=
        SourceFile.type?_of_addField hread hnamed hcontained happly
      refine ⟨hedited, ⟨?_, ?_⟩, ?_⟩
      · intro name fields' htype
        by_cases hname : name = record
        · subst hname
          obtain rfl := Option.some.inj (Option.some.inj (hold.symm.trans htype))
          exact ⟨new, hnew⟩
        · exact ⟨[], by rw [hothers name hname, htype, List.append_nil]⟩
      · intro name htype
        by_cases hname : name = record
        · subst hname
          cases hold.symm.trans htype
        · rw [hothers name hname, htype]
      · intro name hnone _
        by_cases hname : name = record
        · subst hname
          cases hold.symm.trans hnone
        · rw [hothers name hname, hnone]
  | addType type placement =>
      obtain ⟨hedited, hothers, -⟩ := SourceFile.type?_of_addType hread hnamed happly
      refine ⟨hedited, .of_eq fun name hsome => hothers name (.inr hsome), ?_⟩
      intro name hnone hother
      rw [hothers name (.inl (Ne.symm (hother type placement rfl))), hnone]
  | addImport path localName =>
      obtain ⟨hedited, hsame⟩ := SourceFile.type?_of_addImport hread happly
      refine ⟨hedited, .of_eq fun name _ => hsame name, ?_⟩
      intro name hnone _
      rw [hsame name, hnone]

end GoGraft
