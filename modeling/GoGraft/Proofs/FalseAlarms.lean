import GoGraft.Proofs.Preflight
import GoGraft.Proofs.Previews

/-!
# Targets that are overlooked beforehand

A batch that can be carried out has a struct type for every field when its turn comes. The file had this type, or a
change before declared it and its declaration was read as that of a struct type. The check beforehand goes by the
request instead: a type that is declared over another type does not count, even if that other type is spelled as a
struct type. So a target is overlooked exactly when the file has no type of its name and no struct type of that name
was requested before.
-/

namespace GoGraft

theorem Leads.split {file final : SourceFile} {before others : List Change}
    (hleads : Leads file (before ++ others) final) :
    ∃ current, Leads file before current ∧ Leads current others final := by
  induction before generalizing file with
  | nil => exact ⟨file, .refl file, hleads⟩
  | cons change before ih =>
      cases hleads with
      | step happly hrest =>
          obtain ⟨current, hbefore, hothers⟩ := ih hrest
          exact ⟨current, .step happly hbefore, hothers⟩

namespace SourceFile

variable {file edited : SourceFile} {name : Text}

/-- A struct type was one before a change, unless its name had no meaning and the change declares it. -/
theorem record_before_apply {change : Change} {outcome : Outcome} {fields : List Field} (hread : file.IsRead)
    (hnamed : change.IsNamed) (hcontained : change.isContained) (happly : change.apply file = ⟨edited, .ok outcome⟩)
    (htype : edited.type? name = some (some fields)) :
    (∃ old, file.type? name = some (some old)) ∨ file.type? name = none ∧
      ∃ type placement, change = .addType type placement ∧ type.name = name ∧ type.IsStruct := by
  obtain ⟨-, hkeeps, hfresh⟩ := change.keeps_of_apply hread hnamed hcontained happly
  cases hold : file.type? name with
  | none =>
      by_cases hdeclared : ∃ type placement, change = .addType type placement ∧ type.name = name
      · obtain ⟨type, placement, rfl, rfl⟩ := hdeclared
        obtain ⟨-, -, hadds⟩ := type?_of_addType hread hnamed happly
        obtain ⟨made, hmade, -, hstruct⟩ := hadds hold
        obtain rfl := Option.some.inj (hmade.symm.trans htype)
        exact .inr ⟨rfl, type, placement, rfl, rfl, hstruct rfl⟩
      · have hnone := hfresh name hold fun type placement hchange hname =>
          hdeclared ⟨type, placement, hchange, hname⟩
        rw [hnone] at htype
        cases htype
  | some made =>
      cases made with
      | none =>
          rw [hkeeps.others hold] at htype
          cases htype
      | some old => exact .inl ⟨old, rfl⟩

theorem record_before_leads {changes : List Change} {fields : List Field} (hleads : Leads file changes edited)
    (hread : file.IsRead) (hchanges : ∀ change ∈ changes, change.IsNamed ∧ change.isContained)
    (htype : edited.type? name = some (some fields)) :
    (∃ old, file.type? name = some (some old)) ∨ file.type? name = none ∧
      ∃ type placement, Change.addType type placement ∈ changes ∧ type.name = name ∧ type.IsStruct := by
  induction hleads with
  | refl file => exact .inl ⟨fields, htype⟩
  | @step file next final change others outcome happly _ ih =>
      obtain ⟨⟨hnamed, hcontained⟩, hothers⟩ := List.forall_mem_cons.mp hchanges
      obtain ⟨hnext, hkeeps, -⟩ := change.keeps_of_apply hread hnamed hcontained happly
      obtain ⟨middle, hmiddle⟩ | ⟨hnone, type, placement, hmem, hdeclares⟩ := ih hnext hothers htype
      · obtain hold | ⟨hnone, type, placement, rfl, hdeclares⟩ :=
          record_before_apply hread hnamed hcontained happly hmiddle
        · exact .inl hold
        · exact .inr ⟨hnone, type, placement, List.mem_cons_self, hdeclares⟩
      · exact .inr ⟨hkeeps.none_before hnone, type, placement, List.mem_cons_of_mem _ hmem, hdeclares⟩

theorem preflight_of_found {declared : List Text} {changes : List Change}
    (hfound : ∀ before name field others, changes = before ++ .addField name field :: others →
      name ∈ declared ∨ (∃ type placement, Change.addType type placement ∈ before ∧ type.isRecord ∧ type.name = name) ∨
        (file.recordLocation? name).isSome) :
    file.preflight declared changes = .ok () := by
  induction changes generalizing declared with
  | nil => rfl
  | cons change changes ih =>
      have hlater : ∀ before name field others, changes = before ++ .addField name field :: others →
          name ∈ declared ∨ (∃ type placement, Change.addType type placement ∈ change :: before ∧ type.isRecord ∧
            type.name = name) ∨ (file.recordLocation? name).isSome := by
        intro before name field others hsplit
        exact hfound (change :: before) name field others (by rw [hsplit, List.cons_append])
      cases change with
      | addField record field =>
          have hhere : declared.contains record || (file.recordLocation? record).isSome := by
            simpa using hfound [] record field changes rfl
          rw [preflight, if_pos hhere]
          exact ih (by simpa using hlater)
      | addType type placement =>
          rw [preflight_addType]
          apply ih
          intro before name field others hsplit
          obtain hmem | ⟨other, place, hmem, hother⟩ | hlocation := hlater before name field others hsplit
          · exact .inl (mem_declared_iff.mpr (.inr hmem))
          · obtain hhead | hmem := List.mem_cons.mp hmem
            · obtain ⟨rfl, -⟩ := Change.addType.inj hhead
              exact .inl (mem_declared_iff.mpr (.inl hother))
            · exact .inr (.inl ⟨other, place, hmem, hother⟩)
          · exact .inr (.inr hlocation)
      | addImport path localName => exact ih (by simpa using hlater)

theorem record_of_addField {record : Text} {field : NewField} {outcome : Outcome}
    (hadd : file.addField record field = ⟨edited, .ok outcome⟩) :
    ∃ fields, file.type? record = some (some fields) := by
  apply (file.isSome_recordLocation?_iff record).mp
  obtain ⟨hpresent, -⟩ | ⟨-, -, next, ⟨hlocation, -⟩, -⟩ := @Change.apply_eq_ok (.addField record field) _ _ _ hadd
  · obtain ⟨found, hfound, -⟩ := (Option.any_eq_true ..).mp hpresent
    obtain ⟨location, hlocation, -⟩ := Option.bind_eq_some_iff.mp hfound
    rw [hlocation]
    rfl
  · rw [hlocation]
    rfl

end SourceFile

namespace Operation

variable {operation : Operation} {refusals : Refusals} {store : Store} {session : Session} {changes : List Change}
  {execution : Execution}

theorem leads_of_execute (hexecute : (operation.execute refusals store).result = .ok execution)
    (hchanges : operation.changes = .ok changes)
    (hload : Session.load store operation.path operation.settings = .ok session) :
    ∃ final, Leads session.file changes final := by
  have hends := operation.ends_execute refusals store
  generalize operation.execute refusals store = attempt at hends hexecute
  cases hends with
  | unprepared | unapplied | unwritten => cases hexecute
  | @done _ final _ _ _ hprepare hall =>
      obtain rfl := Except.ok.inj (hprepare.symm.trans (prepare_of_load hchanges hload))
      exact ⟨final, leads_of_performAll (SourceFile.applyAll_eq_ok hall)⟩

theorem validate_eq (hchanges : operation.changes = .ok changes)
    (hload : Session.load store operation.path operation.settings = .ok session) :
    operation.validate store false = session.file.preflight [] changes := by
  unfold validate
  rw [hchanges, hload]
  rfl

/-- Where a struct type comes from that a batch adds a field to: it is a struct type of the file, or the file has no
type of its name and a change before declares it. -/
theorem exists_target {before others : List Change} {name : Text} {field : NewField}
    (hexecute : (operation.execute refusals store).result = .ok execution)
    (hchanges : operation.changes = .ok (before ++ .addField name field :: others))
    (hload : Session.load store operation.path operation.settings = .ok session)
    (hcontained : ∀ change ∈ before, change.isContained) :
    (session.file.recordLocation? name).isSome ∨ ¬ session.file.hasType name ∧
      ∃ type placement, Change.addType type placement ∈ before ∧ type.name = name ∧ type.IsStruct := by
  obtain ⟨location, content, mode, -, -, -, hparse, -⟩ := Session.load_eq_ok hload
  obtain ⟨final, hleads⟩ := leads_of_execute hexecute hchanges hload
  obtain ⟨current, hbefore, hrest⟩ := hleads.split
  have hnamed := isNamed_of_changes hchanges
  cases hrest with
  | step happly _ =>
      obtain ⟨fields, htype⟩ := SourceFile.record_of_addField happly
      obtain hfound | ⟨hnone, hdeclared⟩ := SourceFile.record_before_leads hbefore (SourceFile.isRead_of_parse hparse)
        (fun change hchange => ⟨hnamed change (List.mem_append_left _ hchange), hcontained change hchange⟩) htype
      · exact .inl ((session.file.isSome_recordLocation?_iff name).mpr hfound)
      · refine .inr ⟨?_, hdeclared⟩
        rw [SourceFile.hasType_iff, hnone]
        exact Bool.false_ne_true

/-- A batch that can be carried out passes the check beforehand if and only if every target is a type of the file or
was requested before as a struct type. In particular it passes if every declared type that is read as a struct type was
requested as one. -/
theorem validate_of_execute (hexecute : (operation.execute refusals store).result = .ok execution)
    (hchanges : operation.changes = .ok changes)
    (hload : Session.load store operation.path operation.settings = .ok session)
    (hcontained : ∀ change ∈ changes, change.isContained) :
    (operation.validate store false = .ok () ↔
      ∀ before name field others, changes = before ++ .addField name field :: others →
        session.file.hasType name ∨
          ∃ type placement, Change.addType type placement ∈ before ∧ type.isRecord ∧ type.name = name) ∧
      ((∀ type placement, Change.addType type placement ∈ changes → type.IsStruct → type.isRecord) →
        operation.validate store false = .ok ()) := by
  have hiff : operation.validate store false = .ok () ↔
      ∀ before name field others, changes = before ++ .addField name field :: others →
        session.file.hasType name ∨
          ∃ type placement, Change.addType type placement ∈ before ∧ type.isRecord ∧ type.name = name := by
    rw [validate_eq hchanges hload]
    constructor
    · rintro hpreflight before name field others rfl
      obtain hnil | hdeclared | hlocation := SourceFile.preflight_eq_ok hpreflight
      · cases hnil
      · exact .inr hdeclared
      · exact .inl (SourceFile.hasType_of_recordLocation? hlocation)
    · intro hforeseen
      apply SourceFile.preflight_of_found
      rintro before name field others rfl
      obtain hpresent | hdeclared := hforeseen before name field others rfl
      · obtain hlocation | ⟨habsent, -⟩ := exists_target hexecute hchanges hload fun change hchange =>
          hcontained change (List.mem_append_left _ hchange)
        · exact .inr (.inr hlocation)
        · exact absurd hpresent habsent
      · exact .inr (.inl hdeclared)
  refine ⟨hiff, ?_⟩
  intro hrequested
  apply hiff.mpr
  rintro before name field others rfl
  obtain hlocation | ⟨-, type, placement, hmem, hname, hstruct⟩ := exists_target hexecute hchanges hload
    fun change hchange => hcontained change (List.mem_append_left _ hchange)
  · exact .inl (SourceFile.hasType_of_recordLocation? hlocation)
  · exact .inr ⟨type, placement, hmem, hrequested type placement (List.mem_append_left _ hmem) hstruct, hname⟩

/-- A struct type that is requested as such is found beforehand. One that is requested as a type over the text of a
struct type is not, and gets its field all the same. -/
theorem validate_of_execute_struct :
    let operation (underlying : Option Text) : Operation :=
      ⟨"a.go".toList, [.addType ⟨['A'], none, [], underlying, false, .last⟩,
        .addField ['A'] ⟨['X'], "int".toList, none, none⟩], .standard⟩
    let store : Store := ⟨[(["a.go".toList], .file (Utf8.encode "package a\n".toList) 0o644)]⟩
    (∃ execution, ((operation none).execute noRefusals store).result = .ok execution) ∧
      (operation none).validate store false = .ok () ∧
      (∃ execution, ((operation (some "struct\x7b\x7d".toList)).execute noRefusals store).result = .ok execution) ∧
      (operation (some "struct\x7b\x7d".toList)).validate store false ≠ .ok () := by
  intro operation store
  let field : NewField := ⟨['X'], .verbatim "int".toList, none, none⟩
  let changes (body : NewBody) : List Change := [.addType ⟨['A'], none, body⟩ .last, .addField ['A'] field]
  let spelled : Text := "struct\x7b\x7d".toList
  have hload : ((Session.load store "a.go".toList .standard).toOption.any fun session =>
      !session.file.hasType ['A']) = true := by
    decide
  obtain ⟨session, hload, habsent⟩ := (Option.any_eq_true ..).mp hload
  have hrecord : ((operation none).execute noRefusals store).result.toOption.isSome := by decide
  have hdefined : ((operation (some spelled)).execute noRefusals store).result.toOption.isSome := by decide
  obtain ⟨made, hmade⟩ := Option.isSome_iff_exists.mp hrecord
  obtain ⟨done, hdone⟩ := Option.isSome_iff_exists.mp hdefined
  have hfirst : (operation none).changes = .ok (changes (.record [])) := eq_ok_of_toOption (by decide)
  have hsecond : (operation (some spelled)).changes = .ok (changes (.defined (.verbatim spelled))) :=
    eq_ok_of_toOption (by decide)
  refine ⟨⟨made, eq_ok_of_toOption hmade⟩, ?_, ⟨done, eq_ok_of_toOption hdone⟩, ?_⟩
  · apply (validate_of_execute (eq_ok_of_toOption hmade) hfirst (eq_ok_of_toOption hload)
      (List.all_eq_true.mp (by decide))).2
    intro type placement hmem _
    obtain ⟨rfl, -⟩ : type = ⟨['A'], none, .record []⟩ ∧ placement = .last := by simpa [changes] using hmem
    rfl
  · intro hvalidate
    have hforeseen := (validate_of_execute (eq_ok_of_toOption hdone) hsecond (eq_ok_of_toOption hload)
      (List.all_eq_true.mp (by decide))).1.mp hvalidate [_] ['A'] field [] rfl
    obtain hpresent | ⟨type, placement, hmem, hisRecord, -⟩ := hforeseen
    · simp [hpresent] at habsent
    · obtain ⟨rfl, -⟩ : type = ⟨['A'], none, .defined (.verbatim spelled)⟩ ∧ placement = .last := by
        simpa using hmem
      cases hisRecord

end Operation

end GoGraft
