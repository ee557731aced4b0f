import GoGraft.Proofs.TypeViews

/-!
# Targets that were found beforehand

The check before a batch follows it with the names of the struct types that it declares, and does not look at the file
again. It is right about every target when the first type of each of these names, in the file and then in the batch,
is a struct type. Then the table of types has a struct type for the target when its turn comes.
-/

namespace GoGraft

/-- The type that a change declares. -/
def Change.declaredType? : Change → Option NewType
  | .addType type _ => some type
  | _ => none

/-- Whether the first type of a name is a struct type: of the file or, if it has none, of those that changes declare. -/
def SourceFile.declaresRecord (file : SourceFile) (changes : List Change) (name : Text) : Bool :=
  if file.hasType name then
    (file.recordLocation? name).isSome
  else
    ((changes.filterMap Change.declaredType?).find? (·.name = name)).any NewType.isRecord

namespace SourceFile

variable {file edited : SourceFile} {name : Text}

theorem declaresRecord_of_some {fields : List Field} (changes : List Change)
    (htype : file.type? name = some (some fields)) : file.declaresRecord changes name := by
  have hlocation := (file.isSome_recordLocation?_iff name).mpr ⟨fields, htype⟩
  rw [declaresRecord, hasType_iff, htype]
  exact hlocation

theorem declaresRecord_of_none (changes : List Change) (htype : file.type? name = none) :
    file.declaresRecord changes name =
      ((changes.filterMap Change.declaredType?).find? (·.name = name)).any NewType.isRecord := by
  rw [declaresRecord, hasType_iff, htype]
  rfl

theorem type?_of_declaresRecord {changes : List Change} (hdeclares : file.declaresRecord changes name) :
    (∃ fields, file.type? name = some (some fields)) ∨ file.type? name = none := by
  unfold declaresRecord at hdeclares
  split at hdeclares
  · exact .inl ((file.isSome_recordLocation?_iff name).mp hdeclares)
  · rename_i hnone
    rw [hasType_iff] at hnone
    exact .inr (by simpa using hnone)

/-- A struct type that a batch declares, or finds, is still that after the first change. -/
theorem declaresRecord_of_apply {change : Change} {others : List Change} {outcome : Outcome} (hread : file.IsRead)
    (hnamed : change.IsNamed) (hcontained : change.isContained) (happly : change.apply file = ⟨edited, .ok outcome⟩)
    (hdeclares : file.declaresRecord (change :: others) name) : edited.declaresRecord others name := by
  obtain ⟨-, hkeeps, hfresh⟩ := change.keeps_of_apply hread hnamed hcontained happly
  obtain ⟨fields, htype⟩ | hnone := type?_of_declaresRecord hdeclares
  · obtain ⟨new, hnew⟩ := hkeeps.records htype
    exact declaresRecord_of_some others hnew
  · rw [declaresRecord_of_none _ hnone] at hdeclares
    by_cases hdeclared : ∃ type placement, change = .addType type placement ∧ type.name = name
    · obtain ⟨type, placement, rfl, rfl⟩ := hdeclared
      have hrecord : type.isRecord := by
        simpa [Change.declaredType?] using hdeclares
      obtain ⟨-, -, hadds⟩ := type?_of_addType hread hnamed happly
      obtain ⟨made, hmade, hisSome, -⟩ := hadds hnone
      obtain ⟨fields, rfl⟩ := Option.isSome_iff_exists.mp (hisSome hrecord)
      exact declaresRecord_of_some others hmade
    · have hother : ∀ type placement, change = .addType type placement → type.name ≠ name := by
        intro type placement hchange hname
        exact hdeclared ⟨type, placement, hchange, hname⟩
      rw [declaresRecord_of_none _ (hfresh name hnone hother)]
      cases change with
      | addType type placement =>
          have hne := hother type placement rfl
          simpa [Change.declaredType?, hne] using hdeclares
      | addField | addImport => exact hdeclares

theorem declaresRecord_of_leads {changes : List Change} (hleads : Leads file changes edited) (hread : file.IsRead)
    (hchanges : ∀ change ∈ changes, change.IsNamed ∧ change.isContained) (hdeclares : file.declaresRecord changes name) :
    (edited.recordLocation? name).isSome := by
  induction hleads with
  | refl file =>
      unfold declaresRecord at hdeclares
      split at hdeclares
      · exact hdeclares
      · cases hdeclares
  | @step file next final change others outcome happly _ ih =>
      obtain ⟨⟨hnamed, hcontained⟩, hothers⟩ := List.forall_mem_cons.mp hchanges
      exact ih (change.keeps_of_apply hread hnamed hcontained happly).1 hothers
        (declaresRecord_of_apply hread hnamed hcontained happly hdeclares)

theorem preflight_addType (declared : List Text) (type : NewType) (placement : Placement) (others : List Change) :
    file.preflight declared (.addType type placement :: others) =
      file.preflight (if type.isRecord then type.name :: declared else declared) others := by
  rw [preflight, NewType.isRecord]
  cases type.body <;> rfl

theorem mem_declared_iff {declared : List Text} {type : NewType} :
    name ∈ (if type.isRecord then type.name :: declared else declared) ↔
      type.isRecord ∧ type.name = name ∨ name ∈ declared := by
  by_cases hrecord : type.isRecord
  · simp [hrecord, eq_comm]
  · simp [hrecord]

/-- What the check says about a target: the batch declares a struct type of its name before, or the file has one. -/
theorem preflight_eq_ok {declared : List Text} {before others : List Change} {field : NewField}
    (hpreflight : file.preflight declared (before ++ .addField name field :: others) = .ok ()) :
    name ∈ declared ∨ (∃ type placement, Change.addType type placement ∈ before ∧ type.isRecord ∧ type.name = name) ∨
      (file.recordLocation? name).isSome := by
  induction before generalizing declared with
  | nil =>
      rw [List.nil_append, preflight] at hpreflight
      split at hpreflight
      · rename_i hfound
        rw [Bool.or_eq_true, List.contains_iff_mem] at hfound
        exact hfound.imp_right .inr
      · cases hpreflight
  | cons change before ih =>
      have hlift {declared : List Text} (hpreflight : file.preflight declared
          (before ++ .addField name field :: others) = .ok ()) :
          name ∈ declared ∨ (∃ type placement, Change.addType type placement ∈ change :: before ∧ type.isRecord ∧
            type.name = name) ∨ (file.recordLocation? name).isSome := by
        refine (ih hpreflight).imp_right (Or.imp_left ?_)
        rintro ⟨type, placement, hmem, htype⟩
        exact ⟨type, placement, List.mem_cons_of_mem _ hmem, htype⟩
      cases change with
      | addField record other =>
          rw [List.cons_append, preflight] at hpreflight
          split at hpreflight
          · exact hlift hpreflight
          · cases hpreflight
      | addType type placement =>
          rw [List.cons_append, preflight_addType] at hpreflight
          obtain hmem | hfound := hlift hpreflight
          · obtain hdeclares | hmem := mem_declared_iff.mp hmem
            · exact .inr (.inl ⟨type, placement, List.mem_cons_self, hdeclares⟩)
            · exact .inl hmem
          · exact .inr hfound
      | addImport path localName => exact hlift hpreflight

end SourceFile

theorem Failure.Reports.of_reports {cause failure : Failure} {name : Text}
    (hmissing : (Failure.targetNotFound name).Reports failure) (hcause : cause.Reports failure) :
    (Failure.targetNotFound name).Reports cause := by
  cases hcause with
  | alone => exact hmissing
  | stranded =>
      cases hmissing with
      | stranded => exact .alone

/-- A target is reported missing only where a field is to be added and no struct type of that name is found. -/
theorem Change.apply_targetNotFound {file edited : SourceFile} {change : Change} {failure : Failure} {name : Text}
    (herror : change.apply file = ⟨edited, .error failure⟩) (hmissing : (Failure.targetNotFound name).Reports failure) :
    ∃ field, change = .addField name field ∧ file.recordLocation? name = none := by
  have hends := change.ends_apply file
  generalize change.apply file = attempt at hends herror
  cases hends with
  | missing hchange hnone =>
      obtain rfl := Except.error.inj (Attempt.mk.inj herror).2
      cases hmissing with
      | alone => exact ⟨_, hchange, hnone⟩
  | present => cases herror
  | refused =>
      obtain rfl := Except.error.inj (Attempt.mk.inj herror).2
      cases hmissing
  | edited =>
      obtain hensure | ⟨last, _, -, herror⟩ := Attempt.andThen_eq_error.mp herror
      · obtain ⟨error, rfl⟩ := SourceFile.ensureImports_error hensure
        cases hmissing
      · cases herror

/-- A change of a batch misses its target when it is applied, and not in the check after it. -/
theorem Change.perform_targetNotFound {settings : Settings} {file edited : SourceFile} {change : Change}
    {failure : Failure} {name : Text} (herror : change.perform settings file = ⟨edited, .error failure⟩)
    (hmissing : (Failure.targetNotFound name).Reports failure) :
    ∃ field, change = .addField name field ∧ file.recordLocation? name = none := by
  obtain happly | ⟨next, outcome, -, herror⟩ := Attempt.andThen_eq_error.mp herror
  · exact apply_targetNotFound happly hmissing
  · split at herror
    · cases herror
    · rename_i haccept
      obtain rfl := Except.error.inj (Attempt.mk.inj herror).2
      obtain ⟨violations, rfl⟩ := SourceFile.exists_of_accept_error haccept
      cases hmissing

theorem exists_of_performAll_error {settings : Settings} {file last : SourceFile} {changes : List Change}
    {failure : Failure} (herror : performAll settings file changes = ⟨last, .error failure⟩) :
    ∃ before change others current, changes = before ++ change :: others ∧ Leads file before current ∧
      change.perform settings current = ⟨last, .error failure⟩ := by
  induction changes generalizing file with
  | nil => cases herror
  | cons change others ih =>
      obtain hfails | ⟨next, step, hperform, herror⟩ := Attempt.andThen_eq_error.mp herror
      · exact ⟨[], change, others, file, rfl, .refl file, hfails⟩
      · obtain hrest | ⟨last, steps, -, herror⟩ := Attempt.andThen_eq_error.mp herror
        · obtain ⟨before, failing, later, current, rfl, hleads, hfails⟩ := ih hrest
          have happly := (Change.perform_eq_ok hperform).1
          exact ⟨change :: before, failing, later, current, rfl, .step happly hleads, hfails⟩
        · cases herror

theorem Session.write_targetFound {session : Session} {refusals : Refusals} {store after : Store} {failure : Failure}
    {name : Text} (hwrite : session.write refusals store = ⟨after, .error failure⟩) :
    ¬ (Failure.targetNotFound name).Reports failure := by
  intro hmissing
  obtain ⟨-, ⟨error, -, rfl⟩ | ⟨violations, rfl⟩ | ⟨error, rfl⟩⟩ := Session.write_eq_error hwrite <;> cases hmissing

namespace Operation

variable {operation : Operation} {store : Store} {session : Session} {changes : List Change}

theorem isNamed_of_changes (hchanges : operation.changes = .ok changes) : ∀ change ∈ changes, change.IsNamed := by
  intro change hchange
  obtain ⟨request, -, hrequest⟩ := exists_of_mem_mapM (mapError_eq_ok.mp hchanges) hchange
  exact Request.isNamed_of_toChange hrequest

/-- A missing target is reported by a change of the batch, at a file that the changes before it have led to. -/
theorem exists_of_targetNotFound {refusals : Refusals} {name : Text} {failure : Failure}
    (hchanges : operation.changes = .ok changes)
    (hload : Session.load store operation.path operation.settings = .ok session)
    (herror : (operation.execute refusals store).result = .error failure)
    (hmissing : (Failure.targetNotFound name).Reports failure) :
    ∃ before field others current, changes = before ++ .addField name field :: others ∧
      Leads session.file before current ∧ current.recordLocation? name = none := by
  have hprepare := prepare_of_load hchanges hload
  have hends := operation.ends_execute refusals store
  generalize operation.execute refusals store = attempt at hends herror
  cases hends with
  | unprepared hunprepared => cases hprepare.symm.trans hunprepared
  | done => cases herror
  | unwritten hprepared _ hwrite hrecover =>
      obtain rfl := Except.error.inj herror
      exact absurd (hmissing.of_reports (recover_eq hprepared hrecover).2.1) (Session.write_targetFound hwrite)
  | unapplied hprepared hall hrecover =>
      obtain rfl := Except.error.inj herror
      have hmissing := hmissing.of_reports (recover_eq hprepared hrecover).2.1
      obtain rfl := Except.ok.inj (hprepare.symm.trans hprepared)
      obtain ⟨-, last, hperform⟩ := SourceFile.applyAll_eq_error hall
      obtain ⟨before, change, others, current, rfl, hleads, hfails⟩ := exists_of_performAll_error hperform
      obtain ⟨field, rfl, hnone⟩ := Change.perform_targetNotFound hfails hmissing
      exact ⟨before, field, others, current, rfl, hleads, hnone⟩

/-- A batch that passes the check does not miss a target, whatever the system refuses, provided that every field that it
adds stays within its struct type and that every struct type that it declares and adds a field to is the first type of
its name. -/
theorem execute_finds_targets {refusals : Refusals} {name : Text} {failure : Failure}
    (hvalidate : operation.validate store false = .ok ())
    (hchanges : operation.changes = .ok changes)
    (hload : Session.load store operation.path operation.settings = .ok session)
    (hcontained : ∀ change ∈ changes, change.isContained)
    (hfirst : ∀ type placement field, Change.addType type placement ∈ changes → type.isRecord →
      Change.addField type.name field ∈ changes → session.file.declaresRecord changes type.name)
    (herror : (operation.execute refusals store).result = .error failure) :
    ¬ (Failure.targetNotFound name).Reports failure := by
  intro hmissing
  obtain ⟨before, field, others, current, rfl, hleads, hnone⟩ :=
    exists_of_targetNotFound hchanges hload herror hmissing
  obtain ⟨location, content, mode, -, -, -, hparse, -⟩ := Session.load_eq_ok hload
  have hpreflight : session.file.preflight [] (before ++ .addField name field :: others) = .ok () := by
    obtain ⟨changes', hchanges', hvalidate⟩ := bind_eq_ok.mp hvalidate
    obtain ⟨session', hload', hvalidate⟩ := bind_eq_ok.mp hvalidate
    obtain rfl := Except.ok.inj (hchanges.symm.trans hchanges')
    obtain rfl := Except.ok.inj (hload.symm.trans hload')
    exact hvalidate
  have hdeclares : session.file.declaresRecord before name := by
    obtain hnil | ⟨type, placement, hmem, hrecord, rfl⟩ | hfound := SourceFile.preflight_eq_ok hpreflight
    · cases hnil
    · have hall := hfirst type placement field (by simp [hmem]) hrecord (by simp)
      unfold SourceFile.declaresRecord at hall ⊢
      split
      · rename_i hpresent
        rwa [if_pos hpresent] at hall
      · rename_i habsent
        rw [if_neg habsent, List.filterMap_append, List.find?_append] at hall
        have hsome : ((before.filterMap Change.declaredType?).find? (·.name = type.name)).isSome := by
          rw [List.find?_isSome]
          exact ⟨type, List.mem_filterMap.mpr ⟨_, hmem, rfl⟩, by simp⟩
        obtain ⟨found, hfound⟩ := Option.isSome_iff_exists.mp hsome
        rw [hfound, Option.some_or] at hall
        rw [hfound]
        exact hall
    · obtain ⟨fields, htype⟩ := (session.file.isSome_recordLocation?_iff name).mp hfound
      exact SourceFile.declaresRecord_of_some before htype
  have hlocation := SourceFile.declaresRecord_of_leads hleads (SourceFile.isRead_of_parse hparse)
    (fun change hchange => ⟨isNamed_of_changes hchanges change (by simp [hchange]),
      hcontained change (by simp [hchange])⟩) hdeclares
  rw [hnone] at hlocation
  cases hlocation

theorem execute_finds_targets_declared :
    let requests : List Request :=
      [.addType ⟨['B'], none, [], none, false, .after ['A']⟩, .addField ['B'] ⟨['X'], "*A".toList, none, none⟩,
        .addField ['A'] ⟨['Y'], "[]B".toList, some "y".toList, none⟩]
    let operation : Operation := ⟨"a.go".toList, requests, .standard⟩
    let text := "package a\n\ntype (\n\tA struct \x7b\x7d\n\tC int\n)\n".toList
    let store : Store := ⟨[(["a.go".toList], .file (Utf8.encode text) 0o644)]⟩
    operation.validate store false = .ok () ∧
      ∀ refusals failure, (operation.execute refusals store).result = .error failure →
        ∀ name, ¬ (Failure.targetNotFound name).Reports failure := by
  repeat rw [String.toList_ofList]
  intro requests operation text store
  let changes : List Change :=
    [.addType ⟨['B'], none, .record []⟩ (.after ['A']),
      .addField ['B'] ⟨['X'], .pointer (.verbatim ['A']), none, none⟩,
      .addField ['A'] ⟨['Y'], .slice (.verbatim ['B']), some ['y'], none⟩]
  have hvalidate : operation.validate store false = .ok () := eq_ok_of_toOption (by decide)
  have hchanges : operation.changes = .ok changes := eq_ok_of_toOption (by decide)
  have hfirst : ((Session.load store operation.path operation.settings).toOption.any fun session =>
      session.file.declaresRecord changes ['B']) = true := by
    decide
  obtain ⟨session, hload, hdeclares⟩ := (Option.any_eq_true ..).mp hfirst
  refine ⟨hvalidate, fun refusals failure herror name =>
    execute_finds_targets hvalidate hchanges (eq_ok_of_toOption hload) ?_ ?_ herror⟩
  · exact List.all_eq_true.mp (by decide)
  · intro type placement field hmem _ _
    obtain ⟨rfl, -⟩ : type = ⟨['B'], none, .record []⟩ ∧ placement = .after ['A'] := by
      simpa [changes] using hmem
    exact hdeclares

end Operation

end GoGraft
