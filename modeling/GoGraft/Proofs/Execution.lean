import GoGraft.Operation
import GoGraft.Proofs.Results
import GoGraft.Proofs.StoreChange
import GoGraft.Proofs.Utf8Decoding

/-!
# Carrying out requests is all or nothing

A failure can come from a request, from reading, decoding or parsing the file, from any change or the check after
it, from reading the result again and from writing it. The system can refuse any step of a write. Up to the write nothing
touches the store, and a write that fails leaves every file as it was. Restoring the file then changes nothing either: the
bytes that it writes, if it writes any, are those of the text that was decoded, and these are the bytes that are there.
-/

namespace GoGraft

/-- Changes that were applied one after the other, each with success. -/
inductive Leads : SourceFile → List Change → SourceFile → Prop where
  | refl (file : SourceFile) : Leads file [] file
  | step {file next final : SourceFile} {change : Change} {others : List Change} {outcome : Outcome}
      (happly : change.apply file = ⟨next, .ok outcome⟩) (hrest : Leads next others final) :
      Leads file (change :: others) final

theorem SourceFile.accept_eq_ok {file : SourceFile} {settings : Settings} :
    file.accept settings = .ok () ↔ file.violations settings = [] := by
  unfold accept
  cases file.violations settings <;> simp

theorem SourceFile.exists_of_accept_error {file : SourceFile} {settings : Settings} {failure : Failure}
    (haccept : file.accept settings = .error failure) : ∃ violations, failure = .invalid violations := by
  unfold accept at haccept
  split at haccept
  · cases haccept
  · exact ⟨_, (Except.error.inj haccept).symm⟩

/-- A change of a batch is applied, the file passes the checks, and the step tells of both. -/
theorem Change.perform_eq_ok {change : Change} {settings : Settings} {file next : SourceFile} {step : Step}
    (hperform : change.perform settings file = ⟨next, .ok step⟩) :
    change.apply file = ⟨next, .ok step.outcome⟩ ∧ next.violations settings = [] ∧
      step.description = change.describe := by
  obtain ⟨edited, outcome, happly, hperform⟩ := Attempt.andThen_eq_ok.mp hperform
  split at hperform
  · rename_i haccept
    obtain ⟨rfl, hstep⟩ := Attempt.mk.inj hperform
    obtain rfl := Except.ok.inj hstep
    exact ⟨happly, SourceFile.accept_eq_ok.mp haccept, rfl⟩
  · cases hperform

theorem performAll_cons {settings : Settings} {file final : SourceFile} {change : Change} {others : List Change}
    {steps : List Step} (hperform : performAll settings file (change :: others) = ⟨final, .ok steps⟩) :
    ∃ next step rest, change.perform settings file = ⟨next, .ok step⟩ ∧
      performAll settings next others = ⟨final, .ok rest⟩ ∧ steps = step :: rest := by
  obtain ⟨next, step, hnext, hperform⟩ := Attempt.andThen_eq_ok.mp hperform
  obtain ⟨last, rest, hlast, hdone⟩ := Attempt.andThen_eq_ok.mp hperform
  obtain ⟨rfl, hsteps⟩ := Attempt.mk.inj hdone
  exact ⟨next, step, rest, hnext, hlast, (Except.ok.inj hsteps).symm⟩

theorem leads_of_performAll {settings : Settings} {file final : SourceFile} {changes : List Change}
    {steps : List Step} (hperform : performAll settings file changes = ⟨final, .ok steps⟩) :
    Leads file changes final := by
  induction changes generalizing file steps with
  | nil =>
      obtain ⟨rfl, -⟩ := Attempt.mk.inj hperform
      exact .refl file
  | cons change others ih =>
      obtain ⟨next, step, rest, hnext, hlast, -⟩ := performAll_cons hperform
      exact .step (Change.perform_eq_ok hnext).1 (ih hlast)

namespace SourceFile

variable {settings : Settings} {file final : SourceFile} {changes : List Change}

theorem applyAll_eq_ok {report : Report} (hall : file.applyAll changes settings = ⟨final, .ok report⟩) :
    performAll settings file changes = ⟨final, .ok report.steps⟩ := by
  obtain ⟨last, steps, hperform, hdone⟩ := Attempt.andThen_eq_ok.mp hall
  obtain ⟨rfl, hreport⟩ := Attempt.mk.inj hdone
  obtain rfl := Except.ok.inj hreport
  exact Attempt.onFailure_eq_ok.mp hperform

/-- A batch that fails is taken back, however far it has come. -/
theorem applyAll_eq_error {failure : Failure} (hall : file.applyAll changes settings = ⟨final, .error failure⟩) :
    final = file ∧ ∃ last, performAll settings file changes = ⟨last, .error failure⟩ := by
  obtain hperform | ⟨last, steps, -, hreport⟩ := Attempt.andThen_eq_error.mp hall
  · obtain ⟨last, hperform, hfile⟩ := Attempt.onFailure_eq_error.mp hperform
    exact ⟨hfile.symm, last, hperform⟩
  · cases hreport

end SourceFile

namespace Session

theorem load_eq_ok {store : Store} {path : Text} {settings : Settings} {session : Session}
    (hload : load store path settings = .ok session) :
    ∃ location content mode, store.resolve? path = some location ∧
      store.entry? location = some (.file content mode) ∧
      decodeContent content = .ok session.initial ∧
      SourceFile.parse session.initial = .ok session.file ∧
      session = ⟨path, session.initial, session.file, [], settings⟩ := by
  obtain ⟨content, hread, hload⟩ := bind_eq_ok.mp hload
  obtain ⟨initial, hdecode, hload⟩ := bind_eq_ok.mp hload
  obtain ⟨file, hparse, hload⟩ := bind_eq_ok.mp hload
  obtain rfl := pure_eq_ok.mp hload
  obtain ⟨location, mode, hresolve, hentry, -⟩ := Store.read_eq_ok (mapError_eq_ok.mp hread)
  exact ⟨location, content, mode, hresolve, hentry, mapError_eq_ok.mp hdecode,
    mapError_eq_ok.mp hparse, rfl⟩

theorem foldl_queue (changes : List Change) (session : Session) :
    changes.foldl queue session = { session with pending := session.pending ++ changes } := by
  induction changes generalizing session with
  | nil => simp
  | cons change others ih =>
      rw [List.foldl_cons, ih]
      simp [queue]

/-- Applying what is queued either leads to another file or leaves the file alone, and changes nothing else of a
session but the queue. -/
theorem apply_cases (session : Session) :
    (∃ file report, session.file.applyAll session.pending session.settings = ⟨file, .ok report⟩ ∧
        session.apply = ⟨{ session with file, pending := [] }, .ok report⟩) ∨
      ∃ failure, session.file.applyAll session.pending session.settings = ⟨session.file, .error failure⟩ ∧
        session.apply = ⟨{ session with pending := [] }, .error failure⟩ := by
  unfold apply
  generalize hall : session.file.applyAll session.pending session.settings = attempt
  obtain ⟨file, result⟩ := attempt
  cases result with
  | error failure =>
      obtain ⟨rfl, -⟩ := SourceFile.applyAll_eq_error hall
      exact .inr ⟨failure, rfl, rfl⟩
  | ok report => exact .inl ⟨file, report, rfl, rfl⟩

theorem output_eq_ok {session : Session} {content : Bytes} (houtput : session.output = .ok content) :
    content = Utf8.encode session.render ∧
      ∃ reread, SourceFile.parse session.render = .ok reread ∧ reread.violations session.settings = [] := by
  obtain ⟨reread, hparse, houtput⟩ := bind_eq_ok.mp houtput
  obtain ⟨⟨⟩, haccept, houtput⟩ := bind_eq_ok.mp houtput
  exact ⟨(pure_eq_ok.mp houtput).symm, reread, mapError_eq_ok.mp hparse, SourceFile.accept_eq_ok.mp haccept⟩

theorem output_eq_error {session : Session} {failure : Failure} (houtput : session.output = .error failure) :
    (∃ error, SourceFile.parse session.render = .error error ∧ failure = .unparsed session.path error) ∨
      ∃ violations, failure = .invalid violations := by
  obtain hparse | ⟨reread, -, houtput⟩ := bind_eq_error.mp houtput
  · obtain ⟨error, hparse, hcause⟩ := mapError_eq_error.mp hparse
    exact .inl ⟨error, hparse, hcause.symm⟩
  · obtain haccept | ⟨-, -, houtput⟩ := bind_eq_error.mp houtput
    · exact .inr (SourceFile.exists_of_accept_error haccept)
    · cases houtput

/-- A write either finds the text that was read, or replaces the file by a text that is a file again and passes
the checks. -/
theorem write_eq_ok {session : Session} {refusals : Refusals} {store after : Store} {outcome : WriteOutcome}
    (hwrite : session.write refusals store = ⟨after, .ok outcome⟩) :
    (outcome = .unchanged ∧ after = store ∧ session.render = session.initial) ∨
      ∃ reread, SourceFile.parse session.render = .ok reread ∧
        reread.violations session.settings = [] ∧
        store.replace refusals.writing session.path (Utf8.encode session.render) = ⟨after, .ok ()⟩ := by
  unfold write at hwrite
  split at hwrite
  · rename_i hsame
    obtain ⟨rfl, houtcome⟩ := Attempt.mk.inj hwrite
    obtain rfl := Except.ok.inj houtcome
    simp only [Bool.and_eq_true, decide_eq_true_eq] at hsame
    exact .inl ⟨rfl, rfl, hsame.2⟩
  split at hwrite
  · cases hwrite
  rename_i content houtput
  obtain ⟨rfl, reread, hparse, hviolations⟩ := output_eq_ok houtput
  split at hwrite
  · rename_i replaced hreplace
    obtain ⟨rfl, -⟩ := Attempt.mk.inj hwrite
    exact .inr ⟨reread, hparse, hviolations, hreplace⟩
  · cases hwrite

/-- A write fails because the session's text cannot be read, breaks a check, or cannot be stored. It leaves the store
alone then. -/
theorem write_eq_error {session : Session} {refusals : Refusals} {store after : Store} {failure : Failure}
    (hwrite : session.write refusals store = ⟨after, .error failure⟩) :
    after = store ∧
      ((∃ error, SourceFile.parse session.render = .error error ∧ failure = .unparsed session.path error) ∨
        (∃ violations, failure = .invalid violations) ∨ ∃ error, failure = .unwritten session.path error) := by
  unfold write at hwrite
  split at hwrite
  · cases hwrite
  split at hwrite
  · rename_i cause houtput
    obtain ⟨rfl, hcause⟩ := Attempt.mk.inj hwrite
    obtain rfl := Except.error.inj hcause
    exact ⟨rfl, (output_eq_error houtput).imp_right .inl⟩
  split at hwrite
  · cases hwrite
  · rename_i replaced error hreplace
    obtain ⟨rfl, hcause⟩ := Attempt.mk.inj hwrite
    exact ⟨Store.replace_eq_error hreplace, .inr (.inr ⟨error, (Except.error.inj hcause).symm⟩)⟩

end Session

theorem encode_of_decodeContent {content : Bytes} {text : Text}
    (hdecode : decodeContent content = .ok text) : Utf8.encode text = content := by
  unfold decodeContent at hdecode
  split at hdecode
  · cases hdecode
  · exact Utf8.encode_of_decode (mapError_eq_ok.mp hdecode)

namespace Operation

theorem prepare_eq_ok {operation : Operation} {store : Store} {session : Session}
    (hprepare : operation.prepare store = .ok session) :
    ∃ changes location content mode, operation.requests.mapM Request.toChange = .ok changes ∧
      store.resolve? operation.path = some location ∧
      store.entry? location = some (.file content mode) ∧
      decodeContent content = .ok session.initial ∧
      SourceFile.parse session.initial = .ok session.file ∧
      session = ⟨operation.path, session.initial, session.file, changes, operation.settings⟩ := by
  obtain ⟨changes, hchanges, hprepare⟩ := bind_eq_ok.mp hprepare
  obtain ⟨loaded, hload, hprepare⟩ := bind_eq_ok.mp hprepare
  obtain rfl := pure_eq_ok.mp hprepare
  obtain ⟨location, content, mode, hresolve, hentry, hdecode, hparse, hloaded⟩ :=
    Session.load_eq_ok hload
  rw [Session.foldl_queue]
  refine ⟨changes, location, content, mode, mapError_eq_ok.mp hchanges, hresolve, hentry, hdecode,
    hparse, ?_⟩
  rw [hloaded]
  simp

theorem prepare_of_load {operation : Operation} {store : Store} {session : Session} {changes : List Change}
    (hchanges : operation.changes = .ok changes)
    (hload : Session.load store operation.path operation.settings = .ok session) :
    operation.prepare store = .ok { session with pending := changes } := by
  obtain ⟨location, content, mode, -, -, -, -, hsession⟩ := Session.load_eq_ok hload
  refine bind_eq_ok.mpr ⟨changes, hchanges, bind_eq_ok.mpr ⟨session, hload, ?_⟩⟩
  rw [Session.foldl_queue, hsession]
  rfl

/-- The ways in which carrying requests out can end. -/
inductive Ends (operation : Operation) (refusals : Refusals) (store : Store) : Attempt Store Failure Execution → Prop where
  | unprepared {failure : Failure} (hprepare : operation.prepare store = .error failure) :
      Ends operation refusals store ⟨store, .error failure⟩
  | unapplied {session : Session} {cause failure : Failure} {after : Store}
      (hprepare : operation.prepare store = .ok session)
      (hall : session.file.applyAll session.pending session.settings = ⟨session.file, .error cause⟩)
      (hrecover : recover session refusals store cause = (after, failure)) :
      Ends operation refusals store ⟨after, .error failure⟩
  | unwritten {session : Session} {file : SourceFile} {report : Report} {cause failure : Failure} {after : Store}
      (hprepare : operation.prepare store = .ok session)
      (hall : session.file.applyAll session.pending session.settings = ⟨file, .ok report⟩)
      (hwrite : ({ session with file, pending := [] } : Session).write refusals store = ⟨store, .error cause⟩)
      (hrecover : recover session refusals store cause = (after, failure)) :
      Ends operation refusals store ⟨after, .error failure⟩
  | done {session : Session} {file : SourceFile} {report : Report} {after : Store} {outcome : WriteOutcome}
      (hprepare : operation.prepare store = .ok session)
      (hall : session.file.applyAll session.pending session.settings = ⟨file, .ok report⟩)
      (hwrite : ({ session with file, pending := [] } : Session).write refusals store = ⟨after, .ok outcome⟩) :
      Ends operation refusals store ⟨after, .ok ⟨operation.path, report, outcome⟩⟩

theorem ends_execute (operation : Operation) (refusals : Refusals) (store : Store) :
    Ends operation refusals store (operation.execute refusals store) := by
  unfold execute
  cases hprepare : operation.prepare store with
  | error failure => exact .unprepared hprepare
  | ok session =>
      dsimp only
      unfold commit
      obtain ⟨file, report, hall, happly⟩ | ⟨cause, hall, happly⟩ := session.apply_cases
      · rw [happly]
        dsimp only
        generalize hwrite : ({ session with file, pending := [] } : Session).write refusals store = attempt
        obtain ⟨after, result⟩ := attempt
        cases result with
        | ok outcome => exact .done hprepare hall hwrite
        | error cause =>
            obtain ⟨rfl, -⟩ := Session.write_eq_error hwrite
            exact .unwritten hprepare hall hwrite rfl
      · rw [happly]
        exact .unapplied hprepare hall rfl

end Operation

/-- The failures that are reported for a cause: the cause alone, or with the failure to restore the file after it. -/
inductive Failure.Reports (cause : Failure) : Failure → Prop where
  | alone : Reports cause cause
  | stranded (error : StoreError) : Reports cause (.stranded cause error)

namespace Operation

variable {operation : Operation} {store after : Store} {session : Session} {refusals : Refusals} {cause failure : Failure}

/-- After a failure every entry is as it was: the file still holds what is put back, whether that is seen, written once
more or refused. -/
theorem recover_eq (hprepare : operation.prepare store = .ok session)
    (hrecover : recover session refusals store cause = (after, failure)) :
    (∀ location, after.entry? location = store.entry? location) ∧ cause.Reports failure ∧
      (refusals.rereading = false → after = store ∧ failure = cause) := by
  obtain ⟨changes, location, content, mode, -, hresolve, hentry, hdecode, -, hsession⟩ := prepare_eq_ok hprepare
  have hpath : session.path = operation.path := by rw [hsession]
  unfold recover Session.restore at hrecover
  rw [encode_of_decodeContent hdecode, hpath] at hrecover
  have hunwritten (hreread : refusals.rereading = false) :=
    @Store.restore_of_content _ _ _ _ _ _ hreread hresolve hentry
  generalize hrestore : store.restore refusals operation.path content = attempt at hrecover hunwritten
  obtain ⟨restored, result⟩ := attempt
  cases result with
  | error error =>
      obtain ⟨rfl, rfl⟩ := Prod.mk.inj hrecover
      obtain rfl := Store.restore_eq_error hrestore
      exact ⟨fun _ => rfl, .stranded error, fun hreread => nomatch hunwritten hreread⟩
  | ok changed =>
      obtain ⟨rfl, rfl⟩ := Prod.mk.inj hrecover
      obtain ⟨hself, hothers⟩ := Store.restore_eq_ok hrestore hresolve hentry
      refine ⟨fun other => ?_, .alone, fun hreread => ⟨(Attempt.mk.inj (hunwritten hreread)).1, rfl⟩⟩
      by_cases hother : other = location
      · rw [hother, hself, hentry]
      · exact hothers other hother

/-- What a write leaves: the file has its mode and holds the session's text, and all other entries are as they were. -/
theorem entry?_of_write {outcome : WriteOutcome} {location : Location} {mode : Nat}
    (hwrite : session.write refusals store = ⟨after, .ok outcome⟩)
    (hresolve : store.resolve? session.path = some location)
    (hentry : store.entry? location = some (.file (Utf8.encode session.initial) mode)) :
    after.entry? location = some (.file (Utf8.encode session.render) mode) ∧
      ∀ other, other ≠ location → after.entry? other = store.entry? other := by
  obtain ⟨-, rfl, hsame⟩ | ⟨reread, -, -, hreplace⟩ := Session.write_eq_ok hwrite
  · rw [hsame]
    exact ⟨hentry, fun _ _ => rfl⟩
  · exact Store.replace_of_file hresolve hentry hreplace

/-- Requests are carried out as a whole or not at all, wherever the system refuses to go on. After an error every entry is
as it was, in content and mode. After a success only the file has changed: it has its mode, it holds the text that the
changes lead to from the text that it held, and what was written is a file that passes the checks. -/
theorem execute_all_or_nothing (operation : Operation) (refusals : Refusals) (store : Store) :
    (∀ after failure, operation.execute refusals store = ⟨after, .error failure⟩ →
        (∀ location, after.entry? location = store.entry? location) ∧ (refusals.rereading = false → after = store)) ∧
      ∀ after execution, operation.execute refusals store = ⟨after, .ok execution⟩ →
        ∃ location content mode text file changes final,
          locate? operation.path = some location ∧
          store.entry? location = some (.file content mode) ∧
          decodeContent content = .ok text ∧ SourceFile.parse text = .ok file ∧
          operation.requests.mapM Request.toChange = .ok changes ∧ Leads file changes final ∧
          after.entry? location = some (.file (Utf8.encode final.render) mode) ∧
          (∀ other, other ≠ location → after.entry? other = store.entry? other) ∧
          ∀ bytes, execution.outcome = .written bytes →
            ∃ reread, SourceFile.parse final.render = .ok reread ∧
              reread.violations operation.settings = [] := by
  have hends := operation.ends_execute refusals store
  generalize operation.execute refusals store = attempt at hends ⊢
  constructor
  · rintro after failure rfl
    cases hends with
    | unprepared => exact ⟨fun _ => rfl, fun _ => rfl⟩
    | unapplied hprepare _ hrecover | unwritten hprepare _ _ hrecover =>
        obtain ⟨hsame, -, hexact⟩ := recover_eq hprepare hrecover
        exact ⟨hsame, fun hreread => (hexact hreread).1⟩
  · rintro after execution rfl
    cases hends with
    | @done session final report _ outcome hprepare hall hwrite =>
        obtain ⟨changes, location, content, mode, hchanges, hresolve, hentry, hdecode, hparse, hsession⟩ :=
          prepare_eq_ok hprepare
        have hleads := leads_of_performAll (SourceFile.applyAll_eq_ok hall)
        rw [hsession] at hwrite hleads
        have hinitial : store.entry? location = some (.file (Utf8.encode session.initial) mode) := by
          rw [encode_of_decodeContent hdecode]
          exact hentry
        obtain ⟨hself, hothers⟩ := entry?_of_write hwrite hresolve hinitial
        refine ⟨location, content, mode, session.initial, session.file, changes, final,
          Store.locate?_of_resolve? hresolve, hentry, hdecode, hparse, hchanges, hleads, hself, hothers, ?_⟩
        rintro bytes hbytes
        obtain ⟨houtcome, -⟩ | ⟨reread, hreread, hviolations, -⟩ := Session.write_eq_ok hwrite
        · cases houtcome.symm.trans hbytes
        · exact ⟨reread, hreread, hviolations⟩

-- The second run is stopped while it fills the staged file, and cannot even read the file again to see that it is intact.
theorem execute_all_or_nothing_import :
    let operation : Operation := ⟨"a.go".toList, [.addImport "fmt".toList none], .standard⟩
    let store (text : String) : Store := ⟨[(["a.go".toList], .file (Utf8.encode text.toList) 0o640)]⟩
    let refusals : Refusals := ⟨some (.write 3), true, some .sync⟩
    (∃ failure, operation.execute noRefusals (store "package") = ⟨store "package", .error failure⟩) ∧
      (∃ after failure, operation.execute refusals (store "package a\n") = ⟨after, .error failure⟩ ∧
        failure = .stranded (.unwritten "a.go".toList .inaccessible) .inaccessible ∧
        ∀ location, after.entry? location = Store.entry? (store "package a\n") location) ∧
      ∃ after execution, operation.execute noRefusals (store "package a\n") = ⟨after, .ok execution⟩ ∧
        execution.changed ∧
        ∃ location, ∃ final : SourceFile, locate? operation.path = some location ∧
          after.entry? location = some (.file (Utf8.encode final.render) 0o640) ∧
          ∃ reread, SourceFile.parse final.render = .ok reread ∧
            reread.violations .standard = [] := by
  intro operation store refusals
  refine ⟨?_, ?_, ?_⟩
  · have herror : (operation.execute noRefusals (store "package")).result.toBool = false := by decide
    generalize hexecute : operation.execute noRefusals (store "package") = attempt at herror
    obtain ⟨after, result⟩ := attempt
    cases result with
    | ok => cases herror
    | error failure =>
        have hafter := (execute_all_or_nothing operation noRefusals (store "package")).1 after failure hexecute
        exact ⟨failure, by rw [hafter.2 rfl]⟩
  · have hfails : (match (operation.execute refusals (store "package a\n")).result with
        | .ok _ => false
        | .error failure =>
            decide (failure = .stranded (.unwritten "a.go".toList .inaccessible) .inaccessible)) = true := by
      decide
    generalize hexecute : operation.execute refusals (store "package a\n") = attempt at hfails
    obtain ⟨after, result⟩ := attempt
    cases result with
    | ok => cases hfails
    | error failure =>
        have hafter := (execute_all_or_nothing operation refusals (store "package a\n")).1 after failure hexecute
        exact ⟨after, failure, rfl, of_decide_eq_true hfails, hafter.1⟩
  · have hok : (operation.execute noRefusals (store "package a\n")).toOption.any (·.2.changed) := by decide
    obtain ⟨⟨after, execution⟩, hexecute, hchanged⟩ := (Option.any_eq_true ..).mp hok
    have hexecute := Attempt.eq_of_toOption hexecute
    obtain ⟨location, content, mode, text, file, changes, final, hlocate, hentry, -, -, -, -, hafter, -, hwritten⟩ :=
      (execute_all_or_nothing operation noRefusals (store "package a\n")).2 after execution hexecute
    obtain rfl := Option.some.inj hlocate
    obtain ⟨-, rfl⟩ := Entry.file.inj (Option.some.inj hentry)
    obtain ⟨path, report, outcome⟩ := execution
    cases outcome with
    | written bytes => exact ⟨after, _, hexecute, hchanged, _, final, rfl, hafter, hwritten bytes rfl⟩
    | unchanged => cases hchanged

end Operation

end GoGraft
