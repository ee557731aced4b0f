import GoGraft.Proofs.Execution

/-!
# A preview shows what carrying requests out does

A preview and an execution prepare the same session and apply the same changes to it; they part only where the session
is written. So an execution fails before its write with the failure of the preview, or in its write, and if it succeeds,
the file holds the text that the preview compared with the one before.
-/

namespace GoGraft

namespace Operation

variable {operation : Operation} {store : Store} {session : Session}

theorem preview_of_prepare_error {failure : Failure} (hprepare : operation.prepare store = .error failure) :
    operation.preview store = ⟨store, .error failure⟩ := by
  unfold preview
  rw [hprepare]
  rfl

theorem preview_of_prepare (hprepare : operation.prepare store = .ok session) :
    operation.preview store = ⟨store, session.apply.result.map fun _ => session.apply.state.diff⟩ := by
  unfold preview
  rw [hprepare]
  dsimp only
  obtain ⟨file, report, -, happly⟩ | ⟨failure, -, happly⟩ := session.apply_cases
  · rw [happly]
    rfl
  · rw [happly]
    rfl

/-- A preview leaves the store alone and agrees with carrying the requests out. After a success the file has gone from one
text to another, and the preview is their difference. A failure of the preview is the failure of the execution, and after a
preview an execution fails only in its write: the new text cannot be read, breaks a check or cannot be stored. Both are
reported alone, unless restoring the file is refused as well. -/
theorem preview_agrees (operation : Operation) (store : Store) :
    (operation.preview store).state = store ∧
    (∀ refusals after execution, operation.execute refusals store = ⟨after, .ok execution⟩ →
      ∃ location old new mode, locate? operation.path = some location ∧
        store.entry? location = some (.file (Utf8.encode old) mode) ∧
        after.entry? location = some (.file (Utf8.encode new) mode) ∧
        (operation.preview store).result = .ok (Diff.unified old new operation.settings.diffContext)) ∧
    (∀ refusals failure, (operation.preview store).result = .error failure →
      ∃ after reported, operation.execute refusals store = ⟨after, .error reported⟩ ∧ failure.Reports reported ∧
        (refusals.rereading = false → after = store ∧ reported = failure)) ∧
    ∀ refusals difference after reported, (operation.preview store).result = .ok difference →
      operation.execute refusals store = ⟨after, .error reported⟩ →
      ∃ session applied report failure, operation.prepare store = .ok session ∧ session.apply = ⟨applied, .ok report⟩ ∧
        applied.write refusals store = ⟨store, .error failure⟩ ∧ failure.Reports reported ∧
        (refusals.rereading = false → after = store ∧ reported = failure) ∧
        ((∃ error, SourceFile.parse applied.render = .error error ∧ failure = .unparsed operation.path error) ∨
          (∃ violations, failure = .invalid violations) ∨ ∃ error, failure = .unwritten operation.path error) := by
  refine ⟨?_, ?_, ?_, ?_⟩
  · cases hprepare : operation.prepare store with
    | error failure => rw [preview_of_prepare_error hprepare]
    | ok session => rw [preview_of_prepare hprepare]
  · intro refusals after execution hexecute
    have hends := operation.ends_execute refusals store
    rw [hexecute] at hends
    cases hends with
    | @done session file report _ outcome hprepare hall hwrite =>
        obtain ⟨changes, location, content, mode, -, hresolve, hentry, hdecode, -, hsession⟩ := prepare_eq_ok hprepare
        have hsettings : session.settings = operation.settings := by rw [hsession]
        have hpath : session.path = operation.path := by rw [hsession]
        rw [← encode_of_decodeContent hdecode] at hentry
        rw [← hpath] at hresolve
        obtain ⟨hself, -⟩ := entry?_of_write hwrite hresolve hentry
        refine ⟨location, session.initial, file.render, mode, hpath ▸ Store.locate?_of_resolve? hresolve, hentry, hself, ?_⟩
        rw [preview_of_prepare hprepare, Session.apply, hall, ← hsettings]
        rfl
  · intro refusals failure hpreview
    have hends := operation.ends_execute refusals store
    generalize operation.execute refusals store = attempt at hends ⊢
    cases hends with
    | unprepared hprepare =>
        rw [preview_of_prepare_error hprepare] at hpreview
        obtain rfl := Except.error.inj hpreview
        exact ⟨store, _, rfl, .alone, fun _ => ⟨rfl, rfl⟩⟩
    | unapplied hprepare hall hrecover =>
        rw [preview_of_prepare hprepare, Session.apply, hall] at hpreview
        obtain rfl := Except.error.inj hpreview
        obtain ⟨-, hreports, hexact⟩ := recover_eq hprepare hrecover
        exact ⟨_, _, rfl, hreports, hexact⟩
    | unwritten hprepare hall | done hprepare hall =>
        rw [preview_of_prepare hprepare, Session.apply, hall] at hpreview
        cases hpreview
  · intro refusals difference after reported hpreview hexecute
    have hends := operation.ends_execute refusals store
    rw [hexecute] at hends
    cases hends with
    | unprepared hprepare =>
        rw [preview_of_prepare_error hprepare] at hpreview
        cases hpreview
    | unapplied hprepare hall =>
        rw [preview_of_prepare hprepare, Session.apply, hall] at hpreview
        cases hpreview
    | @unwritten session file report cause _ _ hprepare hall hwrite hrecover =>
        obtain ⟨changes, -, -, -, -, -, -, -, -, hsession⟩ := prepare_eq_ok hprepare
        have hpath : session.path = operation.path := by rw [hsession]
        obtain ⟨-, hreports, hexact⟩ := recover_eq hprepare hrecover
        refine ⟨session, _, report, cause, hprepare, ?_, hwrite, hreports, hexact, ?_⟩
        · rw [Session.apply, hall]
        · rw [← hpath]
          exact (Session.write_eq_error hwrite).2

theorem preview_agrees_import :
    let operation : Operation := ⟨"a.go".toList, [.addImport "fmt".toList none], .standard⟩
    let store (text : String) : Store := ⟨[(["a.go".toList], .file (Utf8.encode text.toList) 0o640)]⟩
    let joined := "package a; /* c */ type B int\n"
    (∃ after execution location old new mode,
      operation.execute noRefusals (store "package a\n") = ⟨after, .ok execution⟩ ∧
      execution.changed ∧ after.entry? location = some (.file (Utf8.encode new) mode) ∧
      (operation.preview (store "package a\n")).result = .ok (Diff.unified old new 3)) ∧
    (∃ failure, (operation.preview (store "package")).result = .error failure ∧
      operation.execute noRefusals (store "package") = ⟨store "package", .error failure⟩) ∧
    ∃ difference failure, ∃ applied : Session, (operation.preview (store joined)).result = .ok difference ∧
      operation.execute noRefusals (store joined) = ⟨store joined, .error failure⟩ ∧
      applied.write noRefusals (store joined) = ⟨store joined, .error failure⟩ := by
  intro operation store joined
  refine ⟨?_, ?_, ?_⟩
  · have hok : (operation.execute noRefusals (store "package a\n")).toOption.any (·.2.changed) := by decide
    obtain ⟨⟨after, execution⟩, hexecute, hchanged⟩ := (Option.any_eq_true ..).mp hok
    have hexecute := Attempt.eq_of_toOption hexecute
    obtain ⟨location, old, new, mode, -, -, hafter, hpreview⟩ :=
      (preview_agrees operation (store "package a\n")).2.1 noRefusals after execution hexecute
    exact ⟨after, execution, location, old, new, mode, hexecute, hchanged, hafter, hpreview⟩
  · have herror : (operation.preview (store "package")).result.toBool = false := by decide
    cases hpreview : (operation.preview (store "package")).result with
    | ok =>
        rw [hpreview] at herror
        cases herror
    | error failure =>
        obtain ⟨after, reported, hexecute, -, hexact⟩ :=
          (preview_agrees operation (store "package")).2.2.1 noRefusals failure hpreview
        obtain ⟨rfl, rfl⟩ := hexact rfl
        exact ⟨reported, rfl, hexecute⟩
  · have hpreview : (operation.preview (store joined)).result.toOption.isSome := by decide
    have herror : (operation.execute noRefusals (store joined)).result.toBool = false := by decide
    obtain ⟨difference, hdifference⟩ := Option.isSome_iff_exists.mp hpreview
    have hdifference := eq_ok_of_toOption hdifference
    generalize hexecute : operation.execute noRefusals (store joined) = attempt at herror
    obtain ⟨after, result⟩ := attempt
    cases result with
    | ok => cases herror
    | error reported =>
        obtain ⟨-, applied, -, failure, -, -, hwrite, -, hexact, -⟩ :=
          (preview_agrees operation (store joined)).2.2.2 noRefusals difference after reported hdifference hexecute
        obtain ⟨rfl, rfl⟩ := hexact rfl
        exact ⟨difference, reported, applied, hdifference, rfl, hwrite⟩

end Operation

end GoGraft
