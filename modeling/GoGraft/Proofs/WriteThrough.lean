import GoGraft.Proofs.Departures
import GoGraft.Proofs.SessionRuns

/-!
# What a write leaves in the store

A write is skipped if the session's text is the one that was read at first, whatever the store holds by then. That is
safe: a session that has that text has made no edits, so that no other text was ever written.
-/

namespace GoGraft.Session

/-- A session has made no edits and its file holds what was read at first, or its edits have moved it away from that. -/
structure Tracked (start : Session) (location : Location) (mode : Nat) (desk : Desk) : Prop where
  path : desk.session.path = start.path
  initial : desk.session.initial = start.initial
  header : desk.session.file.header = start.file.header
  trailer : desk.session.file.trailer = start.file.trailer
  read : desk.session.file.IsRead
  entry : ∃ current, desk.store.entry? location = some (.file current mode)
  moved : (desk.session.file = start.file ∧
      desk.store.entry? location = some (.file (Utf8.encode start.initial) mode)) ∨
    SourceFile.Moved start.file desk.session.file

variable {start : Session} {location : Location} {mode : Nat} {desk next : Desk}

theorem Tracked.step {call : Call} {reply : Except Failure Reply}
    (hresolve : desk.store.resolve? desk.session.path = some location) (hrender : start.file.render = start.initial)
    (htracked : Tracked start location mode desk) (heffect : Effect desk call next reply) :
    Tracked start location mode next := by
  obtain ⟨hpath, hinitial, -⟩ := heffect.frame
  rw [htracked.path] at hpath
  rw [htracked.initial] at hinitial
  obtain ⟨current, hentry⟩ := htracked.entry
  cases heffect with
  | failed => exact htracked
  | skipped => exact htracked
  | queued | unapplied =>
      exact ⟨hpath, hinitial, htracked.header, htracked.trailer, htracked.read, htracked.entry, htracked.moved⟩
  | @applied file report hall =>
      have hleads := leads_of_performAll (SourceFile.applyAll_eq_ok hall)
      obtain ⟨⟨hheader, -, htrailer⟩, hread⟩ := SourceFile.leads_kept hleads htracked.read
      refine ⟨hpath, hinitial, hheader.trans htracked.header, htrailer.trans htracked.trailer, hread, htracked.entry, ?_⟩
      obtain ⟨hself, hothers⟩ := SourceFile.moved_of_applyAll htracked.read hall
      obtain ⟨hsame, hdisk⟩ | hmoved := htracked.moved
      · rw [hsame] at hself
        exact hself.imp_left fun hfile => ⟨hfile, hdisk⟩
      · exact .inr (hothers _ hmoved)
  | @written refusals store reread outcome hparse hviolations hreplace =>
      obtain ⟨hself, -⟩ := Store.replace_of_file hresolve hentry hreplace
      refine ⟨hpath, hinitial, htracked.header, htracked.trailer, htracked.read, ⟨_, hself⟩, ?_⟩
      refine htracked.moved.imp_left fun hkept => ⟨hkept.1, ?_⟩
      rw [hself, render, hkept.1, hrender]
  | restored hrestore =>
      obtain ⟨hself, -⟩ := Store.restore_eq_ok hrestore hresolve hentry
      rw [htracked.initial] at hself
      refine ⟨hpath, hinitial, htracked.header, htracked.trailer, htracked.read, ⟨_, hself⟩, ?_⟩
      exact htracked.moved.imp_left fun hkept => ⟨hkept.1, hself⟩

theorem tracked_run {store : Store} (hresolve : store.resolve? start.path = some location)
    (hparse : SourceFile.parse start.initial = .ok start.file)
    (hentry : store.entry? location = some (.file (Utf8.encode start.initial) mode)) (calls : List Call) :
    Tracked start location mode (Desk.run ⟨start, store⟩ calls) := by
  have hrender := SourceFile.render_of_parse hparse
  induction calls using List.reverseRecOn with
  | nil => exact ⟨rfl, rfl, rfl, rfl, SourceFile.isRead_of_parse hparse, ⟨_, hentry⟩, .inl ⟨rfl, hentry⟩⟩
  | append_singleton calls call ih =>
      have hguarded := @guarded_run ⟨start, store⟩ location mode hresolve hentry calls
      rw [Desk.run_concat]
      exact ih.step (hguarded.resolve? hresolve hentry) hrender (call.effect _)

/-- Whatever is called, in any order and any number: when a write succeeds, whether it was skipped or not, the file holds
the session's text. -/
theorem write_through {store : Store} {path : Text} {settings : Settings} {session : Session}
    (hload : load store path settings = .ok session) :
    ∃ location content mode, locate? path = some location ∧ store.entry? location = some (.file content mode) ∧
      ∀ calls refusals outcome,
        let desk := Desk.run ⟨session, store⟩ calls
        let attempt := (Call.write refusals).perform desk
        attempt.result = .ok (.written outcome) →
          attempt.state.session = desk.session ∧
          attempt.state.store.entry? location = some (.file (Utf8.encode desk.session.render) mode) := by
  obtain ⟨location, content, mode, hresolve, hentry, hdecode, hparse, hsession⟩ := load_eq_ok hload
  have hpath : session.path = path := by rw [hsession]
  have hcontent := encode_of_decodeContent hdecode
  refine ⟨location, content, mode, Store.locate?_of_resolve? hresolve, hentry, fun calls refusals outcome => ?_⟩
  subst hcontent
  rw [← hpath] at hresolve
  have htracked := @tracked_run session location mode store hresolve hparse hentry calls
  have hguarded := @guarded_run ⟨session, store⟩ location mode hresolve hentry calls
  have hresolve := hguarded.resolve? hresolve hentry
  generalize Desk.run ⟨session, store⟩ calls = desk at htracked hresolve
  intro desk attempt hreply
  have heffect := (Call.write refusals).effect desk
  rw [show ((Call.write refusals).perform desk).result = .ok (.written outcome) from hreply] at heffect
  change Effect desk (.write refusals) attempt.state _ at heffect
  generalize attempt.state = next at heffect ⊢
  cases heffect with
  | skipped hsame =>
      refine ⟨rfl, ?_⟩
      -- A session that has made edits has another text than the one that was read, and does not skip its write.
      obtain ⟨hfile, hdisk⟩ | hmoved := htracked.moved
      · rw [hdisk, hsame, htracked.initial]
      · have hother := hmoved.render_ne (SourceFile.isRead_of_parse hparse) htracked.read htracked.header htracked.trailer
        rw [SourceFile.render_of_parse hparse, ← htracked.initial] at hother
        exact absurd hsame hother
  | written hparses hviolations hreplace =>
      obtain ⟨current, hcurrent⟩ := htracked.entry
      exact ⟨rfl, (Store.replace_of_file hresolve hcurrent hreplace).1⟩

theorem write_through_shorter :
    let text := "package a\n\nimport /* a comment that does not stay */ \x22fmt\x22\n".toList
    let store : Store := ⟨[(["a.go".toList], .file (Utf8.encode text) 0o640)]⟩
    let calls : List Call := [.write noRefusals, .addImport "os".toList none, .apply, .write noRefusals,
      .rollback noRefusals]
    ∃ session location bytes, load store "a.go".toList .standard = .ok session ∧
      ((Call.write noRefusals).perform ⟨session, store⟩).result = .ok (.written .unchanged) ∧
      ((Call.write noRefusals).perform (Desk.run ⟨session, store⟩ calls)).result = .ok (.written (.written bytes)) ∧
      (Desk.run ⟨session, store⟩ calls).session.render.length < text.length ∧
      ((Call.write noRefusals).perform (Desk.run ⟨session, store⟩ calls)).state.store.entry? location =
        some (.file (Utf8.encode (Desk.run ⟨session, store⟩ calls).session.render) 0o640) := by
  repeat rw [String.toList_ofList]
  intro text store calls
  have hrun : (load store "a.go".toList .standard).toOption.any fun session =>
      decide (((Call.write noRefusals).perform ⟨session, store⟩).result.toOption = some (.written .unchanged)) &&
        decide (((Call.write noRefusals).perform (Desk.run ⟨session, store⟩ calls)).result.toOption =
          some (.written (.written 35))) &&
        decide ((Desk.run ⟨session, store⟩ calls).session.render.length < text.length) := by
    decide
  obtain ⟨session, hload, hrun⟩ := (Option.any_eq_true ..).mp hrun
  simp only [Bool.and_eq_true, decide_eq_true_eq] at hrun
  obtain ⟨⟨hfirst, hlast⟩, hshorter⟩ := hrun
  have hload := eq_ok_of_toOption hload
  have hlast := eq_ok_of_toOption hlast
  obtain ⟨location, content, mode, hlocate, hentry, hcalls⟩ := write_through hload
  obtain rfl := Option.some.inj hlocate
  obtain ⟨-, rfl⟩ := Entry.file.inj (Option.some.inj hentry)
  exact ⟨session, _, 35, hload, eq_ok_of_toOption hfirst, hlast, hshorter, (hcalls calls noRefusals _ hlast).2⟩

end GoGraft.Session
