import Mathlib.Data.List.Induction
import GoGraft.Proofs.Execution

/-!
# What a session can do to its store

A session is used through a few calls, in any order and any number. Each of them does one of the things that `Effect`
lists, and what holds after every run is read off that list: the text that was read at first is kept, only writes and
restores touch the store, they touch only the file of the session, and what the file holds is what was read at first or
what one of the writes has written.
-/

namespace GoGraft.Session

/-- What can be asked of a session, and what the system refuses meanwhile. -/
inductive Call where
  | queue (change : Change)
  | addField (record field type : Text) (tag : Option Text)
  | addType (type : NewType) (placement : Placement)
  | addImport (path : Text) (localName : Option Text)
  | apply
  | write (refusals : Refusals)
  | rollback (refusals : Refusals)
deriving DecidableEq, Repr

/-- What a call that succeeds answers. -/
inductive Reply where
  | queued
  | applied (report : Report)
  | written (outcome : WriteOutcome)
  | restored
deriving DecidableEq, Repr

/-- A session, and the store that its file is in. -/
structure Desk where
  session : Session
  store : Store
deriving DecidableEq, Repr

/-- Goes on with a session in which a change is queued. -/
def Desk.enqueue (desk : Desk) (result : Except Failure Session) : Attempt Desk Failure Reply :=
  match result with
  | .ok session => .ok { desk with session } .queued
  | .error failure => .fail desk failure

namespace Call

/-- The calls that queue a change. -/
def queues (call : Call) : Bool :=
  call matches .queue _ | .addField .. | .addType .. | .addImport ..

/-- The calls that may touch the store. -/
def stores (call : Call) : Bool :=
  call matches .write _ | .rollback _

def perform (call : Call) (desk : Desk) : Attempt Desk Failure Reply :=
  match call with
  | .queue change => desk.enqueue (.ok (desk.session.queue change))
  | .addField record field type tag => desk.enqueue (desk.session.addField record field type tag)
  | .addType type placement => desk.enqueue (desk.session.addType type placement)
  | .addImport path localName => desk.enqueue (desk.session.addImport path localName)
  | .apply =>
      let attempt := desk.session.apply
      ⟨{ desk with session := attempt.state }, attempt.result.map .applied⟩
  | .write refusals =>
      let attempt := desk.session.write refusals desk.store
      ⟨{ desk with store := attempt.state }, attempt.result.map .written⟩
  | .rollback refusals =>
      let attempt := desk.session.rollback refusals desk.store
      ⟨{ desk with store := attempt.state }, attempt.result.map fun _ => .restored⟩

end Call

/-- What there is after some calls. -/
def Desk.run (desk : Desk) (calls : List Call) : Desk :=
  calls.foldl (fun desk call => (call.perform desk).state) desk

@[simp]
theorem Desk.run_nil (desk : Desk) : desk.run [] = desk :=
  rfl

@[simp]
theorem Desk.run_concat (desk : Desk) (calls : List Call) (call : Call) :
    desk.run (calls ++ [call]) = (call.perform (desk.run calls)).state := by
  simp [run]

/-- All that a call can do. Where it fails, also because the system refuses to go on, it leaves the store alone. -/
inductive Effect (desk : Desk) : Call → Desk → Except Failure Reply → Prop where
  | failed {call : Call} {failure : Failure} : Effect desk call desk (.error failure)
  | queued {call : Call} {change : Change} (hcall : call.queues) :
      Effect desk call { desk with session := desk.session.queue change } (.ok .queued)
  | unapplied {failure : Failure} :
      Effect desk .apply { desk with session := { desk.session with pending := [] } } (.error failure)
  | applied {file : SourceFile} {report : Report}
      (hall : desk.session.file.applyAll desk.session.pending desk.session.settings = ⟨file, .ok report⟩) :
      Effect desk .apply { desk with session := { desk.session with file, pending := [] } } (.ok (.applied report))
  | skipped {refusals : Refusals} (hsame : desk.session.render = desk.session.initial) :
      Effect desk (.write refusals) desk (.ok (.written .unchanged))
  | written {refusals : Refusals} {store : Store} {reread : SourceFile} {outcome : WriteOutcome}
      (hparse : SourceFile.parse desk.session.render = .ok reread)
      (hviolations : reread.violations desk.session.settings = [])
      (hreplace : desk.store.replace refusals.writing desk.session.path (Utf8.encode desk.session.render) =
        ⟨store, .ok ()⟩) :
      Effect desk (.write refusals) { desk with store } (.ok (.written outcome))
  | restored {refusals : Refusals} {store : Store} {changed : Bool}
      (hrestore : desk.session.restore refusals desk.store = ⟨store, .ok changed⟩) :
      Effect desk (.rollback refusals) { desk with store } (.ok .restored)

theorem effect_of_request {desk : Desk} {call : Call} (hcall : call.queues) (request : Request) :
    Effect desk call (desk.enqueue (desk.session.request request)).state
      (desk.enqueue (desk.session.request request)).result := by
  unfold Session.request
  cases request.toChange with
  | ok change => exact .queued hcall
  | error error => exact .failed

theorem Call.effect (call : Call) (desk : Desk) :
    Effect desk call (call.perform desk).state (call.perform desk).result := by
  cases call with
  | queue change => exact .queued rfl
  | addField record field type tag => exact effect_of_request rfl _
  | addImport path localName => exact effect_of_request rfl _
  | addType type placement =>
      unfold perform Session.addType
      dsimp only
      cases type.check with
      | ok => exact .queued rfl
      | error error => exact .failed
  | apply =>
      unfold perform
      dsimp only
      obtain ⟨file, report, hall, happly⟩ | ⟨failure, -, happly⟩ := desk.session.apply_cases
      · rw [happly]
        exact .applied hall
      · rw [happly]
        exact .unapplied
  | write refusals =>
      unfold perform
      dsimp only
      generalize hwrite : desk.session.write refusals desk.store = attempt
      obtain ⟨store, result⟩ := attempt
      cases result with
      | error failure =>
          obtain ⟨rfl, -⟩ := write_eq_error hwrite
          exact .failed
      | ok outcome =>
          obtain ⟨rfl, rfl, hsame⟩ | ⟨reread, hparse, hviolations, hreplace⟩ := write_eq_ok hwrite
          · exact .skipped hsame
          · exact .written hparse hviolations hreplace
  | rollback refusals =>
      unfold perform Session.rollback
      dsimp only
      generalize hrestore : desk.session.restore refusals desk.store = attempt
      obtain ⟨store, result⟩ := attempt
      cases result with
      | error error =>
          obtain rfl := Store.restore_eq_error hrestore
          exact .failed
      | ok changed => exact .restored hrestore

theorem Effect.frame {desk next : Desk} {call : Call} {reply : Except Failure Reply}
    (heffect : Effect desk call next reply) :
    next.session.path = desk.session.path ∧ next.session.initial = desk.session.initial ∧
      next.session.settings = desk.session.settings := by
  cases heffect <;> exact ⟨rfl, rfl, rfl⟩

/-- Only a write and a restore touch the store. -/
theorem Effect.store_eq {desk next : Desk} {call : Call} {reply : Except Failure Reply}
    (heffect : Effect desk call next reply) (hcall : ¬ call.stores) : next.store = desk.store := by
  cases heffect with
  | written | restored => exact absurd rfl hcall
  | _ => rfl

/-- Some content that one of the calls has written: the text of the session at that moment, which is a file again and
passes the checks. -/
def Wrote (desk : Desk) (calls : List Call) (content : Bytes) : Prop :=
  ∃ before refusals after outcome reread, calls = before ++ .write refusals :: after ∧
    ((Call.write refusals).perform (desk.run before)).result = .ok (.written outcome) ∧
    content = Utf8.encode (desk.run before).session.render ∧
    SourceFile.parse (desk.run before).session.render = .ok reread ∧
    reread.violations (desk.run before).session.settings = []

theorem Wrote.concat {desk : Desk} {calls : List Call} {content : Bytes} (hwrote : Wrote desk calls content)
    (call : Call) : Wrote desk (calls ++ [call]) content := by
  obtain ⟨before, refusals, after, outcome, reread, rfl, hrest⟩ := hwrote
  exact ⟨before, refusals, after ++ [call], outcome, reread, by simp, hrest⟩

/-- What holds of a session and its store after some calls, where the file had the given content and mode at first. -/
structure Guarded (start : Desk) (calls : List Call) (location : Location) (content : Bytes) (mode : Nat)
    (desk : Desk) : Prop where
  path : desk.session.path = start.session.path
  initial : desk.session.initial = start.session.initial
  others : ∀ other, other ≠ location → desk.store.entry? other = start.store.entry? other
  file : ∃ current, desk.store.entry? location = some (.file current mode) ∧
    (current = content ∨ Wrote start calls current)

section Run

variable {start : Desk} {location : Location} {mode : Nat}

theorem Guarded.resolve? {calls : List Call} {content current : Bytes} {desk : Desk}
    (hresolve : start.store.resolve? start.session.path = some location)
    (hentry : start.store.entry? location = some (.file current mode))
    (hguarded : Guarded start calls location content mode desk) :
    desk.store.resolve? desk.session.path = some location := by
  obtain ⟨current, hcurrent, -⟩ := hguarded.file
  rw [hguarded.path, Store.resolve?_of_others hentry hcurrent hguarded.others, hresolve]

theorem Guarded.step {calls : List Call} (hresolve : start.store.resolve? start.session.path = some location)
    (hstart : start.store.entry? location = some (.file (Utf8.encode start.session.initial) mode))
    (hguarded : Guarded start calls location (Utf8.encode start.session.initial) mode (start.run calls)) (call : Call) :
    Guarded start (calls ++ [call]) location (Utf8.encode start.session.initial) mode
      (start.run (calls ++ [call])) := by
  have hresolve := hguarded.resolve? hresolve hstart
  obtain ⟨hpath, hinitial, hothers, current, hentry, hcurrent⟩ := hguarded
  have hkept : current = Utf8.encode start.session.initial ∨ Wrote start (calls ++ [call]) current :=
    hcurrent.imp_right fun hwrote => hwrote.concat call
  have heffect := call.effect (start.run calls)
  rw [Desk.run_concat]
  generalize hperform : call.perform (start.run calls) = result at heffect ⊢
  obtain ⟨next, reply⟩ := result
  cases heffect with
  | @written refusals store reread outcome hparse hviolations hreplace =>
      obtain ⟨hself, hframe⟩ := Store.replace_of_file hresolve hentry hreplace
      refine ⟨hpath, hinitial, fun other hne => (hframe other hne).trans (hothers other hne), _, hself, .inr ?_⟩
      exact ⟨calls, refusals, [], outcome, reread, rfl, congrArg Attempt.result hperform, rfl, hparse, hviolations⟩
  | restored hrestore =>
      obtain ⟨hself, hframe⟩ := Store.restore_eq_ok hrestore hresolve hentry
      rw [hinitial] at hself
      exact ⟨hpath, hinitial, fun other hne => (hframe other hne).trans (hothers other hne), _, hself, .inl rfl⟩
  | _ => exact ⟨hpath, hinitial, hothers, current, hentry, hkept⟩

theorem guarded_run (hresolve : start.store.resolve? start.session.path = some location)
    (hentry : start.store.entry? location = some (.file (Utf8.encode start.session.initial) mode))
    (calls : List Call) :
    Guarded start calls location (Utf8.encode start.session.initial) mode (start.run calls) := by
  induction calls using List.reverseRecOn with
  | nil => exact ⟨rfl, rfl, fun _ _ => rfl, _, hentry, .inl rfl⟩
  | append_singleton calls call ih => exact ih.step hresolve hentry call

end Run

/-- A session is safe to use. Whatever is called, in any order and any number, and whatever the system refuses, the text
that was read at first is kept, and only the file of the session can change: it has its mode, and it holds what it held at
first or what one of the writes has written, which is a file that passes the checks. Of all calls only a write and a restore
touch the store. Changes that cannot be applied leave the session's file alone, and after a restore the file holds what it
held at first. -/
theorem run_guarded {store : Store} {path : Text} {settings : Settings} {session : Session}
    (hload : load store path settings = .ok session) :
    ∃ location content mode, locate? path = some location ∧ store.entry? location = some (.file content mode) ∧
      ∀ calls,
        let desk := Desk.run ⟨session, store⟩ calls
        Utf8.encode desk.session.initial = content ∧
        (∀ other, other ≠ location → desk.store.entry? other = store.entry? other) ∧
        (∃ current, desk.store.entry? location = some (.file current mode) ∧
          (current = content ∨ Wrote ⟨session, store⟩ calls current)) ∧
        (∀ call : Call, ¬ call.stores → (call.perform desk).state.store = desk.store) ∧
        (∀ failure, (Call.apply.perform desk).result = .error failure →
          (Call.apply.perform desk).state.session.file = desk.session.file) ∧
        ∀ refusals reply, ((Call.rollback refusals).perform desk).result = .ok reply →
          ((Call.rollback refusals).perform desk).state.store.entry? location = some (.file content mode) := by
  obtain ⟨location, content, mode, hresolve, hentry, hdecode, -, hsession⟩ := load_eq_ok hload
  have hpath : session.path = path := by rw [hsession]
  have hcontent := encode_of_decodeContent hdecode
  refine ⟨location, content, mode, Store.locate?_of_resolve? hresolve, hentry, fun calls => ?_⟩
  subst hcontent
  rw [← hpath] at hresolve
  have hguarded := @guarded_run ⟨session, store⟩ location mode hresolve hentry calls
  have hresolve := hguarded.resolve? hresolve hentry
  generalize Desk.run ⟨session, store⟩ calls = desk at hguarded hresolve
  obtain ⟨hpath, hinitial, hothers, hfile⟩ := hguarded
  refine ⟨congrArg Utf8.encode hinitial, hothers, hfile, ?_, ?_, ?_⟩
  · intro call hcall
    exact (call.effect desk).store_eq hcall
  · intro failure hfailure
    have heffect := Call.apply.effect desk
    rw [hfailure] at heffect
    generalize (Call.apply.perform desk).state = next at heffect
    cases heffect <;> rfl
  · intro refusals reply hreply
    have heffect := (Call.rollback refusals).effect desk
    rw [hreply] at heffect
    generalize ((Call.rollback refusals).perform desk).state = next at heffect
    obtain ⟨current, hcurrent, -⟩ := hfile
    cases heffect with
    | queued hcall => cases hcall
    | restored hrestore =>
        obtain ⟨hself, -⟩ := Store.restore_eq_ok hrestore hresolve hcurrent
        rwa [hinitial] at hself

theorem run_guarded_import :
    let store : Store := ⟨[(["a.go".toList], .file (Utf8.encode "package a\n".toList) 0o640)]⟩
    let stopped : Refusals := ⟨some (.rename "No space left".toList), false, none⟩
    let calls : List Call := [.write noRefusals, .addImport "fmt".toList none, .apply, .write stopped, .write noRefusals,
      .addField ['A'] ['X'] "int".toList none, .apply, .write noRefusals, .rollback ⟨none, true, some .create⟩]
    ∃ session location content current, load store "a.go".toList .standard = .ok session ∧
      store.entry? location = some (.file content 0o640) ∧
      (Desk.run ⟨session, store⟩ calls).store.entry? location = some (.file current 0o640) ∧
      current ≠ content ∧ Wrote ⟨session, store⟩ calls current := by
  intro store stopped calls
  have hrun : (load store "a.go".toList .standard).toOption.any fun session =>
      (Desk.run ⟨session, store⟩ calls).store.entry? ["a.go".toList] ≠ store.entry? ["a.go".toList] := by
    decide
  cases hload : load store "a.go".toList .standard with
  | error =>
      rw [hload] at hrun
      cases hrun
  | ok session =>
      rw [hload] at hrun
      obtain ⟨location, content, mode, hlocate, hentry, hcalls⟩ := run_guarded hload
      obtain rfl := Option.some.inj hlocate
      obtain ⟨-, rfl⟩ := Entry.file.inj (Option.some.inj hentry)
      obtain ⟨-, -, ⟨current, hcurrent, hwrote⟩, -⟩ := hcalls calls
      have hne : current ≠ content := by
        rintro rfl
        exact of_decide_eq_true hrun (hcurrent.trans hentry.symm)
      exact ⟨session, _, content, current, rfl, hentry, hcurrent, hne, hwrote.resolve_left hne⟩

end GoGraft.Session
