import GoGraft.Change.Batch
import GoGraft.Diff.Hunk
import GoGraft.Store.Replace

/-! Work on one file of a store: the file is read once, changes are queued and applied to it in memory, and it is
written back. What was read at first is kept, so that it can be restored. -/

namespace GoGraft

inductive WriteOutcome where
  | written (bytes : Nat)
  | unchanged
deriving DecidableEq, Repr

structure Session where
  path : Text
  /-- The text that was read. -/
  initial : Text
  file : SourceFile
  pending : List Change
  settings : Settings
deriving DecidableEq, Repr

namespace Session

/-- Begins to work on the file at a path. -/
def load (store : Store) (path : Text) (settings : Settings) : Except Failure Session := do
  let content ← (store.read path settings.maxFileSize).mapError .unread
  let initial ← (decodeContent content).mapError .unread
  let file ← (SourceFile.parse initial).mapError (.unparsed path)
  return ⟨path, initial, file, [], settings⟩

def queue (session : Session) (change : Change) : Session :=
  { session with pending := session.pending ++ [change] }

/-- Queues what a request asks for. -/
def request (session : Session) (request : Request) : Except Failure Session :=
  match request.toChange with
  | .ok change => .ok (session.queue change)
  | .error error => .error (.refused error)

def addField (session : Session) (record field type : Text) (tag : Option Text) :
    Except Failure Session :=
  session.request (.addField record ⟨field, type, tag, none⟩)

/-- Queues a type that was not made from a request. -/
def addType (session : Session) (type : NewType) (placement : Placement) :
    Except Failure Session :=
  match type.check with
  | .ok () => .ok (session.queue (.addType type placement))
  | .error error => .error (.refused error)

def addImport (session : Session) (path : Text) (localName : Option Text) :
    Except Failure Session :=
  session.request (.addImport path localName)

/-- Applies the queued changes as a batch. Afterwards none are queued, whether they could be applied or not. -/
def apply (session : Session) : Attempt Session Failure Report :=
  let attempt := session.file.applyAll session.pending session.settings
  ⟨{ session with file := attempt.state, pending := [] }, attempt.result⟩

def render (session : Session) : Text :=
  session.file.render

def isModified (session : Session) : Bool :=
  session.render ≠ session.initial

def diff (session : Session) : Text :=
  Diff.unified session.initial session.render session.settings.diffContext

/-- What is written: the text, which has to be readable again and to pass the checks. -/
def output (session : Session) : Except Failure Bytes := do
  let file ← (SourceFile.parse session.render).mapError (.unparsed session.path)
  file.accept session.settings
  return Utf8.encode session.render

/-- Writes the file back. -/
def write (session : Session) (refusals : Refusals) (store : Store) : Attempt Store Failure WriteOutcome :=
  if session.settings.skipUnchangedWrites && session.render = session.initial then
    .ok store .unchanged
  else
    match session.output with
    | .error failure => .fail store failure
    | .ok content =>
        match store.replace refusals.writing session.path content with
        | ⟨store, .ok ()⟩ => .ok store (.written content.length)
        | ⟨store, .error error⟩ => .fail store (.unwritten session.path error)

/-- Puts back what was read at first. -/
def restore (session : Session) (refusals : Refusals) (store : Store) : Attempt Store StoreError Bool :=
  store.restore refusals session.path (Utf8.encode session.initial)

def rollback (session : Session) (refusals : Refusals) (store : Store) : Attempt Store Failure Unit :=
  match session.restore refusals store with
  | ⟨store, .ok _⟩ => .ok store ()
  | ⟨store, .error error⟩ => .fail store (.unrestored session.path error)

end Session

end GoGraft
