import GoGraft.Session

/-! Requests for one file, taken as a whole: they can be checked beforehand, tried without writing, or carried
out. When carrying them out fails, the file is as it was. -/

namespace GoGraft

structure Operation where
  path : Text
  requests : List Request
  settings : Settings
deriving DecidableEq, Repr

structure Execution where
  path : Text
  report : Report
  outcome : WriteOutcome
deriving DecidableEq, Repr

def Execution.changed (execution : Execution) : Bool :=
  execution.outcome matches .written _

/-- Whether every struct type that is to get a field is in the file, or is declared by an earlier change. -/
def SourceFile.preflight (file : SourceFile) (declared : List Text) :
    List Change → Except Failure Unit
  | [] => .ok ()
  | .addType type _ :: others =>
      match type.body with
      | .record _ => file.preflight (type.name :: declared) others
      | _ => file.preflight declared others
  | .addField record _ :: others =>
      if declared.contains record || (file.recordLocation? record).isSome then
        file.preflight declared others
      else
        .error (.targetNotFound record)
  | .addImport _ _ :: others => file.preflight declared others

namespace Operation

def changes (operation : Operation) : Except Failure (List Change) :=
  (operation.requests.mapM Request.toChange).mapError .refused

/-- A session in which all requests are queued. -/
def prepare (operation : Operation) (store : Store) : Except Failure Session := do
  let changes ← operation.changes
  let session ← Session.load store operation.path operation.settings
  return changes.foldl Session.queue session

/-- Checks the requests against the file; with `force`, only each by itself. -/
def validate (operation : Operation) (store : Store) (force : Bool) : Except Failure Unit := do
  let changes ← operation.changes
  let session ← Session.load store operation.path operation.settings
  if force then .ok () else session.file.preflight [] changes

/-- Applies what is queued and writes the file. -/
def commit (session : Session) (refusals : Refusals) (store : Store) :
    Attempt Store Failure (Report × WriteOutcome) :=
  match session.apply with
  | ⟨_, .error failure⟩ => .fail store failure
  | ⟨session, .ok report⟩ => (session.write refusals store).andThen fun store outcome => .ok store (report, outcome)

/-- Restores the file after a failure. -/
def recover (session : Session) (refusals : Refusals) (store : Store) (cause : Failure) : Store × Failure :=
  match session.restore refusals store with
  | ⟨store, .ok _⟩ => (store, cause)
  | ⟨store, .error error⟩ => (store, .stranded cause error)

/-- Carries the requests out. -/
def execute (operation : Operation) (refusals : Refusals) (store : Store) : Attempt Store Failure Execution :=
  match operation.prepare store with
  | .error failure => .fail store failure
  | .ok session =>
      match commit session refusals store with
      | ⟨store, .ok (report, outcome)⟩ => .ok store ⟨operation.path, report, outcome⟩
      | ⟨store, .error cause⟩ =>
          let (store, failure) := recover session refusals store cause
          .fail store failure

/-- The difference that carrying the requests out would make. -/
def preview (operation : Operation) (store : Store) : Attempt Store Failure Text :=
  match operation.prepare store with
  | .error failure => .fail store failure
  | .ok session =>
      match session.apply with
      | ⟨_, .error failure⟩ => .fail store failure
      | ⟨session, .ok _⟩ => .ok store session.diff

def describe (operation : Operation) : Text :=
  let count := operation.requests.length
  if count = 0 then
    "Modify ".toList ++ operation.path ++ ": no changes".toList
  else
    "Modify ".toList ++ operation.path ++ " (".toList ++ Text.ofNat count ++
      " change".toList ++ (if count = 1 then [] else ['s']) ++ "): ".toList ++
      Text.join ", ".toList (operation.requests.map Request.describe)

end Operation

end GoGraft
