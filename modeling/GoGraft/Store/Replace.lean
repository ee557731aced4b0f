import GoGraft.Attempt
import GoGraft.Store.Access

/-! Replacing a file as a whole, and restoring what it held. The new content is staged in a file of its own next to the
target, which takes the place of the target at last. The system can refuse to go on at every stage. -/

namespace GoGraft

/-- Where the system refuses to go on while a file is replaced. -/
inductive Refusal where
  | create
  /-- Only some bytes of the content are written. -/
  | write (count : Nat)
  | flush
  | setMode
  | sync
  | rename (reason : Text)
deriving DecidableEq, Repr

/-- What the system refuses while a file is written, and while it is read and written to be restored. -/
structure Refusals where
  writing : Option Refusal
  rereading : Bool
  restoring : Option Refusal
deriving DecidableEq, Repr

def noRefusals : Refusals :=
  ⟨none, false, none⟩

/-- A name that is longer than some others. -/
def freshName (others : List Text) : Text :=
  ".tmp".toList ++ List.replicate (others.foldl (fun length name => max length name.length) 0) 'x'

/-- Whether the last part of a path is the name of an entry. -/
def endsWithName (path : Text) : Bool :=
  (Text.splitAt '/' path).getLast?.any fun name => !name.isEmpty && name ≠ ['.'] && name ≠ ['.', '.']

namespace Store

/-- The directory in which a target is staged: what the path leads to without its last name. -/
def home? (store : Store) (path : Text) : Option Location :=
  let names := (Text.splitAt '/' path).filter fun name => !name.isEmpty && name ≠ ['.']
  (store.walk? [] names.dropLast).filter store.isDirectory

/-- Why no file can be put under a path that does not end with a name of its own. -/
def obstacle (store : Store) (path : Text) : Text :=
  match ((Text.splitAt '/' path).filter fun name => !name.isEmpty).getLast? with
  | none | some ['.'] | some ['.', '.'] =>
      match (locate? path).bind store.entry? with
      | none => "No such file or directory (os error 2)".toList
      | some (.file ..) => "Not a directory (os error 20)".toList
      | some (.directory _) => "Device or resource busy (os error 16)".toList
  | some _ => "Not a directory (os error 20)".toList

/-- The location at which a file can be put under a path, or why there is none. -/
def target (store : Store) (path : Text) : Except Text Location :=
  if endsWithName path then
    match store.resolve? path with
    | none => .error "No such file or directory (os error 2)".toList
    | some location =>
        if store.isDirectory location then
          .error "Is a directory (os error 21)".toList
        else
          .ok location
  else
    .error (store.obstacle path)

/-- Makes an empty file next to the target, under a name that nothing else has. -/
def create (refusal : Option Refusal) (path : Text) (store : Store) : Attempt Store StoreError Location :=
  match store.home? path with
  | none => .fail store .inaccessible
  | some directory =>
      if refusal = some .create then
        .fail store .inaccessible
      else
        let staged := directory ++ [freshName (store.names directory ++ (locate? path).getD [])]
        .ok (store.set staged (.file [] privateMode)) staged

def fill (refusal : Option Refusal) (staged : Location) (content : Bytes) (store : Store) :
    Attempt Store StoreError Unit :=
  match refusal with
  | some (.write count) => .fail (store.set staged (.file (content.take count) privateMode)) .inaccessible
  | some .flush => .fail (store.set staged (.file content privateMode)) .inaccessible
  | _ => .ok (store.set staged (.file content privateMode)) ()

/-- Gives the staged file the mode of the target, if there is one. -/
def carryMode (refusal : Option Refusal) (staged : Location) (path : Text) (store : Store) :
    Attempt Store StoreError Unit :=
  match store.get? path with
  | none => .ok store ()
  | some target =>
      if refusal = some .setMode then
        .fail store .inaccessible
      else
        .ok (store.setModeAt staged target.mode) ()

def sync (refusal : Option Refusal) (store : Store) : Attempt Store StoreError Unit :=
  if refusal = some .sync then .fail store .inaccessible else .ok store ()

/-- Puts the staged file in the place of the target. -/
def rename (refusal : Option Refusal) (staged : Location) (path : Text) (store : Store) :
    Attempt Store StoreError Unit :=
  match store.target path, refusal with
  | .error reason, _ => .fail store (.notReplaced path reason)
  | .ok _, some (.rename reason) => .fail store (.notReplaced path reason)
  | .ok location, _ => .ok (store.move staged location) ()

/-- Replaces the content of a file as a whole. When that fails, the staged file is removed. -/
def replace (refusal : Option Refusal) (path : Text) (content : Bytes) (store : Store) :
    Attempt Store StoreError Unit :=
  (store.create refusal path).andThen fun store staged =>
    ((((store.fill refusal staged content).andThen
      fun store _ => store.carryMode refusal staged path).andThen
      fun store _ => store.sync refusal).andThen
      fun store _ => store.rename refusal staged path).onFailure
      fun store => store.discard staged

/-- Brings a file back to some content. The answer tells whether it had to be written. -/
def restore (refusals : Refusals) (path : Text) (content : Bytes) (store : Store) :
    Attempt Store StoreError Bool :=
  if !refusals.rereading && (store.get? path).bind Entry.content? = some content then
    .ok store false
  else
    (store.replace refusals.restoring path content).andThen fun store _ => .ok store true

end Store

end GoGraft
