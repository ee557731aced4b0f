import GoGraft.Text.Utf8

/-! A store of files. Entries are found under paths, and an entry below another one exists only while that one is
a directory. -/

namespace GoGraft

/-- The names on the way to an entry. -/
abbrev Location := List Text

inductive Entry where
  | file (content : Bytes) (mode : Nat)
  | directory (mode : Nat)
deriving DecidableEq, Repr

def Entry.mode : Entry → Nat
  | .file _ mode | .directory mode => mode

def Entry.withMode (mode : Nat) : Entry → Entry
  | .file content _ => .file content mode
  | .directory _ => .directory mode

def Entry.content? : Entry → Option Bytes
  | .file content _ => some content
  | .directory _ => none

structure Store where
  entries : List (Location × Entry)
deriving DecidableEq, Repr

/-- Modes of files and directories that are put into the store, and of new files that replace none. -/
def fileMode : Nat := 0o644
def directoryMode : Nat := 0o755
def privateMode : Nat := 0o600

/-- Where a name leads from a location: to the same one, up or down. Nothing is above the store. -/
def follow? (location : Location) (name : Text) : Option Location :=
  if name.isEmpty || name = ['.'] then
    some location
  else if name = ['.', '.'] then
    if location.isEmpty then none else some location.dropLast
  else
    some (location ++ [name])

/-- The location that a path names. The empty path names none. -/
def locate? (path : Text) : Option Location :=
  if path.isEmpty then none else (Text.splitAt '/' path).foldlM follow? []

namespace Store

def empty : Store :=
  ⟨[]⟩

/-- The entry at a location. The store as a whole is a directory. -/
def entry? (store : Store) (location : Location) : Option Entry :=
  if location.isEmpty then some (.directory directoryMode) else store.entries.lookup location

def isDirectory (store : Store) (location : Location) : Bool :=
  (store.entry? location) matches some (.directory _)

/-- Where names lead, one after the other. Only directories lead on. -/
def walk? (store : Store) (location : Location) : List Text → Option Location
  | [] => some location
  | name :: names =>
      if store.isDirectory location then
        (follow? location name).bind fun next => store.walk? next names
      else
        none

/-- The location that a path leads to. -/
def resolve? (store : Store) (path : Text) : Option Location :=
  if path.isEmpty then none else store.walk? [] (Text.splitAt '/' path)

def get? (store : Store) (path : Text) : Option Entry :=
  (store.resolve? path).bind store.entry?

/-- Sets an entry, in its place when the location has one already. -/
def set (store : Store) (location : Location) (entry : Entry) : Store :=
  if (store.entries.lookup location).isSome then
    ⟨store.entries.map fun (other, old) => if other = location then (other, entry) else (other, old)⟩
  else
    ⟨store.entries ++ [(location, entry)]⟩

/-- Makes the directories on the way to a location. -/
def makeParents (store : Store) (location : Location) : Store :=
  (List.range location.length).foldl
    (fun store depth =>
      let parent := location.take depth
      if (store.entry? parent).isSome then store else store.set parent (.directory directoryMode))
    store

/-- Puts a file into the store, with the directories that it needs. -/
def put (store : Store) (path : Text) (content : Bytes) : Store :=
  match locate? path with
  | some location => (store.makeParents location).set location (.file content fileMode)
  | none => store

def makeDirectory (store : Store) (path : Text) : Store :=
  match locate? path with
  | some location =>
      if (store.entry? location).isSome then
        store
      else
        (store.makeParents location).set location (.directory directoryMode)
  | none => store

/-- Removes an entry with all that is below it. -/
def remove (store : Store) (path : Text) : Store :=
  match locate? path with
  | some location => ⟨store.entries.filter fun (other, _) => !location.isPrefixOf other⟩
  | none => store

/-- Removes the entry at a location. -/
def discard (store : Store) (location : Location) : Store :=
  ⟨store.entries.filter fun (other, _) => other ≠ location⟩

def setModeAt (store : Store) (location : Location) (mode : Nat) : Store :=
  match store.entry? location with
  | some entry => store.set location (entry.withMode mode)
  | none => store

def setMode (store : Store) (path : Text) (mode : Nat) : Store :=
  match store.resolve? path with
  | some location => store.setModeAt location mode
  | none => store

/-- Puts an entry in the place of another one. -/
def move (store : Store) (source target : Location) : Store :=
  match store.entry? source with
  | some entry => (store.discard source).set target entry
  | none => store

/-- The names in a directory. -/
def names (store : Store) (directory : Location) : List Text :=
  store.entries.filterMap fun (location, _) =>
    if location.dropLast = directory then location.getLast? else none

end Store

end GoGraft
