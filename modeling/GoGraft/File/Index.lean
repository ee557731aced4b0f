import GoGraft.Attempt
import GoGraft.File.Edit

/-! Files with their tables at hand. Both tables are made when a file is read and anew after each edit that succeeds, so
that finding a name does not take a walk through the declarations. -/

namespace GoGraft

/-- A file, and the tables in which its names are looked up. -/
structure IndexedFile where
  file : SourceFile
  types : List (Text × TypeLocation)
  names : List (Text × Nat)
deriving DecidableEq, Repr

namespace IndexedFile

/-- Makes the tables anew from the declarations. -/
def reindex (indexed : IndexedFile) : IndexedFile :=
  { indexed with types := indexed.file.typeTable, names := indexed.file.nameTable }

def parse (text : Text) : Except ParseError IndexedFile := do
  let file ← SourceFile.parse text
  return reindex ⟨file, [], []⟩

def typeLocation? (indexed : IndexedFile) (name : Text) : Option TypeLocation :=
  indexed.types.lookup name

def positionOf? (indexed : IndexedFile) (name : Text) : Option Nat :=
  indexed.names.lookup name

/-- Takes over the file that an edit has made, with its tables made anew. An edit that fails has not come to the
declarations. -/
def adopt {α : Type} (indexed : IndexedFile) (made : Except EditError (SourceFile × α)) :
    Attempt IndexedFile EditError α :=
  match made with
  | .ok (file, value) => .ok (reindex { indexed with file }) value
  | .error error => .fail indexed error

def appendField (indexed : IndexedFile) (location : TypeLocation) (field : NewField) :
    Attempt IndexedFile EditError Unit :=
  indexed.adopt ((indexed.file.appendField location field).map (·, ()))

def insertType (indexed : IndexedFile) (index : Nat) (type : NewType) : Attempt IndexedFile EditError Nat :=
  indexed.adopt (indexed.file.insertType index type)

def appendImport (indexed : IndexedFile) (path : Text) (localName : Option Text) :
    Attempt IndexedFile EditError Unit :=
  indexed.adopt ((indexed.file.appendImport path localName).map (·, ()))

end IndexedFile

end GoGraft
