import GoGraft.Attempt
import GoGraft.Change.Basic
import GoGraft.Failure

/-! Applying changes. A change that a file already has leaves it alone. A change may take several edits: when one
of them fails, the file keeps the edits before it, and it is for the caller to go back. -/

namespace GoGraft

/-- The packages that some types name, each once, in order of first appearance. -/
def requiredPackages (types : List TypeExpr) : List Text :=
  (types.flatMap TypeExpr.packages).foldl
    (fun needed package => if needed.contains package then needed else needed ++ [package]) []

namespace SourceFile

/-- Imports each package that no import of the file provides. -/
def ensureImports (file : SourceFile) : List Text → Attempt SourceFile Failure Unit
  | [] => .ok file ()
  | package :: others =>
      if (file.provider? package).isSome then
        file.ensureImports others
      else
        match file.appendImport package none with
        | .ok file => file.ensureImports others
        | .error error => .fail file (.unedited error)

def addField (file : SourceFile) (record : Text) (field : NewField) : Attempt SourceFile Failure Outcome :=
  match file.recordLocation? record with
  | none => .fail file (.targetNotFound record)
  | some location =>
      if (file.record? record).any (·.hasField field.name) then
        .ok file .alreadyPresent
      else
        match file.appendField location field with
        | .error error => .fail file (.unedited error)
        | .ok file =>
            (file.ensureImports (requiredPackages [field.type])).andThen
              fun file _ => .ok file .applied

def addType (file : SourceFile) (type : NewType) (placement : Placement) : Attempt SourceFile Failure Outcome :=
  if file.hasType type.name then
    .ok file .alreadyPresent
  else
    match file.insertType (file.resolve placement) type with
    | .error error => .fail file (.unedited error)
    | .ok (file, _) =>
        (file.ensureImports (requiredPackages type.referencedTypes)).andThen
          fun file _ => .ok file .applied

def addImport (file : SourceFile) (path : Text) (localName : Option Text) : Attempt SourceFile Failure Outcome :=
  if file.hasImport path then
    .ok file .alreadyPresent
  else
    match file.appendImport path localName with
    | .error error => .fail file (.unedited error)
    | .ok file => .ok file .applied

end SourceFile

def Change.apply (change : Change) (file : SourceFile) : Attempt SourceFile Failure Outcome :=
  match change with
  | .addField record field => file.addField record field
  | .addType type placement => file.addType type placement
  | .addImport path localName => file.addImport path localName

end GoGraft
