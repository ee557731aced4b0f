import GoGraft.File.Lookup

/-! Structural checks of a file. A check reports every fault that it finds, in the order of the
declarations. -/

namespace GoGraft

inductive Fault where
  | emptyTypeName
  | emptyTypeExpression (type : Text)
  | emptyFieldName (type : Text)
  | emptyFieldType (type field : Text)
  | emptyImportPath
  | undelimitedImportPath (literal : Text)
  | emptyDeclarationName
  | importAfterDeclaration
  | selfReference (type field : Text)
deriving DecidableEq, Repr

structure Violation where
  declaration : Nat
  fault : Fault
deriving DecidableEq, Repr

def Fault.message : Fault → Text
  | .emptyTypeName => "type declaration has an empty name".toList
  | .emptyTypeExpression type =>
      "type `".toList ++ type ++ "` has an empty type expression".toList
  | .emptyFieldName type => "type `".toList ++ type ++ "` has a field with an empty name".toList
  | .emptyFieldType type field =>
      "field `".toList ++ type ++ '.' :: field ++ "` has an empty type".toList
  | .emptyImportPath => "import has an empty path".toList
  | .undelimitedImportPath literal =>
      "import path ".toList ++ literal ++ " is not properly quoted".toList
  | .emptyDeclarationName => "declaration has an empty name".toList
  | .importAfterDeclaration => "import declaration follows a non-import declaration".toList
  | .selfReference type field =>
      "field `".toList ++ type ++ '.' :: field ++ "` directly embeds its own type".toList

def Violation.message (violation : Violation) : Text :=
  "declaration ".toList ++ Text.ofNat violation.declaration ++ ": ".toList ++
    violation.fault.message

/-- Between quotes of one kind. -/
def isDelimited (literal : Text) : Bool :=
  2 ≤ literal.length &&
    match literal.head?, literal.getLast? with
    | some first, some last => first = last && (first = '\x22' || first = '\x60')
    | _, _ => false

/-- A fault where a condition holds. -/
def faultIf (condition : Bool) (fault : Fault) : List Fault :=
  if condition then [fault] else []

def ImportSpec.faults (spec : ImportSpec) : List Fault :=
  faultIf spec.path.isEmpty .emptyImportPath ++
    faultIf (!isDelimited spec.literal) (.undelimitedImportPath spec.literal)

def Field.faults (type : Text) (field : Field) : List Fault :=
  faultIf field.name.isBlank (.emptyFieldName type) ++
    faultIf (!field.type.isWellFormed) (.emptyFieldType type field.name)

def TypeSpec.faults (spec : TypeSpec) : List Fault :=
  faultIf spec.name.isBlank .emptyTypeName ++
    match spec.body with
    | .expr type => faultIf (!type.isWellFormed) (.emptyTypeExpression spec.name)
    | .record record => record.fields.flatMap (Field.faults spec.name)

/-- The faults of a declaration; `late` when a declaration that is no import stands before it. -/
def Declaration.faults (late : Bool) (declaration : Declaration) : List Fault :=
  match declaration.kind with
  | .imports specs _ => faultIf late .importAfterDeclaration ++ specs.flatMap ImportSpec.faults
  | .types specs => specs.flatMap TypeSpec.faults
  | .function _ | .values _ =>
      faultIf (declaration.names.any Text.isBlank) .emptyDeclarationName

/-- The fields of a struct type whose type is that struct type itself. -/
def TypeSpec.selfReferences (spec : TypeSpec) : List Fault :=
  match spec.body with
  | .expr _ => []
  | .record record =>
      (record.fields.filter (·.type = .verbatim spec.name)).map fun field =>
        .selfReference spec.name field.name

namespace SourceFile

/-- Checks declarations of which the first has the given index. -/
def checkFrom (index : Nat) (late : Bool) : List Declaration → List Violation
  | [] => []
  | declaration :: rest =>
      (declaration.faults late).map (⟨index, ·⟩) ++
        checkFrom (index + 1) (late || !declaration.isImport) rest

/-- All structural faults of a file. -/
def check (file : SourceFile) : List Violation :=
  checkFrom 0 false file.declarations

/-- Struct types that hold themselves directly. Longer cycles are not looked for. -/
def checkSelfReferences (file : SourceFile) : List Violation :=
  file.typeSpecs.flatMap fun (location, spec) =>
    spec.selfReferences.map (⟨location.declaration, ·⟩)

end SourceFile

end GoGraft
