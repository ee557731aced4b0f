import GoGraft.File.Basic

/-! Finding declarations by name. Where a name is declared more than once, the first declaration counts. -/

namespace GoGraft

/-- A type specification: the index of its declaration, and its index there. -/
structure TypeLocation where
  declaration : Nat
  spec : Nat
deriving DecidableEq, Repr

/-- Where a new declaration goes. -/
inductive Placement where
  | last
  | after (name : Text)
  | before (name : Text)
deriving DecidableEq, Repr

def Placement.anchor : Placement → Option Text
  | .last => none
  | .after name | .before name => some name

/-- A table with an entry more, unless the key has one already. -/
def enter {α : Type} (table : List (Text × α)) (key : Text) (value : α) : List (Text × α) :=
  match table.lookup key with
  | some _ => table
  | none => table ++ [(key, value)]

namespace SourceFile

def imports (file : SourceFile) : List ImportSpec :=
  file.declarations.flatMap Declaration.imports

/-- The number of import declarations before the first other one. -/
def leadingImports (file : SourceFile) : Nat :=
  (file.declarations.takeWhile Declaration.isImport).length

/-- All type specifications with their locations, in order. -/
def typeSpecs (file : SourceFile) : List (TypeLocation × TypeSpec) :=
  file.declarations.zipIdx.flatMap fun (declaration, i) =>
    declaration.typeSpecs.zipIdx.map fun (spec, j) => (⟨i, j⟩, spec)

/-- The type names of a file, each with the location of its first specification. -/
def typeTable (file : SourceFile) : List (Text × TypeLocation) :=
  file.typeSpecs.foldl (fun table (location, spec) => enter table spec.name location) []

/-- The bound names of a file, each with the index of the first declaration that binds it. -/
def nameTable (file : SourceFile) : List (Text × Nat) :=
  file.declarations.zipIdx.foldl
    (fun table (declaration, i) =>
      declaration.names.foldl (fun table name => enter table name i) table)
    []

def typeLocation? (file : SourceFile) (name : Text) : Option TypeLocation :=
  file.typeTable.lookup name

def positionOf? (file : SourceFile) (name : Text) : Option Nat :=
  file.nameTable.lookup name

def typeSpec? (file : SourceFile) (location : TypeLocation) : Option TypeSpec := do
  let declaration ← file.declarations[location.declaration]?
  declaration.typeSpecs[location.spec]?

/-- The struct type that a name stands for. -/
def recordLocation? (file : SourceFile) (name : Text) : Option TypeLocation := do
  let location ← file.typeLocation? name
  let spec ← file.typeSpec? location
  let _ ← spec.record?
  return location

def record? (file : SourceFile) (name : Text) : Option Record := do
  let location ← file.recordLocation? name
  let spec ← file.typeSpec? location
  spec.record?

def hasType (file : SourceFile) (name : Text) : Bool :=
  (file.typeLocation? name).isSome

def hasImport (file : SourceFile) (path : Text) : Bool :=
  file.imports.any (·.path = path)

/-- The import that gives a package name its meaning. -/
def provider? (file : SourceFile) (package : Text) : Option ImportSpec :=
  file.imports.find? (·.namespaceName = package)

/-- The index at which a new declaration is inserted, which is never among the leading imports. Without its
anchor, a placement means the end. -/
def resolve (file : SourceFile) (placement : Placement) : Nat :=
  let last := file.declarations.length
  let index :=
    match placement with
    | .last => last
    | .after name => ((file.positionOf? name).map (· + 1)).getD last
    | .before name => (file.positionOf? name).getD last
  max index file.leadingImports

end SourceFile

end GoGraft
