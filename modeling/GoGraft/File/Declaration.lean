import GoGraft.TypeExpr

/-! The declarations of a Go file: each keeps its text as it was written, next to what an edit needs to know
of its structure. Positions count the characters of the declaration's own text. -/

namespace GoGraft

structure ImportSpec where
  localName : Option Text
  path : Text
  /-- The path as it was written, with its quotes. -/
  literal : Text
deriving DecidableEq, Repr

/-- The name by which the file refers to the imported package. -/
def ImportSpec.namespaceName (spec : ImportSpec) : Text :=
  spec.localName.getD ((Text.splitAt '/' spec.path).getLast?.getD [])

/-- Where a further import can be written. -/
inductive ImportLayout where
  /-- In parentheses, the last of which stands at `close`; the last import is indented by `indent`. -/
  | grouped (close : Nat) (indent : Option Text)
  /-- One import: the declaration begins at `start` and the import proper runs from `spec` to `stop`. -/
  | single (start spec stop : Nat)
deriving DecidableEq, Repr

structure Field where
  name : Text
  type : TypeExpr
  /-- The tag as it was written, with its quotes. -/
  tag : Option Text
  embedded : Bool
deriving DecidableEq, Repr

/-- A struct type. Its closing brace stands at `close`, and its last field is indented by `indent`. -/
structure Record where
  fields : List Field
  close : Nat
  indent : Option Text
deriving DecidableEq, Repr

def Record.hasField (record : Record) (name : Text) : Bool :=
  record.fields.any (·.name = name)

inductive TypeBody where
  | record (record : Record)
  | expr (type : TypeExpr)
deriving DecidableEq, Repr

structure TypeSpec where
  name : Text
  isAlias : Bool
  body : TypeBody
deriving DecidableEq, Repr

def TypeSpec.record? (spec : TypeSpec) : Option Record :=
  match spec.body with
  | .record record => some record
  | .expr _ => none

inductive DeclarationKind where
  | imports (specs : List ImportSpec) (layout : ImportLayout)
  | types (specs : List TypeSpec)
  | function (name : Text)
  | values (names : List Text)
deriving DecidableEq, Repr

structure Declaration where
  text : Text
  kind : DeclarationKind
deriving DecidableEq, Repr

namespace Declaration

def names (declaration : Declaration) : List Text :=
  match declaration.kind with
  | .imports _ _ => []
  | .types specs => specs.map (·.name)
  | .function name => [name]
  | .values names => names

def isImport (declaration : Declaration) : Bool :=
  declaration.kind matches .imports _ _

def imports (declaration : Declaration) : List ImportSpec :=
  match declaration.kind with
  | .imports specs _ => specs
  | _ => []

def typeSpecs (declaration : Declaration) : List TypeSpec :=
  match declaration.kind with
  | .types specs => specs
  | _ => []

end Declaration

end GoGraft
