import GoGraft.TypeExpr

/-! Fields, types and imports that are to be added to a file, and the Go text for them. The line ending and
the indentation are those of the file that they are written into. -/

namespace GoGraft

structure NewField where
  name : Text
  type : TypeExpr
  tag : Option Text
  doc : Option Text
deriving DecidableEq, Repr

inductive NewBody where
  | record (fields : List NewField)
  | defined (type : TypeExpr)
  | aliased (type : TypeExpr)
deriving DecidableEq, Repr

structure NewType where
  name : Text
  doc : Option Text
  body : NewBody
deriving DecidableEq, Repr

/-- A doc comment: a line of its own for each line of the text. -/
def renderDoc (doc : Option Text) (indent newline : Text) : Text :=
  (Text.lines (doc.getD [])).flatMap fun line =>
    indent ++ "//".toList ++ (if line.isEmpty then [] else ' ' :: line) ++ newline

/-- A tag as a string literal. Text that does not begin with a quote is put between backquotes. -/
def renderTag (tag : Text) : Text :=
  match tag with
  | '\x60' :: _ | '\x22' :: _ => tag
  | _ => '\x60' :: (tag ++ ['\x60'])

def NewField.render (field : NewField) (indent newline : Text) : Text :=
  let tag :=
    match field.tag with
    | none | some [] => []
    | some tag => ' ' :: renderTag tag
  renderDoc field.doc indent newline ++ indent ++ field.name ++ ' ' :: field.type.render ++ tag ++
    newline

namespace NewType

/-- A struct type without fields. -/
def record (name : Text) : NewType :=
  ⟨name, none, .record []⟩

def withDoc (type : NewType) (doc : Text) : NewType :=
  { type with doc := some doc }

/-- Adds a field to a struct type, and leaves any other type alone. -/
def withField (type : NewType) (field : NewField) : NewType :=
  match type.body with
  | .record fields => { type with body := .record (fields ++ [field]) }
  | _ => type

def referencedTypes (type : NewType) : List TypeExpr :=
  match type.body with
  | .record fields => fields.map (·.type)
  | .defined type | .aliased type => [type]

def render (type : NewType) (newline : Text) : Text :=
  let body :=
    match type.body with
    | .record fields =>
        " struct \x7b".toList ++ newline ++ fields.flatMap (·.render ['\t'] newline) ++ ['\x7d']
    | .defined type => ' ' :: type.render
    | .aliased type => " = ".toList ++ type.render
  renderDoc type.doc [] newline ++ "type ".toList ++ type.name ++ body

end NewType

def renderImport (path : Text) (localName : Option Text) : Text :=
  let literal := '\x22' :: (path ++ ['\x22'])
  match localName with
  | some name => name ++ ' ' :: literal
  | none => literal

end GoGraft
