import GoGraft.Change.Basic

/-! Requests for changes, as they are handed over: every part is a text that still has to be checked.
`Request.toChange` checks a request and answers the first problem that it finds. -/

namespace GoGraft

structure FieldRequest where
  name : Text
  type : Text
  tag : Option Text
  doc : Option Text
deriving DecidableEq, Repr

/-- A type to be declared: over another type, or else a struct type with the given fields. -/
structure TypeRequest where
  name : Text
  doc : Option Text
  fields : List FieldRequest
  underlying : Option Text
  isAlias : Bool
  placement : Placement
deriving DecidableEq, Repr

inductive Request where
  | addField (record : Text) (field : FieldRequest)
  | addType (type : TypeRequest)
  | addImport (path : Text) (localName : Option Text)
deriving DecidableEq, Repr

inductive RequestKind where
  | addField
  | addType
  | addImport
deriving DecidableEq, Repr

def RequestKind.name : RequestKind → Text
  | .addField => "add_record_field".toList
  | .addType => "add_type_declaration".toList
  | .addImport => "add_import".toList

def Request.describe : Request → Text
  | .addField record field => "add field ".toList ++ record ++ '.' :: field.name
  | .addType type => "add type ".toList ++ type.name
  | .addImport path _ => "add import ".toList ++ renderImport path none

inductive RequestError where
  | missingParameter (kind : RequestKind) (parameter : Text)
  | invalidIdentifier (name : Text)
  | invalidType (text : Text) (error : TypeError)
  | invalidTag (tag : Text)
  | invalidImportPath (path : Text)
  | duplicateField (record field : Text)
  | conflictingBody (type : Text)
  | undecodable
deriving DecidableEq, Repr

def RequestError.message : RequestError → Text
  | .missingParameter kind parameter =>
      "Missing parameter `".toList ++ parameter ++ "` for ".toList ++ kind.name
  | .invalidIdentifier name => "Invalid identifier `".toList ++ name ++ "`".toList
  | .invalidType text error =>
      "Invalid type `".toList ++ text ++ "`: ".toList ++ error.message
  | .invalidTag tag => "Invalid struct tag ".toList ++ tag
  | .invalidImportPath path => "Invalid import path `".toList ++ path ++ "`".toList
  | .duplicateField record field =>
      "Duplicate field `".toList ++ field ++ "` in type `".toList ++ record ++ "`".toList
  | .conflictingBody type =>
      "Type `".toList ++ type ++ "` cannot have both fields and an underlying type".toList
  | .undecodable => "Failed to decode modification specs".toList

abbrev Checked := Except RequestError

/-- A parameter that may not be left blank. -/
def require (kind : RequestKind) (parameter : String) (value : Text) : Checked Unit :=
  if value.isBlank then .error (.missingParameter kind parameter.toList) else .ok ()

def checkIdentifier (name : Text) : Checked Unit :=
  if isIdentifier name then .ok () else .error (.invalidIdentifier name)

def checkType (type : TypeExpr) : Checked Unit :=
  if type.isWellFormed then .ok () else .error (.invalidType type.render .empty)

/-- A tag is written between quotes of one kind, or without quotes. -/
def isTag (tag : Text) : Bool :=
  !tag.contains '\n' &&
    match tag with
    | '\x60' :: rest => rest.getLast? = some '\x60' && !rest.dropLast.contains '\x60'
    | '\x22' :: rest => rest.getLast? = some '\x22'
    | _ => !tag.contains '\x60'

def checkTag (tag : Text) : Checked Unit :=
  if isTag tag then .ok () else .error (.invalidTag tag)

def isImportPath (path : Text) : Bool :=
  path.all fun c =>
    !(Text.isSpace c || Text.isControl c || c = '\x22' || c = '\x60' || c = '\\')

def checkImportPath (path : Text) : Checked Unit :=
  if isImportPath path then .ok () else .error (.invalidImportPath path)

/-- A name for an imported package; a dot takes over all its names. -/
def checkLocalName (name : Text) : Checked Unit :=
  if name = ['.'] then .ok () else checkIdentifier name

def checkPlacement (placement : Placement) : Checked Unit :=
  match placement.anchor with
  | some name => checkIdentifier name
  | none => .ok ()

/-- Reads the type of a request. -/
def readType (kind : RequestKind) (text : Text) : Checked TypeExpr := do
  require kind "type" text
  let type ← (TypeExpr.read text).mapError (.invalidType text)
  checkType type
  return type

/-- Checks a field whose name is the given parameter. An empty tag is no tag. -/
def FieldRequest.toField (kind : RequestKind) (parameter : String) (field : FieldRequest) :
    Checked NewField := do
  require kind parameter field.name
  checkIdentifier field.name
  let type ← readType kind field.type
  match field.tag with
  | none | some [] => return ⟨field.name, type, none, field.doc⟩
  | some tag =>
      checkTag tag
      return ⟨field.name, type, some tag, field.doc⟩

/-- Checks the fields of a struct type, after those whose names are given. -/
def checkFields (record : Text) (seen : List Text) : List NewField → Checked Unit
  | [] => .ok ()
  | field :: rest => do
      require .addType "fields.name" field.name
      checkIdentifier field.name
      checkType field.type
      match field.tag with
      | some tag => checkTag tag
      | none => .ok ()
      if seen.contains field.name then
        .error (.duplicateField record field.name)
      else
        checkFields record (field.name :: seen) rest

/-- Checks a type that was not made from a request. -/
def NewType.check (type : NewType) : Checked Unit := do
  require .addType "name" type.name
  checkIdentifier type.name
  match type.body with
  | .record fields => checkFields type.name [] fields
  | .defined underlying | .aliased underlying => checkType underlying

def TypeRequest.toBody (type : TypeRequest) : Checked NewBody :=
  match type.underlying with
  | some text =>
      if !type.fields.isEmpty then
        .error (.conflictingBody type.name)
      else do
        let underlying ← readType .addType text
        return if type.isAlias then .aliased underlying else .defined underlying
  | none =>
      if type.isAlias then
        .error (.missingParameter .addType "type".toList)
      else do
        let fields ← type.fields.mapM (·.toField .addType "fields.name")
        return .record fields

def TypeRequest.toType (type : TypeRequest) : Checked NewType := do
  require .addType "name" type.name
  let body ← type.toBody
  let made : NewType := ⟨type.name, type.doc, body⟩
  made.check
  return made

def Request.toChange : Request → Checked Change
  | .addField record field => do
      require .addField "record" record
      checkIdentifier record
      return .addField record (← field.toField .addField "field")
  | .addType type => do
      let made ← type.toType
      checkPlacement type.placement
      return .addType made type.placement
  | .addImport path localName => do
      require .addImport "path" path
      checkImportPath path
      match localName with
      | some name => checkLocalName name
      | none => .ok ()
      return .addImport path localName

end GoGraft
