import GoGraft.Json.Read
import GoGraft.Request.Encode
import GoGraft.Yaml.Read

/-! Requests from JSON and YAML. Every parameter has a default, so that a missing one is reported by the check of
the request. -/

namespace GoGraft

def RequestKind.ofName? (name : Text) : Option RequestKind :=
  [RequestKind.addField, .addType, .addImport].find? (·.name = name)

/-- The parameters of each kind of request, in the order in which a list gives them. -/
def RequestKind.parameters : RequestKind → List Text
  | .addField => ["record", "field", "type", "tag", "doc"].map (·.toList)
  | .addType => ["name", "doc", "fields", "type", "alias", "position"].map (·.toList)
  | .addImport => ["path", "alias"].map (·.toList)

def fieldParameters : List Text :=
  ["name", "type", "tag", "doc"].map (·.toList)

/-- No known key is written twice. -/
def knownOnce {α : Type} (keys : List Text) (members : List (Text × α)) : Bool :=
  keys.all fun key => (members.filter (·.1 = key)).length ≤ 1

/-- The readings of a value that the members of a record ask for. -/
structure Readings (α : Type) where
  text? : α → Option Text
  optional? : α → Option (Option Text)
  bool? : α → Option Bool
  list? : α → Option (List α)
  placement? : α → Option Placement
  /-- The members of a record with the given keys. -/
  members? : List Text → α → Option (List (Text × α))

namespace Readings

variable {α : Type} (readings : Readings α)

/-- A member of a record, or a default where it is absent. -/
def get? {β : Type} (members : List (Text × α)) (key : String) (absent : β)
    (read : α → Option β) : Option β :=
  match members.lookup key.toList with
  | some value => read value
  | none => some absent

def field? (nameKey : String) (members : List (Text × α)) : Option FieldRequest := do
  let name ← get? members nameKey [] readings.text?
  let type ← get? members "type" [] readings.text?
  let tag ← get? members "tag" none readings.optional?
  let doc ← get? members "doc" none readings.optional?
  return ⟨name, type, tag, doc⟩

def fields? (value : α) : Option (List FieldRequest) := do
  let items ← readings.list? value
  items.mapM fun item => do
    readings.field? "name" (← readings.members? fieldParameters item)

def type? (members : List (Text × α)) : Option TypeRequest := do
  let name ← get? members "name" [] readings.text?
  let doc ← get? members "doc" none readings.optional?
  let fields ← get? members "fields" [] readings.fields?
  let underlying ← get? members "type" none readings.optional?
  let isAlias ← get? members "alias" false readings.bool?
  let placement ← get? members "position" .last readings.placement?
  return ⟨name, doc, fields, underlying, isAlias, placement⟩

/-- A request of a kind from the value of its parameters. -/
def request? (kind : RequestKind) (value : α) : Option Request := do
  let members ← readings.members? kind.parameters value
  match kind with
  | .addField =>
      let record ← get? members "record" [] readings.text?
      return .addField record (← readings.field? "field" members)
  | .addType => return .addType (← readings.type? members)
  | .addImport =>
      let path ← get? members "path" [] readings.text?
      return .addImport path (← get? members "alias" none readings.optional?)

end Readings

namespace Json

/-- An optional text; null stands for none. -/
def optional? : Json → Option (Option Text)
  | null => some none
  | string text => some (some text)
  | _ => none

def placement? : Json → Option Placement
  | string text => if text = "end".toList then some .last else none
  | object [(key, string name)] =>
      if key = "after".toList then
        some (.after name)
      else if key = "before".toList then
        some (.before name)
      else
        none
  | object [(key, null)] => if key = "end".toList then some .last else none
  | _ => none

/-- The members of a record, which may be an object, or a list of its values in order. -/
def members? (keys : List Text) : Json → Option (List (Text × Json))
  | object members => if knownOnce keys members then some members else none
  | array items => if items.length ≤ keys.length then some (keys.zip items) else none
  | _ => none

def readings : Readings Json :=
  { text?, optional?, bool?, list? := array?, placement?, members? }

def kind? : Json → Option RequestKind
  | string name => RequestKind.ofName? name
  | object [(name, null)] => RequestKind.ofName? name
  | _ => none

/-- A request: an object with its kind and its parameters, or a list of the two. -/
def request? : Json → Option Request
  | object members => do
      let kind ← (← lookupOnce? "kind".toList members)
      let parameters ← (← lookupOnce? "parameters".toList members)
      readings.request? (← kind.kind?) parameters
  | array [kind, parameters] => do
      readings.request? (← kind.kind?) parameters
  | _ => none

def requests? : Json → Option (List Request)
  | array items => items.mapM request?
  | _ => none

end Json

namespace Yaml

def text? : Yaml → Option Text
  | scalar s => some s.text
  | _ => none

/-- An optional text: none where nothing or a null is written plainly. -/
def optional? : Yaml → Option (Option Text)
  | scalar s =>
      if !s.isPlain then
        some (some s.text)
      else
        match s.tag with
        | none => some (if s.text.isEmpty || isNullText s.text then none else some s.text)
        | some tag =>
            if tag ≠ coreTag "null" then
              some (some s.text)
            else if isNullText s.text then
              some none
            else
              none
  | _ => none

def bool? : Yaml → Option Bool
  | scalar s => if s.mayBe (coreTag "bool") then boolText? s.text else none
  | _ => none

/-- A number of at most sixty-four bits. -/
def word? : Yaml → Option Nat
  | scalar s => if s.mayBe (coreTag "int") then wordText? s.text else none
  | _ => none

/-- A sequence; a value of which nothing is written is an empty one. -/
def list? : Yaml → Option (List Yaml)
  | sequence _ items => some items
  | scalar s => if s.isEmptyPlain then some [] else none
  | mapping _ _ => none

def keyed? : Yaml × Yaml → Option (Text × Yaml)
  | (key, value) => key.text?.map (·, value)

/-- The entries of a mapping by their keys; a value of which nothing is written is an empty mapping. -/
def entries? : Yaml → Option (List (Text × Yaml))
  | mapping _ entries => entries.mapM keyed?
  | scalar s => if s.isEmptyPlain then some [] else none
  | sequence _ _ => none

def members? (keys : List Text) (value : Yaml) : Option (List (Text × Yaml)) := do
  let members ← value.entries?
  if knownOnce keys members then some members else none

/-- Nothing, or a null, written plainly. -/
def isNull : Yaml → Bool
  | scalar s => s.isPlain && (s.text.isEmpty || isNullText s.text)
  | _ => false

def tag : Yaml → Option Text
  | scalar s => s.tag
  | sequence tag _ => tag
  | mapping tag _ => tag

/-- A placement: its anchor is tagged with the side on which it stands. -/
def placement? (value : Yaml) : Option Placement :=
  match localTag? value.tag with
  | some tag =>
      if tag = "after".toList then
        value.text?.map .after
      else if tag = "before".toList then
        value.text?.map .before
      else if tag = "end".toList && value.isNull then
        some .last
      else
        none
  | none => do
      let text ← value.text?
      if text = "end".toList then some .last else none

def readings : Readings Yaml :=
  { text?, optional?, bool?, list?, placement?, members? }

/-- A kind, as a text or as a tag of its own. -/
def kind? (value : Yaml) : Option RequestKind :=
  match localTag? value.tag with
  | some tag => if value.isNull then RequestKind.ofName? tag else none
  | none => value.text?.bind RequestKind.ofName?

/-- A request. Parameters that come before the kind are read as plain data first. -/
def request? (value : Yaml) : Option Request := do
  let members ← value.entries?
  let kind ← (← lookupOnce? "kind".toList members)
  let parameters ← (← lookupOnce? "parameters".toList members)
  let first := members.find? fun (key, _) => key = "kind".toList || key = "parameters".toList
  if first.any (·.1 = "kind".toList) then
    readings.request? (← kind.kind?) parameters
  else
    let data ← parameters.toJson?
    Json.readings.request? (← kind.kind?) data

def requests? (value : Yaml) : Option (List Request) := do
  (← value.list?).mapM request?

end Yaml

namespace Request

def ofDecoded {α : Type} : Option α → Checked α
  | some value => .ok value
  | none => .error .undecodable

/-- The requests of a JSON text. -/
def ofJson (text : Text) : Checked (List Request) :=
  ofDecoded ((Json.read? text).bind Json.requests?)

/-- The requests of a YAML text. A text without a document has none. -/
def ofYaml (text : Text) : Checked (List Request) :=
  ofDecoded do
    match ← Yaml.read? text with
    | some value => value.requests?
    | none => some []

end Request

end GoGraft
