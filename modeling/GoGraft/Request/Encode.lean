import GoGraft.Json.Basic
import GoGraft.Request.Basic

/-! Requests as JSON. Parameters that are absent are left out. -/

namespace GoGraft

def member (key : String) (value : Json) : List (Text × Json) :=
  [(key.toList, value)]

def optionalMember (key : String) (value : Option Text) : List (Text × Json) :=
  match value with
  | some text => member key (.string text)
  | none => []

def Placement.toJson : Placement → Json
  | .last => .string "end".toList
  | .after name => .object (member "after" (.string name))
  | .before name => .object (member "before" (.string name))

/-- A field under the given key for its name. -/
def FieldRequest.members (nameKey : String) (field : FieldRequest) : List (Text × Json) :=
  member nameKey (.string field.name) ++ member "type" (.string field.type) ++
    optionalMember "tag" field.tag ++ optionalMember "doc" field.doc

def TypeRequest.members (type : TypeRequest) : List (Text × Json) :=
  let fields := type.fields.map fun field => Json.object (field.members "name")
  member "name" (.string type.name) ++ optionalMember "doc" type.doc ++
    (if fields.isEmpty then [] else member "fields" (.array fields)) ++
    optionalMember "type" type.underlying ++ member "alias" (.bool type.isAlias) ++
    member "position" type.placement.toJson

namespace Request

def kind : Request → RequestKind
  | addField _ _ => .addField
  | addType _ => .addType
  | addImport _ _ => .addImport

def parameters : Request → List (Text × Json)
  | addField record field => member "record" (.string record) ++ field.members "field"
  | addType type => type.members
  | addImport path localName =>
      member "path" (.string path) ++ optionalMember "alias" localName

def toJson (request : Request) : Json :=
  .object
    (member "kind" (.string request.kind.name) ++
      member "parameters" (.object request.parameters))

def listToJson (requests : List Request) : Json :=
  .array (requests.map toJson)

end Request

end GoGraft
