import GoGraft.Request.Decode

/-!
# Requests survive being written as JSON

What is written for a request has each of its keys once, and leaves out what is absent. Reading looks keys up and takes a
default where there is none, so that the two meet key by key: a member that was left out is read as the value that let it be
left out, and every other one as the value that was written.
-/

namespace GoGraft

section Members

variable {α : Type} {members : List (Text × α)}

theorem length_filter_le_one (hnodup : (members.map Prod.fst).Nodup) (key : Text) :
    (members.filter (·.1 = key)).length ≤ 1 := by
  induction members with
  | nil => exact Nat.zero_le 1
  | cons entry members ih =>
      obtain ⟨hfresh, hnodup⟩ := List.nodup_cons.mp hnodup
      by_cases hkey : entry.1 = key
      · have hnone : members.filter (·.1 = key) = [] := by
          rw [List.filter_eq_nil_iff]
          intro other hother heq
          exact hfresh (List.mem_map.mpr ⟨other, hother, (of_decide_eq_true heq).trans hkey.symm⟩)
        rw [List.filter_cons_of_pos (by simpa using hkey), hnone]
        exact Nat.le_refl 1
      · rw [List.filter_cons_of_neg (by simpa using hkey)]
        exact ih hnodup

theorem knownOnce_of_nodup (hnodup : (members.map Prod.fst).Nodup) (keys : List Text) : knownOnce keys members := by
  rw [knownOnce, List.all_eq_true]
  intro key _
  exact decide_eq_true (length_filter_le_one hnodup key)

theorem Readings.get?_of_some {β : Type} {key : String} {absent : β} {read : α → Option β} {value : α}
    (hlookup : members.lookup key.toList = some value) : get? members key absent read = read value := by
  rw [get?, hlookup]

end Members

theorem members?_of_nodup {members : List (Text × Json)} (hnodup : (members.map Prod.fst).Nodup) (keys : List Text) :
    Json.readings.members? keys (.object members) = some members :=
  if_pos (knownOnce_of_nodup hnodup keys)

theorem lookup_member (key asked : String) (value : Json) :
    (member key value).lookup asked.toList = if asked = key then some value else none := by
  by_cases hasked : asked = key
  · simp [member, hasked]
  · have htexts : (asked.toList == key.toList) = false := beq_false_of_ne (mt String.toList_inj.mp hasked)
    rw [member, List.lookup_cons, htexts, if_neg hasked]
    rfl

theorem lookup_optionalMember (key asked : String) (value : Option Text) :
    (optionalMember key value).lookup asked.toList = if asked = key then value.map .string else none := by
  cases value with
  | none => simp [optionalMember]
  | some text => rw [optionalMember, lookup_member, Option.map_some]

theorem keys_optionalMember (key : String) (value : Option Text) :
    ((optionalMember key value).map Prod.fst).Sublist [key.toList] := by
  cases value with
  | none => exact List.nil_sublist _
  | some text => exact List.Sublist.refl _

theorem get?_optional {members : List (Text × Json)} {key : String} {value : Option Text}
    (hlookup : members.lookup key.toList = value.map .string) :
    Readings.get? members key none Json.readings.optional? = some value := by
  cases value with
  | none => rw [Readings.get?, hlookup]; rfl
  | some text => exact Readings.get?_of_some hlookup

theorem placement?_toJson (placement : Placement) : Json.placement? placement.toJson = some placement := by
  cases placement with
  | last => rfl
  | after name => rfl
  | before name => rfl

theorem kind?_name (kind : RequestKind) : Json.kind? (.string kind.name) = some kind := by
  cases kind with
  | addField => decide
  | addType => decide
  | addImport => decide

namespace FieldRequest

variable (field : FieldRequest)

theorem keys_members (nameKey : String) :
    ((field.members nameKey).map Prod.fst).Sublist (nameKey.toList :: ["type", "tag", "doc"].map (·.toList)) := by
  simp only [members, List.map_append]
  exact (((List.Sublist.refl [nameKey.toList]).append (List.Sublist.refl ["type".toList])).append
    (keys_optionalMember "tag" field.tag)).append (keys_optionalMember "doc" field.doc)

theorem lookup_members (nameKey asked : String) :
    (field.members nameKey).lookup asked.toList =
      (((if asked = nameKey then some (.string field.name) else none).or
        (if asked = "type" then some (.string field.type) else none)).or
        (if asked = "tag" then field.tag.map .string else none)).or
        (if asked = "doc" then field.doc.map .string else none) := by
  simp only [members, List.lookup_append, lookup_member, lookup_optionalMember]

theorem field?_eq {members : List (Text × Json)} {nameKey : String}
    (hname : members.lookup nameKey.toList = some (.string field.name))
    (htype : members.lookup "type".toList = some (.string field.type))
    (htag : members.lookup "tag".toList = field.tag.map .string)
    (hdoc : members.lookup "doc".toList = field.doc.map .string) :
    Json.readings.field? nameKey members = some field := by
  rw [Readings.field?, Readings.get?_of_some hname, Readings.get?_of_some htype, get?_optional htag,
    get?_optional hdoc]
  rfl

theorem field?_members : Json.readings.field? "name" (field.members "name") = some field := by
  apply field?_eq <;> rw [lookup_members] <;> simp

end FieldRequest

theorem mapM_map_eq_some {α β : Type} {read : β → Option α} {write : α → β} (hread : ∀ item, read (write item) = some item)
    (items : List α) : (items.map write).mapM read = some items := by
  induction items with
  | nil => rfl
  | cons item items ih =>
      rw [List.map_cons, List.mapM_cons, hread, ih]
      rfl

theorem fields?_members (fields : List FieldRequest) :
    Json.readings.fields? (.array (fields.map fun field => .object (field.members "name"))) = some fields := by
  rw [Readings.fields?]
  change (fields.map fun field => Json.object (field.members "name")).mapM _ = _
  refine mapM_map_eq_some (fun field => ?_) fields
  have hnodup : ((field.members "name").map Prod.fst).Nodup := (field.keys_members "name").nodup (by decide)
  rw [members?_of_nodup hnodup]
  exact field.field?_members

namespace TypeRequest

variable (type : TypeRequest)

/-- The fields of a type are written unless there are none. -/
def fieldsMember : List (Text × Json) :=
  let fields := type.fields.map fun field => Json.object (field.members "name")
  if fields.isEmpty then [] else member "fields" (.array fields)

theorem members_eq :
    type.members = member "name" (.string type.name) ++ optionalMember "doc" type.doc ++ type.fieldsMember ++
      optionalMember "type" type.underlying ++ member "alias" (.bool type.isAlias) ++
        member "position" type.placement.toJson :=
  rfl

theorem keys_fieldsMember : (type.fieldsMember.map Prod.fst).Sublist ["fields".toList] := by
  rw [fieldsMember]
  split
  · exact List.nil_sublist _
  · exact List.Sublist.refl _

theorem lookup_fieldsMember {asked : String} (hasked : asked ≠ "fields") :
    type.fieldsMember.lookup asked.toList = none := by
  rw [fieldsMember]
  split
  · rfl
  · rw [lookup_member, if_neg hasked]

theorem keys_members :
    (type.members.map Prod.fst).Sublist (["name", "doc", "fields", "type", "alias", "position"].map (·.toList)) := by
  simp only [members_eq, List.map_append]
  exact (((((List.Sublist.refl ["name".toList]).append (keys_optionalMember "doc" type.doc)).append
    type.keys_fieldsMember).append (keys_optionalMember "type" type.underlying)).append
      (List.Sublist.refl ["alias".toList])).append (List.Sublist.refl ["position".toList])

theorem lookup_members {asked : String} (hasked : asked ≠ "fields") :
    type.members.lookup asked.toList =
      ((((if asked = "name" then some (.string type.name) else none).or
        (if asked = "doc" then type.doc.map .string else none)).or
        (if asked = "type" then type.underlying.map .string else none)).or
        (if asked = "alias" then some (.bool type.isAlias) else none)).or
        (if asked = "position" then some type.placement.toJson else none) := by
  simp only [members_eq, List.lookup_append, lookup_member, lookup_optionalMember, type.lookup_fieldsMember hasked,
    Option.or_none]

theorem lookup_fields : type.members.lookup "fields".toList = type.fieldsMember.lookup "fields".toList := by
  simp only [members_eq, List.lookup_append, lookup_member, lookup_optionalMember, String.reduceEq, reduceIte,
    Option.none_or, Option.or_none]

theorem get?_fields : Readings.get? type.members "fields" [] Json.readings.fields? = some type.fields := by
  rw [Readings.get?, lookup_fields, fieldsMember]
  cases hfields : type.fields with
  | nil => rfl
  | cons field fields =>
      rw [← hfields, if_neg (by simp [hfields]), lookup_member, if_pos rfl]
      exact fields?_members type.fields

theorem type?_members : Json.readings.type? type.members = some type := by
  have hname : type.members.lookup "name".toList = some (.string type.name) := by
    rw [type.lookup_members (by decide)]
    simp
  have hdoc : type.members.lookup "doc".toList = type.doc.map .string := by
    rw [type.lookup_members (by decide)]
    simp
  have hunderlying : type.members.lookup "type".toList = type.underlying.map .string := by
    rw [type.lookup_members (by decide)]
    simp
  have hisAlias : type.members.lookup "alias".toList = some (.bool type.isAlias) := by
    rw [type.lookup_members (by decide)]
    simp
  have hplacement : type.members.lookup "position".toList = some type.placement.toJson := by
    rw [type.lookup_members (by decide)]
    simp
  rw [Readings.type?, Readings.get?_of_some hname, get?_optional hdoc, type.get?_fields, get?_optional hunderlying,
    Readings.get?_of_some hisAlias, Readings.get?_of_some hplacement]
  change (Json.placement? type.placement.toJson >>= _) = _
  rw [placement?_toJson]
  rfl

end TypeRequest

namespace Request

theorem nodup_parameters (request : Request) : (request.parameters.map Prod.fst).Nodup := by
  cases request with
  | addField record field =>
      have hkeys := (List.Sublist.refl ["record".toList]).append (field.keys_members "field")
      rw [parameters, List.map_append]
      exact hkeys.nodup (by decide)
  | addType type => exact type.keys_members.nodup (by decide)
  | addImport path localName =>
      have hkeys := (List.Sublist.refl ["path".toList]).append (keys_optionalMember "alias" localName)
      rw [parameters, List.map_append]
      exact hkeys.nodup (by decide)

/-- The parameters of a request are read as the request. -/
theorem request?_parameters (request : Request) :
    Json.readings.request? request.kind (.object request.parameters) = some request := by
  rw [Readings.request?, members?_of_nodup request.nodup_parameters]
  cases request with
  | addField record field =>
      have hlookup (asked : String) : (addField record field).parameters.lookup asked.toList =
          (if asked = "record" then some (.string record) else none).or ((field.members "field").lookup asked.toList) := by
        rw [parameters, List.lookup_append, lookup_member]
      have hfield : Json.readings.field? "field" (addField record field).parameters = some field := by
        apply FieldRequest.field?_eq <;> rw [hlookup, FieldRequest.lookup_members] <;> simp
      simp only [kind, Option.bind_eq_bind, Option.bind_some, Readings.get?_of_some (hlookup "record"), hfield]
      rfl
  | addType type =>
      have htype := type.type?_members
      simp only [kind, Option.bind_eq_bind, Option.bind_some, parameters, htype]
      rfl
  | addImport path localName =>
      have hlookup (asked : String) : (addImport path localName).parameters.lookup asked.toList =
          (if asked = "path" then some (.string path) else none).or
            (if asked = "alias" then localName.map .string else none) := by
        rw [parameters, List.lookup_append, lookup_member, lookup_optionalMember]
      have hlocalName : (addImport path localName).parameters.lookup "alias".toList = localName.map .string := by
        rw [hlookup]
        simp
      simp only [kind, Option.bind_eq_bind, Option.bind_some, Readings.get?_of_some (hlookup "path"),
        get?_optional hlocalName]
      rfl

theorem request?_toJson (request : Request) : Json.request? request.toJson = some request := by
  have hkind : lookupOnce? "kind".toList (member "kind" (.string request.kind.name) ++
      member "parameters" (.object request.parameters)) = some (some (.string request.kind.name)) := rfl
  have hparameters : lookupOnce? "parameters".toList (member "kind" (.string request.kind.name) ++
      member "parameters" (.object request.parameters)) = some (some (.object request.parameters)) := rfl
  rw [toJson, Json.request?, hkind, hparameters]
  simp only [Option.bind_eq_bind, Option.bind_some, kind?_name]
  exact request.request?_parameters

/-- Requests are read back from the JSON value that is written for them, and so from every text that spells this value. -/
theorem ofJson_listToJson (requests : List Request) :
    Json.requests? (listToJson requests) = some requests ∧
      ∀ text, Json.read? text = some (listToJson requests) → ofJson text = .ok requests := by
  have hrequests : Json.requests? (listToJson requests) = some requests := mapM_map_eq_some request?_toJson requests
  refine ⟨hrequests, fun text hread => ?_⟩
  rw [ofJson, hread, Option.bind_some, hrequests]
  rfl

-- A type with an empty doc comment and a field without one, at a place of its own, and an import without a local name.
set_option maxRecDepth 4000 in
theorem ofJson_listToJson_sparse :
    let requests : List Request :=
      [.addType ⟨['A'], some [], [⟨['x'], ['T'], some [], none⟩], none, false, .after ['B']⟩, .addImport ['p'] none]
    let text := "[\x7b\"kind\":\"add_type_declaration\",\"parameters\":\x7b\"name\":\"A\",\"doc\":\"\",".toList ++
      "\"fields\":[\x7b\"name\":\"x\",\"type\":\"T\",\"tag\":\"\"\x7d],\"alias\":false,".toList ++
      "\"position\":\x7b\"after\":\"B\"\x7d\x7d\x7d,".toList ++
      "\x7b\"kind\":\"add_import\",\"parameters\":\x7b\"path\":\"p\"\x7d\x7d]".toList
    Json.read? text = some (listToJson requests) ∧ ofJson text = .ok requests := by
  repeat rw [String.toList_ofList]
  intro requests text
  have hread : Json.read? text = some (listToJson requests) := by rfl
  exact ⟨hread, (ofJson_listToJson requests).2 text hread⟩

end Request

end GoGraft
