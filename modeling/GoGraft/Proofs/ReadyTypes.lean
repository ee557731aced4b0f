import Mathlib.Data.List.Forall2
import GoGraft.Proofs.FieldInsertion
import GoGraft.Session

/-!
# Types that were not made from a request

A type can be queued as it is, or asked for with the texts that are printed for the types in it. The names and tags are
checked alike on both ways. A type in it has to be well-formed on the first way and its text has to be readable on the
second, where also the anchor is checked; what was read is printed without the white space around its parts. So the two
ways agree for types that are read back from their texts.
-/

namespace GoGraft

section Checks

variable {kind : RequestKind} {parameter : String}

theorem not_isBlank_of_isIdentifier {name : Text} (hname : isIdentifier name) : name.isBlank = false := by
  cases name with
  | nil => cases hname
  | cons c rest =>
      exact Text.not_isBlank_of_mem List.mem_cons_self (not_isSpace_of_isIdentifier hname c List.mem_cons_self)

theorem require_of_isIdentifier {name : Text} (hname : isIdentifier name) : require kind parameter name = .ok () := by
  rw [require, not_isBlank_of_isIdentifier hname]
  rfl

theorem checkTag_eq_ok {tag : Text} : checkTag tag = .ok () ↔ isTag tag := by
  unfold checkTag
  split <;> simp [*]

theorem checkType_eq_ok {type : TypeExpr} : checkType type = .ok () ↔ type.isWellFormed := by
  unfold checkType
  split <;> simp [*]

theorem checkPlacement_eq_ok {placement : Placement} :
    checkPlacement placement = .ok () ↔ ∀ name ∈ placement.anchor, isIdentifier name := by
  unfold checkPlacement
  cases placement.anchor with
  | none => simp
  | some name => simp [checkIdentifier_eq_ok]

theorem readType_eq_ok {text : Text} {type : TypeExpr} : readType kind text = .ok type ↔ TypeExpr.read text = .ok type := by
  constructor
  · exact read_of_readType
  · intro hread
    have hspells := TypeExpr.read_eq_ok.mp hread
    obtain ⟨c, -, hc⟩ := TypeExpr.head?_render hread
    have hmem : c ∈ text := (Text.trim_infix text).subset (List.mem_of_mem_head? hc)
    have hrequire : require kind "type" text = .ok () := by
      rw [require, Text.not_isBlank_of_mem hmem (Text.head?_trim hc)]
      rfl
    have hcheck : checkType type = .ok () := checkType_eq_ok.mpr hspells.isWellFormed
    refine bind_eq_ok.mpr ⟨(), hrequire, bind_eq_ok.mpr ⟨type, mapError_eq_ok.mpr hread, ?_⟩⟩
    exact bind_eq_ok.mpr ⟨(), hcheck, rfl⟩

end Checks

section Lists

variable {ε α β : Type}

theorem mapM_eq_ok {f : α → Except ε β} {l : List α} {results : List β} :
    l.mapM f = .ok results ↔ List.Forall₂ (fun a b => f a = .ok b) l results := by
  induction l generalizing results with
  | nil =>
      rw [List.mapM_nil, pure_eq_ok, List.forall₂_nil_left_iff]
      exact eq_comm
  | cons a l ih =>
      rw [List.mapM_cons, bind_eq_ok, List.forall₂_cons_left_iff]
      constructor
      · rintro ⟨b, hb, hrest⟩
        obtain ⟨rest, hrest, hresults⟩ := bind_eq_ok.mp hrest
        exact ⟨b, rest, hb, ih.mp hrest, (pure_eq_ok.mp hresults).symm⟩
      · rintro ⟨b, rest, hb, hrest, rfl⟩
        exact ⟨b, hb, bind_eq_ok.mpr ⟨rest, ih.mpr hrest, rfl⟩⟩

theorem exists_of_mem_right {R : α → β → Prop} {l : List α} {l' : List β} (hlists : List.Forall₂ R l l') {b : β}
    (hb : b ∈ l') : ∃ a ∈ l, R a b := by
  induction hlists with
  | nil => cases hb
  | @cons a _ l l' hab _ ih =>
      obtain rfl | hb := List.mem_cons.mp hb
      · exact ⟨a, List.mem_cons_self, hab⟩
      · obtain ⟨other, hother, hrelated⟩ := ih hb
        exact ⟨other, List.mem_cons_of_mem _ hother, hrelated⟩

theorem exists_forall₂ {R : α → β → Prop} {l : List α} (hall : ∀ a ∈ l, ∃ b, R a b) : ∃ l', List.Forall₂ R l l' := by
  induction l with
  | nil => exact ⟨[], .nil⟩
  | cons a l ih =>
      obtain ⟨⟨b, hb⟩, hrest⟩ := List.forall_mem_cons.mp hall
      obtain ⟨l', hl'⟩ := ih hrest
      exact ⟨b :: l', .cons hb hl'⟩

/-- Texts that are nowhere longer than their counterparts make up the same text only if they are the same. -/
theorem flatMap_eq_iff {R : α → β → Prop} {f : α → Text} {g : β → Text} {l : List α} {l' : List β}
    (hlists : List.Forall₂ R l l') (hle : ∀ a b, R a b → (g b).length ≤ (f a).length) :
    l'.flatMap g = l.flatMap f ↔ List.Forall₂ (fun a b => g b = f a) l l' := by
  have hlength {l : List α} {l' : List β} (hlists : List.Forall₂ R l l') :
      (l'.flatMap g).length ≤ (l.flatMap f).length := by
    induction hlists with
    | nil => exact Nat.le_refl 0
    | cons hab _ ih =>
        simp only [List.flatMap_cons, List.length_append]
        exact Nat.add_le_add (hle _ _ hab) ih
  induction hlists with
  | nil => simp
  | @cons a b l l' hab hrest ih =>
      rw [List.forall₂_cons]
      constructor
      · intro heq
        have htotal := congrArg List.length heq
        simp only [List.flatMap_cons, List.length_append] at htotal heq
        have hfirst := hle a b hab
        have hothers := hlength hrest
        obtain ⟨hsame, hrestSame⟩ := List.append_inj heq (by omega)
        exact ⟨hsame, ih.mp hrestSame⟩
      · rintro ⟨hsame, hrestSame⟩
        rw [List.flatMap_cons, List.flatMap_cons, hsame, ih.mpr hrestSame]

end Lists

/-- White space is all that is lost when a type is read and printed. -/
theorem TypeExpr.Spells.length_render_le {text : Text} {type : TypeExpr} (hspells : Spells text type) :
    type.render.length ≤ text.length := by
  induction hspells with
  | @pointer text rest target htext _ ih =>
      have hlength := (Text.trim_infix text).length_le
      rw [htext] at hlength
      exact Nat.le_trans (Nat.succ_le_succ ih) hlength
  | @slice text rest element htext _ ih =>
      have hlength := (Text.trim_infix text).length_le
      rw [htext] at hlength
      exact Nat.le_trans (Nat.succ_le_succ (Nat.succ_le_succ ih)) hlength
  | @mapping text rest inside after key value htext hcut _ _ _ ihKey ihValue =>
      have hlength := (Text.trim_infix text).length_le
      simp only [htext, cutBracket_eq_some hcut, List.length_append, List.length_cons] at hlength
      simp only [render_mapping, List.length_append, List.length_cons]
      change 4 + _ ≤ _
      omega
  | @unclosed text => exact (Text.trim_infix text).length_le
  | @name text =>
      rw [render_readName]
      exact (Text.trim_infix text).length_le

namespace NewField

/-- The request for a field, with the text that is printed for its type. -/
def toRequest (field : NewField) : FieldRequest :=
  ⟨field.name, field.type.render, field.tag, field.doc⟩

def IsNamed (field : NewField) : Prop :=
  isIdentifier field.name ∧ ∀ tag ∈ field.tag, isTag tag

/-- What is made of a field when its type is read from the text that is printed for it. An empty tag gets lost. -/
structure Remakes (field made : NewField) : Prop where
  name : made.name = field.name
  type : TypeExpr.read field.type.render = .ok made.type
  tag : made.tag = field.tag.filter (!·.isEmpty)
  doc : made.doc = field.doc

theorem toField_toRequest {field made : NewField} {kind : RequestKind} {parameter : String} :
    field.toRequest.toField kind parameter = .ok made ↔ field.IsNamed ∧ field.Remakes made := by
  constructor
  · intro hfield
    obtain ⟨-, -, hfield⟩ := bind_eq_ok.mp hfield
    obtain ⟨_, hidentifier, hfield⟩ := bind_eq_ok.mp hfield
    obtain ⟨read, hread, hfield⟩ := bind_eq_ok.mp hfield
    have hname := checkIdentifier_eq_ok.mp hidentifier
    have htype := readType_eq_ok.mp hread
    split at hfield
    · rename_i htag
      obtain rfl := pure_eq_ok.mp hfield
      have hnone : field.tag = none := htag
      exact ⟨⟨hname, by simp [hnone]⟩, ⟨rfl, htype, by simp [hnone], rfl⟩⟩
    · rename_i htag
      obtain rfl := pure_eq_ok.mp hfield
      have hempty : field.tag = some [] := htag
      exact ⟨⟨hname, by simp [hempty]; decide⟩, ⟨rfl, htype, by simp [hempty, Option.filter], rfl⟩⟩
    · rename_i tag hne htag
      obtain ⟨_, hcheck, hfield⟩ := bind_eq_ok.mp hfield
      obtain rfl := pure_eq_ok.mp hfield
      have hsome : field.tag = some tag := htag
      have hkept : tag.isEmpty = false := List.isEmpty_eq_false_iff.mpr hne
      exact ⟨⟨hname, by simpa [hsome] using checkTag_eq_ok.mp hcheck⟩,
        ⟨rfl, htype, by simp [hsome, Option.filter, hkept], rfl⟩⟩
  · rintro ⟨⟨hname, htags⟩, hremakes⟩
    obtain ⟨name, type, tag, doc⟩ := made
    obtain ⟨rfl, htype, rfl, rfl⟩ := hremakes
    refine bind_eq_ok.mpr ⟨(), require_of_isIdentifier hname, ?_⟩
    refine bind_eq_ok.mpr ⟨(), checkIdentifier_eq_ok.mpr hname, ?_⟩
    refine bind_eq_ok.mpr ⟨type, readType_eq_ok.mpr htype, ?_⟩
    obtain ⟨name, written, tag, doc⟩ := field
    cases tag with
    | none => rfl
    | some tag =>
        cases tag with
        | nil => rfl
        | cons c rest => exact bind_eq_ok.mpr ⟨(), checkTag_eq_ok.mpr (htags _ rfl), rfl⟩

theorem Remakes.render_eq {field made : NewField} (hremakes : field.Remakes made) (indent newline : Text) :
    made.render indent newline = { field with type := made.type }.render indent newline := by
  have hmade : made = ⟨field.name, made.type, field.tag.filter (!·.isEmpty), field.doc⟩ := by
    rw [← hremakes.name, ← hremakes.tag, ← hremakes.doc]
  rw [hmade]
  cases field.tag with
  | none => rfl
  | some tag => cases tag <;> rfl

theorem Remakes.render_eq_iff {field made : NewField} (hremakes : field.Remakes made) (indent newline : Text) :
    made.render indent newline = field.render indent newline ↔ made.type.render = field.type.render := by
  rw [hremakes.render_eq]
  simp [render]

theorem Remakes.length_render_le {field made : NewField} (hremakes : field.Remakes made) (indent newline : Text) :
    (made.render indent newline).length ≤ (field.render indent newline).length := by
  have hle := (TypeExpr.read_eq_ok.mp hremakes.type).length_render_le
  rw [hremakes.render_eq]
  simpa [render] using hle

end NewField

theorem checkFields_cons (record : Text) (seen : List Text) (field : NewField) (rest : List NewField) :
    checkFields record seen (field :: rest) =
      (require .addType "fields.name" field.name >>= fun _ => checkIdentifier field.name >>= fun _ =>
        checkType field.type >>= fun _ => field.tag.elim (.ok ()) checkTag >>= fun _ =>
          if seen.contains field.name then .error (.duplicateField record field.name)
          else checkFields record (field.name :: seen) rest) := by
  rw [checkFields]
  cases field.tag with
  | none => rfl
  | some tag => rfl

/-- Struct types are checked field by field, and the names that come before are not taken again. -/
theorem checkFields_eq_ok {record : Text} {seen : List Text} {fields : List NewField} :
    checkFields record seen fields = .ok () ↔
      (∀ field ∈ fields, field.IsNamed ∧ field.type.isWellFormed) ∧ (fields.map (·.name)).Nodup ∧
        ∀ field ∈ fields, field.name ∉ seen := by
  induction fields generalizing seen with
  | nil => simp [checkFields]
  | cons field rest ih =>
      have htag : field.tag.elim (.ok ()) checkTag = .ok () ↔ ∀ tag ∈ field.tag, isTag tag := by
        cases field.tag with
        | none => simp
        | some tag => simp [checkTag_eq_ok]
      rw [checkFields_cons]
      constructor
      · intro hcheck
        obtain ⟨-, -, hcheck⟩ := bind_eq_ok.mp hcheck
        obtain ⟨_, hname, hcheck⟩ := bind_eq_ok.mp hcheck
        obtain ⟨_, htype, hcheck⟩ := bind_eq_ok.mp hcheck
        obtain ⟨_, htags, hcheck⟩ := bind_eq_ok.mp hcheck
        split at hcheck
        · cases hcheck
        · rename_i hfresh
          rw [List.contains_iff_mem] at hfresh
          obtain ⟨hfields, hnodup, hothers⟩ := ih.mp hcheck
          have hfirst : field.IsNamed ∧ field.type.isWellFormed :=
            ⟨⟨checkIdentifier_eq_ok.mp hname, htag.mp htags⟩, checkType_eq_ok.mp htype⟩
          refine ⟨List.forall_mem_cons.mpr ⟨hfirst, hfields⟩, List.nodup_cons.mpr ⟨?_, hnodup⟩, ?_⟩
          · intro hmem
            obtain ⟨other, hother, heq⟩ := List.mem_map.mp hmem
            exact hothers other hother (heq ▸ List.mem_cons_self)
          · refine List.forall_mem_cons.mpr ⟨hfresh, fun other hother hseen => ?_⟩
            exact hothers other hother (List.mem_cons_of_mem _ hseen)
      · rintro ⟨hfields, hnodup, hfresh⟩
        obtain ⟨⟨⟨hname, htags⟩, htype⟩, hfields⟩ := List.forall_mem_cons.mp hfields
        obtain ⟨hnew, hnodup⟩ := List.nodup_cons.mp hnodup
        obtain ⟨hfirst, hothers⟩ := List.forall_mem_cons.mp hfresh
        refine bind_eq_ok.mpr ⟨(), require_of_isIdentifier hname, ?_⟩
        refine bind_eq_ok.mpr ⟨(), checkIdentifier_eq_ok.mpr hname, ?_⟩
        refine bind_eq_ok.mpr ⟨(), checkType_eq_ok.mpr htype, ?_⟩
        refine bind_eq_ok.mpr ⟨(), htag.mpr htags, ?_⟩
        rw [if_neg (by rwa [List.contains_iff_mem])]
        refine ih.mpr ⟨hfields, hnodup, fun other hother hmem => ?_⟩
        obtain heq | hseen := List.mem_cons.mp hmem
        · exact hnew (List.mem_map.mpr ⟨other, hother, heq⟩)
        · exact hothers other hother hseen

namespace NewType

variable {type made : NewType} {placement : Placement}

/-- The fields of a struct type. -/
def fields (type : NewType) : List NewField :=
  match type.body with
  | .record fields => fields
  | .defined _ | .aliased _ => []

/-- The names are identifiers, no two fields share one, and the tags can be written. -/
structure IsNamed (type : NewType) : Prop where
  name : isIdentifier type.name
  fields : ∀ field ∈ type.fields, field.IsNamed
  nodup : (type.fields.map (·.name)).Nodup

/-- The request for a type, with the texts that are printed for the types in it. -/
def toRequest (type : NewType) (placement : Placement) : TypeRequest :=
  match type.body with
  | .record fields => ⟨type.name, type.doc, fields.map (·.toRequest), none, false, placement⟩
  | .defined underlying => ⟨type.name, type.doc, [], some underlying.render, false, placement⟩
  | .aliased underlying => ⟨type.name, type.doc, [], some underlying.render, true, placement⟩

theorem check_eq_ok : type.check = .ok () ↔ type.IsNamed ∧ ∀ t ∈ type.referencedTypes, t.isWellFormed := by
  obtain ⟨name, doc, body⟩ := type
  have hsplit (rest : Checked Unit) :
      (require .addType "name" name >>= fun _ => checkIdentifier name >>= fun _ => rest) = .ok () ↔
        isIdentifier name ∧ rest = .ok () := by
    constructor
    · intro hcheck
      obtain ⟨-, -, hcheck⟩ := bind_eq_ok.mp hcheck
      obtain ⟨_, hname, hcheck⟩ := bind_eq_ok.mp hcheck
      exact ⟨checkIdentifier_eq_ok.mp hname, hcheck⟩
    · rintro ⟨hname, hrest⟩
      exact bind_eq_ok.mpr ⟨(), require_of_isIdentifier hname,
        bind_eq_ok.mpr ⟨(), checkIdentifier_eq_ok.mpr hname, hrest⟩⟩
  have hsingle {body : NewBody} (underlying : TypeExpr) (hfields : (NewType.mk name doc body).fields = [])
      (htypes : (NewType.mk name doc body).referencedTypes = [underlying]) :
      isIdentifier name ∧ checkType underlying = .ok () ↔
        (NewType.mk name doc body).IsNamed ∧ ∀ t ∈ (NewType.mk name doc body).referencedTypes, t.isWellFormed := by
    rw [checkType_eq_ok, htypes]
    constructor
    · rintro ⟨hname, hwell⟩
      refine ⟨⟨hname, ?_, ?_⟩, List.forall_mem_singleton.mpr hwell⟩
      · rw [hfields]
        exact List.forall_mem_nil _
      · rw [hfields]
        exact List.nodup_nil
    · rintro ⟨hnamed, hwell⟩
      exact ⟨hnamed.name, hwell underlying List.mem_cons_self⟩
  refine (hsplit _).trans ?_
  cases body with
  | record made =>
      rw [checkFields_eq_ok]
      constructor
      · rintro ⟨hname, hfields, hnodup, -⟩
        refine ⟨⟨hname, fun field hfield => (hfields field hfield).1, hnodup⟩, ?_⟩
        exact List.forall_mem_map.mpr fun field hfield => (hfields field hfield).2
      · rintro ⟨⟨hname, hfields, hnodup⟩, htypes⟩
        have hwell := List.forall_mem_map.mp htypes
        exact ⟨hname, fun field hfield => ⟨hfields field hfield, hwell field hfield⟩, hnodup, by simp⟩
  | defined underlying => exact hsingle underlying rfl rfl
  | aliased underlying => exact hsingle underlying rfl rfl

end NewType

/-- What is made of a body when each type is read from the text that is printed for it. -/
inductive NewBody.Remakes : NewBody → NewBody → Prop where
  | record {fields made : List NewField} (hfields : List.Forall₂ NewField.Remakes fields made) :
      Remakes (.record fields) (.record made)
  | defined {underlying made : TypeExpr} (hread : TypeExpr.read underlying.render = .ok made) :
      Remakes (.defined underlying) (.defined made)
  | aliased {underlying made : TypeExpr} (hread : TypeExpr.read underlying.render = .ok made) :
      Remakes (.aliased underlying) (.aliased made)

namespace NewType

variable {type made : NewType} {placement : Placement}

structure Remakes (type made : NewType) : Prop where
  name : made.name = type.name
  doc : made.doc = type.doc
  body : type.body.Remakes made.body

theorem toBody_toRequest {body : NewBody} :
    (type.toRequest placement).toBody = .ok body ↔ (∀ field ∈ type.fields, field.IsNamed) ∧ type.body.Remakes body := by
  obtain ⟨name, doc, written⟩ := type
  cases written with
  | record asked =>
      change ((asked.map (·.toRequest)).mapM (·.toField .addType "fields.name") >>= fun fields => pure (.record fields)) =
        .ok body ↔ (∀ field ∈ asked, field.IsNamed) ∧ NewBody.Remakes (.record asked) body
      rw [bind_eq_ok]
      simp only [mapM_eq_ok, List.forall₂_map_left_iff, NewField.toField_toRequest, List.forall₂_and_left, pure_eq_ok]
      constructor
      · rintro ⟨made, ⟨hnamed, hfields⟩, rfl⟩
        exact ⟨hnamed, .record hfields⟩
      · rintro ⟨hnamed, hremakes⟩
        cases hremakes with
        | record hfields => exact ⟨_, ⟨hnamed, hfields⟩, rfl⟩
  | defined underlying =>
      change (readType .addType underlying.render >>= fun read => pure (.defined read)) = .ok body ↔
        (∀ field ∈ [], NewField.IsNamed field) ∧ NewBody.Remakes (.defined underlying) body
      simp only [bind_eq_ok, readType_eq_ok, pure_eq_ok]
      constructor
      · rintro ⟨read, hread, rfl⟩
        exact ⟨List.forall_mem_nil _, .defined hread⟩
      · rintro ⟨-, hremakes⟩
        cases hremakes with
        | defined hread => exact ⟨_, hread, rfl⟩
  | aliased underlying =>
      change (readType .addType underlying.render >>= fun read => pure (.aliased read)) = .ok body ↔
        (∀ field ∈ [], NewField.IsNamed field) ∧ NewBody.Remakes (.aliased underlying) body
      simp only [bind_eq_ok, readType_eq_ok, pure_eq_ok]
      constructor
      · rintro ⟨read, hread, rfl⟩
        exact ⟨List.forall_mem_nil _, .aliased hread⟩
      · rintro ⟨-, hremakes⟩
        cases hremakes with
        | aliased hread => exact ⟨_, hread, rfl⟩

theorem Remakes.fields (hremakes : type.Remakes made) : List.Forall₂ NewField.Remakes type.fields made.fields := by
  obtain ⟨name, doc, body⟩ := type
  obtain ⟨madeName, madeDoc, madeBody⟩ := made
  obtain ⟨-, -, hbody⟩ := hremakes
  cases hbody with
  | record hfields => exact hfields
  | defined => exact .nil
  | aliased => exact .nil

theorem Remakes.names (hremakes : type.Remakes made) : made.fields.map (·.name) = type.fields.map (·.name) := by
  rw [← List.forall₂_eq_eq_eq, List.forall₂_map_left_iff, List.forall₂_map_right_iff]
  exact List.Forall₂.flip (hremakes.fields.imp fun _ _ hfield => hfield.name)

theorem Remakes.referencedTypes (hremakes : type.Remakes made) :
    List.Forall₂ (fun t r => TypeExpr.read t.render = .ok r) type.referencedTypes made.referencedTypes := by
  obtain ⟨name, doc, body⟩ := type
  obtain ⟨madeName, madeDoc, madeBody⟩ := made
  obtain ⟨-, -, hbody⟩ := hremakes
  cases hbody with
  | record hfields =>
      refine List.forall₂_map_left_iff.mpr (List.forall₂_map_right_iff.mpr ?_)
      exact hfields.imp fun _ _ hfield => hfield.type
  | defined hread => exact .cons hread .nil
  | aliased hread => exact .cons hread .nil

theorem exists_remakes (hreads : ∀ t ∈ type.referencedTypes, ∃ r, TypeExpr.read t.render = .ok r) :
    ∃ made, type.Remakes made := by
  obtain ⟨name, doc, body⟩ := type
  cases body with
  | record asked =>
      have hfields : ∃ made, List.Forall₂ NewField.Remakes asked made := by
        refine exists_forall₂ fun field hfield => ?_
        obtain ⟨read, hread⟩ := List.forall_mem_map.mp hreads field hfield
        exact ⟨⟨field.name, read, field.tag.filter (!·.isEmpty), field.doc⟩, rfl, hread, rfl, rfl⟩
      obtain ⟨made, hmade⟩ := hfields
      exact ⟨⟨name, doc, .record made⟩, rfl, rfl, .record hmade⟩
  | defined underlying =>
      obtain ⟨read, hread⟩ := hreads underlying List.mem_cons_self
      exact ⟨⟨name, doc, .defined read⟩, rfl, rfl, .defined hread⟩
  | aliased underlying =>
      obtain ⟨read, hread⟩ := hreads underlying List.mem_cons_self
      exact ⟨⟨name, doc, .aliased read⟩, rfl, rfl, .aliased hread⟩

theorem Remakes.isNamed (hremakes : type.Remakes made) (hnamed : type.IsNamed) : made.IsNamed := by
  refine ⟨hremakes.name ▸ hnamed.name, ?_, hremakes.names ▸ hnamed.nodup⟩
  intro field hfield
  obtain ⟨asked, hasked, hmade⟩ := exists_of_mem_right hremakes.fields hfield
  obtain ⟨hname, htags⟩ := hnamed.fields asked hasked
  refine ⟨hmade.name ▸ hname, fun tag htag => htags tag ?_⟩
  rw [hmade.tag] at htag
  exact (Option.mem_filter_iff.mp htag).1

theorem toType_toRequest : (type.toRequest placement).toType = .ok made ↔ type.IsNamed ∧ type.Remakes made := by
  have hname : (type.toRequest placement).name = type.name := by
    rw [toRequest]
    split <;> rfl
  have hdoc : (type.toRequest placement).doc = type.doc := by
    rw [toRequest]
    split <;> rfl
  rw [TypeRequest.toType, hname, hdoc]
  constructor
  · intro htype
    obtain ⟨-, -, htype⟩ := bind_eq_ok.mp htype
    obtain ⟨body, hbody, htype⟩ := bind_eq_ok.mp htype
    obtain ⟨_, hcheck, htype⟩ := bind_eq_ok.mp htype
    obtain rfl := pure_eq_ok.mp htype
    obtain ⟨hfields, hbody⟩ := toBody_toRequest.mp hbody
    have hremakes : type.Remakes ⟨type.name, type.doc, body⟩ := ⟨rfl, rfl, hbody⟩
    obtain ⟨hnamed, -⟩ := check_eq_ok.mp hcheck
    exact ⟨⟨hnamed.name, hfields, hremakes.names ▸ hnamed.nodup⟩, hremakes⟩
  · rintro ⟨hnamed, hremakes⟩
    have hwell : ∀ t ∈ made.referencedTypes, t.isWellFormed := by
      intro t ht
      obtain ⟨written, -, hread⟩ := exists_of_mem_right hremakes.referencedTypes ht
      exact (TypeExpr.read_eq_ok.mp hread).isWellFormed
    have hcheck := check_eq_ok.mpr ⟨hremakes.isNamed hnamed, hwell⟩
    have hbody : (type.toRequest placement).toBody = .ok made.body :=
      toBody_toRequest.mpr ⟨hnamed.fields, hremakes.body⟩
    obtain ⟨name, doc, body⟩ := made
    obtain ⟨rfl, rfl, -⟩ := hremakes
    refine bind_eq_ok.mpr ⟨(), require_of_isIdentifier hnamed.name, ?_⟩
    refine bind_eq_ok.mpr ⟨body, hbody, ?_⟩
    exact bind_eq_ok.mpr ⟨(), hcheck, rfl⟩

/-- What was made is written the same if no type has white space around one of its parts. -/
theorem Remakes.render_eq_iff (hremakes : type.Remakes made) (newline : Text) :
    made.render newline = type.render newline ↔
      ∀ t ∈ type.referencedTypes, ∀ r, TypeExpr.read t.render = .ok r → r.render = t.render := by
  obtain ⟨name, doc, body⟩ := type
  obtain ⟨madeName, madeDoc, madeBody⟩ := made
  obtain ⟨rfl, rfl, hbody⟩ := hremakes
  cases hbody with
  | @record fields made hfields =>
      have hle (field made : NewField) (hfield : field.Remakes made) := hfield.length_render_le ['\t'] newline
      simp only [render, List.append_cancel_left_eq, List.append_cancel_right_eq, flatMap_eq_iff hfields hle,
        NewType.referencedTypes, List.forall_mem_map]
      clear hle
      induction hfields with
      | nil => simp
      | cons hfield _ ih =>
          rw [List.forall₂_cons, hfield.render_eq_iff, List.forall_mem_cons, hfield.type]
          exact and_congr (by simp) ih
  | defined hread => simp [render, hread, NewType.referencedTypes]
  | aliased hread => simp [render, hread, NewType.referencedTypes]

theorem toChange_toRequest {change : Change} :
    (Request.addType (type.toRequest placement)).toChange = .ok change ↔
      type.IsNamed ∧ (∀ name ∈ placement.anchor, isIdentifier name) ∧
        ∃ made, type.Remakes made ∧ change = .addType made placement := by
  have hplacement : (type.toRequest placement).placement = placement := by
    rw [toRequest]
    split <;> rfl
  rw [Request.toChange, hplacement, ← checkPlacement_eq_ok]
  constructor
  · intro hchange
    obtain ⟨made, hmade, hchange⟩ := bind_eq_ok.mp hchange
    obtain ⟨_, hcheck, hchange⟩ := bind_eq_ok.mp hchange
    obtain ⟨hnamed, hremakes⟩ := toType_toRequest.mp hmade
    exact ⟨hnamed, hcheck, made, hremakes, (pure_eq_ok.mp hchange).symm⟩
  · rintro ⟨hnamed, hcheck, made, hremakes, rfl⟩
    refine bind_eq_ok.mpr ⟨made, toType_toRequest.mpr ⟨hnamed, hremakes⟩, ?_⟩
    exact bind_eq_ok.mpr ⟨(), hcheck, rfl⟩

theorem exists_toChange_toRequest :
    (∃ change, (Request.addType (type.toRequest placement)).toChange = .ok change) ↔
      type.IsNamed ∧ (∀ t ∈ type.referencedTypes, ∃ r, TypeExpr.read t.render = .ok r) ∧
        ∀ name ∈ placement.anchor, isIdentifier name := by
  constructor
  · rintro ⟨change, hchange⟩
    obtain ⟨hnamed, hanchor, made, hremakes, -⟩ := toChange_toRequest.mp hchange
    refine ⟨hnamed, fun t ht => ?_, hanchor⟩
    obtain ⟨r, -, hread⟩ := exists_of_mem_right hremakes.referencedTypes.flip ht
    exact ⟨r, hread⟩
  · rintro ⟨hnamed, hreads, hanchor⟩
    obtain ⟨made, hremakes⟩ := exists_remakes hreads
    exact ⟨_, toChange_toRequest.mpr ⟨hnamed, hanchor, made, hremakes, rfl⟩⟩

end NewType

namespace Session

theorem exists_addType {session : Session} {type : NewType} {placement : Placement} :
    (∃ next, session.addType type placement = .ok next) ↔
      type.IsNamed ∧ ∀ t ∈ type.referencedTypes, t.isWellFormed := by
  rw [← NewType.check_eq_ok, addType]
  cases type.check with
  | ok => simp
  | error => simp

/-- Queueing a type as it is and asking for it with the printed texts make the same checks of names and tags. In the
first case the types have to be well-formed, in the second one their texts have to be readable and the anchor has to be
an identifier. What is asked for is written the same when reading the texts loses no white space. So for types that were
read, and an anchor that is an identifier, both ways agree. -/
theorem addType_as_requested (session : Session) (type : NewType) (placement : Placement) :
    let asked := Request.addType (type.toRequest placement)
    ((∃ next, session.addType type placement = .ok next) ↔
        type.IsNamed ∧ ∀ t ∈ type.referencedTypes, t.isWellFormed) ∧
      ((∃ change, asked.toChange = .ok change) ↔
        type.IsNamed ∧ (∀ t ∈ type.referencedTypes, ∃ r, TypeExpr.read t.render = .ok r) ∧
          ∀ name ∈ placement.anchor, isIdentifier name) ∧
      (∀ change, asked.toChange = .ok change → ∃ made, change = .addType made placement ∧
        ∀ newline, made.render newline = type.render newline ↔
          ∀ t ∈ type.referencedTypes, ∀ r, TypeExpr.read t.render = .ok r → r.render = t.render) ∧
      ((∀ t ∈ type.referencedTypes, ∃ text, TypeExpr.read text = .ok t) →
        (∀ name ∈ placement.anchor, isIdentifier name) →
          ((∃ next, session.addType type placement = .ok next) ↔ ∃ change, asked.toChange = .ok change) ∧
          ∀ change, asked.toChange = .ok change → ∃ made, change = .addType made placement ∧
            ∀ newline, made.render newline = type.render newline) := by
  intro asked
  have hwritten (change : Change) (hchange : asked.toChange = .ok change) : ∃ made, change = .addType made placement ∧
      ∀ newline, made.render newline = type.render newline ↔
        ∀ t ∈ type.referencedTypes, ∀ r, TypeExpr.read t.render = .ok r → r.render = t.render := by
    obtain ⟨-, -, made, hremakes, rfl⟩ := NewType.toChange_toRequest.mp hchange
    exact ⟨made, rfl, hremakes.render_eq_iff⟩
  refine ⟨exists_addType, NewType.exists_toChange_toRequest, hwritten, fun hread hanchor => ?_⟩
  have hspelled : ∀ t ∈ type.referencedTypes, t.isWellFormed ∧ TypeExpr.read t.render = .ok t := by
    intro t ht
    obtain ⟨text, htext⟩ := hread t ht
    have hspells := TypeExpr.read_eq_ok.mp htext
    exact ⟨hspells.isWellFormed, TypeExpr.read_eq_ok.mpr hspells.spells_render⟩
  refine ⟨?_, fun change hchange => ?_⟩
  · rw [exists_addType, NewType.exists_toChange_toRequest]
    refine and_congr_right fun _ => ⟨fun _ => ⟨fun t ht => ?_, hanchor⟩, fun _ t ht => ?_⟩
    · exact ⟨t, (hspelled t ht).2⟩
    · exact (hspelled t ht).1
  · obtain ⟨made, rfl, hrender⟩ := hwritten change hchange
    refine ⟨made, rfl, fun newline => (hrender newline).mpr fun t ht r hr => ?_⟩
    rw [Except.ok.inj (hr.symm.trans (hspelled t ht).2)]

-- The empty tag gets lost on the way through a request, but it is not written in either case.
theorem addType_as_requested_tagged :
    let session : Session := ⟨['a'], [], ⟨"package a".toList, ['a'], [], []⟩, [], .standard⟩
    let first : NewField := ⟨['x'], .mapping (.verbatim ['k']) (.pointer (.qualified ['p'] ['T'])), some [], none⟩
    let second : NewField := ⟨['y'], .verbatim "[4]int".toList, some "json".toList, some []⟩
    let type : NewType := ⟨['A'], some [], .record [first, second]⟩
    (∃ next, session.addType type (.after ['B']) = .ok next) ∧
      ∃ made, (Request.addType (type.toRequest (.after ['B']))).toChange = .ok (.addType made (.after ['B'])) ∧
        made ≠ type ∧ ∀ newline, made.render newline = type.render newline := by
  intro session first second type
  have hread : ∀ t ∈ type.referencedTypes, ∃ text, TypeExpr.read text = .ok t := by
    refine List.forall_mem_cons.mpr ⟨⟨" map[ k ]* p.T".toList, rfl⟩, ?_⟩
    exact List.forall_mem_singleton.mpr ⟨"[4]int".toList, rfl⟩
  have hanchor : ∀ name ∈ (Placement.after ['B']).anchor, isIdentifier name := by
    rintro name ⟨⟩
    rfl
  obtain ⟨-, hwritten⟩ := (addType_as_requested session type (.after ['B'])).2.2.2 hread hanchor
  have haccepted : ∃ next, session.addType type (.after ['B']) = .ok next := ⟨_, rfl⟩
  refine ⟨haccepted, ⟨['A'], some [], .record [{ first with tag := none }, second]⟩, rfl, by decide, ?_⟩
  obtain ⟨made, hmade, hsame⟩ := hwritten _ rfl
  obtain ⟨rfl, -⟩ := Change.addType.inj hmade
  exact hsame

-- An anchor that is no identifier, and a map type as the key of another one, are refused only in requests.
example :
    let session : Session := ⟨['a'], [], ⟨"package a".toList, ['a'], [], []⟩, [], .standard⟩
    let type : NewType := ⟨['A'], none, .defined (.mapping (.mapping (.verbatim ['k']) (.verbatim ['v'])) (.verbatim ['w']))⟩
    ((session.addType (.record ['A']) (.before "b c".toList)).toOption.isSome ∧
        (Request.addType ((NewType.record ['A']).toRequest (.before "b c".toList))).toChange =
          .error (.invalidIdentifier "b c".toList)) ∧
      (session.addType type .last).toOption.isSome ∧
        (Request.addType (type.toRequest .last)).toChange =
          .error (.invalidType "map[map[k]v]w".toList (.nestedMapKey "map[map[k]v]w".toList)) :=
  ⟨⟨rfl, rfl⟩, rfl, rfl⟩

end Session

end GoGraft
