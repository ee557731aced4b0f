import GoGraft.Text.Basic

/-! JSON values. A number is kept as it was written, and an object keeps its members in order, repeated
keys included: what a repeated key means is for the reader of the object to say. -/

namespace GoGraft

inductive Json where
  | null
  | bool (value : Bool)
  | number (literal : Text)
  | string (text : Text)
  | array (items : List Json)
  | object (members : List (Text × Json))
deriving Inhabited, Repr

namespace Json

def text? : Json → Option Text
  | string text => some text
  | _ => none

def bool? : Json → Option Bool
  | bool value => some value
  | _ => none

def array? : Json → Option (List Json)
  | array items => some items
  | _ => none

end Json

/-- The value of a key that is written at most once. -/
def lookupOnce? {α : Type} (key : Text) (members : List (Text × α)) : Option (Option α) :=
  match members.filter (·.1 = key) with
  | [] => some none
  | [(_, value)] => some (some value)
  | _ => none

end GoGraft
