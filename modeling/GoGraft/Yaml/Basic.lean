import GoGraft.Json.Basic

/-! YAML values, with aliases resolved. A scalar keeps its text, its style and its tag: what it stands for depends
on what is asked of it. -/

namespace GoGraft

inductive ScalarStyle where
  | plain
  | quoted
  | literal
  | folded
deriving DecidableEq, Repr

structure Scalar where
  text : Text
  style : ScalarStyle
  tag : Option Text
deriving DecidableEq, Repr

inductive Yaml where
  | scalar (scalar : Scalar)
  | sequence (tag : Option Text) (items : List Yaml)
  | mapping (tag : Option Text) (entries : List (Yaml × Yaml))
deriving Inhabited, Repr

/-- The tags of the core schema. -/
def coreTag (name : String) : Text :=
  "tag:yaml.org,2002:".toList ++ name.toList

namespace Scalar

def isPlain (scalar : Scalar) : Bool :=
  scalar.style = .plain

/-- A plain scalar, or a literal one with the given tag. -/
def mayBe (scalar : Scalar) (tag : Text) : Bool :=
  match scalar.style with
  | .plain => true
  | .literal => scalar.tag = some tag
  | .quoted | .folded => false

def isEmptyPlain (scalar : Scalar) : Bool :=
  scalar.isPlain && scalar.text.isEmpty

end Scalar

namespace Yaml

def isNullText (t : Text) : Bool :=
  ["null", "Null", "NULL", "~"].any fun word => t = word.toList

def boolText? (t : Text) : Option Bool :=
  if ["true", "True", "TRUE"].any fun word => t = word.toList then
    some true
  else if ["false", "False", "FALSE"].any fun word => t = word.toList then
    some false
  else
    none

/-- Digits with a zero in front of others are no number. -/
def hasLeadingZero : Text → Bool
  | '0' :: rest => !rest.isEmpty && rest.all Char.isDigit
  | _ => false

/-- The number that an unsigned text stands for, in base sixteen, eight or two after a mark. -/
def unsigned? (t : Text) : Option Nat :=
  match t with
  | '0' :: 'x' :: rest => Text.digits? 16 rest
  | '0' :: 'o' :: rest => Text.digits? 8 rest
  | '0' :: 'b' :: rest => Text.digits? 2 rest
  | t => if hasLeadingZero t then none else Text.digits? 10 t

/-- The number that a text stands for; the sign is dropped. -/
def magnitude? : Text → Option Nat
  | '+' :: rest | '-' :: rest => unsigned? rest
  | t => unsigned? t

/-- The largest number of sixty-four bits. -/
def maxWord : Nat :=
  0xFFFFFFFFFFFFFFFF

/-- The number that a text without a minus sign stands for, if it fits into sixty-four bits. -/
def wordText? : Text → Option Nat
  | '-' :: _ => none
  | t => (magnitude? t).filter (· ≤ maxWord)

def isDecimalTail : Text → Bool
  | [] => true
  | mark :: rest =>
      (mark = 'e' || mark = 'E') &&
        match rest with
        | '+' :: digits | '-' :: digits => (Text.digits? 10 digits).isSome
        | digits => (Text.digits? 10 digits).isSome

/-- Digits with a point among them or at either end, and perhaps an exponent. -/
def isDecimal (t : Text) : Bool :=
  let whole := t.takeWhile Char.isDigit
  match t.dropWhile Char.isDigit with
  | '.' :: rest =>
      let part := rest.takeWhile Char.isDigit
      !(whole.isEmpty && part.isEmpty) && isDecimalTail (rest.dropWhile Char.isDigit)
  | rest => !whole.isEmpty && isDecimalTail rest

def dropSign : Text → Text
  | '+' :: rest | '-' :: rest => rest
  | t => t

def isInfinity (t : Text) : Bool :=
  [".inf", ".Inf", ".INF"].any fun word => t = word.toList

def isNotANumber (t : Text) : Bool :=
  [".nan", ".NaN", ".NAN"].any fun word => t = word.toList

/-- Whether a plain text is a number of the core schema. -/
def isNumberText (t : Text) : Bool :=
  let unsigned := dropSign t
  !hasLeadingZero unsigned &&
    ((unsigned? unsigned).isSome || isDecimal unsigned || isInfinity unsigned || isNotANumber t)

/-- The plain value that an untagged plain scalar stands for. -/
def plainValue (t : Text) : Json :=
  if t.isEmpty || isNullText t then
    .null
  else
    match boolText? t with
    | some value => .bool value
    | none => if isNumberText t then .number t else .string t

/-- A tag of the document's own, without its mark. -/
def localTag? : Option Text → Option Text
  | some ('!' :: rest) => some (if rest.isEmpty then ['!'] else rest)
  | _ => none

/-- The plain value that a scalar stands for. A tag of the document's own has none. -/
def scalarValue? (scalar : Scalar) : Option Json :=
  match scalar.tag with
  | none => some (if scalar.isPlain then plainValue scalar.text else .string scalar.text)
  | some tag =>
      if (localTag? scalar.tag).isSome then
        none
      else if tag = coreTag "bool" then
        (boolText? scalar.text).map .bool
      else if tag = coreTag "int" then
        if (magnitude? scalar.text).isSome then some (.number scalar.text) else none
      else if tag = coreTag "float" then
        if isNumberText scalar.text then some (.number scalar.text) else none
      else if tag = coreTag "null" then
        if isNullText scalar.text then some .null else none
      else
        some (.string scalar.text)

mutual

/-- The plain data that a value stands for. Only scalars may be keys. -/
def toJson? : Yaml → Option Json
  | scalar s => scalarValue? s
  | sequence tag items =>
      if (localTag? tag).isSome then none else (itemsToJson? items).map .array
  | mapping tag entries =>
      if (localTag? tag).isSome then none else (entriesToJson? entries).map .object

def itemsToJson? : List Yaml → Option (List Json)
  | [] => some []
  | item :: rest => do
      let value ← item.toJson?
      let values ← itemsToJson? rest
      return value :: values

def entriesToJson? : List (Yaml × Yaml) → Option (List (Text × Json))
  | [] => some []
  | (scalar key, item) :: rest => do
      let value ← item.toJson?
      let values ← entriesToJson? rest
      return (key.text, value) :: values
  | _ :: _ => none

end

end Yaml

end GoGraft
