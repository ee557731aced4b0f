import GoGraft.Text.Basic

/-! Positions in a YAML text. Line breaks are brought to one form before anything else looks at the text. -/

namespace GoGraft.Yaml

/-- Breaks that remain after `prepare?`. -/
def isBreak (c : Char) : Bool :=
  c = '\n' || c = '\u2028' || c = '\u2029'

def isBlank (c : Char) : Bool :=
  c = ' ' || c = '\t'

def isGap (c : Char) : Bool :=
  isBlank c || isBreak c

/-- Whether a text begins with a blank or a break, or is at its end. -/
def atGap : Text → Bool
  | [] => true
  | c :: _ => isGap c

def atBreak : Text → Bool
  | [] => true
  | c :: _ => isBreak c

/-- Characters that a text may hold. -/
def isPrintable (c : Char) : Bool :=
  let n := c.toNat
  n = 0x09 || n = 0x0A || n = 0x0D || (0x20 ≤ n && n ≤ 0x7E) || n = 0x85 ||
    (0xA0 ≤ n && n ≤ 0xD7FF) || (0xE000 ≤ n && n ≤ 0xFFFD) || 0x10000 ≤ n

/-- A carriage return, with or without a newline after it, and a next-line character become newlines. -/
def unifyBreaks (t : Text) : Text :=
  t.foldr
    (fun c rest =>
      if c = '\r' then
        match rest with
        | '\n' :: _ => rest
        | _ => '\n' :: rest
      else if c = '\u0085' then
        '\n' :: rest
      else
        c :: rest)
    []

def dropByteOrderMark : Text → Text
  | '\ufeff' :: rest => rest
  | t => t

def prepare? (t : Text) : Option Text :=
  let t := dropByteOrderMark t
  if t.all isPrintable then some (unifyBreaks t) else none

/-- A dash or dot line that separates documents. -/
def atDocumentMark (t : Text) : Bool :=
  match t with
  | '-' :: '-' :: '-' :: rest | '.' :: '.' :: '.' :: rest => atGap rest
  | _ => false

structure Cursor where
  rest : Text
  line : Nat
  column : Nat
  index : Nat
deriving Repr

namespace Cursor

def ofText (t : Text) : Cursor :=
  ⟨t, 0, 0, 0⟩

/-- The position after one more character. -/
def pass (cursor : Cursor) (c : Char) : Cursor :=
  if isBreak c then
    { cursor with line := cursor.line + 1, column := 0, index := cursor.index + 1 }
  else
    { cursor with column := cursor.column + 1, index := cursor.index + 1 }

/-- The position from which `rest` is left. -/
def moveTo (cursor : Cursor) (rest : Text) : Cursor :=
  let passed := cursor.rest.take (cursor.rest.length - rest.length)
  { passed.foldl pass cursor with rest }

def skip (cursor : Cursor) (count : Nat) : Cursor :=
  cursor.moveTo (cursor.rest.drop count)

end Cursor

end GoGraft.Yaml
