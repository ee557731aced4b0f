import GoGraft.Text.Class

/-! Texts as lists of characters. Source files, names, paths and rendered output are all of this type;
positions in a text count characters, and only what is reported to a reader counts bytes. -/

namespace GoGraft

abbrev Text := List Char

namespace Text

/-- The number of bytes of the text in UTF-8. -/
def byteSize (t : Text) : Nat :=
  t.foldl (fun n c => n + c.utf8Size) 0

def trimStart (t : Text) : Text :=
  t.dropWhile isSpace

def trimEnd (t : Text) : Text :=
  (t.reverse.dropWhile isSpace).reverse

def trim (t : Text) : Text :=
  trimEnd (trimStart t)

/-- Nothing but white space. -/
def isBlank (t : Text) : Bool :=
  t.all isSpace

/-- Whether `needle` occurs somewhere in the text. -/
def includes (needle : Text) : Text → Bool
  | [] => needle.isEmpty
  | c :: rest => needle.isPrefixOf (c :: rest) || includes needle rest

/-- The parts of a text between the occurrences of a character; there is always at least one. -/
def splitAt (mark : Char) (t : Text) : List Text :=
  t.foldr
    (fun c parts =>
      if c == mark then
        [] :: parts
      else
        match parts with
        | [] => [[c]]
        | part :: others => (c :: part) :: others)
    [[]]

/-- What follows the last newline. -/
def lastLine (t : Text) : Text :=
  (t.reverse.takeWhile (· != '\n')).reverse

/-- The indentation of a position, when only spaces and tabs stand before it on its line. -/
def lineIndent (before : Text) : Option Text :=
  let line := lastLine before
  if line.all isIndent then some line else none

/-- The leading spaces and tabs. -/
def indent (t : Text) : Text :=
  t.takeWhile isIndent

/-- One carriage return is dropped from the end. -/
def dropReturn (line : Text) : Text :=
  if line.getLast? = some '\r' then line.dropLast else line

/-- The lines of a comment: a newline, with or without a carriage return before it, ends a line, and
no empty line follows the last newline. -/
def lines (t : Text) : List Text :=
  let parts := splitAt '\n' t
  match parts.getLast? with
  | some [] => parts.dropLast.map dropReturn
  | some last => parts.dropLast.map dropReturn ++ [last]
  | none => []

/-- At most forty characters of a text, with three dots where something was cut off. -/
def excerpt (t : Text) : Text :=
  if t.length ≤ 40 then t else t.take 40 ++ "...".toList

def ofNat (n : Nat) : Text :=
  (Nat.toDigits 10 n)

/-- The digit that a character stands for in a base of at most sixteen. -/
def digit? (base : Nat) (c : Char) : Option Nat :=
  let value? :=
    if c.isDigit then
      some (c.toNat - '0'.toNat)
    else if 'a' ≤ c && c ≤ 'f' then
      some (c.toNat - 'a'.toNat + 10)
    else if 'A' ≤ c && c ≤ 'F' then
      some (c.toNat - 'A'.toNat + 10)
    else
      none
  value?.filter (· < base)

/-- Digits of a base, at least one, and nothing else. -/
def digits? (base : Nat) (t : Text) : Option Nat :=
  if t.isEmpty then
    none
  else
    t.foldlM (fun value c => (digit? base c).map (value * base + ·)) 0

/-- The parts with a separator between them. -/
def join (separator : Text) : List Text → Text
  | [] => []
  | [part] => part
  | part :: others => part ++ separator ++ join separator others

end Text

end GoGraft
