import GoGraft.Text.Table.Alphabetic
import GoGraft.Text.Table.Numeric
import GoGraft.Text.Table.WordPart
import GoGraft.Text.Table.WordStart

/-! Classes of characters, over all of Unicode. Below 0x80 each class is spelled out, so that a proof
about plain source text never meets a table. -/

namespace GoGraft.Text

def inRanges (ranges : List (Nat × Nat)) (c : Char) : Bool :=
  ranges.any fun range => range.1 ≤ c.toNat && c.toNat ≤ range.2

/-- White space in the sense of the Unicode property White_Space. -/
def isSpace (c : Char) : Bool :=
  if c.toNat < 0x80 then
    c == ' ' || (9 ≤ c.toNat && c.toNat ≤ 13)
  else
    inRanges [(0x85, 0x85), (0xa0, 0xa0), (0x1680, 0x1680), (0x2000, 0x200a), (0x2028, 0x2029),
      (0x202f, 0x202f), (0x205f, 0x205f), (0x3000, 0x3000)] c

/-- The control characters, C0 and C1 alike. -/
def isControl (c : Char) : Bool :=
  c.toNat < 0x20 || (0x7f ≤ c.toNat && c.toNat ≤ 0x9f)

/-- A letter: the Unicode property Alphabetic. -/
def isLetter (c : Char) : Bool :=
  if c.toNat < 0x80 then c.isAlpha else inRanges Table.alphabetic c

/-- A letter or a number of any kind. -/
def isLetterOrNumber (c : Char) : Bool :=
  if c.toNat < 0x80 then
    c.isAlpha || c.isDigit
  else
    inRanges Table.alphabetic c || inRanges Table.numeric c

/-- A character that can open a Go word. -/
def isWordStart (c : Char) : Bool :=
  if c.toNat < 0x80 then c.isAlpha || c == '_' else inRanges Table.wordStart c

/-- A character that can stand in a Go word after its first. -/
def isWordPart (c : Char) : Bool :=
  if c.toNat < 0x80 then
    c.isAlpha || c.isDigit || c == '_'
  else
    inRanges Table.wordPart c

/-- The two characters that Go source is indented with. -/
def isIndent (c : Char) : Bool :=
  c == ' ' || c == '\t'

end GoGraft.Text
