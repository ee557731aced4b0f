import GoGraft.Source.Lexeme
import GoGraft.Source.Numeral

/-! Cutting source into lexemes, one character at a time. The scanner holds the lexeme that it is inside of;
each character either belongs to that lexeme or ends it and begins the next, so that scanning two texts one
after the other is scanning their concatenation. -/

namespace GoGraft.Scan

/-- What the open lexeme is, as far as the characters read so far tell. -/
inductive Mode where
  /-- Complete: the next character begins another lexeme. -/
  | whole (kind : LexemeKind)
  | blank
  | word
  /-- A run of number characters; a sign may follow when `power` says that it ends in an exponent mark. -/
  | number (hex power : Bool)
  | mark
  | lineComment
  /-- A bracketed comment; `star` when its last character can be part of the closing mark. -/
  | blockComment (star : Bool)
  | rawString
  | string
  | stringEscape
  /-- Inside an escape that needs `count + 1` more hexadecimal digits. -/
  | stringHex (count : Nat)
  | rune
  | runeEscape
  /-- Inside an escape that needs `count + 1` more digits, octal ones or hexadecimal ones. -/
  | runeDigits (octal : Bool) (count : Nat)
  | runeEnd
deriving DecidableEq, Repr

/-- The mode in which a character begins a lexeme. -/
def Mode.opening (c : Char) : Mode :=
  if c == '\n' then .whole .newline
  else if Text.isSpace c then .blank
  else if Text.isWordStart c then .word
  else if c.isDigit then .number false false
  else if c == '\x22' then .string
  else if c == '\x60' then .rawString
  else if c == '\x27' then .rune
  else .mark

/-- Whether a point belongs to the number in front of it, which then has decimal digits or hexadecimal ones and no more.
Behind any other number it selects from it. -/
def takesPoint (hex : Bool) (read : Text) : Bool :=
  read.all fun c => c.isDigit || c == '_' || hex && (Numeral.isHexDigit c || c == 'x' || c == 'X')

/-- The mode after one more character, or nothing when the character begins a new lexeme. The text read so
far comes last character first. -/
def Mode.extend (mode : Mode) (read : Text) (c : Char) : Option Mode :=
  match mode with
  | .whole _ => none
  | .blank => if Text.isSpace c && c != '\n' then some .blank else none
  | .word => if Text.isWordPart c then some .word else none
  | .number hex power =>
      if c.isAlpha || c.isDigit || c == '_' || c == '.' && takesPoint hex read then
        let hex := hex || (read == ['0'] && (c == 'x' || c == 'X'))
        some (.number hex (if hex then c == 'p' || c == 'P' else c == 'e' || c == 'E'))
      else if power && (c == '+' || c == '-') then
        some (.number hex false)
      else
        none
  | .mark =>
      if read == ['/'] && c == '/' then some .lineComment
      else if read == ['/'] && c == '*' then some (.blockComment false)
      else if read == ['.'] && c.isDigit then some (.number false false)
      else if Lexeme.beginsMark (c :: read).reverse then some .mark
      else none
  | .lineComment => if c == '\n' then none else some .lineComment
  | .blockComment star =>
      if star && c == '/' then some (.whole .comment) else some (.blockComment (c == '*'))
  | .rawString => if c == '\x60' then some (.whole .string) else some .rawString
  | .string =>
      if c == '\x22' then some (.whole .string)
      else if c == '\\' then some .stringEscape
      else if c == '\n' then none
      else some .string
  | .stringEscape =>
      if c == 'x' then some (.stringHex 1)
      else if c == 'u' then some (.stringHex 3)
      else if c == 'U' then some (.stringHex 7)
      else some .string
  | .stringHex count =>
      if Numeral.isHexDigit c then
        match count with
        | 0 => some .string
        | count + 1 => some (.stringHex count)
      else
        none
  | .rune =>
      if c == '\\' then some .runeEscape else if c == '\x27' then none else some .runeEnd
  | .runeEscape =>
      if c == 'x' then some (.runeDigits false 1)
      else if c == 'u' then some (.runeDigits false 3)
      else if c == 'U' then some (.runeDigits false 7)
      else if Numeral.isOctalDigit c then some (.runeDigits true 1)
      else if ['a', 'b', 'f', 'n', 'r', 't', 'v', '\\', '\x27', '\x22'].contains c then some .runeEnd
      else none
  | .runeDigits octal count =>
      if if octal then Numeral.isOctalDigit c else Numeral.isHexDigit c then
        match count with
        | 0 => some .runeEnd
        | count + 1 => some (.runeDigits octal count)
      else
        none
  | .runeEnd => if c == '\x27' then some (.whole .rune) else none

/-- The kind of the lexeme that ends in this mode. What was left open belongs to no rule. -/
def Mode.kind (mode : Mode) (text : Text) : LexemeKind :=
  match mode with
  | .whole kind => kind
  | .blank => .blank
  | .word => Lexeme.ofWord text
  | .number _ _ => if Numeral.isLiteral text then .number else .stray
  | .mark => Lexeme.ofMark text
  | .lineComment => .comment
  | _ => .stray

/-- The open lexeme, its text last character first, after the finished ones, last one first. -/
structure State where
  finished : List Lexeme
  current : Option (Mode × Text)
deriving DecidableEq, Repr

def State.initial : State :=
  ⟨[], none⟩

/-- The lexemes so far, last one first. -/
def State.lexemes (state : State) : List Lexeme :=
  match state.current with
  | none => state.finished
  | some (mode, read) => ⟨mode.kind read.reverse, read.reverse⟩ :: state.finished

def State.step (state : State) (c : Char) : State :=
  match state.current with
  | none => ⟨state.finished, some (.opening c, [c])⟩
  | some (mode, read) =>
      match mode.extend read c with
      | some mode => ⟨state.finished, some (mode, c :: read)⟩
      | none => ⟨state.lexemes, some (.opening c, [c])⟩

/-- The lexemes of a text. -/
def lexemes (t : Text) : List Lexeme :=
  (t.foldl State.step .initial).lexemes.reverse

/-- The lexemes of a file: a byte order mark in front of it is white space. -/
def file : Text → List Lexeme
  | '\uFEFF' :: rest => ⟨.blank, ['\uFEFF']⟩ :: lexemes rest
  | text => lexemes text

end GoGraft.Scan
