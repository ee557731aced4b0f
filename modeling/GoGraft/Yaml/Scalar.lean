import GoGraft.Yaml.Basic
import GoGraft.Yaml.Cursor

/-! The texts of scalars in each style. Each reader is given what follows the place where the scalar begins, and
answers the text that the scalar stands for and what follows the scalar. -/

namespace GoGraft.Yaml

/-- What line breaks between two words stand for: a single newline is a space, and the first of several
newlines is dropped. -/
def foldBreaks : Text → Text
  | ['\n'] => [' ']
  | '\n' :: others => others
  | breaks => breaks

/-- The white space between two words: blanks stay, unless there are breaks among them. -/
def foldGap (gap : Text) : Text :=
  if gap.any isBreak then foldBreaks (gap.filter isBreak) else gap

/-- Marks that end a plain scalar in a flow collection. -/
def isFlowMark (c : Char) : Bool :=
  c = ',' || c = '[' || c = ']' || c = '\x7b' || c = '\x7d'

/-- The part of a plain scalar on one line, with the blanks after it. -/
def plainLine (inFlow : Bool) : (afterBlank : Bool) → Text → Option (Text × Text)
  | _, [] => some ([], [])
  | afterBlank, c :: rest =>
      if isBreak c || (afterBlank && c = '#') then
        some ([], c :: rest)
      else if c = ':' && atGap rest then
        some ([], c :: rest)
      else if inFlow && c = ':' && (rest.head?.any fun d => isFlowMark d || d = '?') then
        none
      else if inFlow && isFlowMark c then
        some ([], c :: rest)
      else
        (plainLine inFlow (isBlank c) rest).map fun (line, after) => (c :: line, after)

/-- Whether a tab stands left of the indentation on a later line of a gap. -/
def breaksIndent (indent : Nat) (gap : Text) : Bool :=
  let walk :=
    (gap.dropWhile (!isBreak ·)).foldl
      (fun (column, broken) c =>
        if isBreak c then (0, broken) else (column + 1, broken || (c = '\t' && column < indent)))
      (0, false)
  walk.2

/-- The lines of a plain scalar, of at most `bound` many. The answer tells too whether the last line was
left. -/
def plainLines (inFlow : Bool) (indent : Nat) :
    (bound : Nat) → Text → Option (Text × Text × Bool)
  | 0, _ => none
  | bound + 1, t => do
      let (line, after) ← plainLine inFlow false t
      let blanks := (line.reverse.takeWhile isBlank).reverse
      let word := line.take (line.length - blanks.length)
      if !atBreak after || after.isEmpty then
        return (word, after, false)
      else
        let gap := after.takeWhile isGap
        let next := after.drop gap.length
        let column := (gap.reverse.takeWhile (!isBreak ·)).length
        if breaksIndent indent gap then
          none
        else if (!inFlow && column < indent) || next.isEmpty || next.head? = some '#' ||
            (column = 0 && atDocumentMark next) then
          return (word, next, true)
        else
          let (others, rest, left) ← plainLines inFlow indent bound next
          if others.isEmpty then
            return (word, rest, true)
          else
            return (word ++ foldGap gap ++ others, rest, left)

/-- A plain scalar whose later lines are indented by `indent` at least. -/
def plainScalar (inFlow : Bool) (indent : Nat) (t : Text) : Option (Text × Text × Bool) :=
  plainLines inFlow indent (t.length + 1) t

/-- What a quoted scalar consists of. -/
inductive Piece where
  | char (c : Char)
  | blank (c : Char)
  | lineBreak (c : Char)
  /-- A break after a backslash. -/
  | joint
deriving Repr

/-- A character as it stands between quotes. -/
def Piece.ofChar (c : Char) : Piece :=
  if isBreak c then .lineBreak c else if isBlank c then .blank c else .char c

/-- The white space at which folding stands. -/
inductive Fold where
  /-- Blanks on one line. -/
  | blanks (taken : Text)
  /-- Blanks with breaks among them. -/
  | breaks (taken : Text)
  /-- What follows a break after a backslash. -/
  | joined (taken : Text)

/-- What the white space stands for; blanks and breaks were taken in reverse order. -/
def Fold.text : Fold → Text
  | .blanks taken => taken.reverse
  | .breaks taken => foldBreaks taken.reverse
  | .joined taken => taken.reverse

/-- The text so far, in reverse order, and the white space after it. -/
def Piece.fold (state : Text × Fold) (piece : Piece) : Text × Fold :=
  let (text, fold) := state
  match piece, fold with
  | .char c, fold => (c :: (fold.text.reverse ++ text), .blanks [])
  | .joint, fold => (fold.text.reverse ++ text, .joined [])
  | .blank c, .blanks taken => (text, .blanks (c :: taken))
  | .blank _, fold => (text, fold)
  | .lineBreak c, .blanks _ => (text, .breaks [c])
  | .lineBreak c, .breaks taken => (text, .breaks (c :: taken))
  | .lineBreak c, .joined taken => (text, .joined (c :: taken))

def foldPieces (pieces : List Piece) : Text :=
  let (text, fold) := pieces.foldl Piece.fold ([], .blanks [])
  (fold.text.reverse ++ text).reverse

def consPiece (piece : Piece) (found : List Piece × Text) : List Piece × Text :=
  (piece :: found.1, found.2)

/-- The pieces up to a closing single quote. Two quotes stand for one. -/
def singlePieces : (atLineStart : Bool) → Text → Option (List Piece × Text)
  | _, [] => none
  | _, '\x27' :: '\x27' :: rest => (singlePieces false rest).map (consPiece (.char '\x27'))
  | _, '\x27' :: rest => some ([], rest)
  | atLineStart, c :: rest =>
      if atLineStart && atDocumentMark (c :: rest) then
        none
      else
        (singlePieces (isBreak c) rest).map (consPiece (.ofChar c))

def singleQuoted (t : Text) : Option (Text × Text) :=
  (singlePieces false t).map fun (pieces, rest) => (foldPieces pieces, rest)

/-- The character that an escape of one letter stands for. -/
def escape? : Char → Option Char
  | '0' => some '\x00'
  | 'a' => some '\x07'
  | 'b' => some '\x08'
  | 't' | '\t' => some '\t'
  | 'n' => some '\n'
  | 'v' => some '\x0b'
  | 'f' => some '\x0c'
  | 'r' => some '\r'
  | 'e' => some '\x1b'
  | ' ' => some ' '
  | '\x22' => some '\x22'
  | '/' => some '/'
  | '\\' => some '\\'
  | 'N' => some '\u0085'
  | '_' => some '\u00a0'
  | 'L' => some '\u2028'
  | 'P' => some '\u2029'
  | _ => none

/-- The number of hexadecimal digits after an escape letter. -/
def codeLength? : Char → Option Nat
  | 'x' => some 2
  | 'u' => some 4
  | 'U' => some 8
  | _ => none

def isCodePoint (n : Nat) : Bool :=
  n < 0xD800 || (0xE000 ≤ n && n ≤ 0x10FFFF)

/-- Where a double-quoted scalar stands: between characters, after a backslash, or among the digits of a
code. -/
inductive QuoteMode where
  | text (atLineStart : Bool)
  | escape
  | code (left value : Nat)

/-- The pieces up to a closing double quote. -/
def doublePieces : QuoteMode → Text → Option (List Piece × Text)
  | _, [] => none
  | .text atLineStart, c :: rest =>
      if atLineStart && atDocumentMark (c :: rest) then
        none
      else if c = '\x22' then
        some ([], rest)
      else if c = '\\' then
        doublePieces .escape rest
      else
        (doublePieces (.text (isBreak c)) rest).map (consPiece (.ofChar c))
  | .escape, c :: rest =>
      if isBreak c then
        (doublePieces (.text true) rest).map (consPiece .joint)
      else
        match escape? c with
        | some d => (doublePieces (.text false) rest).map (consPiece (.char d))
        | none => do
            let length ← codeLength? c
            doublePieces (.code length 0) rest
  | .code left value, c :: rest => do
      let digit ← Text.digit? 16 c
      let value := value * 16 + digit
      if left ≤ 1 then
        if isCodePoint value then
          (doublePieces (.text false) rest).map (consPiece (.char (Char.ofNat value)))
        else
          none
      else
        doublePieces (.code (left - 1) value) rest

def doubleQuoted (t : Text) : Option (Text × Text) :=
  (doublePieces (.text false) t).map fun (pieces, rest) => (foldPieces pieces, rest)

/-- What becomes of the breaks at the end of a block scalar. -/
inductive Chomping where
  | strip
  | clip
  | keep
deriving DecidableEq, Repr

structure BlockHeader where
  chomping : Chomping
  /-- The indentation relative to the parent, where it is written. -/
  increment : Option Nat

def chomping? : Char → Option Chomping
  | '+' => some .keep
  | '-' => some .strip
  | _ => none

/-- An indentation of zero cannot be asked for. -/
def increment? (c : Char) : Option Nat :=
  (Text.digit? 10 c).filter (0 < ·)

/-- The marks after the one that opens a block scalar, in either order. -/
def blockMarks : Text → BlockHeader × Text
  | c :: d :: rest =>
      match chomping? c, increment? c, chomping? d, increment? d with
      | some chomping, _, _, some increment => (⟨chomping, some increment⟩, rest)
      | _, some increment, some chomping, _ => (⟨chomping, some increment⟩, rest)
      | some chomping, _, _, _ => (⟨chomping, none⟩, d :: rest)
      | _, some increment, _, _ => (⟨.clip, some increment⟩, d :: rest)
      | _, _, _, _ => (⟨.clip, none⟩, c :: d :: rest)
  | [c] =>
      match chomping? c, increment? c with
      | some chomping, _ => (⟨chomping, none⟩, [])
      | _, some increment => (⟨.clip, some increment⟩, [])
      | _, _ => (⟨.clip, none⟩, [c])
  | [] => (⟨.clip, none⟩, [])

/-- Only blanks and a comment may follow the marks on their line. -/
def blockHeader? (t : Text) : Option (BlockHeader × Text) :=
  let (header, rest) := blockMarks t
  let rest := rest.dropWhile isBlank
  let rest := if rest.head? = some '#' then rest.dropWhile (!isBreak ·) else rest
  if atBreak rest then
    some (header, rest.drop 1)
  else
    none

/-- The empty lines and the indentation before a line of a block scalar. -/
structure BlockGap where
  breaks : Text
  widest : Nat
  column : Nat
  rest : Text

/-- Passes empty lines and indentation of at most `limit` columns, or of any width. A tab may not be part of
the indentation. -/
def blockGap (limit : Option Nat) : (breaks : Text) → (widest column : Nat) → Text → Option BlockGap
  | breaks, widest, column, [] => some ⟨breaks, widest, column, []⟩
  | breaks, widest, column, c :: rest =>
      let indenting := limit.all (column < ·)
      if c = ' ' && indenting then
        blockGap limit breaks (max widest (column + 1)) (column + 1) rest
      else if c = '\t' && indenting then
        none
      else if isBreak c then
        blockGap limit (breaks ++ [c]) widest 0 rest
      else
        some ⟨breaks, widest, column, c :: rest⟩

structure BlockBody where
  text : Text
  /-- The break at the end of the last line. -/
  lastBreak : Text
  /-- The breaks of the empty lines after it. -/
  trailing : Text
  rest : Text

/-- What stands between two lines of a block scalar. -/
def blockJoin (isLiteral : Bool) (lastBreak trailing : Text) (wasBlank isBlankLine : Bool) : Text :=
  if !isLiteral && lastBreak = ['\n'] && !wasBlank && !isBlankLine then
    if trailing.isEmpty then [' '] else trailing
  else
    lastBreak ++ trailing

/-- The lines of a block scalar, of at most `bound` many. -/
def blockLines (isLiteral : Bool) (indent : Nat) :
    (bound : Nat) → (lastBreak : Text) → (wasBlank : Bool) → BlockGap → Option BlockBody
  | 0, _, _, _ => none
  | bound + 1, lastBreak, wasBlank, gap =>
      if gap.column ≠ indent || gap.rest.isEmpty then
        some ⟨[], lastBreak, gap.breaks, gap.rest⟩
      else do
        let isBlankLine := gap.rest.head?.any isBlank
        let line := gap.rest.takeWhile (!isBreak ·)
        let after := gap.rest.drop line.length
        let next ← blockGap (some indent) [] 0 0 (after.drop 1)
        let body ← blockLines isLiteral indent bound (after.take 1) isBlankLine next
        return { body with
          text := blockJoin isLiteral lastBreak gap.breaks wasBlank isBlankLine ++ line ++ body.text }

/-- A block scalar after its opening mark, inside a collection that is indented by `parent`. -/
def blockScalar (isLiteral : Bool) (parent : Option Nat) (t : Text) : Option (Text × Text) := do
  let (header, rest) ← blockHeader? t
  let least := (parent.map (· + 1)).getD 0
  let written := header.increment.map (parent.getD 0 + ·)
  let gap ← blockGap written [] 0 0 rest
  let indent := written.getD (max (max gap.widest least) 1)
  let body ← blockLines isLiteral indent (rest.length + 1) [] false gap
  let tail :=
    match header.chomping with
    | .strip => []
    | .clip => body.lastBreak
    | .keep => body.lastBreak ++ body.trailing
  return (body.text ++ tail, body.rest)

end GoGraft.Yaml
