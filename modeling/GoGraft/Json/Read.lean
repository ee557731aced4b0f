import GoGraft.Json.Basic

/-! Reading JSON. A text is cut into tokens character by character, and a stack of unfinished arrays and objects
takes the tokens one by one. -/

namespace GoGraft.Json

inductive Token where
  | openArray
  | closeArray
  | openObject
  | closeObject
  | comma
  | colon
  | scalar (value : Json)
deriving Repr

/-- White space between tokens. -/
def isBlank (c : Char) : Bool :=
  c = ' ' || c = '\t' || c = '\n' || c = '\r'

def punctuation? : Char → Option Token
  | '[' => some .openArray
  | ']' => some .closeArray
  | '\x7b' => some .openObject
  | '\x7d' => some .closeObject
  | ',' => some .comma
  | ':' => some .colon
  | _ => none

def isDigits (t : Text) : Bool :=
  !t.isEmpty && t.all Char.isDigit

/-- An exponent, if there is one, ends a number. -/
def isExponent : Text → Bool
  | [] => true
  | mark :: '+' :: digits | mark :: '-' :: digits =>
      (mark = 'e' || mark = 'E') && isDigits digits
  | mark :: digits => (mark = 'e' || mark = 'E') && isDigits digits

/-- What may follow the digits before the point. -/
def isNumberTail : Text → Bool
  | '.' :: rest =>
      !(rest.takeWhile Char.isDigit).isEmpty && isExponent (rest.dropWhile Char.isDigit)
  | rest => isExponent rest

/-- A number without sign: no digit follows a leading zero. -/
def isUnsigned : Text → Bool
  | '0' :: rest => isNumberTail rest
  | t => !(t.takeWhile Char.isDigit).isEmpty && isNumberTail (t.dropWhile Char.isDigit)

def isNumber : Text → Bool
  | '-' :: rest => isUnsigned rest
  | t => isUnsigned t

/-- The value of a word, that is, of a token which is neither punctuation nor a string. -/
def ofWord? (word : Text) : Option Json :=
  if word = "null".toList then
    some .null
  else if word = "true".toList then
    some (.bool true)
  else if word = "false".toList then
    some (.bool false)
  else if isNumber word then
    some (.number word)
  else
    none

def isWordChar (c : Char) : Bool :=
  c.isAlphanum || c = '-' || c = '+' || c = '.'

/-- The character that an escape of one letter stands for. -/
def escape? : Char → Option Char
  | '\x22' => some '\x22'
  | '\\' => some '\\'
  | '/' => some '/'
  | 'b' => some '\x08'
  | 'f' => some '\x0c'
  | 'n' => some '\n'
  | 'r' => some '\r'
  | 't' => some '\t'
  | _ => none

def isHighSurrogate (n : Nat) : Bool :=
  0xD800 ≤ n && n ≤ 0xDBFF

def isLowSurrogate (n : Nat) : Bool :=
  0xDC00 ≤ n && n ≤ 0xDFFF

/-- Where the scanner stands in a token. Characters already taken are in reverse order; `high` is the first
half of a surrogate pair. -/
inductive ScanMode where
  | between
  | word (taken : Text)
  | quoted (taken : Text)
  | escaped (taken : Text)
  | coded (taken : Text) (high : Option Nat) (digits value : Nat)
  | halfPair (taken : Text) (high : Nat)
  | halfPairEscape (taken : Text) (high : Nat)
deriving Repr

structure ScanState where
  mode : ScanMode
  /-- The tokens so far, the last one first. -/
  tokens : List Token

namespace ScanState

def start (state : ScanState) (c : Char) : Option ScanState :=
  if isBlank c then
    some { state with mode := .between }
  else if c = '\x22' then
    some { state with mode := .quoted [] }
  else if isWordChar c then
    some { state with mode := .word [c] }
  else
    (punctuation? c).map fun token => ⟨.between, token :: state.tokens⟩

def endWord (state : ScanState) (taken : Text) : Option ScanState :=
  (ofWord? taken.reverse).map fun value => ⟨.between, .scalar value :: state.tokens⟩

/-- A code unit was read in full. Halves of a pair have to meet. -/
def endCode (state : ScanState) (taken : Text) (high : Option Nat) (value : Nat) :
    Option ScanState :=
  match high with
  | some high =>
      if isLowSurrogate value then
        let code := 0x10000 + (high - 0xD800) * 0x400 + (value - 0xDC00)
        some { state with mode := .quoted (Char.ofNat code :: taken) }
      else
        none
  | none =>
      if isHighSurrogate value then
        some { state with mode := .halfPair taken value }
      else if isLowSurrogate value then
        none
      else
        some { state with mode := .quoted (Char.ofNat value :: taken) }

def step (state : ScanState) (c : Char) : Option ScanState :=
  match state.mode with
  | .between => state.start c
  | .word taken =>
      if isWordChar c then
        some { state with mode := .word (c :: taken) }
      else
        (state.endWord taken).bind (·.start c)
  | .quoted taken =>
      if c = '\x22' then
        some ⟨.between, .scalar (.string taken.reverse) :: state.tokens⟩
      else if c = '\\' then
        some { state with mode := .escaped taken }
      else if c.toNat < 0x20 then
        none
      else
        some { state with mode := .quoted (c :: taken) }
  | .escaped taken =>
      if c = 'u' then
        some { state with mode := .coded taken none 0 0 }
      else
        (escape? c).map fun d => { state with mode := .quoted (d :: taken) }
  | .coded taken high digits value => do
      let value := value * 16 + (← Text.digit? 16 c)
      if digits = 3 then
        state.endCode taken high value
      else
        some { state with mode := .coded taken high (digits + 1) value }
  | .halfPair taken high =>
      if c = '\\' then some { state with mode := .halfPairEscape taken high } else none
  | .halfPairEscape taken high =>
      if c = 'u' then some { state with mode := .coded taken (some high) 0 0 } else none

def finish (state : ScanState) : Option (List Token) :=
  match state.mode with
  | .between => some state.tokens.reverse
  | .word taken => (state.endWord taken).map (·.tokens.reverse)
  | _ => none

end ScanState

def tokens? (text : Text) : Option (List Token) :=
  (text.foldlM ScanState.step ⟨.between, []⟩).bind ScanState.finish

/-- An array, or an object at one of its values, of which the later parts are still to be read. What was read
is in reverse order. -/
inductive OpenValue where
  | array (items : List Json)
  | object (members : List (Text × Json)) (key : Text)

inductive ReadState where
  | atValue (outer : List OpenValue)
  | atFirstItem (outer : List OpenValue)
  | atFirstKey (outer : List OpenValue)
  | atKey (members : List (Text × Json)) (outer : List OpenValue)
  | atColon (members : List (Text × Json)) (key : Text) (outer : List OpenValue)
  /-- A value was put into the innermost array or object. -/
  | atSeparator (inner : OpenValue) (outer : List OpenValue)
  | done (value : Json)

namespace ReadState

/-- A value was read in full. -/
def place (value : Json) : List OpenValue → ReadState
  | [] => done value
  | .array items :: outer => atSeparator (.array (value :: items)) outer
  | .object members key :: outer => atSeparator (.object ((key, value) :: members) key) outer

def startValue (outer : List OpenValue) : Token → Option ReadState
  | .scalar value => some (place value outer)
  | .openArray => some (atFirstItem outer)
  | .openObject => some (atFirstKey outer)
  | _ => none

def step (state : ReadState) (token : Token) : Option ReadState :=
  match state, token with
  | atValue outer, token => startValue outer token
  | atFirstItem outer, .closeArray => some (place (.array []) outer)
  | atFirstItem outer, token => startValue (.array [] :: outer) token
  | atFirstKey outer, .closeObject => some (place (.object []) outer)
  | atFirstKey outer, .scalar (.string text) => some (atColon [] text outer)
  | atKey members outer, .scalar (.string text) => some (atColon members text outer)
  | atColon members key outer, .colon => some (atValue (.object members key :: outer))
  | atSeparator (.array items) outer, .comma => some (atValue (.array items :: outer))
  | atSeparator (.array items) outer, .closeArray => some (place (.array items.reverse) outer)
  | atSeparator (.object members _) outer, .comma => some (atKey members outer)
  | atSeparator (.object members _) outer, .closeObject =>
      some (place (.object members.reverse) outer)
  | _, _ => none

def result? : ReadState → Option Json
  | done value => some value
  | _ => none

end ReadState

/-- The value that a text stands for. -/
def read? (text : Text) : Option Json := do
  let tokens ← tokens? text
  let state ← tokens.foldlM ReadState.step (.atValue [])
  state.result?

end GoGraft.Json
