import GoGraft.Yaml.Scalar

/-! YAML tokens. Indentation opens and closes block collections, and a value mark makes a key of what was read
before it on the same line. -/

namespace GoGraft.Yaml

/-- A tag as it is written: a handle, whose meaning is declared, and a suffix. -/
structure TagName where
  handle : Text
  suffix : Text
deriving DecidableEq, Repr

inductive Token where
  | version (major minor : Nat)
  | tagHandle (handle content : Text)
  | documentStart
  | documentEnd
  | blockSequence
  | blockMapping
  | blockEnd
  | openSequence
  | closeSequence
  | openMapping
  | closeMapping
  | entry
  | separator
  | key
  | value
  | reference (name : Text)
  | anchor (name : Text)
  | tag (name : TagName)
  | scalar (text : Text) (style : ScalarStyle)
deriving DecidableEq, Repr

/-- A place where a key may turn out to have begun. -/
structure KeyPlace where
  /-- Whether nothing but a key may stand there. -/
  required : Bool
  /-- The number of tokens before it. -/
  before : Nat
  line : Nat
  column : Nat
  index : Nat

structure ScanState where
  cursor : Cursor
  /-- The column of the innermost block collection. -/
  indent : Option Nat
  /-- The columns of those around it. -/
  outer : List (Option Nat)
  /-- One place for each flow collection around the cursor, and one for the block around them. -/
  places : List (Option KeyPlace)
  keyAllowed : Bool
  /-- The tokens so far, the last one first. -/
  tokens : List Token

namespace ScanState

def start (t : Text) : ScanState :=
  { cursor := .ofText t, indent := none, outer := [], places := [none], keyAllowed := true, tokens := [] }

def inFlow (state : ScanState) : Bool :=
  1 < state.places.length

def emit (state : ScanState) (token : Token) : ScanState :=
  { state with tokens := token :: state.tokens }

/-- Puts a token behind the first `count` tokens. -/
def emitAt (state : ScanState) (count : Nat) (token : Token) : ScanState :=
  let later := state.tokens.length - count
  { state with tokens := state.tokens.take later ++ token :: state.tokens.drop later }

def skip (state : ScanState) (count : Nat) : ScanState :=
  { state with cursor := state.cursor.skip count }

def moveTo (state : ScanState) (rest : Text) : ScanState :=
  { state with cursor := state.cursor.moveTo rest }

def allowKey (state : ScanState) (allowed : Bool) : ScanState :=
  { state with keyAllowed := allowed }

/-- Opens a block collection at a column that is deeper than the innermost one. -/
def openBlock (state : ScanState) (column : Nat) (count : Nat) (token : Token) : ScanState :=
  if !state.inFlow && state.indent.all (· < column) then
    { state with indent := some column, outer := state.indent :: state.outer }.emitAt count token
  else
    state

/-- Closes the block collections that are deeper than a column, or all of them. -/
def closeBlocks (state : ScanState) (column : Option Nat) : ScanState :=
  if state.inFlow then
    state
  else
    let isDeeper (indent : Option Nat) : Bool :=
      match indent, column with
      | none, _ => false
      | some _, none => true
      | some indent, some column => column < indent
    let stack := state.indent :: state.outer
    let closed := stack.takeWhile isDeeper
    match stack.drop closed.length with
    | [] => state
    | indent :: outer =>
        { state with
          indent
          outer
          tokens := List.replicate closed.length .blockEnd ++ state.tokens }

/-- Gives up the innermost place where a key may have begun. -/
def dropPlace? (state : ScanState) : Option ScanState :=
  match state.places with
  | [] => some state
  | place :: others =>
      if place.any (·.required) then none else some { state with places := none :: others }

/-- Notes that a key may begin here. -/
def markPlace? (state : ScanState) : Option ScanState :=
  if state.keyAllowed then do
    let cursor := state.cursor
    let place : KeyPlace :=
      { required := !state.inFlow && state.indent = some cursor.column
        before := state.tokens.length
        line := cursor.line
        column := cursor.column
        index := cursor.index }
    let state ← state.dropPlace?
    return { state with places := some place :: state.places.drop 1 }
  else
    some state

/-- A key is written on one line, in at most 1024 characters. -/
def KeyPlace.isStale (place : KeyPlace) (cursor : Cursor) : Bool :=
  place.line < cursor.line || place.index + 1024 < cursor.index

/-- Gives up the places from which no key can reach the cursor. -/
def dropStale? (state : ScanState) : Option ScanState :=
  let isLost (place : Option KeyPlace) : Bool :=
    place.any fun place => place.required && KeyPlace.isStale place state.cursor
  if state.places.any isLost then
    none
  else
    some { state with places := state.places.map (·.filter (!KeyPlace.isStale · state.cursor)) }

/-- What follows blanks, breaks and comments. A tab is a blank only where no key may begin. The answer tells
too whether there was a break. -/
def afterGap : (tabs inFlow inComment : Bool) → Text → Text × Bool
  | _, _, _, [] => ([], false)
  | tabs, inFlow, inComment, c :: rest =>
      if isBreak c then
        ((afterGap (tabs && inFlow) inFlow false rest).1, true)
      else if inComment || c = ' ' || (tabs && c = '\t') then
        afterGap tabs inFlow inComment rest
      else if c = '#' then
        afterGap tabs inFlow true rest
      else
        (c :: rest, false)

def passGap (state : ScanState) : ScanState :=
  let (rest, crossed) :=
    afterGap (state.inFlow || !state.keyAllowed) state.inFlow false state.cursor.rest
  { state.moveTo rest with keyAllowed := state.keyAllowed || (crossed && !state.inFlow) }

def isNameChar (c : Char) : Bool :=
  c.isAlphanum || c = '-' || c = '_'

/-- Scans a mark for a whole line: directives and document marks end all blocks. -/
def endBlocks? (state : ScanState) : Option ScanState :=
  ((state.closeBlocks none).dropPlace?).map (·.allowKey false)

/-- Only blanks and a comment may follow a directive on its line. -/
def endDirective? (t : Text) : Option Text :=
  let t := t.dropWhile isBlank
  let t := if t.head? = some '#' then t.dropWhile (!isBreak ·) else t
  if atBreak t then some t else none

/-- The version that a directive names. -/
def versionDirective? (t : Text) : Option (Token × Text) := do
  let t := t.dropWhile isBlank
  let major := t.takeWhile Char.isDigit
  match t.dropWhile Char.isDigit with
  | '.' :: rest =>
      let minor := rest.takeWhile Char.isDigit
      let after ← endDirective? (rest.dropWhile Char.isDigit)
      return (.version (← Text.digits? 10 major) (← Text.digits? 10 minor), after)
  | _ => none

def isTagChar (c : Char) : Bool :=
  isNameChar c || ";/?:@&=+$.!~*\x27()%".toList.contains c

/-- A handle: an exclamation mark, or a name between two of them. -/
def tagHandle? : Text → Option (Text × Text)
  | '!' :: rest =>
      let name := rest.takeWhile isNameChar
      match rest.dropWhile isNameChar with
      | '!' :: after => some ('!' :: (name ++ ['!']), after)
      | after => if name.isEmpty then some (['!'], after) else none
  | _ => none

def handleDirective? (t : Text) : Option (Token × Text) := do
  let (handle, rest) ← tagHandle? (t.dropWhile isBlank)
  let spaced := rest.dropWhile isBlank
  let content := spaced.takeWhile fun c => isTagChar c || c = ',' || c = '[' || c = ']'
  if rest.head?.any isBlank && !content.isEmpty then
    let after ← endDirective? (spaced.drop content.length)
    return (.tagHandle handle content, after)
  else
    none

def scanDirective? (state : ScanState) : Option ScanState := do
  let state ← state.endBlocks?
  let rest := state.cursor.rest.drop 1
  let name := rest.takeWhile isNameChar
  let rest := rest.drop name.length
  if !rest.head?.any isBlank then
    none
  else if name = "YAML".toList then
    let (token, after) ← versionDirective? rest
    return (state.moveTo after).emit token
  else if name = "TAG".toList then
    let (token, after) ← handleDirective? rest
    return (state.moveTo after).emit token
  else
    none

def scanDocumentMark? (state : ScanState) (token : Token) : Option ScanState := do
  let state ← state.endBlocks?
  return (state.emit token).skip 3

def openFlow? (state : ScanState) (token : Token) : Option ScanState := do
  let state ← state.markPlace?
  return ({ state with places := none :: state.places, keyAllowed := true }.emit token).skip 1

def closeFlow? (state : ScanState) (token : Token) : Option ScanState := do
  let state ← state.dropPlace?
  let places := if state.inFlow then state.places.drop 1 else state.places
  return ({ state with places, keyAllowed := false }.emit token).skip 1

def scanSeparator? (state : ScanState) : Option ScanState := do
  let state ← state.dropPlace?
  return ((state.allowKey true).emit .separator).skip 1

def scanEntry? (state : ScanState) : Option ScanState :=
  if !state.inFlow && !state.keyAllowed then
    none
  else do
    let state := state.openBlock state.cursor.column state.tokens.length .blockSequence
    let state ← state.dropPlace?
    return ((state.allowKey true).emit .entry).skip 1

def scanKey? (state : ScanState) : Option ScanState :=
  if !state.inFlow && !state.keyAllowed then
    none
  else do
    let state := state.openBlock state.cursor.column state.tokens.length .blockMapping
    let state ← state.dropPlace?
    return ((state.allowKey !state.inFlow).emit .key).skip 1

def scanValue? (state : ScanState) : Option ScanState :=
  match state.places with
  | some place :: others =>
      let state := state.emitAt place.before .key
      let state := state.openBlock place.column place.before .blockMapping
      some (({ state with places := none :: others, keyAllowed := false }.emit .value).skip 1)
  | _ =>
      if !state.inFlow && !state.keyAllowed then
        none
      else
        let state := state.openBlock state.cursor.column state.tokens.length .blockMapping
        some (((state.allowKey !state.inFlow).emit .value).skip 1)

/-- An anchor or a reference to one. -/
def scanName? (state : ScanState) (token : Text → Token) : Option ScanState := do
  let state ← state.markPlace?
  let rest := state.cursor.rest.drop 1
  let name := rest.takeWhile isNameChar
  let after := rest.drop name.length
  if !name.isEmpty && (atGap after || after.head?.any "?:,]\x7d%@\x60".toList.contains) then
    return ((state.allowKey false).emit (token name)).moveTo after
  else
    none

/-- The characters of a tag; a percent sign and two digits stand for a byte below 128. -/
def tagText? (allowed : Char → Bool) : Text → Option (Text × Text)
  | [] => some ([], [])
  | '%' :: high :: low :: rest => do
      let code := (← Text.digit? 16 high) * 16 + (← Text.digit? 16 low)
      let (text, after) ← tagText? allowed rest
      if code < 128 then some (Char.ofNat code :: text, after) else none
  | c :: rest =>
      if allowed c && c ≠ '%' then
        (tagText? allowed rest).map fun (text, after) => (c :: text, after)
      else if c = '%' then
        none
      else
        some ([], c :: rest)

/-- A tag: in angle brackets, after a handle, or after a single mark. -/
def tag? (t : Text) : Option (TagName × Text) :=
  match t with
  | '!' :: '<' :: rest => do
      let (suffix, after) ← tagText? (fun c => isTagChar c || c = ',' || c = '[' || c = ']') rest
      match after with
      | '>' :: after => if suffix.isEmpty then none else some (⟨[], suffix⟩, after)
      | _ => none
  | '!' :: rest =>
      let name := rest.takeWhile isNameChar
      match rest.drop name.length with
      | '!' :: after => do
          let (suffix, after) ← tagText? isTagChar after
          if suffix.isEmpty then none else some (⟨'!' :: (name ++ ['!']), suffix⟩, after)
      | _ => do
          let (suffix, after) ← tagText? isTagChar rest
          some (if suffix.isEmpty then ⟨[], ['!']⟩ else ⟨['!'], suffix⟩, after)
  | _ => none

def scanTag? (state : ScanState) : Option ScanState := do
  let state ← state.markPlace?
  let (name, after) ← tag? state.cursor.rest
  if atGap after || (state.inFlow && after.head? = some ',') then
    return ((state.allowKey false).emit (.tag name)).moveTo after
  else
    none

def scanBlockScalar? (state : ScanState) (style : ScalarStyle) : Option ScanState := do
  let state ← state.dropPlace?
  let (text, rest) ←
    blockScalar (style = .literal) state.indent (state.cursor.rest.drop 1)
  return ((state.allowKey true).emit (.scalar text style)).moveTo rest

def scanQuoted? (state : ScanState) (read : Text → Option (Text × Text)) : Option ScanState := do
  let state ← state.markPlace?
  let (text, rest) ← read (state.cursor.rest.drop 1)
  return ((state.allowKey false).emit (.scalar text .quoted)).moveTo rest

def scanPlain? (state : ScanState) : Option ScanState := do
  let state ← state.markPlace?
  let indent := (state.indent.map (· + 1)).getD 0
  let (text, rest, left) ← plainScalar state.inFlow indent state.cursor.rest
  return ((state.allowKey left).emit (.scalar text .plain)).moveTo rest

/-- Characters that a plain scalar may not begin with. -/
def isIndicator (c : Char) : Bool :=
  "-?:,[]\x7b\x7d#&*!|>\x27\x22%@\x60".toList.contains c

def beginsPlain (inFlow : Bool) : Text → Bool
  | [] => false
  | c :: rest =>
      (!isGap c && !isIndicator c) || (c = '-' && !rest.head?.any isBlank) ||
        (!inFlow && (c = '?' || c = ':') && !atGap rest)

/-- Scans the token at the cursor. -/
def scanToken? (state : ScanState) : Option ScanState :=
  let rest := state.cursor.rest
  let after := rest.drop 1
  let atLineStart := state.cursor.column = 0
  if atLineStart && rest.head? = some '%' then
    state.scanDirective?
  else if atLineStart && atDocumentMark rest then
    state.scanDocumentMark? (if rest.head? = some '-' then .documentStart else .documentEnd)
  else
    match rest.head? with
    | some '[' => state.openFlow? .openSequence
    | some '\x7b' => state.openFlow? .openMapping
    | some ']' => state.closeFlow? .closeSequence
    | some '\x7d' => state.closeFlow? .closeMapping
    | some ',' => state.scanSeparator?
    | some '*' => state.scanName? .reference
    | some '&' => state.scanName? .anchor
    | some '!' => state.scanTag?
    | some '\x27' => state.scanQuoted? singleQuoted
    | some '\x22' => state.scanQuoted? doubleQuoted
    | some c =>
        if c = '-' && atGap after then
          state.scanEntry?
        else if c = '?' && (state.inFlow || atGap after) then
          state.scanKey?
        else if c = ':' && (state.inFlow || atGap after) then
          state.scanValue?
        else if c = '|' && !state.inFlow then
          state.scanBlockScalar? .literal
        else if c = '>' && !state.inFlow then
          state.scanBlockScalar? .folded
        else if beginsPlain state.inFlow rest then
          state.scanPlain?
        else
          none
    | none => none

/-- Scans at most `bound` tokens, which have to reach the end of the text. -/
def scanAll? : (bound : Nat) → ScanState → Option (List Token)
  | 0, _ => none
  | bound + 1, state => do
      let state ← state.passGap.dropStale?
      if state.cursor.rest.isEmpty then
        let state ← state.endBlocks?
        return state.tokens.reverse
      else
        let state ← (state.closeBlocks (some state.cursor.column)).scanToken?
        scanAll? bound state

end ScanState

def tokens? (t : Text) : Option (List Token) := do
  let t ← prepare? t
  ScanState.scanAll? (t.length + 1) (.start t)

end GoGraft.Yaml
