import GoGraft.Grammar.Frame

/-! How types, expressions and statements begin: for a first lexeme, the frames of what must follow it. -/

namespace GoGraft.Grammar

def isWord : LexemeKind → Bool
  | .word | .maker => true
  | _ => false

/-- A newline, a semicolon or a zero character. -/
def isTerminator : LexemeKind → Bool
  | .newline | .mark .semicolon | .mark .zero => true
  | _ => false

def isBinary : LexemeKind → Bool
  | .mark .plus | .mark .minus | .mark .star | .mark .ampersand | .mark .caret | .mark .pipe
  | .mark .both | .mark .without | .mark .operator => true
  | _ => false

def isAssignment : LexemeKind → Bool
  | .mark .assign | .mark .define | .mark .update => true
  | _ => false

def expectMark (mark : Mark) : Frame :=
  .expect (.mark mark)

/-- A type, and further types that a bar joins to it. -/
def unionDue : List Frame :=
  [.type (.due false), .type .union]

def expressionDue (site : Site) : List Frame :=
  [.expr (.operand site), .expr (.first site)]

def valueDue (site : Site) : List Frame :=
  expressionDue site ++ [.expr .value]

def valuesDue (site : Site) : List Frame :=
  expressionDue site ++ [.expr (.values site)]

/-- The rest of a block, its brace being open. -/
def block : List Frame :=
  [.stmt .statements, .stmt .blockEnd]

def blockDue : List Frame :=
  expectMark .openBrace :: block

def startType (top : Bool) (kind : LexemeKind) : Option (List Frame) :=
  match kind with
  | .word | .maker => some [.type .name]
  | .mark .star => some [.type (.due false)]
  | .mark .openParen => some [.type (.due false), expectMark .closeParen]
  | .mark .openBracket => some [.type .bracket]
  | .keyword .mapWord =>
      some [expectMark .openBracket, .type (.due false), expectMark .closeBracket,
        .type (.due false)]
  | .keyword .chanWord => some [.type .channel]
  | .mark .arrow => some [.expect (.keyword .chanWord), .type (.due false)]
  | .keyword .funcWord => some [expectMark .openParen, .type .parameters, .type .result]
  | .keyword .structWord => some [.type (.recordOpen top)]
  | .keyword .interfaceWord => some [expectMark .openBrace, .type .elements]
  | .mark .tilde => some [.type (.due false)]
  | _ => none

def startOperand (site : Site) (kind : LexemeKind) : Option (List Frame) :=
  match kind with
  | .word => some [.expr (.postfixes .name site)]
  | .maker => some [.expr (.postfixes .maker site)]
  | .number | .string | .rune => some [.expr (.postfixes .value site)]
  | .mark .openParen => some (expressionDue .free ++ [.expr (.group site)])
  | .mark .star => some [.expr (.operand site.operand), .expr .pointed]
  | .mark .plus | .mark .minus | .mark .caret | .mark .bang | .mark .ampersand =>
      some [.expr (.operand site.operand), .expr .signed]
  | .mark .arrow => some [.expr (.received site.operand)]
  | .keyword .funcWord =>
      some [expectMark .openParen, .type .parameters, .expr (.functionResult site)]
  | .keyword .structWord =>
      some [.type (.recordOpen false), .expr (.postfixes .aggregate site)]
  | .keyword .mapWord =>
      some [expectMark .openBracket, .type (.due false), expectMark .closeBracket,
        .type (.due false), .expr (.postfixes .aggregate site)]
  | .mark .openBracket => some [.expr (.arrayBracket site)]
  | .keyword .chanWord => some [.type .channel, .expr (.postfixes .bare site)]
  | .keyword .interfaceWord =>
      some [expectMark .openBrace, .type .elements, .expr (.postfixes .bare site)]
  | .mark .tilde => some [.type (.due false), .expr (.postfixes .bare site)]
  | _ => none

def startExpression (site : Site) (kind : LexemeKind) : Option (List Frame) :=
  (startOperand site kind).map (· ++ [.expr (.first site)])

def Place.site : Place → Site
  | .statement | .communication => .free
  | .ifHeader | .forHeader | .forUpdate => .header
  | .switchHeader | .switchValue => .switch

def startSimple (place : Place) (kind : LexemeKind) : Option (List Frame) :=
  (startExpression place.site kind).map (· ++ [.stmt (.simple place)])

def startStatement (kind : LexemeKind) : Option (List Frame) :=
  match kind with
  | .keyword .constWord => some [.decl (.constants false)]
  | .keyword .typeWord => some [.decl (.types false)]
  | .keyword .varWord => some [.decl (.variables false)]
  | .keyword .returnWord => some [.stmt .results]
  | .keyword .goWord | .keyword .deferWord => some (valueDue .free)
  | .keyword .ifWord => some [.stmt .ifHeader]
  | .keyword .forWord => some [.stmt .forHeader]
  | .keyword .switchWord => some [.stmt .switchHeader]
  | .keyword .selectWord =>
      some [expectMark .openBrace, .stmt (.clauses .communications)]
  | .keyword .fallthroughWord => some []
  | .keyword .breakWord | .keyword .continueWord => some [.stmt .jump]
  | .keyword .gotoWord => some [.word]
  | .mark .openBrace => some block
  | .mark .semicolon => some []
  | _ => startSimple .statement kind

end GoGraft.Grammar
