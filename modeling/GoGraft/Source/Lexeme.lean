import GoGraft.Text.Basic

/-! The lexemes of Go source. Blanks, newlines and comments are lexemes like any other, so that the texts
of the lexemes put together are the source again. -/

namespace GoGraft

inductive Keyword where
  | breakWord | caseWord | chanWord | constWord | continueWord | defaultWord | deferWord | elseWord
  | fallthroughWord | forWord | funcWord | goWord | gotoWord | ifWord | importWord | interfaceWord
  | mapWord | packageWord | rangeWord | returnWord | selectWord | structWord | switchWord | typeWord
  | varWord
deriving DecidableEq, Repr

/-- Punctuation and operators. `update` stands for every assignment that also computes, and `operator` for
the binary operators that have no second use; `zero` is the character of that code. -/
inductive Mark where
  | openParen | closeParen | openBracket | closeBracket | openBrace | closeBrace
  | comma | semicolon | zero | colon | dot | ellipsis
  | assign | define | update | arrow | increment | decrement
  | plus | minus | star | ampersand | caret | bang | tilde | pipe | both | without | operator
deriving DecidableEq, Repr

inductive LexemeKind where
  /-- White space other than a newline. -/
  | blank
  | newline
  | comment
  | word
  /-- The words `new` and `make`, whose first argument is a type. -/
  | maker
  | keyword (which : Keyword)
  | number
  | string
  | rune
  | mark (which : Mark)
  /-- What no rule of the language covers. -/
  | stray
deriving DecidableEq, Repr

structure Lexeme where
  kind : LexemeKind
  text : Text
deriving DecidableEq, Repr

namespace Lexeme

/-- The source that a list of lexemes was cut from. -/
def source (lexemes : List Lexeme) : Text :=
  lexemes.flatMap text

def keywords : List (Text × Keyword) :=
  [("break".toList, .breakWord), ("case".toList, .caseWord), ("chan".toList, .chanWord),
   ("const".toList, .constWord), ("continue".toList, .continueWord),
   ("default".toList, .defaultWord), ("defer".toList, .deferWord), ("else".toList, .elseWord),
   ("fallthrough".toList, .fallthroughWord), ("for".toList, .forWord), ("func".toList, .funcWord),
   ("go".toList, .goWord), ("goto".toList, .gotoWord), ("if".toList, .ifWord),
   ("import".toList, .importWord), ("interface".toList, .interfaceWord), ("map".toList, .mapWord),
   ("package".toList, .packageWord), ("range".toList, .rangeWord), ("return".toList, .returnWord),
   ("select".toList, .selectWord), ("struct".toList, .structWord), ("switch".toList, .switchWord),
   ("type".toList, .typeWord), ("var".toList, .varWord)]

def ofWord (text : Text) : LexemeKind :=
  match keywords.lookup text with
  | some which => .keyword which
  | none => if text == "new".toList || text == "make".toList then .maker else .word

def marks : List (Text × Mark) :=
  [(['('], .openParen), ([')'], .closeParen), (['['], .openBracket), ([']'], .closeBracket),
   (['\x7b'], .openBrace), (['\x7d'], .closeBrace), ([','], .comma), ([';'], .semicolon),
   (['\x00'], .zero), ([':'], .colon), (['.'], .dot), (['.', '.', '.'], .ellipsis),
   (['='], .assign), ([':', '='], .define), (['<', '-'], .arrow), (['+', '+'], .increment),
   (['-', '-'], .decrement), (['+'], .plus), (['-'], .minus), (['*'], .star),
   (['&'], .ampersand), (['^'], .caret), (['!'], .bang), (['~'], .tilde), (['|'], .pipe),
   (['&', '&'], .both), (['&', '^'], .without), (['/'], .operator), (['%'], .operator),
   (['<', '<'], .operator), (['>', '>'], .operator), (['|', '|'], .operator),
   (['=', '='], .operator), (['!', '='], .operator), (['<'], .operator), (['<', '='], .operator),
   (['>'], .operator), (['>', '='], .operator), (['+', '='], .update), (['-', '='], .update),
   (['*', '='], .update), (['/', '='], .update), (['%', '='], .update), (['&', '='], .update),
   (['|', '='], .update), (['^', '='], .update), (['<', '<', '='], .update),
   (['>', '>', '='], .update), (['&', '^', '='], .update)]

def ofMark (text : Text) : LexemeKind :=
  match marks.lookup text with
  | some which => .mark which
  | none => .stray

/-- Some mark begins with the text. -/
def beginsMark (text : Text) : Bool :=
  marks.any fun mark => text.isPrefixOf mark.1

end Lexeme

end GoGraft
