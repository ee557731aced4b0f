import GoGraft.Grammar.Declarations
import GoGraft.Grammar.Statements

/-! The grammar as a machine with a stack. It reads one lexeme after the other and never looks ahead, so
that what it makes of a text depends on the stack alone. A newline is white space except where the
construct that is open can end: there it ends it, as a semicolon does. -/

namespace GoGraft.Grammar

def Frame.move (frame : Frame) (kind : LexemeKind) : Move :=
  match frame with
  | .type frame => frame.move kind
  | .expr frame => frame.move kind
  | .stmt frame => frame.move kind
  | .decl frame => frame.move kind
  | .expect due => if kind = due then .take .inner [] else .refuse
  | .word => if isWord kind then .take .inner [] else .refuse
  | .finished reading => .leave reading

def Frame.resume (frame : Frame) (reading : Reading) : Option Frame :=
  match frame with
  | .expr frame => frame.resume reading
  | .stmt frame => frame.resume reading
  | .decl frame => frame.resume reading
  | frame => some frame

/-- The frame on top reads a lexeme; frames that end before it are left on the way down. -/
def settle (top : Frame) (below : List Frame) (kind : LexemeKind) : Option (Role × List Frame) :=
  match top.move kind with
  | .take role next => some (role, next ++ below)
  | .refuse => none
  | .leave reading =>
      match below with
      | [] => none
      | next :: below =>
          match next.resume reading with
          | some next => settle next below kind
          | none => none

def read (stack : List Frame) (kind : LexemeKind) : Option (Role × List Frame) :=
  match stack with
  | [] => none
  | top :: below => settle top below kind

/-- Two marks in one, where only the two make sense: `a<-b` compares with a negated `b` where nothing
can be sent. -/
def halves : Mark → Option (Mark × Mark)
  | .arrow => some (.operator, .minus)
  | .increment => some (.plus, .plus)
  | .decrement => some (.minus, .minus)
  | .both => some (.ampersand, .ampersand)
  | .without => some (.ampersand, .caret)
  | _ => none

def readHalves (stack : List Frame) (mark : Mark) : Option (Role × List Frame) := do
  let (left, right) ← halves mark
  let (_, stack) ← read stack (.mark left)
  read stack (.mark right)

/-- Reads one lexeme: its role, and the stack after it. -/
def advance (stack : List Frame) (kind : LexemeKind) : Option (Role × List Frame) :=
  match kind with
  | .blank | .comment => some (.trivia, stack)
  | .newline => (read stack .newline).orElse fun _ => some (.trivia, stack)
  | .mark mark => (read stack (.mark mark)).orElse fun _ => readHalves stack mark
  | kind => read stack kind

/-- A lexeme with its role. -/
structure Marked where
  lexeme : Lexeme
  role : Role
deriving DecidableEq, Repr

def Marked.text (marked : Marked) : Text :=
  marked.lexeme.text

def Marked.kind (marked : Marked) : LexemeKind :=
  marked.lexeme.kind

/-- The stack, and what has been read, last lexeme first. -/
structure State where
  stack : List Frame
  read : List Marked
deriving DecidableEq, Repr

def State.step (state : State) (lexeme : Lexeme) : Option State := do
  let (role, stack) ← advance state.stack lexeme.kind
  return ⟨stack, ⟨lexeme, role⟩ :: state.read⟩

/-- A file is a sequence of items, each with its terminator. -/
def fileStack : List Frame :=
  [.decl .items]

/-- The lexemes of a file with their roles, when the grammar accepts it. -/
def parse (lexemes : List Lexeme) : Option (List Marked) := do
  let state ← lexemes.foldlM State.step ⟨fileStack, []⟩
  if state.stack = fileStack then some state.read.reverse else none

end GoGraft.Grammar
