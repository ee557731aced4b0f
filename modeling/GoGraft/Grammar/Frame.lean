import GoGraft.Source.Lexeme

/-! The states of the Go grammar. A frame says what may come next at one level of nesting, and the levels
that are open at a point of the source are a stack of frames. -/

namespace GoGraft.Grammar

/-- What a lexeme contributes to the outline of its file. -/
inductive Role where
  /-- A blank, a comment, or a newline where no construct can end. -/
  | trivia
  /-- A part of an item that the outline does not name. -/
  | inner
  /-- Ends a top-level item. -/
  | ending
  /-- A name that the item may bind. -/
  | name
  /-- Shows that the function whose name may have gone before is a declaration. -/
  | named
  /-- The alias of an import, or the sign that makes a type an alias. -/
  | aliasing
  | path
  /-- Closes the type parameters of a type specification. -/
  | parameters
  | groupOpen
  | groupSplit
  | groupClose
  /-- A word that may name a field. -/
  | field
  /-- Shows that the words before it name fields. -/
  | fieldNamed
  | tag
  | recordOpen
  | recordSplit
  | recordClose
deriving DecidableEq, Repr

/-- The ways in which a finished phrase can be understood. -/
structure Phrase where
  value : Bool
  type : Bool
  /-- A union of types, of one or more. -/
  union : Bool
  /-- A word on its own. -/
  word : Bool
deriving DecidableEq, Repr

inductive Reading where
  | phrase (phrase : Phrase)
  /-- The subject of a type switch. -/
  | guard
  /-- A statement that is not an expression. -/
  | action
  /-- A range clause. -/
  | range
deriving DecidableEq, Repr

def Phrase.ofValue : Phrase := ⟨true, false, false, false⟩

def Reading.value : Reading := .phrase .ofValue

/-- Where an expression stands. -/
structure Site where
  /-- A block may follow, so that a brace after a name opens it. -/
  block : Bool
  /-- The subject of a type switch may stand here. -/
  subject : Bool
deriving DecidableEq, Repr

def Site.free : Site := ⟨false, false⟩
def Site.header : Site := ⟨true, false⟩
def Site.switch : Site := ⟨true, true⟩
def Site.definition : Site := ⟨false, true⟩

/-- Under an operator there is no subject of a type switch. -/
def Site.operand (site : Site) : Site := { site with subject := false }

/-- What an operand is so far, which decides what may be attached to it. -/
inductive Shape where
  | name
  | maker
  | qualified
  /-- A phrase with an index or type arguments; `call` when it can be called. -/
  | applied (value type call : Bool)
  | value
  /-- A type that a literal can be written for. -/
  | aggregate
  /-- An array type that counts its elements: only its literal may follow. -/
  | counted
  /-- A type that has no literals. -/
  | bare
  /-- In parentheses. -/
  | grouped (value type : Bool)
deriving DecidableEq, Repr

namespace Shape

def isValue : Shape → Bool
  | name | maker | qualified | value => true
  | applied asValue _ _ => asValue
  | grouped asValue _ => asValue
  | aggregate | counted | bare => false

def isType : Shape → Bool
  | name | maker | qualified | aggregate | bare => true
  | applied _ asType _ => asType
  | grouped _ asType => asType
  | value | counted => false

/-- Type arguments may follow and make a type of it. -/
def isNamed : Shape → Bool
  | name | maker | qualified => true
  | _ => false

def reading? (shape : Shape) : Option Phrase :=
  if shape.isValue || shape.isType then
    some ⟨shape.isValue, shape.isType, shape.isType, shape matches .name | .maker⟩
  else
    none

end Shape

/-- What the brackets after a phrase belong to. -/
inductive Indexed where
  | phrase (shape : Shape) (site : Site)
  /-- A word that names a parameter or field, or is the head of a type. -/
  | name (top : Bool)
  /-- The first word in the brackets of a type specification. -/
  | parameter (top : Bool)
deriving DecidableEq, Repr

/-- Frames of types. `top` marks the struct type that is the whole of a top-level type specification. -/
inductive TypeFrame where
  | due (top : Bool)
  | name
  | selector
  | qualified
  | arguments
  | moreArguments
  | union
  | bracket
  | channel
  | parameters
  | parameterName
  | parameterEnd
  | moreParameters
  | result
  | recordOpen (top : Bool)
  | fields (top : Bool)
  | fieldName (top : Bool)
  | nextName (top : Bool)
  | fieldNames (top : Bool)
  | pointed
  | tag (top : Bool)
  | fieldEnd (top : Bool)
  | nameBracket (top : Bool)
  | nameEnd (top value type : Bool)
  | elements
  | elementName
  | elementEnd
  | constraint (top : Bool)
  | constraintName (top : Bool)
  | constraintEnd (top : Bool)
  | moreConstraints (top : Bool)
deriving DecidableEq, Repr

/-- Frames of expressions. -/
inductive ExprFrame where
  | operand (site : Site)
  | received (site : Site)
  | postfixes (shape : Shape) (site : Site)
  | selector (shape : Shape) (site : Site)
  | assertion (site : Site)
  | pointed
  | signed
  /-- Waits for the first operand of a chain of binary operators. -/
  | first (site : Site)
  /-- Waits for a later operand; `pipe` when a bar stands before it. -/
  | later (soFar : Phrase) (pipe : Bool) (site : Site)
  | chain (soFar : Reading) (site : Site)
  /-- Waits for an expression. -/
  | value
  | values (site : Site)
  | moreValues (site : Site)
  | group (site : Site)
  | groupEnd (value type : Bool) (site : Site)
  | arrayBracket (site : Site)
  | index (indexed : Indexed)
  | indexItem (indexed : Indexed) (single types : Bool)
  | indexEnd (indexed : Indexed) (value types unions : Bool)
  | moreIndices (indexed : Indexed) (types : Bool)
  | sliceHigh (site : Site)
  | sliceEnd (site : Site)
  | arguments
  | makerArguments
  | argument (maker : Bool)
  | argumentEnd
  | spread
  | conversionEnd
  | literal
  | moreElements
  | elementEnd
  | elementValue
  | keyedEnd
  | functionResult (site : Site)
  | functionBody (site : Site)
deriving DecidableEq, Repr

/-- Where a simple statement stands. -/
inductive Place where
  | statement
  | ifHeader
  | forHeader
  | forUpdate
  | switchHeader
  | switchValue
  | communication
deriving DecidableEq, Repr

/-- What the cases of a switch or select hold. -/
inductive Clauses where
  | values
  | types
  | communications
deriving DecidableEq, Repr

/-- Frames of statements. -/
inductive StmtFrame where
  | statements
  | statementEnd
  | blockEnd
  | labelled
  | results
  | jump
  | simple (place : Place)
  | simpleEnd (place : Place) (word : Bool)
  | target (place : Place)
  | targetEnd (place : Place)
  | rangeOrValues
  | subjectOrValues
  | subjectOnly
  | ifHeader
  | ifWait
  | ifEnd (condition : Bool)
  | alternative
  | alternativeBody
  | forHeader
  | forWait
  | forEnd (body clause : Bool)
  | forCondition
  | forUpdate
  | switchHeader
  | switchWait
  | switchEnd (value : Bool)
  | switchValue
  | switchValueWait
  | switchOpen (clauses : Clauses)
  | clauses (clauses : Clauses)
  | caseTypes
deriving DecidableEq, Repr

/-- Frames of declarations. `top` marks those that are top-level items. -/
inductive DeclFrame where
  | items
  | itemEnd
  | packageName
  | imports
  | importPath
  | importGroup
  | importEnd
  | constants (top : Bool)
  | constantGroup (top : Bool)
  | constantEnd (top : Bool)
  | constantNames (top : Bool)
  | nextConstant (top : Bool)
  | constantValue
  | variables (top : Bool)
  | variableGroup (top : Bool)
  | variableEnd (top : Bool)
  | variableNames (top : Bool)
  | nextVariable (top : Bool)
  | variableValue
  | types (top : Bool)
  | typeGroup (top : Bool)
  | typeEnd (top : Bool)
  | typeName (top : Bool)
  | typeBracket (top : Bool)
  | typeParameter (top : Bool)
  | typeParameterIndex (top : Bool)
  | typeParameterIndexEnd (top : Bool) (shape : Shape) (value : Bool)
  | typeParameterGroup (top : Bool)
  | typeParameterGroupItem (top : Bool)
  | typeParameterGroupEnd (top value type : Bool)
  | lengthOrConstraint (top : Bool)
  | lengthOrConstraintEnd (top value union : Bool)
  | typeBody (top : Bool)
  | typeBodyOrAlias (top : Bool)
  | function
  | functionName
  | receiver
  | methodName
  | body
deriving DecidableEq, Repr

inductive Frame where
  | type (frame : TypeFrame)
  | expr (frame : ExprFrame)
  | stmt (frame : StmtFrame)
  | decl (frame : DeclFrame)
  /-- One kind of lexeme is due. -/
  | expect (kind : LexemeKind)
  /-- A word is due. -/
  | word
  /-- Nothing is due: what was read is handed to the frame below. -/
  | finished (reading : Reading)
deriving DecidableEq, Repr

/-- What a frame does with a lexeme. -/
inductive Move where
  /-- It takes the lexeme, and other frames stand in its place. -/
  | take (role : Role) (next : List Frame)
  /-- It ends before the lexeme. -/
  | leave (reading : Reading)
  | refuse
deriving DecidableEq, Repr

namespace Move

def ofStart (role : Role) (rest : List Frame) : Option (List Frame) → Move
  | some frames => .take role (frames ++ rest)
  | none => .refuse

def orElse (other : Move) : Option Move → Move
  | some move => move
  | none => other

end Move

/-- A role that only a top-level item gives. -/
def Role.onTop (role : Role) (top : Bool) : Role :=
  if top then role else .inner

end GoGraft.Grammar
