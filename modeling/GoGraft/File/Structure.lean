import GoGraft.File.Declaration
import GoGraft.Grammar.Outline

/-! From the lexemes of a declaration, with their roles, to its structure. -/

namespace GoGraft.Structure

open Grammar

/-- A lexeme with the number of characters before it in its declaration. -/
structure Placed where
  start : Nat
  marked : Marked
deriving DecidableEq, Repr

namespace Placed

def role (placed : Placed) : Role :=
  placed.marked.role

def text (placed : Placed) : Text :=
  placed.marked.text

def stop (placed : Placed) : Nat :=
  placed.start + placed.text.length

def isTrivia (placed : Placed) : Bool :=
  placed.role = .trivia

end Placed

def place (start : Nat) : List Marked → List Placed
  | [] => []
  | marked :: rest => ⟨start, marked⟩ :: place (start + marked.text.length) rest

def source (lexemes : List Placed) : Text :=
  lexemes.flatMap Placed.text

/-- Without trivia at either end. -/
def trim (lexemes : List Placed) : List Placed :=
  ((lexemes.dropWhile Placed.isTrivia).reverse.dropWhile Placed.isTrivia).reverse

/-- The parts between the lexemes of a role. -/
def splitAt (role : Role) (lexemes : List Placed) : List (List Placed) :=
  lexemes.foldr
    (fun lexeme parts =>
      if lexeme.role = role then
        [] :: parts
      else
        match parts with
        | [] => [[lexeme]]
        | part :: others => (lexeme :: part) :: others)
    [[]]

/-- What stands between the first lexeme of one role and the first later one of another. -/
def between (first last : Role) (lexemes : List Placed) : List Placed :=
  ((lexemes.dropWhile (·.role ≠ first)).drop 1).takeWhile (·.role ≠ last)

/-- What follows the last lexeme of which a property holds; all of it when there is none. -/
def afterLast (p : Placed → Bool) (lexemes : List Placed) : List Placed :=
  (lexemes.reverse.takeWhile (!p ·)).reverse

/-- The indentation of the first lexeme of a part, in a declaration with the given text. -/
def indentOf (text : Text) (part : List Placed) : Option Text :=
  part.head?.bind fun first => Text.lineIndent (text.take first.start)

/-- The name of an embedded type: its last selected name, without type arguments. -/
def embeddedName (type : Text) : Text :=
  let base := type.takeWhile (· != '[')
  (Text.trim ((Text.splitAt '.' base).getLast?.getD [])).dropWhile (· == '*')

/-- The fields of one field declaration, given without trivia around it. -/
def fieldsOf (part : List Placed) : List Field :=
  let typed := part.takeWhile (·.role ≠ .tag)
  let tag := (part.find? (·.role = .tag)).map Placed.text
  if part.any (·.role = .fieldNamed) then
    let type := TypeExpr.readOrKeep (source (trim (afterLast (·.role = .field) typed)))
    (typed.filter (·.role = .field)).map fun name => ⟨name.text, type, tag, false⟩
  else
    let isStar (placed : Placed) : Bool := placed.marked.kind = .mark .star
    let type := source (trim (if typed.head?.any isStar then typed.drop 1 else typed))
    [⟨embeddedName type, TypeExpr.readOrKeep type, tag, true⟩]

/-- A struct type in a declaration with the given text. -/
def recordOf (text : Text) (lexemes : List Placed) : Record :=
  let parts := (splitAt .recordSplit (between .recordOpen .recordClose lexemes)).map trim
  let declarations := parts.filter (!·.isEmpty)
  { fields := declarations.flatMap fieldsOf
    close := ((lexemes.find? (·.role = .recordClose)).map Placed.start).getD 0
    indent := declarations.getLast?.bind (indentOf text) }

def typeSpecOf (text : Text) (part : List Placed) : TypeSpec :=
  let isHead (placed : Placed) : Bool :=
    placed.role = .name || placed.role = .parameters || placed.role = .aliasing
  let type := trim (afterLast isHead part)
  { name := ((part.find? (·.role = .name)).map Placed.text).getD []
    isAlias := part.any (·.role = .aliasing)
    body :=
      if type.head?.any (·.marked.kind = .keyword .structWord) then
        .record (recordOf text type)
      else
        .expr (TypeExpr.readOrKeep (source type)) }

def typeSpecsOf (text : Text) (lexemes : List Placed) : List TypeSpec :=
  let specs :=
    if lexemes.any (·.role = .groupOpen) then
      splitAt .groupSplit (between .groupOpen .groupClose lexemes)
    else
      [lexemes]
  (specs.filter (·.any (·.role = .name))).map (typeSpecOf text)

/-- A quoted text without its quotes. -/
def unquote (literal : Text) : Text :=
  match literal.head?, literal.getLast? with
  | some first, some last =>
      if first = last && (first = '\x22' || first = '\x60') && 2 ≤ literal.length then
        (literal.drop 1).dropLast
      else
        literal
  | _, _ => literal

/-- The parts of an import declaration that hold one import each, from its first lexeme to its path. -/
def importParts (lexemes : List Placed) : List (List Placed) :=
  let isPart (placed : Placed) : Bool := placed.role = .aliasing || placed.role = .path
  (lexemes.filter isPart).foldr
    (fun lexeme parts =>
      if lexeme.role = .path then
        [lexeme] :: parts
      else
        match parts with
        | [] => [[lexeme]]
        | part :: others => (lexeme :: part) :: others)
    []

def importSpecOf (part : List Placed) : ImportSpec :=
  let literal := ((part.find? (·.role = .path)).map Placed.text).getD []
  { localName := (part.find? (·.role = .aliasing)).map Placed.text
    path := unquote literal
    literal }

def importLayoutOf (text : Text) (lexemes : List Placed) : ImportLayout :=
  match lexemes.find? (·.role = .groupClose) with
  | some close =>
      .grouped close.start ((importParts lexemes).getLast?.bind (indentOf text))
  | none =>
      let isKeyword (placed : Placed) : Bool := placed.marked.kind = .keyword .importWord
      let start := ((lexemes.find? isKeyword).map Placed.start).getD 0
      match (importParts lexemes).head? with
      | some part =>
          .single start ((part.head?.map Placed.start).getD 0)
            ((part.getLast?.map Placed.stop).getD 0)
      | none => .single start text.length text.length

/-- The structure of a declaration, from the lexemes of its gap and body. -/
def kindOf (kind : ItemKind) (marked : List Marked) : DeclarationKind :=
  let text := sourceOf marked
  let lexemes := place 0 marked
  let names := (lexemes.filter (·.role = .name)).map Placed.text
  match kind with
  | .importDeclaration =>
      .imports ((importParts lexemes).map importSpecOf) (importLayoutOf text lexemes)
  | .typeDeclaration => .types (typeSpecsOf text lexemes)
  | .functionDeclaration => .function (names.head?.getD [])
  | _ => .values names

/-- The package that a clause names. A comment right after the keyword counts as the name. -/
def packageOf (clause : List Marked) : Text :=
  ((clause.find? fun marked => marked.role = .name || marked.kind = .comment).map
    Marked.text).getD []

end GoGraft.Structure
