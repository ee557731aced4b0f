import GoGraft.Text.Basic

/-! Go type expressions, as far as an edit needs to know them: pointers, slices, maps and selected
names are taken apart, and every other type is kept as it was written. `TypeExpr.read` is the reader and
`TypeExpr.render` the printer. -/

namespace GoGraft

inductive TypeExpr where
  | pointer (target : TypeExpr)
  | slice (element : TypeExpr)
  | mapping (key value : TypeExpr)
  | qualified (package name : Text)
  | verbatim (text : Text)
deriving DecidableEq, Repr, Inhabited

/-- Why a text is no type expression. -/
inductive TypeError where
  | empty
  | nestedMapKey (text : Text)
deriving DecidableEq, Repr

def TypeError.message : TypeError → Text
  | .empty => "Empty type expression".toList
  | .nestedMapKey text => "Nested map keys are not supported: ".toList ++ text

/-- A Go identifier. Keywords count: what they may name is for the grammar to say. -/
def isIdentifier : Text → Bool
  | [] => false
  | c :: rest =>
      (Text.isLetter c || c == '_') && rest.all fun d => Text.isLetterOrNumber d || d == '_'

/-- Identifiers with dots between them. -/
def isSelector (t : Text) : Bool :=
  !t.isEmpty && (Text.splitAt '.' t).all isIdentifier

namespace TypeExpr

def render : TypeExpr → Text
  | pointer target => '*' :: target.render
  | slice element => '[' :: ']' :: element.render
  | mapping key value => "map[".toList ++ key.render ++ ']' :: value.render
  | qualified package name => package ++ '.' :: name
  | verbatim text => text

/-- The packages named in an expression, in order of appearance. -/
def mentions : TypeExpr → List Text
  | pointer target => target.mentions
  | slice element => element.mentions
  | mapping key value => key.mentions ++ value.mentions
  | qualified package _ => [package]
  | verbatim _ => []

/-- The packages named in an expression, each once, in order of first appearance. -/
def packages (t : TypeExpr) : List Text :=
  t.mentions.foldl (fun seen package => if seen.contains package then seen else seen ++ [package]) []

/-- Every leaf carries a name. -/
def isWellFormed : TypeExpr → Bool
  | pointer target => target.isWellFormed
  | slice element => element.isWellFormed
  | mapping key value => key.isWellFormed && value.isWellFormed
  | qualified package name => !package.isBlank && !name.isBlank
  | verbatim text => !text.isBlank

/-- Cuts a text at the bracket that closes `depth` open ones. -/
def cutBracket : (depth : Nat) → Text → Option (Text × Text)
  | _, [] => none
  | depth, c :: rest =>
      if c == ']' && depth == 1 then
        some ([], rest)
      else
        let depth := if c == '[' then depth + 1 else if c == ']' then depth - 1 else depth
        (cutBracket depth rest).map fun (inside, after) => (c :: inside, after)

/-- A name selected from a package, or the text as it stands. -/
def readName (text : Text) : TypeExpr :=
  match text.dropWhile (· != '.') with
  | '.' :: name =>
      let package := text.takeWhile (· != '.')
      if isIdentifier package && isSelector name then qualified package name else verbatim text
  | _ => verbatim text

/-- Reads a text of at most `bound` characters. -/
def readWithin : (bound : Nat) → Text → Except TypeError TypeExpr
  | 0, _ => .error .empty
  | bound + 1, text =>
      match Text.trim text with
      | [] => .error .empty
      | '*' :: rest => pointer <$> readWithin bound rest
      | '[' :: ']' :: rest => slice <$> readWithin bound rest
      | 'm' :: 'a' :: 'p' :: '[' :: rest =>
          match cutBracket 1 rest with
          | none => .ok (verbatim (Text.trim text))
          | some (key, value) =>
              if Text.includes "map[".toList key then
                .error (.nestedMapKey (Text.trim text))
              else do
                let key ← readWithin bound key
                let value ← readWithin bound value
                return mapping key value
      | _ => .ok (readName (Text.trim text))

/-- Reads a type expression; white space may surround each of its parts. -/
def read (text : Text) : Except TypeError TypeExpr :=
  readWithin (text.length + 1) text

/-- Reads a type expression, and keeps what cannot be read. -/
def readOrKeep (text : Text) : TypeExpr :=
  match read text with
  | .ok t => t
  | .error _ => verbatim text

end TypeExpr

end GoGraft
