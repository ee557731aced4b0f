import GoGraft.File.Addition
import GoGraft.File.Lookup

/-! Edits of a file. Each writes the text of one declaration anew, or adds one, and reads that declaration
again, so that the structure of a declaration always comes from its text. -/

namespace GoGraft

inductive EditError where
  | noDeclaration (index : Nat)
  | notARecord (name : Text)
  | unreadable (error : ParseError)
deriving DecidableEq, Repr

def EditError.message : EditError → Text
  | .noDeclaration index => "No declaration at index ".toList ++ Text.ofNat index
  | .notARecord name => "Type `".toList ++ name ++ "` is not a struct type".toList
  | .unreadable error => "Edited declaration does not parse: ".toList ++ error.message

/-- Writes an entry of whole lines before the mark at `close`. The entry is made for an indentation: the
given one, or one tab more than the line of the mark. -/
def spliceBefore (text : Text) (close : Nat) (indent : Option Text) (newline : Text)
    (entry : Text → Text) : Text :=
  let before := text.take close
  let line := Text.lastLine before
  let lineStart := before.length - line.length
  let lineIndent := Text.indent (text.drop lineStart)
  let entry := entry (indent.getD (lineIndent ++ ['\t']))
  if line.all Text.isIndent then
    text.take lineStart ++ entry ++ text.drop lineStart
  else
    before ++ newline ++ entry ++ lineIndent ++ text.drop close

/-- The line ending of the first line of a text that has one. -/
def firstLineEnding (text : Text) : Option Text :=
  match text.dropWhile (· != '\n') with
  | [] => none
  | _ :: _ =>
      some (if (text.takeWhile (· != '\n')).getLast? = some '\r' then ['\r', '\n'] else ['\n'])

namespace SourceFile

/-- The line ending of the file, as the first of its parts that has one shows it. -/
def lineEnding (file : SourceFile) : Text :=
  ((file.header :: file.declarations.map Declaration.text ++ [file.trailer]).findSome?
    firstLineEnding).getD ['\n']

def insert (file : SourceFile) (index : Nat) (declaration : Declaration) : SourceFile :=
  { file with
    declarations :=
      file.declarations.take index ++ declaration :: file.declarations.drop index }

def replace (file : SourceFile) (index : Nat) (declaration : Declaration) : SourceFile :=
  { file with declarations := file.declarations.set index declaration }

def readEdited (text : Text) : Except EditError Declaration :=
  (Declaration.parse text).mapError .unreadable

/-- Adds a field at the end of the struct type at a location. -/
def appendField (file : SourceFile) (location : TypeLocation) (field : NewField) :
    Except EditError SourceFile :=
  match file.declarations[location.declaration]?, file.typeSpec? location with
  | some declaration, some spec =>
      match spec.body with
      | .expr _ => .error (.notARecord spec.name)
      | .record record => do
          let newline := file.lineEnding
          let text :=
            spliceBefore declaration.text record.close record.indent newline
              fun indent => field.render indent newline
          return file.replace location.declaration (← readEdited text)
  | _, _ => .error (.noDeclaration location.declaration)

/-- Inserts a type declaration, at the end when the index is beyond it. -/
def insertType (file : SourceFile) (index : Nat) (type : NewType) :
    Except EditError (SourceFile × Nat) := do
  let newline := file.lineEnding
  let declaration ← readEdited (newline ++ newline ++ type.render newline)
  return (file.insert index declaration, min index file.declarations.length)

/-- An import of this path holds the C preamble in its comment, and stays alone. -/
def preamblePath : Text :=
  ['C']

/-- The first import declaration that can take a further import. -/
def extendableImport? (file : SourceFile) : Option Nat :=
  file.declarations.findIdx? fun declaration =>
    declaration.isImport && !declaration.imports.any (·.path = preamblePath)

/-- The text of an import declaration with a further import. -/
def extendImport (text : Text) (layout : ImportLayout) (newline spec : Text) : Text :=
  match layout with
  | .grouped close indent =>
      spliceBefore text close indent newline fun indent => indent ++ spec ++ newline
  | .single start specStart stop =>
      let existing := (text.take stop).drop specStart
      text.take start ++ "import (".toList ++ newline ++ '\t' :: existing ++ newline ++
        '\t' :: spec ++ newline ++ ')' :: text.drop stop

/-- Adds an import to the first import declaration that can take it, or in a declaration of its own after
the leading imports. -/
def appendImport (file : SourceFile) (path : Text) (localName : Option Text) :
    Except EditError SourceFile :=
  let spec := renderImport path localName
  let newline := file.lineEnding
  match file.extendableImport? with
  | none => do
      let text := newline ++ newline ++ "import (".toList ++ newline ++ '\t' :: spec ++ newline ++ [')']
      return file.insert file.leadingImports (← readEdited text)
  | some index =>
      match file.declarations[index]? with
      | some ⟨text, .imports _ layout⟩ => do
          return file.replace index (← readEdited (extendImport text layout newline spec))
      | _ => .error (.noDeclaration index)

end SourceFile

end GoGraft
