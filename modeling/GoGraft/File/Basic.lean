import GoGraft.File.Structure

/-! Go files as a header, a list of declarations and a trailer. Each declaration owns all text from the end
of the one before it, and the comments that share the line on which it ends, so that printing a file which
was not edited gives its text back. -/

namespace GoGraft

/-- A point of a file, counted from one; columns count bytes. -/
structure Point where
  line : Nat
  column : Nat
deriving DecidableEq, Repr

/-- The point after a text. -/
def Point.after (text : Text) : Point :=
  ⟨text.count '\n' + 1, Text.byteSize (Text.lastLine text) + 1⟩

inductive ParseError where
  /-- The grammar refuses the text, or an item that it accepts stands where no file may have it. -/
  | grammar (item : Option (Point × Text))
  | missingPackage
  | notOneDeclaration (text : Text)
deriving DecidableEq, Repr

def ParseError.message : ParseError → Text
  | .grammar none => "Syntax error".toList
  | .grammar (some (point, near)) =>
      "Syntax error at ".toList ++ Text.ofNat point.line ++ ':' :: Text.ofNat point.column ++
        " near `".toList ++ near ++ "`".toList
  | .missingPackage => "Missing package clause".toList
  | .notOneDeclaration text => "Snippet is not a single declaration: ".toList ++ text

structure SourceFile where
  header : Text
  package : Text
  declarations : List Declaration
  trailer : Text
deriving DecidableEq, Repr

namespace SourceFile

open Grammar

def render (file : SourceFile) : Text :=
  file.header ++ file.declarations.flatMap Declaration.text ++ file.trailer

/-- A declaration from its section and the gap that follows it. -/
def declarationOf (s : Section) (after : List Marked) : Declaration :=
  let lead := (splitAttached s.gap).2 ++ s.body
  { text := sourceOf lead ++ sourceOf (splitAttached after).1
    kind := Structure.kindOf s.kind lead }

/-- Each section with the gap that follows it. -/
def withGaps (sections : List Section) (rest : List Marked) : List (Section × List Marked) :=
  sections.zip ((sections.drop 1).map Section.gap ++ [rest])

/-- The file of an outline: one package clause, and then only declarations. -/
def ofOutline (outline : Outline) : Except ParseError SourceFile :=
  match outline.sections with
  | [] => .error .missingPackage
  | clause :: others =>
      if clause.kind ≠ .packageClause then
        .error .missingPackage
      else
        let declared := others.takeWhile (·.kind.isDeclaration)
        match others.drop declared.length with
        | misplaced :: _ =>
            let before := (clause :: declared).flatMap Section.source ++ sourceOf misplaced.gap
            .error (.grammar (some (.after before, Text.excerpt (sourceOf misplaced.body))))
        | [] =>
            let afterClause := (others.head?.map Section.gap).getD outline.rest
            let afterLast := if others.isEmpty then afterClause else outline.rest
            .ok
              { header := clause.source ++ sourceOf (splitAttached afterClause).1
                package := Structure.packageOf clause.body
                declarations :=
                  (withGaps others outline.rest).map fun (s, after) => declarationOf s after
                trailer := sourceOf (splitAttached afterLast).2 }

/-- Reads a text that ends with a newline. -/
def parseTerminated (text : Text) : Except ParseError SourceFile :=
  match outline? text with
  | some outline => ofOutline outline
  | none => .error (.grammar none)

/-- Reads a Go file. The last declaration needs no newline after it. -/
def parse (text : Text) : Except ParseError SourceFile :=
  if text.getLast? = some '\n' then
    parseTerminated text
  else
    match parseTerminated (text ++ ['\n']) with
    | .error error => .error error
    | .ok file =>
        if file.trailer.getLast? = some '\n' then
          .ok { file with trailer := file.trailer.dropLast }
        else
          .error (.notOneDeclaration (Text.excerpt text))

end SourceFile

/-- The package clause in front of a declaration that is read on its own. -/
def snippetHeader : Text :=
  "package snippet".toList

/-- Reads one declaration, with what leads to it, and nothing after it. -/
def Declaration.parse (text : Text) : Except ParseError Declaration := do
  let file ← SourceFile.parse (snippetHeader ++ text)
  match file.declarations with
  | [declaration] =>
      if file.header = snippetHeader && file.trailer.isEmpty then
        .ok declaration
      else
        .error (.notOneDeclaration (Text.excerpt text))
  | _ => .error (.notOneDeclaration (Text.excerpt text))

end GoGraft
