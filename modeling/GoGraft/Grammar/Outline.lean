import GoGraft.Grammar.Machine
import GoGraft.Source.Scan

/-! The top-level items of a file, with what stands between them. -/

namespace GoGraft.Grammar

/-- An item from its first lexeme to its last, and the gap before it. -/
structure Section where
  gap : List Marked
  body : List Marked
deriving DecidableEq, Repr

/-- The sections of a file, and what follows the last item. -/
structure Outline where
  sections : List Section
  rest : List Marked
deriving DecidableEq, Repr

def sourceOf (marked : List Marked) : Text :=
  marked.flatMap Marked.text

def Section.source (s : Section) : Text :=
  sourceOf s.gap ++ sourceOf s.body

def Outline.source (outline : Outline) : Text :=
  outline.sections.flatMap Section.source ++ sourceOf outline.rest

namespace Outline

/-- An outline in the making; all lists have their last element first. The tail is what has been read
after the last lexeme of the body. -/
structure Draft where
  sections : List Section
  gap : List Marked
  body : List Marked
  tail : List Marked
deriving DecidableEq, Repr

def Draft.step (draft : Draft) (marked : Marked) : Draft :=
  match marked.role with
  | .trivia =>
      if draft.body.isEmpty then
        { draft with gap := marked :: draft.gap }
      else
        { draft with tail := marked :: draft.tail }
  | .ending =>
      { sections := ⟨draft.gap.reverse, draft.body.reverse⟩ :: draft.sections
        gap := marked :: draft.tail
        body := []
        tail := [] }
  | _ => { draft with body := marked :: (draft.tail ++ draft.body), tail := [] }

def Draft.finish (draft : Draft) : Outline :=
  if draft.body.isEmpty then
    ⟨draft.sections.reverse, draft.gap.reverse⟩
  else
    ⟨(⟨draft.gap.reverse, draft.body.reverse⟩ :: draft.sections).reverse, draft.tail.reverse⟩

def ofMarked (marked : List Marked) : Outline :=
  (marked.foldl Draft.step ⟨[], [], [], []⟩).finish

end Outline

/-- Splits the gap after an item. A comment that begins on the line where the item or the comment before
it ends stays with the item, and so does all that stands before that comment. -/
def splitAttached : List Marked → List Marked × List Marked
  | [] => ([], [])
  | marked :: rest =>
      if marked.kind = .newline then
        ([], marked :: rest)
      else
        let (attached, free) := splitAttached rest
        if attached.isEmpty && marked.kind ≠ .comment then
          ([], marked :: rest)
        else
          (marked :: attached, free)

inductive ItemKind where
  | packageClause
  | importDeclaration
  | typeDeclaration
  | functionDeclaration
  | valueDeclaration
  | statement
deriving DecidableEq, Repr

def Section.kind (s : Section) : ItemKind :=
  match s.body.head?.map Marked.kind with
  | some (.keyword .packageWord) => .packageClause
  | some (.keyword .importWord) => .importDeclaration
  | some (.keyword .typeWord) => .typeDeclaration
  | some (.keyword .varWord) | some (.keyword .constWord) => .valueDeclaration
  | some (.keyword .funcWord) =>
      if s.body.any (·.role = .named) then .functionDeclaration else .statement
  | _ => .statement

def ItemKind.isDeclaration : ItemKind → Bool
  | .packageClause | .statement => false
  | _ => true

/-- The outline of a text, when the grammar accepts it. -/
def outline? (text : Text) : Option Outline :=
  (parse (Scan.file text)).map Outline.ofMarked

end GoGraft.Grammar
