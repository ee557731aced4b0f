import GoGraft.Diff.Compact

/-! Unified diffs: changes in groups with some equal lines around them, each group under a header that gives its
ranges. -/

namespace GoGraft.Diff

/-- Equal lines, or a deletion, an insertion or both in one place. -/
inductive Block where
  | equal (edit : Edit)
  | change (deleted inserted : Option Edit)
deriving DecidableEq, Repr

/-- An edit that goes on with another one of its kind. -/
def extend (edit : Edit) : Option Edit → Edit
  | some earlier => earlier.growRight edit.length
  | none => edit

/-- Adds an edit to blocks of which the last one comes first. -/
def addEdit (blocks : List Block) (edit : Edit) : List Block :=
  match edit.kind, blocks with
  | .equal, .equal earlier :: others => .equal (earlier.growRight edit.length) :: others
  | .equal, blocks => .equal edit :: blocks
  | .delete, .change deleted inserted :: others =>
      .change (some (extend edit deleted)) inserted :: others
  | .delete, blocks => .change (some edit) none :: blocks
  | .insert, .change deleted inserted :: others =>
      .change deleted (some (extend edit inserted)) :: others
  | .insert, blocks => .change none (some edit) :: blocks

def blocksOf (edits : List Edit) : List Block :=
  (edits.foldl addEdit []).reverse

/-- A range of lines, from `start` up to `stop`. -/
structure Range where
  start : Nat
  stop : Nat
deriving DecidableEq, Repr

namespace Block

def oldRange : Block → Range
  | equal edit => ⟨edit.oldIndex, edit.oldIndex + edit.length⟩
  | change (some deleted) _ => ⟨deleted.oldIndex, deleted.oldIndex + deleted.length⟩
  | change none (some inserted) => ⟨inserted.oldIndex, inserted.oldIndex⟩
  | change none none => ⟨0, 0⟩

def newRange : Block → Range
  | equal edit => ⟨edit.newIndex, edit.newIndex + edit.length⟩
  | change _ (some inserted) => ⟨inserted.newIndex, inserted.newIndex + inserted.length⟩
  | change (some deleted) none => ⟨deleted.newIndex, deleted.newIndex⟩
  | change none none => ⟨0, 0⟩

/-- Keeps the last `n` lines of a block of equal lines. -/
def keepLast (n : Nat) : Block → Block
  | equal edit => equal (edit.dropFirst (edit.length - n))
  | block => block

/-- Keeps the first `n` lines of a block of equal lines. -/
def keepFirst (n : Nat) : Block → Block
  | equal edit => equal (edit.dropLast (edit.length - n))
  | block => block

end Block

/-- Cuts the equal lines before the first change and after the last one to the context. -/
def trim (context : Nat) (blocks : List Block) : List Block :=
  let blocks := blocks.modifyHead (Block.keepLast context)
  match blocks.getLast? with
  | some last => blocks.dropLast ++ [last.keepFirst context]
  | none => []

/-- Groups of blocks, and the blocks of the group that is not yet complete. Each list is in reverse order. -/
structure Grouping where
  groups : List (List Block)
  pending : List Block

/-- A long block of equal lines ends one group and begins the next. -/
def Grouping.add (context : Nat) (grouping : Grouping) (block : Block) : Grouping :=
  match block with
  | .equal edit =>
      if context * 2 < edit.length then
        { groups := (block.keepFirst context :: grouping.pending) :: grouping.groups
          pending := [block.keepLast context] }
      else
        { grouping with pending := block :: grouping.pending }
  | .change _ _ => { grouping with pending := block :: grouping.pending }

/-- All groups; equal lines alone make none. -/
def Grouping.finish (grouping : Grouping) : List (List Block) :=
  match grouping.pending with
  | [] | [.equal _] => (grouping.groups.map List.reverse).reverse
  | pending => ((pending :: grouping.groups).map List.reverse).reverse

def groups (context : Nat) (blocks : List Block) : List (List Block) :=
  ((trim context blocks).foldl (Grouping.add context) ⟨[], []⟩).finish

/-- A range as it is written: the first line, counted from one, and the number of lines unless it is one. A range
without lines names the line before it. -/
def Range.render (range : Range) : Text :=
  let length := range.stop - range.start
  if length = 1 then
    Text.ofNat (range.start + 1)
  else
    Text.ofNat (if length = 0 then range.start else range.start + 1) ++ ',' :: Text.ofNat length

/-- The range from the beginning of the first block to the end of the last one. -/
def groupRange (range : Block → Range) (group : List Block) : Range :=
  ⟨((group.head?.map range).getD ⟨0, 0⟩).start, ((group.getLast?.map range).getD ⟨0, 0⟩).stop⟩

def renderHeader (group : List Block) : Text :=
  "@@ -".toList ++ (groupRange Block.oldRange group).render ++ " +".toList ++
    (groupRange Block.newRange group).render ++ " @@\n".toList

/-- A line after its sign. A newline is added to a line that has no end. -/
def renderLine (sign : Char) (line : Text) : Text :=
  let hasEnd := line.getLast?.any fun c => c = '\n' || c = '\r'
  sign :: line ++ if hasEnd then [] else ['\n']

def renderLines (sign : Char) (lines : List Text) : Text :=
  lines.flatMap (renderLine sign)

def Block.render (old new : List Text) : Block → Text
  | .equal edit => renderLines ' ' (edit.oldLines old)
  | .change deleted inserted =>
      renderLines '-' ((deleted.map (·.oldLines old)).getD []) ++
        renderLines '+' ((inserted.map (·.newLines new)).getD [])

def renderGroup (old new : List Text) (group : List Block) : Text :=
  renderHeader group ++ group.flatMap (·.render old new)

/-- The unified diff of two texts, with the given number of equal lines around changes. -/
def unified (before after : Text) (context : Nat) : Text :=
  let old := lines before
  let new := lines after
  let edits := compact old new (script old new)
  (groups context (blocksOf edits)).flatMap (renderGroup old new)

end GoGraft.Diff
