import GoGraft.Diff.Script

/-! Compacting a script: deletions and insertions move past equal lines where the lines allow it, and meet others of
their kind. -/

namespace GoGraft.Diff

namespace Edit

def shiftLeft (edit : Edit) (n : Nat) : Edit :=
  { edit with oldIndex := edit.oldIndex - n, newIndex := edit.newIndex - n }

def shiftRight (edit : Edit) (n : Nat) : Edit :=
  { edit with oldIndex := edit.oldIndex + n, newIndex := edit.newIndex + n }

def growLeft (edit : Edit) (n : Nat) : Edit :=
  { edit.shiftLeft n with length := edit.length + n }

def growRight (edit : Edit) (n : Nat) : Edit :=
  { edit with length := edit.length + n }

def dropFirst (edit : Edit) (n : Nat) : Edit :=
  { edit.shiftRight n with length := edit.length - n }

def dropLast (edit : Edit) (n : Nat) : Edit :=
  { edit with length := edit.length - n }

end Edit

/-- A script at one of its edits. The edits before it are in reverse order. -/
structure Spot where
  before : List Edit
  this : Edit
  after : List Edit
deriving DecidableEq, Repr

/-- Equal lines that an edit which moved up leaves behind it. -/
def leaveBelow (edit : Edit) (upper : Edit) (n : Nat) : List Edit → List Edit
  | [] => [⟨.equal, upper.oldIndex + upper.length - n, edit.newIndex + edit.newLength - n, n⟩]
  | next :: others =>
      if next.kind = .equal then
        next.growLeft n :: others
      else
        ⟨.equal, upper.oldIndex + upper.length - n, edit.newIndex + edit.newLength - n, n⟩ ::
          next :: others

/-- Equal lines that an edit which moved down leaves above it. -/
def leaveAbove (edit : Edit) (lower : Edit) (n : Nat) : List Edit → List Edit
  | [] => [⟨.equal, lower.oldIndex, edit.newIndex, n⟩]
  | previous :: others =>
      if previous.kind = .equal then
        previous.growRight n :: others
      else
        ⟨.equal, lower.oldIndex, edit.newIndex, n⟩ :: previous :: others

/-- The work that is left when edits are passed one by one, or shortened. -/
def weight (edits : List Edit) : Nat :=
  edits.foldr (fun edit left => edit.length + 1 + left) 0

/-- Moves an edit up as far as it goes: it takes the place of equal lines that end as it ends, changes places with
an edit of the other kind, and joins one of its own kind. -/
def moveUp (old new : List Text) (this : Edit) (before after : List Edit) : Spot :=
  match before with
  | [] => ⟨[], this, after⟩
  | upper :: others =>
      if upper.kind = .equal then
        if upper.length = 0 then
          moveUp old new this others after
        else
          let n := commonSuffix (upper.oldLines old) (this.newLines new)
          if n = 0 then
            ⟨before, this, after⟩
          else
            moveUp old new (this.shiftLeft n) (upper.dropLast n :: others)
              (leaveBelow this upper n after)
      else if upper.kind = this.kind then
        moveUp old new (upper.growRight this.length) others after
      else
        moveUp old new this others (upper :: after)
termination_by weight before
decreasing_by
  · simp [weight]
  · simp_all [weight, Edit.dropLast]; omega
  · simp [weight]
  · simp [weight]

/-- Moves an edit down as far as it goes. -/
def moveDown (old new : List Text) (this : Edit) (before after : List Edit) : Spot :=
  match after with
  | [] => ⟨before, this, []⟩
  | lower :: others =>
      if lower.kind = .equal then
        if lower.length = 0 then
          moveDown old new this before others
        else
          let n := commonPrefix (lower.oldLines old) (this.newLines new)
          if n = 0 then
            ⟨before, this, after⟩
          else
            moveDown old new (this.shiftRight n) (leaveAbove this lower n before)
              (lower.dropFirst n :: others)
      else if lower.kind = this.kind then
        moveDown old new (this.growRight lower.length) before others
      else
        moveDown old new this (lower :: before) others
termination_by weight after
decreasing_by
  · simp [weight]
  · simp_all [weight, Edit.dropFirst]; omega
  · simp [weight]
  · simp [weight]

/-- Moves every edit of a kind up and then down, in at most `bound` steps. -/
def settle (old new : List Text) (kind : EditKind) :
    (bound : Nat) → (before after : List Edit) → List Edit
  | _, before, [] => before.reverse
  | 0, before, after => before.reverse ++ after
  | bound + 1, before, this :: after =>
      if this.kind = kind then
        let up := moveUp old new this before after
        let down := moveDown old new up.this up.before up.after
        settle old new kind bound (down.this :: down.before) down.after
      else
        settle old new kind bound (this :: before) after

/-- Compacts the deletions of a script, and then its insertions. -/
def compact (old new : List Text) (edits : List Edit) : List Edit :=
  let pass (kind : EditKind) (edits : List Edit) : List Edit :=
    settle old new kind (2 * weight edits + 1) [] edits
  pass .insert (pass .delete edits)

end GoGraft.Diff
