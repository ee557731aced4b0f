import Mathlib.Data.List.Chain
import GoGraft.Diff.Hunk
import GoGraft.Proofs.Compaction

/-!
# Blocks and groups of a diff

The edits of a script are put into blocks, which alternate between equal lines and changes. The blocks are cut into groups
at the equal lines that are too long to be shown. What lies outside of all groups is the same on both sides, and every group
is framed: it begins and ends with a few equal lines, or with a change at an end of both texts. No change is left out, so
that the groups delete and insert as many lines as the script does.
-/

namespace GoGraft.Diff

/-- The lines between two places are the same on both sides. -/
def Unchanged (old new : List Text) (place stop : Place) : Prop :=
  ∃ n, stop = (place.1 + n, place.2 + n) ∧ stop.1 ≤ old.length ∧ stop.2 ≤ new.length ∧
    slice old place.1 n = slice new place.2 n

section Unchanged

variable {old new : List Text} {place middle stop : Place} {edit : Edit} {rest : List Edit} {n : Nat}

theorem Unchanged.trans (hleft : Unchanged old new place middle) (hright : Unchanged old new middle stop) :
    Unchanged old new place stop := by
  obtain ⟨m, rfl, -, -, hsame⟩ := hleft
  obtain ⟨n, rfl, hold, hnew, hsame'⟩ := hright
  refine ⟨m + n, by rw [Nat.add_assoc, Nat.add_assoc], hold, hnew, ?_⟩
  rw [slice_add, slice_add, hsame, hsame']

end Unchanged

namespace Block

/-- The edits of a block, in the order in which they are written. -/
def edits : Block → List Edit
  | equal edit => [edit]
  | change deleted inserted => deleted.toList ++ inserted.toList

/-- The edits of a block that are not about equal lines. -/
def changes : Block → List Edit
  | equal _ => []
  | change deleted inserted => deleted.toList ++ inserted.toList

def isEqual : Block → Bool
  | equal _ => true
  | change _ _ => false

/-- Every edit stands where its kind belongs, and a change has lines. -/
inductive IsProper : Block → Prop
  | equal {edit : Edit} (hkind : edit.kind = .equal) : IsProper (equal edit)
  | deleted {edit : Edit} (hkind : edit.kind = .delete) (hlength : 0 < edit.length) : IsProper (change (some edit) none)
  | inserted {edit : Edit} (hkind : edit.kind = .insert) (hlength : 0 < edit.length) : IsProper (change none (some edit))
  | replaced {deleted inserted : Edit} (hdeleted : deleted.kind = .delete) (hlength : 0 < deleted.length)
      (hinserted : inserted.kind = .insert) (hlength' : 0 < inserted.length) :
      IsProper (change (some deleted) (some inserted))

theorem IsProper.kind_eq {edit : Edit} (hproper : (Block.equal edit).IsProper) : edit.kind = .equal := by
  cases hproper with
  | equal hkind => exact hkind

theorem IsProper.linesOf_equal {deleted inserted : Option Edit} (hproper : (change deleted inserted).IsProper) :
    linesOf .equal (change deleted inserted).edits = 0 := by
  cases hproper with
  | deleted hkind hlength => simp [edits, linesOf, Edit.linesOf, hkind]
  | inserted hkind hlength => simp [edits, linesOf, Edit.linesOf, hkind]
  | replaced hdeleted hlength hinserted hlength' => simp [edits, linesOf, Edit.linesOf, hdeleted, hinserted]

/-- The block that an edit is alone. -/
def single (edit : Edit) : Block :=
  match edit.kind with
  | .equal => equal edit
  | .delete => change (some edit) none
  | .insert => change none (some edit)

/-- A block with one edit more. -/
def join (edit : Edit) : Block → Block
  | equal earlier => equal (earlier.growRight edit.length)
  | change deleted inserted =>
      if edit.kind = .delete then
        change (some (extend edit deleted)) inserted
      else
        change deleted (some (extend edit inserted))

end Block

section Join

variable {old new : List Text} {edit : Edit} {block : Block} {blocks : List Block} {rest : List Edit}

end Join

/-- Blocks of equal lines and changes take turns. -/
def Alternates (blocks : List Block) : Prop :=
  (blocks.map Block.isEqual).IsChain (· ≠ ·)

section BlocksOf

variable {old new : List Text} {edit : Edit} {block : Block} {blocks : List Block} {edits : List Edit}

end BlocksOf

namespace Block

/-- A block with which a group can begin or end. A change can only where there are no more lines. -/
def IsEdge (context : Nat) (noMore : Prop) : Block → Prop
  | equal edit => edit.length ≤ context
  | change _ _ => noMore

variable {context : Nat} {noMore : Prop} {block : Block}

@[simp]
theorem isEqual_keepLast : (block.keepLast context).isEqual = block.isEqual := by
  cases block <;> rfl

@[simp]
theorem isEqual_keepFirst : (block.keepFirst context).isEqual = block.isEqual := by
  cases block <;> rfl

theorem IsProper.keepLast (hproper : block.IsProper) : (block.keepLast context).IsProper := by
  cases block with
  | equal edit => exact .equal hproper.kind_eq
  | change deleted inserted => exact hproper

theorem IsProper.keepFirst (hproper : block.IsProper) : (block.keepFirst context).IsProper := by
  cases block with
  | equal edit => exact .equal hproper.kind_eq
  | change deleted inserted => exact hproper

theorem IsEdge.keepFirst (hedge : block.IsEdge context noMore) : (block.keepFirst context).IsEdge context noMore := by
  cases block with
  | equal edit => exact Nat.le_trans (Nat.sub_le _ _) hedge
  | change deleted inserted => exact hedge

theorem IsEdge.imp {atEnd : Prop} (hedge : block.IsEdge context noMore) (himp : noMore → atEnd) :
    block.IsEdge context atEnd := by
  cases block with
  | equal edit => exact hedge
  | change deleted inserted => exact himp hedge

/-- A change at the beginning of both texts. -/
structure Opens (total : Totals) (start : Place) (block : Block) : Prop where
  start_eq : start = (0, 0)
  tethered : Tethered total 0 block.changes

/-- A change at the end of both texts, behind all lines that they share. -/
structure Closes (old new : List Text) (total : Totals) (stop : Place) (block : Block) : Prop where
  stop_eq : stop = (old.length, new.length)
  tethered : ∃ shared, old.length = shared + total.deleted ∧ new.length = shared + total.inserted ∧
    Tethered total shared block.changes

end Block

/-- Blocks that take turns from one place to another, of which only the outer ones may be cut short. -/
structure Framed (old new : List Text) (context : Nat) (total : Totals) (start : Place) (blocks : List Block)
    (stop : Place) : Prop where
  covers : Covers old new start (blocks.flatMap Block.edits) stop
  proper : ∀ block ∈ blocks, block.IsProper
  full : ∀ block ∈ blocks.tail.dropLast, Positive block.edits
  alternates : Alternates blocks
  first : ∀ block ∈ blocks.head?, block.IsEdge context (block.Opens total start)
  last : ∀ block ∈ blocks.getLast?, block.IsEdge context (block.Closes old new total stop)

section Trim

variable {old new : List Text} {context : Nat} {place stop : Place} {block : Block} {blocks : List Block}
  {rest : List Edit}

theorem Sound.opens (hsound : Sound old new ((block :: blocks).flatMap Block.edits)) :
    Tethered (totals ((block :: blocks).flatMap Block.edits)) 0 block.changes := by
  cases block with
  | equal edit => trivial
  | change deleted inserted => exact (tethered_append.mp hsound.tethered).1

/-- All lines that the texts share stand before a change that is the last block. -/
theorem Sound.closes (hsound : Sound old new ((blocks ++ [block]).flatMap Block.edits)) (hproper : block.IsProper) :
    ∃ shared, old.length = shared + (totals ((blocks ++ [block]).flatMap Block.edits)).deleted ∧
      new.length = shared + (totals ((blocks ++ [block]).flatMap Block.edits)).inserted ∧
      Tethered (totals ((blocks ++ [block]).flatMap Block.edits)) shared block.changes := by
  obtain ⟨hcovers, htethered⟩ := hsound
  obtain ⟨hold, hnew⟩ := hcovers.stop_eq
  simp only [Nat.zero_add] at hold hnew
  refine ⟨_, hold, hnew, ?_⟩
  generalize totals ((blocks ++ [block]).flatMap Block.edits) = total at htethered
  rw [List.flatMap_append, List.flatMap_singleton] at htethered ⊢
  obtain ⟨-, hlast⟩ := tethered_append.mp htethered
  cases block with
  | equal edit => trivial
  | change deleted inserted =>
      rw [linesOf_append, hproper.linesOf_equal, Nat.add_zero]
      rwa [Nat.zero_add] at hlast

end Trim

/-- A framed group of blocks with a change in it. -/
structure IsGroup (old new : List Text) (context : Nat) (total : Totals) (start : Place) (group : List Block)
    (stop : Place) : Prop where
  framed : Framed old new context total start group stop
  change : ∃ block ∈ group, block.isEqual = false

/-- Groups one after the other from a place up to the end of both texts, with the same lines between them. -/
inductive AreGroups (old new : List Text) (context : Nat) (total : Totals) : Place → List (List Block) → Prop
  | none {place : Place} (hunchanged : Unchanged old new place (old.length, new.length)) :
      AreGroups old new context total place []
  | next {place start stop : Place} {group : List Block} {groups : List (List Block)}
      (hunchanged : Unchanged old new place start) (hgroup : IsGroup old new context total start group stop)
      (hgroups : AreGroups old new context total stop groups) : AreGroups old new context total place (group :: groups)

section Groups

variable {old new : List Text} {context : Nat} {total : Totals} {place start stop : Place} {block : Block}
  {blocks pending rest : List Block}

end Groups

/-- The blocks of all groups and of the one that is not yet complete, in order. -/
def Grouping.blocks (grouping : Grouping) : List Block :=
  ((grouping.pending :: grouping.groups).map List.reverse).reverse.flatten

section Changes

variable {old new : List Text} {context : Nat} {total : Totals} {place : Place} {block : Block} {blocks : List Block}
  {grouping : Grouping}

theorem AreGroups.proper {groups : List (List Block)} (hgroups : AreGroups old new context total place groups) :
    ∀ block ∈ groups.flatten, block.IsProper := by
  induction hgroups with
  | none => exact List.forall_mem_nil _
  | next _ hgroup _ ih =>
      rw [List.flatten_cons]
      exact List.forall_mem_append.mpr ⟨hgroup.framed.proper, ih⟩

end Changes

end GoGraft.Diff
