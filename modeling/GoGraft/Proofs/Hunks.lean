import GoGraft.Proofs.DiffBlocks

/-!
# What a unified diff says about two texts

A unified diff is a list of hunks. Each of them lies at a place in both texts: its equal and deleted lines are the old
lines there, and its equal and inserted lines the new ones. The lines that no hunk has are the same on both sides. The
ranges in the header of a hunk are those of its lines, with one exception. A hunk that opens with nothing but insertions at
the beginning of both texts has the beginning of its old range from an index that is not kept up when an insertion and a
deletion change places. It is off by no more than the number of lines that the diff deletes, so that it is right in a diff
that deletes none. The same holds for its end at the end of both texts, and for deletions and the new range.
-/

namespace GoGraft.Diff

/-- The sign before a line. -/
def EditKind.sign : EditKind → Char
  | .equal => ' '
  | .delete => '-'
  | .insert => '+'

/-- A line of a hunk. -/
structure MarkedLine where
  kind : EditKind
  text : Text
deriving DecidableEq, Repr

def MarkedLine.render (line : MarkedLine) : Text :=
  renderLine line.kind.sign line.text

/-- The lines of the old side. -/
def oldTexts (lines : List MarkedLine) : List Text :=
  (lines.filter (·.kind ≠ .insert)).map (·.text)

/-- The lines of the new side. -/
def newTexts (lines : List MarkedLine) : List Text :=
  (lines.filter (·.kind ≠ .delete)).map (·.text)

/-- The lines before the first change. -/
def leading (lines : List MarkedLine) : List MarkedLine :=
  lines.takeWhile (·.kind = .equal)

/-- The lines before the first line that is not changed. -/
def opening (lines : List MarkedLine) : List MarkedLine :=
  lines.takeWhile (·.kind ≠ .equal)

/-- The lines open with a change, and with no other kind of change. -/
def OpensWith (kind : EditKind) (lines : List MarkedLine) : Prop :=
  opening lines ≠ [] ∧ ∀ line ∈ opening lines, line.kind = kind

theorem OpensWith.exists_mem {kind : EditKind} {lines : List MarkedLine} (hopens : OpensWith kind lines) :
    ∃ line ∈ lines, line.kind = kind := by
  obtain ⟨line, hline⟩ := List.exists_mem_of_ne_nil _ hopens.1
  exact ⟨line, (List.takeWhile_sublist _).subset hline, hopens.2 line hline⟩

structure Hunk where
  oldRange : Range
  newRange : Range
  lines : List MarkedLine
deriving DecidableEq, Repr

namespace Hunk

def render (hunk : Hunk) : Text :=
  "@@ -".toList ++ hunk.oldRange.render ++ " +".toList ++ hunk.newRange.render ++ " @@\n".toList ++
    hunk.lines.flatMap MarkedLine.render

/-- The place behind a hunk. -/
def behind (hunk : Hunk) (place : Place) : Place :=
  (place.1 + (oldTexts hunk.lines).length, place.2 + (newTexts hunk.lines).length)

/-- How many lines the hunks delete and insert. -/
def totals (hunks : List Hunk) : Totals where
  deleted := (hunks.flatMap Hunk.lines).countP (·.kind = .delete)
  inserted := (hunks.flatMap Hunk.lines).countP (·.kind = .insert)

/-- The hunk is about the lines at a place, and shows no more unchanged lines around its changes than it should. The totals
are those of the whole diff. -/
structure Describes (old new : List Text) (context : Nat) (total : Totals) (hunk : Hunk) (place : Place) : Prop where
  old_lines : IsAt old place.1 (oldTexts hunk.lines)
  new_lines : IsAt new place.2 (newTexts hunk.lines)
  change : ∃ line ∈ hunk.lines, line.kind ≠ .equal
  context_before : (leading hunk.lines).length ≤ context
  context_after : (leading hunk.lines.reverse).length ≤ context
  old_start : hunk.oldRange.start = place.1 ∨
    (place = (0, 0) ∧ OpensWith .insert hunk.lines ∧ hunk.oldRange.start ≤ total.deleted)
  new_start : hunk.newRange.start = place.2 ∨
    (place = (0, 0) ∧ OpensWith .delete hunk.lines ∧ hunk.newRange.start ≤ total.inserted)
  old_stop : hunk.oldRange.stop = (hunk.behind place).1 ∨
    (hunk.behind place = (old.length, new.length) ∧ OpensWith .insert hunk.lines.reverse ∧
      hunk.oldRange.stop ≤ old.length ∧ old.length ≤ hunk.oldRange.stop + total.deleted)
  new_stop : hunk.newRange.stop = (hunk.behind place).2 ∨
    (hunk.behind place = (old.length, new.length) ∧ OpensWith .delete hunk.lines.reverse ∧
      hunk.newRange.stop ≤ new.length ∧ new.length ≤ hunk.newRange.stop + total.inserted)

variable {old new : List Text} {context : Nat} {total : Totals} {hunk : Hunk} {place : Place}

/-- The old range is that of the lines when the diff deletes nothing, or the hunk inserts nothing. -/
theorem Describes.oldRange_eq (hdescribes : hunk.Describes old new context total place)
    (hnone : total.deleted = 0 ∨ ∀ line ∈ hunk.lines, line.kind ≠ .insert) :
    hunk.oldRange = ⟨place.1, (hunk.behind place).1⟩ := by
  have hstart : hunk.oldRange.start = place.1 := by
    obtain hstart | ⟨rfl, hopens, hle⟩ := hdescribes.old_start
    · exact hstart
    · obtain ⟨line, hline, hkind⟩ := hopens.exists_mem
      have hdeleted := hnone.resolve_right fun hinsert => hinsert line hline hkind
      exact Nat.le_zero.mp (hdeleted ▸ hle)
  have hstop : hunk.oldRange.stop = (hunk.behind place).1 := by
    obtain hstop | ⟨hbehind, hopens, hle, hge⟩ := hdescribes.old_stop
    · exact hstop
    · obtain ⟨line, hline, hkind⟩ := hopens.exists_mem
      have hdeleted := hnone.resolve_right fun hinsert => hinsert line (List.mem_reverse.mp hline) hkind
      rw [hbehind]
      omega
  rw [← hstart, ← hstop]

theorem Describes.newRange_eq (hdescribes : hunk.Describes old new context total place)
    (hnone : total.inserted = 0 ∨ ∀ line ∈ hunk.lines, line.kind ≠ .delete) :
    hunk.newRange = ⟨place.2, (hunk.behind place).2⟩ := by
  have hstart : hunk.newRange.start = place.2 := by
    obtain hstart | ⟨rfl, hopens, hle⟩ := hdescribes.new_start
    · exact hstart
    · obtain ⟨line, hline, hkind⟩ := hopens.exists_mem
      have hinserted := hnone.resolve_right fun hdelete => hdelete line hline hkind
      exact Nat.le_zero.mp (hinserted ▸ hle)
  have hstop : hunk.newRange.stop = (hunk.behind place).2 := by
    obtain hstop | ⟨hbehind, hopens, hle, hge⟩ := hdescribes.new_stop
    · exact hstop
    · obtain ⟨line, hline, hkind⟩ := hopens.exists_mem
      have hinserted := hnone.resolve_right fun hdelete => hdelete line (List.mem_reverse.mp hline) hkind
      rw [hbehind]
      omega
  rw [← hstart, ← hstop]

theorem kind_ne_of_mem {hunks : List Hunk} {kind : EditKind} (hmem : hunk ∈ hunks)
    (hnone : (hunks.flatMap Hunk.lines).countP (·.kind = kind) = 0) : ∀ line ∈ hunk.lines, line.kind ≠ kind := by
  intro line hline hkind
  exact List.countP_eq_zero.mp hnone line (List.mem_flatMap.mpr ⟨hunk, hmem, hline⟩) (decide_eq_true hkind)

/-- All ranges are those of the lines in a diff that only inserts or only deletes. -/
theorem Describes.ranges_eq {hunks : List Hunk} (hmem : hunk ∈ hunks)
    (hdescribes : hunk.Describes old new context (totals hunks) place)
    (hnone : (totals hunks).deleted = 0 ∨ (totals hunks).inserted = 0) :
    hunk.oldRange = ⟨place.1, (hunk.behind place).1⟩ ∧ hunk.newRange = ⟨place.2, (hunk.behind place).2⟩ :=
  ⟨hdescribes.oldRange_eq (hnone.imp_right (kind_ne_of_mem hmem)),
    hdescribes.newRange_eq (hnone.symm.imp_right (kind_ne_of_mem hmem))⟩

end Hunk

/-- Hunks one after the other from a place up to the end of both texts. What they leave out is not changed. -/
inductive Follows (old new : List Text) (context : Nat) (total : Totals) : Place → List Hunk → Prop
  | none {place : Place} (hunchanged : Unchanged old new place (old.length, new.length)) :
      Follows old new context total place []
  | next {place start : Place} {hunk : Hunk} {hunks : List Hunk} (hunchanged : Unchanged old new place start)
      (hdescribes : hunk.Describes old new context total start)
      (hfollows : Follows old new context total (hunk.behind start) hunks) :
      Follows old new context total place (hunk :: hunks)

/-- The lines of an edit, with its sign. -/
def Edit.marked (old new : List Text) (edit : Edit) : List MarkedLine :=
  (if edit.kind = .insert then edit.newLines new else edit.oldLines old).map (MarkedLine.mk edit.kind)

/-- The lines of a block, with their signs. -/
def Block.marked (old new : List Text) (block : Block) : List MarkedLine :=
  block.edits.flatMap (Edit.marked old new)

def Hunk.ofGroup (old new : List Text) (group : List Block) : Hunk :=
  ⟨groupRange Block.oldRange group, groupRange Block.newRange group, group.flatMap (Block.marked old new)⟩

section Sides

variable {old new : List Text} {place stop : Place} {edit : Edit} {edits : List Edit} {lines others : List MarkedLine}

theorem IsAt.append {l part part' : List Text} {i : Nat} (hpart : IsAt l i part)
    (hpart' : IsAt l (i + part.length) part') : IsAt l i (part ++ part') := by
  obtain ⟨hbound, heq⟩ := hpart
  obtain ⟨hbound', heq'⟩ := hpart'
  refine ⟨by rw [List.length_append]; omega, ?_⟩
  rw [List.length_append, slice_add, heq, heq']

end Sides

/-- The lines of blocks that take turns do so as well. Only the outer blocks may have no lines. -/
structure Turns (lines : Block → List MarkedLine) (blocks : List Block) : Prop where
  alternates : Alternates blocks
  kinds : ∀ block ∈ blocks, ∀ line ∈ lines block, (line.kind = .equal ↔ block.isEqual = true)
  full : ∀ block ∈ blocks.tail.dropLast, lines block ≠ []
  changes : ∀ block ∈ blocks, block.isEqual = false → lines block ≠ []

section Turns

variable {lines : Block → List MarkedLine} {first : Block} {blocks rest : List Block}

theorem Turns.reverse (hturns : Turns lines blocks) : Turns (fun block => (lines block).reverse) blocks.reverse := by
  obtain ⟨halternates, hkinds, hfull, hchanges⟩ := hturns
  refine ⟨?_, ?_, ?_, ?_⟩
  · rw [Alternates, List.map_reverse, List.isChain_reverse]
    exact halternates.imp fun _ _ => Ne.symm
  · intro block hblock line hline
    exact hkinds block (List.mem_reverse.mp hblock) line (List.mem_reverse.mp hline)
  · intro block hblock
    rw [List.tail_reverse, List.dropLast_reverse, List.mem_reverse, List.tail_dropLast] at hblock
    exact List.reverse_ne_nil_iff.mpr (hfull block hblock)
  · intro block hblock hchange
    exact List.reverse_ne_nil_iff.mpr (hchanges block (List.mem_reverse.mp hblock) hchange)

end Turns

namespace Block

variable {old new : List Text} {place stop : Place} {edit : Edit} {block : Block} {kind : EditKind}

end Block

section Groups

variable {old new : List Text} {context : Nat} {total : Totals} {place start stop : Place} {edit : Edit} {block : Block}
  {edits : List Edit} {group : List Block} {line : MarkedLine}

theorem Covers.stands (hcovers : Covers old new place edits stop) (hedit : edit ∈ edits) :
    ∃ place, edit.Stands old new place := by
  induction edits generalizing place with
  | nil => exact absurd hedit List.not_mem_nil
  | cons first edits ih =>
      obtain ⟨hfirst, hcovers⟩ := hcovers
      obtain rfl | hedit := List.mem_cons.mp hedit
      · exact ⟨place, hfirst⟩
      · exact ih hcovers hedit

theorem flatMap_render_marked (old new : List Text) (edit : Edit) :
    (edit.marked old new).flatMap MarkedLine.render =
      renderLines edit.kind.sign (if edit.kind = .insert then edit.newLines new else edit.oldLines old) := by
  rw [Edit.marked, List.flatMap_map]
  rfl

theorem Block.render_eq (hproper : block.IsProper) :
    block.render old new = (block.marked old new).flatMap MarkedLine.render := by
  rw [Block.marked, List.flatMap_assoc, funext (flatMap_render_marked old new)]
  cases hproper with
  | equal hkind => simp [Block.render, Block.edits, hkind, EditKind.sign]
  | deleted hkind hlength => simp [Block.render, Block.edits, hkind, EditKind.sign, renderLines]
  | inserted hkind hlength => simp [Block.render, Block.edits, hkind, EditKind.sign, renderLines]
  | replaced hdeleted hlength hinserted hlength' => simp [Block.render, Block.edits, hdeleted, hinserted, EditKind.sign]

theorem render_ofGroup (hproper : ∀ block ∈ group, block.IsProper) :
    (Hunk.ofGroup old new group).render = renderGroup old new group := by
  have hblocks : group.flatMap (·.render old new) = (group.flatMap (Block.marked old new)).flatMap MarkedLine.render := by
    rw [List.flatMap_assoc]
    exact List.flatMap_congr fun block hblock => Block.render_eq (hproper block hblock)
  rw [renderGroup, hblocks]
  rfl

theorem AreGroups.render {groups : List (List Block)} (hgroups : AreGroups old new context total place groups) :
    groups.flatMap (renderGroup old new) = (groups.map (Hunk.ofGroup old new)).flatMap Hunk.render := by
  induction hgroups with
  | none hunchanged => rfl
  | next hunchanged hgroup _ ih =>
      rw [List.flatMap_cons, List.map_cons, List.flatMap_cons, ih, render_ofGroup hgroup.framed.proper]

end Groups

/-- How a text falls into lines. Each of them ends with a line end, but the last one need not. -/
inductive AreLines : Text → List Text → Prop
  | none : AreLines [] []
  | last {body : Text} (hbody : ∀ c ∈ body, c ≠ '\n' ∧ c ≠ '\r') (hne : body ≠ []) : AreLines body [body]
  | next {body ending rest : Text} {others : List Text} (hbody : ∀ c ∈ body, c ≠ '\n' ∧ c ≠ '\r')
      (hending : ending = ['\n'] ∨ ending = ['\r', '\n'] ∨ (ending = ['\r'] ∧ rest.head? ≠ some '\n'))
      (hrest : AreLines rest others) : AreLines (body ++ ending ++ rest) ((body ++ ending) :: others)

section Lines

variable {c : Char} {text : Text} {others : List Text}

theorem AreLines.flatten (hlines : AreLines text others) : others.flatten = text := by
  induction hlines with
  | none => rfl
  | last hbody hne => exact List.append_nil _
  | next hbody hending _ ih => rw [List.flatten_cons, ih]

end Lines

section Unified

variable {old new : List Text} {context : Nat} {total : Totals}

-- Two lines of each side are shown under ranges of one: the insertion was found before the deletion, and when they change
-- places neither keeps up its index on the other side.
example : unified "a\nb\n".toList "b\nb\n".toList 1 = "@@ -1 +2 @@\n-a\n b\n+b\n".toList := by
  decide +kernel

-- A diff that only inserts has the right ranges, also where they are empty.
example : unified "a\n".toList "b\na\n".toList 0 = "@@ -0,0 +1 @@\n+b\n".toList := by
  decide +kernel

end Unified

end GoGraft.Diff
