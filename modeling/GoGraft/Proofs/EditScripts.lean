import Mathlib.Tactic.Tauto
import GoGraft.Proofs.MeetingPlace

/-!
# Edit scripts cover both texts

A script is walked from a place between the lines to another one. An edit stands where the walk has come when its index is
right on the sides that it has lines of, and the lines of a shared run are the same on both sides. On the side that an edit
has no lines of, its index need not be that of the place, and moving the edit does not keep it up. In a script that was just
found it lies between the number of lines that are shared before the edit and the index of the place.
-/

namespace GoGraft.Diff

section CommonEnds

variable (as bs : List Text)

theorem commonPrefix_le : commonPrefix as bs ≤ as.length ∧ commonPrefix as bs ≤ bs.length := by
  fun_induction commonPrefix as bs with
  | case1 as b bs ih => simpa using ih
  | case2 => simp
  | case3 => simp

theorem take_commonPrefix : as.take (commonPrefix as bs) = bs.take (commonPrefix as bs) := by
  fun_induction commonPrefix as bs with
  | case1 as b bs ih => simpa using ih
  | case2 => rfl
  | case3 => rfl

theorem commonSuffix_le : commonSuffix as bs ≤ as.length ∧ commonSuffix as bs ≤ bs.length := by
  simpa [commonSuffix] using commonPrefix_le as.reverse bs.reverse

theorem drop_commonSuffix :
    as.drop (as.length - commonSuffix as bs) = bs.drop (bs.length - commonSuffix as bs) := by
  have htake := take_commonPrefix as.reverse bs.reverse
  rw [List.take_reverse, List.take_reverse] at htake
  exact List.reverse_inj.mp htake

end CommonEnds

/-- The `n` lines from the one with index `i` on. -/
def slice (l : List Text) (i n : Nat) : List Text :=
  (l.drop i).take n

section Slices

variable {l : List Text} {i m n : Nat}

theorem length_slice (hbound : i + n ≤ l.length) : (slice l i n).length = n := by
  rw [slice, List.length_take, List.length_drop]
  omega

theorem slice_add (l : List Text) (i m n : Nat) : slice l i (m + n) = slice l i m ++ slice l (i + m) n := by
  rw [slice, List.take_add, List.drop_drop]
  rfl

theorem take_slice (l : List Text) (i n m : Nat) : (slice l i n).take m = slice l i (min m n) := by
  rw [slice, List.take_take, slice]

theorem drop_slice (l : List Text) (i n m : Nat) : (slice l i n).drop m = slice l (i + m) (n - m) := by
  rw [slice, List.drop_take, List.drop_drop, slice]

/-- The lines stand in a list from an index on. -/
structure IsAt (l : List Text) (i : Nat) (part : List Text) : Prop where
  bound : i + part.length ≤ l.length
  eq : slice l i part.length = part

namespace IsAt

variable {part : List Text}

theorem take (hat : IsAt l i part) (n : Nat) : IsAt l i (part.take n) := by
  have hbound := hat.bound
  refine ⟨by rw [List.length_take]; omega, ?_⟩
  rw [List.length_take, ← take_slice, hat.eq]

theorem drop (hat : IsAt l i part) (hle : n ≤ part.length) : IsAt l (i + n) (part.drop n) := by
  have hbound := hat.bound
  refine ⟨by rw [List.length_drop]; omega, ?_⟩
  rw [List.length_drop, ← drop_slice, hat.eq]

end IsAt

end Slices

namespace Edit

/-- The place behind an edit. -/
def next (edit : Edit) (place : Place) : Place :=
  (place.1 + edit.oldLength, place.2 + edit.newLength)

/-- The edit is about the lines at a place. -/
def Stands (old new : List Text) (edit : Edit) (place : Place) : Prop :=
  place.1 + edit.oldLength ≤ old.length ∧ place.2 + edit.newLength ≤ new.length ∧
    match edit.kind with
    | .equal => edit.oldIndex = place.1 ∧ edit.newIndex = place.2 ∧
        slice old place.1 edit.length = slice new place.2 edit.length
    | .delete => edit.oldIndex = place.1
    | .insert => edit.newIndex = place.2

/-- The number of lines of an edit that are of a kind. -/
def linesOf (kind : EditKind) (edit : Edit) : Nat :=
  if edit.kind = kind then edit.length else 0

theorem oldLength_eq (edit : Edit) : edit.oldLength = edit.linesOf .equal + edit.linesOf .delete := by
  cases hkind : edit.kind <;> simp [oldLength, linesOf, hkind]

theorem newLength_eq (edit : Edit) : edit.newLength = edit.linesOf .equal + edit.linesOf .insert := by
  cases hkind : edit.kind <;> simp [newLength, linesOf, hkind]

end Edit

/-- The edits lead from one place to another. -/
def Covers (old new : List Text) : Place → List Edit → Place → Prop
  | place, [], stop => place = stop
  | place, edit :: edits, stop => edit.Stands old new place ∧ Covers old new (edit.next place) edits stop

section Covers

variable {old new : List Text} {place middle stop : Place} {left right : List Edit}

theorem covers_append :
    Covers old new place (left ++ right) stop ↔
      ∃ middle, Covers old new place left middle ∧ Covers old new middle right stop := by
  induction left generalizing place with
  | nil => simp [Covers]
  | cons edit left ih => simp [Covers, ih, and_assoc]

theorem covers_cons_of_equal {edit : Edit} (hkind : edit.kind = .equal) :
    Covers old new place (edit :: right) stop ↔
      edit.oldIndex = place.1 ∧ edit.newIndex = place.2 ∧ place.1 + edit.length ≤ old.length ∧
        place.2 + edit.length ≤ new.length ∧
        slice old place.1 edit.length = slice new place.2 edit.length ∧
        Covers old new (place.1 + edit.length, place.2 + edit.length) right stop := by
  simp only [Covers, Edit.Stands, Edit.next, Edit.oldLength, Edit.newLength, hkind, reduceCtorEq, if_false]
  tauto

theorem covers_cons_of_delete {edit : Edit} (hkind : edit.kind = .delete) :
    Covers old new place (edit :: right) stop ↔
      edit.oldIndex = place.1 ∧ place.1 + edit.length ≤ old.length ∧ place.2 ≤ new.length ∧
        Covers old new (place.1 + edit.length, place.2) right stop := by
  simp only [Covers, Edit.Stands, Edit.next, Edit.oldLength, Edit.newLength, hkind, reduceCtorEq, if_true, if_false,
    Nat.add_zero]
  tauto

theorem covers_cons_of_insert {edit : Edit} (hkind : edit.kind = .insert) :
    Covers old new place (edit :: right) stop ↔
      edit.newIndex = place.2 ∧ place.1 ≤ old.length ∧ place.2 + edit.length ≤ new.length ∧
        Covers old new (place.1, place.2 + edit.length) right stop := by
  simp only [Covers, Edit.Stands, Edit.next, Edit.oldLength, Edit.newLength, hkind, reduceCtorEq, if_true, if_false,
    Nat.add_zero]
  tauto

theorem Covers.append (hleft : Covers old new place left middle) (hright : Covers old new middle right stop) :
    Covers old new place (left ++ right) stop :=
  covers_append.mpr ⟨middle, hleft, hright⟩

end Covers

/-- The indices of an edit lie between the number of lines that are shared before it and the place where it stands. -/
structure Edit.Traces (shared : Nat) (edit : Edit) (place : Place) : Prop where
  old_lower : shared ≤ edit.oldIndex
  old_upper : edit.oldIndex ≤ place.1
  new_lower : shared ≤ edit.newIndex
  new_upper : edit.newIndex ≤ place.2

/-- The indices of all edits do, with some number of lines shared before the first of them. -/
def Traces : Nat → Place → List Edit → Prop
  | _, _, [] => True
  | shared, place, edit :: edits => edit.Traces shared place ∧ Traces (shared + edit.linesOf .equal) (edit.next place) edits

/-- The edits lead from one place to another, and their indices keep close to the places, however many lines are shared
before the first one. -/
def IsTrace (old new : List Text) (place : Place) (edits : List Edit) (stop : Place) : Prop :=
  Covers old new place edits stop ∧ ∀ shared, shared ≤ place.1 → shared ≤ place.2 → Traces shared place edits

section Search

variable {old new : List Text} {place middle stop : Place} {left right : List Edit} {x y n : Nat}
  {first second : List Text}

theorem Covers.traces_append {shared : Nat} (hcovers : Covers old new place left middle) (hold : shared ≤ place.1)
    (hnew : shared ≤ place.2) (hleft : Traces shared place left)
    (hright : ∀ shared, shared ≤ middle.1 → shared ≤ middle.2 → Traces shared middle right) :
    Traces shared place (left ++ right) := by
  induction left generalizing shared place with
  | nil =>
      obtain rfl : place = middle := hcovers
      exact hright shared hold hnew
  | cons edit left ih =>
      obtain ⟨-, hcovers⟩ := hcovers
      obtain ⟨hedit, hleft⟩ := hleft
      refine ⟨hedit, ih hcovers ?_ ?_ hleft⟩
      · simp only [Edit.next, Edit.oldLength_eq]
        omega
      · simp only [Edit.next, Edit.newLength_eq]
        omega

theorem IsTrace.append (hleft : IsTrace old new place left middle) (hright : IsTrace old new middle right stop) :
    IsTrace old new place (left ++ right) stop :=
  ⟨hleft.1.append hright.1,
    fun shared hold hnew => hleft.1.traces_append hold hnew (hleft.2 shared hold hnew) hright.2⟩

end Search

/-- None of the edits is without lines. -/
def Positive (edits : List Edit) : Prop :=
  ∀ edit ∈ edits, 0 < edit.length

end GoGraft.Diff
