import Mathlib.Logic.Relation
import GoGraft.Diff.Compact
import GoGraft.Proofs.EditScripts

/-!
# Moving edits keeps what they cover

An insertion can move past equal lines that end as it ends, or begin as it begins, and an edit can change places with one of
the other kind or join one of its own. Compacting a script is a sequence of such moves. None of them changes which lines of
the two sides are covered, or how many lines are deleted and inserted. A move does not keep up the index of an edit on the
side that it has no lines of, but the index stays tethered: behind the lines that are shared before the edit it counts at
most the lines that the script deletes, or inserts.
-/

namespace GoGraft.Diff

/-- The number of lines of a kind in a script. -/
def linesOf (kind : EditKind) : List Edit → Nat
  | [] => 0
  | edit :: edits => edit.linesOf kind + linesOf kind edits

/-- How many lines are deleted and inserted. -/
structure Totals where
  deleted : Nat
  inserted : Nat
deriving DecidableEq, Repr

def totals (edits : List Edit) : Totals :=
  ⟨linesOf .delete edits, linesOf .insert edits⟩

/-- The index of an edit on the side that it has no lines of, when some number of lines are shared before it. -/
structure Edit.Tethered (totals : Totals) (shared : Nat) (edit : Edit) : Prop where
  old_index : edit.kind = .insert → shared ≤ edit.oldIndex ∧ edit.oldIndex ≤ shared + totals.deleted
  new_index : edit.kind = .delete → shared ≤ edit.newIndex ∧ edit.newIndex ≤ shared + totals.inserted

def Tethered (totals : Totals) : Nat → List Edit → Prop
  | _, [] => True
  | shared, edit :: edits => edit.Tethered totals shared ∧ Tethered totals (shared + edit.linesOf .equal) edits

section Totals

variable {old new : List Text} {place stop : Place} {edit upper this : Edit} {edits left right : List Edit} {kind : EditKind}
  {total : Totals} {shared n : Nat}

theorem linesOf_append : linesOf kind (left ++ right) = linesOf kind left + linesOf kind right := by
  induction left with
  | nil => exact (Nat.zero_add _).symm
  | cons edit left ih => rw [List.cons_append, linesOf, ih, linesOf, Nat.add_assoc]

theorem linesOf_reverse : linesOf kind edits.reverse = linesOf kind edits := by
  induction edits with
  | nil => rfl
  | cons edit edits ih =>
      rw [List.reverse_cons, linesOf_append, ih, Nat.add_comm]
      rfl

theorem linesOf_growRight (hkind : upper.kind = this.kind) :
    (upper.growRight this.length).linesOf kind = upper.linesOf kind + this.linesOf kind := by
  simp only [Edit.linesOf, Edit.growRight, hkind]
  split <;> rfl

theorem linesOf_of_ne (hne : edit.kind ≠ kind) : edit.linesOf kind = 0 :=
  if_neg hne

theorem Covers.stop_eq (hcovers : Covers old new place edits stop) :
    stop.1 = place.1 + linesOf .equal edits + linesOf .delete edits ∧
      stop.2 = place.2 + linesOf .equal edits + linesOf .insert edits := by
  induction edits generalizing place with
  | nil =>
      obtain rfl : place = stop := hcovers
      exact ⟨rfl, rfl⟩
  | cons edit edits ih =>
      obtain ⟨hold, hnew⟩ := ih hcovers.2
      simp only [Edit.next, Edit.oldLength_eq, Edit.newLength_eq] at hold hnew
      simp only [linesOf]
      omega

theorem Edit.tethered_of_equal (hkind : edit.kind = .equal) : edit.Tethered total shared :=
  ⟨fun hinsert => absurd (hkind.symm.trans hinsert) EditKind.noConfusion,
    fun hdelete => absurd (hkind.symm.trans hdelete) EditKind.noConfusion⟩

theorem tethered_append :
    Tethered total shared (left ++ right) ↔
      Tethered total shared left ∧ Tethered total (shared + linesOf .equal left) right := by
  induction left generalizing shared with
  | nil => simp [Tethered, linesOf]
  | cons edit left ih => simp [Tethered, linesOf, ih, and_assoc, Nat.add_assoc]

theorem Traces.tethered (htraces : Traces shared place edits)
    (hold : place.1 + linesOf .delete edits ≤ shared + total.deleted)
    (hnew : place.2 + linesOf .insert edits ≤ shared + total.inserted) : Tethered total shared edits := by
  induction edits generalizing shared place with
  | nil => trivial
  | cons edit edits ih =>
      obtain ⟨⟨holdLower, holdUpper, hnewLower, hnewUpper⟩, htraces⟩ := htraces
      simp only [linesOf] at hold hnew
      refine ⟨⟨fun _ => ⟨holdLower, by omega⟩, fun _ => ⟨hnewLower, by omega⟩⟩, ih htraces ?_ ?_⟩
      · simp only [Edit.next, Edit.oldLength_eq]
        omega
      · simp only [Edit.next, Edit.newLength_eq]
        omega

end Totals

section Leaving

variable {this upper lower : Edit} {before after : List Edit} {n : Nat}

/-- Equal lines that are left below an edit stand alone, or extend those that are there. -/
theorem leaveBelow_cases :
    leaveBelow this upper n after =
        ⟨.equal, upper.oldIndex + upper.length - n, this.newIndex + this.newLength - n, n⟩ :: after ∨
      ∃ next others, after = next :: others ∧ next.kind = .equal ∧
        leaveBelow this upper n after = next.growLeft n :: others := by
  cases after with
  | nil => exact .inl rfl
  | cons next others =>
      by_cases hkind : next.kind = .equal
      · exact .inr ⟨next, others, rfl, hkind, if_pos hkind⟩
      · exact .inl (if_neg hkind)

theorem leaveAbove_cases :
    leaveAbove this lower n before = ⟨.equal, lower.oldIndex, this.newIndex, n⟩ :: before ∨
      ∃ previous others, before = previous :: others ∧ previous.kind = .equal ∧
        leaveAbove this lower n before = previous.growRight n :: others := by
  cases before with
  | nil => exact .inl rfl
  | cons previous others =>
      by_cases hkind : previous.kind = .equal
      · exact .inr ⟨previous, others, rfl, hkind, if_pos hkind⟩
      · exact .inl (if_neg hkind)

end Leaving

section Moves

variable {old new : List Text} {place stop : Place} {upper this lower : Edit} {before after : List Edit} {n : Nat}

theorem Covers.inside {left right : List Edit} (hcovers : Covers old new place (before ++ left) stop)
    (hmove : ∀ middle, Covers old new middle left stop → Covers old new middle right stop) :
    Covers old new place (before ++ right) stop := by
  obtain ⟨middle, hbefore, hleft⟩ := covers_append.mp hcovers
  exact hbefore.append (hmove middle hleft)

theorem covers_of_empty (hkind : upper.kind = .equal) (hempty : upper.length = 0)
    (hcovers : Covers old new place (upper :: after) stop) : Covers old new place after stop := by
  obtain ⟨-, -, -, -, -, hafter⟩ := (covers_cons_of_equal hkind).mp hcovers
  rwa [hempty] at hafter

theorem covers_merged (hkind : upper.kind = this.kind) (hcovers : Covers old new place (upper :: this :: after) stop) :
    Covers old new place (upper.growRight this.length :: after) stop := by
  cases hthis : this.kind with
  | equal =>
      rw [hthis] at hkind
      obtain ⟨hupperOld, hupperNew, -, -, hupperSame, hcovers⟩ := (covers_cons_of_equal hkind).mp hcovers
      obtain ⟨-, -, hold, hnew, hsame, hcovers⟩ := (covers_cons_of_equal hthis).mp hcovers
      have hgrown : (upper.growRight this.length).kind = .equal := hkind
      have hlength : (upper.growRight this.length).length = upper.length + this.length := rfl
      refine (covers_cons_of_equal hgrown).mpr ?_
      rw [hlength, slice_add, slice_add, hupperSame, hsame, ← Nat.add_assoc, ← Nat.add_assoc]
      exact ⟨hupperOld, hupperNew, hold, hnew, rfl, hcovers⟩
  | delete =>
      rw [hthis] at hkind
      obtain ⟨hupper, hbound, hnew, hcovers⟩ := (covers_cons_of_delete hkind).mp hcovers
      obtain ⟨-, hbound', -, hcovers⟩ := (covers_cons_of_delete hthis).mp hcovers
      have hgrown : (upper.growRight this.length).kind = .delete := hkind
      refine (covers_cons_of_delete hgrown).mpr ⟨hupper, ?_, hnew, ?_⟩
      · simpa [Edit.growRight, Nat.add_assoc] using hbound'
      · simpa [Edit.growRight, Nat.add_assoc] using hcovers
  | insert =>
      rw [hthis] at hkind
      obtain ⟨hupper, hold, hbound, hcovers⟩ := (covers_cons_of_insert hkind).mp hcovers
      obtain ⟨-, -, hbound', hcovers⟩ := (covers_cons_of_insert hthis).mp hcovers
      have hgrown : (upper.growRight this.length).kind = .insert := hkind
      refine (covers_cons_of_insert hgrown).mpr ⟨hupper, hold, ?_, ?_⟩
      · simpa [Edit.growRight, Nat.add_assoc] using hbound'
      · simpa [Edit.growRight, Nat.add_assoc] using hcovers

theorem covers_swapped (hupper : upper.kind ≠ .equal) (hthis : this.kind ≠ .equal) (hne : upper.kind ≠ this.kind)
    (hcovers : Covers old new place (upper :: this :: after) stop) :
    Covers old new place (this :: upper :: after) stop := by
  cases hupperKind : upper.kind <;> cases hthisKind : this.kind <;> simp_all only [ne_eq, not_true_eq_false]
  · obtain ⟨hfirst, hold, hnew, hcovers⟩ := (covers_cons_of_delete hupperKind).mp hcovers
    obtain ⟨hsecond, hold', hnew', hcovers⟩ := (covers_cons_of_insert hthisKind).mp hcovers
    refine (covers_cons_of_insert hthisKind).mpr ⟨hsecond, by omega, hnew', ?_⟩
    exact (covers_cons_of_delete hupperKind).mpr ⟨hfirst, hold, hnew', hcovers⟩
  · obtain ⟨hfirst, hold, hnew, hcovers⟩ := (covers_cons_of_insert hupperKind).mp hcovers
    obtain ⟨hsecond, hold', hnew', hcovers⟩ := (covers_cons_of_delete hthisKind).mp hcovers
    refine (covers_cons_of_delete hthisKind).mpr ⟨hsecond, hold', by omega, ?_⟩
    exact (covers_cons_of_insert hupperKind).mpr ⟨hfirst, hold', hnew, hcovers⟩

theorem covers_left_below {a b : Nat} (hold : upper.oldIndex + upper.length - n = a)
    (hnew : this.newIndex + this.newLength - n = b) (holdBound : a + n ≤ old.length) (hnewBound : b + n ≤ new.length)
    (hsame : slice old a n = slice new b n) (hcovers : Covers old new (a + n, b + n) after stop) :
    Covers old new (a, b) (leaveBelow this upper n after) stop := by
  obtain hleft | ⟨next, others, rfl, hkind, hleft⟩ := @leaveBelow_cases this upper after n
  · rw [hleft]
    exact (covers_cons_of_equal rfl).mpr ⟨hold, hnew, holdBound, hnewBound, hsame, hcovers⟩
  · obtain ⟨hnextOld, hnextNew, hbound, hbound', hnextSame, hothers⟩ := (covers_cons_of_equal hkind).mp hcovers
    have hgrown : (next.growLeft n).kind = .equal := hkind
    have hlength : (next.growLeft n).length = n + next.length := Nat.add_comm _ _
    rw [hleft]
    refine (covers_cons_of_equal hgrown).mpr ?_
    rw [hlength, slice_add, slice_add, hsame, hnextSame, ← Nat.add_assoc, ← Nat.add_assoc]
    refine ⟨?_, ?_, hbound, hbound', rfl, hothers⟩
    · exact Nat.sub_eq_of_eq_add hnextOld
    · exact Nat.sub_eq_of_eq_add hnextNew

/-- An insertion that moves up past equal lines which end as it ends. -/
theorem covers_moved_up (hupper : upper.kind = .equal) (hthis : this.kind = .insert) (hle : n ≤ upper.length)
    (hle' : n ≤ this.length)
    (hsame : slice old (upper.oldIndex + (upper.length - n)) n = slice new (this.newIndex + (this.length - n)) n)
    (hcovers : Covers old new place (upper :: this :: after) stop) :
    Covers old new place (upper.dropLast n :: this.shiftLeft n :: leaveBelow this upper n after) stop := by
  obtain ⟨x, y⟩ := place
  obtain ⟨hupperOld, hupperNew, hold, hnew, hshared, hcovers⟩ := (covers_cons_of_equal hupper).mp hcovers
  obtain ⟨hthisNew, -, hnew', hafter⟩ := (covers_cons_of_insert hthis).mp hcovers
  simp only at hupperOld hupperNew hold hnew hshared hthisNew hnew' hafter
  have hshort : (upper.dropLast n).kind = .equal := hupper
  have hmoved : (this.shiftLeft n).kind = .insert := hthis
  have hnewLength : this.newLength = this.length := by simp [Edit.newLength, hthis]
  have hlength : (upper.dropLast n).length = upper.length - n := rfl
  have hlength' : (this.shiftLeft n).length = this.length := rfl
  refine (covers_cons_of_equal hshort).mpr ⟨hupperOld, hupperNew, ?_, ?_, ?_, ?_⟩
  · simp only [hlength]
    omega
  · simp only [hlength]
    omega
  · have htake := congrArg (List.take (upper.length - n)) hshared
    rwa [take_slice, take_slice, Nat.min_eq_left (Nat.sub_le _ _)] at htake
  · simp only [hlength]
    refine (covers_cons_of_insert hmoved).mpr ⟨?_, ?_, ?_, ?_⟩
    · simp only [Edit.shiftLeft]
      omega
    · simp only
      omega
    · simp only [hlength']
      omega
    · simp only [hlength']
      rw [hupperOld, hthisNew] at hsame
      refine covers_left_below (by omega) (by omega) (by omega) (by omega) ?_ ?_
      · rwa [show y + (upper.length - n) + this.length = y + upper.length + (this.length - n) by omega]
      · rwa [show x + (upper.length - n) + n = x + upper.length by omega,
          show y + (upper.length - n) + this.length + n = y + upper.length + this.length by omega]

theorem covers_left_above {a b : Nat} (hold : lower.oldIndex = a) (hnew : this.newIndex = b)
    (holdBound : a + n ≤ old.length) (hnewBound : b + n ≤ new.length) (hsame : slice old a n = slice new b n)
    (hcovers : Covers old new place before.reverse (a, b)) :
    Covers old new place (leaveAbove this lower n before).reverse (a + n, b + n) := by
  have hput : Covers old new (a, b) [⟨.equal, lower.oldIndex, this.newIndex, n⟩] (a + n, b + n) :=
    (covers_cons_of_equal rfl).mpr ⟨hold, hnew, holdBound, hnewBound, hsame, rfl⟩
  obtain hleft | ⟨previous, others, rfl, hkind, hleft⟩ := @leaveAbove_cases this lower before n
  · rw [hleft, List.reverse_cons]
    exact hcovers.append hput
  · rw [List.reverse_cons] at hcovers
    have hjoined := hcovers.append hput
    rw [List.append_assoc] at hjoined
    rw [hleft, List.reverse_cons]
    exact hjoined.inside fun middle => covers_merged hkind

/-- An insertion that moves down past equal lines which begin as it begins. -/
theorem covers_moved_down (hthis : this.kind = .insert) (hlower : lower.kind = .equal) (hle : n ≤ lower.length)
    (hle' : n ≤ this.length) (hsame : slice old lower.oldIndex n = slice new this.newIndex n)
    (hcovers : Covers old new place (before.reverse ++ this :: lower :: after) stop) :
    Covers old new place ((leaveAbove this lower n before).reverse ++ this.shiftRight n :: lower.dropFirst n :: after)
      stop := by
  obtain ⟨⟨x, y⟩, hbefore, hcovers⟩ := covers_append.mp hcovers
  obtain ⟨hthisNew, -, hnew, hcovers⟩ := (covers_cons_of_insert hthis).mp hcovers
  obtain ⟨hlowerOld, hlowerNew, hold, hnew', hshared, hafter⟩ := (covers_cons_of_equal hlower).mp hcovers
  simp only at hthisNew hnew hlowerOld hlowerNew hold hnew' hshared hafter
  have hmoved : (this.shiftRight n).kind = .insert := hthis
  have hshort : (lower.dropFirst n).kind = .equal := hlower
  rw [hlowerOld, hthisNew] at hsame
  refine (covers_left_above hlowerOld hthisNew (by omega) (by omega) hsame hbefore).append ?_
  refine (covers_cons_of_insert hmoved).mpr ⟨?_, ?_, ?_, (covers_cons_of_equal hshort).mpr ⟨?_, ?_, ?_, ?_, ?_, ?_⟩⟩
  all_goals simp only [Edit.shiftRight, Edit.dropFirst]
  · omega
  · omega
  · omega
  · omega
  · omega
  · omega
  · omega
  · have hdrop := congrArg (List.drop n) hshared
    rw [drop_slice, drop_slice] at hdrop
    rwa [show y + n + this.length = y + this.length + n by omega]
  · rwa [show x + n + (lower.length - n) = x + lower.length by omega,
      show y + n + this.length + (lower.length - n) = y + this.length + lower.length by omega]

end Moves

section Lines

variable {old new : List Text} {place stop : Place} {this upper lower : Edit} {before after : List Edit} {n : Nat}

theorem length_oldLines_le : (upper.oldLines old).length ≤ upper.length := by
  refine Nat.le_trans (List.length_take_le _ _) ?_
  rw [Edit.oldLength]
  split <;> omega

theorem length_newLines_le : (this.newLines new).length ≤ this.length := by
  refine Nat.le_trans (List.length_take_le _ _) ?_
  rw [Edit.newLength]
  split <;> omega

theorem oldLines_of_equal (hkind : upper.kind = .equal) : upper.oldLines old = slice old upper.oldIndex upper.length := by
  simp [Edit.oldLines, Edit.oldLength, hkind, slice]

theorem newLines_of_insert (hkind : this.kind = .insert) : this.newLines new = slice new this.newIndex this.length := by
  simp [Edit.newLines, Edit.newLength, hkind, slice]

theorem commonSuffix_le_lengths :
    commonSuffix (upper.oldLines old) (this.newLines new) ≤ upper.length ∧
      commonSuffix (upper.oldLines old) (this.newLines new) ≤ this.length := by
  obtain ⟨hold, hnew⟩ := commonSuffix_le (upper.oldLines old) (this.newLines new)
  exact ⟨Nat.le_trans hold length_oldLines_le, Nat.le_trans hnew length_newLines_le⟩

theorem commonPrefix_le_lengths :
    commonPrefix (lower.oldLines old) (this.newLines new) ≤ lower.length ∧
      commonPrefix (lower.oldLines old) (this.newLines new) ≤ this.length := by
  obtain ⟨hold, hnew⟩ := commonPrefix_le (lower.oldLines old) (this.newLines new)
  exact ⟨Nat.le_trans hold length_oldLines_le, Nat.le_trans hnew length_newLines_le⟩

theorem covers_up_step (hupper : upper.kind = .equal) (hthis : this.kind = .insert)
    (hn : n = commonSuffix (upper.oldLines old) (this.newLines new))
    (hcovers : Covers old new place (upper :: this :: after) stop) :
    Covers old new place (upper.dropLast n :: this.shiftLeft n :: leaveBelow this upper n after) stop := by
  obtain ⟨hle, hle'⟩ : n ≤ upper.length ∧ n ≤ this.length := hn ▸ commonSuffix_le_lengths
  have hsame := drop_commonSuffix (upper.oldLines old) (this.newLines new)
  rw [← hn] at hsame
  obtain ⟨hupperOld, -, hold, -, -, hrest⟩ := (covers_cons_of_equal hupper).mp hcovers
  obtain ⟨hthisNew, -, hnew, -⟩ := (covers_cons_of_insert hthis).mp hrest
  have hlength : (slice old upper.oldIndex upper.length).length = upper.length := length_slice (by omega)
  have hlength' : (slice new this.newIndex this.length).length = this.length := length_slice (by omega)
  rw [oldLines_of_equal hupper, newLines_of_insert hthis, hlength, hlength'] at hsame
  refine covers_moved_up hupper hthis hle hle' ?_ hcovers
  rwa [drop_slice, drop_slice, Nat.sub_sub_self hle, Nat.sub_sub_self hle'] at hsame

theorem covers_down_step (hthis : this.kind = .insert) (hlower : lower.kind = .equal)
    (hn : n = commonPrefix (lower.oldLines old) (this.newLines new))
    (hcovers : Covers old new place (before.reverse ++ this :: lower :: after) stop) :
    Covers old new place ((leaveAbove this lower n before).reverse ++ this.shiftRight n :: lower.dropFirst n :: after)
      stop := by
  obtain ⟨hle, hle'⟩ : n ≤ lower.length ∧ n ≤ this.length := hn ▸ commonPrefix_le_lengths
  have hsame := take_commonPrefix (lower.oldLines old) (this.newLines new)
  rw [← hn, oldLines_of_equal hlower, newLines_of_insert hthis, take_slice, take_slice, Nat.min_eq_left hle,
    Nat.min_eq_left hle'] at hsame
  exact covers_moved_down hthis hlower hle hle' hsame hcovers

end Lines

/-- One move of a compaction. -/
inductive Move (old new : List Text) : List Edit → List Edit → Prop
  | drop {before after : List Edit} {edit : Edit} (hkind : edit.kind = .equal) (hempty : edit.length = 0) :
      Move old new (before ++ edit :: after) (before ++ after)
  | join {before after : List Edit} {upper this : Edit} (hkind : upper.kind = this.kind) :
      Move old new (before ++ upper :: this :: after) (before ++ upper.growRight this.length :: after)
  | swap {before after : List Edit} {upper this : Edit} (hupper : upper.kind ≠ .equal) (hthis : this.kind ≠ .equal)
      (hne : upper.kind ≠ this.kind) : Move old new (before ++ upper :: this :: after) (before ++ this :: upper :: after)
  | up {before after : List Edit} {upper this : Edit} {n : Nat} (hupper : upper.kind = .equal)
      (hthis : this.kind = .insert) (hn : n = commonSuffix (upper.oldLines old) (this.newLines new)) :
      Move old new (before ++ upper :: this :: after)
        (before ++ upper.dropLast n :: this.shiftLeft n :: leaveBelow this upper n after)
  | down {before after : List Edit} {this lower : Edit} {n : Nat} (hthis : this.kind = .insert)
      (hlower : lower.kind = .equal) (hn : n = commonPrefix (lower.oldLines old) (this.newLines new)) :
      Move old new (before.reverse ++ this :: lower :: after)
        ((leaveAbove this lower n before).reverse ++ this.shiftRight n :: lower.dropFirst n :: after)

section Preserved

variable {old new : List Text} {place stop : Place} {this upper lower : Edit} {edits moved before after : List Edit}
  {kind : EditKind} {total : Totals} {shared n : Nat}

theorem Move.covers (hmove : Move old new edits moved) (hcovers : Covers old new place edits stop) :
    Covers old new place moved stop := by
  cases hmove with
  | drop hkind hempty => exact hcovers.inside fun middle => covers_of_empty hkind hempty
  | join hkind => exact hcovers.inside fun middle => covers_merged hkind
  | swap hupper hthis hne => exact hcovers.inside fun middle => covers_swapped hupper hthis hne
  | up hupper hthis hn => exact hcovers.inside fun middle => covers_up_step hupper hthis hn
  | down hthis hlower hn => exact covers_down_step hthis hlower hn hcovers

theorem linesOf_leaveAbove :
    linesOf kind (leaveAbove this lower n before) = (if .equal = kind then n else 0) + linesOf kind before := by
  obtain hleft | ⟨previous, others, rfl, hkind, hleft⟩ := @leaveAbove_cases this lower before n
  · rw [hleft]
    rfl
  · rw [hleft]
    simp only [linesOf, Edit.linesOf, Edit.growRight, hkind]
    split <;> omega

theorem tethered_leaveBelow (hafter : Tethered total (shared + n) after) :
    Tethered total shared (leaveBelow this upper n after) := by
  obtain hleft | ⟨next, others, rfl, hkind, hleft⟩ := @leaveBelow_cases this upper after n
  · rw [hleft]
    exact ⟨Edit.tethered_of_equal rfl, hafter⟩
  · have hlength : (next.growLeft n).linesOf .equal = n + next.linesOf .equal := by
      simp [Edit.linesOf, Edit.growLeft, Edit.shiftLeft, hkind, Nat.add_comm]
    rw [hleft]
    refine ⟨Edit.tethered_of_equal hkind, ?_⟩
    rw [hlength, ← Nat.add_assoc]
    exact hafter.2

theorem tethered_leaveAbove (hbefore : Tethered total shared before.reverse) :
    Tethered total shared (leaveAbove this lower n before).reverse := by
  obtain hleft | ⟨previous, others, rfl, hkind, hleft⟩ := @leaveAbove_cases this lower before n
  · rw [hleft, List.reverse_cons]
    exact tethered_append.mpr ⟨hbefore, Edit.tethered_of_equal rfl, trivial⟩
  · rw [List.reverse_cons] at hbefore
    rw [hleft, List.reverse_cons]
    exact tethered_append.mpr ⟨(tethered_append.mp hbefore).1, Edit.tethered_of_equal hkind, trivial⟩

/-- An insertion takes the equal lines that it passes off its index and off the number of shared lines. -/
theorem tethered_up_step (hupper : upper.kind = .equal) (hthis : this.kind = .insert) (hle : n ≤ upper.length)
    (htethered : Tethered total shared (upper :: this :: after)) :
    Tethered total shared (upper.dropLast n :: this.shiftLeft n :: leaveBelow this upper n after) := by
  obtain ⟨-, hinsert, hafter⟩ := htethered
  have hnone : this.linesOf .equal = 0 := linesOf_of_ne (by simp [hthis])
  have hlength : upper.linesOf .equal = upper.length := if_pos hupper
  have hlength' : (upper.dropLast n).linesOf .equal = upper.length - n := if_pos hupper
  have hindex := hinsert.old_index hthis
  rw [hlength] at hindex
  rw [hnone, hlength] at hafter
  refine ⟨Edit.tethered_of_equal hupper, ⟨fun _ => ?_, fun hdelete => ?_⟩, tethered_leaveBelow ?_⟩
  · simp only [hlength', Edit.shiftLeft]
    omega
  · exact absurd (hthis.symm.trans hdelete) EditKind.noConfusion
  · rw [hlength', show (this.shiftLeft n).linesOf .equal = 0 from hnone]
    rwa [show shared + (upper.length - n) + 0 + n = shared + upper.length + 0 by omega]

theorem tethered_down_step (hthis : this.kind = .insert) (hlower : lower.kind = .equal) (hle : n ≤ lower.length)
    (htethered : Tethered total shared (this :: lower :: after)) :
    Tethered total (shared + n) (this.shiftRight n :: lower.dropFirst n :: after) := by
  obtain ⟨hinsert, -, hafter⟩ := htethered
  have hnone : this.linesOf .equal = 0 := linesOf_of_ne (by simp [hthis])
  have hlength : lower.linesOf .equal = lower.length := if_pos hlower
  have hlength' : (lower.dropFirst n).linesOf .equal = lower.length - n := if_pos hlower
  have hindex := hinsert.old_index hthis
  rw [hnone, hlength] at hafter
  refine ⟨⟨fun _ => ?_, fun hdelete => ?_⟩, Edit.tethered_of_equal hlower, ?_⟩
  · simp only [Edit.shiftRight]
    omega
  · exact absurd (hthis.symm.trans hdelete) EditKind.noConfusion
  · rw [hlength', show (this.shiftRight n).linesOf .equal = 0 from hnone]
    rwa [show shared + n + 0 + (lower.length - n) = shared + 0 + lower.length by omega]

theorem Move.tethered (hmove : Move old new edits moved) (htethered : Tethered total shared edits) :
    Tethered total shared moved := by
  cases hmove with
  | drop hkind hempty =>
      obtain ⟨hbefore, -, hafter⟩ := tethered_append.mp htethered
      simp only [Edit.linesOf, hempty, ite_self, Nat.add_zero] at hafter
      exact tethered_append.mpr ⟨hbefore, hafter⟩
  | join hkind =>
      obtain ⟨hbefore, hupper, -, hafter⟩ := tethered_append.mp htethered
      refine tethered_append.mpr ⟨hbefore, ⟨hupper.old_index, hupper.new_index⟩, ?_⟩
      rwa [linesOf_growRight hkind, ← Nat.add_assoc]
  | swap hupper hthis hne =>
      obtain ⟨hbefore, hfirst, hsecond, hafter⟩ := tethered_append.mp htethered
      simp only [linesOf_of_ne hupper, linesOf_of_ne hthis, Nat.add_zero] at hsecond hafter
      refine tethered_append.mpr ⟨hbefore, hsecond, ?_⟩
      simp only [linesOf_of_ne hthis, Nat.add_zero]
      refine ⟨hfirst, ?_⟩
      rwa [linesOf_of_ne hupper]
  | up hupper hthis hn =>
      obtain ⟨hbefore, hhere⟩ := tethered_append.mp htethered
      exact tethered_append.mpr ⟨hbefore, tethered_up_step hupper hthis (hn ▸ commonSuffix_le_lengths.1) hhere⟩
  | down hthis hlower hn =>
      obtain ⟨hbefore, hhere⟩ := tethered_append.mp htethered
      refine tethered_append.mpr ⟨tethered_leaveAbove hbefore, ?_⟩
      rw [linesOf_reverse] at hhere
      rw [linesOf_reverse, linesOf_leaveAbove, if_pos rfl, Nat.add_comm _ (linesOf .equal _), ← Nat.add_assoc]
      exact tethered_down_step hthis hlower (hn ▸ commonPrefix_le_lengths.1) hhere

end Preserved

/-- What every script between two texts has, however its edits are moved. -/
structure Sound (old new : List Text) (edits : List Edit) : Prop where
  covers : Covers old new (0, 0) edits (old.length, new.length)
  tethered : Tethered (totals edits) 0 edits

/-- All edits of a script, in order. -/
def Spot.edits (spot : Spot) : List Edit :=
  spot.before.reverse ++ spot.this :: spot.after

section Runs

variable {old new : List Text} {this : Edit} {edits moved before after : List Edit}

end Runs

section Lengths

variable {old new : List Text} {this : Edit} {before after : List Edit} {n : Nat}

end Lengths

end GoGraft.Diff
