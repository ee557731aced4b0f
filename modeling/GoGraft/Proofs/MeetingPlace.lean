import GoGraft.Diff.Script

/-!
# The searches meet inside the texts

A search counts edits on every diagonal and does not look where the texts end, so that it may pass their ends. But a path
that leaves the texts could have turned to their end instead, with fewer edits, and on such a path the searches would have
met in an earlier round. This needs that a round finds the furthest place on each of its diagonals.
-/

namespace GoGraft.Diff

/-- A place can be reached from another one with some number of edits. Edits lead outside of the texts as well, where no
lines are equal. -/
inductive Reaches (old new : Array Text) (start : Place) : Nat → Place → Prop
  | refl : Reaches old new start 0 start
  | delete {edits x y : Nat} (hreaches : Reaches old new start edits (x, y)) :
      Reaches old new start (edits + 1) (x + 1, y)
  | insert {edits x y : Nat} (hreaches : Reaches old new start edits (x, y)) :
      Reaches old new start (edits + 1) (x, y + 1)
  | equal {edits x y : Nat} {line : Text} (hold : old[x]? = some line) (hnew : new[y]? = some line)
      (hreaches : Reaches old new start edits (x, y)) : Reaches old new start edits (x + 1, y + 1)

theorem mem_diagonals {edits : Nat} {diagonal : Int} :
    diagonal ∈ diagonals edits ↔ -edits ≤ diagonal ∧ diagonal ≤ edits ∧ (edits - diagonal) % 2 = 0 := by
  simp only [diagonals, List.mem_map, List.mem_range]
  constructor
  · rintro ⟨i, hi, rfl⟩
    omega
  · rintro ⟨hlower, hupper, heven⟩
    exact ⟨((edits - diagonal) / 2).toNat, by omega, by omega⟩

section Paths

variable {old new : Array Text} {start middle place : Place} {m n edits x y : Nat}

theorem Reaches.trans (hleft : Reaches old new start m middle) (hright : Reaches old new middle n place) :
    Reaches old new start (m + n) place := by
  induction hright with
  | refl => exact hleft
  | delete _ ih => exact ih.delete
  | insert _ ih => exact ih.insert
  | equal hold hnew _ ih => exact ih.equal hold hnew

theorem Reaches.split (hreaches : Reaches old new start n place) (hle : m ≤ n) :
    ∃ middle, Reaches old new start m middle ∧ Reaches old new middle (n - m) place := by
  induction hreaches with
  | refl =>
      obtain rfl : m = 0 := Nat.le_zero.mp hle
      exact ⟨start, .refl, .refl⟩
  | @delete n x y hreaches ih =>
      obtain hle | rfl := Nat.le_succ_iff.mp hle
      · obtain ⟨middle, hleft, hright⟩ := ih hle
        exact ⟨middle, hleft, by rw [Nat.succ_sub hle]; exact hright.delete⟩
      · exact ⟨_, hreaches.delete, by rw [Nat.sub_self]; exact .refl⟩
  | @insert n x y hreaches ih =>
      obtain hle | rfl := Nat.le_succ_iff.mp hle
      · obtain ⟨middle, hleft, hright⟩ := ih hle
        exact ⟨middle, hleft, by rw [Nat.succ_sub hle]; exact hright.insert⟩
      · exact ⟨_, hreaches.insert, by rw [Nat.sub_self]; exact .refl⟩
  | equal hold hnew _ ih =>
      obtain ⟨middle, hleft, hright⟩ := ih hle
      exact ⟨middle, hleft, hright.equal hold hnew⟩

theorem Reaches.le (hreaches : Reaches old new start n place) : start.1 ≤ place.1 ∧ start.2 ≤ place.2 := by
  induction hreaches with
  | refl => exact ⟨Nat.le_refl _, Nat.le_refl _⟩
  | delete _ ih => exact ⟨Nat.le_succ_of_le ih.1, ih.2⟩
  | insert _ ih => exact ⟨ih.1, Nat.le_succ_of_le ih.2⟩
  | equal _ _ _ ih => exact ⟨Nat.le_succ_of_le ih.1, Nat.le_succ_of_le ih.2⟩

theorem Reaches.mem_diagonals (hreaches : Reaches old new (0, 0) edits place) :
    (place.1 : Int) - place.2 ∈ diagonals edits := by
  rw [Diff.mem_diagonals]
  induction hreaches with
  | refl => omega
  | delete _ ih =>
      simp only at ih ⊢
      omega
  | insert _ ih =>
      simp only at ih ⊢
      omega
  | equal _ _ _ ih =>
      simp only at ih ⊢
      omega

/-- A path inside the texts is one of the texts read from their ends. -/
theorem Reaches.reverse (hreaches : Reaches old new start edits place) (hold : place.1 ≤ old.size)
    (hnew : place.2 ≤ new.size) :
    Reaches old.reverse new.reverse (old.size - place.1, new.size - place.2) edits
      (old.size - start.1, new.size - start.2) := by
  induction hreaches with
  | refl => exact .refl
  | @delete edits x y _ ih =>
      simp only at hold hnew ih ⊢
      have hstep : Reaches old.reverse new.reverse (old.size - (x + 1), new.size - y) 1
          (old.size - (x + 1) + 1, new.size - y) := Reaches.refl.delete
      rw [show old.size - (x + 1) + 1 = old.size - x by omega] at hstep
      rw [Nat.add_comm edits 1]
      exact hstep.trans (ih (by omega) hnew)
  | @insert edits x y _ ih =>
      simp only at hold hnew ih ⊢
      have hstep : Reaches old.reverse new.reverse (old.size - x, new.size - (y + 1)) 1
          (old.size - x, new.size - (y + 1) + 1) := Reaches.refl.insert
      rw [show new.size - (y + 1) + 1 = new.size - y by omega] at hstep
      rw [Nat.add_comm edits 1]
      exact hstep.trans (ih hold (by omega))
  | @equal edits x y line hline hline' _ ih =>
      simp only at hold hnew ih ⊢
      have hlast : old.reverse[old.size - (x + 1)]? = some line := by
        rw [Array.getElem?_reverse (by omega), show old.size - 1 - (old.size - (x + 1)) = x by omega, hline]
      have hlast' : new.reverse[new.size - (y + 1)]? = some line := by
        rw [Array.getElem?_reverse (by omega), show new.size - 1 - (new.size - (y + 1)) = y by omega, hline']
      have hstep := (@Reaches.refl old.reverse new.reverse (old.size - (x + 1), new.size - (y + 1))).equal hlast hlast'
      rw [show old.size - (x + 1) + 1 = old.size - x by omega,
        show new.size - (y + 1) + 1 = new.size - y by omega] at hstep
      rw [← Nat.zero_add edits]
      exact hstep.trans (ih (by omega) (by omega))

theorem Reaches.equalAhead (hreaches : Reaches old new start edits (x, y)) (bound : Nat) :
    Reaches old new start edits
      (x + equalAhead old new bound (x, y), y + equalAhead old new bound (x, y)) := by
  induction bound generalizing x y with
  | zero => exact hreaches
  | succ bound ih =>
      rw [Diff.equalAhead]
      split
      · split
        · rename_i a b hold hnew hsame
          have hahead := ih (hreaches.equal hold (hsame ▸ hnew))
          rwa [Nat.add_right_comm x, Nat.add_right_comm y] at hahead
        · exact hreaches
      · exact hreaches

end Paths

namespace Frontier

/-- The frontier has room for all diagonals of a search. -/
structure Wide (depth : Nat) (frontier : Frontier) : Prop where
  size : frontier.reached.size = 2 * depth + 2
  offset : frontier.offset = depth

/-- The frontier has the furthest place that is reached on a diagonal with some number of edits. -/
structure Knows (old new : Array Text) (edits : Nat) (frontier : Frontier) (diagonal : Int) : Prop where
  reached : ∃ y : Nat, Reaches old new (0, 0) edits (frontier.get diagonal, y) ∧
    (frontier.get diagonal : Int) - y = diagonal
  furthest : ∀ {x y : Nat}, Reaches old new (0, 0) edits (x, y) → (x : Int) - y = diagonal →
    x ≤ frontier.get diagonal

/-- What a frontier is before the round with some number of edits. -/
def Ready (old new : Array Text) (frontier : Frontier) : Nat → Prop
  | 0 => frontier.get 1 = 0
  | edits + 1 => ∀ diagonal ∈ diagonals edits, frontier.Knows old new edits diagonal

variable {old new : Array Text} {frontier other : Frontier} {depth edits x y : Nat} {diagonal there : Int}

theorem Wide.set (hwide : frontier.Wide depth) : (frontier.set diagonal x).Wide depth :=
  ⟨Array.size_setIfInBounds.trans hwide.size, hwide.offset⟩

theorem Wide.get_set_ne (hwide : frontier.Wide depth) (hbound : diagonal.natAbs ≤ depth)
    (hbound' : there.natAbs ≤ depth) (hne : there ≠ diagonal) :
    (frontier.set diagonal x).get there = frontier.get there := by
  have hoffset := hwide.offset
  simp only [Frontier.set, get, Array.getD_eq_getD_getElem?]
  rw [Array.getElem?_setIfInBounds_ne (by omega)]

theorem Knows.congr (hknows : frontier.Knows old new edits diagonal) (hsame : other.get diagonal = frontier.get diagonal) :
    other.Knows old new edits diagonal := by
  obtain ⟨hreached, hfurthest⟩ := hknows
  refine ⟨?_, ?_⟩
  · rwa [hsame]
  · rwa [hsame]

/-- A round writes on other diagonals than those that it reads. -/
theorem Ready.set (hready : frontier.Ready old new edits) (hwide : frontier.Wide depth) (hdepth : edits < depth)
    (hdiagonal : diagonal ∈ diagonals edits) : (frontier.set diagonal x).Ready old new edits := by
  have hmem := mem_diagonals.mp hdiagonal
  cases edits with
  | zero =>
      change (frontier.set diagonal x).get 1 = 0
      rw [hwide.get_set_ne (by omega) (by omega) (by omega)]
      exact hready
  | succ edits =>
      intro there hthere
      have hmem' := mem_diagonals.mp hthere
      exact (hready there hthere).congr (hwide.get_set_ne (by omega) (by omega) (by omega))

end Frontier

section Rounds

variable {search : Search} {old new : Array Text} {frontier reached other front back : Frontier} {depth edits : Nat}
  {rest : List Int} {place stop : Place}

/-- Two searches that have not met leave no path for as many edits as they have made together. -/
theorem not_reaches_end (hback : back.Ready old.reverse new.reverse (edits + 1))
    (hapart : ∀ {x y : Nat}, Reaches old new (0, 0) (edits + 1) (x, y) →
      ((x : Int) - y - (old.size - new.size)).natAbs < edits + 1 →
      x + back.get ((old.size : Int) - new.size - (x - y)) < old.size) :
    ¬Reaches old new (0, 0) (2 * edits + 1) (old.size, new.size) := by
  intro hend
  obtain ⟨⟨x, y⟩, hfront, hrest⟩ := hend.split (show edits + 1 ≤ 2 * edits + 1 by omega)
  obtain ⟨hold, hnew⟩ := hrest.le
  have hreverse := hrest.reverse (Nat.le_refl _) (Nat.le_refl _)
  simp only [Nat.sub_self, show 2 * edits + 1 - (edits + 1) = edits by omega] at hold hnew hreverse
  have hmem := hreverse.mem_diagonals
  have hbounds := mem_diagonals.mp hmem
  simp only at hmem hbounds
  have hfurthest := (hback _ hmem).furthest hreverse rfl
  have hlt := hapart hfront (by omega)
  rw [show ((old.size - x : Nat) : Int) - (new.size - y : Nat) = (old.size : Int) - new.size - (x - y) by omega] at hfurthest
  omega

/-- No path to the end of both texts has fewer edits than the searches have made together before a round. This is asked only
where the lengths differ by an odd number: the search from the front looks for the other one only then. -/
def Far (old new : Array Text) (edits : Nat) : Prop :=
  (old.size + new.size) % 2 = 1 →
    ∀ {fewer : Nat}, Reaches old new (0, 0) fewer (old.size, new.size) → 2 * edits ≤ fewer + 1

theorem Far.next (hfar : Far old new edits) (hback : back.Ready old.reverse new.reverse edits)
    (hapart : (old.size + new.size) % 2 = 1 → ∀ {x y : Nat}, Reaches old new (0, 0) edits (x, y) →
      ((x : Int) - y - (old.size - new.size)).natAbs < edits →
      x + back.get ((old.size : Int) - new.size - (x - y)) < old.size) : Far old new (edits + 1) := by
  intro hodd fewer hend
  have hlong := hfar hodd hend
  have hparity := mem_diagonals.mp hend.mem_diagonals
  simp only at hparity
  cases edits with
  | zero => omega
  | succ edits =>
      have hne : fewer ≠ 2 * edits + 1 := by
        rintro rfl
        exact not_reaches_end hback (hapart hodd) hend
      omega

end Rounds

end GoGraft.Diff
