import GoGraft.File.Structure
import GoGraft.Proofs.Reads

/-! Where the lexemes of a declaration stand in its text. -/

namespace GoGraft.Structure

open Grammar

theorem place_append (start : Nat) (left right : List Marked) :
    place start (left ++ right) = place start left ++ place (start + (sourceOf left).length) right := by
  induction left generalizing start with
  | nil => simp [place]
  | cons marked left ih =>
      rw [List.cons_append, place, place, ih, sourceOf_cons, List.length_append, Nat.add_assoc]
      rfl

@[simp]
theorem map_marked_place (start : Nat) (marked : List Marked) :
    (place start marked).map Placed.marked = marked := by
  induction marked generalizing start with
  | nil => rfl
  | cons first rest ih => simp [place, ih]

theorem mem_place {start : Nat} {marked : List Marked} {m : Marked} (hmem : m ∈ marked) :
    ∃ placed ∈ place start marked, placed.marked = m := by
  rw [← map_marked_place start marked] at hmem
  exact List.mem_map.mp hmem

theorem forall_place {start : Nat} {marked : List Marked} {p : Marked → Prop} (hmarked : ∀ m ∈ marked, p m) :
    ∀ placed ∈ place start marked, p placed.marked := by
  intro placed hplaced
  apply hmarked
  rw [← map_marked_place start marked]
  exact List.mem_map_of_mem hplaced

theorem place_eq_append {start : Nat} {marked : List Marked} {left right : List Placed}
    (hplace : place start marked = left ++ right) :
    ∃ before after, marked = before ++ after ∧ left = place start before ∧
      right = place (start + (sourceOf before).length) after := by
  have hmarked := congrArg (List.map Placed.marked) hplace
  rw [map_marked_place, List.map_append] at hmarked
  have hboth : left ++ right = place start (left.map Placed.marked) ++
      place (start + (sourceOf (left.map Placed.marked)).length) (right.map Placed.marked) := by
    rw [← hplace, hmarked, place_append]
  have hlength : left.length = (place start (left.map Placed.marked)).length := by
    rw [← List.length_map Placed.marked, ← List.length_map Placed.marked, map_marked_place]
  obtain ⟨hleft, hright⟩ := List.append_inj hboth hlength
  exact ⟨_, _, hmarked, hleft, hright⟩

theorem head?_place {start : Nat} {marked : List Marked} {first : Placed}
    (hfirst : (place start marked).head? = some first) :
    first.start = start ∧ marked.head? = some first.marked := by
  cases marked with
  | nil => cases hfirst
  | cons m rest =>
      obtain rfl := Option.some.inj hfirst
      exact ⟨rfl, rfl⟩

theorem getLast?_place {start : Nat} {marked : List Marked} {last : Placed}
    (hlast : (place start marked).getLast? = some last) :
    last.stop = start + (sourceOf marked).length ∧ marked.getLast? = some last.marked := by
  obtain ⟨front, hfront⟩ := List.getLast?_eq_some_iff.mp hlast
  obtain ⟨before, after, rfl, -, hafter⟩ := place_eq_append hfront
  cases after with
  | nil => cases hafter
  | cons m rest =>
      obtain ⟨rfl, hrest⟩ := List.cons.inj hafter
      obtain rfl : rest = [] := by
        rw [← map_marked_place _ rest, ← hrest]
        rfl
      constructor
      · simp [Placed.stop, Placed.text, Nat.add_assoc]
      · exact List.getLast?_concat

theorem find?_place_append {start : Nat} {before after : List Marked} {m : Marked} {p : Marked → Bool}
    (hbefore : ∀ other ∈ before, ¬ p other) (hm : p m) :
    (place start (before ++ m :: after)).find? (fun placed => p placed.marked) =
      some ⟨start + (sourceOf before).length, m⟩ := by
  have hnone : (place start before).find? (fun placed => p placed.marked) = none := by
    rw [List.find?_eq_none]
    intro placed hplaced
    apply hbefore placed.marked
    rw [← map_marked_place start before]
    exact List.mem_map_of_mem hplaced
  rw [place_append, List.find?_append, hnone, Option.none_or, place]
  exact List.find?_cons_of_pos hm

theorem isIndent_lineIndent {before indent : Text} (hindent : Text.lineIndent before = some indent) :
    indent.all Text.isIndent := by
  unfold Text.lineIndent at hindent
  dsimp only at hindent
  split at hindent
  · rename_i hall
    obtain rfl := Option.some.inj hindent
    exact hall
  · cases hindent

theorem unquote_quoted (path : Text) : unquote ('\x22' :: (path ++ ['\x22'])) = path := by
  have hlast : ('\x22' :: (path ++ ['\x22'])).getLast? = some '\x22' := by
    rw [← List.cons_append]
    exact List.getLast?_concat
  simp [unquote, hlast]

end GoGraft.Structure
