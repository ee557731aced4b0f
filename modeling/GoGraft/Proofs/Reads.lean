import GoGraft.Grammar.Outline
import GoGraft.Proofs.Lexemes

/-! Runs of the grammar's machine. A run is determined by the stack that it starts from and the lexemes that it
reads, so that two texts that begin alike are read alike as far as they are the same. -/

namespace GoGraft.Grammar

/-- The machine reads some lexemes, gives them their roles, and goes from one stack to another. -/
inductive Reads : List Frame → List Marked → List Frame → Prop where
  | refl (stack : List Frame) : Reads stack [] stack
  | step {stack next final : List Frame} {marked : Marked} {rest : List Marked}
      (hadvance : advance stack marked.kind = some (marked.role, next))
      (hrest : Reads next rest final) :
      Reads stack (marked :: rest) final

namespace Reads

variable {start middle final : List Frame} {left right : List Marked}

theorem append (hleft : Reads start left middle) (hright : Reads middle right final) :
    Reads start (left ++ right) final := by
  induction hleft with
  | refl => exact hright
  | step hadvance _ ih => exact .step hadvance (ih hright)

theorem of_append (hreads : Reads start (left ++ right) final) :
    ∃ middle, Reads start left middle ∧ Reads middle right final := by
  induction left generalizing start with
  | nil => exact ⟨start, .refl start, hreads⟩
  | cons marked left ih =>
      cases hreads with
      | step hadvance hrest =>
          obtain ⟨middle, hleft, hright⟩ := ih hrest
          exact ⟨middle, .step hadvance hleft, hright⟩

theorem continue_from {more : List Lexeme} (hleft : Reads start left middle)
    (hright : Reads start right final)
    (hlexemes : right.map Marked.lexeme = left.map Marked.lexeme ++ more) :
    ∃ rest, right = left ++ rest ∧ rest.map Marked.lexeme = more ∧ Reads middle rest final := by
  induction hleft generalizing right with
  | refl => exact ⟨right, rfl, hlexemes, hright⟩
  | @step stack next _ marked rest hadvance _ ih =>
      cases hright with
      | refl => cases hlexemes
      | @step _ next' _ marked' rest' hadvance' hrest' =>
          obtain ⟨hlexeme, hmore⟩ := List.cons.inj hlexemes
          have hkind : marked'.kind = marked.kind := congrArg Lexeme.kind hlexeme
          rw [hkind, hadvance] at hadvance'
          obtain ⟨hrole, rfl⟩ := Prod.mk.inj (Option.some.inj hadvance')
          obtain rfl : marked' = marked := by
            cases marked
            cases marked'
            simp_all
          obtain ⟨tail, rfl, htail, hreads⟩ := ih hrest' hmore
          exact ⟨tail, rfl, htail, hreads⟩

theorem foldlM_step {lexemes : List Lexeme} {stack : List Frame} {read : List Marked}
    {state : State} (hfold : lexemes.foldlM State.step ⟨stack, read⟩ = some state) :
    ∃ marked, Reads stack marked state.stack ∧ marked.map Marked.lexeme = lexemes ∧
      state.read = marked.reverse ++ read := by
  induction lexemes generalizing stack read with
  | nil =>
      obtain rfl := Option.some.inj hfold
      exact ⟨[], .refl stack, rfl, rfl⟩
  | cons lexeme lexemes ih =>
      rw [List.foldlM_cons] at hfold
      obtain ⟨next, hstep, hfold⟩ := Option.bind_eq_some_iff.mp hfold
      obtain ⟨⟨role, stack'⟩, hadvance, hnext⟩ := Option.bind_eq_some_iff.mp hstep
      obtain rfl := Option.some.inj hnext
      obtain ⟨marked, hreads, hlexemes, hread⟩ := ih hfold
      refine ⟨⟨lexeme, role⟩ :: marked, .step hadvance hreads, by simp [hlexemes], ?_⟩
      rw [hread]
      simp

end Reads

/-- An accepted file is a run from the start of an item back to it. -/
theorem reads_of_parse {lexemes : List Lexeme} {marked : List Marked}
    (hparse : parse lexemes = some marked) :
    Reads fileStack marked fileStack ∧ marked.map Marked.lexeme = lexemes := by
  obtain ⟨state, hfold, hparse⟩ := Option.bind_eq_some_iff.mp hparse
  obtain ⟨marked', hreads, hlexemes, hread⟩ := Reads.foldlM_step hfold
  split at hparse
  · rename_i hstack
    obtain rfl := Option.some.inj hparse
    have hmarked : state.read.reverse = marked' := by simp [hread]
    rw [hmarked]
    exact ⟨hstack ▸ hreads, hlexemes⟩
  · cases hparse

@[simp]
theorem sourceOf_nil : sourceOf [] = [] := rfl

@[simp]
theorem sourceOf_cons (marked : Marked) (rest : List Marked) :
    sourceOf (marked :: rest) = marked.text ++ sourceOf rest := by
  simp [sourceOf]

@[simp]
theorem sourceOf_append (left right : List Marked) :
    sourceOf (left ++ right) = sourceOf left ++ sourceOf right := by
  simp [sourceOf]

theorem source_map_lexeme (marked : List Marked) :
    Lexeme.source (marked.map Marked.lexeme) = sourceOf marked := by
  simp only [Lexeme.source, sourceOf, List.flatMap_map]
  rfl

end GoGraft.Grammar
