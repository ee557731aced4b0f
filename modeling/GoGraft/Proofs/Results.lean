import GoGraft.Attempt

/-! How results that may be errors come apart. A computation that succeeds succeeded in each of its steps;
proofs take it apart with these lemmas and do not open the monad. -/

namespace GoGraft

variable {ε ε' α β : Type}

theorem bind_eq_ok {x : Except ε α} {f : α → Except ε β} {b : β} :
    (x >>= f) = .ok b ↔ ∃ a, x = .ok a ∧ f a = .ok b := by
  cases x with
  | error e =>
      constructor
      · intro h
        cases h
      · rintro ⟨a, ha, -⟩
        cases ha
  | ok a =>
      constructor
      · intro h
        exact ⟨a, rfl, h⟩
      · rintro ⟨a', ha, hf⟩
        obtain rfl := Except.ok.inj ha
        exact hf

theorem bind_eq_error {x : Except ε α} {f : α → Except ε β} {e : ε} :
    (x >>= f) = .error e ↔ x = .error e ∨ ∃ a, x = .ok a ∧ f a = .error e := by
  cases x with
  | error cause => simp [Bind.bind, Except.bind]
  | ok a => simp [Bind.bind, Except.bind]

theorem pure_eq_ok {a b : α} : (pure a : Except ε α) = .ok b ↔ a = b := by
  constructor
  · intro h
    exact Except.ok.inj h
  · rintro rfl
    rfl

theorem mapError_eq_ok {x : Except ε α} {f : ε → ε'} {a : α} :
    x.mapError f = .ok a ↔ x = .ok a := by
  cases x with
  | error e => constructor <;> intro hok <;> cases hok
  | ok b =>
      change Except.ok b = .ok a ↔ _
      simp

theorem mapError_eq_error {x : Except ε α} {f : ε → ε'} {e' : ε'} :
    x.mapError f = .error e' ↔ ∃ e, x = .error e ∧ f e = e' := by
  cases x with
  | error e =>
      change Except.error (f e) = .error e' ↔ _
      simp
  | ok b =>
      change Except.ok b = .error e' ↔ _
      simp

theorem map_eq_ok {x : Except ε α} {f : α → β} {b : β} :
    x.map f = .ok b ↔ ∃ a, x = .ok a ∧ f a = b := by
  cases x with
  | error e => simp [Except.map]
  | ok a => simp [Except.map]

theorem exists_of_mem_mapM {f : α → Except ε β} {l : List α} {results : List β} (hmap : l.mapM f = .ok results)
    {b : β} (hb : b ∈ results) : ∃ a ∈ l, f a = .ok b := by
  induction l generalizing results with
  | nil =>
      obtain rfl := pure_eq_ok.mp (List.mapM_nil.symm.trans hmap)
      cases hb
  | cons a l ih =>
      rw [List.mapM_cons] at hmap
      obtain ⟨first, hfirst, hmap⟩ := bind_eq_ok.mp hmap
      obtain ⟨rest, hrest, hmap⟩ := bind_eq_ok.mp hmap
      obtain rfl := pure_eq_ok.mp hmap
      obtain rfl | hb := List.mem_cons.mp hb
      · exact ⟨a, List.mem_cons_self, hfirst⟩
      · obtain ⟨other, hother, hresult⟩ := ih hrest hb
        exact ⟨other, List.mem_cons_of_mem _ hother, hresult⟩

theorem eq_ok_of_toOption {x : Except ε α} {a : α} (hsome : x.toOption = some a) : x = .ok a := by
  cases x with
  | error e => cases hsome
  | ok b => exact congrArg _ (Option.some.inj hsome)

namespace Attempt

variable {σ : Type} {attempt : Attempt σ ε α} {next : σ → α → Attempt σ ε β} {repair : σ → σ} {after : σ} {a : α}
  {b : β} {e : ε}

theorem andThen_eq_ok :
    attempt.andThen next = ⟨after, .ok b⟩ ↔ ∃ state a, attempt = ⟨state, .ok a⟩ ∧ next state a = ⟨after, .ok b⟩ := by
  obtain ⟨state, result⟩ := attempt
  cases result with
  | error e => simp [andThen, fail]
  | ok a => simp [andThen, and_assoc]

theorem andThen_eq_error :
    attempt.andThen next = ⟨after, .error e⟩ ↔
      attempt = ⟨after, .error e⟩ ∨ ∃ state a, attempt = ⟨state, .ok a⟩ ∧ next state a = ⟨after, .error e⟩ := by
  obtain ⟨state, result⟩ := attempt
  cases result with
  | error e => simp [andThen, fail]
  | ok a => simp [andThen, and_assoc]

/-- The state and the value after a success. -/
def toOption (attempt : Attempt σ ε α) : Option (σ × α) :=
  attempt.result.toOption.map (attempt.state, ·)

theorem eq_of_toOption (hsome : attempt.toOption = some (after, a)) : attempt = ⟨after, .ok a⟩ := by
  obtain ⟨state, result⟩ := attempt
  obtain ⟨value, hvalue, hpair⟩ := Option.map_eq_some_iff.mp hsome
  obtain ⟨rfl, rfl⟩ := Prod.mk.inj hpair
  exact congrArg _ (eq_ok_of_toOption hvalue)

theorem state_andThen_ok (attempt : Attempt σ ε α) (b : β) :
    (attempt.andThen fun state _ => ok state b).state = attempt.state := by
  unfold andThen
  split <;> rfl

theorem onFailure_eq_ok : attempt.onFailure repair = ⟨after, .ok a⟩ ↔ attempt = ⟨after, .ok a⟩ := by
  obtain ⟨state, result⟩ := attempt
  cases result with
  | error e => simp [onFailure, fail]
  | ok a => simp [onFailure, ok]

theorem onFailure_eq_error :
    attempt.onFailure repair = ⟨after, .error e⟩ ↔ ∃ state, attempt = ⟨state, .error e⟩ ∧ repair state = after := by
  obtain ⟨state, result⟩ := attempt
  cases result with
  | error e => simp [onFailure, fail, and_comm, eq_comm]
  | ok a => simp [onFailure, ok]

end Attempt

end GoGraft
