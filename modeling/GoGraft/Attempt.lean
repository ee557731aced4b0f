/-! Work on a state that can fail. The state is there afterwards, however the work ends. -/

namespace GoGraft

/-- A state after some work on it, and how the work ended. -/
structure Attempt (σ ε α : Type) where
  state : σ
  result : Except ε α
deriving Repr

namespace Attempt

variable {σ ε α β : Type}

def ok (state : σ) (value : α) : Attempt σ ε α :=
  ⟨state, .ok value⟩

def fail (state : σ) (error : ε) : Attempt σ ε α :=
  ⟨state, .error error⟩

/-- Work that goes on only after success. -/
def andThen (attempt : Attempt σ ε α) (next : σ → α → Attempt σ ε β) : Attempt σ ε β :=
  match attempt.result with
  | .ok value => next attempt.state value
  | .error error => fail attempt.state error

/-- Puts a state right after a failure. -/
def onFailure (attempt : Attempt σ ε α) (repair : σ → σ) : Attempt σ ε α :=
  match attempt.result with
  | .ok value => ok attempt.state value
  | .error error => fail (repair attempt.state) error

end Attempt

end GoGraft
