import Mathlib.Logic.Basic

/-! # Computations that can fail

A computation in `Except ε` either returns or fails. The lemmas peel a sequence of computations
apart: it succeeds when all its parts do, and fails with the error of the first part that does. -/

namespace Machine

variable {ε α β : Type}

/-- A sequence of two computations succeeds when both do. -/
@[simp] theorem bind_eq_ok {x : Except ε α} {f : α → Except ε β} {b : β} :
    (x >>= f) = .ok b ↔ ∃ a, x = .ok a ∧ f a = .ok b := by
  cases x <;> simp [bind, Except.bind]

/-- A sequence of two computations fails when the first does, or the second after it. -/
theorem bind_eq_error {x : Except ε α} {f : α → Except ε β} {e : ε} :
    (x >>= f) = .error e ↔ x = .error e ∨ ∃ a, x = .ok a ∧ f a = .error e := by
  cases x <;> simp [bind, Except.bind]

@[simp] theorem map_eq_ok {x : Except ε α} {f : α → β} {b : β} :
    f <$> x = .ok b ↔ ∃ a, x = .ok a ∧ f a = b := by
  cases x <;> simp [Functor.map, Except.map]

@[simp] theorem pure_eq_ok {a b : α} : (pure a : Except ε α) = .ok b ↔ a = b := by
  simp [pure, Except.pure]

/-- A computation fails exactly when it never returns. -/
theorem isError_iff {x : Except ε α} : (∃ e, x = .error e) ↔ ∀ a, x ≠ .ok a := by
  cases x <;> simp

end Machine
