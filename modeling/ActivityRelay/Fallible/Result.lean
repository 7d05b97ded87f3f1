import Mathlib.Tactic.Common

/-!
# Results of functions that may fail

A function that may fail returns an `Except`. The lemmas say what is known of the parts of a
computation once its result is known: of a sequence, of a check before the rest, and of a result
whose value or error is replaced.
-/

namespace Fallible

variable {ε ε' α β : Type} {x : Except ε α}

/-- What a computation returns is returned by its last part, for what its first part returns. -/
theorem bind_eq_ok {f : α → Except ε β} {b : β} :
  (x >>= f) = .ok b ↔ ∃ a, x = .ok a ∧ f a = .ok b
  := by
  cases x with
  | error | ok => simp [bind, Except.bind]

/-- What is accepted after a check has passed the check. -/
theorem check_eq_ok {p : Prop} [Decidable p] {e : ε} {a : α}
    (h : (if p then .error e else x) = Except.ok a) :
  ¬ p ∧ x = .ok a
  := by
  split at h
  · cases h
  · exact ⟨‹_›, h⟩

theorem map_eq_ok {f : α → β} {b : β} (h : x.map f = .ok b) :
  ∃ a, x = .ok a ∧ f a = b
  := by
  cases x with
  | error e => cases h
  | ok a => exact ⟨a, rfl, Except.ok.inj h⟩

theorem mapError_ok_iff (f : ε → ε') (x : Except ε α) (a : α) :
  x.mapError f = .ok a ↔ x = .ok a
  := by
  unfold Except.mapError
  split <;> simp

theorem mapError_eq_error {f : ε → ε'} {e : ε'} (h : x.mapError f = .error e) :
  ∃ e', e = f e'
  := by
  cases x with
  | error e' => exact ⟨e', (Except.error.inj h).symm⟩
  | ok a => cases h

theorem eq_ok_of_toOption {a : α} (h : x.toOption = some a) :
  x = .ok a
  := by
  cases x with
  | error e => cases h
  | ok b =>
    cases h
    rfl

end Fallible
