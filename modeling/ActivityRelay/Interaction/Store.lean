import ActivityRelay.Interaction.Program

/-!
# Programs on a store

The environment of a program has a state, and a relation says what a call does to it: `step o s r s'`
if the call `o` in the state `s` can be answered by `r` and leave the state `s'`. `Ends step p s a s'`
says that the program `p`, started in `s`, can return `a` and leave `s'`.
-/

namespace Interaction

universe u v w x

namespace Prog

variable {O : Type u} {R : O → Type v} {α β : Type w} {σ : Type x}
  {step : (o : O) → σ → R o → σ → Prop} {s s' : σ}

/-- The program can return the value and leave the second state, if it starts in the first one. -/
def Ends (step : (o : O) → σ → R o → σ → Prop) : Prog O R α → σ → α → σ → Prop
  | pure a, s, b, s' => a = b ∧ s = s'
  | call o k, s, b, s' => ∃ r s₁, step o s r s₁ ∧ (k r).Ends step s₁ b s'

@[simp]
theorem ends_pure {a b : α} :
  Ends step (Pure.pure a : Prog O R α) s b s' ↔ a = b ∧ s = s'
  := Iff.rfl

@[simp]
theorem ends_call {o : O} {k : R o → Prog O R α} {b : α} :
  Ends step (.call o k) s b s' ↔ ∃ r s₁, step o s r s₁ ∧ Ends step (k r) s₁ b s'
  := Iff.rfl

@[simp]
theorem ends_op {R : O → Type w} {step : (o : O) → σ → R o → σ → Prop} {o : O} {r : R o} :
  Ends step (op o : Prog O R (R o)) s r s' ↔ step o s r s'
  := by
  constructor
  · rintro ⟨r', s₁, hstep, rfl, rfl⟩
    exact hstep
  · intro hstep
    exact ⟨r, s', hstep, rfl, rfl⟩

/-- A sequence ends as its second part does, in the state and with the value that the first part
ends with. -/
theorem ends_bind (p : Prog O R α) (f : α → Prog O R β) {b : β} :
  Ends step (p >>= f) s b s' ↔ ∃ a s₁, Ends step p s a s₁ ∧ Ends step (f a) s₁ b s'
  := by
  induction p generalizing s with
  | pure a =>
    constructor
    · intro h
      exact ⟨a, s, ⟨rfl, rfl⟩, h⟩
    · rintro ⟨a', s₁, ⟨rfl, rfl⟩, h⟩
      exact h
  | call o k ih =>
    rw [call_bind, ends_call]
    simp only [ih]
    constructor
    · rintro ⟨r, s₁, hstep, a, s₂, hk, hf⟩
      exact ⟨a, s₂, ⟨r, s₁, hstep, hk⟩, hf⟩
    · rintro ⟨a, s₂, ⟨r, s₁, hstep, hk⟩, hf⟩
      exact ⟨r, s₁, hstep, a, s₂, hk, hf⟩

end Prog

end Interaction
