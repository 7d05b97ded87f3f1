import ActivityRelay.Interaction.Trace

/-!
# Programs that may panic

A program that stops when a pointer that is nil is dereferenced or a type assertion fails. The calls
that it has made before that are in its trace.
-/

namespace Interaction

universe u

namespace Prog

variable {O : Type u} {R : O → Type} {α β : Type}

/-- A program of which some steps may panic. -/
abbrev Panicking (O : Type u) (R : O → Type) (α : Type) := OptionT (Prog O R) α

/-- The value of a pointer or of a type assertion, with `none` if there is none. -/
def deref (value : Option α) : Panicking O R α := OptionT.mk (pure value)

/-- No run ends in a panic, whatever the replies. -/
def NeverPanics (p : Panicking O R α) : Prop := ∀ τ result, Runs p.run τ result → result ≠ none

@[simp]
theorem neverPanics_pure (a : α) :
  NeverPanics (Pure.pure a : Panicking O R α)
  := by
  intro τ result h
  obtain ⟨-, rfl⟩ := runs_pure.mp h
  exact Option.some_ne_none a

@[simp]
theorem neverPanics_deref_bind (value : Option α) (f : α → Panicking O R β) :
  NeverPanics (deref value >>= f) ↔ ∃ a, value = some a ∧ NeverPanics (f a)
  := by
  cases value with
  | none =>
    constructor
    · intro h
      exact absurd rfl (h [] none (.pure none))
    · rintro ⟨a, ⟨⟩, -⟩
  | some a =>
    constructor
    · intro h
      exact ⟨a, rfl, h⟩
    · rintro ⟨a', heq, h⟩
      cases heq
      exact h

/-- A part that cannot panic. -/
theorem run_lift_bind (p : Prog O R α) (f : α → Panicking O R β) :
  (OptionT.lift p >>= f).run = p >>= fun a => (f a).run
  := by
  induction p with
  | pure a => rfl
  | call o k ih => exact congrArg (Prog.call o) (funext ih)

theorem neverPanics_lift_bind (p : Prog O R α) (f : α → Panicking O R β) :
  NeverPanics (OptionT.lift p >>= f) ↔ ∀ τ a, Runs p τ a → NeverPanics (f a)
  := by
  constructor
  · intro h τ a hp τ' result hf
    apply h (τ ++ τ') result
    rw [run_lift_bind]
    exact (runs_bind p _).mpr ⟨τ, τ', a, rfl, hp, hf⟩
  · intro h τ result hresult
    rw [run_lift_bind] at hresult
    obtain ⟨τ₁, τ₂, a, rfl, hp, hf⟩ := (runs_bind p _).mp hresult
    exact h τ₁ a hp τ₂ result hf

@[simp]
theorem neverPanics_op_bind (o : O) (f : R o → Panicking O R β) :
  NeverPanics (OptionT.lift (op o) >>= f) ↔ ∀ r, NeverPanics (f r)
  := by
  rw [neverPanics_lift_bind]
  constructor
  · intro h r
    exact h [⟨o, r⟩] r (.call o _ r [] r (.pure r))
  · intro h τ r _
    exact h r

end Prog

end Interaction
