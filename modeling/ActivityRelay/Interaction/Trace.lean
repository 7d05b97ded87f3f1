import ActivityRelay.Interaction.Program

/-!
# Runs of a program

`Runs p τ a` says that the program `p` makes the calls of the trace `τ`, each with the reply that
the trace has for it, and returns `a`. A property of all runs of a program is derived from the
properties of its parts, since a run of a sequence is a run of the first part followed by one of
the second (`runs_bind`).

An environment that answers by the number of calls so far determines one of the runs
(`runs_exec`).
-/

namespace Interaction

universe u v w

namespace Prog

variable {O : Type u} {R : O → Type v} {α β : Type w} {τ : List ((o : O) × R o)} {b : β}

/-- The calls of the trace are those of a run that returns the value. -/
inductive Runs : Prog O R α → List ((o : O) × R o) → α → Prop
  | pure (a : α) : Runs (.pure a) [] a
  | call (o : O) (k : R o → Prog O R α) (r : R o) (τ : List ((o : O) × R o)) (a : α)
      (rest : Runs (k r) τ a) : Runs (.call o k) (⟨o, r⟩ :: τ) a

@[simp]
theorem runs_pure {a b : α} :
  Runs (Pure.pure a : Prog O R α) τ b ↔ τ = [] ∧ a = b
  := by
  constructor
  · intro h
    cases h with
    | pure a => exact ⟨rfl, rfl⟩
  · rintro ⟨rfl, rfl⟩
    exact .pure a

@[simp]
theorem runs_call {o : O} {k : R o → Prog O R α} {a : α} :
  Runs (.call o k) τ a ↔ ∃ r τ', τ = ⟨o, r⟩ :: τ' ∧ Runs (k r) τ' a
  := by
  constructor
  · intro h
    cases h with
    | call _ _ r τ' _ rest => exact ⟨r, τ', rfl, rest⟩
  · rintro ⟨r, τ', rfl, rest⟩
    exact .call o k r τ' a rest

/-- A run of a sequence. -/
theorem runs_bind (p : Prog O R α) (f : α → Prog O R β) :
  Runs (p >>= f) τ b ↔ ∃ τ₁ τ₂ a, τ = τ₁ ++ τ₂ ∧ Runs p τ₁ a ∧ Runs (f a) τ₂ b
  := by
  induction p generalizing τ with
  | pure a =>
    constructor
    · intro h
      exact ⟨[], τ, a, rfl, .pure a, h⟩
    · rintro ⟨τ₁, τ₂, a', rfl, h₁, h₂⟩
      cases h₁ with
      | pure a => exact h₂
  | call o k ih =>
    rw [call_bind, runs_call]
    constructor
    · rintro ⟨r, τ', rfl, h⟩
      obtain ⟨τ₁, τ₂, a, rfl, h₁, h₂⟩ := (ih r).mp h
      exact ⟨⟨o, r⟩ :: τ₁, τ₂, a, rfl, .call o k r τ₁ a h₁, h₂⟩
    · rintro ⟨τ₁, τ₂, a, rfl, h₁, h₂⟩
      obtain ⟨r, τ', rfl, h⟩ := runs_call.mp h₁
      exact ⟨r, τ' ++ τ₂, rfl, (ih r).mpr ⟨τ', τ₂, a, rfl, h, h₂⟩⟩

/-- A run of a program that makes one call first. -/
theorem runs_op {R : O → Type w} {τ : List ((o : O) × R o)} {o : O} {f : R o → Prog O R β} :
  Runs (op o >>= f) τ b ↔ ∃ r τ', τ = ⟨o, r⟩ :: τ' ∧ Runs (f r) τ' b
  := runs_call

theorem exists_runs_bind {p : Prog O R α} {f : α → Prog O R β} {a : α} (hp : ∃ τ, Runs p τ a)
    (hf : ∃ τ, Runs (f a) τ b) :
  ∃ τ, Runs (p >>= f) τ b
  := by
  obtain ⟨τ₁, h₁⟩ := hp
  obtain ⟨τ₂, h₂⟩ := hf
  exact ⟨τ₁ ++ τ₂, (runs_bind p f).mpr ⟨τ₁, τ₂, a, rfl, h₁, h₂⟩⟩

/-- A run goes on after any reply to its first call. -/
theorem exists_runs_op {R : O → Type w} {o : O} {f : R o → Prog O R β} (r : R o)
    (h : ∃ τ, Runs (f r) τ b) :
  ∃ τ, Runs (op o >>= f) τ b
  := by
  obtain ⟨τ, hτ⟩ := h
  exact ⟨⟨o, r⟩ :: τ, runs_op.mpr ⟨r, τ, rfl, hτ⟩⟩

/-! ### Environments -/

/-- The trace and the value of a program whose calls are answered by `reply`, which is given the
number of the call. -/
def exec (reply : ℕ → (o : O) → R o) : Prog O R α → List ((o : O) × R o) × α
  | pure a => ([], a)
  | call o k =>
      let rest := (k (reply 0 o)).exec (fun n => reply (n + 1))
      (⟨o, reply 0 o⟩ :: rest.1, rest.2)

theorem runs_exec (reply : ℕ → (o : O) → R o) (p : Prog O R α) :
  Runs p (p.exec reply).1 (p.exec reply).2
  := by
  induction p generalizing reply with
  | pure a => exact .pure a
  | call o k ih => exact .call o k _ _ _ (ih _ _)

end Prog

end Interaction
