import Mathlib.Tactic.Common

/-!
# Programs that call an environment

A program of the type `Prog O R α` is a tree: it has returned a value of `α`, or it calls an
operation `o : O` of its environment and goes on depending on the reply, a value of `R o`.
Sequencing makes programs a monad, so that a function of a source language with calls to a
database, a clock or a peer is written with `do`, call by call. Processes that run at the
same time are then interleaved at their calls.

A *protocol* says which calls are allowed in which phase and how a reply changes the phase.
`Follows` is the property of a program to keep to a protocol and to return only in phases
and with values that satisfy a postcondition. It is established once for a program, from
its text, by the rules below; an invariant of interleaved processes has then to be checked
for the calls of the protocol only, and not for the points of the program.
-/

namespace Interaction

universe u v w

/-- A program that returns a value of `α` and calls the operations `O` with replies `R`. -/
inductive Prog (O : Type u) (R : O → Type v) (α : Type w) : Type (max u v w)
  | pure (a : α) : Prog O R α
  | call (o : O) (k : R o → Prog O R α) : Prog O R α

namespace Prog

variable {O : Type u} {R : O → Type v} {α β : Type w}

/-- Run a program, and then the program that its value determines. -/
def bind : Prog O R α → (α → Prog O R β) → Prog O R β
  | pure a, f => f a
  | call o k, f => call o (fun r => (k r).bind f)

instance : Monad (Prog O R) where
  pure := Prog.pure
  bind := Prog.bind

/-- The program that makes one call and returns the reply. -/
def op {R : O → Type w} (o : O) : Prog O R (R o) := call o Prog.pure

/-- The value of a program in an environment whose replies do not depend on earlier calls. -/
def eval (reply : (o : O) → R o) : Prog O R α → α
  | pure a => a
  | call o k => (k (reply o)).eval reply

/-- The value of a program that has returned. -/
def value? : Prog O R α → Option α
  | pure a => some a
  | call _ _ => none

/-- The call a program is about to make. -/
def next? : Prog O R α → Option O
  | pure _ => none
  | call o _ => some o

@[simp]
theorem call_bind (o : O) (k : R o → Prog O R α) (f : α → Prog O R β) :
  call o k >>= f = call o (fun r => k r >>= f)
  := rfl

@[simp]
theorem op_bind {R : O → Type w} (o : O) (f : R o → Prog O R β) :
  op o >>= f = call o f
  := rfl

/-! ### The calls of a program -/

/-- The program makes the call, for some replies to the calls before it. -/
def Makes (o : O) : Prog O R α → Prop
  | pure _ => False
  | call o' k => o' = o ∨ ∃ r, (k r).Makes o

/-- The program returns the value, for some replies to its calls. -/
def Returns (a : α) : Prog O R α → Prop
  | pure a' => a' = a
  | call _ k => ∃ r, (k r).Returns a

section Makes

variable {o o' : O} {a : α} {k : R o' → Prog O R α}

@[simp]
theorem makes_pure (a : α) :
  ¬ Makes o (Pure.pure a : Prog O R α)
  := not_false

@[simp]
theorem makes_call :
  (call o' k).Makes o ↔ o' = o ∨ ∃ r, (k r).Makes o
  := Iff.rfl

@[simp]
theorem makes_op {R : O → Type w} :
  (op o' : Prog O R (R o')).Makes o ↔ o' = o
  := by
  change o' = o ∨ (∃ _ : R o', False) ↔ o' = o
  simp only [exists_false, or_false]

@[simp]
theorem returns_pure {a' : α} :
  Returns a (Pure.pure a' : Prog O R α) ↔ a' = a
  := Iff.rfl

@[simp]
theorem returns_call :
  (call o' k).Returns a ↔ ∃ r, (k r).Returns a
  := Iff.rfl

/-- A sequence makes the calls of its first part, and those of its second part for the values
that the first one returns. -/
theorem makes_bind {o : O} (p : Prog O R α) (f : α → Prog O R β) :
  (p >>= f).Makes o ↔ p.Makes o ∨ ∃ a, p.Returns a ∧ (f a).Makes o
  := by
  induction p with
  | pure a =>
    change (f a).Makes o ↔ False ∨ ∃ a', a = a' ∧ (f a').Makes o
    simp only [false_or, exists_eq_left']
  | call o' k ih =>
    rw [call_bind, makes_call, makes_call]
    simp only [ih, returns_call]
    constructor
    · rintro (h | ⟨r, h | ⟨a, ha, h⟩⟩)
      · exact .inl (.inl h)
      · exact .inl (.inr ⟨r, h⟩)
      · exact .inr ⟨a, ⟨r, ha⟩, h⟩
    · rintro ((h | ⟨r, h⟩) | ⟨a, ⟨r, ha⟩, h⟩)
      · exact .inl h
      · exact .inr ⟨r, .inl h⟩
      · exact .inr ⟨r, .inr ⟨a, ha, h⟩⟩

end Makes

/-- Every call that the program can make has the property. -/
def AllCalls (P : O → Prop) : Prog O R α → Prop
  | pure _ => True
  | call o k => P o ∧ ∀ r, (k r).AllCalls P

section AllCalls

variable {P : O → Prop}

@[simp]
theorem allCalls_pure (a : α) :
  AllCalls P (Pure.pure a : Prog O R α)
  := trivial

/-- The rule for sequences. -/
theorem AllCalls.bind {p : Prog O R α} {f : α → Prog O R β} (hp : p.AllCalls P)
    (hf : ∀ a, (f a).AllCalls P) :
  (p >>= f).AllCalls P
  := by
  induction p with
  | pure a => exact hf a
  | call o k ih => exact ⟨hp.1, fun r => ih r (hp.2 r)⟩

theorem AllCalls.of_makes {p : Prog O R α} (hp : p.AllCalls P) {o : O} (h : p.Makes o) :
  P o
  := by
  induction p with
  | pure a => exact h.elim
  | call o' k ih =>
    obtain rfl | ⟨r, hr⟩ := h
    · exact hp.1
    · exact ih r (hp.2 r) hr

end AllCalls

end Prog

/-! ### Protocols -/

/-- The calls that are allowed in a phase, and the phase after a call and its reply. -/
structure Protocol (O : Type u) (R : O → Type v) (Φ : Type w) where
  allows : Φ → O → Prop
  next : Φ → (o : O) → R o → Φ

namespace Protocol

variable {O : Type u} {R : O → Type v} {Φ : Type*} {α β : Type w} (A : Protocol O R Φ)

/-- From the phase `φ` on, the program makes only calls the protocol allows, and it returns
a value `a` only in a phase `ψ` with `Q ψ a`. -/
def Follows (Q : Φ → α → Prop) : Φ → Prog O R α → Prop
  | φ, .pure a => Q φ a
  | φ, .call o k => A.allows φ o ∧ ∀ r, Follows Q (A.next φ o r) (k r)

variable {A} {Q Q' : Φ → α → Prop} {φ : Φ}

@[simp]
theorem follows_pure (a : α) :
  A.Follows Q φ (Pure.pure a) ↔ Q φ a
  := Iff.rfl

@[simp]
theorem follows_call (o : O) (k : R o → Prog O R α) :
  A.Follows Q φ (.call o k) ↔ A.allows φ o ∧ ∀ r, A.Follows Q (A.next φ o r) (k r)
  := Iff.rfl

/-- A program that makes one call first. -/
theorem follows_op {R : O → Type w} {A : Protocol O R Φ} {Q : Φ → β → Prop} {o : O}
    {f : R o → Prog O R β} :
  A.Follows Q φ (Prog.op o >>= f) ↔ A.allows φ o ∧ ∀ r, A.Follows Q (A.next φ o r) (f r)
  := Iff.rfl

/-- The postcondition may be weakened. -/
theorem Follows.mono (hQ : ∀ φ a, Q φ a → Q' φ a) {p : Prog O R α} (h : A.Follows Q φ p) :
  A.Follows Q' φ p
  := by
  induction p generalizing φ with
  | pure a => apply hQ φ a h
  | call o k ih =>
    use h.1
    intro r
    apply ih r (h.2 r)

/-- A sequence follows the protocol if its first part does, up to phases and values from
which its second part does. -/
theorem follows_bind {Q : Φ → β → Prop} (p : Prog O R α) (f : α → Prog O R β) :
  A.Follows Q φ (p >>= f) ↔ A.Follows (fun ψ a => A.Follows Q ψ (f a)) φ p
  := by
  induction p generalizing φ with
  | pure a => rfl
  | call o k ih =>
    rw [Prog.call_bind, follows_call, follows_call]
    simp only [ih]

end Protocol

end Interaction
