import Mathlib.Algebra.Order.Ring.Int
import Mathlib.Data.Fintype.Basic
import Mathlib.Data.List.Basic
import Mathlib.Data.Option.Basic

/-!
# Runs of partial transition functions

A system is given by a partial function `step : σ → ε → Option σ`: `step s e` is the state
after the event `e` in the state `s`, and `none` if `e` cannot happen in `s`. Whatever a
step leaves open (the outcome of a request, a clock reading, the process that moves) is
part of the event, so a run is a list of events.

The rules below are the ones by which statements about one step become statements about
whole runs: invariants (`run_invariant`), invariants of runs whose steps meet a condition
(`run_invariant_of_meets`), invariants of runs in time (`run_invariant_of_times`), and bounds on the
number of steps of a kind (`countSteps_le_of_credit`).
-/

namespace Transition

-- The processes of a small system are the numerals of `Fin 1` and `Fin 2`.
instance neZeroOne : NeZero (1 : ℕ) := ⟨Nat.one_ne_zero⟩
instance neZeroTwo : NeZero (2 : ℕ) := ⟨two_ne_zero⟩

variable {σ ε : Type*} (step : σ → ε → Option σ)

/-- The state after the events of a list, or `none` if one of them cannot happen. -/
def run : σ → List ε → Option σ
  | s, [] => some s
  | s, e :: es => (step s e).bind (fun s' => run s' es)

/-- Every step of the run of `es` from `s` satisfies `C`, in the state before it. -/
def Meets (C : σ → ε → Prop) : σ → List ε → Prop
  | _, [] => True
  | s, e :: es => C s e ∧ ∀ s', step s e = some s' → Meets C s' es

/-- The number of steps of the run of `es` from `s` that satisfy `P` in the state before
them. -/
def countSteps (P : σ → ε → Bool) : σ → List ε → ℕ
  | _, [] => 0
  | s, e :: es =>
      (if P s e then 1 else 0) + ((step s e).elim 0 (fun s' => countSteps P s' es))

variable {step} {es es' : List ε} {s t : σ} {C D : σ → ε → Prop} {P : σ → ε → Bool}

theorem run_cons (s : σ) (e : ε) (es : List ε) :
  run step s (e :: es) = (step s e).bind (fun s' => run step s' es)
  := rfl

/-- A run that starts with `e` takes the step `e`, and then runs the rest. -/
theorem run_cons_eq_some {e : ε} :
  run step s (e :: es) = some t ↔ ∃ s', step s e = some s' ∧ run step s' es = some t
  := by
  rw [run_cons, Option.bind_eq_some_iff]

/-- The run of a concatenation is the run of the first part followed by that of the
second. -/
theorem run_append (s : σ) (es es' : List ε) :
  run step s (es ++ es') = (run step s es).bind (fun t => run step t es')
  := by
  induction es generalizing s with
  | nil => rfl
  | cons e es ih =>
    rw [List.cons_append, run_cons, run_cons, Option.bind_assoc]
    congr
    funext s'
    apply ih

/-- The run of a concatenation passes through the state the first part ends in. -/
theorem run_append_eq_some :
  run step s (es ++ es') = some t ↔ ∃ u, run step s es = some u ∧ run step u es' = some t
  := by
  rw [run_append, Option.bind_eq_some_iff]

/-- What every step preserves holds at the end of every run that starts in it. -/
theorem run_invariant {P : σ → Prop} (hstep : ∀ s e s', P s → step s e = some s' → P s') {s t : σ}
    {es : List ε} (hs : P s) (h : run step s es = some t) :
  P t
  := by
  induction es generalizing s with
  | nil =>
    cases h
    apply hs
  | cons e es ih =>
    obtain ⟨s', he, hes⟩ := run_cons_eq_some.mp h
    apply ih (hstep s e s' hs he) hes

/-- What every step that satisfies `C` preserves holds at the end of every run that starts
in it and all of whose steps satisfy `C`. -/
theorem run_invariant_of_meets {P : σ → Prop}
    (hstep : ∀ s e s', P s → C s e → step s e = some s' → P s') {s t : σ} {es : List ε} (hs : P s)
    (hC : Meets step C s es) (h : run step s es = some t) :
  P t
  := by
  induction es generalizing s with
  | nil =>
    cases h
    apply hs
  | cons e es ih =>
    obtain ⟨s', he, hes⟩ := run_cons_eq_some.mp h
    obtain ⟨hCe, hCes⟩ := hC
    apply ih (hstep s e s' hs hCe he) (hCes s' he) hes

/-- Events have times, and what holds at a time holds at all later ones. If every event preserves
what holds at its own time, and no event is earlier than the ones before it, then it holds at the
end of the run, at every time that no event is later than. -/
theorem run_invariant_of_times {τ : Type*} [Preorder τ] {time : ε → τ} {P : τ → σ → Prop}
    {Q : ε → Prop} (hlater : ∀ d d' s, d ≤ d' → P d s → P d' s)
    (hstep : ∀ s e s', Q e → P (time e) s → step s e = some s' → P (time e) s') {s t : σ}
    {es : List ε} (hs : ∀ d, P d s) (hQ : ∀ e ∈ es, Q e) (htimes : es.Pairwise (fun e e' => time e ≤ time e'))
    (h : run step s es = some t) {d : τ} (hd : ∀ e ∈ es, time e ≤ d) :
  P d t
  := by
  -- on the events before the last one, which are not later than it
  induction es using List.reverseRecOn generalizing t d with
  | nil =>
    cases h
    apply hs
  | append_singleton es e ih =>
    obtain ⟨u, hes, hlast⟩ := run_append_eq_some.mp h
    obtain ⟨t', he, ht⟩ := run_cons_eq_some.mp hlast
    cases ht
    rw [List.pairwise_append] at htimes
    obtain ⟨htimes, -, hle⟩ := htimes
    have hbefore : P (time e) u := by
      apply ih (fun e' he' => hQ e' (List.mem_append_left _ he')) htimes hes
      intro e' he'
      exact hle e' he' e (List.mem_singleton_self e)
    have hmem : e ∈ es ++ [e] := List.mem_append_right _ (List.mem_singleton_self e)
    exact hlater _ _ _ (hd e hmem) (hstep u e _ (hQ e hmem) hbefore he)

/-- Whether the steps of a run satisfy a decidable condition can be computed. -/
instance decidableMeets {C : σ → ε → Prop} [∀ s e, Decidable (C s e)] :
    (s : σ) → (es : List ε) → Decidable (Meets step C s es)
  | _, [] => .isTrue trivial
  | s, e :: es =>
      match h : step s e with
      | none => decidable_of_iff (C s e) (by simp [Meets, h])
      | some s' =>
          have := decidableMeets (C := C) s' es
          decidable_of_iff (C s e ∧ Meets step C s' es) (by simp [Meets, h])

/-- A condition on the steps of a run may be weakened. -/
theorem Meets.mono (hCD : ∀ s e, C s e → D s e) (h : Meets step C s es) :
  Meets step D s es
  := by
  induction es generalizing s with
  | nil => trivial
  | cons e es ih =>
    constructor
    · apply hCD s e h.1
    · intro s' he
      apply ih (h.2 s' he)

/-- Two conditions on the steps of a run may be joined. -/
theorem Meets.and (hC : Meets step C s es) (hD : Meets step D s es) :
  Meets step (fun s e => C s e ∧ D s e) s es
  := by
  induction es generalizing s with
  | nil => trivial
  | cons e es ih => exact ⟨⟨hC.1, hD.1⟩, fun s' he => ih (hC.2 s' he) (hD.2 s' he)⟩

theorem meets_true (s : σ) (es : List ε) :
  Meets step (fun _ _ => True) s es
  := by
  induction es generalizing s with
  | nil => trivial
  | cons e es ih => exact ⟨trivial, fun s' _ => ih s'⟩

/-- A condition on events alone holds along a run if it holds of each of them. -/
theorem meets_of_forall_mem {D : ε → Prop} (h : ∀ e ∈ es, D e) (s : σ) :
  Meets step (fun _ e => D e) s es
  := by
  induction es generalizing s with
  | nil => trivial
  | cons e es ih =>
    rw [List.forall_mem_cons] at h
    exact ⟨h.1, fun s' _ => ih h.2 s'⟩

/-- The steps of the first part of a run satisfy what the steps of the run satisfy. -/
theorem Meets.left (h : Meets step C s (es ++ es')) :
  Meets step C s es
  := by
  induction es generalizing s with
  | nil => trivial
  | cons e es ih =>
    constructor
    · apply h.1
    · intro s' he
      apply ih (h.2 s' he)

/-- A run whose two parts satisfy a condition satisfies it. -/
theorem Meets.append (h : Meets step C s es)
    (h' : ∀ u, run step s es = some u → Meets step C u es') :
  Meets step C s (es ++ es')
  := by
  induction es generalizing s with
  | nil => exact h' s rfl
  | cons e es ih =>
    refine ⟨h.1, ?_⟩
    intro s' he
    apply ih (h.2 s' he)
    intro u hu
    exact h' u (run_cons_eq_some.mpr ⟨s', he, hu⟩)

/-- The steps of the second part of a run satisfy what the steps of the run satisfy. -/
theorem Meets.right {u : σ} (h : Meets step C s (es ++ es')) (hu : run step s es = some u) :
  Meets step C u es'
  := by
  induction es generalizing s with
  | nil =>
    cases hu
    apply h
  | cons e es ih =>
    obtain ⟨s', he, hes⟩ := run_cons_eq_some.mp hu
    apply ih (h.2 s' he) hes

/-- If every step that satisfies `P` uses up one unit of a credit and no step adds to it,
then a run has at most as many steps that satisfy `P` as the credit at its start, less what
is left of it at its end. `B s n` says that the credit `n` is enough for `s`. -/
theorem countSteps_le_of_credit {B : σ → ℕ → Prop}
    (hB : ∀ s e s' n, B s n → C s e → step s e = some s' →
      ∃ m, B s' m ∧ m + (if P s e then 1 else 0) ≤ n) {s t : σ} {es : List ε} {n : ℕ} (hs : B s n)
    (hC : Meets step C s es) (h : run step s es = some t) :
  ∃ m, B t m ∧ countSteps step P s es + m ≤ n
  := by
  induction es generalizing s n with
  | nil =>
    cases h
    use n, hs
    simp [countSteps]
  | cons e es ih =>
    obtain ⟨s', he, hes⟩ := run_cons_eq_some.mp h
    obtain ⟨hCe, hCes⟩ := hC
    obtain ⟨m, hm, hle⟩ := hB s e s' n hs hCe he
    obtain ⟨l, hl, hrest⟩ := ih hm (hCes s' he) hes
    use l, hl
    simp only [countSteps, he, Option.elim]
    omega

/-- If a quantity `b` goes down by one at the steps that satisfy `P` and stays at all
others, then it goes down by the number of these steps along a run. -/
theorem countSteps_add_eq {I : σ → Prop} {b : σ → ℕ}
    (hI : ∀ s e s', I s → step s e = some s' → I s')
    (hb : ∀ s e s', I s → step s e = some s' → b s' + (if P s e then 1 else 0) = b s) {s t : σ}
    {es : List ε} (hs : I s) (h : run step s es = some t) :
  countSteps step P s es + b t = b s
  := by
  induction es generalizing s with
  | nil =>
    cases h
    simp [countSteps]
  | cons e es ih =>
    obtain ⟨s', he, hes⟩ := run_cons_eq_some.mp h
    have hrest := ih (hI s e s' hs he) hes
    have hstep := hb s e s' hs he
    simp only [countSteps, he, Option.elim]
    omega

end Transition
