import ActivityRelay.Deliver.FanOut

/-!
# The shared counter of a fan-out

What `remain_count` and the stored body of a fan-out mean over whole runs, first when the
broker executes a task once for each attempt, and then when it may execute a task again
because its worker stopped after it had finished its target and before the task was
acknowledged. The counter is decremented for each execution and not for each target, so in
the second case the body can be deleted while another target still needs it.
-/

namespace Deliver

open GoString HttpSignature Interaction Transition

variable {U : CaseTable} {configured : Option Profile} {f : FanOut} {t₀ : ℤ} {s s' t : State f.size}
  {e : Event f.size} {i : Fin f.size} {again : Prop} {es : List (Event f.size)}

/-! ### One execution for each attempt -/

/-- Without repeated executions, only a target that is not settled runs the finish
script. -/
theorem Sound.not_settled_of_finishes (hs : Sound False f t₀ s) (h : e.finishes i s = true) :
  s.settled i = false
  := by
  cases e with
  | exec j remote =>
    simp only [Event.finishes, Bool.and_eq_true, beq_iff_eq] at h
    obtain ⟨rfl, hfin⟩ := h
    obtain ⟨n, hn⟩ := hs.job j
    cases hj : s.job j with
    | queued | done => simp [hj, Job.finishing] at hfin
    | running sig w =>
      rw [hj] at hn
      obtain ⟨-, -, ⟨m, -, -, hset | hset⟩ | ⟨hw, -⟩⟩ := hn
      · apply hset
      · exact hset.elim
      · obtain ⟨r, rfl, -⟩ := follows_finished hw
        simp [hj, Job.finishing] at hfin
  | tick | start | ack => simp [Event.finishes] at h

theorem Sound.step_once (hs : Sound False f t₀ s) (h : step U configured s e = some s') :
  Sound False f t₀ s'
  := by
  apply hs.of_step _ h
  intro i hfin hset
  rw [hs.not_settled_of_finishes hfin] at hset
  cases hset

/-- Up to its expiry, the stored activity is there exactly as long as a target is not
settled, with the body and the number of these targets. -/
theorem Sound.get_activity (hs : Sound again f t₀ s) (hnow : s.now ≤ expiry t₀) :
  s.activity.get s.now =
    if unsettled s.settled = ∅ then none
    else some ⟨some f.body, some ((unsettled s.settled).card : ℤ)⟩
  := by
  rw [hs.count hnow]
  cases hu : (unsettled s.settled).card with
  | zero =>
    rw [if_pos (Finset.card_eq_zero.mp hu)]
    rfl
  | succ u =>
    have hne : unsettled s.settled ≠ ∅ := by
      intro h
      rw [h] at hu
      cases hu
    rw [if_neg hne, get_stored hnow]
    simp

/-- An activity that is absent stays absent. -/
theorem Sound.get_none_step (hs : Sound again f t₀ s) (hnone : s.activity.get s.now = none)
    (h : step U configured s e = some s') :
  s'.activity.get s'.now = none
  := by
  cases step_effect hs.job h with
  | tick d =>
    have hle : s.now ≤ s.now + (d : ℤ) := by omega
    apply Redis.Cell.get_none_of_later hle hnone
  | move i j => apply hnone
  | finish i remote j =>
    rw [finishScript_absent hnone]
    apply hnone

theorem Sound.absent_iff (hs : Sound again f t₀ s) (hnow : s.now ≤ expiry t₀) :
  s.activity.get s.now = none ↔ unsettled s.settled = ∅
  := by
  rw [hs.get_activity hnow]
  simp

/-- The hash goes away exactly at the finish script of the last target that is not
settled. -/
theorem Sound.deleted_iff (hs : Sound False f t₀ s) (h : step U configured s e = some s')
    (hnow : s'.now ≤ expiry t₀) :
  (s.activity.get s.now ≠ none ∧ s'.activity.get s'.now = none) ↔
    ∃ i, e.finishes i s = true ∧ unsettled s.settled = {i}
  := by
  rw [(hs.step_once h).absent_iff hnow]
  cases step_effect hs.job h with
  | tick d he =>
    dsimp only at hnow ⊢
    rw [ne_eq, hs.absent_iff (by omega), he]
    simp [Event.finishes]
  | move i j he hfin =>
    rw [ne_eq, hs.absent_iff hnow]
    simp [hfin, State.setJob]
  | finish i remote j he hfin =>
    have hfinishes : e.finishes i s = true := by
      rw [he]
      simp [Event.finishes, hfin]
    have hmem := mem_unsettled.mpr (hs.not_settled_of_finishes hfinishes)
    rw [ne_eq, hs.absent_iff hnow, unsettled_update]
    constructor
    · rintro ⟨-, herase⟩
      use i, hfinishes
      rw [← Finset.insert_erase hmem, herase, insert_empty_eq]
    · rintro ⟨i', hfin', hsingle⟩
      have hi : i = i' := by
        rw [hsingle, Finset.mem_singleton] at hmem
        apply hmem
      rw [hsingle, hi, Finset.erase_singleton]
      simp

/-- A target whose job is not done can take part in an event. -/
theorem exists_event_of_unsettled (hs : Sound again f t₀ s) (hi : s.settled i = false) :
  ∃ e, e.target? = some i ∧ (step U configured s e).isSome
  := by
  obtain ⟨n, hn⟩ := hs.job i
  cases hj : s.job i with
  | queued sig =>
    use .start i, rfl
    simp [step, hj]
  | running sig w =>
    cases w with
    | pure r =>
      use .ack i, rfl
      simp [step, hj]
    | call o k =>
      use .exec i .delivered, rfl
      simp [step, hj]
  | done =>
    rw [hj] at hn
    have hset : s.settled i = true := hn
    rw [hi] at hset
    cases hset

/-- A run in which the target `i` may still be part of `n` events has at most `n` of
them. -/
theorem count_events_le {n : ℕ} (hs : Sound False f t₀ s)
    (hn : JobSound False f i (s.settled i) n (s.job i))
    (h : run (step U configured) s es = some t) :
  countSteps (step U configured) (fun _ e => e.target? == some i) s es ≤ n
  := by
  have hcredit : ∀ s e s' n, Sound False f t₀ s ∧ JobSound False f i (s.settled i) n (s.job i) →
      True → step U configured s e = some s' →
      ∃ m, (Sound False f t₀ s' ∧ JobSound False f i (s'.settled i) m (s'.job i)) ∧
        m + (if e.target? == some i then 1 else 0) ≤ n := by
    rintro s e s' n ⟨hs, hn⟩ - h
    have hs' := hs.step_once h
    cases step_effect hs.job h with
    | tick d he =>
      use n, ⟨hs', hn⟩
      simp [he, Event.target?]
    | move i' j he hfin hjob =>
      by_cases hi : i = i'
      · subst hi
        obtain ⟨m, hm, hj⟩ := hjob n hn
        exact ⟨m, ⟨hs', by simpa [State.setJob] using hj⟩, by simpa [he] using hm⟩
      · exact ⟨n, ⟨hs', by simpa [State.setJob, hi] using hn⟩, by simp [he, Ne.symm hi]⟩
    | finish i' remote j he hfin hagain hjob =>
      by_cases hi : i = i'
      · subst hi
        obtain ⟨m, hm, hj⟩ := hjob n hn
        exact ⟨m, ⟨hs', by simpa using hj⟩, by simpa [he, Event.target?] using hm⟩
      · exact ⟨n, ⟨hs', by simpa [hi] using hn⟩, by simp [he, Event.target?, Ne.symm hi]⟩
  obtain ⟨m, -, hle⟩ := countSteps_le_of_credit hcredit ⟨hs, hn⟩ (meets_true s es) h
  omega

/-- A run has at most as many attempts of a target as its job has left. -/
theorem count_starts_le (i : Fin f.size) (hs : Sound False f t₀ s)
    (h : run (step U configured) s es = some t) :
  countSteps (step U configured) (fun _ e => e == .start i) s es ≤ (s.job i).attemptsLeft
  := by
  have hcredit : ∀ s e s' n, Sound False f t₀ s ∧ (s.job i).attemptsLeft ≤ n → True →
      step U configured s e = some s' →
      ∃ m, (Sound False f t₀ s' ∧ (s'.job i).attemptsLeft ≤ m) ∧
        m + (if e == .start i then 1 else 0) ≤ n := by
    rintro s e s' n ⟨hs, hn⟩ - h
    have hs' := hs.step_once h
    cases step_effect hs.job h with
    | tick d he =>
      use n, ⟨hs', hn⟩
      simp [he]
    | move i' j he hfin hjob hstart =>
      by_cases hi : i = i'
      · subst hi
        refine ⟨j.attemptsLeft, ⟨hs', by simp [State.setJob]⟩, ?_⟩
        simp only [beq_iff_eq]
        omega
      · refine ⟨n, ⟨hs', by simpa [State.setJob, hi] using hn⟩, ?_⟩
        have hne : e ≠ .start i := by
          rintro rfl
          simp only [Event.target?, Option.some.injEq] at he
          apply hi he
        simp [hne]
    | finish i' remote j he hfin hagain hjob hstart =>
      by_cases hi : i = i'
      · subst hi
        refine ⟨j.attemptsLeft, ⟨hs', by simp⟩, ?_⟩
        simp only [he, beq_iff_eq, reduceCtorEq, if_false]
        omega
      · exact ⟨n, ⟨hs', by simpa [hi] using hn⟩, by simp [he]⟩
  obtain ⟨m, -, hle⟩ := countSteps_le_of_credit hcredit ⟨hs, le_refl _⟩ (meets_true s es) h
  omega

/-- A target runs the finish script once up to the time it is settled, and not again. -/
theorem count_finishes (i : Fin f.size) (hs : Sound False f t₀ s)
    (h : run (step U configured) s es = some t) :
  countSteps (step U configured) (fun s e => e.finishes i s) s es + (!t.settled i).toNat =
    (!s.settled i).toNat
  := by
  apply countSteps_add_eq (I := Sound False f t₀) (b := fun s => (!s.settled i).toNat) _ _ hs h
  · intro s e s' hs h
    apply hs.step_once h
  intro s e s' hs h
  cases step_effect hs.job h with
  | tick d he => simp [he, Event.finishes]
  | move i' j he hfin hjob => simp [State.setJob, hfin]
  | finish i' remote j he hfin hagain hjob =>
    by_cases hi : i' = i
    · subst hi
      have hset : s.settled i' = false := hagain.resolve_right id
      simp [he, Event.finishes, hfin, hset]
    · simp [he, Event.finishes, hi, Ne.symm hi]

/-- An activity that is absent stays absent over a run. -/
theorem get_none_run (hs : Sound False f t₀ s) (hnone : s.activity.get s.now = none)
    (h : run (step U configured) s es = some t) :
  t.activity.get t.now = none
  := by
  have hboth := run_invariant
    (P := fun s => Sound False f t₀ s ∧ s.activity.get s.now = none)
    (fun s e s' hs h => ⟨hs.1.step_once h, hs.1.get_none_step hs.2 h⟩) ⟨hs, hnone⟩ h
  apply hboth.2

theorem Sound.loadBody (hs : Sound again f t₀ s) (hnow : s.now ≤ expiry t₀)
    (hi : s.settled i = false) :
  Deliver.loadBody s.now s.activity = some f.body
  := by
  have hne : unsettled s.settled ≠ ∅ := Finset.ne_empty_of_mem (mem_unsettled.mpr hi)
  rw [Deliver.loadBody, hs.get_activity hnow, if_neg hne]
  rfl

/-- Every reachable state of a fan-out. Until the key expires, the hash holds the body and
counts the targets that have neither succeeded nor exhausted their retries, every such
target can read the body, and the hash is deleted exactly by the finish script of the last
of them. A hash that is gone is never made again. A target makes at most one attempt more
than it has retries, runs the finish script exactly once when it is settled and never
before, and, as long as it is not settled, can go on, for a bounded number of events. -/
theorem fanOut_accounting (U : CaseTable) (configured : Option Profile) (f : FanOut) (t₀ : ℤ)
    {es : List (Event f.size)} {s : State f.size}
    (h : run (step U configured) (f.init t₀) es = some s) :
  (s.now ≤ expiry t₀ →
    s.activity.get s.now =
      (if unsettled s.settled = ∅ then none
        else some ⟨some f.body, some ((unsettled s.settled).card : ℤ)⟩) ∧
    ∀ i, s.settled i = false → loadBody s.now s.activity = some f.body) ∧
  (∀ e s', step U configured s e = some s' → s'.now ≤ expiry t₀ →
    ((s.activity.get s.now ≠ none ∧ s'.activity.get s'.now = none) ↔
      ∃ i, e.finishes i s = true ∧ unsettled s.settled = {i})) ∧
  (∀ es' t, run (step U configured) s es' = some t → s.activity.get s.now = none →
    t.activity.get t.now = none) ∧
  (∀ i : Fin f.size,
    (countSteps (step U configured) (fun _ e => e == .start i) (f.init t₀) es : ℤ)
      ≤ retryCount + 1 ∧
    countSteps (step U configured) (fun s e => e.finishes i s) (f.init t₀) es
      = (if s.settled i then 1 else 0) ∧
    (s.settled i = false → ∃ e, e.target? = some i ∧ (step U configured s e).isSome) ∧
    (countSteps (step U configured) (fun _ e => e.target? == some i) (f.init t₀) es : ℤ)
      ≤ 5 * (retryCount + 1))
  := by
  have hinit := Sound.init False f t₀
  have hs : Sound False f t₀ s := run_invariant (fun _ _ _ hs h => hs.step_once h) hinit h
  refine ⟨?_, ?_, ?_, ?_⟩
  · intro hnow
    exact ⟨hs.get_activity hnow, fun i hi => hs.loadBody hnow hi⟩
  · intro e s' he hnow
    apply hs.deleted_iff he hnow
  · intro es' t ht hnone
    apply get_none_run hs hnone ht
  · intro i
    refine ⟨?_, ?_, exists_event_of_unsettled hs, ?_⟩
    · have hle := count_starts_le i hinit h
      have hleft : ((f.init t₀).job i).attemptsLeft = 6 := rfl
      have hretry : retryCount + 1 = 6 := rfl
      omega
    · have heq := count_finishes i hinit h
      have hfalse : (f.init t₀).settled i = false := rfl
      rw [hfalse] at heq
      cases hset : s.settled i with
      | true | false => simpa [hset] using heq
    · have hjob : JobSound False f i ((f.init t₀).settled i) 30 ((f.init t₀).job i) :=
        ⟨rfl, show (0 : ℤ) ≤ 5 by decide, le_refl 30, .inl rfl⟩
      have hle := count_events_le hinit hjob h
      have hretry : 5 * (retryCount + 1) = 30 := rfl
      omega

/-- A fan-out with two targets. -/
def pairFanOut : FanOut where
  activityID := lit "1b4e28ba"
  body := lit "activity"
  targets :=
    [⟨lit "task_a", lit "https://a.example/inbox", .rfc9421, by decide⟩,
      ⟨lit "task_b", lit "https://b.example/inbox", .legacy, by decide⟩]
  nonempty := by decide

/-- The two targets when their tasks have been queued. -/
def pairInit : State 2 := pairFanOut.init 0

/-- The events of an attempt of `i` that loads the body and is answered by `remote`, up to
the finish script or the return of the worker. -/
def attemptEvents (i : Fin 2) (remote : SendReply) : List (Event 2) :=
  [.start i, .exec i remote, .exec i remote, .exec i remote]

/-- The second target fails once and is queued again, and the first one is delivered. -/
def pairEvents : List (Event 2) :=
  (attemptEvents 1 .failed).take 3 ++ [.ack 1] ++ attemptEvents 0 .delivered

/-- One target succeeds while the other fails once: the body is left for the other. -/
theorem fanOut_accounting_pair :
  ∃ s, run (step .identity none) (pairFanOut.init 0) pairEvents = some s ∧
    loadBody s.now s.activity = some pairFanOut.body ∧
    countSteps (step .identity none) (fun s e => e.finishes (0 : Fin 2) s) (pairFanOut.init 0)
      pairEvents = 1
  := by
  have hrun := (Option.some_get (x := run (step .identity none) (pairFanOut.init 0) pairEvents)
    rfl).symm
  obtain ⟨hstored, -, -, htargets⟩ := fanOut_accounting .identity none pairFanOut 0 hrun
  refine ⟨_, hrun, ?_, ?_⟩
  · apply (hstored (by decide)).2 (1 : Fin 2) rfl
  · apply (htargets (0 : Fin 2)).2.1

/-! ### Repeated executions -/

/-- The events of a fan-out whose broker may execute a task again. -/
inductive AgainEvent (n : ℕ)
  | ordinary (e : Event n)
  | redeliver (i : Fin n)
  deriving DecidableEq

/-- One step of a fan-out whose broker may queue a task again after its worker has
delivered the activity and finished the target, and before the task is acknowledged. -/
def stepAgain (U : CaseTable) (configured : Option Profile) {n : ℕ} (s : State n) :
    AgainEvent n → Option (State n)
  | .ordinary e => step U configured s e
  | .redeliver i =>
      match s.job i with
      | .running sig (.pure (.ok _)) => some (s.setJob i (.queued sig))
      | _ => none

/-- No target that is settled is finished again while another one is not settled. -/
def FinishedOnce {n : ℕ} (s : State n) : AgainEvent n → Prop
  | .ordinary e => ∀ i, e.finishes i s = true → s.settled i = true → unsettled s.settled = ∅
  | .redeliver _ => True

instance {n : ℕ} (s : State n) (e : AgainEvent n) : Decidable (FinishedOnce s e) := by
  cases e <;> dsimp only [FinishedOnce] <;> infer_instance

theorem Sound.step_again {e : AgainEvent f.size} (hs : Sound True f t₀ s) (honce : FinishedOnce s e)
    (h : stepAgain U configured s e = some s') :
  Sound True f t₀ s'
  := by
  cases e with
  | ordinary e => apply hs.of_step honce h
  | redeliver i =>
    obtain ⟨n, hn⟩ := hs.job i
    simp only [stepAgain] at h
    split at h
    · rename_i sig _ hj
      cases h
      rw [hj] at hn
      obtain ⟨hargs, hretry, -⟩ := hn
      refine ⟨?_, hs.shape, hs.count⟩
      intro i'
      have hall := jobSound_update (i := i) (b := s.settled i) (j := .queued sig) hs.job
        ⟨_, hargs, hretry, le_refl _, .inr trivial⟩ i'
      rwa [Function.update_eq_self] at hall
    · cases h

/-- When tasks may be executed again, the body of a fan-out is there for every target that
has neither succeeded nor exhausted its retries, in every run in which no settled target is
finished again while another one is not settled. -/
theorem body_kept_of_finishedOnce (U : CaseTable) (configured : Option Profile) (f : FanOut)
    (t₀ : ℤ) {es : List (AgainEvent f.size)} {s : State f.size}
    (hrun : run (stepAgain U configured) (f.init t₀) es = some s)
    (honce : Meets (stepAgain U configured) FinishedOnce (f.init t₀) es)
    (hnow : s.now ≤ expiry t₀) :
  ∀ i, s.settled i = false → loadBody s.now s.activity = some f.body
  := by
  intro i hi
  have hs : Sound True f t₀ s :=
    run_invariant_of_meets (fun _ _ _ hs honce h => hs.step_again honce h) (.init True f t₀)
      honce hrun
  apply hs.loadBody hnow hi

/-- The first target is delivered and finished, and its task is executed again up to the
second finish script. -/
def executedAgain : List (AgainEvent 2) :=
  (attemptEvents 0 .delivered).map .ordinary ++ [.redeliver 0] ++
    ((attemptEvents 0 .delivered).take 3).map .ordinary

/-- The body is still there when a task is executed again and has not run the finish script
a second time. -/
theorem body_kept_before_second_finish :
  ∃ s, run (stepAgain .identity none) (pairFanOut.init 0) executedAgain = some s ∧
    s.settled (0 : Fin 2) = true ∧ loadBody s.now s.activity = some pairFanOut.body
  := by
  have hrun := (Option.some_get
    (x := run (stepAgain .identity none) (pairFanOut.init 0) executedAgain) rfl).symm
  have honce : Meets (stepAgain .identity none) FinishedOnce pairInit executedAgain := by decide
  refine ⟨_, hrun, rfl, ?_⟩
  apply body_kept_of_finishedOnce .identity none pairFanOut 0 hrun honce (by decide) (1 : Fin 2) rfl

/-- The second finish script of the first target deletes the body that the second target
has not read. -/
theorem body_deleted_by_second_finish :
  ∃ s, run (stepAgain .identity none) (pairFanOut.init 0)
      (executedAgain ++ [.ordinary (.exec 0 .delivered)]) = some s ∧
    s.now ≤ expiry 0 ∧ s.settled (1 : Fin 2) = false ∧ loadBody s.now s.activity = none
  := by
  exact ⟨_, rfl, by decide, rfl, rfl⟩

end Deliver
