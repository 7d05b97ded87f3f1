import Mathlib.Data.Fintype.Card
import ActivityRelay.Deliver.Task
import ActivityRelay.Transition.Run

/-!
# A fan-out and its workers

A fan-out is one stored activity with one task for each target. The broker hands a queued
task to a worker, runs the worker's calls one at a time and in any order among the targets,
and queues a task again after an error while it has retries. Every Redis command succeeds;
what an inbox answers is part of the event.

A target is *settled* once its worker has returned success, or an error with no retries
left. `Sound` is the invariant that ties the stored activity to the targets that are not
settled. It is kept by every step that does not finish a settled target while another one
is not (`Sound.of_step`).
-/

namespace Deliver

open Function GoString HttpSignature Interaction Redis Transition

/-- A target of a fan-out; its profile was chosen when the task was queued. -/
structure Target where
  uuid : GoString
  inboxURL : GoString
  profile : Profile
  wire : profile ≠ .dual

/-- An activity to be delivered to at least one target. -/
structure FanOut where
  activityID : GoString
  body : GoString
  targets : List Target
  nonempty : targets ≠ []

abbrev FanOut.size (f : FanOut) : ℕ := f.targets.length

/-- The task that is queued for a target. -/
def FanOut.task (f : FanOut) (i : Fin f.size) : Signature :=
  let target := f.targets.get i
  relayTaskWithProfile target.uuid target.inboxURL f.activityID target.profile

/-- What the broker holds of a task: it is queued, a worker runs it, or it is
acknowledged for good. -/
inductive Job
  | queued (s : Signature)
  | running (s : Signature) (w : Worker)
  | done

/-- The state of a fan-out. `settled` records the targets whose worker has returned success
or a last error. -/
structure State (n : ℕ) where
  now : ℤ
  activity : Cell ActivityHash
  job : Fin n → Job
  settled : Fin n → Bool

/-- What can happen to a fan-out: time passes, a worker takes a queued task, a worker makes
its next call (a delivery is answered by `remote`), and the broker takes the result of a
worker. -/
inductive Event (n : ℕ)
  | tick (milliseconds : ℕ)
  | start (i : Fin n)
  | exec (i : Fin n) (remote : SendReply)
  | ack (i : Fin n)
  deriving DecidableEq

/-- The target an event is about. -/
def Event.target? {n : ℕ} : Event n → Option (Fin n)
  | tick _ => none
  | start i => some i
  | exec i _ => some i
  | ack i => some i

/-- The reply to a call, and the stored activity after it. -/
def respond (now : ℤ) (c : Cell ActivityHash) (remote : SendReply) :
    (o : RelayOp) → o.Reply × Cell ActivityHash
  | .load _ => ((loadBody now c).elim .absent .body, c)
  | .send _ _ _ => (remote, c)
  | .finish _ => (some (finishScript now c).2, (finishScript now c).1)

/-- The worker has returned success, or an error with no retries left. -/
def settles (s : Signature) : Worker → Bool
  | .pure (.ok _) => true
  | .pure (.error _) => s.retryCount ≤ 0
  | .call _ _ => false

/-- What becomes of a task whose worker has returned. -/
def acknowledge (s : Signature) : Except RelayError Unit → Job
  | .ok _ => .done
  | .error _ => if 0 < s.retryCount then .queued s.retry else .done

/-- The worker of a target is about to run the finish script. -/
def Job.finishing : Job → Bool
  | .running _ (.call (.finish _) _) => true
  | _ => false

/-- The state with another job for a target. -/
def State.setJob {n : ℕ} (s : State n) (i : Fin n) (j : Job) : State n :=
  { s with job := update s.job i j }

/-- The targets that have neither succeeded nor exhausted their retries. -/
def unsettled {n : ℕ} (settled : Fin n → Bool) : Finset (Fin n) :=
  Finset.univ.filter (fun i => settled i = false)

theorem mem_unsettled {n : ℕ} {settled : Fin n → Bool} {i : Fin n} :
  i ∈ unsettled settled ↔ settled i = false
  := by
  simp [unsettled]

/-- A target that settles leaves the others as they are. -/
theorem unsettled_update {n : ℕ} (settled : Fin n → Bool) (i : Fin n) :
  unsettled (update settled i true) = (unsettled settled).erase i
  := by
  ext j
  rw [Finset.mem_erase, mem_unsettled, mem_unsettled]
  by_cases hj : j = i
  · simp [hj]
  · simp [hj]

section System

variable (U : CaseTable) (configured : Option Profile)

/-- One step of a fan-out. -/
def step {n : ℕ} (s : State n) : Event n → Option (State n)
  | .tick d => some { s with now := s.now + d }
  | .start i =>
      match s.job i with
      | .queued sig =>
          some (s.setJob i (.running sig (relayActivityV2 U configured (some sig) sig.args)))
      | _ => none
  | .exec i remote =>
      match s.job i with
      | .running sig (.call o k) =>
          let r := respond s.now s.activity remote o
          some
            { now := s.now
              activity := r.2
              job := update s.job i (.running sig (k r.1))
              settled := update s.settled i (s.settled i || settles sig (k r.1)) }
      | _ => none
  | .ack i =>
      match s.job i with
      | .running sig (.pure r) => some (s.setJob i (acknowledge sig r))
      | _ => none

/-- The fan-out when its activity has been stored and its tasks have been queued. -/
def FanOut.init (f : FanOut) (now : ℤ) : State f.size where
  now := now
  activity := storeRelayActivity now f.body f.size none
  job i := .queued (f.task i)
  settled _ := false

end System

/-! ### The jobs of a fan-out -/

section Jobs

theorem follows_finished {Q : Phase → Except RelayError Unit → Prop} :
  ∀ {w : Worker}, relayProtocol.Follows Q .finished w → ∃ r, w = .pure r ∧ Q .finished r
  | .pure r, h => ⟨r, rfl, h⟩
  | .call _ _, h => h.1.elim

theorem settles_active {s : Signature} {m : ℕ} :
  ∀ {w : Worker}, relayProtocol.Follows (relayReturns s.retryCount) (.active m) w →
    settles s w = false
  | .pure (.ok _), h => absurd rfl h.1
  | .pure (.error _), h => decide_eq_false (Int.not_le.mpr h.2)
  | .call _ _, _ => rfl

theorem settles_finished {s : Signature} {w : Worker}
    (h : relayProtocol.Follows (relayReturns s.retryCount) .finished w) :
  settles s w = true
  := by
  obtain ⟨r, rfl, hr⟩ := follows_finished h
  cases r with
  | ok => rfl
  | error e =>
    rcases hr with hr | hr
    · cases hr
    · apply decide_eq_true hr

/-- The job of the target `i` is what the broker and the worker can make of its task, and it
takes at most `n` more events. A job that can still run the finish script belongs to a
target that is not settled, unless tasks may be executed `again`. -/
def JobSound (again : Prop) (f : FanOut) (i : Fin f.size) (settled : Bool) (n : ℕ) : Job → Prop
  | .queued s =>
      s.args = (f.task i).args ∧ 0 ≤ s.retryCount ∧ 5 * (s.retryCount.toNat + 1) ≤ n ∧
        (settled = false ∨ again)
  | .running s w =>
      s.args = (f.task i).args ∧ 0 ≤ s.retryCount ∧
        ((∃ m, relayProtocol.Follows (relayReturns s.retryCount) (.active m) w ∧
            m + 1 + 5 * s.retryCount.toNat ≤ n ∧ (settled = false ∨ again)) ∨
          relayProtocol.Follows (relayReturns s.retryCount) .finished w ∧ settled = true ∧ 1 ≤ n)
  | .done => settled = true

/-- The event that takes the job `j` to the job `j'` uses up one of the events that are left
for `j`. -/
def Uses (again : Prop) (f : FanOut) (i : Fin f.size) (settled : Bool) (j : Job)
    (settled' : Bool) (j' : Job) : Prop :=
  ∀ n, JobSound again f i settled n j → ∃ m, m + 1 ≤ n ∧ JobSound again f i settled' m j'

variable {again : Prop} {f : FanOut} {i : Fin f.size} {b : Bool}

theorem uses_start (U : CaseTable) (configured : Option Profile) (s : Signature) :
  Uses again f i b (.queued s) b (.running s (relayActivityV2 U configured (some s) s.args))
  := by
  rintro n ⟨hargs, hretry, hn, hb⟩
  use n - 1, by omega
  refine ⟨hargs, hretry, .inl ⟨3, ?_, by omega, hb⟩⟩
  rw [hargs]
  apply relayActivityV2_follows U configured s _ _ (f.targets.get i).wire

variable (again) in
/-- A call other than the finish script leaves the attempt active. -/
theorem uses_call {s : Signature} {o : RelayOp} {k : o.Reply → Worker} (ho : ∀ id, o ≠ .finish id)
    (r : o.Reply) :
  Uses again f i b (.running s (.call o k)) b (.running s (k r)) ∧
    (∀ n, JobSound again f i b n (.running s (.call o k)) → settles s (k r) = false)
  := by
  have hnext : ∀ m, relayProtocol.next (.active m) o r = .active (m - 1) := by
    intro m
    cases o with
    | finish id => exact absurd rfl (ho id)
    | load | send => rfl
  constructor
  · rintro n ⟨hargs, hretry, ⟨m, ⟨hm, hk⟩, hn, hb⟩ | ⟨⟨hm, -⟩, -⟩⟩
    · have hpos : 0 < m := hm
      use n - 1, by omega
      refine ⟨hargs, hretry, .inl ⟨m - 1, hnext m ▸ hk r, by omega, hb⟩⟩
    · exact hm.elim
  · rintro n ⟨-, -, ⟨m, ⟨-, hk⟩, -⟩ | ⟨⟨hm, -⟩, -⟩⟩
    · apply settles_active (hnext m ▸ hk r)
    · exact hm.elim

variable (again) in
/-- The finish script ends the attempt and settles the target. -/
theorem uses_finish {s : Signature} {id : GoString} {k : (RelayOp.finish id).Reply → Worker}
    (r : (RelayOp.finish id).Reply) :
  Uses again f i b (.running s (.call (.finish id) k)) true (.running s (k r)) ∧
    (∀ n, JobSound again f i b n (.running s (.call (.finish id) k)) →
      settles s (k r) = true ∧ (b = false ∨ again))
  := by
  constructor
  · rintro n ⟨hargs, hretry, ⟨m, ⟨hm, hk⟩, hn, hb⟩ | ⟨⟨hm, -⟩, -⟩⟩
    · have hpos : 0 < m := hm
      use 1, by omega
      exact ⟨hargs, hretry, .inr ⟨hk r, rfl, le_refl 1⟩⟩
    · exact hm.elim
  · rintro n ⟨-, -, ⟨m, ⟨-, hk⟩, -, hb⟩ | ⟨⟨hm, -⟩, -⟩⟩
    · exact ⟨settles_finished (hk r), hb⟩
    · exact hm.elim

theorem uses_ack (s : Signature) (r : Except RelayError Unit) :
  Uses again f i b (.running s (.pure r)) b (acknowledge s r)
  := by
  rintro n ⟨hargs, hretry, ⟨m, ⟨hr, hpos⟩, hn, hb⟩ | ⟨hr, hb, hn⟩⟩
  · cases r with
    | ok => exact absurd rfl hr
    | error e =>
      use n - 1, by omega
      rw [acknowledge, if_pos hpos]
      refine ⟨hargs, ?_, ?_, hb⟩
      · simp only [Signature.retry]
        omega
      · simp only [Signature.retry]
        omega
  · use 0, hn
    cases r with
    | ok => exact hb
    | error e =>
      have hle : ¬ 0 < s.retryCount := by
        rcases hr with hr | hr
        · cases hr
        · omega
      rw [acknowledge, if_neg hle]
      exact hb

end Jobs

/-! ### What a step does -/

/-- The worker of `i` runs the finish script at the event. -/
def Event.finishes {n : ℕ} (i : Fin n) (s : State n) : Event n → Bool
  | .exec j _ => j == i && (s.job j).finishing
  | _ => false

/-- The number of attempts that can still start for a job. -/
def Job.attemptsLeft : Job → ℕ
  | .queued s => s.retryCount.toNat + 1
  | .running s _ => s.retryCount.toNat
  | .done => 0

theorem attemptsLeft_acknowledge (s : Signature) (r : Except RelayError Unit) :
  (acknowledge s r).attemptsLeft ≤ (Job.running s (.pure r)).attemptsLeft
  := by
  cases r with
  | ok => apply Nat.zero_le
  | error e =>
    by_cases h : 0 < s.retryCount
    · simp only [acknowledge, if_pos h, Job.attemptsLeft, Signature.retry]
      omega
    · simp [acknowledge, if_neg h, Job.attemptsLeft]

/-- The effect of an event on a state with sound jobs: time passes, the job of one target
changes, or the finish script runs for a target, which is then settled. -/
inductive Effect (again : Prop) (f : FanOut) (s : State f.size) (e : Event f.size) :
    State f.size → Prop
  | tick (d : ℕ) (he : e = .tick d) : Effect again f s e { s with now := s.now + d }
  | move (i : Fin f.size) (j : Job) (he : e.target? = some i)
      (hfin : ∀ i', e.finishes i' s = false)
      (hjob : Uses again f i (s.settled i) (s.job i) (s.settled i) j)
      (hstart : j.attemptsLeft + (if e = .start i then 1 else 0) ≤ (s.job i).attemptsLeft) :
      Effect again f s e (s.setJob i j)
  | finish (i : Fin f.size) (remote : SendReply) (j : Job) (he : e = .exec i remote)
      (hfin : (s.job i).finishing = true) (hagain : s.settled i = false ∨ again)
      (hjob : Uses again f i (s.settled i) (s.job i) true j)
      (hstart : j.attemptsLeft ≤ (s.job i).attemptsLeft) :
      Effect again f s e
        { now := s.now
          activity := (finishScript s.now s.activity).1
          job := update s.job i j
          settled := update s.settled i true }

variable {U : CaseTable} {configured : Option Profile} {again : Prop} {f : FanOut}
  {s s' : State f.size} {e : Event f.size} {t₀ now : ℤ}

theorem step_effect (hjobs : ∀ i, ∃ n, JobSound again f i (s.settled i) n (s.job i))
    (h : step U configured s e = some s') :
  Effect again f s e s'
  := by
  cases e with
  | tick d =>
    cases h
    apply Effect.tick d rfl
  | start i =>
    cases hj : s.job i with
    | queued sig =>
      simp only [step, hj, Option.some.injEq] at h
      subst h
      apply Effect.move i _ rfl (fun _ => rfl)
      · rw [hj]
        apply uses_start
      · simp [hj, Job.attemptsLeft]
    | running | done => simp [step, hj] at h
  | exec i remote =>
    cases hj : s.job i with
    | queued | done => simp [step, hj] at h
    | running sig w =>
      cases w with
      | pure r => simp [step, hj] at h
      | call o k =>
        simp only [step, hj, Option.some.injEq] at h
        subst h
        obtain ⟨n, hn⟩ := hjobs i
        rw [hj] at hn
        by_cases ho : ∃ id, o = .finish id
        · obtain ⟨id, rfl⟩ := ho
          obtain ⟨huses, hset⟩ := uses_finish again (f := f) (i := i)
            (b := s.settled i) (s := sig) (k := k) (respond s.now s.activity remote _).1
          obtain ⟨hs, hb⟩ := hset n hn
          rw [hs, Bool.or_true]
          apply Effect.finish i remote _ rfl _ hb
          · rw [hj]
            apply huses
          · simp [hj, Job.attemptsLeft]
          · rw [hj]
            rfl
        · rw [not_exists] at ho
          obtain ⟨huses, hset⟩ := uses_call again (f := f) (i := i)
            (b := s.settled i) (s := sig) (k := k) ho (respond s.now s.activity remote o).1
          rw [hset n hn, Bool.or_false, update_eq_self]
          have hcell : (respond s.now s.activity remote o).2 = s.activity := by
            cases o with
            | finish id => exact absurd rfl (ho id)
            | load | send => rfl
          rw [hcell]
          apply Effect.move i _ rfl
          · intro i'
            cases o with
            | finish id => exact absurd rfl (ho id)
            | load | send => simp [Event.finishes, hj, Job.finishing]
          · rw [hj]
            apply huses
          · simp [hj, Job.attemptsLeft]
  | ack i =>
    cases hj : s.job i with
    | queued | done => simp [step, hj] at h
    | running sig w =>
      cases w with
      | call o k => simp [step, hj] at h
      | pure r =>
        simp only [step, hj, Option.some.injEq] at h
        subst h
        apply Effect.move i _ rfl (fun _ => rfl)
        · rw [hj]
          apply uses_ack
        · rw [hj]
          apply attemptsLeft_acknowledge

/-! ### The invariant -/

/-- The last moment of the activity of a fan-out that was stored at `t₀`. -/
def expiry (t₀ : ℤ) : ℤ := t₀ + activityRetentionSeconds * 1000

/-- The stored activity with a number of targets that are not settled. -/
def stored (f : FanOut) (t₀ : ℤ) : ℕ → Cell ActivityHash
  | 0 => none
  | u + 1 => some ⟨⟨some f.body, some (u + 1)⟩, some (expiry t₀)⟩

theorem get_stored (h : now ≤ expiry t₀) (u : ℕ) :
  (stored f t₀ (u + 1)).get now = some ⟨some f.body, some (u + 1)⟩
  := by
  rw [Cell.get_eq_some]
  use some (expiry t₀), rfl
  rintro x ⟨⟩
  apply h

theorem finishScript_absent {c : Cell ActivityHash} (h : c.get now = none) :
  finishScript now c = (c, -1)
  := by
  simp only [finishScript, h]

/-- The finish script counts one target fewer, and deletes the hash after the last one. -/
theorem finishScript_stored (h : now ≤ expiry t₀) (u : ℕ) :
  (finishScript now (stored f t₀ (u + 1))).1 = stored f t₀ u
  := by
  have hentry : Cell.entry now (stored f t₀ (u + 1)) = stored f t₀ (u + 1) := by
    simp [Cell.entry, stored, Option.filter, h]
  simp only [finishScript, get_stored h, Cell.update, hentry, Option.getD_some]
  cases u with
  | zero => rfl
  | succ u =>
    have hcount : ¬ ((u : ℤ) + 1 < 1) := by omega
    simp [stored, hcount]

/-- The jobs are sound, and up to its expiry the stored activity counts the targets that
are not settled. -/
structure Sound (again : Prop) (f : FanOut) (t₀ : ℤ) (s : State f.size) : Prop where
  job : ∀ i, ∃ n, JobSound again f i (s.settled i) n (s.job i)
  shape : ∃ u, s.activity = stored f t₀ u
  count : s.now ≤ expiry t₀ → s.activity = stored f t₀ (unsettled s.settled).card

/-- Past its expiry, the activity is absent. -/
theorem Sound.get_expired (hs : Sound again f t₀ s) (h : expiry t₀ < s.now) :
  s.activity.get s.now = none
  := by
  obtain ⟨u, hu⟩ := hs.shape
  rw [hu]
  cases u with
  | zero => rfl
  | succ u =>
    rw [Option.eq_none_iff_forall_ne_some]
    intro v hv
    obtain ⟨t, ht, hle⟩ := Cell.get_eq_some.mp hv
    simp only [stored, Option.some.injEq, Entry.mk.injEq] at ht
    have := hle _ ht.2.symm
    omega

/-- Soundness of the jobs, when the job of one target changes. -/
theorem jobSound_update {i : Fin f.size} {b : Bool} {j : Job}
    (hjobs : ∀ i, ∃ n, JobSound again f i (s.settled i) n (s.job i))
    (hj : ∃ n, JobSound again f i b n j) (i' : Fin f.size) :
  ∃ n, JobSound again f i' (update s.settled i b i') n (update s.job i j i')
  := by
  by_cases h : i' = i
  · subst h
    simpa using hj
  · simpa [h] using hjobs i'

/-- A step keeps the invariant, unless it finishes a settled target while another target is
not settled. -/
theorem Sound.of_step (hs : Sound again f t₀ s)
    (honce : ∀ i, e.finishes i s = true → s.settled i = true → unsettled s.settled = ∅)
    (h : step U configured s e = some s') :
  Sound again f t₀ s'
  := by
  cases step_effect hs.job h with
  | tick d he =>
    refine ⟨hs.job, hs.shape, ?_⟩
    intro hnow
    apply hs.count
    dsimp only at hnow
    omega
  | move i j he hfin hjob hstart =>
    obtain ⟨n, hn⟩ := hs.job i
    obtain ⟨m, -, hm⟩ := hjob n hn
    refine ⟨?_, hs.shape, hs.count⟩
    intro i'
    have hall := jobSound_update hs.job ⟨m, hm⟩ i'
    rwa [update_eq_self] at hall
  | finish i remote j he hfin hagain hjob hstart =>
    obtain ⟨n, hn⟩ := hs.job i
    obtain ⟨m, -, hm⟩ := hjob n hn
    have hfinishes : e.finishes i s = true := by
      rw [he]
      simp [Event.finishes, hfin]
    refine ⟨jobSound_update hs.job ⟨m, hm⟩, ?_, ?_⟩
    · by_cases hnow : s.now ≤ expiry t₀
      · obtain hcount := hs.count hnow
        cases hu : (unsettled s.settled).card with
        | zero =>
          use 0
          rw [hcount, hu, finishScript_absent rfl]
        | succ u =>
          use u
          rw [hcount, hu, finishScript_stored hnow]
      · dsimp only
        rw [finishScript_absent (hs.get_expired (by omega))]
        apply hs.shape
    · intro hnow
      rw [hs.count hnow, unsettled_update]
      cases hset : s.settled i with
      | true =>
        rw [honce i hfinishes hset]
        apply congrArg Prod.fst (finishScript_absent rfl)
      | false =>
        rw [← Finset.card_erase_add_one (mem_unsettled.mpr hset), finishScript_stored hnow]

theorem Sound.init (again : Prop) (f : FanOut) (t₀ : ℤ) :
  Sound again f t₀ (f.init t₀)
  := by
  have hstored : (f.init t₀).activity = stored f t₀ f.size := by
    obtain ⟨u, hu⟩ := Nat.exists_eq_add_one_of_ne_zero (List.length_pos_of_ne_nil f.nonempty).ne'
    simp only [FanOut.init, FanOut.size, hu, stored]
    rfl
  refine ⟨?_, ⟨f.size, hstored⟩, ?_⟩
  · intro i
    use 5 * (retryCount.toNat + 1)
    exact ⟨rfl, show (0 : ℤ) ≤ 5 by decide, le_refl _, .inl rfl⟩
  · intro _
    rw [hstored]
    simp [unsettled, FanOut.init]

end Deliver
