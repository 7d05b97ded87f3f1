import ActivityRelay.Deliver.Task
import ActivityRelay.HttpSignature.Destination
import ActivityRelay.Models.State
import ActivityRelay.Queue.Capacity

/-!
# Fan-out

`enqueueActivityExcept` stores an activity and queues a task for each of its targets. It selects
the targets, plans a signature for each of them, reserves room in the queue, stores the activity,
and sends the tasks to the broker as a group. Any of these steps may fail.

A call that fails before the activity is stored leaves nothing behind. A call that fails after
that leaves the stored activity, and the tasks that the broker has taken; none of the later exits
removes them.
-/

namespace Api

open GoString HttpSignature List Models NetUrl

/-! ### Targets -/

section Targets

variable (U : CaseTable)

def normalizedStoredDomain (domain : GoString) : GoString :=
  let domain := trimSpace domain
  if domain = [] then []
  else
    match parse (lit "//" ++ domain) with
    | some url =>
        if url.hostname ≠ [] then toLower U (trimSuffix 0x2E url.hostname)
        else toLower U (trimSuffix 0x2E domain)
    | none => toLower U (trimSuffix 0x2E domain)

/-- The key by which a target is delivered to once. -/
def dedupeKey (subscription : Subscriber) : GoString :=
  let domain := normalizedStoredDomain U subscription.domain
  if domain = [] then toLower U (trimSpace subscription.inboxURL) else domain

/-- The loop of `enqueueActivityExcept` over the subscriptions. -/
def selectTargets (excluded : List GoString) : List GoString → List Subscriber → List Subscriber
  | _, [] => []
  | seen, subscription :: subscriptions =>
      if normalizedStoredDomain U subscription.domain ∈ excluded then
        selectTargets excluded seen subscriptions
      else
        match normalizeDestinationOrigin U subscription.inboxURL with
        | .error _ => selectTargets excluded seen subscriptions
        | .ok _ =>
            let key := dedupeKey U subscription
            if key = [] then subscription :: selectTargets excluded seen subscriptions
            else if key ∈ seen then selectTargets excluded seen subscriptions
            else subscription :: selectTargets excluded (key :: seen) subscriptions

/-- The targets of a fan-out. An empty domain excludes nothing. -/
def fanOutTargets (subscriptions : List Subscriber) (excludedDomains : List GoString) :
    List Subscriber :=
  selectTargets U ((excludedDomains.map (normalizedStoredDomain U)).filter (· ≠ [])) []
    subscriptions

variable {U} {subscriptions : List Subscriber} {target : Subscriber}

theorem mem_of_mem_selectTargets {excluded seen : List GoString}
    (h : target ∈ selectTargets U excluded seen subscriptions) :
  target ∈ subscriptions
  := by
  induction subscriptions generalizing seen with
  | nil => exact h
  | cons subscription subscriptions ih =>
    unfold selectTargets at h
    split at h
    · exact mem_cons_of_mem _ (ih h)
    · split at h
      · exact mem_cons_of_mem _ (ih h)
      · dsimp only at h
        split_ifs at h
        · obtain rfl | h := mem_cons.mp h
          · exact mem_cons_self
          · exact mem_cons_of_mem _ (ih h)
        · exact mem_cons_of_mem _ (ih h)
        · obtain rfl | h := mem_cons.mp h
          · exact mem_cons_self
          · exact mem_cons_of_mem _ (ih h)

/-- Targets are selected from the subscriptions. -/
theorem mem_of_mem_fanOutTargets {excludedDomains : List GoString}
    (h : target ∈ fanOutTargets U subscriptions excludedDomains) :
  target ∈ subscriptions
  := mem_of_mem_selectTargets h

end Targets

/-! ### The call -/

/-- The limits of the configuration, which refuses to load unless they are positive. -/
structure Limits where
  maxFanoutTargets : ℕ
  maxQueueJobs : ℤ
  maxFanoutTargets_pos : 0 < maxFanoutTargets
  maxQueueJobs_pos : 0 < maxQueueJobs

/-- How `SendGroup` ends. A failure may come after some of the tasks, given by their positions,
have been published. -/
inductive SendOutcome
  | sent
  | failed (published : ℕ → Bool)

/-- What the steps of a call depend on: the identifiers it draws, the profile that is planned for
each target, given by its position, and the outcomes of the calls to Redis and the broker. -/
structure FanOutRun where
  activityID : GoString
  taskUUID : ℕ → GoString
  plan : ℕ → Option Profile
  reserve : Redis.Outcome
  store : Redis.Outcome
  group : Bool
  send : SendOutcome
  release : Redis.Outcome

/-- What Redis holds: the counter of reservations, the stored activities, the `relay-v2` tasks of
the queue, and the number of its other tasks. -/
structure Backend where
  now : ℤ
  counter : Queue.Counter
  activities : GoString → Redis.Cell Deliver.ActivityHash
  tasks : List Deliver.Signature
  otherTasks : ℕ

/-- The length of the queue. -/
def Backend.queued (b : Backend) : ℕ := b.tasks.length + b.otherTasks

section Call

variable (U : CaseTable) (limits : Limits) (r : FanOutRun)

/-- The tasks of the targets whose signature could be planned, counted from `i`. -/
def plannedTasks : ℕ → List Subscriber → List Deliver.Signature
  | _, [] => []
  | i, target :: targets =>
      match r.plan i with
      | some profile =>
          Deliver.relayTaskWithProfile (r.taskUUID i) target.inboxURL r.activityID profile ::
            plannedTasks (i + 1) targets
      | none => plannedTasks (i + 1) targets

/-- The tasks of a list at the positions of a set, counted from `i`. -/
def publishedTasks (published : ℕ → Bool) : ℕ → List Deliver.Signature → List Deliver.Signature
  | _, [] => []
  | i, task :: tasks =>
      if published i then task :: publishedTasks published (i + 1) tasks
      else publishedTasks published (i + 1) tasks

/-- The activity is stored for a number of targets. -/
def Backend.stored (b : Backend) (body : GoString) (targetCount : ℤ) : Backend :=
  { b with
    activities := Function.update b.activities r.activityID
      (Deliver.storeRelayActivity b.now body targetCount (b.activities r.activityID)) }

/-- The part of `enqueueActivityExcept` after the reservation. -/
def storeAndSend (b : Backend) (body : GoString) (tasks : List Deliver.Signature) :
    Backend × Bool :=
  match r.store with
  | .failed effect => (if effect then b.stored r body tasks.length else b, false)
  | .answered =>
      let b := b.stored r body tasks.length
      if r.group = false then (b, false)
      else
        match r.send with
        | .failed published => ({ b with tasks := b.tasks ++ publishedTasks published 0 tasks }, false)
        | .sent => ({ b with tasks := b.tasks ++ tasks }, true)

def enqueueActivityExcept (b : Backend) (subscriptions : List Subscriber) (body : GoString)
    (excludedDomains : List GoString) : Backend × Bool :=
  let targets := fanOutTargets U subscriptions excludedDomains
  if limits.maxFanoutTargets < targets.length then (b, false)
  else if targets = [] then (b, true)
  else
    let tasks := plannedTasks r 0 targets
    if tasks = [] then (b, false)
    else
      let (counter, accepted, _) :=
        Queue.reserveQueueCapacityWithReason r.reserve b.now b.queued limits.maxQueueJobs
          tasks.length b.counter
      if accepted = false then ({ b with counter := counter }, false)
      else
        let (b, queued) := storeAndSend r { b with counter := counter } body tasks
        -- The deferred call.
        ({ b with counter := Queue.releaseQueueCapacity r.release b.now tasks.length b.counter },
          queued)

end Call

/-! ### What a call leaves behind -/

/-- The identifier of the activity that a task delivers. -/
def taskActivityID (task : Deliver.Signature) : Option GoString := task.args[1]?

/-- A task for the activity is in the queue, or the activity is stored. -/
def Left (b : Backend) (activityID : GoString) : Prop :=
  (∃ task ∈ b.tasks, taskActivityID task = some activityID) ∨
    ((b.activities activityID).get b.now).isSome

/-- The tasks and the activities of two stores are the same. -/
structure SameWork (b b' : Backend) : Prop where
  now : b'.now = b.now
  tasks : b'.tasks = b.tasks
  activities : b'.activities = b.activities

variable {b : Backend} {subscriptions : List Subscriber} {excludedDomains : List GoString}
  {limits : Limits} {U : CaseTable}

theorem SameWork.left_iff {b' : Backend} (h : SameWork b b') (activityID : GoString) :
  Left b' activityID ↔ Left b activityID
  := by
  rw [Left, Left, h.now, h.tasks, h.activities]

section Left

variable (U : CaseTable) (limits : Limits) (r : FanOutRun)

/-- The number of targets, out of `n`, whose signature can be planned. -/
def plannedCount (n : ℕ) : ℕ := (List.range n).countP (fun i => (r.plan i).isSome)

/-- The call gets as far as the script that stores the activity, and the script is executed: the
targets are not too many, one of them can be planned, there is room for the planned ones, and the
script is not lost on its way. -/
structure StoresActivity (b : Backend) (subscriptions : List Subscriber)
    (excludedDomains : List GoString) : Prop where
  few : (fanOutTargets U subscriptions excludedDomains).length ≤ limits.maxFanoutTargets
  planned : 0 < plannedCount r (fanOutTargets U subscriptions excludedDomains).length
  answered : r.reserve = .answered
  room : b.queued + Queue.reserved b.now b.counter +
    plannedCount r (fanOutTargets U subscriptions excludedDomains).length ≤ limits.maxQueueJobs
  executed : r.store ≠ .failed false

/-- Redis answers the script that stores the activity, and the broker takes the whole group. -/
structure FanOutRun.Completes : Prop where
  store : r.store = .answered
  group : r.group = true
  send : r.send = .sent

variable {U limits r} {targets subscriptions : List Subscriber} {excludedDomains : List GoString}

theorem length_plannedTasks_from (i : ℕ) (targets : List Subscriber) :
  (plannedTasks r i targets).length =
    (List.range' i targets.length).countP (fun i => (r.plan i).isSome)
  := by
  induction targets generalizing i with
  | nil => rfl
  | cons target targets ih =>
    rw [length_cons, List.range'_succ, countP_cons, ← ih (i + 1)]
    cases hplan : r.plan i with
    | none | some => simp [plannedTasks, hplan]

theorem length_plannedTasks (targets : List Subscriber) :
  (plannedTasks r 0 targets).length = plannedCount r targets.length
  := by
  rw [length_plannedTasks_from, plannedCount, range_eq_range']

theorem plannedTasks_eq_nil_iff (targets : List Subscriber) :
  plannedTasks r 0 targets = [] ↔ plannedCount r targets.length = 0
  := by
  rw [← length_eq_zero_iff, length_plannedTasks]

theorem targets_ne_nil_of_planned (h : 0 < plannedCount r targets.length) :
  targets ≠ []
  := by
  rintro rfl
  exact Nat.lt_irrefl 0 h

/-- Storing and sending does not depend on the counter. -/
theorem storeAndSend_counter (b : Backend) (c : Queue.Counter) (body : GoString)
    (tasks : List Deliver.Signature) :
  storeAndSend r { b with counter := c } body tasks =
    ({ (storeAndSend r b body tasks).1 with counter := c }, (storeAndSend r b body tasks).2)
  := by
  unfold storeAndSend
  cases r.store with
  | failed effect => cases effect <;> rfl
  | answered => cases r.group <;> cases r.send <;> rfl

theorem storeAndSend_now (b : Backend) (body : GoString) (tasks : List Deliver.Signature) :
  (storeAndSend r b body tasks).1.now = b.now
  := by
  unfold storeAndSend
  cases r.store with
  | failed effect => cases effect <;> rfl
  | answered => cases r.group <;> cases r.send <;> rfl

theorem storeAndSend_eq_true_iff (b : Backend) (body : GoString) (tasks : List Deliver.Signature) :
  (storeAndSend r b body tasks).2 = true ↔ r.Completes
  := by
  constructor
  · intro h
    unfold storeAndSend at h
    cases hstore : r.store with
    | failed effect => simp [hstore] at h
    | answered =>
      cases hgroup : r.group with
      | false => simp [hstore, hgroup] at h
      | true =>
        cases hsend : r.send with
        | failed published => simp [hstore, hgroup, hsend] at h
        | sent => exact ⟨hstore, hgroup, hsend⟩
  · intro h
    simp [storeAndSend, h.store, h.group, h.send]

/-- A stored activity is there when it has just been stored. -/
theorem stored_visible (b : Backend) (body : GoString) (n : ℤ) :
  (((b.stored r body n).activities r.activityID).get b.now).isSome
  := by
  have hpos : b.now ≤ b.now + Deliver.activityRetentionSeconds * 1000 := by
    simp [Deliver.activityRetentionSeconds]
  simp only [Backend.stored, Function.update_self, Deliver.storeRelayActivity,
    Redis.Cell.pexpire_update]
  rw [Redis.Cell.get_set hpos]
  rfl

/-- Nothing that comes after the script takes the stored activity away. -/
theorem storeAndSend_visible (b : Backend) (body : GoString) (tasks : List Deliver.Signature)
    (h : r.store ≠ .failed false) :
  (((storeAndSend r b body tasks).1.activities r.activityID).get b.now).isSome
  := by
  have hstored := stored_visible (r := r) b body tasks.length
  unfold storeAndSend
  cases hstore : r.store with
  | failed effect =>
    cases effect with
    | true => exact hstored
    | false => exact absurd hstore h
  | answered => cases r.group <;> cases r.send <;> exact hstored

theorem accepted_iff_room (h : 0 < plannedCount r targets.length) :
  (Queue.reserveQueueCapacityWithReason r.reserve b.now b.queued limits.maxQueueJobs
      (plannedTasks r 0 targets).length b.counter).2.1 = true ↔
    r.reserve = .answered ∧
      b.queued + Queue.reserved b.now b.counter + plannedCount r targets.length
        ≤ limits.maxQueueJobs
  := by
  rw [length_plannedTasks]
  apply Queue.accepted_iff
  exact Int.ofNat_le.mpr h

/-- A call that stores the activity is a reservation for the planned tasks, what comes after it,
and the release of the reservation. -/
theorem enqueue_eq_of_stores (h : StoresActivity U limits r b subscriptions excludedDomains)
    (body : GoString) :
  enqueueActivityExcept U limits r b subscriptions body excludedDomains =
    let tasks := plannedTasks r 0 (fanOutTargets U subscriptions excludedDomains)
    let reservation := Queue.reserveQueueCapacityWithReason r.reserve b.now b.queued
      limits.maxQueueJobs tasks.length b.counter
    let sent := storeAndSend r b body tasks
    ({ sent.1 with
      counter := Queue.releaseQueueCapacity r.release b.now tasks.length reservation.1 }, sent.2)
  := by
  have haccepted := (accepted_iff_room h.planned).mpr
    ⟨h.answered, h.room⟩
  have hplanned : plannedTasks r 0 (fanOutTargets U subscriptions excludedDomains) ≠ [] := by
    rw [Ne, plannedTasks_eq_nil_iff]
    exact h.planned.ne'
  unfold enqueueActivityExcept
  simp only [if_neg (not_lt.mpr h.few), if_neg (targets_ne_nil_of_planned h.planned),
    if_neg hplanned, haccepted, Bool.true_eq_false, if_false, storeAndSend_counter,
    storeAndSend_now]

/-- A call that stores the activity is what comes after the reservation, up to the counter. -/
theorem enqueue_of_stores (h : StoresActivity U limits r b subscriptions excludedDomains)
    (body : GoString) :
  ∃ c, enqueueActivityExcept U limits r b subscriptions body excludedDomains =
    let sent := storeAndSend r b body
      (plannedTasks r 0 (fanOutTargets U subscriptions excludedDomains))
    ({ sent.1 with counter := c }, sent.2)
  := ⟨_, enqueue_eq_of_stores h body⟩

/-- A call that does not store the activity leaves tasks and activities as they are. -/
theorem enqueue_of_not_stores (h : ¬ StoresActivity U limits r b subscriptions excludedDomains)
    (body : GoString) :
  SameWork b (enqueueActivityExcept U limits r b subscriptions body excludedDomains).1
  := by
  unfold enqueueActivityExcept
  dsimp only
  split
  case isTrue => exact ⟨rfl, rfl, rfl⟩
  case isFalse hfew =>
    split
    case isTrue => exact ⟨rfl, rfl, rfl⟩
    case isFalse =>
      split
      case isTrue => exact ⟨rfl, rfl, rfl⟩
      case isFalse hplanned =>
        have hcount := Nat.pos_of_ne_zero (fun h => hplanned ((plannedTasks_eq_nil_iff _).mpr h))
        split
        case isTrue => exact ⟨rfl, rfl, rfl⟩
        case isFalse haccepted =>
          rw [Bool.not_eq_false, accepted_iff_room hcount] at haccepted
          -- All that can be missing is the execution of the script.
          have hlost : r.store = .failed false := by
            by_contra hexecuted
            exact h ⟨not_lt.mp hfew, hcount, haccepted.1, haccepted.2, hexecuted⟩
          simp only [storeAndSend, hlost]
          exact ⟨rfl, rfl, rfl⟩

/-- A failed call leaves neither a task nor the activity behind if and only if it fails before
the script that stores the activity is executed. -/
theorem failed_call_leaves_nothing_iff (b : Backend) (subscriptions : List Subscriber)
    (body : GoString) (excludedDomains : List GoString) (hfresh : ¬ Left b r.activityID) :
  ((enqueueActivityExcept U limits r b subscriptions body excludedDomains).2 = false →
      ¬ Left (enqueueActivityExcept U limits r b subscriptions body excludedDomains).1
        r.activityID) ↔
    (StoresActivity U limits r b subscriptions excludedDomains → r.Completes)
  := by
  by_cases hstores : StoresActivity U limits r b subscriptions excludedDomains
  · obtain ⟨c, hcall⟩ := enqueue_of_stores hstores body
    have hleft : Left (enqueueActivityExcept U limits r b subscriptions body excludedDomains).1
        r.activityID := by
      right
      rw [hcall]
      simp only [storeAndSend_now]
      exact storeAndSend_visible b body _ hstores.executed
    simp only [hleft, not_true_eq_false, imp_false, Bool.not_eq_false, hstores, forall_const]
    rw [hcall]
    exact storeAndSend_eq_true_iff b body _
  · have hsame := enqueue_of_not_stores hstores body
    simp only [hsame.left_iff, hfresh, not_false_eq_true, implies_true, hstores, false_imp_iff]

end Left

/-- A store without tasks and activities. -/
def emptyBackend : Backend := ⟨0, none, fun _ => none, [], 0⟩

def smallLimits : Limits := ⟨2, 2, by decide, by decide⟩

def exampleSubscribers : List Subscriber :=
  [⟨lit "a", lit "https://a/inbox", [], []⟩, ⟨lit "b", lit "https://b/inbox", [], []⟩]

/-- The broker fails after it has published the first task of the group. -/
def brokenGroup : FanOutRun where
  activityID := lit "id"
  taskUUID := fun _ => lit "task"
  plan := fun _ => some .legacy
  reserve := .answered
  store := .answered
  group := true
  send := .failed (fun i => i == 0)
  release := .answered

/-- A call that fails in the broker leaves a task for the first target and the activity. -/
theorem broken_group_leaves_task :
  let after := enqueueActivityExcept CaseTable.identity smallLimits brokenGroup emptyBackend
    exampleSubscribers (lit "body") []
  after.2 = false ∧
    after.1.tasks.map taskActivityID = [some brokenGroup.activityID] ∧
    ((after.1.activities brokenGroup.activityID).get after.1.now).isSome
  := by
  decide +kernel

theorem failed_call_leaves_nothing_iff_broken :
  ¬ Left emptyBackend brokenGroup.activityID ∧
    ¬ ((enqueueActivityExcept CaseTable.identity smallLimits brokenGroup emptyBackend
          exampleSubscribers (lit "body") []).2 = false →
      ¬ Left (enqueueActivityExcept CaseTable.identity smallLimits brokenGroup emptyBackend
          exampleSubscribers (lit "body") []).1 brokenGroup.activityID)
  := by
  have hfresh : ¬ Left emptyBackend brokenGroup.activityID := by
    rintro (⟨task, htask, -⟩ | h)
    · exact not_mem_nil htask
    · exact Bool.false_ne_true h
  refine ⟨hfresh, ?_⟩
  rw [failed_call_leaves_nothing_iff emptyBackend exampleSubscribers (lit "body") [] hfresh]
  intro h
  have hstores : StoresActivity CaseTable.identity smallLimits brokenGroup emptyBackend
      exampleSubscribers [] :=
    ⟨by decide +kernel, by decide +kernel, rfl, by decide +kernel, by decide⟩
  exact SendOutcome.noConfusion (h hstores).send

/-! ### Calls that queue tasks -/

/-- The broker takes the tasks of a call that completes. -/
theorem enqueue_tasks_of_completes {r : FanOutRun}
    (h : StoresActivity U limits r b subscriptions excludedDomains) (hr : r.Completes)
    (body : GoString) :
  (enqueueActivityExcept U limits r b subscriptions body excludedDomains).1.tasks =
    b.tasks ++ plannedTasks r 0 (fanOutTargets U subscriptions excludedDomains)
  := by
  obtain ⟨c, hcall⟩ := enqueue_of_stores h body
  rw [hcall]
  simp only [storeAndSend, hr.store, hr.group, hr.send, Bool.true_eq_false, if_false]
  rfl

/-- Everything goes well, and the signature of the first target is the only one that can be
planned. -/
def firstTargetOnly : FanOutRun :=
  { brokenGroup with plan := fun i => if i = 0 then some .legacy else none, send := .sent }

theorem plannedCount_firstTargetOnly {n : ℕ} (h : 0 < n) :
  plannedCount firstTargetOnly n = 1
  := by
  have hplan : plannedCount firstTargetOnly n = (List.range n).count 0 := by
    apply countP_congr
    intro i _
    by_cases hi : i = 0
    · simp [firstTargetOnly, hi]
    · simp [firstTargetOnly, hi]
  rw [hplan]
  exact count_eq_one_of_mem nodup_range (mem_range.mpr h)

/-- The call queues a task, for some outcomes of planning, Redis and the broker. -/
def Queues (U : CaseTable) (limits : Limits) (subscriptions : List Subscriber) (body : GoString)
    (excludedDomains : List GoString) : Prop :=
  ∃ r b, (enqueueActivityExcept U limits r b subscriptions body excludedDomains).1.tasks ≠ b.tasks

/-- A call queues tasks if and only if it has targets and these are not too many. -/
theorem queues_iff {body : GoString} :
  Queues U limits subscriptions body excludedDomains ↔
    fanOutTargets U subscriptions excludedDomains ≠ [] ∧
      (fanOutTargets U subscriptions excludedDomains).length ≤ limits.maxFanoutTargets
  := by
  constructor
  · rintro ⟨r, b, hqueues⟩
    by_cases hstores : StoresActivity U limits r b subscriptions excludedDomains
    · exact ⟨targets_ne_nil_of_planned hstores.planned, hstores.few⟩
    · exact absurd (enqueue_of_not_stores hstores body).tasks hqueues
  · rintro ⟨hne, hfew⟩
    have hcount : plannedCount firstTargetOnly
        (fanOutTargets U subscriptions excludedDomains).length = 1 :=
      plannedCount_firstTargetOnly (length_pos_of_ne_nil hne)
    have hstores : StoresActivity U limits firstTargetOnly emptyBackend subscriptions
        excludedDomains := by
      refine ⟨hfew, ?_, rfl, ?_, by decide⟩
      · rw [hcount]
        exact Nat.one_pos
      · rw [hcount]
        exact limits.maxQueueJobs_pos
    refine ⟨firstTargetOnly, emptyBackend, ?_⟩
    rw [enqueue_tasks_of_completes hstores ⟨rfl, rfl, rfl⟩, Ne, append_right_eq_self,
      plannedTasks_eq_nil_iff, hcount]
    exact Nat.one_ne_zero

end Api
