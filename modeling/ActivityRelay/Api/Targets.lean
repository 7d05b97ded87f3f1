import Mathlib.Data.List.Basic
import ActivityRelay.Api.FanOut
import ActivityRelay.Dedup.First

/-!
# The targets of a fan-out

A subscription is eligible if its domain is not excluded and its inbox has an origin. The loop of
`enqueueActivityExcept` keeps the first eligible subscription of each key
(`fanOutTargets_eq_firsts`). If the call publishes its tasks, then there is one for each target
whose signature could be planned, and the activity is stored for that many targets.
-/

namespace Api

open Dedup GoString HttpSignature List Models NetUrl

section Eligible

variable (U : CaseTable)

/-- The inbox of a subscription is an address with an origin. -/
def validInbox (subscription : Subscriber) : Bool :=
  (normalizeDestinationOrigin U subscription.inboxURL).isOk

/-- The domain of a subscription is one of those that are excluded. An empty domain is not. -/
def isExcluded (excludedDomains : List GoString) (subscription : Subscriber) : Bool :=
  normalizedStoredDomain U subscription.domain ≠ [] &&
    (excludedDomains.map (normalizedStoredDomain U)).contains
      (normalizedStoredDomain U subscription.domain)

/-- The subscription can be a target. -/
def eligible (excludedDomains : List GoString) (subscription : Subscriber) : Bool :=
  !isExcluded U excludedDomains subscription && validInbox U subscription

end Eligible

section Targets

variable {U : CaseTable} {excludedDomains : List GoString} {subscriptions : List Subscriber}
  {subscription : Subscriber}

theorem validInbox_iff :
  validInbox U subscription = true ↔
    ∃ origin, normalizeDestinationOrigin U subscription.inboxURL = .ok origin
  := by
  unfold validInbox
  cases normalizeDestinationOrigin U subscription.inboxURL with
  | error | ok => simp [Except.isOk, Except.toBool]

theorem mem_excluded_iff :
  normalizedStoredDomain U subscription.domain ∈
      (excludedDomains.map (normalizedStoredDomain U)).filter (· ≠ []) ↔
    isExcluded U excludedDomains subscription = true
  := by
  simp only [isExcluded, mem_filter, decide_eq_true_eq, Bool.and_eq_true, contains_iff_mem]
  exact and_comm

/-- An address without text has no origin. -/
theorem trimSpace_ne_nil_of_validInbox (h : validInbox U subscription = true) :
  trimSpace subscription.inboxURL ≠ []
  := by
  intro hnil
  obtain ⟨origin, horigin⟩ := validInbox_iff.mp h
  rw [normalizeDestinationOrigin, hnil] at horigin
  cases horigin

/-- A target has a key. -/
theorem dedupeKey_ne_nil (h : validInbox U subscription = true) :
  dedupeKey U subscription ≠ []
  := by
  unfold dedupeKey
  dsimp only
  split
  · rw [Ne, toLower_eq_nil]
    apply trimSpace_ne_nil_of_validInbox h
  · assumption

theorem dedupeKey_of_ne_nil (h : normalizedStoredDomain U subscription.domain ≠ []) :
  dedupeKey U subscription = normalizedStoredDomain U subscription.domain
  := if_neg h

/-- The loop keeps the first eligible subscription of each key that it has not seen. -/
theorem selectTargets_eq (seen : List GoString) (subscriptions : List Subscriber) :
  selectTargets U ((excludedDomains.map (normalizedStoredDomain U)).filter (· ≠ [])) seen
      subscriptions =
    (firsts (dedupeKey U) (subscriptions.filter (eligible U excludedDomains))).filter
      (fun subscription => dedupeKey U subscription ∉ seen)
  := by
  induction subscriptions generalizing seen with
  | nil => rfl
  | cons subscription subscriptions ih =>
    unfold selectTargets
    rw [filter_cons]
    by_cases hexcluded : isExcluded U excludedDomains subscription = true
    · rw [if_pos (mem_excluded_iff.mpr hexcluded), ih seen]
      simp [eligible, hexcluded]
    rw [if_neg (mt mem_excluded_iff.mp hexcluded)]
    cases hinbox : normalizeDestinationOrigin U subscription.inboxURL with
    | error e =>
      have hvalid : validInbox U subscription = false := by
        rw [validInbox, hinbox]
        rfl
      rw [ih seen]
      simp [eligible, hvalid]
    | ok origin =>
      have hvalid : validInbox U subscription = true := validInbox_iff.mpr ⟨origin, hinbox⟩
      have heligible : eligible U excludedDomains subscription = true := by
        simp [eligible, hvalid, hexcluded]
      simp only [heligible, if_true, if_neg (dedupeKey_ne_nil hvalid), firsts]
      rw [filter_cons, filter_filter]
      by_cases hseen : dedupeKey U subscription ∈ seen
      · rw [if_pos hseen, ih seen, if_neg (by simpa using hseen)]
        apply filter_congr
        -- A key that was not seen is not that of this subscription.
        intro other _
        simp only [ne_eq, ← Bool.decide_and, decide_eq_decide]
        constructor
        · intro hother
          refine ⟨hother, ?_⟩
          intro heq
          rw [heq] at hother
          exact hother hseen
        · exact And.left
      · rw [if_neg hseen, ih (dedupeKey U subscription :: seen), if_pos (by simpa using hseen)]
        congr 1
        apply filter_congr
        intro other _
        simp only [mem_cons, not_or, ne_eq, ← Bool.decide_and, decide_eq_decide]
        exact and_comm

/-- The targets are the first eligible subscriptions by their keys. -/
theorem fanOutTargets_eq_firsts :
  fanOutTargets U subscriptions excludedDomains =
    firsts (dedupeKey U) (subscriptions.filter (eligible U excludedDomains))
  := by
  rw [fanOutTargets, selectTargets_eq]
  simp

theorem mem_fanOutTargets_eligible {target : Subscriber}
    (h : target ∈ fanOutTargets U subscriptions excludedDomains) :
  target ∈ subscriptions ∧ eligible U excludedDomains target = true
  := by
  rw [fanOutTargets_eq_firsts] at h
  exact mem_filter.mp (mem_of_mem_firsts h)

/-- For every eligible subscription there is a target with its key. -/
theorem exists_target_of_eligible (hmem : subscription ∈ subscriptions)
    (h : eligible U excludedDomains subscription = true) :
  ∃ target ∈ fanOutTargets U subscriptions excludedDomains,
    dedupeKey U target = dedupeKey U subscription
  := by
  rw [fanOutTargets_eq_firsts]
  apply mem_map.mp
  rw [mem_keys_firsts]
  exact mem_map_of_mem (mem_filter.mpr ⟨hmem, h⟩)

theorem validInbox_of_eligible (h : eligible U excludedDomains subscription = true) :
  validInbox U subscription = true
  := by
  rw [eligible, Bool.and_eq_true] at h
  exact h.2

/-- A domain that is not empty and is one of those that are excluded is not that of an eligible
subscription. -/
theorem domain_ne_of_eligible (h : eligible U excludedDomains subscription = true) {d : GoString}
    (hd : d ∈ excludedDomains) (hne : normalizedStoredDomain U d ≠ []) :
  normalizedStoredDomain U subscription.domain ≠ normalizedStoredDomain U d
  := by
  intro heq
  rw [eligible, Bool.and_eq_true, Bool.not_eq_true', isExcluded, heq, Bool.and_eq_false_iff] at h
  obtain h | h := h.1
  · rw [decide_eq_false_iff_not, not_not] at h
    exact hne h
  · rw [contains_eq_mem, decide_eq_false_iff_not] at h
    exact h (mem_map_of_mem hd)

/-- At most one target has a domain. -/
theorem countP_domain_fanOutTargets_le {d : GoString} (hd : d ≠ []) :
  (fanOutTargets U subscriptions excludedDomains).countP
    (fun target => normalizedStoredDomain U target.domain = d) ≤ 1
  := by
  have hkeys := nodup_iff_count_le_one.mp (nodup_keys_firsts (dedupeKey U)
    (subscriptions.filter (eligible U excludedDomains))) d
  rw [← fanOutTargets_eq_firsts, List.count, countP_map] at hkeys
  refine le_trans (countP_mono_left ?_) hkeys
  intro target _ htarget
  rw [decide_eq_true_eq] at htarget
  have hkey : dedupeKey U target = normalizedStoredDomain U target.domain := by
    apply dedupeKey_of_ne_nil
    rwa [htarget]
  simp [hkey, htarget]

end Targets

/-! ### The published group -/

/-- The targets of a fan-out: there is one for each key of an eligible subscription, they stand in
the order of the subscriptions, and each is the first eligible subscription of its key. -/
structure AreTargets (U : CaseTable) (subscriptions : List Subscriber)
    (excludedDomains : List GoString) (targets : List Subscriber) : Prop where
  order : targets.Sublist subscriptions
  once : (targets.map (dedupeKey U)).Nodup
  keys (key : GoString) : key ∈ targets.map (dedupeKey U) ↔
    ∃ subscription ∈ subscriptions,
      eligible U excludedDomains subscription = true ∧ dedupeKey U subscription = key
  first (target : Subscriber) : target ∈ targets →
    subscriptions.find? (fun subscription =>
      eligible U excludedDomains subscription && dedupeKey U subscription = dedupeKey U target) =
        some target

theorem areTargets_fanOutTargets (U : CaseTable) (subscriptions : List Subscriber)
    (excludedDomains : List GoString) :
  AreTargets U subscriptions excludedDomains (fanOutTargets U subscriptions excludedDomains)
  := by
  rw [fanOutTargets_eq_firsts]
  constructor
  case order => exact (firsts_sublist _).trans filter_sublist
  case once => apply nodup_keys_firsts
  case keys =>
    intro key
    rw [mem_keys_firsts]
    simp [and_assoc]
  case first =>
    intro target htarget
    have hfind := find?_eq_some_of_mem_firsts htarget
    simpa using hfind

/-- The tasks of the targets whose signature can be planned. -/
def tasksOf (r : FanOutRun) (targets : List Subscriber) : List Deliver.Signature :=
  targets.zipIdx.filterMap fun (target, i) =>
    (r.plan i).map (Deliver.relayTaskWithProfile (r.taskUUID i) target.inboxURL r.activityID)

section Published

variable {U : CaseTable} {limits : Limits} {r : FanOutRun} {b : Backend}
  {subscriptions : List Subscriber} {excludedDomains : List GoString}

theorem plannedTasks_eq (i : ℕ) (targets : List Subscriber) :
  plannedTasks r i targets = (targets.zipIdx i).filterMap fun (target, i) =>
    (r.plan i).map (Deliver.relayTaskWithProfile (r.taskUUID i) target.inboxURL r.activityID)
  := by
  induction targets generalizing i with
  | nil => rfl
  | cons target targets ih =>
    rw [plannedTasks, zipIdx_cons, filterMap_cons, ih (i + 1)]
    dsimp only
    cases r.plan i with
    | none | some => rfl

theorem plannedTasks_eq_tasksOf (targets : List Subscriber) :
  plannedTasks r 0 targets = tasksOf r targets
  := plannedTasks_eq 0 targets

theorem length_tasksOf_le (targets : List Subscriber) :
  (tasksOf r targets).length ≤ targets.length
  := by
  rw [← length_zipIdx (l := targets) (i := 0)]
  apply length_filterMap_le

/-- A call that returns true and changes the queue has stored the activity, and the broker has
taken the group. -/
theorem completes_of_published {body : GoString}
    (htrue : (enqueueActivityExcept U limits r b subscriptions body excludedDomains).2 = true)
    (hpublished :
      (enqueueActivityExcept U limits r b subscriptions body excludedDomains).1.tasks ≠ b.tasks) :
  StoresActivity U limits r b subscriptions excludedDomains ∧ r.Completes
  := by
  have hstores : StoresActivity U limits r b subscriptions excludedDomains := by
    by_contra hnot
    exact hpublished (enqueue_of_not_stores hnot body).tasks
  refine ⟨hstores, ?_⟩
  rw [enqueue_eq_of_stores hstores] at htrue
  exact (storeAndSend_eq_true_iff ..).mp htrue

theorem stored_get (body : GoString) (n : ℤ) :
  ((b.stored r body n).activities r.activityID).get b.now = some ⟨some body, some n⟩
  := by
  have hpos : b.now ≤ b.now + Deliver.activityRetentionSeconds * 1000 := by
    simp [Deliver.activityRetentionSeconds]
  simp only [Backend.stored, Function.update_self, Deliver.storeRelayActivity,
    Redis.Cell.pexpire_update]
  rw [Redis.Cell.get_set hpos]

/-- What a fan-out has done that has published its group. -/
structure Published (U : CaseTable) (limits : Limits) (r : FanOutRun) (b : Backend)
    (subscriptions : List Subscriber) (body : GoString) (excludedDomains : List GoString)
    (after : Backend) (targets : List Subscriber) : Prop where
  chosen : AreTargets U subscriptions excludedDomains targets
  queued : after.tasks = b.tasks ++ tasksOf r targets
  stored : (after.activities r.activityID).get after.now =
    some ⟨some body, some (tasksOf r targets).length⟩
  reserved : ∃ counter,
    (Queue.reserveQueueCapacityWithReason r.reserve b.now b.queued limits.maxQueueJobs
      (tasksOf r targets).length b.counter) = (counter, true, .accepted) ∧
    Queue.reserved b.now counter = Queue.reserved b.now b.counter + (tasksOf r targets).length ∧
    after.counter =
      Queue.releaseQueueCapacity r.release b.now (tasksOf r targets).length counter
  few : (tasksOf r targets).length ≤ limits.maxFanoutTargets

/-- A fan-out that returns true after publishing has queued one task for each target whose
signature could be planned, in the order of the subscriptions. The targets have different keys,
and each is the first eligible subscription of its key. The activity is stored for as many targets
as there are tasks, room was reserved for as many, and there are no more than the limit. -/
theorem enqueue_publishes_targets (body : GoString)
    (htrue : (enqueueActivityExcept U limits r b subscriptions body excludedDomains).2 = true)
    (hpublished :
      (enqueueActivityExcept U limits r b subscriptions body excludedDomains).1.tasks ≠ b.tasks) :
  ∃ targets, Published U limits r b subscriptions body excludedDomains
    (enqueueActivityExcept U limits r b subscriptions body excludedDomains).1 targets
  := by
  obtain ⟨hstores, hcompletes⟩ := completes_of_published htrue hpublished
  use fanOutTargets U subscriptions excludedDomains
  have hcall := enqueue_eq_of_stores hstores body
  simp only [plannedTasks_eq_tasksOf, storeAndSend, hcompletes.store, hcompletes.group,
    hcompletes.send, Bool.true_eq_false, if_false] at hcall
  rw [hcall]
  have hcount : ((tasksOf r (fanOutTargets U subscriptions excludedDomains)).length : ℤ) =
      plannedCount r (fanOutTargets U subscriptions excludedDomains).length := by
    rw [← plannedTasks_eq_tasksOf, length_plannedTasks]
  constructor
  case chosen => apply areTargets_fanOutTargets
  case queued => rfl
  case stored => apply stored_get
  case reserved =>
    have hone : ¬ ((tasksOf r (fanOutTargets U subscriptions excludedDomains)).length : ℤ) < 1 := by
      have := hstores.planned
      omega
    have hroom := hstores.room
    rw [← hcount] at hroom
    have hreserve : Queue.reserveQueueCapacityWithReason r.reserve b.now b.queued
        limits.maxQueueJobs (tasksOf r (fanOutTargets U subscriptions excludedDomains)).length
        b.counter = (Redis.Cell.set b.now Queue.reservationTTL (Queue.reserved b.now b.counter +
          (tasksOf r (fanOutTargets U subscriptions excludedDomains)).length), true, .accepted) := by
      rw [Queue.reserveQueueCapacityWithReason, if_neg hone, hstores.answered,
        Queue.reserveScript_of_room hroom]
      rfl
    refine ⟨_, hreserve, Queue.reserved_set _, ?_⟩
    rw [hreserve]
  case few => exact (length_tasksOf_le _).trans hstores.few

end Published

/-- Everything goes well, but the signature of the second target cannot be planned. -/
def secondTargetUnplanned : FanOutRun :=
  { brokenGroup with plan := fun i => if i = 1 then none else some .legacy, send := .sent }

/-- The third one repeats the domain of the first one, and the last one has no valid inbox. -/
def repeatedSubscribers : List Subscriber :=
  exampleSubscribers ++
    [⟨lit "A.", lit "https://a/other", [], []⟩, ⟨lit "c", lit "ftp://c/inbox", [], []⟩]

theorem enqueue_publishes_targets_repeated :
  let after := enqueueActivityExcept CaseTable.identity smallLimits secondTargetUnplanned
    emptyBackend repeatedSubscribers (lit "body") []
  after.2 = true ∧ after.1.tasks ≠ emptyBackend.tasks ∧
    ∃ targets, Published CaseTable.identity smallLimits secondTargetUnplanned emptyBackend
      repeatedSubscribers (lit "body") [] after.1 targets
  := by
  have htrue : (enqueueActivityExcept CaseTable.identity smallLimits secondTargetUnplanned
      emptyBackend repeatedSubscribers (lit "body") []).2 = true := by
    decide +kernel
  have hpublished : (enqueueActivityExcept CaseTable.identity smallLimits secondTargetUnplanned
      emptyBackend repeatedSubscribers (lit "body") []).1.tasks ≠ emptyBackend.tasks := by
    decide +kernel
  exact ⟨htrue, hpublished, enqueue_publishes_targets _ htrue hpublished⟩

/-! ### Who receives a task -/

/-- The elements of a list at the positions of a set. -/
def atPositions {α : Type} (positions : ℕ → Bool) (l : List α) : List α :=
  (l.zipIdx.filter (fun x => positions x.2)).map Prod.fst

/-- The targets for which a call queues a task, in the order of the tasks. -/
def receivers (U : CaseTable) (limits : Limits) (r : FanOutRun) (b : Backend)
    (subscriptions : List Subscriber) (excludedDomains : List GoString) : List Subscriber :=
  let targets := fanOutTargets U subscriptions excludedDomains
  let planned := atPositions (fun i => (r.plan i).isSome) targets
  if targets.length ≤ limits.maxFanoutTargets ∧
      (Queue.reserveQueueCapacityWithReason r.reserve b.now b.queued limits.maxQueueJobs
        planned.length b.counter).2.1 = true ∧ r.store = .answered ∧ r.group = true then
    match r.send with
    | .sent => planned
    | .failed published => atPositions published planned
  else []

section Receivers

variable {U : CaseTable} {limits : Limits} {r : FanOutRun} {b : Backend}
  {subscriptions : List Subscriber} {excludedDomains : List GoString}

/-- The inbox that a task is for. -/
def taskInbox (task : Deliver.Signature) : Option GoString := task.args[0]?

theorem atPositions_sublist {α : Type} (positions : ℕ → Bool) (l : List α) :
  (atPositions positions l).Sublist l
  := by
  have hmap := (filter_sublist (p := fun x : α × ℕ => positions x.2) (l := l.zipIdx)).map
    Prod.fst
  rwa [zipIdx_map_fst] at hmap

theorem map_atPositions {α β : Type} (f : α → β) (positions : ℕ → Bool) (l : List α) :
  (atPositions positions l).map f = atPositions positions (l.map f)
  := by
  unfold atPositions
  rw [zipIdx_map, filter_map, map_map, map_map]
  rfl

theorem publishedTasks_eq (positions : ℕ → Bool) (i : ℕ) (tasks : List Deliver.Signature) :
  publishedTasks positions i tasks =
    ((tasks.zipIdx i).filter (fun x => positions x.2)).map Prod.fst
  := by
  induction tasks generalizing i with
  | nil => rfl
  | cons task tasks ih =>
    rw [publishedTasks, zipIdx_cons, filter_cons, ih (i + 1)]
    split
    · rfl
    · rfl

/-- The tasks are addressed to the inboxes of the targets whose signature can be planned. -/
theorem map_taskInbox_tasksOf (targets : List Subscriber) :
  (tasksOf r targets).map taskInbox =
    (atPositions (fun i => (r.plan i).isSome) targets).map (fun target => some target.inboxURL)
  := by
  unfold tasksOf atPositions
  rw [map_filterMap, map_map, ← filterMap_eq_map, filterMap_filter]
  apply filterMap_congr
  rintro ⟨target, i⟩ _
  cases hplan : r.plan i with
  | none => simp [hplan]
  | some profile => simp [hplan, taskInbox, Deliver.relayTaskWithProfile]

theorem length_atPositions_plan (targets : List Subscriber) :
  (atPositions (fun i => (r.plan i).isSome) targets).length = (tasksOf r targets).length
  := by
  have hlength := congrArg List.length (map_taskInbox_tasksOf (r := r) targets)
  rw [length_map, length_map] at hlength
  exact hlength.symm

/-- Only targets receive a task, and none receives two. -/
theorem receivers_sublist :
  (receivers U limits r b subscriptions excludedDomains).Sublist
    (fanOutTargets U subscriptions excludedDomains)
  := by
  unfold receivers
  dsimp only
  split
  · split
    · apply atPositions_sublist
    · exact (atPositions_sublist _ _).trans (atPositions_sublist _ _)
  · apply nil_sublist

/-- A call with receivers gets as far as the script that stores the activity. -/
theorem stores_of_receivers (h : receivers U limits r b subscriptions excludedDomains ≠ []) :
  StoresActivity U limits r b subscriptions excludedDomains ∧ r.store = .answered ∧ r.group = true
  := by
  have hplanned : 0 < plannedCount r (fanOutTargets U subscriptions excludedDomains).length := by
    rw [← length_plannedTasks, plannedTasks_eq_tasksOf, ← length_atPositions_plan]
    apply Nat.pos_of_ne_zero
    intro hzero
    rw [length_eq_zero_iff] at hzero
    apply h
    unfold receivers
    simp only [hzero]
    split
    · split
      · rfl
      · rfl
    · rfl
  unfold receivers at h
  dsimp only at h
  split at h
  case isFalse => exact absurd rfl h
  case isTrue hcall =>
    obtain ⟨hfew, haccepted, hstore, hgroup⟩ := hcall
    rw [length_atPositions_plan, ← plannedTasks_eq_tasksOf, accepted_iff_room hplanned] at haccepted
    refine ⟨⟨hfew, hplanned, haccepted.1, haccepted.2, ?_⟩, hstore, hgroup⟩
    rw [hstore]
    exact Redis.Outcome.noConfusion

/-- The receivers of a call that stores the activity. -/
theorem receivers_of_stores (h : StoresActivity U limits r b subscriptions excludedDomains)
    (hstore : r.store = .answered) (hgroup : r.group = true) :
  receivers U limits r b subscriptions excludedDomains =
    let planned := atPositions (fun i => (r.plan i).isSome)
      (fanOutTargets U subscriptions excludedDomains)
    match r.send with
    | .sent => planned
    | .failed published => atPositions published planned
  := by
  have haccepted : (Queue.reserveQueueCapacityWithReason r.reserve b.now b.queued
      limits.maxQueueJobs (plannedTasks r 0 (fanOutTargets U subscriptions excludedDomains)).length
      b.counter).2.1 = true :=
    (accepted_iff_room h.planned).mpr ⟨h.answered, h.room⟩
  rw [plannedTasks_eq_tasksOf, ← length_atPositions_plan] at haccepted
  exact if_pos ⟨h.few, haccepted, hstore, hgroup⟩

theorem atPositions_eq_self {α : Type} {positions : ℕ → Bool} {l : List α}
    (h : ∀ i < l.length, positions i = true) :
  atPositions positions l = l
  := by
  unfold atPositions
  rw [filter_eq_self.mpr, zipIdx_map_fst]
  rintro ⟨a, i⟩ hmem
  apply h
  have hlt := (mem_zipIdx hmem).2.1
  omega

/-- Planning and admission succeed for all targets, which are not too many. -/
structure Succeeds (limits : Limits) (r : FanOutRun) (b : Backend) (targets : List Subscriber) :
    Prop where
  few : targets.length ≤ limits.maxFanoutTargets
  planned : ∀ i < targets.length, (r.plan i).isSome = true
  answered : r.reserve = .answered
  room : b.queued + Queue.reserved b.now b.counter + targets.length ≤ limits.maxQueueJobs
  completes : r.Completes

/-- If everything succeeds then all targets receive a task. -/
theorem receivers_of_succeeds
    (h : Succeeds limits r b (fanOutTargets U subscriptions excludedDomains)) :
  receivers U limits r b subscriptions excludedDomains =
    fanOutTargets U subscriptions excludedDomains
  := by
  have hall : atPositions (fun i => (r.plan i).isSome)
      (fanOutTargets U subscriptions excludedDomains) =
        fanOutTargets U subscriptions excludedDomains := atPositions_eq_self h.planned
  by_cases hnil : fanOutTargets U subscriptions excludedDomains = []
  · rw [hnil, ← sublist_nil, ← hnil]
    exact receivers_sublist
  have hcount : plannedCount r (fanOutTargets U subscriptions excludedDomains).length =
      (fanOutTargets U subscriptions excludedDomains).length := by
    rw [← length_plannedTasks, plannedTasks_eq_tasksOf, ← length_atPositions_plan, hall]
  have hstores : StoresActivity U limits r b subscriptions excludedDomains := by
    refine ⟨h.few, ?_, h.answered, ?_, ?_⟩
    · rw [hcount]
      exact length_pos_of_ne_nil hnil
    · rw [hcount]
      exact h.room
    · rw [h.completes.store]
      rintro ⟨⟩
  rw [receivers_of_stores hstores h.completes.store h.completes.group, h.completes.send]
  exact hall

/-- The new tasks of the queue are addressed to the receivers. -/
theorem enqueue_tasks_of_receivers (body : GoString) :
  ∃ tasks,
    (enqueueActivityExcept U limits r b subscriptions body excludedDomains).1.tasks =
      b.tasks ++ tasks ∧
    tasks.map taskInbox = (receivers U limits r b subscriptions excludedDomains).map
      (fun receiver => some receiver.inboxURL)
  := by
  by_cases hstores : StoresActivity U limits r b subscriptions excludedDomains ∧
      r.store = .answered ∧ r.group = true
  · obtain ⟨hstores, hstore, hgroup⟩ := hstores
    rw [enqueue_eq_of_stores hstores, receivers_of_stores hstores hstore hgroup]
    simp only [plannedTasks_eq_tasksOf, storeAndSend, hstore, hgroup, Bool.true_eq_false, if_false]
    cases r.send with
    | sent => exact ⟨_, rfl, map_taskInbox_tasksOf _⟩
    | failed published =>
      refine ⟨_, rfl, ?_⟩
      rw [publishedTasks_eq]
      change (atPositions published _).map taskInbox = _
      rw [map_atPositions, map_taskInbox_tasksOf, ← map_atPositions]
  · have hnone : receivers U limits r b subscriptions excludedDomains = [] := by
      by_contra hne
      exact hstores (stores_of_receivers hne)
    refine ⟨[], ?_, by rw [hnone]; rfl⟩
    rw [append_nil]
    by_cases hcall : StoresActivity U limits r b subscriptions excludedDomains
    · rw [enqueue_eq_of_stores hcall]
      simp only [storeAndSend]
      cases hstore : r.store with
      | failed effect => cases effect <;> rfl
      | answered =>
        have hgroup : r.group = false := by
          rw [← Bool.not_eq_true]
          intro hgroup
          exact hstores ⟨hcall, hstore, hgroup⟩
        simp only [hgroup, if_true]
        rfl
    · exact (enqueue_of_not_stores hcall body).tasks

end Receivers

end Api
