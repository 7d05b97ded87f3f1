import ActivityRelay.Api.Resolver
import ActivityRelay.Api.Targets
import ActivityRelay.HttpSignature.Origin
import ActivityRelay.Interaction.Trace
import ActivityRelay.Models.Snapshot

/-!
# Who receives a relayed activity

A call of `executeRelayActivity` starts up to two fan-outs. An activity with a document signature
goes to the subscribers as it is, and an `Announce` of its object to those followers that are not
subscribers too. Of any other activity there is one `Announce` for all of them.

No domain receives two tasks, and the domain of the source receives none, unless its form for
deliveries is empty and its form in the state is not. The two ways reach the same domains if and
only if every follower that can be delivered to, and that shares its domain with a subscriber,
shares it with one that can be delivered to.
-/

namespace Api

open ApiM Dedup GoString HttpSignature Interaction List Models NetUrl

/-! ### The fan-outs of a run -/

/-- A fan-out that is started. -/
structure FanOutCall where
  subscriptions : List Subscriber
  payload : Payload
  excludedDomains : List GoString

def fanOutCall? : (o : ApiOp) × o.Reply → Option FanOutCall
  | ⟨.enqueueActivityExcept subscriptions payload excludedDomains, _⟩ =>
      some ⟨subscriptions, payload, excludedDomains⟩
  | _ => none

/-- The fan-outs of a trace. -/
def fanOutCalls (τ : List ((o : ApiOp) × o.Reply)) : List FanOutCall := τ.filterMap fanOutCall?

section Calls

variable (relay : Relay) (activity : Activity) (actor : Actor)

/-- The received bytes, for the subscribers. -/
def forwardCall (body sourceDomain : GoString) : FanOutCall where
  subscriptions := relay.state.subscribers
  payload := .received body
  excludedDomains := [sourceDomain]

/-- The announcement of an object, for the followers that are not subscribers. -/
def followerCall (uuid objectID sourceDomain : GoString) : FanOutCall where
  subscriptions := relay.state.followers.map Follower.toSubscriber
  payload := .authored (announce relay uuid objectID)
  excludedDomains := sourceDomain :: relay.state.subscribers.map Subscriber.domain

/-- The announcement of an object, for all receivers. -/
def announceCall (uuid objectID sourceDomain : GoString) : FanOutCall where
  subscriptions := relay.state.subscribersAndFollowers
  payload := .authored (announce relay uuid objectID)
  excludedDomains := [sourceDomain]

/-- The fan-outs that `executeRelayActivity` starts once the activity is recorded. -/
def relayCalls (body sourceDomain uuid : GoString) : List FanOutCall :=
  if hasMastodonLinkedDataSignature body then
    forwardCall relay body sourceDomain ::
      (activity.unwrapInnerObjectId.map (followerCall relay uuid · sourceDomain)).toList
  else (activity.unwrapInnerObjectId.map (announceCall relay uuid · sourceDomain)).toList

variable {relay activity actor} {body : GoString} {τ : List ((o : ApiOp) × o.Reply)}
  {result : Except GoString Unit}

/-- The record of an actor that may relay is made if the form of its domain in the state is not
empty, and it succeeds if the state says so. -/
theorem runs_recordPublisherActivity {r : Except GoString Unit}
    (hable : isActorAbleToRelay relay actor = true) :
  (recordPublisherActivity relay activity actor).Runs τ r ↔
    if normalizeStateDomain relay.caseTable (normalizedActorDomain relay (parse actor.id)) = [] then
      τ = [] ∧ r = .error (lit "publisher domain is empty")
    else
      ∃ reply : Option GoString,
        τ = [⟨.recordPublisherActivity
          (publisherRecord activity actor (normalizedActorDomain relay (parse actor.id))), reply⟩] ∧
        r = reply.elim (.ok ()) .error
  := by
  rw [recordPublisherActivity_of_able (checkActor_of_able hable) hable, storePublisher]
  change Prog.Runs (if normalizeStateDomain _ (normalizedActorDomain _ _) = [] then _ else _) τ r ↔ _
  split
  · rw [eq_comm (a := r)]
    exact Prog.runs_pure
  rw [record, Prog.runs_op]
  constructor
  · rintro ⟨reply, τ', rfl, h⟩
    refine ⟨reply, ?_⟩
    cases reply with
    | none | some =>
      cases h
      exact ⟨rfl, rfl⟩
  · rintro ⟨reply, rfl, rfl⟩
    refine ⟨reply, [], rfl, ?_⟩
    cases reply with
    | none | some => exact .pure _

/-- A run that succeeds for an actor that may relay has recorded it, and starts the fan-outs. -/
theorem fanOutCalls_of_runs (h : (executeRelayActivity relay activity actor body).Runs τ result) :
  fanOutCalls τ = [] ∧ (isActorAbleToRelay relay actor = false ∨ result ≠ .ok ()) ∨
    isActorAbleToRelay relay actor = true ∧ result = .ok () ∧
      normalizeStateDomain relay.caseTable (normalizedActorDomain relay (parse actor.id)) ≠ [] ∧
      ∃ uuid, fanOutCalls τ =
        relayCalls relay activity body (normalizedActorDomain relay (parse actor.id)) uuid
  := by
  unfold executeRelayActivity at h
  cases hable : isActorAbleToRelay relay actor with
  | false =>
    left
    cases hcheck : checkActor relay actor with
    | error e =>
      rw [hcheck] at h
      cases h
      exact ⟨rfl, .inl rfl⟩
    | ok domain =>
      rw [hcheck] at h
      simp only [hable, if_true] at h
      cases h
      exact ⟨rfl, .inl rfl⟩
  | true =>
    rw [checkActor_of_able hable] at h
    simp only [hable, Bool.true_eq_false, if_false] at h
    obtain ⟨τ₁, τ₂, r, rfl, hrecord, h⟩ := (Prog.runs_bind _ _).mp h
    rw [runs_recordPublisherActivity hable] at hrecord
    split_ifs at hrecord with hdomain
    · left
      obtain ⟨rfl, rfl⟩ := hrecord
      cases h
      refine ⟨rfl, .inr ?_⟩
      rintro ⟨⟩
    obtain ⟨reply, rfl, rfl⟩ := hrecord
    cases reply with
    | some e =>
      left
      cases h
      refine ⟨rfl, .inr ?_⟩
      rintro ⟨⟩
    | none =>
      right
      refine ⟨rfl, ?_⟩
      unfold relayCalls
      cases hsigned : hasMastodonLinkedDataSignature body with
      | false =>
        cases hobject : activity.unwrapInnerObjectId with
        | none =>
          simp only [Option.elim_none, hsigned, hobject, Bool.false_eq_true, if_false] at h
          cases h
          exact ⟨rfl, hdomain, [], rfl⟩
        | some objectID =>
          simp only [Option.elim_none, hsigned, hobject, Bool.false_eq_true, if_false] at h
          obtain ⟨uuid, τ₃, rfl, hannounce⟩ := Prog.runs_op.mp h
          obtain ⟨queued, τ₄, rfl, hreturn⟩ := Prog.runs_op.mp hannounce
          cases hreturn
          exact ⟨rfl, hdomain, uuid, rfl⟩
      | true =>
        cases hobject : activity.unwrapInnerObjectId with
        | none =>
          simp only [Option.elim_none, hsigned, hobject, if_true] at h
          obtain ⟨forwarded, τ₃, rfl, hreturn⟩ := Prog.runs_op.mp h
          cases hreturn
          exact ⟨rfl, hdomain, [], rfl⟩
        | some objectID =>
          simp only [Option.elim_none, hsigned, hobject, if_true] at h
          obtain ⟨forwarded, τ₃, rfl, huuid⟩ := Prog.runs_op.mp h
          obtain ⟨uuid, τ₄, rfl, hannounce⟩ := Prog.runs_op.mp huuid
          obtain ⟨queued, τ₅, rfl, hreturn⟩ := Prog.runs_op.mp hannounce
          cases hreturn
          exact ⟨rfl, hdomain, uuid, rfl⟩

/-- An actor that may relay and can be recorded has a run that succeeds. -/
theorem exists_run (activity : Activity) (body : GoString)
    (hable : isActorAbleToRelay relay actor = true)
    (hdomain :
      normalizeStateDomain relay.caseTable (normalizedActorDomain relay (parse actor.id)) ≠ []) :
  ∃ τ, (executeRelayActivity relay activity actor body).Runs τ (.ok ())
  := by
  unfold executeRelayActivity
  rw [checkActor_of_able hable]
  simp only [hable, Bool.true_eq_false, if_false]
  apply Prog.exists_runs_bind (a := .ok ())
  · simp only [runs_recordPublisherActivity hable, if_neg hdomain]
    exact ⟨_, none, rfl, rfl⟩
  dsimp only
  split
  · apply Prog.exists_runs_op true
    split
    · exact ⟨[], .pure _⟩
    · refine Prog.exists_runs_op (lit "uuid") ?_
      apply Prog.exists_runs_op true
      exact ⟨[], .pure _⟩
  · split
    · exact ⟨[], .pure _⟩
    · refine Prog.exists_runs_op (lit "uuid") ?_
      apply Prog.exists_runs_op true
      exact ⟨[], .pure _⟩

end Calls

/-! ### Deliveries -/

/-- The targets for which a fan-out queues a task. -/
def FanOutCall.receivers (U : CaseTable) (limits : Limits) (call : FanOutCall)
    (outcome : FanOutRun × Backend) : List Subscriber :=
  Api.receivers U limits outcome.1 outcome.2 call.subscriptions call.excludedDomains

/-- The tasks that fan-outs queue: each is given by its fan-out and its receiver. How the fan-outs
end is given by their number. -/
def deliveries (U : CaseTable) (limits : Limits) (outcomes : ℕ → FanOutRun × Backend)
    (calls : List FanOutCall) : List (FanOutCall × Subscriber) :=
  calls.zipIdx.flatMap fun (call, i) => (call.receivers U limits (outcomes i)).map (Prod.mk call)

/-- The task is one for followers: an announcement instead of the received bytes. -/
def FanOutCall.announces (call : FanOutCall) : Bool :=
  match call.payload with
  | .received _ => false
  | _ => true

/-- No domain receives two tasks, a follower that is a subscriber too receives no announcement of
an activity that is forwarded, and the domain of the source receives nothing. -/
structure SeparateTasks (relay : Relay) (body sourceDomain : GoString)
    (tasks : List (FanOutCall × Subscriber)) : Prop where
  once (d : GoString) : d ≠ [] →
    tasks.countP (fun x => normalizedStoredDomain relay.caseTable x.2.domain = d) ≤ 1
  preferred : hasMastodonLinkedDataSignature body = true → ∀ x ∈ tasks, x.1.announces = true →
    normalizedStoredDomain relay.caseTable x.2.domain ≠ [] →
    ∀ s ∈ relay.state.subscribers, normalizedStoredDomain relay.caseTable s.domain ≠
      normalizedStoredDomain relay.caseTable x.2.domain
  source : ∀ x ∈ tasks, normalizedStoredDomain relay.caseTable x.2.domain ≠
    normalizedStoredDomain relay.caseTable sourceDomain

section Deliveries

variable {U : CaseTable} {limits : Limits} {outcomes : ℕ → FanOutRun × Backend}
  {calls : List FanOutCall} {relay : Relay} {activity : Activity}
  {body sourceDomain uuid d : GoString} {call : FanOutCall}

theorem mem_deliveries {x : FanOutCall × Subscriber} (h : x ∈ deliveries U limits outcomes calls) :
  x.1 ∈ calls ∧ x.2 ∈ fanOutTargets U x.1.subscriptions x.1.excludedDomains
  := by
  obtain ⟨⟨call, i⟩, hcall, h⟩ := mem_flatMap.mp h
  obtain ⟨receiver, hreceiver, rfl⟩ := mem_map.mp h
  exact ⟨fst_mem_of_mem_zipIdx hcall, receivers_sublist.subset hreceiver⟩

theorem mem_deliveries_cons {receiver : Subscriber}
    (h : receiver ∈ call.receivers U limits (outcomes 0)) :
  (call, receiver) ∈ deliveries U limits outcomes (call :: calls)
  := by
  exact mem_append_left _ (mem_map_of_mem h)

theorem sourceDomain_mem_excludedDomains
    (h : call ∈ relayCalls relay activity body sourceDomain uuid) :
  sourceDomain ∈ call.excludedDomains
  := by
  unfold relayCalls at h
  split at h
  · rw [mem_cons, Option.mem_toList, Option.map_eq_some_iff] at h
    obtain rfl | ⟨objectID, -, rfl⟩ := h
    · exact mem_singleton_self sourceDomain
    · apply mem_cons_self
  · rw [Option.mem_toList, Option.map_eq_some_iff] at h
    obtain ⟨objectID, -, rfl⟩ := h
    exact mem_singleton_self sourceDomain

/-- The fan-out of the followers excludes the domains of the subscribers. -/
theorem subscriber_mem_excludedDomains (h : call ∈ relayCalls relay activity body sourceDomain uuid)
    (hsigned : hasMastodonLinkedDataSignature body = true) (hannounces : call.announces = true)
    {s : Subscriber} (hs : s ∈ relay.state.subscribers) :
  s.domain ∈ call.excludedDomains
  := by
  rw [relayCalls, if_pos hsigned, mem_cons, Option.mem_toList, Option.map_eq_some_iff] at h
  obtain rfl | ⟨objectID, -, rfl⟩ := h
  · cases hannounces
  · exact mem_cons_of_mem _ (mem_map_of_mem hs)

/-- The number of tasks that a fan-out queues for a domain. -/
def FanOutCall.tasksFor (U : CaseTable) (limits : Limits) (call : FanOutCall)
    (outcome : FanOutRun × Backend) (d : GoString) : ℕ :=
  (call.receivers U limits outcome).countP
    (fun receiver => normalizedStoredDomain U receiver.domain = d)

theorem tasksFor_le (U : CaseTable) (limits : Limits) (call : FanOutCall)
    (outcome : FanOutRun × Backend) (hd : d ≠ []) :
  call.tasksFor U limits outcome d ≤ 1
  := receivers_sublist.countP_le.trans (countP_domain_fanOutTargets_le hd)

/-- A domain that receives the forwarded bytes does not receive the announcement. -/
theorem tasksFor_followers_eq_zero (uuid objectID : GoString) {outcome : FanOutRun × Backend}
    (outcome' : FanOutRun × Backend) (hd : d ≠ [])
    (h : 0 < (forwardCall relay body sourceDomain).tasksFor relay.caseTable limits outcome d) :
  (followerCall relay uuid objectID sourceDomain).tasksFor relay.caseTable limits outcome' d = 0
  := by
  obtain ⟨subscriber, hsubscriber, hdomain⟩ := countP_pos_iff.mp h
  rw [decide_eq_true_eq] at hdomain
  rw [FanOutCall.tasksFor, countP_eq_zero]
  intro follower hfollower heq
  rw [decide_eq_true_eq] at heq
  have hmem := (mem_fanOutTargets_eligible (receivers_sublist.subset hsubscriber)).1
  have heligible := (mem_fanOutTargets_eligible (receivers_sublist.subset hfollower)).2
  refine domain_ne_of_eligible heligible (d := subscriber.domain) ?_ ?_ ?_
  · exact mem_cons_of_mem _ (mem_map_of_mem hmem)
  · rwa [hdomain]
  · rw [heq, hdomain]

theorem countP_deliveries (d : GoString) :
  (deliveries U limits outcomes calls).countP
      (fun x => normalizedStoredDomain U x.2.domain = d) =
    (calls.zipIdx.map fun (call, i) => call.tasksFor U limits (outcomes i) d).sum
  := by
  rw [deliveries, countP_flatMap]
  congr 1
  apply map_congr_left
  rintro ⟨call, i⟩ _
  simp only [Function.comp_apply, countP_map]
  rfl

/-- A domain receives at most one of the tasks. -/
theorem countP_deliveries_le (hd : d ≠ []) :
  (deliveries relay.caseTable limits outcomes
      (relayCalls relay activity body sourceDomain uuid)).countP
    (fun x => normalizedStoredDomain relay.caseTable x.2.domain = d) ≤ 1
  := by
  rw [countP_deliveries, relayCalls]
  split
  · have hforward := tasksFor_le relay.caseTable limits (forwardCall relay body sourceDomain)
      (outcomes 0) hd
    cases activity.unwrapInnerObjectId with
    | none => simpa using hforward
    | some objectID =>
      have hfollowers := tasksFor_le relay.caseTable limits
        (followerCall relay uuid objectID sourceDomain) (outcomes 1) hd
      simp only [Option.map_some, Option.toList_some, zipIdx_cons, zipIdx_nil,
        map_cons, map_nil, sum_cons, sum_nil, zero_add]
      obtain hzero | hpos := Nat.eq_zero_or_pos
        ((forwardCall relay body sourceDomain).tasksFor relay.caseTable limits (outcomes 0) d)
      · omega
      · have hnone := tasksFor_followers_eq_zero uuid objectID (outcomes 1) hd hpos
        omega
  · cases activity.unwrapInnerObjectId with
    | none => simp
    | some objectID =>
      simpa using tasksFor_le relay.caseTable limits
        (announceCall relay uuid objectID sourceDomain) (outcomes 0) hd

theorem separateTasks_nil :
  SeparateTasks relay body sourceDomain []
  := by
  constructor
  case once =>
    intro d _
    exact Nat.zero_le 1
  case preferred =>
    rintro - x ⟨⟩
  case source =>
    rintro x ⟨⟩

theorem separateTasks_deliveries
    (hsource : normalizedStoredDomain relay.caseTable sourceDomain ≠ []) :
  SeparateTasks relay body sourceDomain (deliveries relay.caseTable limits outcomes
    (relayCalls relay activity body sourceDomain uuid))
  := by
  constructor
  case once =>
    intro d hd
    apply countP_deliveries_le hd
  case preferred =>
    intro hsigned x hx hannounces hdomain s hs heq
    obtain ⟨hcall, htarget⟩ := mem_deliveries hx
    refine domain_ne_of_eligible (mem_fanOutTargets_eligible htarget).2
      (subscriber_mem_excludedDomains hcall hsigned hannounces hs) ?_ heq.symm
    rwa [heq]
  case source =>
    intro x hx
    obtain ⟨hcall, htarget⟩ := mem_deliveries hx
    exact domain_ne_of_eligible (mem_fanOutTargets_eligible htarget).2
      (sourceDomain_mem_excludedDomains hcall) hsource

end Deliveries

/-! ### A source without a normal domain -/

/-- A subscriber whose stored domain is normalised to the empty string. -/
def rootSubscriber : Subscriber := ⟨lit ".", lit "https://a/inbox", [], []⟩

/-- Nobody is blocked, and there is one subscriber. -/
def rootState : RelayState where
  relayConfig := ⟨false, false⟩
  limitedDomains := []
  blockedDomains := []
  subscribers := [rootSubscriber]
  followers := []
  publishers := []
  subscribersAndFollowers := [rootSubscriber]
  publishersByDomain := fun _ => none

/-- Everything goes well. -/
def smoothRun : FanOutRun := { brokenGroup with send := .sent }

section Root

variable (U : CaseTable)

theorem normalizedStoredDomain_root :
  normalizedStoredDomain U rootSubscriber.domain = []
  := by
  rfl

theorem validInbox_root :
  validInbox U rootSubscriber = true
  := by
  have hparse : parse (trimSpace rootSubscriber.inboxURL) =
      some { scheme := lit "https", host := lit "a", path := lit "/inbox" } := by
    decide +kernel
  rw [validInbox_iff, normalizeDestinationOrigin, hparse]
  exact ⟨_, rfl⟩

/-- Such a subscriber cannot be excluded. -/
theorem fanOutTargets_root (excludedDomains : List GoString) :
  fanOutTargets U [rootSubscriber] excludedDomains = [rootSubscriber]
  := by
  have heligible : eligible U excludedDomains rootSubscriber = true := by
    rw [eligible, isExcluded, normalizedStoredDomain_root, validInbox_root]
    rfl
  rw [fanOutTargets_eq_firsts, filter_cons_of_pos heligible, filter_nil]
  rfl

theorem receivers_root (excludedDomains : List GoString) :
  receivers U smallLimits smoothRun emptyBackend [rootSubscriber] excludedDomains =
    [rootSubscriber]
  := by
  have hsucceeds : Succeeds smallLimits smoothRun emptyBackend [rootSubscriber] :=
    ⟨by decide, fun _ _ => rfl, rfl, by decide, ⟨rfl, rfl, rfl⟩⟩
  rw [receivers_of_succeeds, fanOutTargets_root]
  rwa [fanOutTargets_root]

end Root

theorem ne_nil_of_normalizeStateDomain {U : CaseTable} {d : GoString}
    (h : normalizeStateDomain U d ≠ []) :
  d ≠ []
  := by
  rintro rfl
  exact h rfl

/-- If nobody is blocked then every actor with a domain may relay. -/
theorem able_of_rootState (relay : Relay) {actor : Actor}
    (h : normalizedActorDomain relay (parse actor.id) ≠ []) :
  isActorAbleToRelay { relay with state := rootState } actor = true
  := by
  unfold isActorAbleToRelay
  cases hparse : parse actor.id with
  | none =>
    rw [hparse] at h
    exact absurd rfl h
  | some url =>
    rw [hparse] at h
    exact if_neg h

/-- In every run of `executeRelayActivity` for an actor, with any subscribers and followers, each
domain receives at most one task, a follower that is a subscriber too receives none for a signed
body, and the domain of the actor receives none, if and only if the stored form of the domain of the
actor is not empty, or it cannot be recorded since the form in the state is empty. -/
theorem deliveries_separate_iff (relay : Relay) (actor : Actor) :
  (∀ (state : RelayState) (limits : Limits) (activity : Activity) (body : GoString)
      (τ : List ((o : ApiOp) × o.Reply)) (result : Except GoString Unit)
      (outcomes : ℕ → FanOutRun × Backend),
      (executeRelayActivity { relay with state := state } activity actor body).Runs τ result →
      SeparateTasks { relay with state := state } body (normalizedActorDomain relay (parse actor.id))
        (deliveries relay.caseTable limits outcomes (fanOutCalls τ))) ↔
    (normalizeStateDomain relay.caseTable (normalizedActorDomain relay (parse actor.id)) ≠ [] →
      normalizedStoredDomain relay.caseTable (normalizedActorDomain relay (parse actor.id)) ≠ [])
  := by
  constructor
  · intro hseparate hdomain hempty
    have hable := able_of_rootState relay (ne_nil_of_normalizeStateDomain hdomain)
    obtain ⟨τ, hruns⟩ := exists_run {} signedBody hable hdomain
    obtain ⟨-, hfailed | hfailed⟩ | ⟨-, -, -, uuid, hcalls⟩ := fanOutCalls_of_runs hruns
    · rw [hable] at hfailed
      cases hfailed
    · exact absurd rfl hfailed
    have hseparate := hseparate rootState smallLimits {} signedBody τ (.ok ())
      (fun _ => (smoothRun, emptyBackend)) hruns
    have hsigned : hasMastodonLinkedDataSignature signedBody = true := by decide +kernel
    rw [hcalls, relayCalls, if_pos hsigned] at hseparate
    refine hseparate.source (_, rootSubscriber) (mem_deliveries_cons ?_) ?_
    · change rootSubscriber ∈ receivers _ _ _ _ [rootSubscriber] _
      rw [receivers_root]
      exact mem_singleton_self rootSubscriber
    · rw [hempty]
      apply normalizedStoredDomain_root
  · intro hsource state limits activity body τ result outcomes hruns
    obtain ⟨hnone, -⟩ | ⟨-, -, hdomain, uuid, hcalls⟩ := fanOutCalls_of_runs hruns
    · rw [hnone]
      apply separateTasks_nil
    · rw [hcalls]
      exact separateTasks_deliveries (hsource hdomain)

/-- Redis answers every call, and every fan-out is admitted. -/
def answerWell (_ : ℕ) : (o : ApiOp) → o.Reply
  | .newUUID => lit "uuid"
  | .setNX _ _ => some true
  | .compareDel _ _ => ()
  | .recordPublisherActivity _ => none
  | .enqueueActivityExcept _ _ _ => true
  | .enqueueRegisterActivity _ _ => ()
  | .setPending _ _ => ()
  | .addSubscriber _ => ()
  | .addFollowerChecked _ => none
  | .delSubscriber _ => ()
  | .delFollower _ => ()
  | .updateFollowerStatusChecked _ _ => none

/-- A program that ends well for these answers has such a run. -/
theorem runs_answerWell {p : ApiM (Except GoString Unit)} (h : (p.exec answerWell).2.isOk = true) :
  p.Runs (p.exec answerWell).1 (.ok ())
  := by
  have hrun := Prog.runs_exec answerWell p
  cases hresult : (p.exec answerWell).2 with
  | error message =>
    rw [hresult] at h
    cases h
  | ok result =>
    rw [hresult] at hrun
    exact hrun

/-- An actor with the domain `.:80`. It can be recorded, but the form of this domain for deliveries
is empty, as that of the subscriber is, which receives the activity. -/
theorem source_receives_own_activity :
  let relay : Relay := { exampleRelay [] with state := rootState }
  let actor : Actor := { id := lit "https://.:80:/u" }
  normalizedActorDomain relay (parse actor.id) = lit ".:80" ∧
  ∃ τ, (executeRelayActivity relay {} actor signedBody).Runs τ (.ok ()) ∧
    (deliveries relay.caseTable smallLimits (fun _ => (smoothRun, emptyBackend))
        (fanOutCalls τ)).map (fun x => normalizedStoredDomain relay.caseTable x.2.domain) =
      [normalizedStoredDomain relay.caseTable (normalizedActorDomain relay (parse actor.id))]
  := by
  have hrun := runs_answerWell (p := executeRelayActivity
    { exampleRelay [] with state := rootState } {} { id := lit "https://.:80:/u" } signedBody)
    (by decide +kernel)
  refine ⟨by decide +kernel, _, hrun, ?_⟩
  decide +kernel

/-! ### Domains without a slash -/

section Slash

variable {U : CaseTable} {d : GoString} {excludedDomains : List GoString}

theorem slash_mem_normalizeStateDomain :
  0x2F ∈ normalizeStateDomain U d ↔ 0x2F ∈ d
  := by
  rw [normalizeStateDomain, mem_toLower_special (by decide), mem_trimSuffix (by decide),
    mem_trimSpace (by decide) (by decide)]

theorem slash_not_mem_normalizedStoredDomain (h : 0x2F ∉ d) :
  0x2F ∉ normalizedStoredDomain U d
  := by
  have hspace : 0x2F ∉ trimSpace d := by rwa [mem_trimSpace (by decide) (by decide)]
  have hdomain : 0x2F ∉ toLower U (trimSuffix 0x2E (trimSpace d)) := by
    rwa [mem_toLower_special (by decide), mem_trimSuffix (by decide)]
  unfold normalizedStoredDomain
  dsimp only
  split
  · apply not_mem_nil
  split
  · rename_i url hparse
    split
    · rw [mem_toLower_special (by decide), mem_trimSuffix (by decide)]
      exact fun hmem => slash_not_mem_host hparse ((hostname_sublist url).subset hmem)
    · exact hdomain
  · exact hdomain

/-- The domain of a follower that is accepted has no slash, since that of its actor has none. -/
theorem slash_not_mem_follower {f : Follower} (h : validateFollower U f = .ok ()) :
  0x2F ∉ f.domain
  := by
  obtain ⟨-, ⟨actorURL, hactor, hhost⟩, -, -⟩ := validateFollower_eq_ok.mp h
  rw [← slash_mem_normalizeStateDomain (U := U), ← hhost, slash_mem_normalizeStateDomain]
  unfold validateFollowerURL at hactor
  split at hactor
  · cases hactor
  · rename_i parsed hparse
    split_ifs at hactor
    cases hactor
    exact slash_not_mem_host hparse

/-- An address with an origin has a slash. -/
theorem slash_mem_inbox {subscription : Subscriber} (h : validInbox U subscription = true) :
  0x2F ∈ trimSpace subscription.inboxURL
  := by
  obtain ⟨origin, horigin⟩ := validInbox_iff.mp h
  obtain ⟨url, hparse, hurl, -⟩ := normalizeDestinationOrigin_eq_ok.mp horigin
  obtain ⟨scheme, authority, tail, htext, -⟩ :=
    parse_authorityText hparse hurl.scheme_ne_nil hurl.host_ne_nil
  rw [htext.text]
  simp

/-- A target whose key has no slash has a domain, which is the key. -/
theorem domain_eq_of_dedupeKey {target : Subscriber} (hvalid : validInbox U target = true)
    (hkey : dedupeKey U target = d) (hslash : 0x2F ∉ d) :
  normalizedStoredDomain U target.domain = d
  := by
  by_cases hnil : normalizedStoredDomain U target.domain = []
  · rw [dedupeKey] at hkey
    rw [if_pos hnil] at hkey
    rw [← hkey, mem_toLower_special (by decide)] at hslash
    exact absurd (slash_mem_inbox hvalid) hslash
  · rw [← dedupeKey_of_ne_nil hnil]
    exact hkey

/-- An eligible subscription has a valid inbox and a domain that is not excluded. -/
theorem eligible_iff {s : Subscriber} (hs : normalizedStoredDomain U s.domain ≠ []) :
  eligible U excludedDomains s = true ↔
    (∀ x ∈ excludedDomains, normalizedStoredDomain U x ≠ normalizedStoredDomain U s.domain) ∧
      validInbox U s = true
  := by
  simp [eligible, isExcluded, hs]

/-- A domain without a slash is reached if it is not excluded and is that of a subscription with a
valid inbox. -/
theorem reached_domain_iff {subscriptions : List Subscriber} (hd : d ≠ []) (hslash : 0x2F ∉ d) :
  (∃ target ∈ fanOutTargets U subscriptions excludedDomains,
      normalizedStoredDomain U target.domain = d) ↔
    (∀ x ∈ excludedDomains, normalizedStoredDomain U x ≠ d) ∧
      ∃ s ∈ subscriptions, validInbox U s = true ∧ normalizedStoredDomain U s.domain = d
  := by
  constructor
  · rintro ⟨target, htarget, rfl⟩
    obtain ⟨hmem, heligible⟩ := mem_fanOutTargets_eligible htarget
    obtain ⟨hexcluded, hvalid⟩ := (eligible_iff hd).mp heligible
    exact ⟨hexcluded, target, hmem, hvalid, rfl⟩
  · rintro ⟨hexcluded, s, hs, hvalid, rfl⟩
    obtain ⟨target, htarget, hkey⟩ :=
      exists_target_of_eligible hs ((eligible_iff hd).mpr ⟨hexcluded, hvalid⟩)
    rw [dedupeKey_of_ne_nil hd] at hkey
    have hvalid' := validInbox_of_eligible (mem_fanOutTargets_eligible htarget).2
    exact ⟨target, htarget, domain_eq_of_dedupeKey hvalid' hkey hslash⟩

end Slash

/-! ### Signed and unsigned activities -/

/-- One of the tasks is for the domain. -/
def Reaches (U : CaseTable) (tasks : List (FanOutCall × Subscriber)) (d : GoString) : Prop :=
  ∃ x ∈ tasks, normalizedStoredDomain U x.2.domain = d

/-- The fan-outs succeed for all of their targets. -/
def AllSucceed (U : CaseTable) (limits : Limits) (outcomes : ℕ → FanOutRun × Backend)
    (calls : List FanOutCall) : Prop :=
  ∀ x ∈ calls.zipIdx, Succeeds limits (outcomes x.2).1 (outcomes x.2).2
    (fanOutTargets U x.1.subscriptions x.1.excludedDomains)

/-- A follower that can be delivered to, and that shares its domain with a subscriber, shares it
with one that can be delivered to, unless the domain is that of the source. -/
def SharedDeliverable (relay : Relay) (sourceDomain : GoString) : Prop :=
  ∀ f ∈ relay.state.followers, validInbox relay.caseTable (Follower.toSubscriber f) = true →
    normalizedStoredDomain relay.caseTable f.domain ≠ [] →
    normalizedStoredDomain relay.caseTable f.domain ≠
      normalizedStoredDomain relay.caseTable sourceDomain →
    (∃ s ∈ relay.state.subscribers, normalizedStoredDomain relay.caseTable s.domain =
      normalizedStoredDomain relay.caseTable f.domain) →
    ∃ s ∈ relay.state.subscribers, validInbox relay.caseTable s = true ∧
      normalizedStoredDomain relay.caseTable s.domain =
        normalizedStoredDomain relay.caseTable f.domain

section Reached

variable {U : CaseTable} {limits : Limits} {outcomes : ℕ → FanOutRun × Backend}
  {calls : List FanOutCall} {d : GoString}

theorem reaches_iff (h : AllSucceed U limits outcomes calls) :
  Reaches U (deliveries U limits outcomes calls) d ↔
    ∃ call ∈ calls, ∃ target ∈ fanOutTargets U call.subscriptions call.excludedDomains,
      normalizedStoredDomain U target.domain = d
  := by
  constructor
  · rintro ⟨x, hx, hdomain⟩
    obtain ⟨hcall, htarget⟩ := mem_deliveries hx
    exact ⟨x.1, hcall, x.2, htarget, hdomain⟩
  · rintro ⟨call, hcall, target, htarget, hdomain⟩
    rw [← zipIdx_map_fst 0 calls] at hcall
    obtain ⟨x, hx, rfl⟩ := mem_map.mp hcall
    rw [← receivers_of_succeeds (h x hx)] at htarget
    exact ⟨(x.1, target), mem_flatMap.mpr ⟨x, hx, mem_map_of_mem htarget⟩, hdomain⟩

end Reached

section SameDomains

variable {relay : Relay} {db : Database} {l : Listing db} {sourceDomain d : GoString}

/-- The domain of a follower that was loaded has no slash, in any form. -/
theorem slash_not_mem_loaded (hstate : relay.state = load relay.caseTable db l) {f : Follower}
    (hf : f ∈ relay.state.followers) :
  0x2F ∉ normalizedStoredDomain relay.caseTable f.domain
  := by
  rw [hstate, mem_followers] at hf
  obtain ⟨-, -, -, -, -, hvalid⟩ := loadFollower_eq_some.mp hf.2
  exact slash_not_mem_normalizedStoredDomain (slash_not_mem_follower hvalid)

theorem subscribersAndFollowers_load (hstate : relay.state = load relay.caseTable db l) :
  relay.state.subscribersAndFollowers =
    relay.state.subscribers ++ relay.state.followers.map Follower.toSubscriber
  := by
  rw [hstate]
  rfl

/-- The domains that the forwarded bytes and the announcement to the followers reach. -/
def ReachedSigned (relay : Relay) (sourceDomain d : GoString) : Prop :=
  (∃ target ∈ fanOutTargets relay.caseTable relay.state.subscribers [sourceDomain],
      normalizedStoredDomain relay.caseTable target.domain = d) ∨
    ∃ target ∈ fanOutTargets relay.caseTable (relay.state.followers.map Follower.toSubscriber)
        (sourceDomain :: relay.state.subscribers.map Subscriber.domain),
      normalizedStoredDomain relay.caseTable target.domain = d

/-- The domains that the announcement to all receivers reaches. -/
def ReachedUnsigned (relay : Relay) (sourceDomain d : GoString) : Prop :=
  ∃ target ∈ fanOutTargets relay.caseTable relay.state.subscribersAndFollowers [sourceDomain],
    normalizedStoredDomain relay.caseTable target.domain = d

/-- A domain with a slash is not that of a follower. -/
theorem reached_iff_of_slash (hstate : relay.state = load relay.caseTable db l)
    (hslash : 0x2F ∈ d) :
  ReachedSigned relay sourceDomain d ↔ ReachedUnsigned relay sourceDomain d
  := by
  have hfollower : ∀ target ∈ relay.state.followers.map Follower.toSubscriber,
      normalizedStoredDomain relay.caseTable target.domain ≠ d := by
    rintro target htarget rfl
    obtain ⟨f, hf, rfl⟩ := mem_map.mp htarget
    exact slash_not_mem_loaded hstate hf hslash
  unfold ReachedSigned ReachedUnsigned
  rw [subscribersAndFollowers_load hstate]
  simp only [fanOutTargets_eq_firsts, filter_append, mem_firsts_append]
  constructor
  · rintro (⟨target, htarget, hdomain⟩ | ⟨target, htarget, hdomain⟩)
    · exact ⟨target, .inl htarget, hdomain⟩
    · exact absurd hdomain (hfollower target (mem_of_mem_filter (mem_of_mem_firsts htarget)))
  · rintro ⟨target, htarget | ⟨htarget, -⟩, hdomain⟩
    · exact .inl ⟨target, htarget, hdomain⟩
    · exact absurd hdomain (hfollower target (mem_of_mem_filter (mem_of_mem_firsts htarget)))

/-- A subscriber that can be delivered to has the domain. -/
def SubscriberReachable (relay : Relay) (d : GoString) : Prop :=
  ∃ s ∈ relay.state.subscribers, validInbox relay.caseTable s = true ∧
    normalizedStoredDomain relay.caseTable s.domain = d

/-- A follower that can be delivered to has the domain. -/
def FollowerReachable (relay : Relay) (d : GoString) : Prop :=
  ∃ f ∈ relay.state.followers, validInbox relay.caseTable (Follower.toSubscriber f) = true ∧
    normalizedStoredDomain relay.caseTable f.domain = d

theorem followerReachable_iff :
  (∃ s ∈ relay.state.followers.map Follower.toSubscriber, validInbox relay.caseTable s = true ∧
      normalizedStoredDomain relay.caseTable s.domain = d) ↔
    FollowerReachable relay d
  := by
  constructor
  · rintro ⟨s, hs, hreachable⟩
    obtain ⟨f, hf, rfl⟩ := mem_map.mp hs
    exact ⟨f, hf, hreachable⟩
  · rintro ⟨f, hf, hreachable⟩
    exact ⟨Follower.toSubscriber f, mem_map_of_mem hf, hreachable⟩

theorem reachedUnsigned_iff (hstate : relay.state = load relay.caseTable db l) (hd : d ≠ [])
    (hslash : 0x2F ∉ d) :
  ReachedUnsigned relay sourceDomain d ↔
    normalizedStoredDomain relay.caseTable sourceDomain ≠ d ∧
      (SubscriberReachable relay d ∨ FollowerReachable relay d)
  := by
  rw [ReachedUnsigned, reached_domain_iff hd hslash, subscribersAndFollowers_load hstate]
  simp only [forall_mem_singleton, mem_append, or_and_right, exists_or,
    followerReachable_iff]
  rfl

theorem reachedSigned_iff (hd : d ≠ []) (hslash : 0x2F ∉ d) :
  ReachedSigned relay sourceDomain d ↔
    normalizedStoredDomain relay.caseTable sourceDomain ≠ d ∧
      (SubscriberReachable relay d ∨
        (∀ s ∈ relay.state.subscribers, normalizedStoredDomain relay.caseTable s.domain ≠ d) ∧
          FollowerReachable relay d)
  := by
  rw [ReachedSigned, reached_domain_iff hd hslash, reached_domain_iff hd hslash,
    followerReachable_iff, forall_mem_singleton, forall_mem_cons, forall_mem_map,
    and_assoc, ← and_or_left]
  rfl

/-- The two ways reach the same domains if and only if no follower is left out for a subscriber
that cannot be delivered to. -/
theorem reached_same_iff (hstate : relay.state = load relay.caseTable db l) :
  (∀ d ≠ [], ReachedSigned relay sourceDomain d ↔ ReachedUnsigned relay sourceDomain d) ↔
    SharedDeliverable relay sourceDomain
  := by
  constructor
  · intro hsame f hf hvalid hdomain hsource hshared
    have hslash := slash_not_mem_loaded hstate hf
    have hiff := hsame _ hdomain
    rw [reachedSigned_iff hdomain hslash, reachedUnsigned_iff hstate hdomain hslash] at hiff
    obtain ⟨-, hsubscriber | ⟨hnone, -⟩⟩ := hiff.mpr ⟨hsource.symm, .inr ⟨f, hf, hvalid, rfl⟩⟩
    · exact hsubscriber
    · obtain ⟨s, hs, heq⟩ := hshared
      exact absurd heq (hnone s hs)
  · intro hshared d hd
    by_cases hslash : 0x2F ∈ d
    · exact reached_iff_of_slash hstate hslash
    rw [reachedSigned_iff hd hslash, reachedUnsigned_iff hstate hd hslash]
    constructor
    · rintro ⟨hsource, hsubscriber | ⟨-, hfollower⟩⟩
      · exact ⟨hsource, .inl hsubscriber⟩
      · exact ⟨hsource, .inr hfollower⟩
    · rintro ⟨hsource, hsubscriber | ⟨f, hf, hvalid, rfl⟩⟩
      · exact ⟨hsource, .inl hsubscriber⟩
      · refine ⟨hsource, ?_⟩
        by_cases hboth : ∃ s ∈ relay.state.subscribers,
            normalizedStoredDomain relay.caseTable s.domain =
              normalizedStoredDomain relay.caseTable f.domain
        · exact .inl (hshared f hf hvalid hd hsource.symm hboth)
        · exact .inr ⟨by simpa using hboth, f, hf, hvalid, rfl⟩

end SameDomains

/-- The fan-outs of an activity with a document signature and of one without it, whose object has
an ID, reach the same domains, if all of them succeed. This is so if and only if the actor may not
relay, or every follower that can be delivered to, and that shares its domain with a subscriber,
shares it with one that can be delivered to. -/
theorem same_domains_iff {relay : Relay} {db : Database} {l : Listing db}
    (hstate : relay.state = load relay.caseTable db l) {activity : Activity} {actor : Actor}
    {objectID : GoString} (hobject : activity.unwrapInnerObjectId = some objectID)
    {signedBody unsignedBody : GoString}
    (hsigned : hasMastodonLinkedDataSignature signedBody = true)
    (hunsigned : hasMastodonLinkedDataSignature unsignedBody = false)
    {τ τ' : List ((o : ApiOp) × o.Reply)}
    (hruns : (executeRelayActivity relay activity actor signedBody).Runs τ (.ok ()))
    (hruns' : (executeRelayActivity relay activity actor unsignedBody).Runs τ' (.ok ()))
    {limits : Limits} {outcomes outcomes' : ℕ → FanOutRun × Backend}
    (hall : AllSucceed relay.caseTable limits outcomes (fanOutCalls τ))
    (hall' : AllSucceed relay.caseTable limits outcomes' (fanOutCalls τ')) :
  (∀ d ≠ [],
      Reaches relay.caseTable (deliveries relay.caseTable limits outcomes (fanOutCalls τ)) d ↔
        Reaches relay.caseTable (deliveries relay.caseTable limits outcomes' (fanOutCalls τ')) d) ↔
    (isActorAbleToRelay relay actor = true →
      SharedDeliverable relay (normalizedActorDomain relay (parse actor.id)))
  := by
  simp only [reaches_iff hall, reaches_iff hall']
  obtain ⟨hnone, hfailed | hfailed⟩ | ⟨hable, -, -, uuid, hcalls⟩ := fanOutCalls_of_runs hruns
  · -- Nothing is sent for an actor that may not relay.
    have hnone' : fanOutCalls τ' = [] := by
      obtain ⟨hnone', -⟩ | ⟨hable, -⟩ := fanOutCalls_of_runs hruns'
      · exact hnone'
      · rw [hfailed] at hable
        cases hable
    simp [hnone, hnone', hfailed]
  · exact absurd rfl hfailed
  · obtain ⟨-, hfailed | hfailed⟩ | ⟨-, -, -, uuid', hcalls'⟩ := fanOutCalls_of_runs hruns'
    · rw [hable] at hfailed
      cases hfailed
    · exact absurd rfl hfailed
    rw [hcalls, hcalls', relayCalls, relayCalls, if_pos hsigned, if_neg (by simp [hunsigned]), hobject]
    simp only [hable, true_imp_iff, ← reached_same_iff hstate, Option.map_some, Option.toList_some,
      mem_cons, not_mem_nil, or_false, exists_eq_or_imp, exists_eq_left]
    rfl

/-- Fan-outs to few subscriptions succeed if everything goes well. -/
theorem allSucceed_smooth {U : CaseTable} {calls : List FanOutCall}
    (h : ∀ call ∈ calls, call.subscriptions.length ≤ 2) :
  AllSucceed U smallLimits (fun _ => (smoothRun, emptyBackend)) calls
  := by
  intro x hx
  have hlength : (fanOutTargets U x.1.subscriptions x.1.excludedDomains).length ≤ 2 := by
    have horder := (areTargets_fanOutTargets U x.1.subscriptions x.1.excludedDomains).order
    exact horder.length_le.trans (h x.1 (fst_mem_of_mem_zipIdx hx))
  refine ⟨hlength, fun _ _ => rfl, rfl, ?_, ⟨rfl, rfl, rfl⟩⟩
  have hroom : ((fanOutTargets U x.1.subscriptions x.1.excludedDomains).length : ℤ) ≤ 2 := by
    exact_mod_cast hlength
  have hempty : (emptyBackend.queued : ℤ) + Queue.reserved emptyBackend.now emptyBackend.counter = 0 :=
    rfl
  rw [hempty, zero_add]
  exact hroom

variable (inboxURL : String)

/-- The domain `a` is a subscriber, with some inbox, and a follower. -/
def sharedDatabase : Database :=
  (Database.empty.addSubscriber ⟨lit "a", lit inboxURL, lit "s", lit "https://a/u"⟩).addFollower
    .identity ⟨lit "a", lit "https://a/inbox", lit "f", lit "https://a/u", false⟩

/-- A database with one subscriber has no followers. -/
theorem hash_subscriber_fields {s : Subscriber} {d : GoString} {fields : List GoString}
    (field : GoString)
    (h : ((Database.empty.addSubscriber s).hash (followerKey d) field).isSome = true) :
  field ∈ fields
  := by
  rw [Database.hash, addSubscriber_of_ne (followerKey_ne_subscriptionKey _ _)] at h
  exact hash_empty_fields field h

def sharedListing : Listing (sharedDatabase inboxURL) :=
  (Listing.ofEmpty.addSubscriber _ hash_empty_fields).addFollower .identity _
    hash_subscriber_fields

def sharedRelay : Relay :=
  { exampleRelay [] with state := load .identity (sharedDatabase inboxURL) (sharedListing inboxURL) }

/-- An activity whose object has an ID. -/
def identifiedActivity : Activity := { object := some (.string (lit "https://b/o")) }

/-- The trace of the relay activity, if everything goes well. -/
def sharedTrace (body : GoString) : List ((o : ApiOp) × o.Reply) :=
  ((executeRelayActivity (sharedRelay inboxURL) identifiedActivity exampleActor body).exec
    answerWell).1

theorem same_domains_shared :
  let relay := sharedRelay "https://a/inbox"
  let tasks := fun body => deliveries relay.caseTable smallLimits
    (fun _ => (smoothRun, emptyBackend)) (fanOutCalls (sharedTrace "https://a/inbox" body))
  ∀ d ≠ [], Reaches relay.caseTable (tasks signedBody) d ↔
    Reaches relay.caseTable (tasks (lit "\x7b\x7d")) d
  := by
  have hshared : SharedDeliverable (sharedRelay "https://a/inbox")
      (normalizedActorDomain (sharedRelay "https://a/inbox") (parse exampleActor.id)) := by
    unfold SharedDeliverable
    decide +kernel
  have hfew : ∀ body ∈ [signedBody, lit "\x7b\x7d"],
      ∀ call ∈ fanOutCalls (sharedTrace "https://a/inbox" body), call.subscriptions.length ≤ 2 := by
    decide +kernel
  exact (same_domains_iff (l := sharedListing "https://a/inbox") rfl rfl (by decide +kernel)
    (by decide +kernel) (runs_answerWell (by decide +kernel)) (runs_answerWell (by decide +kernel))
    (allSucceed_smooth (hfew _ (by simp))) (allSucceed_smooth (hfew _ (by simp)))).mpr
    (fun _ => hshared)

/-- The inbox of the subscriber cannot be delivered to. The announcement reaches the domain as that
of a follower, and the signed activity does not. -/
theorem undeliverable_subscriber_hides_follower :
  let relay := sharedRelay "ftp://a/inbox"
  let tasks := fun body => deliveries relay.caseTable smallLimits
    (fun _ => (smoothRun, emptyBackend)) (fanOutCalls (sharedTrace "ftp://a/inbox" body))
  (∀ body ∈ [signedBody, lit "\x7b\x7d"],
      (executeRelayActivity relay identifiedActivity exampleActor body).Runs
          (sharedTrace "ftp://a/inbox" body) (.ok ()) ∧
        AllSucceed relay.caseTable smallLimits (fun _ => (smoothRun, emptyBackend))
          (fanOutCalls (sharedTrace "ftp://a/inbox" body))) ∧
    tasks signedBody = [] ∧ (tasks (lit "\x7b\x7d")).map (·.2.domain) = [lit "a"]
  := by
  refine ⟨?_, ?_, by decide +kernel⟩
  · have hfew : ∀ body ∈ [signedBody, lit "\x7b\x7d"],
        ∀ call ∈ fanOutCalls (sharedTrace "ftp://a/inbox" body), call.subscriptions.length ≤ 2 := by
      decide +kernel
    have hok : ∀ body ∈ [signedBody, lit "\x7b\x7d"],
        ((executeRelayActivity (sharedRelay "ftp://a/inbox") identifiedActivity exampleActor
          body).exec answerWell).2.isOk = true := by
      decide +kernel
    exact fun body hbody => ⟨runs_answerWell (hok body hbody), allSucceed_smooth (hfew body hbody)⟩
  · rw [← length_eq_zero_iff]
    decide +kernel

end Api
