import ActivityRelay.Api.Resolver
import ActivityRelay.Models.ReceiverHealth
import ActivityRelay.Models.Snapshot

/-!
# Receivers on the status page

The status page lists the domains of the subscribers and followers, each with the delivery health
that the workers have recorded. A worker names the record by the authority of the inbox, and the
status page looks for it under the domain of the registration, which is the host of the actor.
-/

namespace Api

open GoString Interaction Models NetUrl

/-! ### The page -/

structure RelayStatusReceiver where
  domain : GoString
  lastSuccessAt : GoString
  lastFailureAt : GoString
  consecutiveFailures : ℤ
  totalSuccesses : ℤ
  totalFailures : ℤ
  deriving DecidableEq, Repr

structure RelayStatusReceivingInstances where
  count : ℕ
  domains : List GoString
  entries : List RelayStatusReceiver
  deriving DecidableEq, Repr

section Page

variable (U : CaseTable)

def normalizedStatusDomain (domain : GoString) : GoString :=
  toLower U (trimSuffix 0x2E (trimSpace domain))

/-- The domains of those who receive activities, in order. -/
def receivingDomains (state : RelayState) : List GoString :=
  sortStrings ((state.subscribersAndFollowers.map
    (fun receiver => normalizedStatusDomain U receiver.domain)).filter (· ≠ [])).dedup

/-- The health of the domains. There is none without a client of Redis, or if it cannot be
loaded. -/
def healthByDomain (domains : List GoString) (client : Option Database) :
    List ReceiverDeliveryHealth :=
  match client with
  | none => []
  | some db => (loadReceiverDeliveryHealth U domains db).getD []

/-- The entry of a domain. -/
def receiverEntry (health : List ReceiverDeliveryHealth) (domain : GoString) : RelayStatusReceiver :=
  let health := (health.find? (fun h => h.domain = domain)).getD {}
  { domain := domain
    lastSuccessAt := health.lastSuccessAt
    lastFailureAt := health.lastFailureAt
    consecutiveFailures := health.consecutiveFailures
    totalSuccesses := health.totalSuccesses
    totalFailures := health.totalFailures }

/-- The receiving instances in `buildRelayStatus`. -/
def receivingInstances (state : RelayState) (client : Option Database) :
    RelayStatusReceivingInstances :=
  let domains := receivingDomains U state
  { count := domains.length
    domains := domains
    entries := domains.map (receiverEntry (healthByDomain U domains client)) }

end Page

section Reports

variable {U : CaseTable} {state : RelayState} {d : GoString} {domains : List GoString}
  {g : GoString → ReceiverDeliveryHealth} {db : Database} {receiver : Subscriber}

theorem mem_receivingDomains :
  d ∈ receivingDomains U state ↔
    d ≠ [] ∧ ∃ receiver ∈ state.subscribersAndFollowers, normalizedStatusDomain U receiver.domain = d
  := by
  simp [receivingDomains, mem_sortStrings, and_comm]

theorem mem_requestedDomains :
  d ∈ requestedDomains U domains ↔ d ≠ [] ∧ ∃ domain ∈ domains, normalizeStateDomain U domain = d
  := by
  simp [requestedDomains, mem_sortStrings, and_comm]

theorem mapM_eq_map {α β : Type} {f : α → Option β} {g : α → β} {l : List α}
    (h : ∀ a ∈ l, f a = some (g a)) :
  l.mapM f = some (l.map g)
  := by
  induction l with
  | nil => rfl
  | cons a l ih =>
    rw [List.forall_mem_cons] at h
    simp [h.1, ih h.2]

theorem find?_map_domain (hg : ∀ d, (g d).domain = d) (l : List GoString) :
  (l.map g).find? (fun h => h.domain = d) = if d ∈ l then some (g d) else none
  := by
  induction l with
  | nil => rfl
  | cons d' l ih =>
    by_cases heq : d' = d
    · subst heq
      simp [hg]
    · have hne : d ≠ d' := Ne.symm heq
      simp [hg, heq, hne, ih]

/-- The health of a domain, if all of the health can be loaded. -/
theorem find?_healthByDomain (hg : ∀ d, (g d).domain = d)
    (hload : ∀ d ≠ [], loadReceiverHealth d (db.hash (receiverHealthKey d)) = some (g d))
    (d : GoString) :
  (healthByDomain U domains (some db)).find? (fun h => h.domain = d) =
    if d ∈ requestedDomains U domains then some (g d) else none
  := by
  have hmap : loadReceiverDeliveryHealth U domains db = some ((requestedDomains U domains).map g) :=
    mapM_eq_map (fun a ha => hload a (mem_requestedDomains.mp ha).1)
  rw [healthByDomain, hmap, Option.getD_some, find?_map_domain hg]

/-! ### Attempts -/

variable (U state) in
/-- The entry of a receiver has the totals of some results. -/
def Reports (db : Database) (receiver : Subscriber) (results : List (Bool × GoString)) : Prop :=
  ∃ entry ∈ (receivingInstances U state (some db)).entries,
    entry.domain = normalizedStatusDomain U receiver.domain ∧
      entry.totalSuccesses = results.countP (·.1) ∧ entry.totalFailures = results.countP (!·.1)

instance (db : Database) (receiver : Subscriber) (results : List (Bool × GoString)) :
    Decidable (Reports U state db receiver results) :=
  inferInstanceAs (Decidable (∃ entry ∈ (receivingInstances U state (some db)).entries, _ ∧ _ ∧ _))

/-- A receiver has one entry. -/
theorem reports_iff_entry (hreceiver : receiver ∈ state.subscribersAndFollowers)
    (hdomain : normalizedStatusDomain U receiver.domain ≠ []) (results : List (Bool × GoString)) :
  Reports U state db receiver results ↔
    (receiverEntry (healthByDomain U (receivingDomains U state) (some db))
        (normalizedStatusDomain U receiver.domain)).totalSuccesses = results.countP (·.1) ∧
      (receiverEntry (healthByDomain U (receivingDomains U state) (some db))
        (normalizedStatusDomain U receiver.domain)).totalFailures = results.countP (!·.1)
  := by
  constructor
  · rintro ⟨entry, hentry, hname, htotals⟩
    obtain ⟨d, -, rfl⟩ := List.mem_map.mp hentry
    have hd : d = normalizedStatusDomain U receiver.domain := hname
    rwa [← hd]
  · intro htotals
    refine ⟨_, List.mem_map.mpr ⟨normalizedStatusDomain U receiver.domain, ?_, rfl⟩, rfl, htotals⟩
    exact mem_receivingDomains.mpr ⟨hdomain, receiver, hreceiver, rfl⟩

/-- The health that is loaded after attempts to deliver to an inbox, if nothing has been recorded
before. -/
theorem exists_health_recordAttempts (hempty : ∀ domain, db (receiverHealthKey domain) = none)
    (inboxURL : GoString) (results : List (Bool × GoString)) (hd : d ≠ []) :
  ∃ health, loadReceiverHealth d
      ((recordAttempts U inboxURL results db).hash (receiverHealthKey d)) = some health ∧
    health.domain = d ∧
    health.totalSuccesses =
      (if recordedDomain U inboxURL = d then min (results.countP (·.1)) maximumCount else 0 : ℕ) ∧
    health.totalFailures =
      (if recordedDomain U inboxURL = d then min (results.countP (!·.1)) maximumCount else 0 : ℕ)
  := by
  have hnone : db.hash (receiverHealthKey d) = fun _ => none := by
    rw [Database.hash, hempty]
    rfl
  rw [hash_recordAttempts hd, hnone]
  by_cases hrecorded : recordedDomain U inboxURL = d
  · obtain ⟨c, hcounts⟩ := Counts.recordResults (s := 0) (f := 0) counts_empty results
    rw [Nat.zero_add, Nat.zero_add] at hcounts
    simp only [if_pos hrecorded]
    exact hcounts.loadReceiverHealth d
  · simp only [if_neg hrecorded]
    exact counts_empty.loadReceiverHealth d

/-- The domains that health is asked for. -/
theorem mem_requestedDomains_receiving (hd : d ≠ []) :
  d ∈ requestedDomains U (receivingDomains U state) ↔
    ∃ other ∈ state.subscribersAndFollowers,
      normalizeStateDomain U (normalizedStatusDomain U other.domain) = d
  := by
  rw [mem_requestedDomains]
  constructor
  · rintro ⟨-, domain, hdomain, heq⟩
    obtain ⟨-, other, hother, rfl⟩ := mem_receivingDomains.mp hdomain
    exact ⟨other, hother, heq⟩
  · rintro ⟨other, hother, heq⟩
    refine ⟨hd, normalizedStatusDomain U other.domain, mem_receivingDomains.mpr ?_, heq⟩
    refine ⟨?_, other, hother, rfl⟩
    intro hnil
    rw [hnil] at heq
    exact hd heq.symm

/-- The totals are those of the results if they are read where they are recorded, and fit. -/
theorem totals_iff {successes failures : ℕ} {p : Prop} [Decidable p] :
  (if p then min successes maximumCount else 0) = successes ∧
      (if p then min failures maximumCount else 0) = failures ↔
    successes + failures = 0 ∨ p ∧ successes < 2 ^ 63 ∧ failures < 2 ^ 63
  := by
  unfold maximumCount
  split_ifs with hp
  · simp only [hp, true_and]
    omega
  · simp only [hp, false_and, or_false]
    omega

variable (U state) in
/-- The attempts to deliver to a receiver are recorded for the domain of its entry, and that domain
is asked for. -/
def SameDomain (receiver : Subscriber) : Prop :=
  recordedDomain U receiver.inboxURL = normalizedStatusDomain U receiver.domain ∧
    ∃ other ∈ state.subscribersAndFollowers,
      normalizeStateDomain U (normalizedStatusDomain U other.domain) =
        normalizedStatusDomain U receiver.domain

instance (receiver : Subscriber) : Decidable (SameDomain U state receiver) :=
  inferInstanceAs (Decidable (_ ∧ ∃ other ∈ state.subscribersAndFollowers, _))

/-- The totals in an entry after attempts to deliver to its receiver. -/
theorem totals_recordAttempts (hempty : ∀ domain, db (receiverHealthKey domain) = none)
    (hdomain : normalizedStatusDomain U receiver.domain ≠ []) (results : List (Bool × GoString))
    {entry : RelayStatusReceiver}
    (hentry : receiverEntry (healthByDomain U (receivingDomains U state)
      (some (recordAttempts U receiver.inboxURL results db)))
        (normalizedStatusDomain U receiver.domain) = entry) :
  entry.totalSuccesses =
      (if SameDomain U state receiver then min (results.countP (·.1)) maximumCount else 0 : ℕ) ∧
    entry.totalFailures =
      (if SameDomain U state receiver then min (results.countP (!·.1)) maximumCount else 0 : ℕ)
  := by
  have hhealth : ∀ d, ∃ health : ReceiverDeliveryHealth, health.domain = d ∧ (d ≠ [] →
      loadReceiverHealth d ((recordAttempts U receiver.inboxURL results db).hash
        (receiverHealthKey d)) = some health ∧
      health.totalSuccesses = (if recordedDomain U receiver.inboxURL = d then
        min (results.countP (·.1)) maximumCount else 0 : ℕ) ∧
      health.totalFailures = (if recordedDomain U receiver.inboxURL = d then
        min (results.countP (!·.1)) maximumCount else 0 : ℕ)) := by
    intro d
    by_cases hd : d = []
    · exact ⟨{}, hd.symm, fun hne => absurd hd hne⟩
    · obtain ⟨health, hload, hname, htotals⟩ :=
        exists_health_recordAttempts hempty receiver.inboxURL results hd
      exact ⟨health, hname, fun _ => ⟨hload, htotals⟩⟩
  choose g hg hload using hhealth
  obtain ⟨-, hsuccesses, hfailures⟩ := hload _ hdomain
  have hfind : (healthByDomain U (receivingDomains U state)
      (some (recordAttempts U receiver.inboxURL results db))).find?
        (fun h => h.domain = normalizedStatusDomain U receiver.domain) = _ :=
    find?_healthByDomain hg (fun d hd => (hload d hd).1) _
  rw [← hentry, receiverEntry, hfind]
  by_cases hrequested : normalizedStatusDomain U receiver.domain ∈
      requestedDomains U (receivingDomains U state)
  · have hsame : SameDomain U state receiver ↔
        recordedDomain U receiver.inboxURL = normalizedStatusDomain U receiver.domain :=
      and_iff_left ((mem_requestedDomains_receiving hdomain).mp hrequested)
    simp only [if_pos hrequested, Option.getD_some, hsame]
    exact ⟨hsuccesses, hfailures⟩
  · have hsame : ¬ SameDomain U state receiver :=
      fun h => hrequested ((mem_requestedDomains_receiving hdomain).mpr h.2)
    simp only [if_neg hrequested, if_neg hsame]
    exact ⟨rfl, rfl⟩

/-- **The totals on the status page.** They are those of the attempts to deliver to a receiver if
these are recorded for the domain of its entry, and fit. -/
theorem reports_recordAttempts_iff {db : Database}
    (hempty : ∀ domain, db (receiverHealthKey domain) = none) {receiver : Subscriber}
    (hreceiver : receiver ∈ state.subscribersAndFollowers)
    (hdomain : normalizedStatusDomain U receiver.domain ≠ []) (results : List (Bool × GoString)) :
  Reports U state (recordAttempts U receiver.inboxURL results db) receiver results ↔
    results = [] ∨
      SameDomain U state receiver ∧
        results.countP (·.1) < 2 ^ 63 ∧ results.countP (!·.1) < 2 ^ 63
  := by
  obtain ⟨hsuccesses, hfailures⟩ := totals_recordAttempts hempty hdomain results
    (rfl : receiverEntry (healthByDomain U (receivingDomains U state) _) _ = _)
  have hlength : results.countP (·.1) + results.countP (!·.1) = 0 ↔ results = [] := by
    rw [← List.length_eq_zero_iff, List.length_eq_countP_add_countP (·.1)]
    simp
  rw [reports_iff_entry hreceiver hdomain, hsuccesses, hfailures, Nat.cast_inj, Nat.cast_inj,
    totals_iff, hlength]

end Reports

/-! ### A subscriber with its inbox on another host -/

def elsewhereActor : Actor where
  id := lit "https://social.example/actor"
  inbox := lit "https://social.example/inbox"
  endpoints := some { sharedInbox := lit "https://inbox.example/inbox" }

def elsewhereFollow : Activity where
  id := lit "https://social.example/follow"
  actor := lit "https://social.example/actor"
  type := lit "Follow"
  object := some (.string activityStreamsPublicAddress)

variable (inboxURL : GoString)

/-- The subscriber that the `Follow` of the actor registers. -/
def subscriberAt : Subscriber where
  domain := lit "social.example"
  inboxURL := inboxURL
  activityID := lit "https://social.example/follow"
  actorID := lit "https://social.example/actor"

def databaseWith : Database := Database.empty.addSubscriber (subscriberAt inboxURL)

def stateWith : RelayState :=
  load .identity (databaseWith inboxURL)
    (Listing.ofEmpty.addSubscriber (subscriberAt inboxURL) hash_empty_fields)

def elsewhereInbox : GoString := lit "https://inbox.example/inbox"

def ownInbox : GoString := lit "https://social.example/inbox"

def oneSuccess : List (Bool × GoString) := [(true, lit "2026-01-01T00:00:00Z")]

/-- A subscriber is registered with an inbox on another host than its actor. The delivery to it is
recorded for that host, and its entry on the status page has no success. -/
theorem subscriber_elsewhere_not_reported :
  Prog.Makes (.addSubscriber (subscriberAt elsewhereInbox))
      (executeFollowing (exampleRelay []) elsewhereFollow elsewhereActor) ∧
    (stateWith elsewhereInbox).subscribersAndFollowers = [subscriberAt elsewhereInbox] ∧
    (receivingInstances .identity (stateWith elsewhereInbox) (some (recordAttempts .identity
      elsewhereInbox oneSuccess (databaseWith elsewhereInbox)))).entries =
        [⟨lit "social.example", [], [], 0, 0, 0⟩] ∧
    ¬ Reports .identity (stateWith elsewhereInbox) (recordAttempts .identity elsewhereInbox oneSuccess
      (databaseWith elsewhereInbox)) (subscriberAt elsewhereInbox) oneSuccess
  := by
  refine ⟨?_, by decide +kernel, by decide +kernel, by decide +kernel⟩
  exact .inr ⟨[], .inr ⟨(), .inl rfl⟩⟩

theorem databaseWith_receiverHealthKey (domain : GoString) :
  databaseWith inboxURL (receiverHealthKey domain) = none
  := by
  apply addSubscriber_of_ne
  intro h
  have hbyte : some 0x72 = some (0x73 : UInt8) := congrArg (fun key : GoString => key[6]?) h
  exact absurd hbyte (by decide)

/-- The successful delivery to an inbox on the host of the actor is reported. -/
theorem reports_ownInbox :
  Reports .identity (stateWith ownInbox) (recordAttempts .identity ownInbox oneSuccess
    (databaseWith ownInbox)) (subscriberAt ownInbox) oneSuccess
  := by
  have hreceiver : subscriberAt ownInbox ∈ (stateWith ownInbox).subscribersAndFollowers := by
    decide +kernel
  have hdomain : normalizedStatusDomain .identity (subscriberAt ownInbox).domain ≠ [] := by
    decide +kernel
  have hsame : SameDomain .identity (stateWith ownInbox) (subscriberAt ownInbox) := by
    decide +kernel
  have hreports := reports_recordAttempts_iff (databaseWith_receiverHealthKey ownInbox) hreceiver
    hdomain oneSuccess
  exact hreports.mpr (.inr ⟨hsame, by decide, by decide⟩)

end Api
