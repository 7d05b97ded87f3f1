import Mathlib.Logic.Function.Basic
import ActivityRelay.GoSort.Search
import ActivityRelay.GoString.Number
import ActivityRelay.GoString.Order
import ActivityRelay.GoString.Text

/-!
# The state of the relay

Who the relay distributes to, whom it blocks, and which domains have published. All of it is in
Redis, one hash for every domain, and each process has a copy that it reloads. A process also
changes the records of publishers in its copy when it writes them to Redis.
-/

namespace Models

open Function GoString

def normalizeStateDomain (U : CaseTable) (domain : GoString) : GoString :=
  toLower U (trimSuffix 0x2E (trimSpace domain))

structure Subscriber where
  domain : GoString
  inboxURL : GoString
  activityID : GoString
  actorID : GoString
  deriving DecidableEq, Repr

structure Follower where
  domain : GoString
  inboxURL : GoString
  activityID : GoString
  actorID : GoString
  mutuallyFollow : Bool
  deriving DecidableEq, Repr

/-- A follower in the list of those who receive activities. -/
def Follower.toSubscriber (f : Follower) : Subscriber :=
  ⟨f.domain, f.inboxURL, f.activityID, f.actorID⟩

structure Publisher where
  domain : GoString
  actorID : GoString
  inboxURL : GoString
  firstSeen : GoString
  lastSeen : GoString
  lastActivityID : GoString
  lastActivityType : GoString
  activityCount : ℤ
  deriving DecidableEq, Repr

structure RelayConfig where
  personOnly : Bool
  manuallyAccept : Bool
  deriving DecidableEq, Repr

/-- `RelayState`, as one process has it. Of the maps by domain, only that of the publishers is
changed without its list being loaded again; the others are kept by their lists. -/
structure RelayState where
  relayConfig : RelayConfig
  limitedDomains : List GoString
  blockedDomains : List GoString
  subscribers : List Subscriber
  followers : List Follower
  publishers : List Publisher
  subscribersAndFollowers : List Subscriber
  publishersByDomain : GoString → Option Publisher

namespace RelayState

variable (s : RelayState) (domain : GoString)

def isLimited : Bool := s.limitedDomains.contains domain

def isBlocked : Bool := s.blockedDomains.contains domain

def isSubscriber : Bool :=
  s.subscribers.any (fun r => r.domain == domain)

def isFollower : Bool :=
  s.followers.any (fun r => r.domain == domain)

def isSubscriberOrFollower : Bool :=
  s.isSubscriber domain || s.isFollower domain

end RelayState

/-! ### Records of publishers in Redis -/

/-- A hash: the values of its fields. -/
abbrev Hash := GoString → Option GoString

namespace Hash

/-- `stringValue` of a field. -/
def stringValue (h : Hash) (field : String) : GoString := (h (lit field)).getD []

/-- `HSET`. -/
def set (h : Hash) (field : String) (value : GoString) : Hash :=
  update h (lit field) (some value)

/-- `HSETNX`. -/
def setNX (h : Hash) (field : String) (value : GoString) : Hash :=
  if (h (lit field)).isSome then h else h.set field value

/-- `HINCRBY` with one. It fails if the field is no decimal number in its shortest form, or if
the number would not fit. -/
def incr (h : Hash) (field : String) : Option ℤ :=
  match h (lit field) with
  | none => some 1
  | some v =>
      let n := parseIntValue v
      if formatInt n = v ∧ n + 1 < 2 ^ 63 then some (n + 1) else none

end Hash

/-- The record that `Load` makes of the hash of a publisher. -/
def loadPublisher (domain : GoString) (h : Hash) : Publisher where
  domain := domain
  actorID := h.stringValue "actor_id"
  inboxURL := h.stringValue "inbox_url"
  firstSeen := h.stringValue "first_seen"
  lastSeen := h.stringValue "last_seen"
  lastActivityID := h.stringValue "last_activity_id"
  lastActivityType := h.stringValue "last_activity_type"
  activityCount := parseIntValue (h.stringValue "activity_count")

/-- The number of activities that a hash has. -/
def activityCount (h : Hash) : ℤ := parseIntValue (h.stringValue "activity_count")

/-- The fields that `RecordPublisherActivity` sets. -/
def recordFields (p : Publisher) (seenAt : GoString) (h : Hash) : Hash :=
  ((((((h.setNX "first_seen" seenAt).set "actor_id" p.actorID).set "inbox_url" p.inboxURL).set
    "last_seen" seenAt).set "last_activity_id" p.lastActivityID).set
    "last_activity_type" p.lastActivityType)

/-- The transaction of `RecordPublisherActivity`, and the count that it returns. A count that
cannot be incremented does not keep the other fields from being set. -/
def recordTransaction (p : Publisher) (seenAt : GoString) (h : Hash) : Hash × Option ℤ :=
  let h := recordFields p seenAt h
  match h.incr "activity_count" with
  | some n => (h.set "activity_count" (formatInt n), some n)
  | none => (h, none)

/-! ### Records of publishers in memory -/

/-- The map that `Load` makes of a list; the last record of a domain counts. -/
def publisherSet (publishers : List Publisher) (domain : GoString) : Option Publisher :=
  publishers.reverse.find? (fun p => p.domain = domain)

namespace RelayState

/-- What `Load` publishes: the other fields as it has read them, and the records of the
publishers. -/
def withPublishers (s : RelayState) (publishers : List Publisher) : RelayState :=
  { s with publishers := publishers, publishersByDomain := publisherSet publishers }

/-- What `RecordPublisherActivity` does under the lock. A record with a larger count stays. -/
def merge (s : RelayState) (p : Publisher) : RelayState :=
  if (s.publishersByDomain p.domain).any (fun current => p.activityCount < current.activityCount)
  then s
  else
    { s with
      publishersByDomain := update s.publishersByDomain p.domain (some p)
      publishers := GoSort.upsert Publisher.domain p s.publishers }

/-- A merge that changes something replaces a record with no larger count. -/
theorem merge_cases (s : RelayState) (p : Publisher) :
  s.merge p = s ∨
    s.merge p =
      { s with
        publishersByDomain := update s.publishersByDomain p.domain (some p)
        publishers := GoSort.upsert Publisher.domain p s.publishers } ∧
    ∀ q, s.publishersByDomain p.domain = some q → q.activityCount ≤ p.activityCount
  := by
  unfold merge
  split
  · exact .inl rfl
  · rename_i hmerge
    right
    refine ⟨rfl, ?_⟩
    intro q hq
    rw [hq, Option.any_some, decide_eq_true_eq] at hmerge
    exact not_lt.mp hmerge

end RelayState

/-! ### What the transaction does -/

section Transaction

variable {p : Publisher} {seenAt : GoString} {h h' : Hash} {n : ℤ}

theorem Hash.set_self (h : Hash) (field : String) (value : GoString) :
  h.set field value (lit field) = some value
  := update_self ..

theorem Hash.set_of_ne (h : Hash) {field field' : String} (value : GoString)
    (hne : lit field' ≠ lit field) :
  h.set field value (lit field') = h (lit field')
  := update_of_ne hne ..

theorem Hash.isSome_set {name : String} {value field : GoString} :
  (h.set name value field).isSome ↔ field = lit name ∨ (h field).isSome
  := by
  rw [Hash.set, update_apply]
  by_cases hfield : field = lit name
  · simp [hfield]
  · simp [hfield]

/-- A successful increment gives the next number, which fits. -/
theorem Hash.incr_eq_some {field : String} (hincr : h.incr field = some n) :
  n = parseIntValue (h.stringValue field) + 1 ∧ parseIntValue (formatInt n) = n
  := by
  unfold incr at hincr
  unfold stringValue
  cases hv : h (lit field) with
  | none =>
    rw [hv] at hincr
    cases hincr
    exact ⟨rfl, rfl⟩
  | some v =>
    rw [hv] at hincr
    dsimp only at hincr
    split at hincr
    · rename_i hfits
      cases hincr
      refine ⟨rfl, parseIntValue_formatInt ?_ hfits.2⟩
      have := neg_le_parseIntValue v
      omega
    · cases hincr

theorem setNX_first_seen :
  (h.setNX "first_seen" seenAt) (lit "first_seen") = some ((h (lit "first_seen")).getD seenAt)
  := by
  unfold Hash.setNX
  cases hv : h (lit "first_seen") with
  | none => simp [Hash.set_self]
  | some v => simp [hv]

theorem recordFields_first_seen :
  recordFields p seenAt h (lit "first_seen") = some ((h (lit "first_seen")).getD seenAt)
  := by
  unfold recordFields
  simp +decide only [Hash.set_of_ne, setNX_first_seen, ne_eq]

theorem recordFields_activity_count :
  recordFields p seenAt h (lit "activity_count") = h (lit "activity_count")
  := by
  unfold recordFields Hash.setNX
  split <;> simp +decide only [Hash.set_of_ne, ne_eq]

/-- A successful transaction increments the count. -/
theorem recordTransaction_eq_some (hrecord : recordTransaction p seenAt h = (h', some n)) :
  h' = (recordFields p seenAt h).set "activity_count" (formatInt n) ∧
    n = activityCount h + 1 ∧ parseIntValue (formatInt n) = n
  := by
  unfold recordTransaction at hrecord
  cases hincr : (recordFields p seenAt h).incr "activity_count" with
  | none => simp [hincr] at hrecord
  | some m =>
    simp only [hincr, Prod.mk.injEq, Option.some.injEq] at hrecord
    obtain ⟨rfl, rfl⟩ := hrecord
    obtain ⟨hnext, hfits⟩ := Hash.incr_eq_some hincr
    refine ⟨rfl, ?_, hfits⟩
    rw [hnext, Hash.stringValue, recordFields_activity_count]
    rfl

/-- What a successful transaction writes is read back, with the moment of the first activity and
the next count. -/
theorem loadPublisher_recordTransaction (domain : GoString)
    (hrecord : recordTransaction p seenAt h = (h', some n)) :
  loadPublisher domain h' = { p with
    domain := domain
    firstSeen := (h (lit "first_seen")).getD seenAt
    lastSeen := seenAt
    activityCount := n }
  := by
  obtain ⟨rfl, -, hfits⟩ := recordTransaction_eq_some hrecord
  have hfirst : recordFields p seenAt h (lit "first_seen")
      = some ((h (lit "first_seen")).getD seenAt) := recordFields_first_seen
  unfold recordFields at hfirst ⊢
  simp +decide only [loadPublisher, Hash.stringValue, Hash.set_of_ne, Hash.set_self, ne_eq,
    Option.getD_some, hfits] at hfirst ⊢
  rw [hfirst, Option.getD_some]

theorem first_seen_recordTransaction (hrecord : recordTransaction p seenAt h = (h', some n)) :
  h' (lit "first_seen") = some ((h (lit "first_seen")).getD seenAt)
  := by
  obtain ⟨rfl, -⟩ := recordTransaction_eq_some hrecord
  rw [Hash.set_of_ne _ _ (by decide), recordFields_first_seen]

theorem activityCount_recordTransaction (hrecord : recordTransaction p seenAt h = (h', some n)) :
  activityCount h' = n
  := congrArg Publisher.activityCount (loadPublisher_recordTransaction [] hrecord)

/-- No transaction lowers the count. -/
theorem activityCount_le_recordTransaction :
  activityCount h ≤ activityCount (recordTransaction p seenAt h).1
  := by
  rcases hrecord : recordTransaction p seenAt h with ⟨h', _ | n⟩
  · unfold recordTransaction at hrecord
    dsimp only at hrecord
    split at hrecord
    · cases hrecord
    · cases hrecord
      change activityCount h ≤ activityCount (recordFields p seenAt h)
      rw [activityCount, activityCount, Hash.stringValue, Hash.stringValue,
        recordFields_activity_count]
  · rw [activityCount_recordTransaction hrecord, (recordTransaction_eq_some hrecord).2.1]
    omega

end Transaction

end Models
