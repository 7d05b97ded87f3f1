import ActivityRelay.Models.State
import ActivityRelay.Redis.Cell
import ActivityRelay.Transition.Run

/-!
# Recording publishers

The calls of `RecordPublisherActivity` and the reloads of one process, and the records of the
publishers in Redis. A call is a transaction, a later reading of `first_seen`, and a later merge
into memory. A reload scans the keys, reads one hash after another, and publishes what it has
read. All of these interleave in any order.

The list in memory and the map agree at any time as long as nothing is reloaded (`Consistent`).
The record in memory is that in Redis unless a call with the latest count has still to merge
(`Settles`).
-/

namespace Models

open Function GoString List Transition

/-! ### The system -/

/-- A call of `RecordPublisherActivity` after its transaction, and whether it has read
`first_seen`. -/
structure RecordCall where
  publisher : Publisher
  seen : Bool
  deriving DecidableEq

/-- A call of `Load` after it has read everything but the publishers. -/
inductive LoadCall
  /-- It scans the keys. Those of `present` were there when it started. -/
  | scanning (config : RelayState) (present : GoString → Option Hash) (version : ℕ)
  /-- It has read some records, and has still to read those of some domains. -/
  | reading (config : RelayState) (version : ℕ) (read : List Publisher) (left : List GoString)

/-- The number of changes of memory before the scan started. -/
def LoadCall.version : LoadCall → ℕ
  | .scanning _ _ version | .reading _ version _ _ => version

/-- The publishers in Redis and in memory, and the calls in progress. The number of the calls for
each domain, of those that have returned an error, and of the changes of the publishers in memory
are counted along. -/
structure Recording where
  redis : GoString → Option Hash
  memory : RelayState
  records : List RecordCall
  loads : List LoadCall
  called : GoString → ℕ
  errors : ℕ
  version : ℕ

/-- A step of a call of `RecordPublisherActivity`, of another process, or of a call of `Load`. -/
inductive RecordEvent
  | transact (outcome : Redis.Outcome) (publisher : Publisher) (now : GoString)
  | readFirstSeen (i : ℕ) (ok : Bool)
  | merge (i : ℕ)
  | other (domain : GoString) (h : Hash)
  | load (config : RelayState)
  | scanned (j : ℕ) (keys : List GoString)
  | read (j : ℕ)
  | publish (j : ℕ)
  | abort (j : ℕ)

/-- The number of activities of a domain. -/
def countIn (redis : GoString → Option Hash) (domain : GoString) : ℤ :=
  ((redis domain).map activityCount).getD 0

namespace Recording

/-- The start of a call, up to and including its transaction. -/
def transact (U : CaseTable) (s : Recording) (outcome : Redis.Outcome) (p : Publisher)
    (now : GoString) : Recording :=
  let domain := normalizeStateDomain U p.domain
  let s := { s with called := update s.called domain (s.called domain + 1) }
  if domain = [] then { s with errors := s.errors + 1 }
  else
    let seenAt := if p.lastSeen = [] then now else p.lastSeen
    let r := recordTransaction p seenAt ((s.redis domain).getD (fun _ => none))
    let executed := { s with redis := update s.redis domain (some r.1) }
    match outcome, r.2 with
    | .failed false, _ => { s with errors := s.errors + 1 }
    | .failed true, _ | .answered, none => { executed with errors := s.errors + 1 }
    | .answered, some n =>
        { executed with
          records := s.records ++
            [⟨{ p with domain := domain, lastSeen := seenAt, activityCount := n }, false⟩] }

/-- The reading of `first_seen`. -/
def readFirstSeen (s : Recording) (i : ℕ) (ok : Bool) (c : RecordCall) : Recording :=
  match ok, (s.redis c.publisher.domain).bind (fun h => h (lit "first_seen")) with
  | true, some firstSeen =>
      { s with
        records := s.records.set i ⟨{ c.publisher with firstSeen := firstSeen }, true⟩ }
  | _, _ => { s with records := s.records.eraseIdx i, errors := s.errors + 1 }

end Recording

/-- One step. -/
def recordStep (U : CaseTable) (s : Recording) : RecordEvent → Option Recording
  | .transact outcome p now => some (s.transact U outcome p now)
  | .readFirstSeen i ok =>
      match s.records[i]? with
      | some c => if c.seen then none else some (s.readFirstSeen i ok c)
      | none => none
  | .merge i =>
      match s.records[i]? with
      | some c =>
          if c.seen then
            some { s with
              memory := s.memory.merge c.publisher
              records := s.records.eraseIdx i
              version := s.version + 1 }
          else none
      | none => none
  | .other domain h =>
      -- Nobody lowers the count of a domain.
      if countIn s.redis domain ≤ activityCount h then
        some { s with redis := update s.redis domain (some h) }
      else none
  | .load config => some { s with loads := s.loads ++ [.scanning config s.redis s.version] }
  | .scanned j keys =>
      match s.loads[j]? with
      | some (.scanning config _ version) =>
          some { s with loads := s.loads.set j (.reading config version [] (sortStrings keys)) }
      | _ => none
  | .read j =>
      match s.loads[j]? with
      | some (.reading config version read (domain :: left)) =>
          let p := loadPublisher domain ((s.redis domain).getD (fun _ => none))
          some { s with loads := s.loads.set j (.reading config version (read ++ [p]) left) }
      | _ => none
  | .publish j =>
      match s.loads[j]? with
      | some (.reading config _ read []) =>
          some { s with
            memory := config.withPublishers read
            loads := s.loads.eraseIdx j
            version := s.version + 1 }
      | _ => none
  | .abort j => if j < s.loads.length then some { s with loads := s.loads.eraseIdx j } else none

/-- A step of a call of `RecordPublisherActivity`. -/
def RecordEvent.isCall : RecordEvent → Bool
  | .transact .. | .readFirstSeen .. | .merge _ => true
  | _ => false

variable {e : RecordEvent} {p : Publisher} {domain : GoString} {ps : List Publisher}
  {m : RelayState}

theorem RecordEvent.isCall_cases (he : e.isCall = true) :
  (∃ outcome p now, e = .transact outcome p now) ∨ (∃ i ok, e = .readFirstSeen i ok) ∨
    ∃ i, e = .merge i
  := by
  cases e with
  | transact outcome p now => exact .inl ⟨outcome, p, now, rfl⟩
  | readFirstSeen i ok => exact .inr (.inl ⟨i, ok, rfl⟩)
  | merge i => exact .inr (.inr ⟨i, rfl⟩)
  | _ => cases he

/-! ### The list and the map -/

/-- The list is strictly sorted by domain and has the records of the map. -/
structure Consistent (m : RelayState) : Prop where
  sorted : m.publishers.Pairwise (fun p q => p.domain < q.domain)
  mem_iff : ∀ p, p ∈ m.publishers ↔ m.publishersByDomain p.domain = some p
  domain_eq : ∀ domain p, m.publishersByDomain domain = some p → p.domain = domain

theorem publisherSet_mem (h : publisherSet ps domain = some p) :
  p ∈ ps ∧ p.domain = domain
  := by
  have hmem := mem_of_find?_eq_some h
  have hdomain := List.find?_some h
  exact ⟨by simpa using hmem, by simpa using hdomain⟩

/-- The map of a list that is strictly sorted has its records. -/
theorem publisherSet_eq_some (hps : ps.Pairwise (fun p q => p.domain < q.domain)) :
  publisherSet ps domain = some p ↔ p ∈ ps ∧ p.domain = domain
  := by
  constructor
  · exact publisherSet_mem
  · rintro ⟨hmem, rfl⟩
    unfold publisherSet
    cases hfind : ps.reverse.find? (fun q => q.domain = p.domain) with
    | none =>
      have := List.find?_eq_none.mp hfind p (by simpa using hmem)
      simp at this
    | some q =>
      have hq : q ∈ ps := by simpa using mem_of_find?_eq_some hfind
      have hdomain : q.domain = p.domain := by simpa using List.find?_some hfind
      rw [GoSort.eq_of_key_eq hps hq hmem hdomain]

theorem consistent_withPublishers (m : RelayState)
    (hps : ps.Pairwise (fun p q => p.domain < q.domain)) :
  Consistent (m.withPublishers ps)
  := by
  refine ⟨hps, ?_, ?_⟩
  · intro p
    change p ∈ ps ↔ publisherSet ps p.domain = some p
    simp [publisherSet_eq_some hps]
  · intro domain p hp
    exact ((publisherSet_eq_some hps).mp hp).2

/-- A merge keeps the list and the map together. -/
theorem Consistent.merge (hm : Consistent m) (p : Publisher) :
  Consistent (m.merge p)
  := by
  unfold RelayState.merge
  split
  · exact hm
  · refine ⟨GoSort.upsert_strict hm.sorted p, ?_, ?_⟩
    · intro q
      dsimp only
      rw [GoSort.mem_upsert_strict hm.sorted p, update_apply]
      split
      · rename_i hdomain
        simp [hdomain, eq_comm]
      · rename_i hdomain
        rw [hm.mem_iff]
        simp only [ne_eq, hdomain, not_false_eq_true, and_true, or_iff_right_iff_imp]
        rintro rfl
        exact absurd rfl hdomain
    · intro domain q hq
      dsimp only at hq
      rw [update_apply] at hq
      split at hq
      · rename_i hdomain
        cases hq
        exact hdomain.symm
      · exact hm.domain_eq domain q hq

/-! ### What the steps of a call can do -/

section Steps

variable {U : CaseTable} {s s' : Recording}

theorem countIn_eq (redis : GoString → Option Hash) (domain : GoString) :
  countIn redis domain = activityCount ((redis domain).getD (fun _ => none))
  := by
  unfold countIn
  cases redis domain <;> rfl

/-- The start of a call ends in an error, or its transaction succeeds. -/
theorem transact_cases (U : CaseTable) (s : Recording) (outcome : Redis.Outcome) (p : Publisher)
    (now : GoString) :
  s.errors < (s.transact U outcome p now).errors ∨
    ∃ domain seenAt h n, domain = normalizeStateDomain U p.domain ∧ domain ≠ [] ∧
      recordTransaction p seenAt ((s.redis domain).getD (fun _ => none)) = (h, some n) ∧
      s.transact U outcome p now = { s with
        called := update s.called domain (s.called domain + 1)
        redis := update s.redis domain (some h)
        records := s.records ++
          [⟨{ p with domain := domain, lastSeen := seenAt, activityCount := n }, false⟩] }
  := by
  unfold Recording.transact
  generalize hdomain : normalizeStateDomain U p.domain = domain
  by_cases hempty : domain = []
  · left
    simp [hempty]
  rw [if_neg hempty]
  dsimp only
  generalize (if p.lastSeen = [] then now else p.lastSeen) = seenAt
  rcases hr : recordTransaction p seenAt ((s.redis domain).getD (fun _ => none)) with ⟨h, n⟩
  rcases outcome with _ | _ | _
  · cases n with
    | none =>
      simp
    | some n =>
      right
      exact ⟨domain, seenAt, h, n, rfl, hempty, hr, rfl⟩
  · left
    simp
  · left
    cases n <;> simp

theorem transact_memory (outcome : Redis.Outcome) (p : Publisher) (now : GoString) :
  (s.transact U outcome p now).memory = s.memory
  := by
  unfold Recording.transact
  dsimp only
  split
  · rfl
  · split <;> rfl

/-- The reading of `first_seen` ends in an error, or it is the value of that field. -/
theorem step_readFirstSeen {i : ℕ} {ok : Bool}
    (h : recordStep U s (.readFirstSeen i ok) = some s') :
  ∃ c, s.records[i]? = some c ∧
    (s' = { s with records := s.records.eraseIdx i, errors := s.errors + 1 } ∨
      ∃ hash v, s.redis c.publisher.domain = some hash ∧ hash (lit "first_seen") = some v ∧
        s' = { s with records := s.records.set i ⟨{ c.publisher with firstSeen := v }, true⟩ })
  := by
  simp only [recordStep] at h
  split at h
  · rename_i c hc
    split at h
    · cases h
    · cases h
      use c, hc
      unfold Recording.readFirstSeen
      split
      · rename_i v hv
        obtain ⟨hash, hhash, hfirst⟩ := Option.bind_eq_some_iff.mp hv
        exact .inr ⟨hash, v, hhash, hfirst, rfl⟩
      · exact .inl rfl
  · cases h

theorem step_merge {i : ℕ} (h : recordStep U s (.merge i) = some s') :
  ∃ c, s.records[i]? = some c ∧ c.seen = true ∧
    s' = { s with
      memory := s.memory.merge c.publisher
      records := s.records.eraseIdx i
      version := s.version + 1 }
  := by
  simp only [recordStep] at h
  split at h
  · rename_i c hc
    split at h
    · rename_i hseen
      cases h
      exact ⟨c, hc, hseen, rfl⟩
    · cases h
  · cases h

/-- The list and the map stay together at every step of a call. -/
theorem consistent_step (he : e.isCall = true) (hs : Consistent s.memory)
    (h : recordStep U s e = some s') :
  Consistent s'.memory
  := by
  obtain ⟨outcome, p, now, rfl⟩ | ⟨i, ok, rfl⟩ | ⟨i, rfl⟩ := e.isCall_cases he
  · cases h
    rw [transact_memory]
    exact hs
  · obtain ⟨c, -, rfl | ⟨hash, v, -, -, rfl⟩⟩ := step_readFirstSeen h <;> exact hs
  · obtain ⟨c, -, -, rfl⟩ := step_merge h
    exact hs.merge c.publisher

end Steps

/-! ### Memory and Redis -/

/-- What is known of a call and the hash of its domain. Only the call with the latest count has
the fields of the hash. -/
structure Tracks (c : RecordCall) (h : Hash) : Prop where
  count_le : c.publisher.activityCount ≤ activityCount h
  first_seen : ∃ v, h (lit "first_seen") = some v ∧ (c.seen = true → c.publisher.firstSeen = v)
  latest : c.publisher.activityCount = activityCount h →
    { c.publisher with firstSeen := h.stringValue "first_seen" }
      = loadPublisher c.publisher.domain h

/-- The record of a domain in memory is that in Redis, or a call that has still to merge has the
latest count of the domain. The counts have grown by the number of calls since they were those
of `start`. -/
structure Settles (start : GoString → ℤ) (s : Recording) : Prop where
  tracks : ∀ c ∈ s.records, ∃ h, s.redis c.publisher.domain = some h ∧ Tracks c h
  memory_le : ∀ domain p, s.memory.publishersByDomain domain = some p →
    p.activityCount ≤ countIn s.redis domain
  agree : ∀ domain,
    s.memory.publishersByDomain domain = (s.redis domain).map (loadPublisher domain) ∨
      ∃ c ∈ s.records, c.publisher.domain = domain ∧
        c.publisher.activityCount = countIn s.redis domain
  count : ∀ domain, countIn s.redis domain = start domain + s.called domain
  called : ∀ domain, 0 < s.called domain → (s.redis domain).isSome

section Settles

variable {U : CaseTable} {start : GoString → ℤ} {s s' : Recording}

/-- A call is behind the transactions that come after its own. -/
theorem Tracks.recordTransaction {c : RecordCall} {seenAt : GoString} {h h' : Hash} {n : ℤ}
    (hc : Tracks c h) (hrecord : recordTransaction p seenAt h = (h', some n)) :
  Tracks c h'
  := by
  have hcount := activityCount_recordTransaction hrecord
  have hnext := (recordTransaction_eq_some hrecord).2.1
  have hle := hc.count_le
  refine ⟨by omega, ?_, by omega⟩
  obtain ⟨v, hv, hseen⟩ := hc.first_seen
  refine ⟨v, ?_, hseen⟩
  rw [first_seen_recordTransaction hrecord, hv]
  rfl

/-- The call of a transaction has the fields of the hash that it leaves. -/
theorem tracks_recordTransaction {seenAt : GoString} {h h' : Hash} {n : ℤ}
    (hrecord : recordTransaction p seenAt h = (h', some n)) :
  Tracks ⟨{ p with domain := domain, lastSeen := seenAt, activityCount := n }, false⟩ h'
  := by
  have hfirst := first_seen_recordTransaction hrecord
  refine ⟨(activityCount_recordTransaction hrecord).ge, ⟨_, hfirst, by simp⟩, ?_⟩
  intro _
  rw [loadPublisher_recordTransaction _ hrecord, Hash.stringValue, hfirst]
  rfl

/-- The new count is the latest one, and its call has still to merge. -/
theorem settles_transact {outcome : Redis.Outcome} {now : GoString} (hs : Settles start s)
    (herrors : (s.transact U outcome p now).errors ≤ s.errors) :
  Settles start (s.transact U outcome p now)
  := by
  obtain hfailed | ⟨domain, seenAt, h, n, -, -, hrecord, heq⟩ := transact_cases U s outcome p now
  · omega
  have hcount := activityCount_recordTransaction hrecord
  have hnext := (recordTransaction_eq_some hrecord).2.1
  rw [← countIn_eq] at hnext
  have hsame : ∀ d, d ≠ domain → countIn (update s.redis domain (some h)) d
      = countIn s.redis d := by
    intro d hd
    rw [countIn, countIn, update_of_ne hd]
  have hself : countIn (update s.redis domain (some h)) domain = n := by
    rw [countIn, update_self]
    exact hcount
  rw [heq]
  refine ⟨?_, ?_, ?_, ?_, ?_⟩
  · intro c hc
    dsimp only at hc ⊢
    rcases mem_append.mp hc with hc | hc
    · obtain ⟨hold, hredis, htracks⟩ := hs.tracks c hc
      by_cases hd : c.publisher.domain = domain
      · rw [hd, update_self]
        rw [← hd, hredis, Option.getD_some] at hrecord
        exact ⟨h, rfl, htracks.recordTransaction hrecord⟩
      · rw [update_of_ne hd]
        exact ⟨hold, hredis, htracks⟩
    · obtain rfl := mem_singleton.mp hc
      rw [update_self]
      exact ⟨h, rfl, tracks_recordTransaction hrecord⟩
  · intro d q hq
    have hle := hs.memory_le d q hq
    by_cases hd : d = domain
    · subst hd
      rw [hself]
      omega
    · rw [hsame d hd]
      exact hle
  · intro d
    by_cases hd : d = domain
    · subst hd
      right
      refine ⟨_, mem_append_right _ (mem_singleton_self _), rfl, hself.symm⟩
    · dsimp only
      rw [hsame d hd, update_of_ne hd]
      rcases hs.agree d with hagree | ⟨c, hc, hcall⟩
      · exact .inl hagree
      · exact .inr ⟨c, mem_append_left _ hc, hcall⟩
  · intro d
    have hbefore := hs.count d
    by_cases hd : d = domain
    · subst hd
      dsimp only
      rw [hself, update_self]
      omega
    · dsimp only
      rw [hsame d hd, update_of_ne hd]
      exact hbefore
  · intro d hd
    by_cases hdomain : d = domain
    · subst hdomain
      simp
    · dsimp only at hd ⊢
      rw [update_of_ne hdomain] at hd ⊢
      exact hs.called d hd

theorem settles_readFirstSeen {i : ℕ} {ok : Bool} (hs : Settles start s)
    (herrors : s'.errors ≤ s.errors) (h : recordStep U s (.readFirstSeen i ok) = some s') :
  Settles start s'
  := by
  obtain ⟨c, hc, rfl | ⟨hash, v, hredis, hfirst, rfl⟩⟩ := step_readFirstSeen h
  · exact absurd herrors (Nat.not_succ_le_self _)
  have hmem := mem_of_getElem? hc
  refine ⟨?_, hs.memory_le, ?_, hs.count, hs.called⟩
  · intro c' hc'
    rcases mem_or_eq_of_mem_set hc' with hc' | rfl
    · exact hs.tracks c' hc'
    · obtain ⟨hash', hredis', htracks⟩ := hs.tracks c hmem
      obtain rfl : hash' = hash := by
        rw [hredis'] at hredis
        exact Option.some.inj hredis
      exact ⟨hash', hredis', htracks.count_le, ⟨v, hfirst, fun _ => rfl⟩, htracks.latest⟩
  · intro domain
    rcases hs.agree domain with hagree | ⟨c', hc', hdomain, hcount⟩
    · exact .inl hagree
    · right
      obtain ⟨k, hk⟩ := mem_iff_getElem?.mp hc'
      by_cases hik : i = k
      · subst hik
        obtain rfl : c = c' := by
          rw [hc] at hk
          exact Option.some.inj hk
        have hlength : i < s.records.length := (List.getElem?_eq_some_iff.mp hc).1
        exact ⟨_, mem_set hlength _, hdomain, hcount⟩
      · refine ⟨c', mem_of_getElem? (i := k) ?_, hdomain, hcount⟩
        rw [List.getElem?_set_ne hik, hk]

/-- Another call than the one that is taken away is still there. -/
theorem mem_eraseIdx_of_ne {α : Type} {l : List α} {i : ℕ} {a b : α} (hi : l[i]? = some a)
    (hb : b ∈ l) (hne : b ≠ a) :
  b ∈ l.eraseIdx i
  := by
  obtain ⟨k, hk⟩ := mem_iff_getElem?.mp hb
  rw [mem_eraseIdx_iff_getElem?]
  refine ⟨k, ?_, hk⟩
  rintro rfl
  rw [hi] at hk
  exact hne (Option.some.inj hk).symm

/-- A merge leaves the other domains as they are. -/
theorem merge_of_ne (h : domain ≠ p.domain) :
  (m.merge p).publishersByDomain domain = m.publishersByDomain domain
  := by
  unfold RelayState.merge
  split
  · rfl
  · exact update_of_ne h ..

/-- A record that is merged has a count that is not larger than the count in Redis. -/
theorem Settles.merge_le (hs : Settles start s) (hp : p.activityCount ≤ countIn s.redis p.domain)
    {q : Publisher} (hq : (s.memory.merge p).publishersByDomain domain = some q) :
  q.activityCount ≤ countIn s.redis domain
  := by
  unfold RelayState.merge at hq
  split at hq
  · exact hs.memory_le domain q hq
  · dsimp only at hq
    rw [update_apply] at hq
    split at hq
    · rename_i hdomain
      cases hq
      rw [hdomain]
      exact hp
    · exact hs.memory_le domain q hq

/-- The call with the latest count settles its domain: nothing in memory has a larger count. -/
theorem Settles.merge_latest (hs : Settles start s) {c : RecordCall} {hash : Hash}
    (hredis : s.redis c.publisher.domain = some hash) (htracks : Tracks c hash)
    (hseen : c.seen = true) (hlatest : c.publisher.activityCount = activityCount hash) :
  (s.memory.merge c.publisher).publishersByDomain c.publisher.domain
    = some (loadPublisher c.publisher.domain hash)
  := by
  obtain ⟨v, hv, hfirst⟩ := htracks.first_seen
  unfold RelayState.merge
  rw [if_neg]
  · dsimp only
    rw [update_self, ← htracks.latest hlatest, Hash.stringValue, hv, Option.getD_some,
      ← hfirst hseen]
  · rw [Option.any_eq_true]
    rintro ⟨q, hq, hlt⟩
    have hle := hs.memory_le _ q hq
    rw [countIn, hredis] at hle
    simp only [decide_eq_true_eq] at hlt
    simp only [Option.map_some, Option.getD_some] at hle
    omega

/-- A merge keeps a record with a larger count. -/
theorem merge_of_lt {q : Publisher} (hq : m.publishersByDomain p.domain = some q)
    (hlt : p.activityCount < q.activityCount) :
  m.merge p = m
  := by
  unfold RelayState.merge
  rw [if_pos]
  rw [hq, Option.any_some, decide_eq_true_eq]
  exact hlt

/-- Memory has the latest count once the call with that count has merged. -/
theorem settles_merge {i : ℕ} (hs : Settles start s) (h : recordStep U s (.merge i) = some s') :
  Settles start s'
  := by
  obtain ⟨c, hc, hseen, rfl⟩ := step_merge h
  obtain ⟨hash, hredis, htracks⟩ := hs.tracks c (mem_of_getElem? hc)
  have hcount : countIn s.redis c.publisher.domain = activityCount hash := by
    rw [countIn, hredis]
    rfl
  refine ⟨?_, ?_, ?_, hs.count, hs.called⟩
  · intro c' hc'
    exact hs.tracks c' (mem_of_mem_eraseIdx hc')
  · intro domain p hp
    exact hs.merge_le (hcount.symm ▸ htracks.count_le) hp
  · intro domain
    by_cases hdomain : domain = c.publisher.domain
    · subst hdomain
      by_cases hlatest : c.publisher.activityCount = activityCount hash
      · left
        rw [hs.merge_latest hredis htracks hseen hlatest, hredis, Option.map_some]
      · rcases hs.agree c.publisher.domain with hagree | ⟨c', hc', hdomain', hcount'⟩
        · -- Memory has the latest count, so it stays.
          left
          rw [hredis, Option.map_some] at hagree ⊢
          rw [merge_of_lt hagree]
          · exact hagree
          · exact lt_of_le_of_ne htracks.count_le hlatest
        · right
          refine ⟨c', mem_eraseIdx_of_ne hc hc' ?_, hdomain', hcount'⟩
          rintro rfl
          omega
    · rw [merge_of_ne hdomain]
      rcases hs.agree domain with hagree | ⟨c', hc', rfl, hcount'⟩
      · exact .inl hagree
      · refine .inr ⟨c', mem_eraseIdx_of_ne hc hc' ?_, rfl, hcount'⟩
        rintro rfl
        exact hdomain rfl

theorem errors_le_step (he : e.isCall = true) (h : recordStep U s e = some s') :
  s.errors ≤ s'.errors
  := by
  obtain ⟨outcome, p, now, rfl⟩ | ⟨i, ok, rfl⟩ | ⟨i, rfl⟩ := e.isCall_cases he
  · cases h
    obtain hfailed | ⟨domain, seenAt, hash, n, -, -, -, heq⟩ := transact_cases U s outcome p now
    · exact hfailed.le
    · rw [heq]
  · obtain ⟨c, -, rfl | ⟨hash, v, -, -, rfl⟩⟩ := step_readFirstSeen h
    · exact Nat.le_succ _
    · exact le_refl _
  · obtain ⟨c, -, -, rfl⟩ := step_merge h
    exact le_refl _

theorem settles_step (he : e.isCall = true) (hs : Settles start s) (herrors : s'.errors ≤ s.errors)
    (h : recordStep U s e = some s') :
  Settles start s'
  := by
  obtain ⟨outcome, p, now, rfl⟩ | ⟨i, ok, rfl⟩ | ⟨i, rfl⟩ := e.isCall_cases he
  · cases h
    exact settles_transact hs herrors
  · exact settles_readFirstSeen hs herrors h
  · exact settles_merge hs h

end Settles

/-! ### Whole runs -/

/-- The records that `Load` reads if nothing is written meanwhile. -/
def loadPublishers (redis : GoString → Option Hash) (keys : List GoString) : List Publisher :=
  (sortStrings keys).map (fun domain => loadPublisher domain ((redis domain).getD (fun _ => none)))

/-- The state after a `Load` of all keys, with a list that is strictly sorted, before any call. -/
structure Fresh (s : Recording) : Prop where
  loaded : ∃ config keys, (∀ domain, domain ∈ keys ↔ (s.redis domain).isSome) ∧
    s.memory = RelayState.withPublishers config (loadPublishers s.redis keys)
  sorted : s.memory.publishers.Pairwise (fun p q => p.domain < q.domain)
  records : s.records = []
  called : ∀ domain, s.called domain = 0
  errors : s.errors = 0

section Runs

variable {U : CaseTable} {s₀ s : Recording}

/-- After a `Load`, memory is what Redis has. -/
theorem Fresh.publishersByDomain (hs : Fresh s) (domain : GoString) :
  s.memory.publishersByDomain domain = (s.redis domain).map (loadPublisher domain)
  := by
  obtain ⟨config, keys, hkeys, hmemory⟩ := hs.loaded
  have hsorted : (loadPublishers s.redis keys).Pairwise (fun p q => p.domain < q.domain) := by
    have := hs.sorted
    rwa [hmemory] at this
  rw [hmemory]
  change publisherSet (loadPublishers s.redis keys) domain = _
  apply Option.ext
  intro p
  rw [publisherSet_eq_some hsorted, Option.map_eq_some_iff, loadPublishers, mem_map]
  constructor
  · rintro ⟨⟨d, hd, rfl⟩, rfl⟩
    obtain ⟨h, hh⟩ := Option.isSome_iff_exists.mp ((hkeys d).mp (mem_sortStrings.mp hd))
    exact ⟨h, hh, by rw [hh]; rfl⟩
  · rintro ⟨h, hh, rfl⟩
    have hmem : domain ∈ keys := (hkeys domain).mpr (by rw [hh]; rfl)
    exact ⟨⟨domain, mem_sortStrings.mpr hmem, by rw [hh]; rfl⟩, rfl⟩

theorem Fresh.consistent (hs : Fresh s) :
  Consistent s.memory
  := by
  obtain ⟨config, keys, -, hmemory⟩ := hs.loaded
  have hsorted := hs.sorted
  rw [hmemory] at hsorted ⊢
  exact consistent_withPublishers config hsorted

theorem Fresh.settles (hs : Fresh s) :
  Settles (countIn s.redis) s
  := by
  refine ⟨by simp [hs.records], ?_, fun domain => .inl (hs.publishersByDomain domain), ?_, ?_⟩
  · intro domain p hp
    rw [hs.publishersByDomain] at hp
    obtain ⟨h, hh, rfl⟩ := Option.map_eq_some_iff.mp hp
    rw [countIn, hh]
    exact le_refl _
  · simp [hs.called]
  · simp [hs.called]

/-- The calls of `RecordPublisherActivity` leave the list and the map together at any time, and
when all have returned without an error, every domain that they have recorded has the record of
its hash in memory, with a count that has grown by the number of calls. -/
theorem recorded_publishers_settle {es : List RecordEvent} (hfresh : Fresh s₀)
    (hcalls : ∀ e ∈ es, e.isCall = true) (hrun : run (recordStep U) s₀ es = some s) :
  Consistent s.memory ∧
    (s.records = [] → s.errors = 0 → ∀ domain, 0 < s.called domain →
      ∃ h, s.redis domain = some h ∧
        s.memory.publishersByDomain domain = some (loadPublisher domain h) ∧
        (loadPublisher domain h).activityCount
          = ((s₀.memory.publishersByDomain domain).map Publisher.activityCount).getD 0
            + s.called domain)
  := by
  have hinv : Consistent s.memory ∧ (s.errors = 0 → Settles (countIn s₀.redis) s) := by
    refine run_invariant_of_meets
      (P := fun s => Consistent s.memory ∧ (s.errors = 0 → Settles (countIn s₀.redis) s)) ?_
      ⟨hfresh.consistent, fun _ => hfresh.settles⟩ (meets_of_forall_mem hcalls s₀) hrun
    intro t e t' ht he h
    have hle := errors_le_step he h
    refine ⟨consistent_step he ht.1 h, ?_⟩
    intro herrors
    exact settles_step he (ht.2 (by omega)) (by omega) h
  refine ⟨hinv.1, ?_⟩
  intro hrecords herrors domain hcalled
  have hs := hinv.2 herrors
  obtain ⟨h, hredis⟩ := Option.isSome_iff_exists.mp (hs.called domain hcalled)
  use h, hredis
  constructor
  · rcases hs.agree domain with hagree | ⟨c, hc, -⟩
    · rw [hagree, hredis]
      rfl
    · rw [hrecords] at hc
      cases hc
  · have hcount := hs.count domain
    rw [countIn, hredis] at hcount
    rw [hfresh.publishersByDomain, Option.map_map]
    exact hcount

end Runs

/-- A state without publishers. -/
def emptyState : RelayState := ⟨⟨false, false⟩, [], [], [], [], [], [], fun _ => none⟩

/-- A process that has just loaded an empty store. -/
def nothingRecorded : Recording :=
  ⟨fun _ => none, emptyState.withPublishers [], [], [], fun _ => 0, 0, 0⟩

theorem fresh_nothingRecorded :
  Fresh nothingRecorded
  := ⟨⟨emptyState, [], by simp [nothingRecorded], rfl⟩, List.Pairwise.nil, rfl, fun _ => rfl, rfl⟩

/-- A publisher of the host `b` or `a`. -/
def examplePublisher (domain activityID : String) : Publisher :=
  ⟨lit domain, lit "actor", lit "inbox", [], lit "noon", lit activityID, lit "Create", 0⟩

/-- Two calls for one domain, of which the later one merges first, and a call for another. -/
def crossedCalls : List RecordEvent :=
  [.transact .answered (examplePublisher "b" "1") [], .transact .answered (examplePublisher "B." "2") [],
    .transact .answered (examplePublisher "a" "3") [], .readFirstSeen 1 true, .merge 1,
    .readFirstSeen 0 true, .readFirstSeen 1 true, .merge 1, .merge 0]

set_option maxRecDepth 20000 in
def afterCrossedCalls : Recording :=
  (run (recordStep CaseTable.identity) nothingRecorded crossedCalls).get rfl

set_option maxRecDepth 20000 in
theorem recorded_publishers_settle_crossedCalls :
  afterCrossedCalls.memory.publishers.map Publisher.activityCount = [1, 2] ∧
    ∃ h, afterCrossedCalls.redis (lit "b") = some h ∧
      afterCrossedCalls.memory.publishersByDomain (lit "b") = some (loadPublisher (lit "b") h) ∧
      (loadPublisher (lit "b") h).activityCount = 2
  := by
  have hrun : run (recordStep CaseTable.identity) nothingRecorded crossedCalls
      = some afterCrossedCalls := (Option.some_get (x := run _ nothingRecorded crossedCalls) rfl).symm
  refine ⟨rfl, ?_⟩
  exact (recorded_publishers_settle fresh_nothingRecorded (by decide) hrun).2 rfl rfl (lit "b")
    (by decide)

end Models
