import ActivityRelay.HttpSignature.Destination
import ActivityRelay.Models.Database

/-!
# The delivery health of receivers

After each delivery attempt a worker records whether it has succeeded, in a hash of Redis that is
named by the authority of the inbox. The status page loads the hashes of the domains that are
registered.

A script changes the hash. Its counters do not pass the greatest number of 64 bits, and a failed
increment does not undo what the script has done before it.
-/

namespace Models

open GoString NetUrl

/-! ### Records -/

def receiverHealthKeyPrefix : GoString := lit "relay:receiver-health:"

def receiverHealthKey (domain : GoString) : GoString := receiverHealthKeyPrefix ++ domain

structure ReceiverDeliveryHealth where
  domain : GoString := []
  lastSuccessAt : GoString := []
  lastFailureAt : GoString := []
  consecutiveFailures : ℤ := 0
  totalSuccesses : ℤ := 0
  totalFailures : ℤ := 0
  deriving DecidableEq, Repr

/-- `HINCRBY` with one in a script, with `none` for an error. -/
def Hash.incrField (h : Hash) (field : String) : Option Hash :=
  (h.incr field).map (fun n => h.set field (formatInt n))

/-- `recordReceiverDeliveryScript`, and whether it ends without an error. -/
def recordReceiverDeliveryScript (occurredAt : GoString) (succeeded : Bool) (h : Hash) :
    Hash × Bool :=
  if succeeded then
    let h := (h.set "last_success_at" occurredAt).set "consecutive_failures" (lit "0")
    match h.incrField "total_successes" with
    | none => (h, false)
    | some h => (h, true)
  else
    let h := h.set "last_failure_at" occurredAt
    match h.incrField "consecutive_failures" with
    | none => (h, false)
    | some h =>
        match h.incrField "total_failures" with
        | none => (h, false)
        | some h => (h, true)

section Records

variable (U : CaseTable)

/-- `ReceiverDomainFromInboxURL`, with `none` for an error. -/
def receiverDomainFromInboxURL (address : GoString) : Option GoString :=
  match parse address with
  | none => none
  | some parsed =>
      if parsed.scheme ≠ lit "http" ∧ parsed.scheme ≠ lit "https" then none
      else
        let host := normalizeStateDomain U parsed.hostname
        if host = [] then none
        else if parsed.port ≠ [] then some (HttpSignature.joinHostPort host parsed.port)
        else some host

/-- `RecordReceiverDelivery`, and whether there is no error. -/
def recordReceiverDelivery (domain : GoString) (succeeded : Bool) (occurredAt : GoString)
    (db : Database) : Database × Bool :=
  let domain := normalizeStateDomain U domain
  if domain = [] then (db, false)
  else
    let script := recordReceiverDeliveryScript occurredAt succeeded
    (db.modify (receiverHealthKey domain) (fun h => (script h).1),
      (script (db.hash (receiverHealthKey domain))).2)

/-- `recordReceiverAttempt`. An error is only logged. -/
def recordReceiverAttempt (receiverDomain : GoString) (succeeded : Bool) (occurredAt : GoString)
    (db : Database) : Database :=
  if receiverDomain = [] then db
  else (recordReceiverDelivery U receiverDomain succeeded occurredAt db).1

/-- An attempt of `relayActivityV2` to deliver to an inbox. -/
structure Attempt where
  inboxURL : GoString
  succeeded : Bool
  occurredAt : GoString

/-- What `relayActivityV2` records of an attempt. -/
def Attempt.record (attempt : Attempt) (db : Database) : Database :=
  recordReceiverAttempt U ((receiverDomainFromInboxURL U attempt.inboxURL).getD []) attempt.succeeded
    attempt.occurredAt db

/-! ### Loading -/

/-- `receiverHealthCounter`, with `none` for an error. -/
def receiverHealthCounter (value : GoString) : Option ℤ :=
  if value = [] then some 0
  else
    match parseInt value with
    | none => none
    | some counter => if counter < 0 then none else some counter

/-- The record that is made of the hash of a domain. -/
def loadReceiverHealth (domain : GoString) (h : Hash) : Option ReceiverDeliveryHealth := do
  let consecutiveFailures ← receiverHealthCounter (h.stringValue "consecutive_failures")
  let totalSuccesses ← receiverHealthCounter (h.stringValue "total_successes")
  let totalFailures ← receiverHealthCounter (h.stringValue "total_failures")
  return {
    domain := domain
    lastSuccessAt := h.stringValue "last_success_at"
    lastFailureAt := h.stringValue "last_failure_at"
    consecutiveFailures := consecutiveFailures
    totalSuccesses := totalSuccesses
    totalFailures := totalFailures }

/-- The domains that `LoadReceiverDeliveryHealth` asks for. -/
def requestedDomains (domains : List GoString) : List GoString :=
  sortStrings ((domains.map (normalizeStateDomain U)).filter (· ≠ [])).dedup

/-- `LoadReceiverDeliveryHealth`: a map by domain, with `none` for an error. -/
def loadReceiverDeliveryHealth (domains : List GoString) (db : Database) :
    Option (List ReceiverDeliveryHealth) :=
  (requestedDomains U domains).mapM
    (fun domain => loadReceiverHealth domain (db.hash (receiverHealthKey domain)))

end Records

/-! ### Counters -/

/-- A field has a counter that fits. An absent field has the counter zero. -/
structure HasCounter (h : Hash) (field : String) (n : ℕ) : Prop where
  fits : n < 2 ^ 63
  value : h (lit field) = none ∧ n = 0 ∨ h (lit field) = some (formatInt n)

/-- The next value of a counter, which stays at the greatest number that fits. -/
def bump (n : ℕ) : ℕ := if n + 1 < 2 ^ 63 then n + 1 else n

section Counters

variable {h : Hash} {field : String} {n : ℕ}

theorem hasCounter_set (hn : n < 2 ^ 63) :
  HasCounter (h.set field (formatInt n)) field n
  := ⟨hn, .inr (Hash.set_self ..)⟩

theorem HasCounter.set_of_ne (hcounter : HasCounter h field n) (field' : String)
    (hne : lit field ≠ lit field') (value : GoString) :
  HasCounter (h.set field' value) field n
  := by
  refine ⟨hcounter.fits, ?_⟩
  rw [Hash.set_of_ne _ _ hne]
  exact hcounter.value

theorem HasCounter.incrField (hcounter : HasCounter h field n) :
  h.incrField field = if n + 1 < 2 ^ 63 then some (h.set field (formatInt (n + 1 : ℕ))) else none
  := by
  have hfits := hcounter.fits
  obtain ⟨hnone, rfl⟩ | hsome := hcounter.value
  · rw [Hash.incrField, Hash.incr, hnone]
    rfl
  · have hparse : parseIntValue (formatInt n) = n := parseIntValue_formatInt (by omega) (by omega)
    rw [Hash.incrField, Hash.incr, hsome]
    simp only [hparse, true_and]
    by_cases hnext : n + 1 < 2 ^ 63
    · rw [if_pos hnext, if_pos (by omega)]
      rfl
    · rw [if_neg hnext, if_neg (by omega)]
      rfl

theorem HasCounter.receiverHealthCounter_eq (hcounter : HasCounter h field n) :
  receiverHealthCounter (h.stringValue field) = some (n : ℤ)
  := by
  have hfits := hcounter.fits
  unfold receiverHealthCounter Hash.stringValue
  obtain ⟨hnone, rfl⟩ | hsome := hcounter.value
  · rw [hnone]
    rfl
  · have hparse : parseInt (formatInt n) = some (n : ℤ) :=
      parseInt_formatInt_of_fits (by omega) (by omega)
    have hne : formatInt (n : ℤ) ≠ [] := by
      intro hnil
      rw [hnil] at hparse
      cases hparse
    rw [hsome, Option.getD_some, if_neg hne, hparse]
    simp

end Counters

/-- The counters of a hash: consecutive failures, successes and failures. -/
structure Counts (h : Hash) (c s f : ℕ) : Prop where
  consecutive : HasCounter h "consecutive_failures" c
  successes : HasCounter h "total_successes" s
  failures : HasCounter h "total_failures" f
  le : c ≤ f

theorem hasCounter_empty (field : String) :
  HasCounter (fun _ => none) field 0
  := ⟨by decide, .inl ⟨rfl, rfl⟩⟩

theorem counts_empty :
  Counts (fun _ => none) 0 0 0
  := ⟨hasCounter_empty _, hasCounter_empty _, hasCounter_empty _, le_rfl⟩

section Script

variable {h : Hash} {c s f : ℕ}

theorem Counts.success (hcounts : Counts h c s f) (occurredAt : GoString) :
  Counts (recordReceiverDeliveryScript occurredAt true h).1 0 (bump s) f
  := by
  generalize hset : (h.set "last_success_at" occurredAt).set "consecutive_failures" (lit "0") = h'
  have hzero : HasCounter h' "consecutive_failures" 0 := by
    rw [← hset]
    exact ⟨by decide, .inr (Hash.set_self ..)⟩
  have hsuccesses : HasCounter h' "total_successes" s := by
    rw [← hset]
    exact (hcounts.successes.set_of_ne _ (by decide) _).set_of_ne _ (by decide) _
  have hfailures : HasCounter h' "total_failures" f := by
    rw [← hset]
    exact (hcounts.failures.set_of_ne _ (by decide) _).set_of_ne _ (by decide) _
  rw [recordReceiverDeliveryScript, if_pos rfl, hset]
  dsimp only
  rw [hsuccesses.incrField, bump]
  by_cases hnext : s + 1 < 2 ^ 63
  · rw [if_pos hnext, if_pos hnext]
    exact ⟨hzero.set_of_ne _ (by decide) _, hasCounter_set hnext, hfailures.set_of_ne _ (by decide) _,
      Nat.zero_le f⟩
  · rw [if_neg hnext, if_neg hnext]
    exact ⟨hzero, hsuccesses, hfailures, Nat.zero_le f⟩

theorem Counts.failure (hcounts : Counts h c s f) (occurredAt : GoString) :
  Counts (recordReceiverDeliveryScript occurredAt false h).1 (bump c) s (bump f)
  := by
  obtain ⟨hconsecutive, hsuccesses, hfailures, hle⟩ := hcounts
  have hconsecutive := hconsecutive.set_of_ne "last_failure_at" (by decide) occurredAt
  have hsuccesses := hsuccesses.set_of_ne "last_failure_at" (by decide) occurredAt
  have hfailures := hfailures.set_of_ne "last_failure_at" (by decide) occurredAt
  rw [recordReceiverDeliveryScript, if_neg (by decide)]
  dsimp only
  rw [hconsecutive.incrField, bump, bump]
  by_cases hnext : c + 1 < 2 ^ 63
  · rw [if_pos hnext, if_pos hnext]
    have hfailures' := hfailures.set_of_ne "consecutive_failures" (by decide)
      (formatInt (c + 1 : ℕ))
    have hsuccesses' := hsuccesses.set_of_ne "consecutive_failures" (by decide)
      (formatInt (c + 1 : ℕ))
    dsimp only
    rw [hfailures'.incrField]
    by_cases hnext' : f + 1 < 2 ^ 63
    · rw [if_pos hnext', if_pos hnext']
      exact ⟨(hasCounter_set hnext).set_of_ne _ (by decide) _, hsuccesses'.set_of_ne _ (by decide) _,
        hasCounter_set hnext', by omega⟩
    · rw [if_neg hnext', if_neg hnext']
      exact ⟨hasCounter_set hnext, hsuccesses', hfailures', by omega⟩
  · -- both counters are the greatest number that fits
    rw [if_neg hnext, if_neg hnext, if_neg (by omega)]
    exact ⟨hconsecutive, hsuccesses, hfailures, hle⟩

end Script

/-! ### Histories -/

/-- The greatest number of a counter. -/
def maximumCount : ℕ := 2 ^ 63 - 1

theorem bump_min (n : ℕ) :
  bump (min n maximumCount) = min (n + 1) maximumCount
  := by
  unfold bump maximumCount
  split_ifs with h <;> omega

/-- The hash after a list of results, each with its time. -/
def recordResults (results : List (Bool × GoString)) (h : Hash) : Hash :=
  results.foldl (fun h result => (recordReceiverDeliveryScript result.2 result.1 h).1) h

/-- The counters count the results, up to their maximum. -/
theorem Counts.recordResults {h : Hash} {c s f : ℕ}
    (hcounts : Counts h c (min s maximumCount) (min f maximumCount))
    (results : List (Bool × GoString)) :
  ∃ c', Counts (Models.recordResults results h) c'
    (min (s + results.countP (·.1)) maximumCount) (min (f + results.countP (!·.1)) maximumCount)
  := by
  induction results generalizing h c s f with
  | nil => exact ⟨c, hcounts⟩
  | cons result results ih =>
    obtain ⟨succeeded, occurredAt⟩ := result
    cases succeeded with
    | true =>
      have hstep := hcounts.success occurredAt
      rw [bump_min] at hstep
      obtain ⟨c', hc'⟩ := ih hstep
      refine ⟨c', ?_⟩
      simpa [Models.recordResults, Nat.add_assoc, Nat.add_comm 1] using hc'
    | false =>
      have hstep := hcounts.failure occurredAt
      rw [bump_min] at hstep
      obtain ⟨c', hc'⟩ := ih hstep
      refine ⟨c', ?_⟩
      simpa [Models.recordResults, Nat.add_assoc, Nat.add_comm 1] using hc'

section Recorded

variable (U : CaseTable)

/-- The domain that attempts to deliver to an inbox are recorded for, empty if none is. -/
def recordedDomain (inboxURL : GoString) : GoString :=
  normalizeStateDomain U ((receiverDomainFromInboxURL U inboxURL).getD [])

/-- The database after attempts to deliver to an inbox. -/
def recordAttempts (inboxURL : GoString) (results : List (Bool × GoString)) (db : Database) :
    Database :=
  results.foldl (fun db result => Attempt.record U ⟨inboxURL, result.1, result.2⟩ db) db

variable {U}

/-- A result without a domain is not recorded. -/
theorem record_eq (attempt : Attempt) (db : Database) :
  attempt.record U db =
    if recordedDomain U attempt.inboxURL = [] then db
    else db.modify (receiverHealthKey (recordedDomain U attempt.inboxURL))
      (fun h => (recordReceiverDeliveryScript attempt.occurredAt attempt.succeeded h).1)
  := by
  unfold Attempt.record recordReceiverAttempt recordReceiverDelivery recordedDomain
  dsimp only
  split_ifs with hdomain hrecorded hrecorded
  · rfl
  · rw [hdomain] at hrecorded
    exact absurd rfl hrecorded
  · rfl
  · rfl

theorem receiverHealthKey_injective :
  Function.Injective receiverHealthKey
  := fun _ _ h => List.append_cancel_left h

theorem hash_record {attempt : Attempt} {d : GoString} (hd : d ≠ []) (db : Database) :
  (attempt.record U db).hash (receiverHealthKey d) =
    if recordedDomain U attempt.inboxURL = d then
      (recordReceiverDeliveryScript attempt.occurredAt attempt.succeeded
        (db.hash (receiverHealthKey d))).1
    else db.hash (receiverHealthKey d)
  := by
  rw [record_eq]
  by_cases hrecorded : recordedDomain U attempt.inboxURL = d
  · rw [hrecorded, if_neg hd, if_pos rfl]
    simp [Database.hash, Database.modify]
  · rw [if_neg hrecorded]
    split_ifs with hnil
    · rfl
    · have hkey : receiverHealthKey d ≠ receiverHealthKey (recordedDomain U attempt.inboxURL) :=
        fun h => hrecorded (receiverHealthKey_injective h).symm
      rw [Database.hash, Database.modify, Function.update_of_ne hkey]
      rfl

theorem hash_recordAttempts {inboxURL d : GoString} (hd : d ≠ []) (results : List (Bool × GoString))
    (db : Database) :
  (recordAttempts U inboxURL results db).hash (receiverHealthKey d) =
    if recordedDomain U inboxURL = d then recordResults results (db.hash (receiverHealthKey d))
    else db.hash (receiverHealthKey d)
  := by
  induction results generalizing db with
  | nil => exact (ite_self _).symm
  | cons result results ih =>
    refine (ih _).trans ?_
    rw [hash_record hd]
    split_ifs with hrecorded
    · rfl
    · rfl

/-- What is loaded of a hash with the counters. -/
theorem Counts.loadReceiverHealth {h : Hash} {c s f : ℕ} (hcounts : Counts h c s f)
    (domain : GoString) :
  ∃ health, Models.loadReceiverHealth domain h = some health ∧ health.domain = domain ∧
    health.totalSuccesses = s ∧ health.totalFailures = f
  := by
  unfold Models.loadReceiverHealth
  rw [hcounts.consecutive.receiverHealthCounter_eq, hcounts.successes.receiverHealthCounter_eq,
    hcounts.failures.receiverHealthCounter_eq]
  exact ⟨_, rfl, rfl, rfl, rfl⟩

end Recorded

end Models
