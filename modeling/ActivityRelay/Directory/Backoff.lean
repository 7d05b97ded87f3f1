import ActivityRelay.Directory.Scheduler

/-!
# Retries

The delays before the retries of a cycle. A failure that is retried raises the number of attempts,
up to a limit, and the local delay grows with it; a directory may ask for a longer delay.

The source computes delays in 64 bits. For the numbers of attempts that can occur the result is that
of the computation with integers (`toInt_retryDelay64`), so nothing overflows.
-/

namespace Directory

open GoString GoTime

/-! ### The computation in 64 bits -/

section Machine

variable (hash : GoString → UInt64) (relayActor origin : GoString)

/-- The shift of an `int`, which has the value 0 if nothing is left. -/
def shiftLeft (x n : Int64) : Int64 := if n < 64 then x <<< n else 0

def second64 : Int64 := 1000000000
def initialRetry64 : Int64 := 30000000000
def maximumLocalRetry64 : Int64 := 900000000000
def maximumRetryAfter64 : Int64 := 86400000000000

/-- The delay before the jitter is added. -/
def retryBase64 (attempt : Int64) : Int64 :=
  let attempt := if attempt < 1 then 1 else attempt
  let base := shiftLeft initialRetry64 (attempt - 1)
  if maximumLocalRetry64 < base then maximumLocalRetry64 else base

/-- `retryDelay`. -/
def retryDelay64 (attempt : Int64) : Int64 :=
  let base := retryBase64 attempt
  let attempt := if attempt < 1 then 1 else attempt
  let digest := hash
    (relayActor ++ [0] ++ origin ++ [0] ++ lit "retry" ++ [0] ++ formatInt attempt.toInt)
  let jitterRange := base / 5
  if jitterRange ≤ 0 then base
  else
    let jitterSeconds := (jitterRange / second64).toUInt64
    let delay := base + (digest % (jitterSeconds + 1)).toInt64 * second64
    if maximumLocalRetry64 < delay then maximumLocalRetry64 else delay

/-- The number of attempts and the delay that `applyFailure` computes for a failure that is
retried. -/
def failureDelay64 (attempt retryAfter : Int64) : Int64 × Int64 :=
  let attempt := attempt + 1
  let attempt := if 16 < attempt then 16 else attempt
  let delay := retryDelay64 hash relayActor origin attempt
  let delay := if delay < retryAfter then retryAfter else delay
  let delay := if maximumRetryAfter64 < delay then maximumRetryAfter64 else delay
  (attempt, delay)

end Machine

/-! ### The local delay -/

/-- The delay before the jitter is added. -/
def retryBase (attempt : ℤ) : ℤ :=
  min (initialRetry * 2 ^ (max attempt 1 - 1).toNat) maximumLocalRetry

section Local

variable {subject : Subject} {attempt : ℤ}

theorem retryBase_range (attempt : ℤ) :
  initialRetry ≤ retryBase attempt ∧ retryBase attempt ≤ maximumLocalRetry
  := by
  have hpow : 1 ≤ (2 : ℤ) ^ (max attempt 1 - 1).toNat := one_le_pow₀ (by decide)
  have hinitial : initialRetry = 30000000000 := rfl
  have hmaximum : maximumLocalRetry = 900000000000 := rfl
  unfold retryBase
  rw [hinitial, hmaximum]
  constructor <;> omega

/-- The delay doubles with each attempt, up to its limit. -/
theorem retryBase_succ (h : 1 ≤ attempt) :
  retryBase (attempt + 1) = min (2 * retryBase attempt) maximumLocalRetry
  := by
  have hexponent : (max (attempt + 1) 1 - 1).toNat = (max attempt 1 - 1).toNat + 1 := by omega
  have hinitial : initialRetry = 30000000000 := rfl
  have hmaximum : maximumLocalRetry = 900000000000 := rfl
  unfold retryBase
  rw [hexponent, pow_succ, hinitial, hmaximum]
  omega

/-- The text whose hash gives the jitter. -/
def retryText (relayActor origin : GoString) (attempt : ℤ) : GoString :=
  relayActor ++ [0] ++ origin ++ [0] ++ lit "retry" ++ [0] ++ formatInt (max attempt 1)

theorem retryDelay_eq (attempt : ℤ) :
  retryDelay subject attempt =
    min (retryBase attempt + (subject.hash (retryText subject.relayActor subject.origin attempt) %
      ((retryBase attempt / 5 / second).toNat + 1) : ℕ) * second) maximumLocalRetry
  := by
  obtain ⟨hbase, -⟩ := retryBase_range attempt
  have hinitial : initialRetry = 30000000000 := rfl
  have hrange : ¬ retryBase attempt / 5 ≤ 0 := by omega
  exact if_neg hrange

variable (subject) in
theorem retryDelay_range (attempt : ℤ) :
  initialRetry ≤ retryDelay subject attempt ∧ retryDelay subject attempt ≤ maximumLocalRetry
  := by
  obtain ⟨hbase, -⟩ := retryBase_range attempt
  have hle : initialRetry ≤ maximumLocalRetry := by decide
  have hsecond : 0 ≤ second := by decide
  rw [retryDelay_eq]
  refine ⟨le_min (le_add_of_le_of_nonneg hbase ?_) hle, min_le_right _ _⟩
  exact mul_nonneg (Int.natCast_nonneg _) hsecond

/-- A later attempt does not wait less. -/
theorem retryDelay_succ (h : 1 ≤ attempt) :
  retryDelay subject attempt ≤ retryDelay subject (attempt + 1)
  := by
  obtain ⟨hbase, hle⟩ := retryBase_range attempt
  have hsucc := retryBase_succ h
  have hinitial : initialRetry = 30000000000 := rfl
  have hsecond : second = 1000000000 := rfl
  -- the jitter is at most a fifth of the delay, which doubles
  have hjitter := Nat.mod_lt
    (subject.hash (retryText subject.relayActor subject.origin attempt))
    (Nat.succ_pos (retryBase attempt / 5 / second).toNat)
  rw [retryDelay_eq, retryDelay_eq]
  generalize subject.hash (retryText subject.relayActor subject.origin attempt) %
    ((retryBase attempt / 5 / second).toNat + 1) = jitter at hjitter ⊢
  rw [hsecond] at hjitter ⊢
  omega

theorem retryDelay_mono {attempt' : ℤ} (h : 1 ≤ attempt) (hle : attempt ≤ attempt') :
  retryDelay subject attempt ≤ retryDelay subject attempt'
  := by
  induction attempt', hle using Int.leInduction with
  | base => rfl
  | succ n hn ih => exact ih.trans (retryDelay_succ (h.trans hn))

end Local

/-! ### Nothing overflows -/

/-- The scheduler of a relay and a directory, with the number of each digest in 64 bits. -/
def Subject.ofHash (hash : GoString → UInt64) (relayActor origin : GoString)
    (nonempty : origin ≠ []) : Subject where
  relayActor := relayActor
  origin := origin
  hash text := (hash text).toNat
  nonempty := nonempty

theorem toInt_toInt64 {x : UInt64} (h : x.toNat < 2 ^ 63) :
  x.toInt64.toInt = x.toNat
  := by
  rw [← Int64.toInt_toBitVec, UInt64.toBitVec_toInt64]
  apply BitVec.toInt_eq_toNat_of_lt
  simp only [UInt64.toNat_toBitVec]
  omega

/-- A lower limit. -/
theorem toInt_ite_lt (a b : Int64) :
  (if a < b then b else a).toInt = max a.toInt b.toInt
  := by
  split
  · rename_i h
    rw [max_eq_right (Int64.lt_iff_toInt_lt.mp h).le]
  · rename_i h
    rw [Int64.lt_iff_toInt_lt, not_lt] at h
    rw [max_eq_left h]

/-- An upper limit. -/
theorem toInt_ite_gt (a b : Int64) :
  (if b < a then b else a).toInt = min a.toInt b.toInt
  := by
  split
  · rename_i h
    rw [min_eq_right (Int64.lt_iff_toInt_lt.mp h).le]
  · rename_i h
    rw [Int64.lt_iff_toInt_lt, not_lt] at h
    rw [min_eq_left h]

theorem exists_attempt {attempt : Int64} (hlow : 0 ≤ attempt.toInt) (hhigh : attempt.toInt ≤ 16) :
  ∃ k : Fin 17, attempt = Int64.ofInt k ∧ attempt.toInt = k
  := by
  refine ⟨⟨attempt.toInt.toNat, by omega⟩, ?_, ?_⟩
  · rw [Int.toNat_of_nonneg hlow, Int64.ofInt_toInt]
  · exact (Int.toNat_of_nonneg hlow).symm

section Overflow

variable {hash : GoString → UInt64} {relayActor origin : GoString} {attempt retryAfter : Int64}

theorem toInt_retryBase64 (hlow : 0 ≤ attempt.toInt) (hhigh : attempt.toInt ≤ 16) :
  (retryBase64 attempt).toInt = retryBase attempt.toInt
  := by
  have htable : ∀ k : Fin 17, (retryBase64 (Int64.ofInt k)).toInt = retryBase k := by
    decide +kernel
  obtain ⟨k, hk, hint⟩ := exists_attempt hlow hhigh
  rw [hint, hk]
  exact htable k

/-- The delay with its jitter. -/
theorem toInt_add_jitter {base : Int64} (hlow : initialRetry ≤ base.toInt)
    (hhigh : base.toInt ≤ maximumLocalRetry) (digest : UInt64) :
  0 < (base / 5).toInt ∧
    (base + (digest % ((base / 5 / second64).toUInt64 + 1)).toInt64 * second64).toInt =
      base.toInt + (digest.toNat % ((base.toInt / 5 / second).toNat + 1) : ℕ) * second
  := by
  have hinitial : initialRetry = 30000000000 := rfl
  have hmaximum : maximumLocalRetry = 900000000000 := rfl
  have hsecond : second = 1000000000 := rfl
  have hsecond64 : second64.toInt = 1000000000 := rfl
  have hfive : (5 : Int64).toInt = 5 := rfl
  have hfifth : (base / 5).toInt = base.toInt / 5 := by
    rw [Int64.toInt_div, hfive, Int.tdiv_eq_ediv_of_nonneg (by omega),
      Int.bmod_eq_of_le (by omega) (by omega)]
  have hseconds : (base / 5 / second64).toInt = base.toInt / 5 / 1000000000 := by
    rw [Int64.toInt_div, hfifth, hsecond64, Int.tdiv_eq_ediv_of_nonneg (by omega),
      Int.bmod_eq_of_le (by omega) (by omega)]
  have hnat : (base / 5 / second64).toUInt64.toNat = (base.toInt / 5 / 1000000000).toNat := by
    rw [Int64.toNat_toUInt64_of_le, Int64.toNatClampNeg, hseconds]
    rw [Int64.le_iff_toInt_le, hseconds]
    change (0 : ℤ) ≤ _
    omega
  have hsucc : ((base / 5 / second64).toUInt64 + 1).toNat =
      (base.toInt / 5 / 1000000000).toNat + 1 := by
    rw [UInt64.toNat_add, hnat]
    change (_ + 1) % _ = _
    omega
  have hmod : digest.toNat % ((base.toInt / 5 / 1000000000).toNat + 1) <
      (base.toInt / 5 / 1000000000).toNat + 1 := Nat.mod_lt _ (Nat.succ_pos _)
  have hjitter : (digest % ((base / 5 / second64).toUInt64 + 1)).toInt64.toInt =
      (digest.toNat % ((base.toInt / 5 / 1000000000).toNat + 1) : ℕ) := by
    rw [toInt_toInt64, UInt64.toNat_mod, hsucc]
    rw [UInt64.toNat_mod, hsucc]
    omega
  refine ⟨by omega, ?_⟩
  rw [Int64.toInt_add, Int64.toInt_mul, hjitter, hsecond64, hsecond]
  generalize digest.toNat % ((base.toInt / 5 / 1000000000).toNat + 1) = jitter at hmod ⊢
  have hproduct : Int.bmod ((jitter : ℤ) * 1000000000) (2 ^ 64) = jitter * 1000000000 :=
    Int.bmod_eq_of_le (by omega) (by omega)
  rw [hproduct, Int.bmod_eq_of_le (by omega) (by omega)]

theorem toInt_retryDelay64 (horigin : origin ≠ []) (hlow : 0 ≤ attempt.toInt)
    (hhigh : attempt.toInt ≤ 16) :
  (retryDelay64 hash relayActor origin attempt).toInt =
    retryDelay (.ofHash hash relayActor origin horigin) attempt.toInt
  := by
  obtain ⟨hbase, hle⟩ := retryBase_range attempt.toInt
  have hbase64 := toInt_retryBase64 hlow hhigh
  rw [← hbase64] at hbase hle
  have hmaximum : maximumLocalRetry64.toInt = maximumLocalRetry := rfl
  have hone : (1 : Int64).toInt = 1 := rfl
  have hzero : (0 : Int64).toInt = 0 := rfl
  obtain ⟨hpos, -⟩ := toInt_add_jitter hbase hle 0
  have hrange : ¬ retryBase64 attempt / 5 ≤ 0 := by
    rw [Int64.le_iff_toInt_le, hzero, not_le]
    exact hpos
  rw [retryDelay_eq, retryDelay64, retryText]
  simp only [if_neg hrange, toInt_ite_gt, toInt_ite_lt, (toInt_add_jitter hbase hle _).2, hbase64,
    hmaximum, hone, Subject.ofHash]

variable (hash relayActor retryAfter) in
theorem toInt_failureDelay64 (horigin : origin ≠ []) (hlow : 0 ≤ attempt.toInt)
    (hhigh : attempt.toInt ≤ 16) :
  (failureDelay64 hash relayActor origin attempt retryAfter).1.toInt =
      min (attempt.toInt + 1) maximumAttempt ∧
    (failureDelay64 hash relayActor origin attempt retryAfter).2.toInt =
      min (max (retryDelay (.ofHash hash relayActor origin horigin)
        (min (attempt.toInt + 1) maximumAttempt)) retryAfter.toInt) maximumRetryAfter
  := by
  have hone : (1 : Int64).toInt = 1 := rfl
  have hmaximum : maximumRetryAfter64.toInt = maximumRetryAfter := rfl
  have hattempt : (if 16 < attempt + 1 then 16 else attempt + 1).toInt =
      min (attempt.toInt + 1) maximumAttempt := by
    rw [toInt_ite_gt, Int64.toInt_add, hone, Int.bmod_eq_of_le (by omega) (by omega)]
    rfl
  have hsixteen : maximumAttempt = 16 := rfl
  have hdelay : (retryDelay64 hash relayActor origin
      (if 16 < attempt + 1 then 16 else attempt + 1)).toInt =
      retryDelay (.ofHash hash relayActor origin horigin)
        (if 16 < attempt + 1 then 16 else attempt + 1).toInt :=
    toInt_retryDelay64 horigin (by omega) (by omega)
  refine ⟨hattempt, ?_⟩
  rw [failureDelay64, toInt_ite_gt, toInt_ite_lt, hdelay, hattempt, hmaximum]

end Overflow

/-! ### Failures in a row -/

section Failures

variable (subject : Subject)

/-- The state after some failures, each with the time it is seen. -/
def afterFailures (st : State) (failures : List (ℤ × ClientError)) : State :=
  failures.foldl (fun st failure => applyFailure subject st failure.1 failure.2) st

/-- The local delays that some failures lead to. -/
def localDelays : State → List (ℤ × ClientError) → List ℤ
  | _, [] => []
  | st, failure :: failures =>
      let st' := applyFailure subject st failure.1 failure.2
      retryDelay subject st'.attempt :: localDelays st' failures

/-- A failure that is retried, with a delay of at most 24 hours that the directory asks for. -/
structure Retryable (e : ClientError) : Prop where
  retrying : (classifyFailure e).1 = .retrying
  retryAfter_nonneg : 0 ≤ e.retryAfter
  retryAfter_le : e.retryAfter ≤ 24 * hour

/-- What a failure at the time `now` leads to. -/
structure Retried (hash : GoString → UInt64) (st : State) (now : ℤ) (e : ClientError)
    (st' : State) : Prop where
  attempt_pos : 1 ≤ st'.attempt
  attempt_le : st'.attempt ≤ 16
  retryAfter_le : e.retryAfter ≤ st'.nextAttempt - now
  local_le : retryDelay subject st'.attempt ≤ st'.nextAttempt - now
  delay_le : st'.nextAttempt - now ≤ 24 * hour
  local_ge : 30 * second ≤ retryDelay subject st'.attempt
  local_le_maximum : retryDelay subject st'.attempt ≤ 15 * minute
  -- the computation in 64 bits has the same results
  attempt_fits : (failureDelay64 hash subject.relayActor subject.origin (.ofInt st.attempt)
    (.ofInt e.retryAfter)).1.toInt = st'.attempt
  delay_fits : now + (failureDelay64 hash subject.relayActor subject.origin (.ofInt st.attempt)
    (.ofInt e.retryAfter)).2.toInt = st'.nextAttempt
  instant_fits : now / second < 2 ^ 63 - 24 * 60 * 60 → st'.nextAttempt / second < 2 ^ 63

theorem applyFailure_retrying (st : State) (now : ℤ) {e : ClientError}
    (h : (classifyFailure e).1 = .retrying) :
  (applyFailure subject st now e).attempt = min (st.attempt + 1) maximumAttempt ∧
    (applyFailure subject st now e).nextAttempt =
      now + min (max (retryDelay subject (min (st.attempt + 1) maximumAttempt)) e.retryAfter)
        maximumRetryAfter
  := by
  simp [applyFailure, h]

theorem afterFailures_concat (st : State) (failures : List (ℤ × ClientError))
    (f : ℤ × ClientError) :
  afterFailures subject st (failures ++ [f]) =
    applyFailure subject (afterFailures subject st failures) f.1 f.2
  := by
  rw [afterFailures, List.foldl_append]
  rfl

/-- The attempts stay in their range. -/
theorem attempt_range_afterFailures {st : State} {failures : List (ℤ × ClientError)}
    (h : ∀ f ∈ failures, Retryable f.2) (hlow : 0 ≤ st.attempt) (hhigh : st.attempt ≤ 16) :
  0 ≤ (afterFailures subject st failures).attempt ∧
    (afterFailures subject st failures).attempt ≤ 16
  := by
  have hsixteen : maximumAttempt = 16 := rfl
  induction failures generalizing st with
  | nil => exact ⟨hlow, hhigh⟩
  | cons f failures ih =>
    rw [List.forall_mem_cons] at h
    obtain ⟨hattempt, -⟩ := applyFailure_retrying subject st f.1 h.1.retrying
    apply ih h.2
    · rw [hattempt]
      omega
    · rw [hattempt]
      omega

end Failures

/-- One failure that is retried. -/
theorem retried_applyFailure {hash : GoString → UInt64} {relayActor origin : GoString}
    (horigin : origin ≠ []) {st : State} (hlow : 0 ≤ st.attempt) (hhigh : st.attempt ≤ 16)
    {e : ClientError} (he : Retryable e) (now : ℤ) :
  Retried (.ofHash hash relayActor origin horigin) hash st now e
    (applyFailure (.ofHash hash relayActor origin horigin) st now e)
  := by
  obtain ⟨hattempt, hnext⟩ := applyFailure_retrying (.ofHash hash relayActor origin horigin) st now
    he.retrying
  obtain ⟨hge, hle⟩ := retryDelay_range (.ofHash hash relayActor origin horigin)
    (min (st.attempt + 1) maximumAttempt)
  have hsixteen : maximumAttempt = 16 := rfl
  have hinitial : initialRetry = 30 * second := rfl
  have hmaximum : maximumLocalRetry = 15 * minute := rfl
  have hremote : maximumRetryAfter = 24 * hour := rfl
  have hshort : 15 * minute ≤ 24 * hour := by decide
  have hnonneg := he.retryAfter_nonneg
  have hday := he.retryAfter_le
  have hfits : (Int64.ofInt st.attempt).toInt = st.attempt :=
    Int64.toInt_ofInt_of_le (by omega) (by omega)
  have hfits' : (Int64.ofInt e.retryAfter).toInt = e.retryAfter := by
    have hhour : 24 * hour < 2 ^ 63 := by decide
    exact Int64.toInt_ofInt_of_le (by omega) (by omega)
  obtain ⟨hattempt64, hdelay64⟩ := toInt_failureDelay64 hash relayActor (.ofInt e.retryAfter)
    horigin (hfits.symm ▸ hlow) (hfits.symm ▸ hhigh)
  rw [hfits] at hattempt64 hdelay64
  rw [hfits'] at hdelay64
  constructor
  case attempt_fits => rw [hattempt]; exact hattempt64
  case delay_fits => rw [hnext]; exact congrArg (now + ·) hdelay64
  case instant_fits =>
    intro hinstant
    have hsecond : second = 1000000000 := rfl
    have hhour : 24 * hour = 86400 * 1000000000 := rfl
    rw [hnext, hsecond]
    rw [hsecond] at hinstant
    omega
  all_goals
    simp only [hattempt, hnext]
    omega

/-- Failures in a row. -/
theorem localDelays_pairwise {subject : Subject} {st : State} {failures : List (ℤ × ClientError)}
    (h : ∀ f ∈ failures, Retryable f.2) (hlow : 0 ≤ st.attempt) :
  (localDelays subject st failures).Pairwise (· ≤ ·) ∧
    ∀ d ∈ localDelays subject st failures,
      retryDelay subject (min (st.attempt + 1) maximumAttempt) ≤ d
  := by
  have hsixteen : maximumAttempt = 16 := rfl
  induction failures generalizing st with
  | nil => simp [localDelays]
  | cons f failures ih =>
    rw [List.forall_mem_cons] at h
    obtain ⟨hattempt, -⟩ := applyFailure_retrying subject st f.1 h.1.retrying
    have hlow' : 0 ≤ (applyFailure subject st f.1 f.2).attempt := by
      omega
    obtain ⟨hpairwise, hge⟩ := ih h.2 hlow'
    have hhead : ∀ d ∈ localDelays subject (applyFailure subject st f.1 f.2) failures,
        retryDelay subject (min (st.attempt + 1) maximumAttempt) ≤ d := by
      intro d hd
      refine (retryDelay_mono (by omega) ?_).trans (hge d hd)
      omega
    rw [localDelays, List.pairwise_cons, hattempt, List.forall_mem_cons]
    exact ⟨⟨hhead, hpairwise⟩, le_rfl, hhead⟩

/-- However often a cycle fails in a row with failures that are retried: the attempts and the
delays stay within their bounds, the local delays do not decrease, and nothing overflows. -/
theorem retries_bounded (hash : GoString → UInt64) (relayActor : GoString) {origin : GoString}
    (horigin : origin ≠ []) {st : State} (hlow : 0 ≤ st.attempt) (hhigh : st.attempt ≤ 16)
    {failures : List (ℤ × ClientError)} (hfailures : ∀ f ∈ failures, Retryable f.2) :
  (∀ before f after, failures = before ++ f :: after →
    Retried (.ofHash hash relayActor origin horigin) hash
      (afterFailures (.ofHash hash relayActor origin horigin) st before) f.1 f.2
      (afterFailures (.ofHash hash relayActor origin horigin) st (before ++ [f]))) ∧
    (localDelays (.ofHash hash relayActor origin horigin) st failures).Pairwise (· ≤ ·)
  := by
  constructor
  · rintro before f after rfl
    have hbefore : ∀ f ∈ before, Retryable f.2 := fun f hf => hfailures f (by simp [hf])
    obtain ⟨hlow', hhigh'⟩ := attempt_range_afterFailures
      (.ofHash hash relayActor origin horigin) hbefore hlow hhigh
    rw [afterFailures_concat]
    exact retried_applyFailure horigin hlow' hhigh' (hfailures f (by simp)) f.1
  · exact (localDelays_pairwise hfailures hlow).1

/-- A transport failure, and an hour later a directory that asks for two hours. -/
def twoFailures : List (ℤ × ClientError) :=
  [(ofUnix 1700000000, .transport), (ofUnix 1700003600, .protocol .rateLimited (2 * hour))]

theorem retries_bounded_twoFailures :
  (∀ f ∈ twoFailures, Retryable f.2) ∧
    (localDelays (.ofHash (fun _ => 7) (lit "https://relay.example/actor")
      (lit "https://directory.example") (by decide)) .zero twoFailures).Pairwise (· ≤ ·)
  := by
  have hfailures : ∀ f ∈ twoFailures, Retryable f.2 := by
    unfold twoFailures
    simp only [List.forall_mem_cons]
    exact ⟨⟨rfl, by decide, by decide⟩, ⟨rfl, by decide, by decide⟩, by simp⟩
  refine ⟨hfailures, ?_⟩
  exact (retries_bounded _ _ _ (by decide) (by decide) hfailures).2

end Directory
