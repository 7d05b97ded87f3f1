import ActivityRelay.Directory.System

/-!
# What a cycle decides and writes

Facts about the scheduler that do not depend on other processes: which persisted states keep
a cycle from sending requests, what is left of a state when it is written and read back, and
which calls write it.
-/

namespace Directory

open GoString GoTime Interaction Transition

/-! ### Whole seconds -/

theorem unix_mono {t u : ℤ} (h : t ≤ u) :
  unix t ≤ unix u
  := by
  unfold unix second
  omega

theorem unix_truncate (t : ℤ) :
  unix (truncate t) = unix t
  := by
  unfold unix truncate second
  omega

theorem truncate_pos {t : ℤ} (h : 0 < unix t) :
  0 < truncate t
  := by
  unfold unix unixToInternal second at h
  unfold truncate second
  omega

theorem truncate_parseTime {value : GoString} {t : ℤ} (h : parseTime value = some t) :
  truncate t = t
  := by
  unfold parseTime at h
  split at h
  · cases h
    rfl
  · obtain ⟨seconds, -, h⟩ := Option.bind_eq_some_iff.mp h
    split at h
    · cases h
    · cases h
      unfold truncate ofUnix second
      omega

variable {subject : Subject}

theorem truncate_stableJitter :
  truncate (stableJitter subject) = stableJitter subject
  := by
  unfold stableJitter truncate second
  omega

/-- The time from a success to the next heartbeat. -/
def heartbeatInterval (subject : Subject) : ℤ := nominalHeartbeatInterval + stableJitter subject

theorem truncate_heartbeatInterval :
  truncate (heartbeatInterval subject) = heartbeatInterval subject
  := by
  unfold heartbeatInterval
  rw [truncate_add truncate_stableJitter]
  rfl

theorem nominal_le_heartbeatInterval :
  nominalHeartbeatInterval ≤ heartbeatInterval subject
  := by
  unfold heartbeatInterval stableJitter second
  omega

/-! ### Decisions -/

/-- The last operation failed, or the entry was disabled. -/
def State.Failed (st : State) : Prop :=
  st.lastOutcome ≠ .unset ∧ st.lastOutcome ≠ .registered ∧ st.lastOutcome ≠ .heartbeat

instance (st : State) : Decidable st.Failed :=
  inferInstanceAs (Decidable (_ ∧ _ ∧ _))

variable {st : State} {now : ℤ}

/-- A failure is not reconciled at the startup of a process. -/
theorem State.Failed.startup (h : st.Failed) (startupBoundary : ℤ) :
  startupReconciliationDue st startupBoundary = false
  := by
  obtain ⟨hunset, hregistered, hheartbeat⟩ := h
  unfold startupReconciliationDue
  split
  · rfl
  · split
    · exact absurd ‹_› hunset
    · exact absurd ‹_› hregistered
    · exact absurd ‹_› hheartbeat
    · rfl

/-- Without a startup and a change of the profile, requests are not due before the
deadline. -/
theorem le_of_notDue_eq_false (h : notDue false false st now = false) (hne : st.nextAttempt ≠ 0) :
  st.nextAttempt ≤ now
  := by
  simp only [notDue, Bool.not_false, Bool.true_and, Bool.and_eq_false_iff,
    decide_eq_false_iff_not] at h
  rcases h with h | h
  · exact absurd hne h
  · omega

variable {st' : State} {hash : Option StateHash}

theorem profileChanged_congr {digest : Option GoString} (hreg : st'.registered = st.registered)
    (hdigest : st'.profileDigest = st.profileDigest) :
  profileChanged st' digest = profileChanged st digest
  := by
  unfold profileChanged
  rw [hreg, hdigest]

/-! ### What is written -/

@[simp]
theorem applyFailure_lastObserved (st : State) (now : ℤ) (e : ClientError) :
  (applyFailure subject st now e).lastObserved = now
  := by
  simp only [applyFailure]
  split <;> rfl

@[simp]
theorem applyFailure_registered (st : State) (now : ℤ) (e : ClientError) :
  (applyFailure subject st now e).registered = st.registered
  := by
  simp only [applyFailure]
  split <;> rfl

@[simp]
theorem applyFailure_profileDigest (st : State) (now : ℤ) (e : ClientError) :
  (applyFailure subject st now e).profileDigest = st.profileDigest
  := by
  simp only [applyFailure]
  split <;> rfl

theorem applyFailure_failed (st : State) (now : ℤ) (e : ClientError) :
  (applyFailure subject st now e).Failed
  := by
  have hclass : (classifyFailure e).1 ≠ .unset ∧ (classifyFailure e).1 ≠ .registered ∧
      (classifyFailure e).1 ≠ .heartbeat := by
    unfold classifyFailure
    split <;> decide
  simp only [applyFailure, State.Failed]
  split <;> exact hclass

/-- A failure defers the next attempt by at most the interval of heartbeats. -/
theorem applyFailure_nextAttempt_le (st : State) (hnow : now ≠ 0) (e : ClientError) :
  truncate (applyFailure subject st now e).nextAttempt ≤ truncate now + heartbeatInterval subject
  := by
  simp only [applyFailure]
  split
  · dsimp only
    rw [nextHeartbeatAttempt, if_neg hnow, ← heartbeatInterval,
      truncate_add truncate_heartbeatInterval, truncate_truncate]
  · dsimp only
    rw [← truncate_add truncate_heartbeatInterval]
    apply truncate_mono
    have hle : nominalHeartbeatInterval ≤ heartbeatInterval subject :=
      nominal_le_heartbeatInterval
    have hmax : maximumRetryAfter = nominalHeartbeatInterval := rfl
    omega

theorem applySuccess_lastObserved (st : State) (digest : Option GoString) (response : Response)
    (completedAt : ℤ) :
  (applySuccess subject st digest response completedAt).lastObserved = completedAt
  := rfl

theorem applySuccess_not_failed (st : State) (digest : Option GoString) (response : Response)
    (completedAt : ℤ) :
  ¬ (applySuccess subject st digest response completedAt).Failed
  := by
  by_cases h : response.operation = .register <;> simp [applySuccess, State.Failed, h]

theorem Finished.lastObserved {digest : GoString} {finished : ℤ}
    (h : Finished subject st digest finished st') :
  st'.lastObserved = finished
  := by
  cases h with
  | success response h => rfl
  | failure e => apply applyFailure_lastObserved

/-! ### What is read back -/

/-- What is read back of a state whose last time is after the epoch. -/
theorem load_written (h : load (some (stateArguments st)) = some st')
    (hobserved : 0 < unix st.lastObserved) :
  st'.registered = st.registered ∧ st'.lastOutcome = st.lastOutcome ∧
    st'.profileDigest = st.profileDigest ∧ st'.lastObserved = truncate st.lastObserved ∧
    (unix st.nextAttempt ≤ 0 ∧ st'.nextAttempt = 0 ∨ st'.nextAttempt = truncate st.nextAttempt)
  := by
  obtain ⟨hreg, houtcome, hdigest, hnext, hlast⟩ := load_stateArguments h
  refine ⟨hreg, houtcome, hdigest, ?_, ?_⟩
  · rcases parseTime_unixString hlast with ⟨hzero | hzero, -⟩ | ⟨-, h⟩
    · rw [hzero] at hobserved
      exact absurd hobserved (by decide)
    · omega
    · exact h
  · rcases parseTime_unixString hnext with ⟨hzero | hzero, h⟩ | ⟨-, h⟩
    · exact .inl ⟨by rw [hzero]; decide, h⟩
    · exact .inl ⟨by omega, h⟩
    · exact .inr h

/-- What is read back of a failure after the epoch. -/
theorem load_failure {e : ClientError} (digest : Option GoString)
    (h : load (some (stateArguments (applyFailure subject st now e))) = some st')
    (hpos : 0 < unix now) :
  st'.Failed ∧ profileChanged st' digest = profileChanged st digest ∧
    st'.lastObserved = truncate now ∧
    (unix (applyFailure subject st now e).nextAttempt ≤ 0 ∧ st'.nextAttempt = 0 ∨
      st'.nextAttempt = truncate (applyFailure subject st now e).nextAttempt)
  := by
  obtain ⟨hreg, houtcome, hdigest, hlast, hnext⟩ := load_written h (by simpa using hpos)
  rw [applyFailure_lastObserved] at hlast
  refine ⟨?_, ?_, hlast, hnext⟩
  · have hfailed : (applyFailure subject st now e).Failed := applyFailure_failed st now e
    unfold State.Failed at hfailed ⊢
    rw [houtcome]
    exact hfailed
  · apply profileChanged_congr
    · rw [hreg, applyFailure_registered]
    · rw [hdigest, applyFailure_profileDigest]

theorem ne_zero_of_unix_pos {t : ℤ} (h : 0 < unix t) :
  t ≠ 0
  := by
  rintro rfl
  exact absurd h (by decide)

/-- The deadline of a state that is read is a whole second, and its profile is one that may be
written. -/
theorem load_spec (h : load hash = some st) :
  truncate st.nextAttempt = st.nextAttempt ∧
    validProfileState st.profileDigest st.profileProtocolVersion = true
  := by
  cases hash with
  | none =>
    cases h
    exact ⟨rfl, rfl⟩
  | some values =>
    simp only [load] at h
    split at h
    · cases h
    simp only [Option.bind_eq_bind, Option.bind_eq_some_iff] at h
    obtain ⟨_, _, next, hnext, _, _, _, _, _, _, _, _, _, _, h⟩ := h
    split at h
    · rename_i hvalid
      cases h
      exact ⟨truncate_parseTime hnext, hvalid⟩
    · cases h

/-- The state after a success may be written. -/
theorem validateState_applySuccess {digest : GoString} (response : Response) (finished : ℤ)
    (hst : validProfileState st.profileDigest st.profileProtocolVersion = true)
    (hdigest : digest = [] ∨ digest.length = 64 ∧ digest.all isLowerHex = true) :
  validateState (applySuccess subject st (clientProfileDigest digest) response finished) = true
  := by
  have hprofile : validProfileState
      (applySuccess subject st (clientProfileDigest digest) response finished).profileDigest
      (applySuccess subject st (clientProfileDigest digest) response finished).profileProtocolVersion
        = true := by
    simp only [applySuccess]
    split
    · rename_i d hop hd
      unfold clientProfileDigest at hd
      split at hd
      · rename_i hlength
        cases hd
        obtain rfl | ⟨-, hhex⟩ := hdigest
        · cases hlength
        · have hne : digest ≠ [] := by
            rintro rfl
            cases hlength
          rw [validProfileState, if_neg hne, hhex, hlength]
          cases response.protocolVersion <;> rfl
      · cases hd
    · exact hst
  rw [validateState, hprofile]
  rfl

/-! ### Which calls write -/

/-- The hash is written by the owner of the lease only, and its lifetime starts again. -/
theorem saveOwned_state (now : ℤ) (origin : GoString) (lease : Lease) (state : State) (k : Keys) :
  (k.saveOwned now origin lease state).1.state = k.state ∨
    k.live now lease.value ∧
      (k.saveOwned now origin lease state).1.state =
        Redis.Cell.set now stateRetention (stateArguments state)
  := by
  by_cases hlive : k.live now lease.value
  · unfold Keys.saveOwned
    split
    · left
      rfl
    · right
      use hlive
      simp only [Keys.saveOwnedScript, ne_eq, show k.lease.get now = some lease.value from hlive,
        not_true_eq_false, if_false]
  · left
    rw [Keys.saveOwned_of_not_live hlive]

/-- Only `SaveOwned` of the owner writes the hash. -/
theorem perform_state {c : Choice} {w w' : World} {p p' : Proc} {o : DirectoryOp} {r : o.Reply}
    (h : perform subject c w p o = some (w', p', r)) :
  w'.keys.state = w.keys.state ∨
    ∃ l st, o = .saveOwned l st ∧ w.keys.live w.now l.value ∧
      w'.keys.state = Redis.Cell.set w.now stateRetention (stateArguments st)
  := by
  cases performs_of_perform h with
  | acquire r =>
    left
    simp only [Fault.keys]
    split
    · rfl
    · rcases w.keys.acquire_cases w.now leaseTTL subject.origin c.token with ⟨h, -⟩ | ⟨-, -, h⟩
      · rw [h]
      · rw [h]
  | saveOwned l st r =>
    simp only [Fault.keys]
    split
    · left
      rfl
    · rcases saveOwned_state w.now subject.origin l st w.keys with h | ⟨hlive, h⟩
      · left
        exact h
      · right
        exact ⟨l, st, rfl, hlive, h⟩
  | release l =>
    left
    simp only [Fault.keys]
    split <;> rfl
  | _ =>
    left
    rfl

theorem perform_load {c : Choice} {w w' : World} {p p' : Proc}
    (h : perform subject c w p .load = some (w', p', some st)) :
  w.keys.load w.now = some st
  := by
  cases performs_of_perform h with
  | load _ hr => exact Fault.eq_of_answer hr

/-- What is read from a hash that has just been written. -/
theorem Keys.load_set {k : Keys}
    (h : k.state = Redis.Cell.set now stateRetention (stateArguments st)) :
  k.load now = Directory.load (some (stateArguments st))
  := by
  have hpos : (0 : ℤ) ≤ stateRetention := by decide
  rw [Keys.load, h, Redis.Cell.get_set (by omega)]

/-- As time passes, a hash stays as it is, or expires. -/
theorem Keys.load_later (k : Keys) {later : ℤ} (h : now ≤ later) :
  k.load later = k.load now ∨ k.load later = some State.zero
  := by
  unfold Keys.load
  cases hlater : k.state.get later with
  | none =>
    right
    rfl
  | some hash =>
    left
    rw [Redis.Cell.get_of_later h hlater]

/-- `SaveOwned` by the owner of the lease writes a valid state. -/
theorem Keys.saveOwned_valid {k : Keys} {origin : GoString} {l : Lease}
    (horigin : l.origin = origin) (hne : origin ≠ []) (hvalid : validateState st = true)
    (hlive : k.live now l.value) :
  (k.saveOwned now origin l st).1.state = Redis.Cell.set now stateRetention (stateArguments st)
  := by
  have hkey : k.lease.get now = some l.value := hlive
  simp [Keys.saveOwned, Keys.saveOwnedScript, horigin, hne, hvalid, hkey]

end Directory
