import ActivityRelay.Directory.Client

/-!
# The scheduler

`runDirectory`, one cycle of the scheduler for one directory, as a program of its calls.
Before it takes the lease, a cycle decides from the persisted state whether an operation is
due. With the lease it reads the state and the configuration again and decides again, sends
its requests, and writes the new state.
-/

namespace Directory

open GoString GoTime Interaction

def nominalHeartbeatInterval : ℤ := 24 * hour
def maximumStableJitter : ℤ := 2 * hour
def initialRetry : ℤ := 30 * second
def maximumLocalRetry : ℤ := 15 * minute
def maximumRetryAfter : ℤ := 24 * hour

/-- The lifetime of a lease in milliseconds. -/
def leaseTTL : ℤ := 60 * 1000

/-- The relay and the directory of a scheduler; an origin is not empty. `hash` is the number
that the first eight bytes of the SHA-256 digest of a text stand for. -/
structure Subject where
  relayActor : GoString
  origin : GoString
  hash : GoString → ℕ
  nonempty : origin ≠ []

variable (subject : Subject)

/-! ### Deadlines -/

def stableJitter : ℤ :=
  (subject.hash (subject.relayActor ++ [0] ++ subject.origin ++ [0] ++ lit "daily") %
    ((maximumStableJitter / second).toNat + 1) : ℕ) * second

/-- The deadline after a success. -/
def nextHeartbeatAttempt (completedAt : ℤ) : ℤ :=
  if completedAt = 0 then 0
  else truncate completedAt + (nominalHeartbeatInterval + stableJitter subject)

/-- The local delay before a retry. -/
def retryDelay (attempt : ℤ) : ℤ :=
  let attempt := max attempt 1
  let base := min (initialRetry * 2 ^ (attempt - 1).toNat) maximumLocalRetry
  let jitterRange := base / 5
  if jitterRange ≤ 0 then base
  else
    let jitterSeconds := (jitterRange / second).toNat
    let digest := subject.hash
      (subject.relayActor ++ [0] ++ subject.origin ++ [0] ++ lit "retry" ++ [0] ++
        formatInt attempt)
    min (base + (digest % (jitterSeconds + 1) : ℕ) * second) maximumLocalRetry

/-- The outcome and the diagnostic of an error. -/
def classifyFailure : ClientError → LastOutcome × Diagnostic
  | .transport => (.retrying, .transport)
  | .protocol .rateLimited _ => (.retrying, .rateLimited)
  | .protocol .internal _ => (.retrying, .internal)
  | .protocol .authenticationFailed _ => (.authentication, .authentication)
  | .protocol .relaySuspended _ => (.suspended, .suspended)
  | .protocol .enrollmentClosed _ => (.policy, .enrollment)
  | .protocol .lifecycleUnavailable _ => (.policy, .lifecycle)
  | _ => (.malformed, .malformed)

/-- The delay a remote error asks for. -/
def ClientError.retryAfter : ClientError → ℤ
  | .protocol _ retryAfter => retryAfter
  | _ => 0

variable (state : State)

/-- The state after a failure at the time `now`. -/
def applyFailure (now : ℤ) (err : ClientError) : State :=
  let outcome := classifyFailure err
  let state :=
    { state with lastObserved := now, lastOutcome := outcome.1, diagnostic := outcome.2 }
  if outcome.1 ≠ .retrying then
    { state with attempt := 0, nextAttempt := nextHeartbeatAttempt subject now }
  else
    let attempt := min (state.attempt + 1) maximumAttempt
    let delay := min (max (retryDelay subject attempt) err.retryAfter) maximumRetryAfter
    { state with attempt := attempt, nextAttempt := now + delay }

/-- The state after a success at the time `completedAt`, by a client whose profile has the
given digest, `none` if it has no valid one. -/
def applySuccess (digest : Option GoString) (response : Response)
    (completedAt : ℤ) : State :=
  let profile :=
    match response.operation, digest with
    | .register, some digest => (digest, response.protocolVersion.number)
    | _, _ => (state.profileDigest, state.profileProtocolVersion)
  { registered := true
    lastSuccess := completedAt
    nextAttempt := nextHeartbeatAttempt subject completedAt
    lastOutcome := if response.operation = .register then .registered else .heartbeat
    diagnostic := .none
    attempt := 0
    lastObserved := completedAt
    profileDigest := profile.1
    profileProtocolVersion := profile.2 }

/-! ### When an operation is due -/

variable (startupBoundary : ℤ)

/-- The startup of a process makes an operation due if the last one was before it and did
not fail. -/
def startupReconciliationDue : Bool :=
  if startupBoundary = 0 ∨ state.lastObserved ≠ 0 ∧ ¬ state.lastObserved < startupBoundary then
    false
  else
    match state.lastOutcome with
    | .unset | .registered | .heartbeat => true
    | _ => false

/-- The digest of a client's profile, if it is one. -/
def clientProfileDigest (digest : GoString) : Option GoString :=
  if digest.length = 64 then some digest else none

/-- The profile of a registered relay differs from the one it was registered with. -/
def profileChanged (digest : Option GoString) : Bool :=
  state.registered && (digest.bind clientProfileDigest).any (fun d => state.profileDigest ≠ d)

/-- Nothing makes an operation due before the persisted deadline. -/
def notDue (startupDue changed : Bool) (state : State) (now : ℤ) : Bool :=
  !startupDue && !changed && state.nextAttempt ≠ 0 && now < state.nextAttempt

/-! ### The cycle -/

variable (lease : Lease)

/-- `saveOwned`, with `none` for an error. -/
def saveOwned (state : State) : DirectoryM (Option Unit) := do
  match ← storeSaveOwned lease state with
  | some true => return some ()
  | _ => return none

/-- The first operation of a cycle: a heartbeat for a relay that is registered with its
profile, and otherwise a registration. -/
def firstOperation (changed : Bool) : DirectoryM (Except ClientError Response) :=
  if state.registered && !changed then heartbeatWithRegisterReconciliationNegotiated
  else registerNegotiated

/-- The requests of a cycle: its first operation, and a registration after a heartbeat under
another protocol version than the registered one. -/
def reconcile (changed : Bool) : DirectoryM (Except ClientError Response) := do
  match ← firstOperation state changed with
  | .ok response =>
      if response.operation = .heartbeat ∧ 2 ≤ response.protocolVersion.number ∧
          state.profileProtocolVersion ≠ response.protocolVersion.number then
        registerNegotiated
      else return .ok response
  | .error e => return .error e

/-- The end of a cycle that writes the state and reports its deadline. -/
def saveAndReport (state : State) : DirectoryM (Option ℤ) := do
  match ← saveOwned lease state with
  | none => return none
  | some () => return some state.nextAttempt

/-- The part of a cycle with the client that is built from the configuration. -/
def runClient (startupDue : Bool) (state : State) (now : ℤ) (digest : GoString) :
    DirectoryM (Option ℤ) := do
  let changed := profileChanged state (some digest)
  if notDue startupDue changed state now then return some state.nextAttempt
  else
    let result ← reconcile state changed
    if ← leaseHasBeenLost then return none
    else if ← contextCancelled then return none
    else
      let completedAt ← monotonicNow state.lastObserved
      match result with
      | .ok response =>
          saveAndReport lease
            (applySuccess subject state (clientProfileDigest digest) response completedAt)
      | .error e => saveAndReport lease (applyFailure subject state completedAt e)

/-- The part of a cycle that owns the lease. -/
def runOwned : DirectoryM (Option ℤ) := do
  match ← loadState with
  | none => return none
  | some state =>
      let now ← monotonicNow state.lastObserved
      let startupDue := startupReconciliationDue state startupBoundary
      match durableDirectoryEnabled (← readConfig) with
      | none => return none
      | some false => return some 0
      | some true =>
          match (← readConfig).bind FileConfig.profileDigest with
          | none => saveAndReport lease (applyFailure subject state now .response)
          | some digest => runClient subject lease startupDue state now digest

/-- Whether the profile has changed, as far as it can be told before the lease is taken. -/
def previewChanged : DirectoryM Bool := do
  if state.registered then
    return profileChanged state ((← readConfig).bind FileConfig.profileDigest)
  else return false

/-- One cycle for one directory. It returns the next deadline, the zero instant if there is
none, and `none` for an error. -/
def runDirectory : DirectoryM (Option ℤ) := do
  match durableDirectoryEnabled (← readConfig) with
  | none => return none
  | some false => return some 0
  | some true =>
      match ← loadState with
      | none => return none
      | some state =>
          let now ← monotonicNow state.lastObserved
          let startupDue := startupReconciliationDue state startupBoundary
          let changed ← previewChanged state
          if notDue startupDue changed state now then return some state.nextAttempt
          else
            match ← acquire with
            | none => return none
            | some none => return some 0
            | some (some lease) =>
                let result ← runOwned subject startupBoundary lease
                releaseLease lease
                return result

end Directory
