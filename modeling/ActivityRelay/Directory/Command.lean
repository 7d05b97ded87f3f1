import ActivityRelay.Directory.Scheduler

/-!
# The commands of an operator

`register`, `heartbeat` and `sync`, which differ in their operation only, and `unregister`,
which disables the entry in the configuration file before it sends anything. With a Redis
server they take the lease of the scheduler for their whole duration; the first three do so
only if the scheduler gate is open. They read the configuration once, before the lease.
-/

namespace Directory

open GoString GoTime Interaction

/-- How a command fails. -/
inductive CommandError
  | configurationInvalid
  | entryNotConfigured
  | entryDisabled
  | clientNotInitialized
  | leaseUnavailable
  | stateInvalid
  | leaseLost
  | operation (e : ClientError)
  | profileNotFinalized
  | stateNotFinalized
  | notDisabled
  | suppressionNotPersisted
  | notRemoved
  deriving DecidableEq, Repr

/-! ### Retries -/

def initialBackoff : ℤ := 250 * 1000000
def maximumCommandRetryWait : ℤ := 30 * second

/-- The delay before another attempt, if there is to be one. -/
def commandRetryDelay (attempt : ℕ) : ClientError → Option ℤ
  | .transport => some (initialBackoff * 2 ^ attempt)
  | .protocol code retryAfter =>
      if code = .rateLimited ∨ code = .internal then
        if maximumCommandRetryWait < retryAfter then none
        else if 0 < retryAfter then some retryAfter
        else some (initialBackoff * 2 ^ attempt)
      else none
  | _ => none

/-- An operation with a number of further attempts left after the given one. -/
def retryFrom (operation : DirectoryM (Except ClientError Response)) :
    ℕ → ℕ → DirectoryM (Except ClientError Response)
  | 0, _ => operation
  | left + 1, attempt => do
      match ← operation with
      | .ok response => return .ok response
      | .error e =>
          match commandRetryDelay attempt e with
          | none => return .error e
          | some delay =>
              if ← sleepContext delay then retryFrom operation left (attempt + 1)
              else return .error .context

/-- At most three attempts of an operation. -/
def retryLifecycle (operation : DirectoryM (Except ClientError Response)) :
    DirectoryM (Except ClientError Response) :=
  retryFrom operation 2 0

/-! ### What the commands share -/

/-- What a process does. -/
inductive Role
  | cycle
  | manual
  | unregister
  deriving DecidableEq, Repr

/-- Whether a process takes the lease under a configuration file. -/
def takesLease (config : FileConfig) : Role → Bool
  | .cycle => true
  | .manual => config.schedulerEnabled && config.redisURL ≠ []
  | .unregister => config.redisURL ≠ []

/-- The client of the configured entry, by the digest of its profile. -/
def selectedClient (config : FileConfig) (requireEnabled : Bool) : Except CommandError GoString :=
  match config.entry with
  | none => .error .entryNotConfigured
  | some enabled =>
      if requireEnabled && !enabled then .error .entryDisabled
      else
        match config.profileDigest with
        | none => .error .clientNotInitialized
        | some digest => .ok digest

/-- Take the lease of the scheduler, read the state, and release the lease at the end of the
body. -/
def withLease (body : Lease → State → DirectoryM (Except CommandError Unit)) :
    DirectoryM (Except CommandError Unit) := do
  match ← acquire with
  | some (some lease) =>
      match ← loadState with
      | none => do
          releaseLease lease
          return .error .stateInvalid
      | some state => do
          let result ← body lease state
          releaseLease lease
          return result
  | _ => return .error .leaseUnavailable

variable (subject : Subject)

/-! ### `register`, `heartbeat` and `sync` -/

/-- The state that a successful command writes. -/
def commandSuccess (state : State) (response : Response) (digest : GoString) (now : ℤ) : State :=
  let completedAt := max (max (truncate now) state.lastObserved) state.lastSuccess
  let profile :=
    if response.operation = .register then (digest, response.protocolVersion.number)
    else (state.profileDigest, state.profileProtocolVersion)
  { registered := true
    lastSuccess := completedAt
    nextAttempt := nextHeartbeatAttempt subject completedAt
    lastOutcome := if response.operation = .register then .registered else .heartbeat
    diagnostic := .none
    attempt := 0
    lastObserved := completedAt
    profileDigest := profile.1
    profileProtocolVersion := profile.2 }

/-- The part of a command that owns the lease and has read the state. -/
def lifecycleOwned (operation : DirectoryM (Except ClientError Response)) (digest : GoString)
    (lease : Lease) (state : State) : DirectoryM (Except CommandError Unit) := do
  let result ← retryLifecycle operation
  if ← leaseHasBeenLost then return .error .leaseLost
  else
    match result with
    | .error e => return .error (.operation e)
    | .ok response =>
        let now ← clockNow
        if response.operation = .register ∧ digest.length ≠ 64 then
          return .error .profileNotFinalized
        else
          match ← storeSaveOwned lease (commandSuccess subject state response digest now) with
          | some true => return .ok ()
          | _ => return .error .stateNotFinalized

/-- The requests of a command without a store. -/
def lifecycleAlone (operation : DirectoryM (Except ClientError Response)) :
    DirectoryM (Except CommandError Unit) := do
  match ← retryLifecycle operation with
  | .error e => return .error (.operation e)
  | .ok _ => return .ok ()

/-- A command that sends a lifecycle operation for an enabled entry. -/
def lifecycleCommand (operation : DirectoryM (Except ClientError Response)) :
    DirectoryM (Except CommandError Unit) := do
  match ← readConfig with
  | none => return .error .configurationInvalid
  | some config =>
      match selectedClient config true with
      | .error e => return .error e
      | .ok digest =>
          if takesLease config .manual then
            withLease (lifecycleOwned subject operation digest)
          else lifecycleAlone operation

def registerCommand : DirectoryM (Except CommandError Unit) :=
  lifecycleCommand subject registerNegotiated

def heartbeatCommand : DirectoryM (Except CommandError Unit) :=
  lifecycleCommand subject heartbeatNegotiated

def syncCommand : DirectoryM (Except CommandError Unit) :=
  lifecycleCommand subject registerNegotiated

/-! ### `unregister` -/

/-- The state of a directory whose entry is disabled, before and after the remote
unregistration. -/
def suppressedState (state : State) (registered : Bool) (now : ℤ) : State :=
  { state with
    registered := registered
    lastOutcome := .disabled
    diagnostic := .disabled
    nextAttempt := 0
    lastObserved := now }

variable (owned : Option (Lease × State))

/-- Write the state of a disabled directory, if the command has a lease. -/
def saveSuppressed (registered : State → Bool) :
    DirectoryM Bool := do
  match owned with
  | none => return true
  | some (lease, state) =>
      let now ← clockNow
      return (← storeSaveOwned lease (suppressedState state (registered state) now)) = some true

/-- A command without a lease has none to lose. -/
def ownedLeaseHasBeenLost : DirectoryM Bool :=
  if owned.isSome then leaseHasBeenLost else return false

/-- The part of `unregister` after the lease, if there is one. -/
def unregisterBody (remove : Bool) :
    DirectoryM (Except CommandError Unit) := do
  if ← disableFile then
    if ← saveSuppressed owned State.registered then
      if ← ownedLeaseHasBeenLost owned then return .error .leaseLost
      else
        let result ← retryLifecycle unregisterNegotiated
        if ← ownedLeaseHasBeenLost owned then return .error .leaseLost
        else
          match result with
          | .error e => return .error (.operation e)
          | .ok _ =>
              if ← saveSuppressed owned (fun _ => false) then
                if remove then
                  if ← removeFile then return .ok () else return .error .notRemoved
                else return .ok ()
              else return .error .stateNotFinalized
    else return .error .suppressionNotPersisted
  else return .error .notDisabled

/-- The command `unregister` for a configuration file, with or without `--remove`. -/
def unregisterCommand (remove : Bool) : DirectoryM (Except CommandError Unit) := do
  match ← readConfig with
  | none => return .error .configurationInvalid
  | some config =>
      match selectedClient config false with
      | .error e => return .error e
      | .ok _ =>
          if takesLease config .unregister then
            withLease (fun lease state => unregisterBody (some (lease, state)) remove)
          else unregisterBody none remove

end Directory
