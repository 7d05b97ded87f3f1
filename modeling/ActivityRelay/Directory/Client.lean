import ActivityRelay.Directory.Store
import ActivityRelay.Interaction.Program

/-!
# Directory clients and their environment

What a process that maintains a directory registration calls: the configuration file, the
store, the clock, and the remote directory. The lifecycle operations of the client negotiate
a protocol version from the directory's status document first, so each of them is a program
of several requests.
-/

namespace Directory

open GoString GoTime Interaction Prog

/-! ### The configuration file -/

/-- What the configuration file says about one directory: whether it has an entry and
whether that is enabled, the scheduler gate, the Redis server, and the digest of the profile
of the client that is built from the file, `none` if none can be built. A file with an open
gate names a Redis server, or it is not loaded. A digest is the hexadecimal form of 32 bytes,
or empty if the profile cannot be encoded. -/
structure FileConfig where
  entry : Option Bool
  schedulerEnabled : Bool
  redisURL : GoString
  profileDigest : Option GoString
  gate : schedulerEnabled = true → redisURL ≠ []
  digest : ∀ d ∈ profileDigest, d = [] ∨ d.length = 64 ∧ d.all isLowerHex

/-- `durableDirectoryEnabled`, with `none` for an error. The file cannot be read, or is not a
regular configuration, if there is no configuration. -/
def durableDirectoryEnabled : Option FileConfig → Option Bool
  | none => none
  | some config => some (config.schedulerEnabled && config.entry.getD false)

/-- The file after `DisableFile`. -/
def FileConfig.disable (config : FileConfig) : FileConfig := { config with entry := some false }

/-- The file after `RemoveFile`. -/
def FileConfig.remove (config : FileConfig) : FileConfig := { config with entry := none }

/-! ### The vocabulary of the protocol -/

inductive Operation
  | register
  | heartbeat
  | unregister
  deriving DecidableEq, Repr

inductive ProtocolVersion
  | v1
  | v2
  | v3
  deriving DecidableEq, Repr

def ProtocolVersion.number : ProtocolVersion → ℤ
  | v1 => 1
  | v2 => 2
  | v3 => 3

inductive ErrorCode
  | invalidRequest
  | unsupportedProtocolVersion
  | authenticationFailed
  | replayDetected
  | lifecycleUnavailable
  | enrollmentClosed
  | relayNotRegistered
  | relaySuspended
  | rateLimited
  | internal
  deriving DecidableEq, Repr

/-- The errors of a lifecycle operation. A protocol error carries the bounded delay of a
`Retry-After` header. -/
inductive ClientError
  | transport
  | protocol (code : ErrorCode) (retryAfter : ℤ)
  | responseTooLarge
  | response
  | configuration
  | context
  deriving DecidableEq, Repr

/-- A successful response. The client has checked that it is for its own operation and
protocol version. -/
structure Response where
  operation : Operation
  protocolVersion : ProtocolVersion
  deriving DecidableEq, Repr

/-! ### Calls -/

/-- The calls of a process. `monotonicNow` reads the clock through the latch of the process,
`leaseLost` asks the renewal routine whether the lease is lost, and `cancelled` asks the
context of the process. -/
inductive DirectoryOp
  | readConfig
  | load
  | monotonicNow (persisted : ℤ)
  | clock
  | acquire
  | saveOwned (lease : Lease) (state : State)
  | release (lease : Lease)
  | leaseLost
  | cancelled
  | status
  | send (operation : Operation) (version : ProtocolVersion)
  | sleep (delay : ℤ)
  | disable
  | remove
  deriving DecidableEq

/-- The replies to the calls. For calls of the store, `none` is `ErrStore`. -/
abbrev DirectoryOp.Reply : DirectoryOp → Type
  | readConfig => Option FileConfig
  | load => Option State
  | monotonicNow _ => ℤ
  | clock => ℤ
  | acquire => Option (Option Lease)
  | saveOwned _ _ => Option Bool
  | release _ => Unit
  | leaseLost => Bool
  | cancelled => Bool
  | status => Except ClientError ProtocolVersion
  | send _ _ => Except ClientError Unit
  | sleep _ => Bool
  | disable => Bool
  | remove => Bool

/-- A computation of a process. -/
abbrev DirectoryM := Prog DirectoryOp DirectoryOp.Reply

def readConfig : DirectoryM (Option FileConfig) := .op DirectoryOp.readConfig
def loadState : DirectoryM (Option State) := .op DirectoryOp.load
def monotonicNow (persisted : ℤ) : DirectoryM ℤ :=
  .op (DirectoryOp.monotonicNow persisted)
def clockNow : DirectoryM ℤ := .op DirectoryOp.clock
def acquire : DirectoryM (Option (Option Lease)) := .op DirectoryOp.acquire
def storeSaveOwned (lease : Lease) (state : State) : DirectoryM (Option Bool) :=
  .op (DirectoryOp.saveOwned lease state)
def releaseLease (lease : Lease) : DirectoryM Unit :=
  .op (DirectoryOp.release lease)
def leaseHasBeenLost : DirectoryM Bool := .op DirectoryOp.leaseLost
def contextCancelled : DirectoryM Bool := .op DirectoryOp.cancelled
def sleepContext (delay : ℤ) : DirectoryM Bool :=
  .op (DirectoryOp.sleep delay)
def disableFile : DirectoryM Bool := .op DirectoryOp.disable
def removeFile : DirectoryM Bool := .op DirectoryOp.remove

/-! ### The lifecycle operations of the client -/

def negotiatedProtocolVersion : DirectoryM (Except ClientError ProtocolVersion) :=
  .op DirectoryOp.status

/-- One signed request of an operation. -/
def sendVersion (operation : Operation) (version : ProtocolVersion) :
    DirectoryM (Except ClientError Response) := do
  match ← .op (DirectoryOp.send operation version) with
  | .error e => return .error e
  | .ok _ => return .ok ⟨operation, version⟩

/-- `RegisterNegotiated`, `HeartbeatNegotiated` and `UnregisterNegotiated`. -/
def negotiated (operation : Operation) : DirectoryM (Except ClientError Response) := do
  match ← negotiatedProtocolVersion with
  | .error e => return .error e
  | .ok version => sendVersion operation version

def registerNegotiated : DirectoryM (Except ClientError Response) := negotiated .register
def heartbeatNegotiated : DirectoryM (Except ClientError Response) := negotiated .heartbeat
def unregisterNegotiated : DirectoryM (Except ClientError Response) := negotiated .unregister

/-- A heartbeat, with one registration and one more heartbeat if the directory does not know
the relay. -/
def heartbeatWithRegisterReconciliationNegotiated : DirectoryM (Except ClientError Response) := do
  match ← negotiatedProtocolVersion with
  | .error e => return .error e
  | .ok version =>
      match ← sendVersion .heartbeat version with
      | .ok response => return .ok response
      | .error (.protocol .relayNotRegistered _) =>
          match ← sendVersion .register version with
          | .error e => return .error e
          | .ok _ => sendVersion .heartbeat version
      | .error e => return .error e

end Directory
