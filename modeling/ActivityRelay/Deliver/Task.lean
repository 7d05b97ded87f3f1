import ActivityRelay.HttpSignature.Profile
import ActivityRelay.Interaction.Program
import ActivityRelay.Redis.Cell

/-!
# Delivery tasks

A relayed activity is stored once, in a Redis hash with its body and the number of targets
that are not finished, and delivered by one `relay-v2` task for each target. This module
has the hash with the two scripts that work on it, the task as the queue holds it, and the
worker's function `relayActivityV2` as a program that calls Redis and the target's inbox.

`relayActivityV2` runs the finish script at most once, as its last call, and it does so
exactly when it succeeds or has no retries left (`relayActivityV2_follows`).
-/

namespace Deliver

open GoString HttpSignature Interaction Redis

/-! ### Delivery policy -/

/-- The number of delayed attempts after the first. -/
def retryCount : ℤ := 5

/-- The seed of the Fibonacci retry schedule, in seconds. -/
def initialRetryTimeoutSeconds : ℤ := 5

/-- The lifetime of a stored activity, in seconds. -/
def activityRetentionSeconds : ℤ := 15 * 60

def maxAttempts : ℤ := retryCount + 1

/-! ### The stored activity -/

/-- The hash `relay:activity:<id>`. -/
structure ActivityHash where
  body : Option GoString
  remainCount : Option ℤ
  deriving DecidableEq, Repr

/-- `storeRelayActivityScript`: `HSET` of both fields, then `EXPIRE`. Times are in
milliseconds. -/
def storeRelayActivity (now : ℤ) (body : GoString) (targetCount : ℤ)
    (c : Cell ActivityHash) : Cell ActivityHash :=
  (Cell.pexpire now (activityRetentionSeconds * 1000)
    (Cell.update now ⟨none, none⟩ (fun _ => ⟨some body, some targetCount⟩) c)).1

/-- `HGET key body`. -/
def loadBody (now : ℤ) (c : Cell ActivityHash) : Option GoString :=
  (Cell.get now c).bind ActivityHash.body

/-- The script of `finishRelayTarget`: nothing for an absent key, else one target fewer,
and no hash when no target is left. `HINCRBY` reads a missing field as zero. -/
def finishScript (now : ℤ) (c : Cell ActivityHash) : Cell ActivityHash × ℤ :=
  match Cell.get now c with
  | none => (c, -1)
  | some h =>
      let remaining := h.remainCount.getD 0 - 1
      if remaining < 1 then (none, remaining)
      else
        (Cell.update now ⟨none, none⟩
          (fun h => { h with remainCount := some remaining }) c, remaining)

/-! ### Queued tasks -/

/-- The part of a queued task's signature that the worker reads. -/
structure Signature where
  uuid : GoString
  retryCount : ℤ
  retryTimeout : ℤ
  args : List GoString
  deriving DecidableEq, Repr

/-- The task of one target. -/
def relayTaskWithProfile (uuid inboxURL activityID : GoString) (profile : Profile) :
    Signature where
  uuid := uuid
  retryCount := Deliver.retryCount
  retryTimeout := initialRetryTimeoutSeconds
  args := [inboxURL, activityID, profile.string]

/-- The Fibonacci numbers from the two consecutive ones `a`, `b` on, up to the first above
`start`. -/
def fibonacciFrom (start : ℤ) : ℕ → ℤ → ℤ → ℤ
  | 0, a, _ => a
  | fuel + 1, a, b => if a ≤ start then fibonacciFrom start fuel b (a + b) else a

/-- `retry.FibonacciNext`: the least Fibonacci number above `start`. -/
def fibonacciNext (start : ℤ) : ℤ := fibonacciFrom start (start.toNat + 2) 1 1

/-- The task the broker queues again after an error. -/
def Signature.retry (s : Signature) : Signature :=
  { s with retryCount := s.retryCount - 1, retryTimeout := fibonacciNext s.retryTimeout }

/-- What a worker knows of the attempt it makes. -/
structure DeliveryAttempt where
  taskUUID : GoString
  attempt : ℤ
  maxAttempts : ℤ
  retriesRemaining : ℤ
  nextRetrySeconds : ℤ
  terminal : Bool
  deriving DecidableEq, Repr

def currentDeliveryAttempt : Option Signature → DeliveryAttempt
  | none =>
      { taskUUID := lit "direct", attempt := 1, maxAttempts := 1, retriesRemaining := 0,
        nextRetrySeconds := 0, terminal := true }
  | some s =>
      { taskUUID := s.uuid
        attempt := min (max (maxAttempts - s.retryCount) 1) maxAttempts
        maxAttempts := maxAttempts
        retriesRemaining := s.retryCount
        nextRetrySeconds := if 0 < s.retryCount then fibonacciNext s.retryTimeout else 0
        terminal := s.retryCount ≤ 0 }

/-! ### The worker -/

/-- The calls of a worker: `HGET` of the body, the signed delivery, and
`finishRelayTarget`. -/
inductive RelayOp
  | load (activityID : GoString)
  | send (inboxURL body : GoString) (profile : Profile)
  | finish (activityID : GoString)
  deriving DecidableEq, Repr

/-- The reply to `HGET`: the body, `redis.Nil`, or another error. -/
inductive LoadReply
  | body (b : GoString)
  | absent
  | failed
  deriving DecidableEq, Repr

inductive SendReply
  | delivered
  | failed
  deriving DecidableEq, Repr

/-- The replies to the calls of a worker. `none` is a failed finish script. -/
abbrev RelayOp.Reply : RelayOp → Type
  | load _ => LoadReply
  | send _ _ _ => SendReply
  | finish _ => Option ℤ

/-- The errors a worker returns to the broker. -/
inductive RelayError
  | arguments
  | profile (e : ProfileError)
  | load (expired : Bool)
  | delivery
  deriving DecidableEq, Repr

/-- A computation of a worker. -/
abbrev WorkerM := Prog RelayOp RelayOp.Reply

def loadRelayActivity (activityID : GoString) : WorkerM LoadReply :=
  .op (RelayOp.load activityID)

def sendActivityWithResponseProfile (inboxURL body : GoString) (profile : Profile) :
    WorkerM SendReply :=
  .op (RelayOp.send inboxURL body profile)

def finishRelayTarget (activityID : GoString) : WorkerM (Option ℤ) :=
  .op (RelayOp.finish activityID)

abbrev Worker := WorkerM (Except RelayError Unit)

variable (U : CaseTable) (configured : Option Profile)

/-- The profile a task was queued with. A task without one uses the configured profile,
`none` if there is no configuration or it names no profile. -/
def deliveryProfileFromArgs (args : List GoString) : Except ProfileError Profile :=
  match args with
  | _ :: _ :: value :: _ => parseWireProfile U value
  | _ =>
      match configured with
      | some profile =>
          if profile ≠ .dual then parseWireProfile U profile.string else .ok .legacy
      | none => .ok .legacy

/-- The end of an attempt that failed: the target is finished if no retry is left. -/
def failAttempt (attempt : DeliveryAttempt) (activityID : GoString) (e : RelayError) : Worker :=
  if !attempt.terminal then return .error e
  else do
    let _ ← finishRelayTarget activityID
    return .error e

/-- The worker's function for `relay-v2`, without its logs, metrics and receiver
statistics. -/
def relayActivityV2 (signature : Option Signature) (args : List GoString) : Worker :=
  match args with
  | inboxURL :: activityStorageID :: _ =>
      match deliveryProfileFromArgs U configured args with
      | .error e => return .error (.profile e)
      | .ok signatureProfile => do
          let attempt := currentDeliveryAttempt signature
          match ← loadRelayActivity activityStorageID with
          | .absent => failAttempt attempt activityStorageID (.load true)
          | .failed => failAttempt attempt activityStorageID (.load false)
          | .body body =>
              match ← sendActivityWithResponseProfile inboxURL body signatureProfile with
              | .delivered => do
                  let _ ← finishRelayTarget activityStorageID
                  return .ok ()
              | .failed => failAttempt attempt activityStorageID .delivery
  | _ => return .error .arguments

/-! ### What a worker does -/

/-- The phases of an attempt: it may still make a number of calls, or it has run the finish
script. -/
inductive Phase
  | active (calls : ℕ)
  | finished
  deriving DecidableEq

/-- The finish script is the last call. -/
def relayProtocol : Protocol RelayOp RelayOp.Reply Phase where
  allows
    | .active calls, _ => 0 < calls
    | .finished, _ => False
  next
    | .active _, .finish _, _ => .finished
    | .active calls, _, _ => .active (calls - 1)
    | .finished, _, _ => .finished

/-- An attempt that does not run the finish script returns an error to be retried, and one
that does returns success or an error after the last retry. -/
def relayReturns (retries : ℤ) : Phase → Except RelayError Unit → Prop
  | .active _, r => r ≠ .ok () ∧ 0 < retries
  | .finished, r => r = .ok () ∨ retries ≤ 0

theorem failAttempt_follows (s : Signature) (activityID : GoString) (e : RelayError) (n : ℕ) :
  relayProtocol.Follows (relayReturns s.retryCount) (.active (n + 1))
    (failAttempt (currentDeliveryAttempt (some s)) activityID e)
  := by
  unfold failAttempt
  by_cases hs : s.retryCount ≤ 0
  · simp [currentDeliveryAttempt, hs, finishRelayTarget, relayProtocol, relayReturns]
  · simp [currentDeliveryAttempt, hs, relayReturns]
    omega

/-- An attempt for a queued task makes at most three calls, of which the finish script is
the last one, and runs it exactly when it succeeds or no retry is left. -/
theorem relayActivityV2_follows (s : Signature) (inboxURL activityID : GoString) {profile : Profile}
    (hprofile : profile ≠ .dual) :
  relayProtocol.Follows (relayReturns s.retryCount) (.active 3)
    (relayActivityV2 U configured (some s) [inboxURL, activityID, profile.string])
  := by
  simp only [relayActivityV2, deliveryProfileFromArgs, parseWireProfile_string U hprofile,
    loadRelayActivity, sendActivityWithResponseProfile, finishRelayTarget, Prog.op_bind,
    Protocol.follows_call]
  use Nat.succ_pos 2
  rintro (body | _ | _)
  · use Nat.succ_pos 1
    rintro (_ | _)
    · simp [relayProtocol, relayReturns]
    · apply failAttempt_follows
  · apply failAttempt_follows
  · apply failAttempt_follows

end Deliver
