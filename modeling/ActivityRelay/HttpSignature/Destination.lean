import ActivityRelay.GoString.Number
import ActivityRelay.HttpSignature.NonceStore
import ActivityRelay.HttpSignature.Profile
import ActivityRelay.NetUrl.Url

/-!
# Capabilities of destinations

Which signature profile a destination understands is observed for each origin, separately for
fetches and deliveries, and kept in Redis for some time. `plan` chooses the profile of a request
from what has been observed.
-/

namespace HttpSignature

open GoString GoTime NetUrl

/-! ### Origins -/

def joinHostPort (host port : GoString) : GoString :=
  if 0x3A ∈ host then 0x5B :: host ++ lit "]:" ++ port else host ++ 0x3A :: port

inductive OriginError
  | parse
  | scheme (scheme : GoString)
  | userInformation
  | noHost
  deriving DecidableEq, Repr

variable (U : CaseTable)

def normalizeDestinationOrigin (address : GoString) : Except OriginError GoString :=
  match parse (trimSpace address) with
  | none => .error .parse
  | some url =>
      let scheme := toLower U url.scheme
      if scheme ≠ lit "http" ∧ scheme ≠ lit "https" then .error (.scheme url.scheme)
      else if url.user ≠ none then .error .userInformation
      else
        let host := toLower U (trimSuffix 0x2E url.hostname)
        if host = [] then .error .noHost
        else
          let port :=
            if (scheme = lit "http" ∧ url.port = lit "80") ∨
                (scheme = lit "https" ∧ url.port = lit "443") then []
            else url.port
          let authority :=
            if port ≠ [] then joinHostPort host port
            else if 0x3A ∈ host then 0x5B :: host ++ [0x5D]
            else host
          .ok (scheme ++ lit "://" ++ authority)

/-! ### Capabilities -/

/-- Fetches and deliveries are observed separately. -/
inductive DestinationScope
  | fetch
  | delivery
  deriving DecidableEq, Repr

def DestinationScope.string : DestinationScope → GoString
  | fetch => lit "fetch"
  | delivery => lit "delivery"

/-- The event that tells which profile a destination understands. -/
inductive CapabilityEvidence
  | successfulRFC9421
  | acceptSignature
  | explicitRFC9421Rejection
  | successfulLegacyFallback
  deriving DecidableEq, Repr

namespace CapabilityEvidence

def string : CapabilityEvidence → GoString
  | successfulRFC9421 => lit "successful_rfc9421"
  | acceptSignature => lit "accept_signature"
  | explicitRFC9421Rejection => lit "explicit_rfc9421_rejection"
  | successfulLegacyFallback => lit "successful_legacy_fallback"

/-- The profile that a piece of evidence is for. -/
def profile : CapabilityEvidence → Profile
  | successfulRFC9421 | acceptSignature => .rfc9421
  | explicitRFC9421Rejection | successfulLegacyFallback => .legacy

/-- The evidence with a given name. -/
def ofString (s : GoString) : Option CapabilityEvidence :=
  [successfulRFC9421, acceptSignature, explicitRFC9421Rejection, successfulLegacyFallback].find?
    (fun e => e.string = s)

theorem ofString_string :
  ∀ e : CapabilityEvidence, ofString e.string = some e
  | successfulRFC9421 | acceptSignature | explicitRFC9421Rejection | successfulLegacyFallback => rfl

end CapabilityEvidence

structure DestinationCapability where
  origin : GoString
  scope : DestinationScope
  profile : Profile
  evidence : CapabilityEvidence
  observedAt : ℤ
  expiresAt : ℤ
  deriving DecidableEq, Repr

inductive CapabilityError
  | origin (e : OriginError)
  | originNotNormalized
  | profile (name : GoString)
  | evidence (evidence : GoString) (required : Option Profile)
  | observationTime
  | expiration
  | expired
  | field (name : GoString) (parsed : Bool)
  | identity
  | script
  | notPositive (evidence : CapabilityEvidence)
  deriving DecidableEq, Repr

namespace DestinationCapability

def validate (c : DestinationCapability) : Except CapabilityError Unit :=
  match normalizeDestinationOrigin U c.origin with
  | .error e => .error (.origin e)
  | .ok normalized =>
      if normalized ≠ c.origin then .error .originNotNormalized
      else if c.profile = .dual then .error (.profile c.profile.string)
      else if c.profile ≠ c.evidence.profile then
        .error (.evidence c.evidence.string (some c.evidence.profile))
      else if c.observedAt = 0 then .error .observationTime
      else if ¬ c.observedAt < c.expiresAt then .error .expiration
      else .ok ()

/-- `Fresh`; the zero time stands for the time `wall` of the clock. -/
def fresh (c : DestinationCapability) (now wall : ℤ) : Bool :=
  (if now = 0 then wall else now) < c.expiresAt

end DestinationCapability

/-! ### The store -/

def defaultDestinationCapabilityPrefix : GoString := lit "relay:http-signature:capability:"

/-- The hash of a capability. The script sets all fields at once. -/
structure CapabilityHash where
  origin : GoString
  scope : GoString
  profile : GoString
  evidence : GoString
  observedAtMs : GoString
  expiresAtMs : GoString
  deriving DecidableEq, Repr

/-- What the script is given of a capability. -/
def DestinationCapability.hash (c : DestinationCapability) : CapabilityHash where
  origin := c.origin
  scope := c.scope.string
  profile := c.profile.string
  evidence := c.evidence.string
  observedAtMs := formatInt (unixMilli c.observedAt)
  expiresAtMs := formatInt (unixMilli c.expiresAt)

/-- The `HSET` and `PEXPIREAT` of the script. A key whose time has come is deleted. -/
def setCapability (now : ℤ) (h : CapabilityHash) : Option (Redis.Cell CapabilityHash × ℤ) :=
  (parseInt h.expiresAtMs).map (fun expiresAt =>
    (if expiresAt ≤ now then none else some ⟨h, some expiresAt⟩, 1))

/-- `saveDestinationCapabilityScript`, `none` if it ends in an error. Lua compares the two times as
doubles. These are exact up to `2 ^ 53` milliseconds, before the year 287396, and only so far does
the comparison of integers stand for that of the script. -/
def saveDestinationCapabilityScript (now : ℤ) (h : CapabilityHash)
    (c : Redis.Cell CapabilityHash) : Option (Redis.Cell CapabilityHash × ℤ) :=
  match c.get now with
  | none => setCapability now h
  | some current =>
      match parseInt current.observedAtMs, parseInt h.observedAtMs with
      | some current, some observedAt => if observedAt ≤ current then some (c, 0) else setCapability now h
      | _, _ => none

/-- The keys of the store. -/
abbrev CapabilityKeys := GoString → Redis.Cell CapabilityHash

section Store

variable (sha256 : GoString → GoString) (keyPrefix : GoString)

def capabilityKey (scope : DestinationScope) (origin : GoString) : GoString :=
  keyPrefix ++ hexEncode (sha256 (scope.string ++ 0 :: origin))

/-- `SaveDestinationCapability`, at the time `wall` of the process and `now` of Redis. -/
def saveDestinationCapability (wall now : ℤ) (c : DestinationCapability) (keys : CapabilityKeys) :
    CapabilityKeys × Except CapabilityError Bool :=
  match c.validate U with
  | .error e => (keys, .error e)
  | .ok () =>
      if ¬ wall < c.expiresAt then (keys, .error .expired)
      else
        let key := capabilityKey sha256 keyPrefix c.scope c.origin
        match saveDestinationCapabilityScript now c.hash (keys key) with
        | none => (keys, .error .script)
        | some r => (Function.update keys key r.1, .ok (r.2 = 1))

/-- `parseCapabilityTime` -/
def parseCapabilityTime (field : String) (raw : GoString) : Except CapabilityError ℤ :=
  if raw = [] then .error (.field (lit field) false)
  else
    match parseInt raw with
    | none => .error (.field (lit field) true)
    | some milliseconds => .ok (ofUnixMilli milliseconds)

/-- The capability that a hash is read as. -/
def CapabilityHash.capability (h : CapabilityHash) (scope : DestinationScope) (origin : GoString) :
    Except CapabilityError DestinationCapability :=
  match parseCapabilityTime "observed_at_ms" h.observedAtMs with
  | .error e => .error e
  | .ok observedAt =>
      match parseCapabilityTime "expires_at_ms" h.expiresAtMs with
      | .error e => .error e
      | .ok expiresAt =>
          if h.origin ≠ origin ∨ h.scope ≠ scope.string then .error .identity
          else
            match Profile.validate h.profile, CapabilityEvidence.ofString h.evidence with
            | .error _, _ => .error (.profile h.profile)
            | .ok _, none => .error (.evidence h.evidence none)
            | .ok profile, some evidence =>
                let c : DestinationCapability :=
                  ⟨origin, scope, profile, evidence, observedAt, expiresAt⟩
                (c.validate U).map (fun _ => c)

def loadDestinationCapability (now : ℤ) (scope : DestinationScope) (origin : GoString)
    (keys : CapabilityKeys) : Except CapabilityError (Option DestinationCapability) :=
  match normalizeDestinationOrigin U origin with
  | .error e => .error (.origin e)
  | .ok normalized =>
      if normalized ≠ origin then .error .originNotNormalized
      else
        match (keys (capabilityKey sha256 keyPrefix scope origin)).get now with
        | none => .ok none
        | some h => (h.capability U scope origin).map some

end Store

/-! ### Negotiation -/

/-- Why a plan was made. -/
inductive NegotiationReason
  | configuredLegacy
  | configuredRFC9421
  | cachedCapability
  | unknownFetchProbe
  | unknownDeliveryLegacy
  deriving DecidableEq, Repr

structure NegotiationPlan where
  origin : GoString
  scope : DestinationScope
  primary : Profile
  fallback : Option Profile
  reason : NegotiationReason
  deriving DecidableEq, Repr

/-- The plan for a destination that nothing is known of. -/
def unknownDestinationPlan (scope : DestinationScope) (origin : GoString) : NegotiationPlan :=
  match scope with
  | .fetch => ⟨origin, scope, .rfc9421, some .legacy, .unknownFetchProbe⟩
  | .delivery => ⟨origin, scope, .legacy, none, .unknownDeliveryLegacy⟩

def defaultRFC9421CapabilityTTL : ℤ := 14 * 24 * hour
def defaultLegacyNegativeTTL : ℤ := 24 * hour

/-- The lifetimes of what a negotiator observes. -/
structure DestinationNegotiator where
  positiveTTL : ℤ
  negativeTTL : ℤ
  minute_le : minute ≤ negativeTTL
  negative_le : negativeTTL ≤ positiveTTL
  positive_lt : positiveTTL < 2 ^ 63

/-- `NewDestinationNegotiator`, `none` if it returns an error. -/
def newDestinationNegotiator (positiveTTL negativeTTL : Int64) : Option DestinationNegotiator :=
  let positive := if positiveTTL.toInt = 0 then defaultRFC9421CapabilityTTL else positiveTTL.toInt
  let negative := if negativeTTL.toInt = 0 then defaultLegacyNegativeTTL else negativeTTL.toInt
  if positive < hour then none
  else if h : negative < minute then none
  else if h' : positive < negative then none
  else
    some ⟨positive, negative, not_lt.mp h, not_lt.mp h', by
      have := positiveTTL.toInt_lt
      simp only [positive, defaultRFC9421CapabilityTTL, hour, minute, second]
      split <;> omega⟩

section Negotiation

variable (sha256 : GoString → GoString) (keyPrefix : GoString)

/-- `Plan`, at the time `now` of the negotiator, `wall` of the clock and `redisNow` of Redis. -/
def plan (configured : Profile) (scope : DestinationScope) (destination : GoString)
    (now wall redisNow : ℤ) (keys : CapabilityKeys) : Except CapabilityError NegotiationPlan :=
  match normalizeDestinationOrigin U destination with
  | .error e => .error (.origin e)
  | .ok origin =>
      match configured with
      | .legacy => .ok ⟨origin, scope, .legacy, none, .configuredLegacy⟩
      | .rfc9421 => .ok ⟨origin, scope, .rfc9421, none, .configuredRFC9421⟩
      | .dual =>
          match loadDestinationCapability U sha256 keyPrefix redisNow scope origin keys with
          | .error e => .error e
          | .ok none => .ok (unknownDestinationPlan scope origin)
          | .ok (some capability) =>
              if capability.fresh now wall then
                (capability.validate U).map
                  (fun _ => ⟨origin, scope, capability.profile, none, .cachedCapability⟩)
              else .ok (unknownDestinationPlan scope origin)

/-- The capability that `saveObservation` saves. -/
def observedCapability (scope : DestinationScope) (destination : GoString)
    (profile : Profile) (evidence : CapabilityEvidence) (ttl observedAt : ℤ) :
    Except CapabilityError DestinationCapability :=
  if profile ≠ evidence.profile then .error (.evidence evidence.string (some evidence.profile))
  else
    match normalizeDestinationOrigin U destination with
    | .error e => .error (.origin e)
    | .ok origin =>
        let c : DestinationCapability :=
          ⟨origin, scope, profile, evidence, observedAt, observedAt + ttl⟩
        (c.validate U).map (fun _ => c)

def saveObservation (scope : DestinationScope) (destination : GoString) (profile : Profile)
    (evidence : CapabilityEvidence) (ttl observedAt wall redisNow : ℤ) (keys : CapabilityKeys) :
    CapabilityKeys × Except CapabilityError (DestinationCapability × Bool) :=
  match observedCapability U scope destination profile evidence ttl observedAt with
  | .error e => (keys, .error e)
  | .ok c =>
      let r := saveDestinationCapability U sha256 keyPrefix wall redisNow c keys
      (r.1, r.2.map (fun saved => (c, saved)))

variable (negotiator : DestinationNegotiator)

def observeRFC9421Success (scope : DestinationScope) (destination : GoString)
    (evidence : CapabilityEvidence) (observedAt wall redisNow : ℤ) (keys : CapabilityKeys) :
    CapabilityKeys × Except CapabilityError (DestinationCapability × Bool) :=
  if evidence ≠ .successfulRFC9421 ∧ evidence ≠ .acceptSignature then
    (keys, .error (.notPositive evidence))
  else
    saveObservation U sha256 keyPrefix scope destination .rfc9421 evidence negotiator.positiveTTL
      observedAt wall redisNow keys

def observeExplicitRFC9421Rejection (scope : DestinationScope) (destination : GoString)
    (observedAt wall redisNow : ℤ) (keys : CapabilityKeys) :
    CapabilityKeys × Except CapabilityError (DestinationCapability × Bool) :=
  saveObservation U sha256 keyPrefix scope destination .legacy .explicitRFC9421Rejection
    negotiator.negativeTTL observedAt wall redisNow keys

def observeSuccessfulLegacyFallback (scope : DestinationScope) (destination : GoString)
    (observedAt wall redisNow : ℤ) (keys : CapabilityKeys) :
    CapabilityKeys × Except CapabilityError (DestinationCapability × Bool) :=
  saveObservation U sha256 keyPrefix scope destination .legacy .successfulLegacyFallback
    negotiator.negativeTTL observedAt wall redisNow keys

end Negotiation

end HttpSignature
