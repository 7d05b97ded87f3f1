import ActivityRelay.HttpSignature.Signer
import ActivityRelay.Interaction.Trace

/-!
# Signed fetches

`DoGET` signs a request with the profile that is planned for its destination and sends it. Every
redirect is planned and signed anew. If a destination that nothing was known of refuses the RFC 9421
signature, the request is sent once more with the legacy one.

The redirects are followed as `http.Client` does it: after a redirect the next request has whatever
headers the client copies into it, and is given to `CheckRedirect` before it is sent.
-/

namespace HttpSignature

open GoString GoTime HttpMessage NetUrl Interaction

/-! ### Calls -/

/-- A signed request with the plan in its context. -/
structure Planned where
  request : Outgoing
  plan : NegotiationPlan

/-- Where a response redirects to: nowhere, to an address that cannot be parsed, or to the address
of the request that the client builds. -/
inductive Redirect
  | absent
  | unparsable
  | next (request : Outgoing)

structure Response where
  status : ℤ
  header : Header
  redirect : Redirect

/-- What the `CheckRedirect` of the caller says. -/
inductive Verdict
  | proceed
  | useLastResponse
  | refuse
  deriving DecidableEq, Repr

/-- What a read of the store finds, with the time of the negotiator, of the clock and of Redis. -/
structure Snapshot where
  keys : CapabilityKeys
  now : ℤ
  wall : ℤ
  redisNow : ℤ

/-- The calls of a fetch. -/
inductive SignerOp
  | readStore
  | now
  | date
  | send (request : Planned)
  | checkRedirect (redirect : Outgoing)
  | save (capability : DestinationCapability)

/-- The replies. There is no snapshot if the store fails, and no response if the transport does. -/
abbrev SignerOp.Reply : SignerOp → Type
  | readStore => Option Snapshot
  | now => ℤ
  | date => GoString
  | send _ => Option Response
  | checkRedirect _ => Verdict
  | save _ => Unit

abbrev SignerM := Prog SignerOp SignerOp.Reply

def readStore : SignerM (Option Snapshot) := .op SignerOp.readStore
def negotiatorNow : SignerM ℤ := .op SignerOp.now
def httpDate : SignerM GoString := .op SignerOp.date
def send (request : Planned) : SignerM (Option Response) :=
  .op (SignerOp.send request)
def checkRedirect (redirect : Outgoing) : SignerM Verdict :=
  .op (SignerOp.checkRedirect redirect)
def saveCapability (capability : DestinationCapability) : SignerM Unit :=
  .op (SignerOp.save capability)

/-- The errors of `DoGET`. -/
inductive GetError
  | sign
  | transport
  | location
  | stoppedAfterRedirects
  | refused
  | signRedirected
  | signFallback
  deriving DecidableEq, Repr

/-! ### The signer -/

/-- A signer with its libraries and with the store of its negotiator. -/
structure ConfiguredSigner where
  cases : CaseTable
  sha256 : GoString → GoString
  keyPrefix : GoString
  library : SigningLibrary
  keyID : GoString
  profile : Profile
  negotiator : Option DestinationNegotiator
  negotiated : profile = .dual → negotiator ≠ none

namespace ConfiguredSigner

variable (signer : ConfiguredSigner) (destination : GoString)

/-- `Plan` for a fetch, `none` for an error. -/
def planFetch : SignerM (Option NegotiationPlan) :=
  match normalizeDestinationOrigin signer.cases destination with
  | .error _ => return none
  | .ok origin =>
      match signer.profile with
      | .legacy => return some ⟨origin, .fetch, .legacy, none, .configuredLegacy⟩
      | .rfc9421 => return some ⟨origin, .fetch, .rfc9421, none, .configuredRFC9421⟩
      | .dual => do
          match ← readStore with
          | none => return none
          | some store =>
              return (plan signer.cases signer.sha256 signer.keyPrefix .dual .fetch destination
                store.now store.wall store.redisNow store.keys).toOption

/-- `SignGETWithProfile` of the configured signer. -/
def signGET (date : GoString) (request : Outgoing) (profile : Profile) :
    Except SignError Outgoing :=
  match parseWireProfile signer.cases profile.string with
  | .error e => .error (.profile e)
  | .ok profile => signGETWithProfile signer.library signer.keyID date request profile

/-- `signPlannedGET`, `none` for an error. -/
def signPlannedGET (request : Outgoing) : SignerM (Option Planned) := do
  match ← signer.planFetch request.url.string with
  | none => return none
  | some plan =>
      let date ← httpDate
      match signer.signGET date (clearSignatureFields request) plan.primary with
      | .error _ => return none
      | .ok signed => return some ⟨signed, plan⟩

/-! ### Observations -/

/-- `saveObservation`, without its result. -/
def observe (profile : Profile) (evidence : CapabilityEvidence) (ttl : ℤ) :
    SignerM Unit := do
  let observedAt ← negotiatorNow
  match observedCapability signer.cases .fetch destination profile evidence ttl observedAt with
  | .error _ => return ()
  | .ok capability => saveCapability capability

/-- `ObserveResponse` for a fetch. -/
def observeResponse (profile : Profile) (response : Response) :
    SignerM Unit :=
  match signer.negotiator with
  | none => return ()
  | some negotiator =>
      if response.status / 100 = 2 then
        if profile = .rfc9421 then
          signer.observe destination .rfc9421 .successfulRFC9421 negotiator.positiveTTL
        else if compatibleAcceptSignature signer.library.unmarshalDictionary
            (response.header (lit "Accept-Signature")) .fetch signer.keyID then
          signer.observe destination .rfc9421 .acceptSignature negotiator.positiveTTL
        else return ()
      else if profile = .rfc9421 ∧
          explicitLegacySignatureRejection response.status response.header = true then
        signer.observe destination .legacy .explicitRFC9421Rejection negotiator.negativeTTL
      else return ()

/-- `observeLegacyFallbackBestEffort`. -/
def observeLegacyFallback : SignerM Unit :=
  match signer.negotiator with
  | none => return ()
  | some negotiator =>
      signer.observe destination .legacy .successfulLegacyFallback negotiator.negativeTTL

/-! ### The fetch -/

/-- The statuses that `http.Client` follows. -/
def redirectStatus (status : ℤ) : Bool :=
  status = 301 || status = 302 || status = 303 || status = 307 || status = 308

/-- `Do` of the client for a signed request, with the request of the last response. `follow` goes on
after a redirect; there is none if `CheckRedirect` stops at the next one. -/
def doHop (follow : Option (Planned → SignerM (Except GetError (Planned × Response))))
    (planned : Planned) : SignerM (Except GetError (Planned × Response)) := do
  match ← send planned with
  | none => return .error .transport
  | some response =>
      if redirectStatus response.status then
        match response.redirect with
        | .absent => return .ok (planned, response)
        | .unparsable => return .error .location
        | .next redirect =>
            match follow with
            | none => return .error .stoppedAfterRedirects
            | some follow =>
                match ← checkRedirect redirect with
                | .useLastResponse => return .ok (planned, response)
                | .refuse => return .error .refused
                | .proceed =>
                    match ← signer.signPlannedGET redirect with
                    | none => return .error .signRedirected
                    | some planned => follow planned
      else return .ok (planned, response)

/-- `Do` of the client, where `CheckRedirect` stops after the given number of redirects. -/
def doChain : (redirects : ℕ) → Planned → SignerM (Except GetError (Planned × Response))
  | 0 => signer.doHop none
  | redirects + 1 => signer.doHop (some (doChain redirects))

end ConfiguredSigner

/-- The outcomes of a response. -/
inductive NegotiationOutcome
  | success
  | explicitSignatureRejection
  | ambiguousClientRejection
  | serverFailure
  | otherFailure
  deriving DecidableEq, Repr

def classifyNegotiationOutcome (response : Response) : NegotiationOutcome :=
  if response.status / 100 = 2 then .success
  else if explicitLegacySignatureRejection response.status response.header then
    .explicitSignatureRejection
  else if response.status = 400 then .ambiguousClientRejection
  else if response.status / 100 = 5 then .serverFailure
  else .otherFailure

def NegotiationPlan.shouldFallback (plan : NegotiationPlan) (outcome : NegotiationOutcome) : Bool :=
  if plan.scope ≠ .fetch ∨ plan.primary ≠ .rfc9421 ∨ plan.fallback ≠ some .legacy then false
  else outcome = .explicitSignatureRejection || outcome = .ambiguousClientRejection

namespace ConfiguredSigner

variable (signer : ConfiguredSigner)

/-- The number of redirects of a chain. -/
def maximumRedirects : ℕ := 9

/-- What is observed at the end of the second chain. `outcome` is the outcome of the first one. -/
def observeFallback (applied : Planned) (response : Response) (outcome : NegotiationOutcome) :
    SignerM Unit := do
  signer.observeResponse applied.request.url.string applied.plan.primary response
  if outcome = .ambiguousClientRejection ∧ applied.plan.primary = .legacy ∧
      response.status / 100 = 2 then
    signer.observeLegacyFallback applied.request.url.string

/-- The request that is sent once more, with the legacy signature. -/
def doFallback (last : Planned) (outcome : NegotiationOutcome) :
    SignerM (Except GetError (Planned × Response)) := do
  let date ← httpDate
  let profile := last.plan.fallback.getD .legacy
  match signer.signGET date (clearSignatureFields last.request) profile with
  | .error _ => return .error .signFallback
  | .ok signed =>
      match ← signer.doChain maximumRedirects
          ⟨signed, ⟨last.plan.origin, .fetch, profile, none, .cachedCapability⟩⟩ with
      | .error e => return .error e
      | .ok (applied, response) =>
          signer.observeFallback applied response outcome
          return .ok (applied, response)

/-- `DoGET`, with the request of the response that it returns. -/
def doGET (request : Outgoing) : SignerM (Except GetError (Planned × Response)) := do
  match ← signer.signPlannedGET request with
  | none => return .error .sign
  | some planned =>
      match ← signer.doChain maximumRedirects planned with
      | .error e => return .error e
      | .ok (last, response) =>
          signer.observeResponse last.request.url.string last.plan.primary response
          let outcome := classifyNegotiationOutcome response
          if last.plan.shouldFallback outcome then signer.doFallback last outcome
          else return .ok (last, response)

end ConfiguredSigner

end HttpSignature
