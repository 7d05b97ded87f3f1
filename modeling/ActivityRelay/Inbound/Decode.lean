import ActivityRelay.GoString.Base64
import ActivityRelay.HttpSignature.Identity
import ActivityRelay.Models.ActivityPub

/-!
# Inbound activities

`decodeActivity`: the body of an inbox request is read, its signature is verified in the
profile that the request announces, and the actor of the activity is bound to the key. The two
profiles differ in the binding. In the legacy profile the host of the key ID is compared with
the host of the actor; in the RFC 9421 profile the owner that the key document names is
compared with the actor.

The documents that a request needs are looked up twice, for the key and for the actor, and
remote hosts may answer differently each time, so the surroundings of a request have two
lookups.
-/

namespace Inbound

open GoString GoJson NetUrl HttpMessage HttpSignature Models Interaction

/-! ### Libraries and surroundings -/

/-- The parameters of a signature of the legacy profile: the key ID, the names of the headers it
covers, its times in seconds, and the signature itself. -/
structure LegacySignature where
  keyID : GoString
  headers : List GoString
  created : ℤ
  expires : ℤ
  signature : GoString
  deriving DecidableEq, Repr

/-- `go-fed/httpsig`: `NewVerifier` at some time, the string of a request that a signature is
for, and the digest that RSA recovers from a signature, `none` if it is not a PKCS #1 signature
of the key. -/
structure LegacyLibrary (K : Type) where
  newVerifier : ℤ → Request → Except GoString LegacySignature
  signingString : Request → LegacySignature → Except GoString GoString
  recover : K → GoString → Option GoString

/-- The inbound side of a relay: its libraries, the reader of public keys, and its
configuration. -/
structure Relay (K : Type) where
  caseTable : CaseTable
  library : SignatureLibrary K
  legacy : LegacyLibrary K
  readPublicKey : GoString → Except GoString (Option K)
  verifier : Option RFC9421Verifier
  maxActivityBytes : ℕ

/-- The surroundings of a request: the clock, the lookups of the key and of the actor, and the
store of nonces. -/
structure Surroundings where
  now : ℤ
  keyLookup : Lookup
  actorLookup : Lookup
  reserve : GoString → GoString → Int64 → Except GoString Bool

/-- The errors of `ResolveRFC9421Key`. -/
inductive ResolveError
  | keyIDEmpty
  | signerUnavailable
  | fetch (error : FetchError)
  | noActorID
  | noPublicKeyID
  | publicKeyIDMismatch
  | noOwner
  | publicKey (error : GoString)
  | publicKeyNil
  deriving DecidableEq, Repr

/-- The errors of the bindings of the legacy profile. -/
inductive LegacyBindingError
  | activityActor
  | keyID
  | keyHost
  | keyOwner
  | publicKeyOwner
  | actorDocument
  deriving DecidableEq, Repr

/-- The errors of `decodeActivity`. -/
inductive DecodeError
  | bodyUnavailable
  | bodyTooLarge
  | verifierUnavailable
  | verify (error : VerifyError ResolveError)
  | json
  | noActor
  | bind (error : BindError)
  | fetch (error : FetchError)
  | newVerifier (error : GoString)
  | publicKey (error : GoString)
  | publicKeyNil
  | signature (error : GoString)
  | digestMismatch
  | binding (error : LegacyBindingError)
  deriving DecidableEq, Repr

inductive SignatureProfile
  | legacy
  | rfc9421
  deriving DecidableEq, Repr

def selectInboundSignatureProfile (request : Request) : SignatureProfile :=
  if request.header (lit "Signature-Input") ≠ [] then .rfc9421 else .legacy

section Decode

variable {K : Type} (relay : Relay K) (env : Surroundings) (request : Request)

def readInboundActivityBody : Except DecodeError GoString :=
  match request.body with
  | none => .error .bodyUnavailable
  | some body => if relay.maxActivityBytes < body.length then .error .bodyTooLarge else .ok body

variable (body : GoString)

def parseInboundActivity : Except DecodeError Activity :=
  let r := unmarshal decodeActivityDocument body {}
  if r.2 = false then .error .json
  else if trimSpace r.1.actor = [] then .error .noActor
  else .ok r.1

def lookupActor (lookup : Lookup) (url : GoString) : Except DecodeError Actor :=
  (newActivityPubActorFromRemoteActor lookup url).1.mapError .fetch

/-! ### The RFC 9421 profile -/

def resolveRFC9421Key (keyID : GoString) : Except ResolveError (RFC9421ResolvedKey K) :=
  let keyID := trimSpace keyID
  if keyID = [] then .error .keyIDEmpty
  else if env.keyLookup.signer = false then .error .signerUnavailable
  else
    match (newActivityPubActorFromRemoteActor env.keyLookup keyID).1 with
    | .error e => .error (.fetch e)
    | .ok actor =>
        if trimSpace actor.id = [] then .error .noActorID
        else if trimSpace actor.publicKey.id = [] then .error .noPublicKeyID
        else if actor.publicKey.id ≠ keyID then .error .publicKeyIDMismatch
        else if trimSpace actor.publicKey.owner = [] then .error .noOwner
        else
          match relay.readPublicKey actor.publicKey.publicKeyPem with
          | .error e => .error (.publicKey e)
          | .ok none => .error .publicKeyNil
          | .ok (some publicKey) =>
              .ok {
                keyID := actor.publicKey.id
                owner := actor.publicKey.owner
                actorID := actor.id
                publicKey := some publicKey }

/-- The replies that `VerifyPOST` gets in the surroundings. -/
def verifyReply : (o : VerifyOp) → o.Reply ResolveError K
  | .now => env.now
  | .resolveRFC9421Key keyID => resolveRFC9421Key relay env keyID
  | .reserveRFC9421Nonce keyID nonce ttl => env.reserve keyID nonce ttl

def decodeRFC9421Activity :
    Except DecodeError (Activity × Actor) :=
  match relay.verifier with
  | none => .error .verifierUnavailable
  | some verifier => do
      let verification ←
        ((verifyPOST relay.library verifier request body).eval (verifyReply relay env)).mapError .verify
      let activity ← parseInboundActivity body
      (verification.bindActivityActor relay.caseTable activity.actor).mapError .bind
      let remoteActor ← lookupActor env.actorLookup activity.actor
      (verification.bindActivityActor relay.caseTable remoteActor.id).mapError .bind
      return (activity, remoteActor)

/-! ### The legacy profile -/

/-- The part of `normalizedRemoteHost` after the parsing. -/
def normalizedHost (url : URL) : Option GoString :=
  let host := toLower relay.caseTable (trimSuffix 0x2E url.hostname)
  if host = [] then none else some host

/-- `normalizedRemoteHost`, with `none` for an error. -/
def normalizedRemoteHost (address : GoString) : Option GoString :=
  (parse address).bind (normalizedHost relay)

def verifySignatureActorBinding (keyID : GoString) (keyOwner : Actor) (activityActor : GoString) :
    Except LegacyBindingError Unit :=
  match normalizedRemoteHost relay activityActor with
  | none => .error .activityActor
  | some actorHost =>
      match normalizedRemoteHost relay keyID with
      | none => .error .keyID
      | some keyHost =>
          if keyHost ≠ actorHost then .error .keyHost
          else if keyOwner.id ≠ [] ∧ normalizedRemoteHost relay keyOwner.id ≠ some actorHost then
            .error .keyOwner
          else if keyOwner.publicKey.owner ≠ [] ∧
              normalizedRemoteHost relay keyOwner.publicKey.owner ≠ some actorHost then
            .error .publicKeyOwner
          else .ok ()

def verifyActivityActorDocument (activityActor : GoString) (remoteActor : Actor) :
    Except LegacyBindingError Unit :=
  match normalizedRemoteHost relay activityActor with
  | none => .error .activityActor
  | some activityHost =>
      if normalizedRemoteHost relay remoteActor.id ≠ some activityHost then .error .actorDocument
      else .ok ()

/-- `Verify` of `go-fed/httpsig` with `RSA_SHA256`. -/
def verifyLegacy (publicKey : K) (request : Request) (signature : LegacySignature) :
    Except GoString Unit :=
  match relay.legacy.signingString request signature with
  | .error e => .error e
  | .ok signingString =>
      if relay.legacy.recover publicKey signature.signature =
          some (relay.library.sha256 signingString) then .ok ()
      else .error (lit "crypto/rsa: verification error")

/-- The request with its host among the headers. -/
def withHost : Request := request.setHeader (lit "Host") request.host

/-- The `Digest` header of a body. -/
def legacyDigest : GoString :=
  lit "SHA-256=" ++ base64Encode (relay.library.sha256 body)

/-- The public key that a key ID is resolved to, with the document it is from. -/
def resolveLegacyKey (keyID : GoString) : Except DecodeError (Actor × K) := do
  let keyOwnerActor ← lookupActor env.keyLookup keyID
  match relay.readPublicKey keyOwnerActor.publicKey.publicKeyPem with
  | .error e => .error (.publicKey e)
  | .ok none => .error .publicKeyNil
  | .ok (some publicKey) => return (keyOwnerActor, publicKey)

/-- The comparison of the digest that is given with that of the body. -/
def verifyLegacyDigest : Except DecodeError Unit :=
  if request.header.get (lit "Digest") ≠ legacyDigest relay body then .error .digestMismatch
  else .ok ()

def decodeLegacyActivity :
    Except DecodeError (Activity × Actor) := do
  let request := withHost request
  let signature ← (relay.legacy.newVerifier env.now request).mapError .newVerifier
  let (keyOwnerActor, publicKey) ← resolveLegacyKey relay env signature.keyID
  (verifyLegacy relay publicKey request signature).mapError .signature
  verifyLegacyDigest relay request body
  let activity ← parseInboundActivity body
  (verifySignatureActorBinding relay signature.keyID keyOwnerActor activity.actor).mapError .binding
  let remoteActor ← lookupActor env.actorLookup activity.actor
  (verifyActivityActorDocument relay activity.actor remoteActor).mapError .binding
  return (activity, remoteActor)

/-! ### Both profiles -/

/-- The switch of `decodeActivity`. -/
def decodeProfile : Except DecodeError (Activity × Actor) :=
  match selectInboundSignatureProfile request with
  | .rfc9421 => decodeRFC9421Activity relay env request body
  | .legacy => decodeLegacyActivity relay env request body

def decodeActivity : Except DecodeError (Activity × Actor × GoString) := do
  let body ← readInboundActivityBody relay request
  let (activity, actor) ← decodeProfile relay env request body
  return (activity, actor, body)

end Decode

end Inbound
