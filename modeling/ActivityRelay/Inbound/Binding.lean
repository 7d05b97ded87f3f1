import ActivityRelay.Inbound.Accepted
import ActivityRelay.HttpSignature.NonceStore

/-!
# The host of the key

Whether the key that verified an accepted request was obtained from the host of the activity's
actor. In the legacy profile it always is, because the hosts are compared. In the RFC 9421
profile the actor is compared with the owner that the key document names, and nobody compares
that owner with the host of the key ID. The key comes from the actor's host if and only if the
document names an owner on its own host; a host that names somebody else's actor as the owner
of its key can speak for that actor.
-/

namespace Inbound

open GoString GoJson GoTime NetUrl HttpMessage HttpSignature Models Interaction

section Hosts

variable {K : Type} (relay : Relay K) (env : Surroundings)

/-- The key ID of the signature of a request. -/
def signatureKeyID (request : Request) : Option GoString :=
  match selectInboundSignatureProfile request with
  | .rfc9421 =>
      relay.verifier.bind (fun verifier =>
        (signedMessage (E := ResolveError) relay.library verifier request).toOption.map
          (·.input.keyID))
  | .legacy => (relay.legacy.newVerifier env.now (withHost request)).toOption.map (·.keyID)

/-- The host of an actor as `canonicalRFC9421ActorIdentity` reads it, normalised. -/
def identityHost (value : GoString) : Option GoString :=
  (parseRequestURI (trimSpace value)).bind (normalizedHost relay)

/-- The key of a request, the actor of its activity and the actor's document are on one host. -/
def SameHost (request : Request) (activity : Activity) (actor : Actor) : Prop :=
  ∃ keyID host, signatureKeyID relay env request = some keyID ∧
    normalizedRemoteHost relay keyID = some host ∧
    normalizedRemoteHost relay activity.actor = some host ∧
    normalizedRemoteHost relay actor.id = some host

/-- The document that is served at the key ID names an owner on the host of the key ID. -/
def OwnerOnKeyHost (request : Request) : Prop :=
  ∃ keyID document host, signatureKeyID relay env request = some keyID ∧
    (newActivityPubActorFromRemoteActor env.keyLookup keyID).1 = .ok document ∧
    normalizedRemoteHost relay keyID = some host ∧
    identityHost relay document.publicKey.owner = some host

end Hosts

variable {K : Type} {relay : Relay K} {env : Surroundings}

/-! ### The legacy profile -/

theorem verifySignatureActorBinding_ok {keyID activityActor : GoString} {keyOwner : Actor}
    (h : verifySignatureActorBinding relay keyID keyOwner activityActor = .ok ()) :
  ∃ host, normalizedRemoteHost relay activityActor = some host ∧
    normalizedRemoteHost relay keyID = some host
  := by
  unfold verifySignatureActorBinding at h
  split at h
  · cases h
  · rename_i actorHost hactor
    split at h
    · cases h
    · rename_i keyHost hkey
      split_ifs at h with hne
      rw [not_not.mp hne] at hkey
      exact ⟨actorHost, hactor, hkey⟩

theorem verifyActivityActorDocument_ok {activityActor host : GoString} {remoteActor : Actor}
    (h : verifyActivityActorDocument relay activityActor remoteActor = .ok ())
    (hhost : normalizedRemoteHost relay activityActor = some host) :
  normalizedRemoteHost relay remoteActor.id = some host
  := by
  unfold verifyActivityActorDocument at h
  rw [hhost] at h
  dsimp only at h
  split_ifs at h with hne
  exact not_not.mp hne

theorem AcceptedLegacy.sameHost {request : Request} {body : GoString} {activity : Activity}
    {actor : Actor} {signature : LegacySignature} {document : Actor} {publicKey : K}
    (h : AcceptedLegacy relay env request body activity actor signature document publicKey)
    (hprofile : selectInboundSignatureProfile request = .legacy) :
  SameHost relay env request activity actor
  := by
  obtain ⟨host, hactivity, hkey⟩ := verifySignatureActorBinding_ok h.key_bound
  refine ⟨signature.keyID, host, ?_, hkey, hactivity,
    verifyActivityActorDocument_ok h.actor_bound hactivity⟩
  simp only [signatureKeyID, hprofile, h.signature_eq]
  rfl

/-! ### The RFC 9421 profile -/

/-- URLs whose hosts differ in letter case only have the same normalised host. -/
theorem normalizedHost_eq {url url' : URL}
    (h : toLower relay.caseTable url.host = toLower relay.caseTable url'.host) :
  normalizedHost relay url = normalizedHost relay url'
  := by
  have hlower : toLower relay.caseTable url.hostname = toLower relay.caseTable url'.hostname := by
    rw [toLower_hostname, toLower_hostname, h]
  unfold normalizedHost
  rw [← trimSuffix_toLower (by decide), ← trimSuffix_toLower (by decide), hlower]

/-- Actors with the same identity are on the same host. -/
theorem identityHost_eq {value value' identity : GoString}
    (h : canonicalRFC9421ActorIdentity relay.caseTable value = .ok identity)
    (h' : canonicalRFC9421ActorIdentity relay.caseTable value' = .ok identity) :
  identityHost relay value = identityHost relay value'
  := by
  obtain ⟨url, hurl, -⟩ := canonical_ok h
  obtain ⟨url', hurl', -⟩ := canonical_ok h'
  rw [identityHost, identityHost, hurl, hurl']
  exact normalizedHost_eq (host_eq_of_canonical_eq h h' hurl hurl')

/-- An actor whose document can be fetched has one host only. -/
theorem normalizedRemoteHost_eq_identityHost {value identity : GoString} (hfetch : Fetchable value)
    (h : canonicalRFC9421ActorIdentity relay.caseTable value = .ok identity) :
  normalizedRemoteHost relay value = identityHost relay value
  := by
  obtain ⟨url, hparse, hscheme, hhost, hspace⟩ := hfetch
  obtain ⟨url', hurl', habsolute, -⟩ := canonical_ok h
  have hne : url.scheme ≠ [] := by
    rcases hscheme with hscheme | hscheme <;> rw [hscheme] <;> decide
  have heq := host_eq_of_trimSpace hparse hne hhost hspace hurl' habsolute.scheme_ne_nil
    habsolute.host_ne_nil habsolute.user_eq
  rw [normalizedRemoteHost, identityHost, hparse, hurl']
  exact normalizedHost_eq (by rw [heq])

section RFC9421

variable {request : Request} {body : GoString} {activity : Activity} {actor : Actor}
  {message : Message} {document : Actor}

variable (h : AcceptedRFC9421 relay env request body activity actor message document)
include h

theorem AcceptedRFC9421.signatureKeyID_eq
    (hprofile : selectInboundSignatureProfile request = .rfc9421) :
  signatureKeyID relay env request = some message.input.keyID
  := by
  obtain ⟨verifier, hverifier, hmessage⟩ := h.message_eq
  simp only [signatureKeyID, hprofile, hverifier, Option.bind_some, hmessage]
  rfl

/-- The actor of an accepted activity is on the host of the owner that the key document names. -/
theorem AcceptedRFC9421.activityHost :
  normalizedRemoteHost relay activity.actor = identityHost relay document.publicKey.owner
  := by
  obtain ⟨identity, hactivity, howner⟩ := h.activity_bound
  rw [normalizedRemoteHost_eq_identityHost (fetchable_of_lookup h.actor_eq) hactivity,
    identityHost_eq hactivity howner]

theorem AcceptedRFC9421.actorHost :
  identityHost relay actor.id = identityHost relay document.publicKey.owner
  := by
  obtain ⟨identity, hactor, howner⟩ := h.actor_bound
  exact identityHost_eq hactor howner

theorem AcceptedRFC9421.sameHost_iff
    (hprofile : selectInboundSignatureProfile request = .rfc9421) :
  SameHost relay env request activity actor ↔
    OwnerOnKeyHost relay env request ∧
      normalizedRemoteHost relay actor.id = identityHost relay actor.id
  := by
  have hkeyID := h.signatureKeyID_eq hprofile
  constructor
  · rintro ⟨keyID, host, hkeyID', hkey, hactivity, hactor⟩
    cases hkeyID.symm.trans hkeyID'
    rw [h.activityHost] at hactivity
    constructor
    · exact ⟨_, document, host, hkeyID, h.document_eq, hkey, hactivity⟩
    · rw [hactor, h.actorHost, hactivity]
  · rintro ⟨⟨keyID, document', host, hkeyID', hdocument, hkey, howner⟩, hactor⟩
    cases hkeyID.symm.trans hkeyID'
    cases h.document_eq.symm.trans hdocument
    refine ⟨_, host, hkeyID, hkey, ?_, ?_⟩
    · rw [h.activityHost, howner]
    · rw [hactor, h.actorHost, howner]

end RFC9421

/-! ### Both profiles -/

/-- The key of an accepted request was obtained from the host of the activity's actor if and
only if the request is of the legacy profile, or the key document names an owner on its own
host and there is no white space that hides the host in the identifier of the actor's
document. -/
theorem accepted_sameHost_iff (relay : Relay K) (env : Surroundings) (request : Request)
    (activity : Activity) (actor : Actor) (body : GoString)
    (h : decodeActivity relay env request = .ok (activity, actor, body)) :
  SameHost relay env request activity actor ↔
    selectInboundSignatureProfile request = .legacy ∨
      OwnerOnKeyHost relay env request ∧
        normalizedRemoteHost relay actor.id = identityHost relay actor.id
  := by
  have hdecode := (decodeActivity_eq_ok.mp h).2
  unfold decodeProfile at hdecode
  cases hprofile : selectInboundSignatureProfile request with
  | rfc9421 =>
    rw [hprofile] at hdecode
    obtain ⟨message, document, haccepted⟩ := decodeRFC9421Activity_ok hdecode
    simpa using haccepted.sameHost_iff hprofile
  | legacy =>
    rw [hprofile] at hdecode
    obtain ⟨signature, document, publicKey, haccepted⟩ := decodeLegacyActivity_eq_ok.mp hdecode
    simpa using haccepted.sameHost hprofile

/-! ### A key for somebody else's actor -/

def actorDocument : GoString := lit "\x7b\"id\":\"https://victim.example/a\"\x7d"

def activityDocument : GoString := lit "\x7b\"actor\":\"https://victim.example/a\"\x7d"

/-- Libraries with ideal primitives: the digest of a text is the text, and the signature of a text
names the key. They find the message in its request, with the digest of `activityDocument`. -/
def idealLibrary (message : Message) : SignatureLibrary GoString where
  unmarshal := unmarshalPOST activityDocument message
  signatureBase input request := .ok (fun _ => .ok (signedText input.keyID request))
  verify key text signature := if signature = key ++ text then .ok () else .error []
  unmarshalDictionary values := .ok (fun name =>
    if name = lit "sha-256" ∧ values = [contentDigest activityDocument] then
      some (.bytes activityDocument)
    else none)
  sha256 := id

variable (keyID : GoString)

/-- A key document that names the actor of `actorDocument` as the owner of the key. -/
def keyDocument : GoString :=
  lit "\x7b\"id\":\"https://victim.example/a\",\"publicKey\":\x7b\"id\":\"" ++ keyID ++
    lit "\",\"owner\":\"https://victim.example/a\",\"publicKeyPem\":\"key\"\x7d\x7d"

/-- Two hosts: an actor is served at the path `/a` and the key document at other paths. -/
def twoHosts : Network where
  get url :=
    if url.host = lit "victim.example" ∨ url.host = lit "evil.example" then
      .ok ⟨200, some (if url.path = lit "/a" then actorDocument else keyDocument keyID)⟩
    else .error []
  reachable := by
    intro url response h
    by_cases hhost : url.host = lit "victim.example" ∨ url.host = lit "evil.example"
    · rcases hhost with hhost | hhost <;> rw [hhost] <;> exact ⟨by decide, by decide⟩
    · rw [if_neg hhost] at h
      cases h

def twoHostsSurroundings : Surroundings :=
  let lookup : Lookup := ⟨⟨fun _ => none, by intro _ _ h; cases h⟩, true, twoHosts keyID⟩
  ⟨ofUnix 1700000000, lookup, lookup, fun _ _ _ => .ok true⟩

/-- The ideal signature of the request with the key. -/
def keySignature : GoString :=
  lit "key" ++ signedText keyID (cloneRFC9421Request (signedPOST keyID activityDocument [])
    activityDocument (lit "https") (lit "relay.example"))

def keyMessage : Message := ⟨{ signedInput with keyID := keyID }, keySignature keyID⟩

def keyRelay : Relay GoString where
  caseTable := .identity
  library := idealLibrary (keyMessage keyID)
  legacy := ⟨fun _ _ => .error [], fun _ _ => .error [], fun _ _ => none⟩
  readPublicKey pem := .ok (some pem)
  verifier := some defaultVerifier
  maxActivityBytes := 1000

/-- The activity, signed with the key. -/
def keyRequest : Request :=
  { signedPOST keyID activityDocument (keySignature keyID) with body := some activityDocument }

def victimActor : GoString := lit "https://victim.example/a"

set_option maxRecDepth 20000 in
/-- The document at `https://evil.example/key` names the actor of another host as the owner of
its key, and the activity of that actor is accepted. -/
theorem accepted_foreign_key :
  decodeActivity (keyRelay (lit "https://evil.example/key"))
      (twoHostsSurroundings (lit "https://evil.example/key"))
        (keyRequest (lit "https://evil.example/key")) =
        .ok ({ actor := victimActor }, { id := victimActor }, activityDocument) ∧
    ¬ SameHost (keyRelay (lit "https://evil.example/key"))
        (twoHostsSurroundings (lit "https://evil.example/key"))
        (keyRequest (lit "https://evil.example/key"))
        { actor := victimActor } { id := victimActor }
  := by
  constructor
  · rfl
  · rintro ⟨keyID, host, hkeyID, hkey, hactor, -⟩
    have hevil : signatureKeyID (keyRelay (lit "https://evil.example/key"))
        (twoHostsSurroundings (lit "https://evil.example/key"))
        (keyRequest (lit "https://evil.example/key")) =
          some (lit "https://evil.example/key") := rfl
    cases hevil.symm.trans hkeyID
    rw [show normalizedRemoteHost _ (lit "https://evil.example/key") = some (lit "evil.example")
      from rfl] at hkey
    rw [show normalizedRemoteHost _ victimActor = some (lit "victim.example") from rfl] at hactor
    rw [← Option.some.inj hkey] at hactor
    exact absurd (Option.some.inj hactor) (by decide)

set_option maxRecDepth 20000 in
theorem accepted_sameHost_iff_ownKey :
  SameHost (keyRelay (lit "https://victim.example/key"))
    (twoHostsSurroundings (lit "https://victim.example/key"))
    (keyRequest (lit "https://victim.example/key"))
    { actor := victimActor } { id := victimActor }
  := by
  have hiff := accepted_sameHost_iff (keyRelay (lit "https://victim.example/key"))
    (twoHostsSurroundings (lit "https://victim.example/key"))
    (keyRequest (lit "https://victim.example/key")) { actor := victimActor }
    { id := victimActor } activityDocument rfl
  exact hiff.mpr (.inr ⟨⟨_, _, _, rfl, rfl, rfl, rfl⟩, rfl⟩)

end Inbound
