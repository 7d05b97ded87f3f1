import ActivityRelay.Inbound.Decode

/-!
# Accepted activities

What `decodeActivity` has checked when it accepts a request, for each of the two profiles. The
properties of accepted requests are derived from these descriptions, and not from the code of
the decoders.
-/

namespace Inbound

open Fallible GoString GoJson NetUrl HttpMessage HttpSignature Models Interaction

variable {K : Type} (relay : Relay K) (env : Surroundings)

/-! ### The RFC 9421 profile -/

/-- An accepted request of the RFC 9421 profile: it carries the message, the document was found
at the key ID, and the owner that the document names is the actor of the activity. -/
structure AcceptedRFC9421 (request : Request) (body : GoString) (activity : Activity) (actor : Actor)
    (message : Message) (document : Actor) : Prop where
  message_eq : ∃ verifier, relay.verifier = some verifier ∧
    signedMessage (E := ResolveError) relay.library verifier request = .ok message
  document_eq : (newActivityPubActorFromRemoteActor env.keyLookup message.input.keyID).1 = .ok document
  activity_eq : parseInboundActivity body = .ok activity
  activity_bound : ∃ identity,
    canonicalRFC9421ActorIdentity relay.caseTable activity.actor = .ok identity ∧
      canonicalRFC9421ActorIdentity relay.caseTable document.publicKey.owner = .ok identity
  actor_eq : (newActivityPubActorFromRemoteActor env.actorLookup activity.actor).1 = .ok actor
  actor_bound : ∃ identity,
    canonicalRFC9421ActorIdentity relay.caseTable actor.id = .ok identity ∧
      canonicalRFC9421ActorIdentity relay.caseTable document.publicKey.owner = .ok identity

/-- An accepted request of the legacy profile. -/
structure AcceptedLegacy (request : Request) (body : GoString) (activity : Activity) (actor : Actor)
    (signature : LegacySignature) (document : Actor) (publicKey : K) : Prop where
  signature_eq : relay.legacy.newVerifier env.now (withHost request) = .ok signature
  key_eq : resolveLegacyKey relay env signature.keyID = .ok (document, publicKey)
  verified : verifyLegacy relay publicKey (withHost request) signature = .ok ()
  digest_eq : (withHost request).header.get (lit "Digest") = legacyDigest relay body
  activity_eq : parseInboundActivity body = .ok activity
  key_bound : verifySignatureActorBinding relay signature.keyID document activity.actor = .ok ()
  actor_eq : (newActivityPubActorFromRemoteActor env.actorLookup activity.actor).1 = .ok actor
  actor_bound : verifyActivityActorDocument relay activity.actor actor = .ok ()

variable {relay env} {request : Request} {body : GoString} {activity : Activity} {actor : Actor}

/-- A resolved key comes from the document at the key ID, which has no white space around it. -/
theorem resolveRFC9421Key_ok {keyID : GoString} {key : RFC9421ResolvedKey K}
    (h : resolveRFC9421Key relay env keyID = .ok key) :
  ∃ document, (newActivityPubActorFromRemoteActor env.keyLookup (trimSpace keyID)).1 = .ok document ∧
    key.keyID = trimSpace keyID ∧ key.owner = document.publicKey.owner
  := by
  unfold resolveRFC9421Key at h
  dsimp only at h
  split_ifs at h
  split at h
  · cases h
  · rename_i document hdocument
    split_ifs at h with h₁ h₂ hmismatch h₃
    split at h
    · cases h
    · cases h
    · cases h
      exact ⟨document, hdocument, not_not.mp hmismatch, rfl⟩

theorem decodeRFC9421Activity_ok
    (h : decodeRFC9421Activity relay env request body = .ok (activity, actor)) :
  ∃ message document, AcceptedRFC9421 relay env request body activity actor message document
  := by
  unfold decodeRFC9421Activity at h
  cases hverifier : relay.verifier with
  | none =>
    rw [hverifier] at h
    cases h
  | some verifier =>
    rw [hverifier] at h
    simp only [bind_eq_ok, mapError_ok_iff, lookupActor] at h
    obtain ⟨v, hv, activity', hactivity, _, hbind, actor', hactor, _, hbind', heq⟩ := h
    cases heq
    obtain ⟨message, key, hmessage, hkey, hkeyID, rfl⟩ := verifyPOST_eval_ok hv
    obtain ⟨document, hdocument, hkeyID', howner⟩ := resolveRFC9421Key_ok hkey
    rw [← hkeyID', hkeyID] at hdocument
    have hbound := canonical_eq_of_bind hbind
    have hbound' := canonical_eq_of_bind hbind'
    simp only [Message.verification, howner] at hbound hbound'
    exact ⟨message, document, ⟨verifier, hverifier, hmessage⟩, hdocument, hactivity, hbound,
      hactor, hbound'⟩

/-! ### The legacy profile -/

theorem verifyLegacyDigest_eq_ok {u : Unit} :
  verifyLegacyDigest relay request body = .ok u ↔
    request.header.get (lit "Digest") = legacyDigest relay body
  := by
  unfold verifyLegacyDigest
  split_ifs with h
  · simp [h]
  · simpa using h

theorem decodeLegacyActivity_eq_ok :
  decodeLegacyActivity relay env request body = .ok (activity, actor) ↔
    ∃ signature document publicKey,
      AcceptedLegacy relay env request body activity actor signature document publicKey
  := by
  unfold decodeLegacyActivity
  simp only [bind_eq_ok, mapError_ok_iff, verifyLegacyDigest_eq_ok, lookupActor]
  constructor
  · rintro ⟨signature, hsignature, ⟨document, publicKey⟩, hkey, _, hverified, _, hdigest, activity',
      hactivity, _, hbound, actor', hactor, _, hbound', heq⟩
    cases heq
    exact ⟨signature, document, publicKey, hsignature, hkey, hverified, hdigest, hactivity, hbound,
      hactor, hbound'⟩
  · rintro ⟨signature, document, publicKey, h⟩
    exact ⟨signature, h.signature_eq, (document, publicKey), h.key_eq, (), h.verified, (),
      h.digest_eq, activity, h.activity_eq, (), h.key_bound, actor, h.actor_eq, (), h.actor_bound,
      rfl⟩

/-! ### Both profiles -/

theorem decodeActivity_eq_ok :
  decodeActivity relay env request = .ok (activity, actor, body) ↔
    readInboundActivityBody relay request = .ok body ∧
      decodeProfile relay env request body = .ok (activity, actor)
  := by
  unfold decodeActivity
  simp only [bind_eq_ok]
  constructor
  · rintro ⟨body', hbody, ⟨activity', actor'⟩, hdecode, heq⟩
    cases heq
    exact ⟨hbody, hdecode⟩
  · rintro ⟨hbody, hdecode⟩
    exact ⟨body, hbody, (activity, actor), hdecode, rfl⟩

end Inbound
