import ActivityRelay.Api.FanOut
import ActivityRelay.Interaction.Program
import ActivityRelay.Models.Activity

/-!
# What the relay does with an activity

The executors of the inbox: an activity is distributed, recorded, or answered. They are programs
that call Redis, the state of the relay and the queue. What they read of the state of the relay
is a given value.

The lemmas of the second part say which fan-outs an executor can make. Only the received bytes
of an activity with a document signature are forwarded; everything else that is fanned out is an
`Announce` of the relay.
-/

namespace Api

open GoString GoJson Interaction Models NetUrl

/-! ### Calls -/

/-- What is put into a task: the bytes that were received, or an activity of the relay. -/
inductive Payload
  | received (body : GoString)
  | authored (activity : Activity)
  | reply (reply : ActivityReply)

/-- A request to follow the relay that an operator has to accept. -/
structure PendingRequest where
  inboxURL : GoString
  activityID : GoString
  type : GoString
  actor : GoString
  object : GoString

/-- The calls of the executors. -/
inductive ApiOp
  | newUUID
  | setNX (key token : GoString)
  | compareDel (key token : GoString)
  | recordPublisherActivity (publisher : Publisher)
  | enqueueActivityExcept (subscriptions : List Subscriber) (payload : Payload)
      (excludedDomains : List GoString)
  | enqueueRegisterActivity (inboxURL : GoString) (payload : Payload)
  | setPending (domain : GoString) (request : PendingRequest)
  | addSubscriber (subscriber : Subscriber)
  | addFollowerChecked (follower : Follower)
  | delSubscriber (domain : GoString)
  | delFollower (domain : GoString)
  | updateFollowerStatusChecked (domain : GoString) (mutuallyFollow : Bool)

/-- The replies. An optional text is an error, and the answer to `SETNX` may be one. -/
abbrev ApiOp.Reply : ApiOp → Type
  | newUUID => GoString
  | setNX _ _ => Option Bool
  | compareDel _ _ => Unit
  | recordPublisherActivity _ => Option GoString
  | enqueueActivityExcept _ _ _ => Bool
  | enqueueRegisterActivity _ _ => Unit
  | setPending _ _ => Unit
  | addSubscriber _ => Unit
  | addFollowerChecked _ => Option GoString
  | delSubscriber _ => Unit
  | delFollower _ => Unit
  | updateFollowerStatusChecked _ _ => Option GoString

abbrev ApiM := Prog ApiOp ApiOp.Reply

namespace ApiM

def newUUID : ApiM GoString := .op ApiOp.newUUID

def setNX (key token : GoString) : ApiM (Option Bool) := .op (ApiOp.setNX key token)

def compareDel (key token : GoString) : ApiM Unit := .op (ApiOp.compareDel key token)

def record (publisher : Publisher) : ApiM (Option GoString) :=
  .op (ApiOp.recordPublisherActivity publisher)

def enqueue (subscriptions : List Subscriber) (payload : Payload)
    (excludedDomains : List GoString) : ApiM Bool :=
  .op (ApiOp.enqueueActivityExcept subscriptions payload excludedDomains)

def enqueueRegister (inboxURL : GoString) (payload : Payload) : ApiM Unit :=
  .op (ApiOp.enqueueRegisterActivity inboxURL payload)

def setPending (domain : GoString) (request : PendingRequest) : ApiM Unit :=
  .op (ApiOp.setPending domain request)

def addSubscriber (subscriber : Subscriber) : ApiM Unit := .op (ApiOp.addSubscriber subscriber)

def addFollower (follower : Follower) : ApiM (Option GoString) :=
  .op (ApiOp.addFollowerChecked follower)

def delSubscriber (domain : GoString) : ApiM Unit := .op (ApiOp.delSubscriber domain)

def delFollower (domain : GoString) : ApiM Unit := .op (ApiOp.delFollower domain)

def updateFollowerStatus (domain : GoString) (mutuallyFollow : Bool) : ApiM (Option GoString) :=
  .op (ApiOp.updateFollowerStatusChecked domain mutuallyFollow)

end ApiM

open ApiM

/-- What the executors read: the actor and the state of the relay, and the policy if there is a
configuration. -/
structure Relay where
  caseTable : CaseTable
  sha256 : GoString → GoString
  relayActor : Actor
  policy : Option PublicAddressDistributionPolicy
  state : RelayState

/-! ### Actors -/

/-- `contains`, for the object of an activity. An array of strings is not decoded as such. -/
def objectIs (object : Option Json) (key : GoString) : Bool :=
  match object with
  | some (.string s) => s = key
  | _ => false

section Actors

variable (relay : Relay) (actorID : Option URL)

def normalizedActorDomain : GoString :=
  match actorID with
  | none => []
  | some url => toLower relay.caseTable (trimSuffix 0x2E url.hostname)

def isActorLimited : Bool :=
  relay.state.isLimited (normalizedActorDomain relay actorID)

def isActorBlocked : Bool :=
  relay.state.isBlocked (normalizedActorDomain relay actorID)

def isActorFollowers : Bool :=
  relay.state.isFollower (normalizedActorDomain relay actorID)

def isActorSubscribersOrFollowers : Bool :=
  relay.state.isSubscriberOrFollower (normalizedActorDomain relay actorID)

def isActorAbleToBeFollower (actor : Actor) : Bool :=
  match parse actor.id with
  | none => false
  | some actorID =>
      if normalizedActorDomain relay (some actorID) = [] then false
      else if actor.type = lit "Application" ∨ actor.type = lit "Service" then true
      else
        let path := trimSuffix 0x2F actorID.path
        path = lit "/relay" || path = lit "/friendica"

/-- An actor of a blocked or limited domain may not relay. -/
def isActorAbleToRelay (actor : Actor) : Bool :=
  match parse actor.id with
  | none => false
  | some actorID =>
      if normalizedActorDomain relay (some actorID) = [] then false
      else if isActorBlocked relay (some actorID) || isActorLimited relay (some actorID) then false
      else if relay.state.relayConfig.personOnly && actor.type ≠ lit "Person" then false
      else true

def isToMyFollower (entries : List GoString) : Bool :=
  entries.any (fun entry =>
    (lit "/followers").isSuffixOf entry &&
      relay.state.followers.any (fun follower => follower.actorID ++ lit "/followers" = entry))

end Actors

def publisherInbox (actor : Actor) : GoString :=
  match actor.endpoints with
  | some endpoints => if endpoints.sharedInbox ≠ [] then endpoints.sharedInbox else actor.inbox
  | none => actor.inbox

/-! ### Followers -/

section Followers

variable (relay : Relay)

def executeMutuallyFollow (follower : Follower) : ApiM Unit := do
  if isActorLimited relay (parse follower.actorID) then
    pure ()
  else
    let uuid ← newUUID
    enqueueRegister follower.inboxURL
      (.authored (newActivityPubActivity uuid relay.relayActor [follower.actorID]
        follower.actorID "Follow"))

variable (activity : Activity) (actor : Actor)

/-- The request that is kept for the operator. -/
def pendingFollow (inboxURL object : GoString) :
    PendingRequest where
  inboxURL := inboxURL
  activityID := activity.id
  type := lit "Follow"
  actor := actor.id
  object := object

def onlyFollowed : GoString := lit "only Public or the relay actor is allowed to be followed"

def onlyUnfollowed : GoString := lit "only Public or the relay actor is allowed to be unfollowed"

/-- A `Follow` of the public collection. It needs the host and the shared inbox of the actor; if
one of them is missing there is a panic, `none`, after the answer has been queued. -/
def followPublic (actorID : Option URL) :
    ApiM (Option (Except GoString Unit)) := do
  if relay.state.relayConfig.manuallyAccept then
    match actorID, actor.endpoints with
    | some url, some endpoints =>
        setPending url.host
          (pendingFollow activity actor endpoints.sharedInbox activityStreamsPublicAddress)
        pure (some (.ok ()))
    | _, _ => pure none
  else
    let uuid ← newUUID
    enqueueRegister actor.inbox (.reply (activity.generateReply uuid relay.relayActor "Accept"))
    match actorID, actor.endpoints with
    | some url, some endpoints =>
        addSubscriber ⟨url.host, endpoints.sharedInbox, activity.id, actor.id⟩
        pure (some (.ok ()))
    | _, _ => pure none

/-- A `Follow` of the relay. -/
def followRelay (actorID : URL) :
    ApiM (Option (Except GoString Unit)) := do
  if relay.state.relayConfig.manuallyAccept then
    setPending actorID.host (pendingFollow activity actor actor.inbox relay.relayActor.id)
    pure (some (.ok ()))
  else
    let follower : Follower := ⟨actorID.host, actor.inbox, activity.id, actor.id, false⟩
    match ← addFollower follower with
    | some e => pure (some (.error (lit "store follower: " ++ e)))
    | none =>
        let uuid ← newUUID
        enqueueRegister actor.inbox (.reply (activity.generateReply uuid relay.relayActor "Accept"))
        executeMutuallyFollow relay follower
        pure (some (.ok ()))

/-- `executeFollowing`, with `none` for a panic. -/
def executeFollowing :
    ApiM (Option (Except GoString Unit)) :=
  let actorID := parse actor.id
  if isActorBlocked relay actorID then
    pure (actorID.map (fun url => .error (url.host ++ lit " is blocked")))
  else if objectIs activity.object activityStreamsPublicAddress then
    followPublic relay activity actor actorID
  else if objectIs activity.object relay.relayActor.id && isActorAbleToBeFollower relay actor then
    match actorID with
    | some url => followRelay relay activity actor url
    | none => pure none
  else pure (some (.error onlyFollowed))

/-- `executeUnfollowing`, with `none` for a panic. -/
def executeUnfollowing :
    ApiM (Option (Except GoString Unit)) :=
  if objectIs activity.object activityStreamsPublicAddress then
    match parse actor.id with
    | none => pure none
    | some actorID => do
        delSubscriber actorID.host
        pure (some (.ok ()))
  else if objectIs activity.object relay.relayActor.id && isActorAbleToBeFollower relay actor then
    match parse actor.id with
    | none => pure none
    | some actorID => do
        delFollower actorID.host
        pure (some (.ok ()))
  else pure (some (.error onlyUnfollowed))

/-- `finalizeMutuallyFollow`, with `none` for a panic. -/
def finalizeMutuallyFollow (activityType : GoString) :
    ApiM (Option Unit) :=
  let actorID := parse actor.id
  if activity.actor = relay.relayActor.id && objectIs activity.object actor.id &&
      isActorFollowers relay actorID then
    match actorID with
    | none => pure none
    | some url => do
        let _ ← updateFollowerStatus url.host (activityType = lit "Accept")
        pure (some ())
  else pure (some ())

def executeRejectRequest : ApiM Unit := do
  let uuid ← newUUID
  enqueueRegister actor.inbox
    (.reply (activity.generateReply uuid relay.relayActor "Reject"))

end Followers

/-! ### Publishers -/

def invalidActorID : GoString := lit "activity actor has an invalid ID"

section Publishers

variable (relay : Relay)

/-- The checks that come first in every executor: the domain of the actor, which is not
blocked. -/
def checkActor (actor : Actor) : Except GoString GoString :=
  match parse actor.id with
  | none => .error invalidActorID
  | some actorID =>
      let domain := normalizedActorDomain relay (some actorID)
      if domain = [] then .error invalidActorID
      else if isActorBlocked relay (some actorID) then .error (domain ++ lit " is blocked")
      else .ok domain

/-- `RecordPublisherActivity` of the state: nothing is stored for a domain that is empty in the
form of the state. -/
def storePublisher (publisher : Publisher) : ApiM (Except GoString Unit) :=
  if normalizeStateDomain relay.caseTable publisher.domain = [] then
    pure (.error (lit "publisher domain is empty"))
  else do
    match ← record publisher with
    | some e => pure (.error e)
    | none => pure (.ok ())

variable (activity : Activity)

/-- The record of an activity. -/
def publisherRecord (actor : Actor) (domain : GoString) : Publisher where
  domain := domain
  actorID := actor.id
  inboxURL := publisherInbox actor
  firstSeen := []
  lastSeen := []
  lastActivityID := activity.id
  lastActivityType := activity.type
  activityCount := 0

/-- Only an actor that may relay is recorded. -/
def recordPublisherActivity (actor : Actor) : ApiM (Except GoString Unit) :=
  match checkActor relay actor with
  | .error e => pure (.error e)
  | .ok domain =>
      if isActorAbleToRelay relay actor = false then pure (.ok ())
      else storePublisher relay (publisherRecord activity actor domain)

/-- The `Announce` of the relay for an object. -/
def announce (uuid object : GoString) : Activity :=
  newActivityPubActivity uuid relay.relayActor [relay.relayActor.followers] object "Announce"

def executeEmbeddedAnnounceActivity (actor : Actor) :
    ApiM (Except GoString Unit) :=
  match checkActor relay actor with
  | .error e => pure (.error e)
  | .ok sourceDomain =>
      if isActorAbleToRelay relay actor = false then pure (.ok ())
      else
        match activity.unwrapInnerObjectId with
        | none => pure (.error (lit "object not has id"))
        | some objectID => do
            match ← recordPublisherActivity relay activity actor with
            | .error e => pure (.error e)
            | .ok () =>
                let uuid ← newUUID
                let _ ← enqueue relay.state.subscribersAndFollowers
                  (.authored (announce relay uuid objectID)) [sourceDomain]
                pure (.ok ())

/-- A document signature, as far as `hasMastodonLinkedDataSignature` reads it. -/
structure DocumentSignature where
  type : GoString := []
  creator : GoString := []
  created : GoString := []
  signatureValue : GoString := []

def decodeDocumentSignature : Decoder DocumentSignature :=
  decodeStruct [
    field "type" decodeString DocumentSignature.type (fun s v => { s with type := v }),
    field "creator" decodeString DocumentSignature.creator (fun s v => { s with creator := v }),
    field "created" decodeString DocumentSignature.created (fun s v => { s with created := v }),
    field "signatureValue" decodeString DocumentSignature.signatureValue
      (fun s v => { s with signatureValue := v })]

/-- The raw signature of a document, which may be `null`. -/
def decodeEnvelope : Decoder (Option Json) :=
  decodeStruct [field "signature" (fun v _ => (some v, true)) id (fun _ v => v)]

def hasMastodonLinkedDataSignature (body : GoString) : Bool :=
  match unmarshal decodeEnvelope body none with
  | (some .null, true) => false
  | (some v, true) =>
      match decodeDocumentSignature v {} with
      | (signature, true) =>
          signature.type = lit "RsaSignature2017" && trimSpace signature.creator ≠ [] &&
            trimSpace signature.created ≠ [] && trimSpace signature.signatureValue ≠ []
      | (_, false) => false
  | _ => false

/-- With a document signature the received bytes are for the subscribers, and the announcement for
the others. -/
def executeRelayActivity (actor : Actor) (body : GoString) :
    ApiM (Except GoString Unit) :=
  match checkActor relay actor with
  | .error e => pure (.error e)
  | .ok sourceDomain =>
      if isActorAbleToRelay relay actor = false then pure (.ok ())
      else do
        match ← recordPublisherActivity relay activity actor with
        | .error e => pure (.error e)
        | .ok () =>
            let preserveOriginal := hasMastodonLinkedDataSignature body
            if preserveOriginal then
              let _ ← enqueue relay.state.subscribers (.received body) [sourceDomain]
            match activity.unwrapInnerObjectId with
            | none => pure (.ok ())
            | some objectID =>
                let uuid ← newUUID
                if preserveOriginal then
                  let _ ← enqueue (relay.state.followers.map Follower.toSubscriber)
                    (.authored (announce relay uuid objectID))
                    (sourceDomain :: relay.state.subscribers.map Subscriber.domain)
                else
                  let _ ← enqueue relay.state.subscribersAndFollowers
                    (.authored (announce relay uuid objectID)) [sourceDomain]
                pure (.ok ())

/-! ### Canonical activities -/

def canonicalRelayKey (canonicalID : GoString) : GoString :=
  lit "relay:canonical:" ++ HttpSignature.hexEncode (relay.sha256 (trimSpace canonicalID))

/-- `reserveCanonicalRelayActivity`: the key and the token of the reservation if it is made. An
error and a refusal end the same way. -/
def reserveCanonicalRelayActivity (canonicalID : GoString) :
    ApiM (Option (GoString × GoString)) :=
  if trimSpace canonicalID = [] then pure none
  else do
    let token ← newUUID
    match ← setNX (canonicalRelayKey relay canonicalID) token with
    | some true => pure (some (canonicalRelayKey relay canonicalID, token))
    | _ => pure none

def releaseCanonicalRelayActivity (reservation : GoString × GoString) : ApiM Unit :=
  if reservation.1 = [] ∨ reservation.2 = [] then pure ()
  else compareDel reservation.1 reservation.2

/-- The part of `executeAnnounceActivity` after the reservation, with the fan-out that it leaves
running. -/
def announceReserved (actor : Actor) (sourceRelayDomain originDomain : GoString)
    (reservation : GoString × GoString) : ApiM (Except GoString Unit) := do
  match ← recordPublisherActivity relay activity actor with
  | .error e =>
      releaseCanonicalRelayActivity reservation
      pure (.error e)
  | .ok () =>
      let uuid ← newUUID
      let queued ← enqueue relay.state.subscribersAndFollowers
        (.authored (announce relay uuid activity.id)) [sourceRelayDomain, originDomain]
      if queued = false then releaseCanonicalRelayActivity reservation
      pure (.ok ())

/-- An activity is announced only if its ID can be reserved. -/
def executeAnnounceActivity (actor : Actor) (sourceRelayDomain : GoString) :
    ApiM (Except GoString Unit) :=
  match checkActor relay actor with
  | .error e => pure (.error e)
  | .ok originDomain =>
      if isActorAbleToRelay relay actor = false then pure (.ok ())
      else do
        match ← reserveCanonicalRelayActivity relay activity.id with
        | none => pure (.ok ())
        | some reservation =>
            announceReserved relay activity actor sourceRelayDomain originDomain reservation

end Publishers

/-! ### Fan-outs -/

section FanOuts

variable {relay : Relay} {activity : Activity} {actor : Actor}
  {body sourceRelayDomain canonicalID : GoString} {o : ApiOp} {reservation : GoString × GoString}

/-- An actor that may relay passes the checks. -/
theorem checkActor_of_able (h : isActorAbleToRelay relay actor = true) :
  checkActor relay actor = .ok (normalizedActorDomain relay (parse actor.id))
  := by
  unfold isActorAbleToRelay at h
  unfold checkActor
  cases hparse : parse actor.id with
  | none => simp [hparse] at h
  | some url =>
    simp only [hparse] at h
    split_ifs at h with hempty hpolicy hperson
    rw [Bool.or_eq_true, not_or, Bool.not_eq_true] at hpolicy
    simp [hempty, hpolicy.1]

/-- An actor that is blocked may not relay. -/
theorem not_able_of_blocked (h : isActorBlocked relay (parse actor.id) = true) :
  isActorAbleToRelay relay actor = false
  := by
  unfold isActorAbleToRelay
  cases hparse : parse actor.id with
  | none => rfl
  | some url =>
    rw [hparse] at h
    simp [h]

/-- An executor goes on if the actor passes the checks and may relay. -/
theorem makes_checked {f : GoString → ApiM (Except GoString Unit)} {P : GoString → Prop}
    (hf : ∀ domain, checkActor relay actor = .ok domain → isActorAbleToRelay relay actor = true →
      ((f domain).Makes o ↔ P domain)) :
  (match checkActor relay actor with
    | .error e => pure (.error e)
    | .ok domain => if isActorAbleToRelay relay actor = false then pure (.ok ()) else f domain :
    ApiM (Except GoString Unit)).Makes o ↔
      isActorAbleToRelay relay actor = true ∧
        ∃ domain, checkActor relay actor = .ok domain ∧ P domain
  := by
  cases hcheck : checkActor relay actor with
  | error e => simp
  | ok domain =>
    cases hable : isActorAbleToRelay relay actor with
    | false => simp
    | true => simp [hf domain hcheck hable]

/-- For an actor that may relay, the record is what is left of the executor. -/
theorem recordPublisherActivity_of_able {domain : GoString}
    (hcheck : checkActor relay actor = .ok domain) (hable : isActorAbleToRelay relay actor = true) :
  recordPublisherActivity relay activity actor =
    storePublisher relay (publisherRecord activity actor domain)
  := by
  simp [recordPublisherActivity, hcheck, hable]

/-- What is called after an actor that may relay has been recorded, if nothing of it is called
after an error. Without a domain for the record there is nothing but the error. -/
theorem makes_record_bind {α : Type} {f : Except GoString Unit → ApiM α} {domain : GoString}
    (hcheck : checkActor relay actor = .ok domain) (hable : isActorAbleToRelay relay actor = true)
    (herror : ∀ e, ¬ (f (.error e)).Makes o) :
  (recordPublisherActivity relay activity actor >>= f).Makes o ↔
    normalizeStateDomain relay.caseTable domain ≠ [] ∧
      (.recordPublisherActivity (publisherRecord activity actor domain) = o ∨
        (f (.ok ())).Makes o)
  := by
  rw [recordPublisherActivity_of_able hcheck hable, storePublisher]
  by_cases hdomain : normalizeStateDomain relay.caseTable domain = []
  · simp [publisherRecord, hdomain, Prog.makes_bind, herror]
  · simp [publisherRecord, hdomain, record, Prog.makes_bind, Option.exists, herror]

/-- The calls of the loop guard, and of a new identifier. -/
def ApiOp.guards : ApiOp → Bool
  | newUUID | setNX _ _ | compareDel _ _ => true
  | _ => false

theorem newUUID_ne_of_not_guards (ho : o.guards = false) :
  ApiOp.newUUID ≠ o
  := by
  rintro rfl
  cases ho

theorem guards_of_reserve (h : (reserveCanonicalRelayActivity relay canonicalID).Makes o) :
  o.guards = true
  := by
  unfold reserveCanonicalRelayActivity at h
  split at h
  · exact absurd h (Prog.makes_pure _)
  · simp only [newUUID, setNX, Prog.op_bind, Prog.makes_call, Option.exists, Bool.exists_bool,
      Prog.makes_pure, or_false] at h
    obtain rfl | ⟨token, rfl⟩ := h
    · rfl
    · rfl

theorem guards_of_release (h : (releaseCanonicalRelayActivity reservation).Makes o) :
  o.guards = true
  := by
  unfold releaseCanonicalRelayActivity at h
  split at h
  · exact absurd h (Prog.makes_pure _)
  · obtain rfl := Prog.makes_op.mp h
    rfl

theorem returns_reserveCanonicalRelayActivity :
  (reserveCanonicalRelayActivity relay canonicalID).Returns (some reservation) ↔
    trimSpace canonicalID ≠ [] ∧ canonicalRelayKey relay canonicalID = reservation.1
  := by
  unfold reserveCanonicalRelayActivity
  by_cases hempty : trimSpace canonicalID = []
  · simp [hempty]
  · simp [hempty, newUUID, setNX, Option.exists, Prod.ext_iff]

/-- Once it is reserved, an activity is recorded and announced. -/
theorem makes_announceReserved {domain : GoString} (hcheck : checkActor relay actor = .ok domain)
    (hable : isActorAbleToRelay relay actor = true) (ho : o.guards = false) :
  (announceReserved relay activity actor sourceRelayDomain domain reservation).Makes o ↔
    normalizeStateDomain relay.caseTable domain ≠ [] ∧
      (.recordPublisherActivity (publisherRecord activity actor domain) = o ∨
        ∃ uuid, .enqueueActivityExcept relay.state.subscribersAndFollowers
          (.authored (announce relay uuid activity.id)) [sourceRelayDomain, domain] = o)
  := by
  have hrelease : ¬ (releaseCanonicalRelayActivity reservation).Makes o := by
    intro h
    rw [guards_of_release h] at ho
    cases ho
  have huuid := newUUID_ne_of_not_guards ho
  unfold announceReserved
  rw [makes_record_bind hcheck hable]
  · simp [Prog.makes_bind, hrelease, newUUID, enqueue, huuid]
  · intro e
    simp [Prog.makes_bind, hrelease]

/-- Apart from the calls of the loop guard, `executeAnnounceActivity` records and announces the
activity if its actor may relay and can be recorded, and it has an ID. -/
theorem makes_executeAnnounceActivity (ho : o.guards = false) :
  (executeAnnounceActivity relay activity actor sourceRelayDomain).Makes o ↔
    isActorAbleToRelay relay actor = true ∧
      ∃ domain, checkActor relay actor = .ok domain ∧ trimSpace activity.id ≠ [] ∧
        normalizeStateDomain relay.caseTable domain ≠ [] ∧
        (.recordPublisherActivity (publisherRecord activity actor domain) = o ∨
          ∃ uuid, .enqueueActivityExcept relay.state.subscribersAndFollowers
            (.authored (announce relay uuid activity.id)) [sourceRelayDomain, domain] = o)
  := by
  have hreserve : ¬ (reserveCanonicalRelayActivity relay activity.id).Makes o := by
    intro h
    rw [guards_of_reserve h] at ho
    cases ho
  apply makes_checked
  intro domain hcheck hable
  simp [Prog.makes_bind, hreserve, Option.exists, returns_reserveCanonicalRelayActivity,
    makes_announceReserved hcheck hable ho]

/-- `executeEmbeddedAnnounceActivity` announces the object to all receivers. -/
theorem makes_executeEmbeddedAnnounceActivity (ho : o.guards = false) :
  (executeEmbeddedAnnounceActivity relay activity actor).Makes o ↔
    isActorAbleToRelay relay actor = true ∧
      ∃ domain, checkActor relay actor = .ok domain ∧
        ∃ objectID, activity.unwrapInnerObjectId = some objectID ∧
        normalizeStateDomain relay.caseTable domain ≠ [] ∧
        (.recordPublisherActivity (publisherRecord activity actor domain) = o ∨
          ∃ uuid, .enqueueActivityExcept relay.state.subscribersAndFollowers
            (.authored (announce relay uuid objectID)) [domain] = o)
  := by
  have huuid := newUUID_ne_of_not_guards ho
  apply makes_checked
  intro domain hcheck hable
  cases hobject : activity.unwrapInnerObjectId with
  | none => simp
  | some objectID =>
    dsimp only
    rw [makes_record_bind hcheck hable]
    · simp [newUUID, enqueue, huuid]
    · exact fun e => Prog.makes_pure _

/-- The fan-outs of `executeRelayActivity` after the activity has been recorded: the received
bytes if they have a document signature, and an announcement if the object has an ID. -/
def relayFanOuts (relay : Relay) (activity : Activity) (body sourceDomain : GoString) (o : ApiOp) :
    Prop :=
  hasMastodonLinkedDataSignature body = true ∧
      .enqueueActivityExcept relay.state.subscribers (.received body) [sourceDomain] = o ∨
    ∃ objectID uuid, activity.unwrapInnerObjectId = some objectID ∧
      (if hasMastodonLinkedDataSignature body then
        .enqueueActivityExcept (relay.state.followers.map Follower.toSubscriber)
          (.authored (announce relay uuid objectID))
          (sourceDomain :: relay.state.subscribers.map Subscriber.domain)
      else
        .enqueueActivityExcept relay.state.subscribersAndFollowers
          (.authored (announce relay uuid objectID)) [sourceDomain]) = o

theorem makes_executeRelayActivity (ho : o.guards = false) :
  (executeRelayActivity relay activity actor body).Makes o ↔
    isActorAbleToRelay relay actor = true ∧
      ∃ domain, checkActor relay actor = .ok domain ∧
        normalizeStateDomain relay.caseTable domain ≠ [] ∧
        (.recordPublisherActivity (publisherRecord activity actor domain) = o ∨
          relayFanOuts relay activity body domain o)
  := by
  have huuid := newUUID_ne_of_not_guards ho
  apply makes_checked
  intro domain hcheck hable
  refine (makes_record_bind hcheck hable (fun e => ?_)).trans (and_congr_right' (or_congr_right ?_))
  · exact Prog.makes_pure _
  cases hobject : activity.unwrapInnerObjectId with
  | none =>
    cases hld : hasMastodonLinkedDataSignature body with
    | false => simp [relayFanOuts, hld, hobject]
    | true => simp [relayFanOuts, hld, hobject, enqueue]
  | some objectID =>
    cases hld : hasMastodonLinkedDataSignature body with
    | false | true => simp [relayFanOuts, hld, hobject, newUUID, enqueue, huuid]

/-- The calls that fan an activity out. -/
def ApiOp.fansOut : ApiOp → Bool
  | enqueueActivityExcept _ _ _ => true
  | _ => false

/-- Nothing is fanned out. -/
abbrev FansNothingOut {α : Type} (p : ApiM α) : Prop := p.AllCalls (fun o => o.fansOut = false)

theorem recordPublisherActivity_fansNothingOut (activity : Activity) (actor : Actor) :
  FansNothingOut (recordPublisherActivity relay activity actor)
  := by
  unfold recordPublisherActivity storePublisher
  split
  · exact Prog.allCalls_pure _
  · split
    · exact Prog.allCalls_pure _
    · split
      · exact Prog.allCalls_pure _
      · refine ⟨rfl, fun r => ?_⟩
        cases r with
        | none | some => exact Prog.allCalls_pure _

theorem executeRejectRequest_fansNothingOut (activity : Activity) (actor : Actor) :
  FansNothingOut (executeRejectRequest relay activity actor)
  := ⟨rfl, fun _ => ⟨rfl, fun _ => trivial⟩⟩

theorem executeMutuallyFollow_fansNothingOut (follower : Follower) :
  FansNothingOut (executeMutuallyFollow relay follower)
  := by
  unfold executeMutuallyFollow
  split
  · exact Prog.allCalls_pure _
  · exact ⟨rfl, fun _ => ⟨rfl, fun _ => trivial⟩⟩

theorem followPublic_fansNothingOut (activity : Activity) (actor : Actor) (actorID : Option URL) :
  FansNothingOut (followPublic relay activity actor actorID)
  := by
  unfold followPublic
  split
  · split
    · exact ⟨rfl, fun _ => trivial⟩
    · exact Prog.allCalls_pure _
  · refine ⟨rfl, fun uuid => ⟨rfl, fun _ => ?_⟩⟩
    split
    · exact ⟨rfl, fun _ => trivial⟩
    · exact Prog.allCalls_pure _

theorem followRelay_fansNothingOut (activity : Activity) (actor : Actor) (actorID : URL) :
  FansNothingOut (followRelay relay activity actor actorID)
  := by
  unfold followRelay
  split
  · exact ⟨rfl, fun _ => trivial⟩
  · refine ⟨rfl, fun r => ?_⟩
    cases r with
    | some e => exact Prog.allCalls_pure _
    | none =>
      refine ⟨rfl, fun _ => ⟨rfl, fun _ => ?_⟩⟩
      exact (executeMutuallyFollow_fansNothingOut _).bind (fun _ => Prog.allCalls_pure _)

theorem executeFollowing_fansNothingOut (activity : Activity) (actor : Actor) :
  FansNothingOut (executeFollowing relay activity actor)
  := by
  unfold executeFollowing
  dsimp only
  split
  · exact Prog.allCalls_pure _
  · split
    · exact followPublic_fansNothingOut activity actor _
    · split
      · split
        · exact followRelay_fansNothingOut activity actor _
        · exact Prog.allCalls_pure _
      · exact Prog.allCalls_pure _

theorem executeUnfollowing_fansNothingOut (activity : Activity) (actor : Actor) :
  FansNothingOut (executeUnfollowing relay activity actor)
  := by
  unfold executeUnfollowing
  split
  · split
    · exact Prog.allCalls_pure _
    · exact ⟨rfl, fun _ => trivial⟩
  · split
    · split
      · exact Prog.allCalls_pure _
      · exact ⟨rfl, fun _ => trivial⟩
    · exact Prog.allCalls_pure _

theorem finalizeMutuallyFollow_fansNothingOut (activity : Activity) (actor : Actor)
    (activityType : GoString) :
  FansNothingOut (finalizeMutuallyFollow relay activity actor activityType)
  := by
  unfold finalizeMutuallyFollow
  dsimp only
  split
  · split
    · exact Prog.allCalls_pure _
    · exact ⟨rfl, fun _ => trivial⟩
  · exact Prog.allCalls_pure _

end FanOuts

/-! ### An example -/

/-- A relay with the subscribers `a` and `b` that blocks some domains. -/
def exampleRelay (blocked : List GoString) : Relay where
  caseTable := CaseTable.identity
  sha256 := id
  relayActor := { id := lit "https://relay/actor" }
  policy := none
  state :=
    { relayConfig := ⟨false, false⟩
      limitedDomains := []
      blockedDomains := blocked
      subscribers := exampleSubscribers
      followers := []
      publishers := []
      subscribersAndFollowers := exampleSubscribers
      publishersByDomain := fun _ => none }

/-- The actor of the subscriber `b`. -/
def exampleActor : Actor := { id := lit "https://b/u" }

/-- A body with a document signature. -/
def signedBody : GoString :=
  lit "\x7b\"signature\":\x7b\"type\":\"RsaSignature2017\",\"creator\":\"k\","
    ++ lit "\"created\":\"t\",\"signatureValue\":\"v\"\x7d\x7d"

end Api
