import ActivityRelay.Api.Resolver

/-!
# The inbox

`handleInbox` decides by the addresses of a verified activity what is done with it. An activity
for the public is distributed; one for the relay or for the followers of a follower may announce
an activity of somebody else, which the relay fetches; any other one can only follow and unfollow.

The received bytes are fanned out only if the activity is for the public and has a document
signature, and only to subscribers. A referenced announcement is the one path that does not
look at the verified actor: neither that it is blocked, nor whether the documents that are
fetched belong together.
-/

namespace Api

open GoString GoJson Interaction Models NetUrl ApiM

/-! ### Remote activities -/

/-- What the remote hosts answer: to the request for the activity, and to the lookup of its
actor. -/
structure Remote where
  activityNetwork : Network
  actorLookup : Lookup

def newActivityPubActivityFromRemoteActivity (signer : Bool) (network : Network)
    (url : GoString) : Except FetchError Activity :=
  match fetchRemoteJSON signer network url decodeActivityDocument {} with
  | (_, .error e) => .error e
  | (activity, .ok _) => .ok activity

def fetchOriginalActivityFromURL (remote : Remote) (address : GoString) :
    Except FetchError (Activity × Actor) :=
  match newActivityPubActivityFromRemoteActivity remote.actorLookup.signer remote.activityNetwork
      address with
  | .error e => .error e
  | .ok activity =>
      match (newActivityPubActorFromRemoteActor remote.actorLookup activity.actor).1 with
      | .error e => .error e
      | .ok actor => .ok (activity, actor)

/-! ### The handler -/

/-- The responses of the inbox. -/
inductive InboxResponse
  | status (code : ℕ) (text : GoString)
  | fetchFailed (error : FetchError)
  | collection (id : GoString)
  | methodNotAllowed
  | panicked
  deriving DecidableEq

def accepted : InboxResponse := .status 202 []

/-- The response to an executor that may return an error. -/
def answer : Except GoString Unit → InboxResponse
  | .error e => .status 401 e
  | .ok () => accepted

section Handler

variable (relay : Relay) (remote : Remote)

/-- `configuredPublicAddressDistributionPolicy`. -/
def configuredPolicy : PublicAddressDistributionPolicy :=
  relay.policy.getD .publicAndUnlisted

variable (activity : Activity)

/-- `shouldDistributeByPublicAddress`, with the configured policy. -/
def distributes : Bool :=
  (configuredPolicy relay).allows activity.toAddresses activity.ccAddresses

/-- `isPublicOnlyInCCExcluded`, with the configured policy. -/
def isPublicOnlyInCCExcluded : Bool :=
  (configuredPolicy relay).excludesPublicOnlyInCC activity.toAddresses activity.ccAddresses

/-- The types that are relayed as they are. -/
def relayedTypes : List GoString := [lit "Create", lit "Update", lit "Delete", lit "Move"]

variable (actor : Actor)

def executePolicyExcludedPublicActivity :
    ApiM (Except GoString Unit) :=
  if activity.type ∈ relayedTypes ∨ activity.type = lit "Announce" then
    recordPublisherActivity relay activity actor
  else pure (.ok ())

def shouldFanOutPublicAnnounce : Bool :=
  if activity.type ≠ lit "Announce" then false
  else
    match activity.object with
    | some (.object _) =>
        match activity.unwrapInnerObjectId with
        | none => false
        | some objectID =>
            match parse activity.actor, parse objectID with
            | some actorURL, some objectURL =>
                let actorDomain := normalizedActorDomain relay (some actorURL)
                actorDomain ≠ [] && actorDomain = normalizedActorDomain relay (some objectURL)
            | _, _ => false
    | _ => false

def executePublicAnnounce : ApiM (Except GoString Unit) :=
  if shouldFanOutPublicAnnounce relay activity then
    executeEmbeddedAnnounceActivity relay activity actor
  else recordPublisherActivity relay activity actor

/-- An activity for the public. -/
def handlePublic (body : GoString) : ApiM InboxResponse := do
  if activity.type ∈ relayedTypes then
    let r ← executeRelayActivity relay activity actor body
    pure (answer r)
  else if activity.type = lit "Announce" then
    let r ← executePublicAnnounce relay activity actor
    pure (answer r)
  else pure accepted

/-- The end of a request to follow or to unfollow; a refusal is answered by a `Reject`. -/
def finishRequest :
    Option (Except GoString Unit) → ApiM InboxResponse
  | none => pure .panicked
  | some (.ok ()) => pure accepted
  | some (.error _) => do
      executeRejectRequest relay activity actor
      pure accepted

/-- A `Follow`. -/
def handleFollow : ApiM InboxResponse := do
  let r ← executeFollowing relay activity actor
  finishRequest relay activity actor r

/-- An `Undo`. -/
def handleUndo : ApiM InboxResponse :=
  match activity.unwrapInnerActivity with
  | none => pure accepted
  | some innerActivity =>
      if innerActivity.type = lit "Follow" then do
        let r ← executeUnfollowing relay innerActivity actor
        finishRequest relay activity actor r
      else pure accepted

/-- An `Accept` or a `Reject`. -/
def handleFollowResponse : ApiM InboxResponse :=
  match activity.unwrapInnerActivity with
  | none => pure accepted
  | some innerActivity =>
      if innerActivity.type = lit "Follow" then do
        match ← finalizeMutuallyFollow relay innerActivity actor activity.type with
        | none => pure .panicked
        | some () => pure accepted
      else pure accepted

/-- An `Announce` for the relay or for the followers of a follower. -/
def handleAnnounce : ApiM InboxResponse :=
  let actorID := parse activity.actor
  if isActorSubscribersOrFollowers relay actorID = false then
    pure (.status 401 (lit "to use the relay service, please follow in advance"))
  else
    match activity.object with
    | some (.string innerObject) =>
        match fetchOriginalActivityFromURL remote innerObject with
        | .error e => pure (.fetchFailed e)
        | .ok (origActivity, origActor) => do
            let _ ← executeAnnounceActivity relay origActivity origActor
              (normalizedActorDomain relay actorID)
            pure accepted
    | _ => pure accepted

/-- The activity is for the relay, or for the followers of a follower. -/
def addressed : Bool :=
  activity.toAddresses.contains relay.relayActor.id ||
    activity.ccAddresses.contains relay.relayActor.id ||
    isToMyFollower relay activity.toAddresses || isToMyFollower relay activity.ccAddresses

def handleAddressed : ApiM InboxResponse :=
  if activity.type = lit "Follow" then handleFollow relay activity actor
  else if activity.type = lit "Undo" then handleUndo relay activity actor
  else if activity.type = lit "Accept" ∨ activity.type = lit "Reject" then
    handleFollowResponse relay activity actor
  else if activity.type = lit "Announce" then handleAnnounce relay remote activity
  else pure accepted

/-- An activity for nobody that the relay distributes to. -/
def handleOther : ApiM InboxResponse :=
  if activity.type = lit "Follow" then handleFollow relay activity actor
  else if activity.type = lit "Undo" then handleUndo relay activity actor
  else pure accepted

/-- `handleInbox` for a verified activity. -/
def handleActivity (body : GoString) : ApiM InboxResponse :=
  if distributes relay activity then handlePublic relay activity actor body
  else if addressed relay activity then handleAddressed relay remote activity actor
  else if isPublicOnlyInCCExcluded relay activity then do
    let r ← executePolicyExcludedPublicActivity relay activity actor
    pure (answer r)
  else handleOther relay activity actor

/-- `handleInbox`, with what the decoder returns for a `POST`. -/
def handleInbox (method : GoString) (decoded : Except GoString (Activity × Actor × GoString)) :
    ApiM InboxResponse :=
  if method = lit "GET" ∨ method = lit "HEAD" then pure (.collection relay.relayActor.inbox)
  else if method = lit "POST" then
    match decoded with
    | .error _ => pure (.status 400 [])
    | .ok (activity, actor, body) => handleActivity relay remote activity actor body
  else pure .methodNotAllowed

end Handler

/-! ### Requests to follow -/

section Requests

variable {relay : Relay} (activity : Activity) (actor : Actor)

theorem finishRequest_fansNothingOut (r : Option (Except GoString Unit)) :
  FansNothingOut (finishRequest relay activity actor r)
  := by
  unfold finishRequest
  split
  · exact Prog.allCalls_pure _
  · exact Prog.allCalls_pure _
  · exact (executeRejectRequest_fansNothingOut activity actor).bind (fun _ => Prog.allCalls_pure _)

theorem handleFollow_fansNothingOut :
  FansNothingOut (handleFollow relay activity actor)
  := (executeFollowing_fansNothingOut activity actor).bind
    (finishRequest_fansNothingOut activity actor)

theorem handleUndo_fansNothingOut :
  FansNothingOut (handleUndo relay activity actor)
  := by
  unfold handleUndo
  split
  · exact Prog.allCalls_pure _
  · split
    · exact (executeUnfollowing_fansNothingOut _ actor).bind
        (finishRequest_fansNothingOut activity actor)
    · exact Prog.allCalls_pure _

theorem handleFollowResponse_fansNothingOut :
  FansNothingOut (handleFollowResponse relay activity actor)
  := by
  unfold handleFollowResponse
  split
  · exact Prog.allCalls_pure _
  · split
    · apply (finalizeMutuallyFollow_fansNothingOut _ actor activity.type).bind
      intro r
      cases r with
      | none => exact Prog.allCalls_pure _
      | some => exact Prog.allCalls_pure _
    · exact Prog.allCalls_pure _

theorem handleOther_fansNothingOut :
  FansNothingOut (handleOther relay activity actor)
  := by
  unfold handleOther
  split
  · exact handleFollow_fansNothingOut activity actor
  · split
    · exact handleUndo_fansNothingOut activity actor
    · exact Prog.allCalls_pure _

theorem executePolicyExcluded_fansNothingOut :
  FansNothingOut (executePolicyExcludedPublicActivity relay activity actor)
  := by
  unfold executePolicyExcludedPublicActivity
  split
  · exact recordPublisherActivity_fansNothingOut activity actor
  · exact Prog.allCalls_pure _

end Requests

/-! ### What is fanned out -/

section FanOuts

variable {relay : Relay} {remote : Remote} {activity : Activity} {actor : Actor}
  {body : GoString} {subscriptions : List Subscriber} {payload : Payload}
  {excludedDomains : List GoString}

/-- The activity is addressed to the public, as the policy demands. -/
def ForPublic (relay : Relay) (activity : Activity) : Prop :=
  activityStreamsPublicAddress ∈ activity.toAddresses ∨
    configuredPolicy relay = .publicAndUnlisted ∧
      activityStreamsPublicAddress ∈ activity.ccAddresses

/-- An `Announce` with an embedded object from the host of its actor. -/
def EmbedsSameHost (relay : Relay) (activity : Activity) : Prop :=
  activity.type = lit "Announce" ∧
    ∃ members objectID actorURL objectURL, activity.object = some (.object members) ∧
      stringMember members "id" = some objectID ∧ parse activity.actor = some actorURL ∧
      parse objectID = some objectURL ∧ normalizedActorDomain relay (some actorURL) ≠ [] ∧
      normalizedActorDomain relay (some actorURL) = normalizedActorDomain relay (some objectURL)

/-- An `Announce` with the address of an activity, for the relay or for the followers of a
follower. -/
structure Referenced (relay : Relay) (activity : Activity) (address : GoString) : Prop where
  notDistributed : distributes relay activity = false
  addressed : addressed relay activity = true
  type : activity.type = lit "Announce"
  object : activity.object = some (.string address)

theorem distributes_iff :
  distributes relay activity = true ↔ ForPublic relay activity
  := PublicAddressDistributionPolicy.allows_iff _

theorem embedsSameHost_of_shouldFanOut (h : shouldFanOutPublicAnnounce relay activity = true) :
  EmbedsSameHost relay activity
  := by
  unfold shouldFanOutPublicAnnounce Activity.unwrapInnerObjectId at h
  split_ifs at h with htype
  refine ⟨not_not.mp htype, ?_⟩
  split at h
  case h_2 => cases h
  case h_1 members hobject =>
    simp only [hobject] at h
    split at h
    case h_1 => cases h
    case h_2 objectID hid =>
      split at h
      case h_2 => cases h
      case h_1 actorURL objectURL hactor hobjectURL =>
        simp only [ne_eq, decide_not, Bool.and_eq_true, Bool.not_eq_true', decide_eq_false_iff_not,
          decide_eq_true_eq] at h
        exact ⟨members, objectID, actorURL, objectURL, hobject, hid, hactor, hobjectURL, h⟩

/-- Where a payload that is fanned out comes from, for an activity of the public. -/
theorem fanOut_of_public
    (h : (handlePublic relay activity actor body).Makes
      (.enqueueActivityExcept subscriptions payload excludedDomains)) :
  isActorAbleToRelay relay actor = true ∧
    (activity.type ∈ relayedTypes ∧ hasMastodonLinkedDataSignature body = true ∧
        subscriptions = relay.state.subscribers ∧ payload = .received body ∨
      (activity.type ∈ relayedTypes ∨ EmbedsSameHost relay activity) ∧
        ∃ uuid object, payload = .authored (announce relay uuid object))
  := by
  unfold handlePublic at h
  split_ifs at h with htype hannounce
  · simp only [Prog.makes_bind, Prog.makes_pure, and_false, exists_false, or_false] at h
    obtain ⟨hable, domain, -, -, h | ⟨hld, h⟩ | ⟨objectID, uuid, -, h⟩⟩ :=
      (makes_executeRelayActivity rfl).mp h
    · cases h
    · cases h
      exact ⟨hable, .inl ⟨htype, hld, rfl, rfl⟩⟩
    · split_ifs at h
      · cases h
        exact ⟨hable, .inr ⟨.inl htype, uuid, objectID, rfl⟩⟩
      · cases h
        exact ⟨hable, .inr ⟨.inl htype, uuid, objectID, rfl⟩⟩
  · simp only [Prog.makes_bind, Prog.makes_pure, and_false, exists_false, or_false] at h
    unfold executePublicAnnounce at h
    split_ifs at h with hembeds
    · obtain ⟨hable, domain, -, objectID, -, -, h | ⟨uuid, h⟩⟩ :=
        (makes_executeEmbeddedAnnounceActivity rfl).mp h
      · cases h
      · cases h
        exact ⟨hable, .inr ⟨.inr (embedsSameHost_of_shouldFanOut hembeds), uuid, objectID, rfl⟩⟩
    · cases (recordPublisherActivity_fansNothingOut activity actor).of_makes h
  · exact absurd h (Prog.makes_pure _)

/-- The calls of an `Announce` for the relay are those for the activity that it refers to. -/
theorem makes_handleAnnounce {o : ApiOp} :
  (handleAnnounce relay remote activity).Makes o ↔
    isActorSubscribersOrFollowers relay (parse activity.actor) = true ∧
      ∃ address original, activity.object = some (.string address) ∧
        fetchOriginalActivityFromURL remote address = .ok original ∧
        (executeAnnounceActivity relay original.1 original.2
          (normalizedActorDomain relay (parse activity.actor))).Makes o
  := by
  unfold handleAnnounce
  dsimp only
  cases hsender : isActorSubscribersOrFollowers relay (parse activity.actor) with
  | false => simp
  | true =>
    simp only [Bool.true_eq_false, if_false, true_and]
    split
    case h_1 address hobject =>
      simp only [hobject, Option.some.injEq, Json.string.injEq]
      cases hfetch : fetchOriginalActivityFromURL remote address with
      | error e => simp [hfetch]
      | ok fetched => simp [hfetch, Prog.makes_bind]
    case h_2 hobject =>
      constructor
      · intro h
        exact absurd h (Prog.makes_pure _)
      · rintro ⟨address, original, hstring, -⟩
        exact absurd hstring (hobject address)

/-- An announcement for the relay is handled as such. -/
theorem handleActivity_of_announce (hprivate : distributes relay activity = false)
    (haddressed : addressed relay activity = true) (htype : activity.type = lit "Announce") :
  handleActivity relay remote activity actor body = handleAnnounce relay remote activity
  := by
  have hother : ∀ t, t ≠ lit "Announce" → activity.type ≠ t := by
    rintro t ht rfl
    exact ht htype
  unfold handleActivity handleAddressed
  rw [if_neg (by rw [hprivate]; exact Bool.false_ne_true), if_pos haddressed,
    if_neg (hother _ (by decide)), if_neg (hother _ (by decide)),
    if_neg (not_or.mpr ⟨hother _ (by decide), hother _ (by decide)⟩), if_pos htype]

/-- Only two kinds of activities are fanned out: those for the public, and announcements for the
relay. -/
theorem fanOut_handleActivity_iff :
  (handleActivity relay remote activity actor body).Makes
      (.enqueueActivityExcept subscriptions payload excludedDomains) ↔
    distributes relay activity = true ∧ (handlePublic relay activity actor body).Makes
        (.enqueueActivityExcept subscriptions payload excludedDomains) ∨
      distributes relay activity = false ∧ addressed relay activity = true ∧
        activity.type = lit "Announce" ∧ (handleAnnounce relay remote activity).Makes
          (.enqueueActivityExcept subscriptions payload excludedDomains)
  := by
  constructor
  · intro h
    unfold handleActivity at h
    split_ifs at h with hpublic haddressed hexcluded
    · exact .inl ⟨hpublic, h⟩
    · rw [Bool.not_eq_true] at hpublic
      unfold handleAddressed at h
      split_ifs at h with hfollow hundo hresponse hannounce
      · cases (handleFollow_fansNothingOut activity actor).of_makes h
      · cases (handleUndo_fansNothingOut activity actor).of_makes h
      · cases (handleFollowResponse_fansNothingOut activity actor).of_makes h
      · exact .inr ⟨hpublic, haddressed, hannounce, h⟩
      · exact absurd h (Prog.makes_pure _)
    · cases ((executePolicyExcluded_fansNothingOut activity actor).bind
        (fun _ => Prog.allCalls_pure _)).of_makes h
    · cases (handleOther_fansNothingOut activity actor).of_makes h
  · rintro (⟨hpublic, h⟩ | ⟨hprivate, haddressed, htype, h⟩)
    · unfold handleActivity
      rw [if_pos hpublic]
      exact h
    · rw [handleActivity_of_announce hprivate haddressed htype]
      exact h

theorem handleInbox_post :
  handleInbox relay remote (lit "POST") (.ok (activity, actor, body)) =
    handleActivity relay remote activity actor body
  := by
  unfold handleInbox
  rw [if_neg (by decide), if_pos rfl]

/-- The received bytes are fanned out only to subscribers, for an activity that is for the public,
has one of four types, comes from an actor that may relay, and has a document signature. Whatever
else is fanned out is an `Announce` of the relay, for such an activity or one with an embedded
object of the same host, or for the activity that a subscriber or follower refers to in an
`Announce` for the relay. -/
theorem handleInbox_fanOuts
    (h : (handleInbox relay remote (lit "POST") (.ok (activity, actor, body))).Makes
      (.enqueueActivityExcept subscriptions payload excludedDomains)) :
  (∀ bytes, payload = .received bytes →
    bytes = body ∧ ForPublic relay activity ∧ activity.type ∈ relayedTypes ∧
      isActorAbleToRelay relay actor = true ∧ hasMastodonLinkedDataSignature body = true ∧
      ∀ target ∈ fanOutTargets relay.caseTable subscriptions excludedDomains,
        target ∈ relay.state.subscribers) ∧
  ((∀ bytes, payload ≠ .received bytes) →
    (∃ uuid object, payload = .authored (announce relay uuid object)) ∧
      (ForPublic relay activity ∧
          (activity.type ∈ relayedTypes ∨ EmbedsSameHost relay activity) ∨
        ∃ address, Referenced relay activity address ∧
          isActorSubscribersOrFollowers relay (parse activity.actor) = true))
  := by
  rw [handleInbox_post, fanOut_handleActivity_iff] at h
  obtain ⟨hpublic, h⟩ | ⟨hprivate, haddressed, htype, h⟩ := h
  · rw [distributes_iff] at hpublic
    obtain ⟨hable, ⟨htype, hld, rfl, rfl⟩ | ⟨htype, uuid, object, rfl⟩⟩ := fanOut_of_public h
    · constructor
      · intro bytes hbytes
        cases hbytes
        exact ⟨rfl, hpublic, htype, hable, hld, fun target => mem_of_mem_fanOutTargets⟩
      · intro hother
        exact absurd rfl (hother body)
    · constructor
      · intro bytes hbytes
        cases hbytes
      · intro _
        exact ⟨⟨uuid, object, rfl⟩, .inl ⟨hpublic, htype⟩⟩
  · obtain ⟨hsender, address, original, hobject, -, h⟩ := makes_handleAnnounce.mp h
    obtain ⟨-, domain, -, -, -, h | ⟨uuid, h⟩⟩ := (makes_executeAnnounceActivity rfl).mp h
    · cases h
    · cases h
      constructor
      · intro bytes hbytes
        cases hbytes
      · intro _
        exact ⟨⟨uuid, _, rfl⟩, .inr ⟨address, ⟨hprivate, haddressed, htype, hobject⟩, hsender⟩⟩

end FanOuts

/-- What the remote host `o` serves: an activity of the actor `https://o/u`, and a document with
some ID in the place of that actor. -/
def exampleNetwork (actorID : String) : Network where
  get url :=
    if url.host = lit "o" then
      .ok ⟨200,
        if url.path = lit "/a" then
          some (lit "\x7b\"id\":\"https://o/a\",\"actor\":\"https://o/u\"\x7d")
        else if url.path = lit "/u" then
          some (lit "\x7b\"id\":\"" ++ lit actorID ++ lit "\"\x7d")
        else none⟩
    else .error (lit "unknown host")
  reachable := by
    intro url response h
    by_cases hhost : url.host = lit "o"
    · rw [hhost]
      exact ⟨by decide, by decide⟩
    · rw [if_neg hhost] at h
      cases h

theorem nothing_cached :
  ∀ address data : GoString, (none : Option GoString) = some data → Fetched address data
  := by
  intro address data h
  cases h

def exampleRemote (actorID : String) : Remote where
  activityNetwork := exampleNetwork actorID
  actorLookup := ⟨⟨fun _ => none, nothing_cached⟩, true, exampleNetwork actorID⟩

/-- A public activity of the subscriber `b`, with a document signature. -/
def signedActivity : Activity :=
  { id := lit "https://b/c", actor := lit "https://b/u", type := lit "Create"
    toAddresses := [activityStreamsPublicAddress] }

theorem handleInbox_fanOuts_signed :
  (handleInbox (exampleRelay []) (exampleRemote "https://o/u") (lit "POST")
      (.ok (signedActivity, exampleActor, signedBody))).Makes
    (.enqueueActivityExcept exampleSubscribers (.received signedBody) [lit "b"]) ∧
  ForPublic (exampleRelay []) signedActivity
  := by
  have h : (handleInbox (exampleRelay []) (exampleRemote "https://o/u") (lit "POST")
      (.ok (signedActivity, exampleActor, signedBody))).Makes
      (.enqueueActivityExcept exampleSubscribers (.received signedBody) [lit "b"]) := by
    rw [handleInbox_post, fanOut_handleActivity_iff]
    refine .inl ⟨by decide +kernel, ?_⟩
    unfold handlePublic
    rw [if_pos (by decide +kernel), Prog.makes_bind, makes_executeRelayActivity rfl]
    exact .inl ⟨by decide +kernel, lit "b", by decide +kernel, by decide +kernel,
      .inr (.inl ⟨by decide +kernel, rfl⟩)⟩
  exact ⟨h, ((handleInbox_fanOuts h).1 signedBody rfl).2.1⟩

/-! ### Referenced activities -/

section References

variable {relay : Relay} {remote : Remote} {activity : Activity} {actor : Actor}
  {body address : GoString}

/-- A subscriber or follower refers to an activity that can be fetched, with an ID and an actor
that may relay and whose domain can be recorded. Nothing is asked about the verified actor. -/
structure RelaysReference (relay : Relay) (remote : Remote) (activity : Activity)
    (address : GoString) (original : Activity × Actor) : Prop where
  referenced : Referenced relay activity address
  sender : isActorSubscribersOrFollowers relay (parse activity.actor) = true
  fetched : fetchOriginalActivityFromURL remote address = .ok original
  able : isActorAbleToRelay relay original.2 = true
  named : trimSpace original.1.id ≠ []
  recordable : normalizeStateDomain relay.caseTable
    (normalizedActorDomain relay (parse original.2.id)) ≠ []

/-- The domains that an announcement is not sent to: that of the sender, and the origin. -/
def referenceExcluded (relay : Relay) (activity : Activity) (original : Activity × Actor) :
    List GoString :=
  [normalizedActorDomain relay (parse activity.actor),
    normalizedActorDomain relay (parse original.2.id)]

/-- The subscriber `b` announces the activity that the host `o` serves. -/
def referringActivity : Activity :=
  { id := lit "https://b/r", actor := lit "https://b/u", type := lit "Announce"
    object := some (.string (lit "https://o/a")), toAddresses := [lit "https://relay/actor"] }

/-- The activity that is referred to, and its actor. -/
def referredActivity : Activity × Actor :=
  (fetchOriginalActivityFromURL (exampleRemote "https://o/u") (lit "https://o/a")).toOption.get
    (by decide +kernel)

/-- The same activity, and the document of another actor in the place of its own. -/
def forgedActivity : Activity × Actor :=
  (fetchOriginalActivityFromURL (exampleRemote "https://v/u") (lit "https://o/a")).toOption.get
    (by decide +kernel)

theorem referringActivity_referenced (blocked : List GoString) :
  Referenced (exampleRelay blocked) referringActivity (lit "https://o/a")
  := by
  refine ⟨?_, ?_, rfl, rfl⟩
  · change distributes (exampleRelay []) referringActivity = false
    decide +kernel
  · simp [addressed, referringActivity, exampleRelay]

theorem referredActivity_relays :
  RelaysReference (exampleRelay [lit "b"]) (exampleRemote "https://o/u") referringActivity
    (lit "https://o/a") referredActivity
  := ⟨referringActivity_referenced _, by decide +kernel,
    Fallible.eq_ok_of_toOption (Option.some_get _).symm, by decide +kernel, by decide +kernel,
    by decide +kernel⟩

theorem forgedActivity_relays :
  RelaysReference (exampleRelay []) (exampleRemote "https://v/u") referringActivity
    (lit "https://o/a") forgedActivity
  := ⟨referringActivity_referenced _, by decide +kernel,
    Fallible.eq_ok_of_toOption (Option.some_get _).symm, by decide +kernel, by decide +kernel,
    by decide +kernel⟩

/-- Apart from the loop guard, a reference makes the relay record and announce the activity. -/
theorem makes_handleAnnounce_iff {o : ApiOp} (hreferenced : Referenced relay activity address)
    (ho : o.guards = false) :
  (handleAnnounce relay remote activity).Makes o ↔
    ∃ original, RelaysReference relay remote activity address original ∧
      (.recordPublisherActivity (publisherRecord original.1 original.2
          (normalizedActorDomain relay (parse original.2.id))) = o ∨
        ∃ uuid, .enqueueActivityExcept relay.state.subscribersAndFollowers
          (.authored (announce relay uuid original.1.id))
          (referenceExcluded relay activity original) = o)
  := by
  rw [makes_handleAnnounce]
  constructor
  · rintro ⟨hsender, address', original, hobject, hfetched, h⟩
    rw [hreferenced.object] at hobject
    cases hobject
    obtain ⟨hable, domain, hcheck, hnamed, hrecordable, h⟩ :=
      (makes_executeAnnounceActivity ho).mp h
    rw [checkActor_of_able hable] at hcheck
    cases hcheck
    exact ⟨original, ⟨hreferenced, hsender, hfetched, hable, hnamed, hrecordable⟩, h⟩
  · rintro ⟨original, hrelays, h⟩
    refine ⟨hrelays.sender, address, original, hreferenced.object, hrelays.fetched, ?_⟩
    rw [makes_executeAnnounceActivity ho]
    exact ⟨hrelays.able, _, checkActor_of_able hrelays.able, hrelays.named, hrelays.recordable, h⟩

theorem handleInbox_of_referenced (h : Referenced relay activity address) :
  handleInbox relay remote (lit "POST") (.ok (activity, actor, body)) =
    handleAnnounce relay remote activity
  := by
  rw [handleInbox_post, handleActivity_of_announce h.notDistributed h.addressed h.type]

/-- A blocked actor does not get anything queued if and only if it does not refer to an activity
that is announced to somebody. -/
theorem blocked_queues_nothing_iff (limits : Limits)
    (hblocked : isActorBlocked relay (parse actor.id) = true) :
  (∀ subscriptions payload excludedDomains,
      (handleInbox relay remote (lit "POST") (.ok (activity, actor, body))).Makes
        (.enqueueActivityExcept subscriptions payload excludedDomains) →
      ∀ bytes, ¬ Queues relay.caseTable limits subscriptions bytes excludedDomains) ↔
    ∀ address original, RelaysReference relay remote activity address original →
      fanOutTargets relay.caseTable relay.state.subscribersAndFollowers
          (referenceExcluded relay activity original) = [] ∨
        limits.maxFanoutTargets < (fanOutTargets relay.caseTable
          relay.state.subscribersAndFollowers (referenceExcluded relay activity original)).length
  := by
  constructor
  · intro hnothing address original hrelays
    have hqueues := hnothing relay.state.subscribersAndFollowers
      (.authored (announce relay [] original.1.id)) (referenceExcluded relay activity original)
    rw [handleInbox_of_referenced hrelays.referenced,
      makes_handleAnnounce_iff hrelays.referenced rfl] at hqueues
    have hnot := hqueues ⟨original, hrelays, .inr ⟨[], rfl⟩⟩ []
    rw [queues_iff, not_and_or, not_not, not_le] at hnot
    exact hnot
  · intro hnone subscriptions payload excludedDomains hmakes bytes hqueues
    rw [handleInbox_post, fanOut_handleActivity_iff] at hmakes
    obtain ⟨-, hmakes⟩ | ⟨hprivate, haddressed, htype, hmakes⟩ := hmakes
    · have hable := (fanOut_of_public hmakes).1
      rw [not_able_of_blocked hblocked] at hable
      cases hable
    · obtain ⟨-, address, -, hobject, -⟩ := makes_handleAnnounce.mp hmakes
      have hreferenced : Referenced relay activity address :=
        ⟨hprivate, haddressed, htype, hobject⟩
      obtain ⟨original, hrelays, h | ⟨uuid, h⟩⟩ :=
        (makes_handleAnnounce_iff hreferenced rfl).mp hmakes
      · cases h
      · cases h
        obtain ⟨htargets, hfew⟩ := queues_iff.mp hqueues
        obtain hempty | hmany := hnone address original hrelays
        · exact htargets hempty
        · exact absurd hmany (not_lt.mpr hfew)

/-- A subscriber that is blocked gets the activity announced that it refers to. -/
theorem blocked_subscriber_queues :
  isActorBlocked (exampleRelay [lit "b"]) (parse exampleActor.id) = true ∧
    ∃ subscriptions payload excludedDomains,
      (handleInbox (exampleRelay [lit "b"]) (exampleRemote "https://o/u") (lit "POST")
          (.ok (referringActivity, exampleActor, []))).Makes
        (.enqueueActivityExcept subscriptions payload excludedDomains) ∧
      Queues CaseTable.identity smallLimits subscriptions [] excludedDomains
  := by
  refine ⟨by decide +kernel, exampleSubscribers, .authored (announce (exampleRelay [lit "b"]) []
    referredActivity.1.id), referenceExcluded (exampleRelay [lit "b"]) referringActivity
    referredActivity, ?_, ?_⟩
  · rw [handleInbox_of_referenced (referringActivity_referenced _),
      makes_handleAnnounce_iff (referringActivity_referenced _) rfl]
    exact ⟨referredActivity, referredActivity_relays, .inr ⟨[], rfl⟩⟩
  · rw [queues_iff]
    exact ⟨by decide +kernel, by decide +kernel⟩

theorem blocked_queues_nothing_iff_signed :
  isActorBlocked (exampleRelay [lit "b"]) (parse exampleActor.id) = true ∧
    ∀ subscriptions payload excludedDomains,
      (handleInbox (exampleRelay [lit "b"]) (exampleRemote "https://o/u") (lit "POST")
          (.ok (signedActivity, exampleActor, signedBody))).Makes
        (.enqueueActivityExcept subscriptions payload excludedDomains) →
      ∀ bytes, ¬ Queues CaseTable.identity smallLimits subscriptions bytes excludedDomains
  := by
  have hblocked : isActorBlocked (exampleRelay [lit "b"]) (parse exampleActor.id) = true := by
    decide +kernel
  refine ⟨hblocked, (blocked_queues_nothing_iff smallLimits hblocked).mpr ?_⟩
  intro address original hrelays
  have htype : signedActivity.type ≠ lit "Announce" := by decide
  exact absurd hrelays.referenced.type htype

/-- The host that served the document at an address and the host of the actor that the document
names are the same, and the domain of the record is this host in the form of the state. The
requests are redirected by `served`. -/
def HostsAgree (relay : Relay) (remote : Remote) (served : URL → URL) (address domain : GoString) :
    Prop :=
  ∃ original, fetchOriginalActivityFromURL remote address = .ok original ∧
    normalizedActorDomain relay ((parse address).map served)
      = normalizedActorDomain relay (parse original.1.actor) ∧
    normalizeStateDomain relay.caseTable (normalizedActorDomain relay (parse original.1.actor))
      = domain

/-- The domain under which a publisher is recorded. -/
def publisherDomain (relay : Relay) (publisher : Publisher) : GoString :=
  normalizeStateDomain relay.caseTable publisher.domain

/-- What a reference gets recorded and announced is of one host if and only if the documents
that are fetched for it are. -/
theorem reference_of_one_host_iff (served : URL → URL)
    (hreferenced : Referenced relay activity address) :
  ((∀ publisher, (handleInbox relay remote (lit "POST") (.ok (activity, actor, body))).Makes
        (.recordPublisherActivity publisher) →
      HostsAgree relay remote served address (publisherDomain relay publisher)) ∧
    (∀ subscriptions payload excludedDomains,
      (handleInbox relay remote (lit "POST") (.ok (activity, actor, body))).Makes
        (.enqueueActivityExcept subscriptions payload excludedDomains) →
      ∃ publisher, (handleInbox relay remote (lit "POST") (.ok (activity, actor, body))).Makes
          (.recordPublisherActivity publisher) ∧
        HostsAgree relay remote served address (publisherDomain relay publisher))) ↔
    ∀ original, RelaysReference relay remote activity address original →
      normalizedActorDomain relay ((parse address).map served)
          = normalizedActorDomain relay (parse original.1.actor) ∧
        normalizeStateDomain relay.caseTable (normalizedActorDomain relay (parse original.1.actor))
          = normalizeStateDomain relay.caseTable (normalizedActorDomain relay (parse original.2.id))
  := by
  rw [handleInbox_of_referenced hreferenced]
  constructor
  · rintro ⟨hrecord, -⟩ original hrelays
    have hmakes : (handleAnnounce relay remote activity).Makes
        (.recordPublisherActivity (publisherRecord original.1 original.2
          (normalizedActorDomain relay (parse original.2.id)))) := by
      rw [makes_handleAnnounce_iff hreferenced rfl]
      exact ⟨original, hrelays, .inl rfl⟩
    obtain ⟨original', hfetched, hserved, hactor⟩ := hrecord _ hmakes
    rw [hrelays.fetched] at hfetched
    cases hfetched
    exact ⟨hserved, hactor⟩
  · intro hagree
    have hrecord : ∀ publisher, (handleAnnounce relay remote activity).Makes
        (.recordPublisherActivity publisher) →
        HostsAgree relay remote served address (publisherDomain relay publisher) := by
      intro publisher hmakes
      obtain ⟨original, hrelays, h | ⟨uuid, h⟩⟩ :=
        (makes_handleAnnounce_iff hreferenced rfl).mp hmakes
      · cases h
        exact ⟨original, hrelays.fetched, hagree original hrelays⟩
      · cases h
    refine ⟨hrecord, ?_⟩
    intro subscriptions payload excludedDomains hmakes
    obtain ⟨original, hrelays, -⟩ := (makes_handleAnnounce_iff hreferenced rfl).mp hmakes
    have hmakes := (makes_handleAnnounce_iff hreferenced rfl).mpr ⟨original, hrelays, .inl rfl⟩
    exact ⟨_, hmakes, hrecord _ hmakes⟩

/-- The host `o` gets an activity recorded and announced for the host `v`. -/
theorem forged_reference_recorded :
  ∃ publisher, (handleInbox (exampleRelay []) (exampleRemote "https://v/u") (lit "POST")
        (.ok (referringActivity, exampleActor, []))).Makes (.recordPublisherActivity publisher) ∧
    publisherDomain (exampleRelay []) publisher = lit "v" ∧
    normalizedActorDomain (exampleRelay []) (parse (lit "https://o/a")) = lit "o"
  := by
  have hmakes := (makes_handleAnnounce_iff (referringActivity_referenced _) rfl).mpr
    ⟨forgedActivity, forgedActivity_relays, .inl rfl⟩
  exact ⟨_, hmakes, by decide +kernel, by decide +kernel⟩

theorem reference_of_one_host_iff_honest :
  Referenced (exampleRelay [lit "b"]) referringActivity (lit "https://o/a") ∧
    ∀ publisher, (handleInbox (exampleRelay [lit "b"]) (exampleRemote "https://o/u") (lit "POST")
        (.ok (referringActivity, exampleActor, []))).Makes (.recordPublisherActivity publisher) →
      HostsAgree (exampleRelay [lit "b"]) (exampleRemote "https://o/u") id (lit "https://o/a")
        (publisherDomain (exampleRelay [lit "b"]) publisher)
  := by
  have hreferenced := referringActivity_referenced [lit "b"]
  refine ⟨hreferenced, ((reference_of_one_host_iff id hreferenced).mpr ?_).1⟩
  intro original hrelays
  have hfetched := hrelays.fetched
  cases hfetched
  exact ⟨by decide +kernel, by decide +kernel⟩

end References

end Api
