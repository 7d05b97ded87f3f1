import ActivityRelay.Api.Resolver
import ActivityRelay.Interaction.Store
import ActivityRelay.Models.Snapshot

/-!
# Following and unfollowing the relay

What the executors of a `Follow`, of its `Undo` and of an `Accept` do to the records in Redis, and
what `Load` makes of them. The three name an actor in three ways: by the host of its ID as it is
written, by the normal form of that host, and by the normalised host name without a port.

A subscriber is stored under the host as it is, a follower under its normal form, `DelFollower`
deletes the host as it is, and the lists are searched for the host name. The theorems say for which
actors these agree.
-/

namespace Api

open ApiM Function GoString Interaction Models NetUrl

/-! ### Calls that change the records -/

section Performs

variable (U : CaseTable)

/-- The answer of `UpdateFollowerStatusChecked`, by the number that the script returns. -/
def updateStatusReply (domain : GoString) (result : ℤ) : Option GoString :=
  if normalizeStateDomain U domain = [] then some (lit "follower domain is empty")
  else if result = 1 then none
  else if result = 0 then some (lit "follower does not exist")
  else some (lit "follower record was incomplete and has been removed")

/-- What a call does to the database and how it is answered, if Redis executes every command. Only
the calls of the executors below are described. -/
def Performs : (o : ApiOp) → Database → o.Reply → Database → Prop
  | .newUUID, db, _, db' => db' = db
  | .enqueueRegisterActivity _ _, db, _, db' => db' = db
  | .setPending domain request, db, _, db' =>
      db' = db.modify (pendingKey domain) fun h =>
        ((((h.set "inbox_url" request.inboxURL).set "activity_id" request.activityID).set
          "type" request.type).set "actor" request.actor).set "object" request.object
  | .addSubscriber subscriber, db, _, db' => db' = db.addSubscriber subscriber
  | .addFollowerChecked follower, db, reply, db' =>
      db' = (FollowerCall.add follower .answered).perform U db ∧
        (reply = none ↔ validateFollower U follower = .ok ())
  | .delSubscriber domain, db, _, db' =>
      db' = (db.del (subscriptionKey domain)).del (pendingKey domain)
  | .delFollower domain, db, _, db' =>
      db' = (FollowerCall.del domain .answered .answered).perform U db
  | .updateFollowerStatusChecked domain mutuallyFollow, db, reply, db' =>
      db' = (FollowerCall.update domain mutuallyFollow .answered).perform U db ∧
        reply = updateStatusReply U domain (updateFollowerStatusScript (flagText mutuallyFollow)
          (db (followerKey (normalizeStateDomain U domain)))).2
  | _, _, _, _ => False

end Performs

/-! ### A `Follow` -/

/-- The subscriber that a `Follow` of the public collection registers. -/
def newSubscriber (activity : Activity) (actor : Actor) (url : URL) (endpoints : Endpoints) :
    Subscriber :=
  ⟨url.host, endpoints.sharedInbox, activity.id, actor.id⟩

/-- The follower that a `Follow` of the relay registers. -/
def newFollower (activity : Activity) (actor : Actor) (url : URL) : Follower :=
  ⟨url.host, actor.inbox, activity.id, actor.id, false⟩

section Following

variable {relay : Relay} {activity : Activity} {actor : Actor} {db db' : Database}

/-- A `Follow` of the public collection that is accepted registers a subscriber. -/
theorem ends_followPublic (hmanual : relay.state.relayConfig.manuallyAccept = false)
    (hpublic : objectIs activity.object activityStreamsPublicAddress = true) :
  (executeFollowing relay activity actor).Ends (Performs relay.caseTable) db (some (.ok ())) db' ↔
    isActorBlocked relay (parse actor.id) = false ∧
      ∃ url endpoints, parse actor.id = some url ∧ actor.endpoints = some endpoints ∧
        db' = db.addSubscriber (newSubscriber activity actor url endpoints)
  := by
  unfold executeFollowing
  dsimp only
  cases hblocked : isActorBlocked relay (parse actor.id) with
  | true => cases parse actor.id <;> simp
  | false =>
    rw [if_neg (by simp), if_pos hpublic]
    unfold followPublic
    rw [if_neg (by simp [hmanual])]
    cases parse actor.id with
    | none => simp [newUUID, enqueueRegister, Performs]
    | some url =>
      cases actor.endpoints with
      | none => simp [newUUID, enqueueRegister, Performs]
      | some endpoints =>
        simp [newUUID, enqueueRegister, ApiM.addSubscriber, Performs, newSubscriber,
          eq_comm]

/-- A request to follow the actor back changes no record. -/
theorem ends_executeMutuallyFollow (follower : Follower) (result : Unit) :
  (executeMutuallyFollow relay follower).Ends (Performs relay.caseTable) db result db' ↔ db' = db
  := by
  unfold executeMutuallyFollow
  cases isActorLimited relay (parse follower.actorID) with
  | true => simp [eq_comm]
  | false => simp [newUUID, enqueueRegister, Performs]

/-- A `Follow` of the relay succeeds for a valid follower, and stores it. -/
theorem ends_followRelay (hmanual : relay.state.relayConfig.manuallyAccept = false) (url : URL) :
  (followRelay relay activity actor url).Ends (Performs relay.caseTable) db (some (.ok ())) db' ↔
    validateFollower relay.caseTable (newFollower activity actor url) = .ok () ∧
      db' = db.addFollower relay.caseTable (newFollower activity actor url)
  := by
  unfold followRelay
  rw [if_neg (by simp [hmanual])]
  change (addFollower (newFollower activity actor url) >>= _).Ends _ _ _ _ ↔ _
  rw [addFollower, Prog.op_bind, Prog.ends_call]
  constructor
  · rintro ⟨reply, db₁, ⟨rfl, hreply⟩, hend⟩
    cases reply with
    | some e => simp at hend
    | none =>
      have hvalid := hreply.mp rfl
      simp [newUUID, enqueueRegister, Performs, Prog.ends_bind, ends_executeMutuallyFollow,
        FollowerCall.perform, hvalid, executed] at hend
      exact ⟨hvalid, hend.symm⟩
  · rintro ⟨hvalid, rfl⟩
    simp [newUUID, enqueueRegister, Performs, Prog.ends_bind, ends_executeMutuallyFollow,
      FollowerCall.perform, hvalid, executed]

/-- A `Follow` of the relay that is accepted registers a follower. -/
theorem ends_executeFollowing_relay (hmanual : relay.state.relayConfig.manuallyAccept = false)
    (hpublic : objectIs activity.object activityStreamsPublicAddress = false) :
  (executeFollowing relay activity actor).Ends (Performs relay.caseTable) db (some (.ok ())) db' ↔
    isActorBlocked relay (parse actor.id) = false ∧
      objectIs activity.object relay.relayActor.id = true ∧
      isActorAbleToBeFollower relay actor = true ∧
      ∃ url, parse actor.id = some url ∧
        validateFollower relay.caseTable (newFollower activity actor url) = .ok () ∧
        db' = db.addFollower relay.caseTable (newFollower activity actor url)
  := by
  unfold executeFollowing
  dsimp only
  cases hblocked : isActorBlocked relay (parse actor.id) with
  | true => cases parse actor.id <;> simp
  | false =>
    rw [if_neg (by simp), if_neg (by simp [hpublic])]
    by_cases hrelay : objectIs activity.object relay.relayActor.id = true ∧
        isActorAbleToBeFollower relay actor = true
    · rw [if_pos (by simpa using hrelay)]
      cases parse actor.id with
      | none => simp
      | some url => simp [hrelay, ends_followRelay hmanual]
    · rw [if_neg (by simpa using hrelay)]
      simp only [Prog.ends_pure, onlyFollowed]
      tauto

/-- An `Undo` deletes the follower under the host as it is written. -/
theorem ends_executeUnfollowing {result : Option (Except GoString Unit)} {url : URL}
    (hpublic : objectIs activity.object activityStreamsPublicAddress = false)
    (hrelay : objectIs activity.object relay.relayActor.id = true)
    (hable : isActorAbleToBeFollower relay actor = true) (hurl : parse actor.id = some url) :
  (executeUnfollowing relay activity actor).Ends (Performs relay.caseTable) db result db' ↔
    some (.ok ()) = result ∧
      (FollowerCall.del url.host .answered .answered).perform relay.caseTable db = db'
  := by
  unfold executeUnfollowing
  rw [if_neg (by simp [hpublic]), if_pos (by simp [hrelay, hable]), hurl]
  simp [delFollower, Performs]

end Following

/-! ### A `Follow` that is undone -/

/-- No follower is left of those that the `Follow` has registered. -/
structure Forgotten (U : CaseTable) (host : GoString) (db db' : Database) : Prop where
  record : db' (followerKey (normalizeStateDomain U host)) = none
  loaded : ∀ l, (load U db' l).isFollower (normalizeStateDomain U host) = false
  others : ∀ d l, (load U db' l).isFollower d = true → HasFollower U db d

section Unfollowing

variable {U : CaseTable} {db : Database} {host : GoString}

/-- `DelFollower` deletes the record of the given host and no other. -/
theorem perform_del_followerKey (host d : GoString) :
  (FollowerCall.del host .answered .answered).perform U db (followerKey d) =
    if d = host then none else db (followerKey d)
  := by
  simp only [FollowerCall.perform, executed, if_true]
  rw [Database.del, update_of_ne (followerKey_ne_pendingKey d host), Database.del]
  split
  · rename_i hd
    rw [hd, update_self]
  · rename_i hd
    exact update_of_ne (mt followerKey_inj.mp hd) _ _

/-- `DelFollower` with the domain of a follower that was just added. -/
theorem forgotten_iff {f : Follower} :
  Forgotten U f.domain db
      ((FollowerCall.del f.domain .answered .answered).perform U (db.addFollower U f)) ↔
    normalizeStateDomain U f.domain = f.domain
  := by
  constructor
  · intro h
    by_contra hne
    have hrecord := h.record
    rw [perform_del_followerKey, if_neg hne, addFollower_followerKey] at hrecord
    cases hrecord
  · intro hnormal
    have hrecord : (FollowerCall.del f.domain .answered .answered).perform U (db.addFollower U f)
        (followerKey (normalizeStateDomain U f.domain)) = none := by
      rw [perform_del_followerKey, if_pos hnormal]
    have hothers : ∀ d l, (load U ((FollowerCall.del f.domain .answered .answered).perform U
        (db.addFollower U f)) l).isFollower d = true →
          d ≠ normalizeStateDomain U f.domain ∧ HasFollower U db d := by
      intro d l hd
      rw [isFollower_load_iff, HasFollower, Database.hash] at hd
      by_cases hkey : d = normalizeStateDomain U f.domain
      · rw [hkey, hrecord] at hd
        cases hd.1
      · refine ⟨hkey, ?_⟩
        rwa [perform_del_followerKey, if_neg (hnormal ▸ hkey),
          addFollower_of_ne (mt followerKey_inj.mp hkey)] at hd
    refine ⟨hrecord, fun l => ?_, fun d l hd => (hothers d l hd).2⟩
    by_contra hfollower
    exact (hothers _ l (by simpa using hfollower)).1 rfl

end Unfollowing

/-- An `Undo` of a `Follow` of the relay leaves no follower of it if and only if the host of the
actor is in normal form. -/
theorem unfollow_forgets_iff {relay : Relay} {activity : Activity} {actor : Actor} {url : URL}
    (hmanual : relay.state.relayConfig.manuallyAccept = false)
    (hpublic : objectIs activity.object activityStreamsPublicAddress = false)
    (hurl : parse actor.id = some url) {db db₁ db₂ : Database} {state : RelayState}
    {result : Option (Except GoString Unit)}
    (hfollow : (executeFollowing relay activity actor).Ends (Performs relay.caseTable)
      db (some (.ok ())) db₁)
    (hunfollow : (executeUnfollowing { relay with state := state } activity actor).Ends
      (Performs relay.caseTable) db₁ result db₂) :
  Forgotten relay.caseTable url.host db db₂ ↔
    normalizeStateDomain relay.caseTable url.host = url.host
  := by
  obtain ⟨-, hrelay, hable, url', hurl', hvalid, rfl⟩ :=
    (ends_executeFollowing_relay hmanual hpublic).mp hfollow
  rw [hurl] at hurl'
  cases hurl'
  obtain ⟨-, rfl⟩ := (ends_executeUnfollowing hpublic hrelay hable hurl).mp hunfollow
  exact forgotten_iff (f := newFollower activity actor url)

/-- An actor that can be a follower. -/
def relayServer (id : String) : Actor where
  id := lit id
  type := lit "Application"
  inbox := lit "https://b/inbox"
  endpoints := some ⟨lit "https://b/inbox"⟩

/-- A `Follow` of some object. -/
def followOf (object : GoString) : Activity where
  id := lit "https://b/follows/1"
  type := lit "Follow"
  object := some (.string object)

section RelayServer

variable {id : String} {url : URL}

theorem followOf_relay :
  objectIs (followOf (exampleRelay []).relayActor.id).object activityStreamsPublicAddress = false
  := by
  decide

/-- A `Follow` of the relay on an empty database. -/
theorem ends_follow_relayServer (hurl : parse (relayServer id).id = some url)
    (hable : isActorAbleToBeFollower (exampleRelay []) (relayServer id) = true)
    (hvalid : validateFollower (exampleRelay []).caseTable
      (newFollower (followOf (exampleRelay []).relayActor.id) (relayServer id) url) = .ok ()) :
  (executeFollowing (exampleRelay []) (followOf (exampleRelay []).relayActor.id)
      (relayServer id)).Ends (Performs (exampleRelay []).caseTable) .empty (some (.ok ()))
    (Database.empty.addFollower (exampleRelay []).caseTable
      (newFollower (followOf (exampleRelay []).relayActor.id) (relayServer id) url))
  := (ends_executeFollowing_relay rfl followOf_relay).mpr ⟨rfl, rfl, hable, url, hurl, hvalid, rfl⟩

theorem ends_unfollow_relayServer (db : Database) (hurl : parse (relayServer id).id = some url)
    (hable : isActorAbleToBeFollower (exampleRelay []) (relayServer id) = true) :
  (executeUnfollowing (exampleRelay []) (followOf (exampleRelay []).relayActor.id)
      (relayServer id)).Ends (Performs (exampleRelay []).caseTable) db (some (.ok ()))
    ((FollowerCall.del url.host .answered .answered).perform (exampleRelay []).caseTable db)
  := (ends_executeUnfollowing followOf_relay rfl hable hurl).mpr ⟨rfl, rfl⟩

end RelayServer

/-- The URL of an actor with some host. -/
def actorURL (host : String) : URL where
  scheme := lit "https"
  host := lit host
  path := lit "/u"

theorem unfollow_forgets_lowerCase :
  ∃ db₁ db₂,
    (executeFollowing (exampleRelay []) (followOf (exampleRelay []).relayActor.id)
        (relayServer "https://b/u")).Ends (Performs .identity) .empty (some (.ok ())) db₁ ∧
      (executeUnfollowing (exampleRelay []) (followOf (exampleRelay []).relayActor.id)
        (relayServer "https://b/u")).Ends (Performs .identity) db₁ (some (.ok ())) db₂ ∧
      Forgotten .identity (lit "b") .empty db₂
  := by
  have hurl : parse (relayServer "https://b/u").id = some (actorURL "b") := by decide +kernel
  have hable : isActorAbleToBeFollower (exampleRelay []) (relayServer "https://b/u") = true := by
    decide +kernel
  have hfollow := ends_follow_relayServer hurl hable (by decide +kernel)
  refine ⟨_, _, hfollow, ends_unfollow_relayServer _ hurl hable, ?_⟩
  exact (unfollow_forgets_iff rfl followOf_relay hurl hfollow
    (ends_unfollow_relayServer _ hurl hable)).mpr (by decide +kernel)

/-- The host of the actor is written in upper case. The follower is stored under the lower case,
and is still loaded after the `Undo`. -/
theorem upperCase_follower_remains :
  ∃ db₁ db₂,
    (executeFollowing (exampleRelay []) (followOf (exampleRelay []).relayActor.id)
        (relayServer "https://B/u")).Ends (Performs .identity) .empty (some (.ok ())) db₁ ∧
      (executeUnfollowing (exampleRelay []) (followOf (exampleRelay []).relayActor.id)
        (relayServer "https://B/u")).Ends (Performs .identity) db₁ (some (.ok ())) db₂ ∧
      (db₂ (followerKey (lit "b"))).isSome ∧ ∀ l, (load .identity db₂ l).isFollower (lit "b") = true
  := by
  have hurl : parse (relayServer "https://B/u").id = some (actorURL "B") := by decide +kernel
  have hable : isActorAbleToBeFollower (exampleRelay []) (relayServer "https://B/u") = true := by
    decide +kernel
  refine ⟨_, _, ends_follow_relayServer hurl hable (by decide +kernel),
    ends_unfollow_relayServer _ hurl hable, by decide +kernel, fun l => ?_⟩
  rw [isFollower_load_iff, HasFollower]
  decide +kernel

/-! ### A `Follow` that is answered -/

variable (relay : Relay)

/-- The relay after a `Load`. -/
def Relay.loaded {db : Database} (l : Listing db) : Relay :=
  { relay with state := load relay.caseTable db l }

/-- The answer to the relay's own `Follow` of an actor. -/
def acceptOf (actor : Actor) : Activity where
  actor := relay.relayActor.id
  object := some (.string actor.id)

/-- The `Accept` sets the status of the record of the host, and changes nothing else. -/
def Confirms (accept : Activity) (actor : Actor) (host : GoString)
    (db : Database) : Prop :=
  ∃ record, db (followerKey (normalizeStateDomain relay.caseTable host)) = some record ∧
    ∀ result db', (finalizeMutuallyFollow relay accept actor (lit "Accept")).Ends
        (Performs relay.caseTable) db result db' ↔
      some () = result ∧
        update db (followerKey (normalizeStateDomain relay.caseTable host))
          (some (record.set "mutually_follow" (lit "1"))) = db'

/-- The actor is found under the name of its host after its `Follow`. -/
def FoundByName (activity : Activity) (url : URL) (db : Database) : Prop :=
  let name := normalizedActorDomain relay (some url)
  if objectIs activity.object activityStreamsPublicAddress then
    name = url.host ∨ (db (subscriptionKey name)).isSome ∨ HasFollower relay.caseTable db name
  else if name = normalizeStateDomain relay.caseTable url.host then
    normalizeStateDomain relay.caseTable name = name
  else HasFollower relay.caseTable db name

section Accepting

variable {relay : Relay} {activity accept : Activity} {actor : Actor} {url : URL} {db : Database}

/-- An `Accept` sets the status of a follower that is loaded. -/
theorem ends_finalizeMutuallyFollow (hactor : accept.actor = relay.relayActor.id)
    (hobject : objectIs accept.object actor.id = true) (hurl : parse actor.id = some url)
    {result : Option Unit} {db' : Database} :
  (finalizeMutuallyFollow relay accept actor (lit "Accept")).Ends (Performs relay.caseTable)
      db result db' ↔
    some () = result ∧
      (if isActorFollowers relay (some url) then
        (FollowerCall.update url.host true .answered).perform relay.caseTable db else db) = db'
  := by
  unfold finalizeMutuallyFollow
  rw [hurl]
  dsimp only
  cases isActorFollowers relay (some url) with
  | true => simp [hactor, hobject, updateFollowerStatus, Performs, and_comm, eq_comm]
  | false => simp

/-- A follower that was just added is complete, so its status can be set. -/
theorem perform_update_addFollower {U : CaseTable} {f : Follower}
    (hvalid : validateFollower U f = .ok ()) :
  (FollowerCall.update f.domain true .answered).perform U (db.addFollower U f) =
    update (db.addFollower U f) (followerKey (normalizeStateDomain U f.domain))
      (some ((Database.followerFields f (db.hash (followerKey (normalizeStateDomain U f.domain)))).set
        "mutually_follow" (lit "1")))
  := by
  have hdomain := (validateFollower_eq_ok.mp hvalid).1
  have hcomplete := followerFields_complete hvalid
    (db.hash (followerKey (normalizeStateDomain U f.domain)))
  simp only [FollowerCall.perform, executed]
  rw [if_pos ⟨hdomain, trivial⟩, addFollower_followerKey, updateFollowerStatusScript,
    if_pos hcomplete.hasFollowerFields]
  rfl

/-- The `Accept` of a follower that was just added is answered if and only if the follower is
loaded. -/
theorem confirms_iff (relay : Relay) (hactor : accept.actor = relay.relayActor.id)
    (hobject : objectIs accept.object actor.id = true) (hurl : parse actor.id = some url)
    (hvalid : validateFollower relay.caseTable (newFollower activity actor url) = .ok ()) :
  Confirms relay accept actor url.host
      (db.addFollower relay.caseTable (newFollower activity actor url)) ↔
    isActorFollowers relay (some url) = true
  := by
  constructor
  · rintro ⟨record, hrecord, hends⟩
    by_contra hfollower
    -- Nothing is changed if the follower is not loaded, so the status is that of a new follower.
    obtain ⟨-, hupdate⟩ := (hends (some ()) _).mp
      ((ends_finalizeMutuallyFollow hactor hobject hurl).mpr ⟨rfl, if_neg hfollower⟩)
    have hset := congrFun hupdate (followerKey (normalizeStateDomain relay.caseTable url.host))
    rw [update_self, hrecord] at hset
    have hone : record.stringValue "mutually_follow" = lit "1" := by
      rw [← Option.some.inj hset, Hash.stringValue_set_self]
    cases (addFollower_followerKey).symm.trans hrecord
    cases hone
  · intro hfollower
    refine ⟨_, addFollower_followerKey, fun result db' => ?_⟩
    rw [ends_finalizeMutuallyFollow hactor hobject hurl, if_pos hfollower]
    exact and_congr_right fun _ => Eq.congr (perform_update_addFollower hvalid) rfl

/-- Every `Accept` of a follower that was just added and loaded is answered if and only if the
follower is found by its name. -/
theorem forall_confirms_iff (relay : Relay) (hurl : parse actor.id = some url)
    (hvalid : validateFollower relay.caseTable (newFollower activity actor url) = .ok ())
    (l : Listing (db.addFollower relay.caseTable (newFollower activity actor url))) :
  (∀ accept : Activity, accept.actor = relay.relayActor.id →
      objectIs accept.object actor.id = true → Confirms (relay.loaded l) accept actor url.host
        (db.addFollower relay.caseTable (newFollower activity actor url))) ↔
    HasFollower relay.caseTable (db.addFollower relay.caseTable (newFollower activity actor url))
      (normalizedActorDomain relay (some url))
  := by
  rw [← isFollower_load_iff (l := l)]
  constructor
  · intro hall
    have hobject : objectIs (acceptOf relay actor).object actor.id = true := by
      simp [objectIs, acceptOf]
    exact (confirms_iff (relay.loaded l) rfl hobject hurl hvalid).mp
      (hall (acceptOf relay actor) rfl hobject)
  · intro hfollower accept hactor hobject
    exact (confirms_iff (relay.loaded l) hactor hobject hurl hvalid).mpr hfollower

end Accepting

/-- What a relay that has loaded a database knows of an actor. -/
theorem isActorSubscribersOrFollowers_loaded {relay : Relay} {db : Database} (l : Listing db)
    (url : Option URL) :
  isActorSubscribersOrFollowers (relay.loaded l) url = true ↔
    (db (subscriptionKey (normalizedActorDomain relay url))).isSome ∨
      HasFollower relay.caseTable db (normalizedActorDomain relay url)
  := by
  rw [isActorSubscribersOrFollowers, RelayState.isSubscriberOrFollower, Bool.or_eq_true]
  change (load relay.caseTable db l).isSubscriber _ = true ∨
    (load relay.caseTable db l).isFollower _ = true ↔ _
  rw [isSubscriber_load_iff, isFollower_load_iff]
  rfl

/-- After a `Follow` that is accepted and a `Load`, the actor is known as a subscriber or follower,
and the `Accept` of a follower is recorded, if and only if the actor is found by its name. -/
theorem follow_found_iff {relay : Relay} {activity : Activity} {actor : Actor} {url : URL}
    (hmanual : relay.state.relayConfig.manuallyAccept = false) (hurl : parse actor.id = some url)
    {db db₁ : Database} (l : Listing db₁)
    (hfollow : (executeFollowing relay activity actor).Ends (Performs relay.caseTable)
      db (some (.ok ())) db₁) :
  (isActorSubscribersOrFollowers (relay.loaded l) (parse actor.id) = true ∧
      (objectIs activity.object activityStreamsPublicAddress = false →
        ∀ accept : Activity, accept.actor = relay.relayActor.id →
          objectIs accept.object actor.id = true →
          Confirms (relay.loaded l) accept actor url.host db₁)) ↔
    FoundByName relay activity url db
  := by
  rw [hurl, isActorSubscribersOrFollowers_loaded]
  unfold FoundByName
  cases hpublic : objectIs activity.object activityStreamsPublicAddress with
  | true =>
    obtain ⟨-, url', endpoints, hurl', -, rfl⟩ :=
      (ends_followPublic hmanual hpublic).mp hfollow
    rw [hurl] at hurl'
    cases hurl'
    rw [isSome_addSubscriber, hasFollower_addSubscriber]
    simp [newSubscriber, or_assoc]
  | false =>
    obtain ⟨-, -, -, url', hurl', hvalid, rfl⟩ :=
      (ends_executeFollowing_relay hmanual hpublic).mp hfollow
    rw [hurl] at hurl'
    cases hurl'
    simp only [true_imp_iff, forall_confirms_iff relay hurl hvalid l, Bool.false_eq_true, if_false]
    rw [and_iff_right_of_imp Or.inr, hasFollower_addFollower_iff hvalid]
    rfl

theorem follow_found_plainHost :
  let actor := relayServer "https://b/u"
  ∃ (db₁ : Database) (l : Listing db₁),
    (executeFollowing (exampleRelay []) (followOf (exampleRelay []).relayActor.id) actor).Ends
        (Performs .identity) .empty (some (.ok ())) db₁ ∧
      isActorSubscribersOrFollowers ((exampleRelay []).loaded l) (parse actor.id) = true ∧
      ∀ accept : Activity, accept.actor = (exampleRelay []).relayActor.id →
        objectIs accept.object actor.id = true →
        Confirms ((exampleRelay []).loaded l) accept actor (lit "b") db₁
  := by
  have hurl : parse (relayServer "https://b/u").id = some (actorURL "b") := by decide +kernel
  have hable : isActorAbleToBeFollower (exampleRelay []) (relayServer "https://b/u") = true := by
    decide +kernel
  have hfollow := ends_follow_relayServer hurl hable (by decide +kernel)
  have hfound : FoundByName (exampleRelay []) (followOf (exampleRelay []).relayActor.id)
      (actorURL "b") .empty := by
    have hnormal : normalizeStateDomain (exampleRelay []).caseTable (lit "b") = lit "b" := by
      decide +kernel
    exact hnormal
  obtain ⟨hknown, hconfirms⟩ :=
    (follow_found_iff rfl hurl (addedListing (exampleRelay []).caseTable _) hfollow).mpr hfound
  exact ⟨_, addedListing _ _, hfollow, hknown, hconfirms followOf_relay⟩

/-- The host of the actor has a port. The follower is stored with it and searched for without it,
so it is not known and its `Accept` changes nothing. -/
theorem follower_with_port_not_found :
  ∃ (db₁ : Database) (l : Listing db₁),
    (executeFollowing (exampleRelay []) (followOf (exampleRelay []).relayActor.id)
        (relayServer "https://b:8080/u")).Ends (Performs .identity) .empty (some (.ok ())) db₁ ∧
      isActorSubscribersOrFollowers ((exampleRelay []).loaded l)
        (parse (relayServer "https://b:8080/u").id) = false ∧
      ∀ result db₂, (finalizeMutuallyFollow ((exampleRelay []).loaded l)
          (acceptOf (exampleRelay []) (relayServer "https://b:8080/u"))
          (relayServer "https://b:8080/u") (lit "Accept")).Ends
        (Performs ((exampleRelay []).loaded l).caseTable) db₁ result db₂ ↔
          some () = result ∧ db₁ = db₂
  := by
  have hurl : parse (relayServer "https://b:8080/u").id = some (actorURL "b:8080") := by
    decide +kernel
  have hable : isActorAbleToBeFollower (exampleRelay []) (relayServer "https://b:8080/u") =
      true := by
    decide +kernel
  have hfollow := ends_follow_relayServer hurl hable (by decide +kernel)
  generalize addedListing (exampleRelay []).caseTable (newFollower (followOf (exampleRelay
    []).relayActor.id) (relayServer "https://b:8080/u") (actorURL "b:8080")) = l
  refine ⟨_, l, hfollow, ?_⟩
  have hname : normalizedActorDomain ((exampleRelay []).loaded l) (some (actorURL "b:8080")) =
      lit "b" := by
    change normalizedActorDomain (exampleRelay []) (some (actorURL "b:8080")) = lit "b"
    decide +kernel
  have hfollower : ¬ isActorFollowers ((exampleRelay []).loaded l) (some (actorURL "b:8080")) =
      true := by
    rw [isActorFollowers, hname, Relay.loaded, isFollower_load_iff, HasFollower]
    decide +kernel
  have hsubscriber : ¬ ((exampleRelay []).loaded l).state.isSubscriber (lit "b") = true := by
    rw [Relay.loaded, isSubscriber_load_iff]
    decide +kernel
  constructor
  · rw [isActorFollowers, hname] at hfollower
    rw [hurl, isActorSubscribersOrFollowers, hname, RelayState.isSubscriberOrFollower,
      eq_false_of_ne_true hfollower, eq_false_of_ne_true hsubscriber]
    rfl
  · intro result db₂
    rw [ends_finalizeMutuallyFollow rfl (by simp [objectIs, acceptOf]) hurl, if_neg hfollower]

end Api
