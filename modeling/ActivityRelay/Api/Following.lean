import ActivityRelay.Api.Inbox
import ActivityRelay.Inbound.LegacySignature
import ActivityRelay.Interaction.Panic

/-!
# Panics of requests to follow

`executeFollowing`, step by step: each pointer that it dereferences and each type assertion that it
makes is a step that may panic. The URL of an actor is nil if its ID does not parse, and an actor
document need not have endpoints. The object of an activity is a string wherever it is asserted to
be one.
-/

namespace Api

open ApiM GoString GoJson Interaction Models NetUrl Prog
open Interaction.Prog (deref Panicking NeverPanics)

/-! ### The steps -/

/-- The type assertion that a JSON value is a string. -/
def asString : Option Json → Option GoString
  | some (.string s) => some s
  | _ => none

section Steps

variable (relay : Relay)

/-- `executeFollowing`, with all steps that may panic. -/
def executeFollowingSteps (activity : Activity) (actor : Actor) :
    Panicking ApiOp ApiOp.Reply (Except GoString Unit) := do
  let actorID := parse actor.id
  if isActorBlocked relay actorID then
    let url ← deref actorID
    return .error (url.host ++ lit " is blocked")
  else if objectIs activity.object activityStreamsPublicAddress then
    if relay.state.relayConfig.manuallyAccept then
      let url ← deref actorID
      let endpoints ← deref actor.endpoints
      let object ← deref (asString activity.object)
      OptionT.lift
        (setPending url.host (pendingFollow activity actor endpoints.sharedInbox object))
      return .ok ()
    else
      let uuid ← OptionT.lift newUUID
      OptionT.lift
        (enqueueRegister actor.inbox (.reply (activity.generateReply uuid relay.relayActor "Accept")))
      let url ← deref actorID
      let endpoints ← deref actor.endpoints
      OptionT.lift (addSubscriber ⟨url.host, endpoints.sharedInbox, activity.id, actor.id⟩)
      return .ok ()
  else if objectIs activity.object relay.relayActor.id && isActorAbleToBeFollower relay actor then
    if relay.state.relayConfig.manuallyAccept then
      let url ← deref actorID
      let object ← deref (asString activity.object)
      OptionT.lift (setPending url.host (pendingFollow activity actor actor.inbox object))
      return .ok ()
    else
      let url ← deref actorID
      let follower : Follower := ⟨url.host, actor.inbox, activity.id, actor.id, false⟩
      let stored ← OptionT.lift (addFollower follower)
      match stored with
      | some e => return .error (lit "store follower: " ++ e)
      | none =>
          let uuid ← OptionT.lift newUUID
          OptionT.lift (enqueueRegister actor.inbox
            (.reply (activity.generateReply uuid relay.relayActor "Accept")))
          OptionT.lift (executeMutuallyFollow relay follower)
          return .ok ()
  else return .error onlyFollowed

end Steps

section Panics

variable (relay : Relay) (activity : Activity) (actor : Actor)

theorem asString_of_objectIs {object : Option Json} {key : GoString}
    (h : objectIs object key = true) :
  asString object = some key
  := by
  unfold objectIs at h
  split at h
  case h_1 s => exact congrArg some (of_decide_eq_true h)
  case h_2 => cases h

theorem parse_of_isActorAbleToBeFollower (h : isActorAbleToBeFollower relay actor = true) :
  ∃ url, parse actor.id = some url
  := by
  unfold isActorAbleToBeFollower at h
  split at h
  case h_1 => cases h
  case h_2 url hurl => exact ⟨url, hurl⟩

/-- The steps are those of `executeFollowing`. -/
theorem run_executeFollowingSteps :
  (executeFollowingSteps relay activity actor).run = executeFollowing relay activity actor
  := by
  unfold executeFollowingSteps executeFollowing followPublic followRelay
  dsimp only
  split_ifs with hblocked hpublic hmanual hrelay hmanual'
  · cases parse actor.id with
    | none | some => rfl
  · rw [asString_of_objectIs hpublic]
    cases parse actor.id with
    | none => rfl
    | some url =>
      cases actor.endpoints with
      | none | some => rfl
  · cases parse actor.id with
    | none => rfl
    | some url =>
      cases actor.endpoints with
      | none | some => rfl
  · rw [Bool.and_eq_true] at hrelay
    rw [asString_of_objectIs hrelay.1]
    cases parse actor.id with
    | none | some => rfl
  · cases parse actor.id with
    | none => rfl
    | some url =>
      refine congrArg (call _) (funext (fun stored => ?_))
      cases stored with
      | some e => rfl
      | none =>
        refine congrArg (call _) (funext (fun uuid => ?_))
        exact congrArg (call _) (funext (fun _ => run_lift_bind _ _))
  · rfl

/-- **Panics of requests to follow.** -/
theorem executeFollowing_neverPanics_iff :
  NeverPanics (executeFollowingSteps relay activity actor) ↔
    (isActorBlocked relay (parse actor.id) = true → parse actor.id ≠ none) ∧
      (isActorBlocked relay (parse actor.id) = false →
        objectIs activity.object activityStreamsPublicAddress = true →
          parse actor.id ≠ none ∧ actor.endpoints ≠ none)
  := by
  unfold executeFollowingSteps setPending newUUID enqueueRegister addSubscriber addFollower
  dsimp only
  split_ifs with hblocked hpublic hmanual hrelay hmanual'
  · simp [hblocked, Option.ne_none_iff_exists']
  · simp [hblocked, hpublic, asString_of_objectIs hpublic, Option.ne_none_iff_exists']
  · simp [hblocked, hpublic, Option.ne_none_iff_exists']
  · rw [Bool.and_eq_true] at hrelay
    obtain ⟨url, hurl⟩ := parse_of_isActorAbleToBeFollower relay actor hrelay.2
    simp [hpublic, hurl, asString_of_objectIs hrelay.1]
  · rw [Bool.and_eq_true] at hrelay
    obtain ⟨url, hurl⟩ := parse_of_isActorAbleToBeFollower relay actor hrelay.2
    refine iff_of_true ?_ (by simp [hpublic, hurl])
    rw [neverPanics_deref_bind]
    refine ⟨url, hurl, (neverPanics_op_bind _ _).mpr ?_⟩
    rintro (- | e)
    · simp [neverPanics_lift_bind]
    · exact neverPanics_pure _
  · simp [hblocked, hpublic]

end Panics

/-! ### Requests that panic -/

def followActivity : Activity where
  actor := Inbound.victimActor
  type := lit "Follow"
  object := some (.string activityStreamsPublicAddress)

def emptyReply : (o : ApiOp) → ApiOp.Reply o
  | .newUUID => []
  | .setNX _ _ => none
  | .compareDel _ _ => ()
  | .recordPublisherActivity _ => none
  | .enqueueActivityExcept _ _ _ => true
  | .enqueueRegisterActivity _ _ => ()
  | .setPending _ _ => ()
  | .addSubscriber _ => ()
  | .addFollowerChecked _ => none
  | .delSubscriber _ => ()
  | .delFollower _ => ()
  | .updateFollowerStatusChecked _ _ => none

theorem not_neverPanics_of_exec {α : Type} {p : Panicking ApiOp ApiOp.Reply α}
    (h : (p.run.exec (fun _ => emptyReply)).2 = none) :
  ¬ NeverPanics p
  := by
  intro hnever
  exact hnever _ _ (runs_exec (fun _ => emptyReply) p.run) h

set_option maxRecDepth 20000 in
/-- The actor document has no endpoints. The request is accepted, its activity is executed as a
`Follow`, and there is a panic. -/
theorem follow_without_endpoints :
  Inbound.decodeActivity (Inbound.lineRelay Inbound.dateSignature Inbound.dateLine)
      Inbound.lineSurroundings (Inbound.lineRequest Inbound.dateSignature Inbound.followBody) =
        .ok (followActivity, { id := Inbound.victimActor }, Inbound.followBody) ∧
    (∀ remote, handleActivity (exampleRelay []) remote followActivity { id := Inbound.victimActor }
        Inbound.followBody =
      handleFollow (exampleRelay []) followActivity { id := Inbound.victimActor }) ∧
    ¬ NeverPanics (executeFollowingSteps (exampleRelay []) followActivity { id := Inbound.victimActor })
  := by
  refine ⟨rfl, fun _ => rfl, not_neverPanics_of_exec rfl⟩

end Api
