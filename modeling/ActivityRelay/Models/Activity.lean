import ActivityRelay.Models.ActivityPub

/-!
# Activities of the relay

The activities that the relay makes itself, what it reads out of the object of an activity, and
the policy that says which activities are distributed because they are addressed to the public.
-/

namespace Models

open GoString GoJson

/-! ### New activities -/

def Actor.followers (actor : Actor) : GoString :=
  if actor.followersURL ≠ [] then actor.followersURL else actor.id ++ lit "/followers"

/-- The context of the activities of the relay. -/
def activityContext : Json := .array [.string (lit "https://www.w3.org/ns/activitystreams")]

/-- `NewActivityPubActivity`, for an object that is given by its ID. -/
def newActivityPubActivity (uuid : GoString) (actor : Actor) (toAddresses : List GoString)
    (object : GoString) (activityType : String) : Activity where
  context := some activityContext
  id := actor.id ++ lit "/activities/" ++ uuid
  actor := actor.id
  type := lit activityType
  object := some (.string object)
  toAddresses := toAddresses

/-- An activity whose object is another activity. -/
structure ActivityReply where
  context : Json
  id : GoString
  actor : GoString
  type : GoString
  object : Activity
  toAddresses : List GoString

/-- `GenerateReply`, with the activity itself as the object. -/
def Activity.generateReply (activity : Activity) (uuid : GoString) (actor : Actor)
    (activityType : String) : ActivityReply where
  context := activityContext
  id := actor.id ++ lit "/activities/" ++ uuid
  actor := actor.id
  type := lit activityType
  object := activity
  toAddresses := [activity.actor]

/-! ### Objects -/

/-- The value of a key in the map that an object is decoded into; the last member counts. -/
def member (members : List (GoString × Json)) (key : String) : Option Json :=
  (members.reverse.find? (fun m => m.1 = lit key)).map Prod.snd

/-- The string of a key. -/
def stringMember (members : List (GoString × Json)) (key : String) : Option GoString :=
  match member members key with
  | some (.string s) => some s
  | _ => none

/-- `UnwrapInnerActivity`. The inner activity has an object, which may be `null`. -/
def Activity.unwrapInnerActivity (activity : Activity) : Option Activity :=
  match activity.object with
  | some (.object members) => do
      let id ← stringMember members "id"
      let type ← stringMember members "type"
      let actor ← stringMember members "actor"
      let object ← member members "object"
      some { id := id, type := type, actor := actor, object := (decodeAny object none).1 }
  | _ => none

def Activity.unwrapInnerObjectId (activity : Activity) : Option GoString :=
  match activity.object with
  | some (.string id) => some id
  | some (.object members) => stringMember members "id"
  | _ => none

/-! ### Public addresses -/

def activityStreamsPublicAddress : GoString := lit "https://www.w3.org/ns/activitystreams#Public"

inductive PublicAddressDistributionPolicy
  | explicitPublicOnly
  | publicAndUnlisted
  deriving DecidableEq, Repr

namespace PublicAddressDistributionPolicy

variable (policy : PublicAddressDistributionPolicy)

def allows (toAddresses ccAddresses : List GoString) : Bool :=
  toAddresses.contains activityStreamsPublicAddress ||
    policy = publicAndUnlisted && ccAddresses.contains activityStreamsPublicAddress

def excludesPublicOnlyInCC (toAddresses ccAddresses : List GoString) : Bool :=
  policy = explicitPublicOnly && !toAddresses.contains activityStreamsPublicAddress &&
    ccAddresses.contains activityStreamsPublicAddress

theorem allows_iff {toAddresses ccAddresses : List GoString} :
  policy.allows toAddresses ccAddresses = true ↔
    activityStreamsPublicAddress ∈ toAddresses ∨
      policy = publicAndUnlisted ∧ activityStreamsPublicAddress ∈ ccAddresses
  := by
  simp [allows]

end PublicAddressDistributionPolicy

end Models
