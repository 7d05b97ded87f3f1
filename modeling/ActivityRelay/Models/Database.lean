import Mathlib.Logic.Function.Basic
import ActivityRelay.Models.State
import ActivityRelay.NetUrl.Url

/-!
# The state of the relay in Redis

The relay keeps its configuration, its subscribers and its followers in hashes of Redis. `Load`
reads all of them; the other methods of `RelayState` change one hash each.

`SCAN` and `HKEYS` list what is there in no particular order, and `SCAN` may list a key more than
once. What they answer is a `Listing` of the database.
-/

namespace Models

open GoString

/-- The hashes, by key. -/
abbrev Database := GoString → Option Hash

/-! ### Keys -/

def subscriptionPattern : GoString := lit "relay:subscription:"

def followerPattern : GoString := lit "relay:follower:"

def publisherPattern : GoString := lit "relay:publisher:"

variable (domain : GoString)

def subscriptionKey : GoString := subscriptionPattern ++ domain

def followerKey : GoString := followerPattern ++ domain

def pendingKey : GoString := lit "relay:pending:" ++ domain

def configKey : GoString := lit "relay:config"

def limitedDomainKey : GoString := lit "relay:config:limitedDomain"

def blockedDomainKey : GoString := lit "relay:config:blockedDomain"

/-! ### Commands -/

namespace Database

def empty : Database := fun _ => none

/-- The hash of a key; an absent key reads as a hash without fields. -/
def hash (db : Database) (key : GoString) : Hash := (db key).getD (fun _ => none)

/-- A change of the hash of a key, which creates the key if it is absent. -/
def modify (db : Database) (key : GoString) (f : Hash → Hash) : Database :=
  Function.update db key (some (f (db.hash key)))

def del (db : Database) (key : GoString) : Database := Function.update db key none

end Database

/-- The answers of `SCAN`, for the patterns that are a text followed by a star, and of `HKEYS`. -/
structure Listing (db : Database) where
  scan : GoString → List GoString
  hkeys : GoString → List GoString
  mem_scan (pattern key : GoString) :
    key ∈ scan pattern ↔ pattern <+: key ∧ (db key).isSome
  nodup_hkeys (key : GoString) : (hkeys key).Nodup
  mem_hkeys (key field : GoString) :
    field ∈ hkeys key ↔ (db.hash key field).isSome

namespace Listing

def scanKeys {db : Database} (l : Listing db) (pattern : GoString) : List GoString :=
  sortStrings (l.scan pattern)

/-- The fields of a hash, sorted. -/
def fields {db : Database} (l : Listing db) (key : GoString) : List GoString :=
  sortStrings (l.hkeys key)

end Listing

/-! ### Followers that are accepted -/

/-- The fields of a follower that hold an address. -/
inductive FollowerURLField
  | actorID
  | inboxURL
  deriving DecidableEq, Repr

/-- The name of the field in an error. -/
def FollowerURLField.name : FollowerURLField → GoString
  | .actorID => lit "follower actor_id"
  | .inboxURL => lit "follower inbox_url"

/-- Why a follower is refused. -/
inductive FollowerError
  | domainEmpty
  | urlInvalid (field : FollowerURLField)
  | urlScheme (field : FollowerURLField)
  | urlHost (field : FollowerURLField)
  | urlUser (field : FollowerURLField)
  | domainMismatch (actorDomain domain : GoString)
  | activityIDEmpty
  deriving DecidableEq, Repr

/-- The text of the error. That of an address that does not parse ends with the error of the
parser, which is not modelled. -/
def FollowerError.text : FollowerError → GoString
  | domainEmpty => lit "follower domain is empty"
  | urlInvalid field => field.name ++ lit " is invalid: "
  | urlScheme field => field.name ++ lit " must use http or https"
  | urlHost field => field.name ++ lit " has no host"
  | urlUser field => field.name ++ lit " contains user information"
  | domainMismatch actorDomain domain =>
      lit "follower actor domain \"" ++ actorDomain ++ lit "\" does not match stored domain \"" ++
        domain ++ lit "\""
  | activityIDEmpty => lit "follower activity_id is empty"

/-- `validateFollowerURL`, which also gives the address. -/
def validateFollowerURL (field : FollowerURLField) (value : GoString) :
    Except FollowerError NetUrl.URL :=
  match NetUrl.parse (trimSpace value) with
  | none => .error (.urlInvalid field)
  | some parsed =>
      if parsed.scheme ≠ lit "http" ∧ parsed.scheme ≠ lit "https" then .error (.urlScheme field)
      else if parsed.hostname = [] then .error (.urlHost field)
      else if parsed.user.isSome then .error (.urlUser field)
      else .ok parsed

def validateFollower (U : CaseTable) (follower : Follower) : Except FollowerError Unit :=
  let domain := normalizeStateDomain U follower.domain
  if domain = [] then .error .domainEmpty
  else
    match validateFollowerURL .actorID follower.actorID with
    | .error err => .error err
    | .ok actorURL =>
        let actorDomain := normalizeStateDomain U actorURL.host
        if actorDomain ≠ domain then .error (.domainMismatch actorDomain domain)
        else
          match validateFollowerURL .inboxURL follower.inboxURL with
          | .error err => .error err
          | .ok _ =>
              if trimSpace follower.activityID = [] then .error .activityIDEmpty else .ok ()

/-- The text for a flag in a hash. -/
def flagText (value : Bool) : GoString := if value then lit "1" else lit "0"

/-! ### Loading -/

def loadRelayConfig (db : Database) : RelayConfig where
  personOnly := (db.hash configKey).stringValue "block_service" = lit "1"
  manuallyAccept := (db.hash configKey).stringValue "manually_accept" = lit "1"

/-- The record that `Load` makes of the hash of a subscriber. -/
def loadSubscriber (h : Hash) : Subscriber where
  domain := domain
  inboxURL := h.stringValue "inbox_url"
  activityID := h.stringValue "activity_id"
  actorID := h.stringValue "actor_id"

/-- The record that `Load` makes of the hash of a follower, unless it is invalid. -/
def loadFollower (U : CaseTable) (domain : GoString) (h : Hash) : Option Follower :=
  let mutuallyFollow := h.stringValue "mutually_follow"
  let follower : Follower :=
    { domain := domain
      inboxURL := h.stringValue "inbox_url"
      activityID := h.stringValue "activity_id"
      actorID := h.stringValue "actor_id"
      mutuallyFollow := mutuallyFollow = lit "1" }
  match validateFollower U follower with
  | .error _ => none
  | .ok _ =>
      if mutuallyFollow ≠ lit "0" ∧ mutuallyFollow ≠ lit "1" then none else some follower

/-- `Load`: the state that is published if Redis answers every command. -/
def load (U : CaseTable) (db : Database) (l : Listing db) : RelayState :=
  let subscribers := (l.scanKeys subscriptionPattern).map fun key =>
    loadSubscriber (key.drop subscriptionPattern.length) (db.hash key)
  let followers := (l.scanKeys followerPattern).filterMap fun key =>
    loadFollower U (key.drop followerPattern.length) (db.hash key)
  let publishers := (l.scanKeys publisherPattern).map fun key =>
    loadPublisher (key.drop publisherPattern.length) (db.hash key)
  { relayConfig := loadRelayConfig db
    limitedDomains := l.fields limitedDomainKey
    blockedDomains := l.fields blockedDomainKey
    subscribers := subscribers
    followers := followers
    publishers := publishers
    subscribersAndFollowers := subscribers ++ followers.map Follower.toSubscriber
    publishersByDomain := publisherSet publishers }

section Load

variable {U : CaseTable} {db : Database} {l : Listing db}

theorem Listing.mem_scanKeys {pattern key : GoString} :
  key ∈ l.scanKeys pattern ↔ pattern <+: key ∧ (db key).isSome
  := mem_sortStrings.trans (l.mem_scan pattern key)

/-- The subscribers that are loaded are those that the hash of their domain gives. -/
theorem mem_subscribers {x : Subscriber} :
  x ∈ (load U db l).subscribers ↔
    (db (subscriptionKey x.domain)).isSome ∧
      loadSubscriber x.domain (db.hash (subscriptionKey x.domain)) = x
  := by
  simp only [load, List.mem_map, Listing.mem_scanKeys]
  constructor
  · rintro ⟨key, ⟨⟨domain, rfl⟩, hsome⟩, rfl⟩
    exact ⟨hsome, rfl⟩
  · rintro ⟨hsome, hx⟩
    refine ⟨subscriptionKey x.domain, ⟨List.prefix_append .., hsome⟩, ?_⟩
    exact hx

/-- Without hashes of followers, none is loaded. -/
theorem followers_eq_nil (h : ∀ domain, db (followerKey domain) = none) :
  (load U db l).followers = []
  := by
  have hscan : l.scanKeys followerPattern = [] := by
    rw [List.eq_nil_iff_forall_not_mem]
    intro key hkey
    obtain ⟨⟨domain, rfl⟩, hsome⟩ := Listing.mem_scanKeys.mp hkey
    rw [show db (followerPattern ++ domain) = none from h domain] at hsome
    cases hsome
  simp only [load, hscan, List.filterMap_nil]

end Load

/-! ### Changes -/

/-- The keys of `RelayConfig`. -/
inductive Config
  | personOnly
  | manuallyAccept
  deriving DecidableEq, Repr

namespace Database

variable (db : Database)

def setConfig (key : Config) (value : Bool) : Database :=
  db.modify configKey fun h =>
    match key with
    | .personOnly => h.set "block_service" (flagText value)
    | .manuallyAccept => h.set "manually_accept" (flagText value)

def addSubscriber (subscriber : Subscriber) : Database :=
  db.modify (subscriptionKey subscriber.domain) fun h =>
    ((h.set "inbox_url" subscriber.inboxURL).set "activity_id" subscriber.activityID).set
      "actor_id" subscriber.actorID

/-- The write of `SetLimitedDomain` and of `SetBlockedDomain`, to the hash of their list. Redis
removes a hash without fields; here it may stay, since nothing asks whether there is one. -/
def setDomain (key domain : GoString) (value : Bool) : Database :=
  db.modify key fun h => Function.update h domain (if value then some (lit "1") else none)

def setLimitedDomain (domain : GoString) (value : Bool) : Database :=
  db.setDomain limitedDomainKey domain value

def setBlockedDomain (domain : GoString) (value : Bool) : Database :=
  db.setDomain blockedDomainKey domain value

/-- The fields that `AddFollowerChecked` sets. -/
def followerFields (follower : Follower) (h : Hash) : Hash :=
  (((h.set "inbox_url" follower.inboxURL).set "activity_id" follower.activityID).set
    "actor_id" follower.actorID).set "mutually_follow" (flagText follower.mutuallyFollow)

/-- The write of `AddFollowerChecked`. -/
def addFollower (U : CaseTable) (db : Database) (follower : Follower) : Database :=
  db.modify (followerKey (normalizeStateDomain U follower.domain)) (followerFields follower)

end Database

end Models
