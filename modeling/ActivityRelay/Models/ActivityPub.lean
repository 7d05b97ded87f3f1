import Mathlib.Logic.Function.Basic
import ActivityRelay.GoJson.Decode
import ActivityRelay.NetUrl.Url

/-!
# Actors and activities

The ActivityPub documents of the relay, and how they are read from remote hosts. A host may
serve any document. What it serves is kept in a cache, so a document that is found there has
been fetched before (`ActorCache`).
-/

namespace Models

open GoString GoJson NetUrl

/-! ### Documents -/

structure PublicKey where
  id : GoString := []
  owner : GoString := []
  publicKeyPem : GoString := []
  deriving DecidableEq, Repr

structure Endpoints where
  sharedInbox : GoString := []
  deriving DecidableEq, Repr

structure Image where
  url : GoString := []
  deriving DecidableEq, Repr

structure Actor where
  context : Option Json := none
  id : GoString := []
  type : GoString := []
  name : GoString := []
  preferredUsername : GoString := []
  summary : GoString := []
  inbox : GoString := []
  outbox : GoString := []
  followingURL : GoString := []
  followersURL : GoString := []
  endpoints : Option Endpoints := none
  publicKey : PublicKey := {}
  icon : Option Image := none
  image : Option Image := none

structure Activity where
  context : Option Json := none
  id : GoString := []
  actor : GoString := []
  type : GoString := []
  object : Option Json := none
  toAddresses : List GoString := []
  ccAddresses : List GoString := []

def decodePublicKey : Decoder PublicKey :=
  decodeStruct [
    field "id" decodeString PublicKey.id (fun k v => { k with id := v }),
    field "owner" decodeString PublicKey.owner (fun k v => { k with owner := v }),
    field "publicKeyPem" decodeString PublicKey.publicKeyPem
      (fun k v => { k with publicKeyPem := v })]

def decodeEndpoints : Decoder Endpoints :=
  decodeStruct [
    field "sharedInbox" decodeString Endpoints.sharedInbox (fun e v => { e with sharedInbox := v })]

def decodeImage : Decoder Image :=
  decodeStruct [field "url" decodeString Image.url (fun i v => { i with url := v })]

def decodeActor : Decoder Actor :=
  decodeStruct [
    field "@context" decodeAny Actor.context (fun a v => { a with context := v }),
    field "id" decodeString Actor.id (fun a v => { a with id := v }),
    field "type" decodeString Actor.type (fun a v => { a with type := v }),
    field "name" decodeString Actor.name (fun a v => { a with name := v }),
    field "preferredUsername" decodeString Actor.preferredUsername
      (fun a v => { a with preferredUsername := v }),
    field "summary" decodeString Actor.summary (fun a v => { a with summary := v }),
    field "inbox" decodeString Actor.inbox (fun a v => { a with inbox := v }),
    field "outbox" decodeString Actor.outbox (fun a v => { a with outbox := v }),
    field "following" decodeString Actor.followingURL (fun a v => { a with followingURL := v }),
    field "followers" decodeString Actor.followersURL (fun a v => { a with followersURL := v }),
    field "endpoints" (decodePointer {} decodeEndpoints) Actor.endpoints
      (fun a v => { a with endpoints := v }),
    field "publicKey" decodePublicKey Actor.publicKey (fun a v => { a with publicKey := v }),
    field "icon" (decodePointer {} decodeImage) Actor.icon (fun a v => { a with icon := v }),
    field "image" (decodePointer {} decodeImage) Actor.image (fun a v => { a with image := v })]

def decodeActivityDocument : Decoder Activity :=
  decodeStruct [
    field "@context" decodeAny Activity.context (fun a v => { a with context := v }),
    field "id" decodeString Activity.id (fun a v => { a with id := v }),
    field "actor" decodeString Activity.actor (fun a v => { a with actor := v }),
    field "type" decodeString Activity.type (fun a v => { a with type := v }),
    field "object" decodeAny Activity.object (fun a v => { a with object := v }),
    field "to" decodeStrings Activity.toAddresses (fun a v => { a with toAddresses := v }),
    field "cc" decodeStrings Activity.ccAddresses (fun a v => { a with ccAddresses := v })]

/-! ### Remote documents -/

/-- A response to a `GET`, after redirects. There is no body if it cannot be read. -/
structure Response where
  status : ℕ
  body : Option GoString

/-- A host that a request can be sent to: it is not empty, and no name with white space in it is
resolved. -/
def Reachable (host : GoString) : Prop := host ≠ [] ∧ ∀ r ∈ decode host, isSpaceRune r = false

/-- What the remote hosts answer at some moment, to requests that the signer of the relay has
signed. -/
structure Network where
  get : URL → Except GoString Response
  reachable : ∀ url response, get url = .ok response → Reachable url.host

/-- The errors of `fetchRemoteJSON`. -/
inductive FetchError
  | request
  | scheme (scheme : GoString)
  | signer
  | exchange (error : GoString)
  | status (status : ℕ)
  | read
  | tooLarge
  | json
  deriving DecidableEq, Repr

def maxRemoteJSONBytes : ℕ := 2 * 1024 * 1024

/-- The part of `fetchRemoteJSON` that does not depend on the response. -/
def remoteURL (signer : Bool) (address : GoString) : Except FetchError URL :=
  match parse address with
  | none => .error .request
  | some url =>
      if url.scheme ≠ lit "http" ∧ url.scheme ≠ lit "https" then .error (.scheme url.scheme)
      else if signer = false then .error .signer
      else .ok url

/-- The data of a response. -/
def responseData (response : Response) : Except FetchError GoString :=
  if response.status ≠ 200 then .error (.status response.status)
  else
    match response.body with
    | none => .error .read
    | some data => if maxRemoteJSONBytes < data.length then .error .tooLarge else .ok data

/-- `fetchRemoteJSON`: what is decoded into a value that is there, and the data. -/
def fetchRemoteJSON {α : Type} (signer : Bool) (network : Network) (address : GoString)
    (decoder : Decoder α) (old : α) : α × Except FetchError GoString :=
  match remoteURL signer address with
  | .error e => (old, .error e)
  | .ok url =>
      match network.get url with
      | .error e => (old, .error (.exchange e))
      | .ok response =>
          match responseData response with
          | .error e => (old, .error e)
          | .ok data =>
              let r := unmarshal decoder data old
              (r.1, if r.2 then .ok data else .error .json)

/-- An address that something can be fetched from. -/
def Fetchable (address : GoString) : Prop :=
  ∃ url, parse address = some url ∧ (url.scheme = lit "http" ∨ url.scheme = lit "https") ∧
    Reachable url.host

theorem remoteURL_ok {signer : Bool} {address : GoString} {url : URL}
    (h : remoteURL signer address = .ok url) :
  parse address = some url ∧ (url.scheme = lit "http" ∨ url.scheme = lit "https")
  := by
  unfold remoteURL at h
  split at h
  · cases h
  · rename_i url' hparse
    split_ifs at h with hscheme hsigner
    cases h
    use hparse
    by_contra hnot
    exact hscheme (not_or.mp hnot)

/-- What is fetched comes from an address of the network, and can be decoded. -/
theorem fetchRemoteJSON_ok {α : Type} {signer : Bool} {network : Network} {address : GoString}
    {decoder : Decoder α} {old : α} {data : GoString}
    (h : (fetchRemoteJSON signer network address decoder old).2 = .ok data) :
  Fetchable address ∧ (unmarshal decoder data old).2 = true
  := by
  unfold fetchRemoteJSON at h
  cases hurl : remoteURL signer address with
  | error e =>
    rw [hurl] at h
    cases h
  | ok url =>
    cases hget : network.get url with
    | error e =>
      simp only [hurl, hget] at h
      cases h
    | ok response =>
      cases hdata : responseData response with
      | error e =>
        simp only [hurl, hget, hdata] at h
        cases h
      | ok data' =>
        simp only [hurl, hget, hdata] at h
        split_ifs at h with hdecode
        cases h
        obtain ⟨hparse, hscheme⟩ := remoteURL_ok hurl
        exact ⟨⟨url, hparse, hscheme, network.reachable url response hget⟩, hdecode⟩

/-! ### The cache of actors -/

/-- The data was fetched from the address, and is that of an actor. -/
def Fetched (address data : GoString) : Prop :=
  Fetchable address ∧ (unmarshal decodeActor data {}).2 = true

/-- The cache of actor documents. -/
structure ActorCache where
  entries : GoString → Option GoString
  fetched : ∀ address data, entries address = some data → Fetched address data

/-- What a lookup of an actor depends on: the cache, whether there is a signer, and the
network. -/
structure Lookup where
  cache : ActorCache
  signer : Bool
  network : Network

/-- The actor that is fetched into a given one, and the entries of the cache after it. -/
def fetchActor (lookup : Lookup) (url : GoString) (actor : Actor)
    (entries : GoString → Option GoString) : Except FetchError Actor × (GoString → Option GoString) :=
  match fetchRemoteJSON lookup.signer lookup.network url decodeActor actor with
  | (_, .error e) => (.error e, entries)
  | (actor, .ok data) => (.ok actor, Function.update entries url (some data))

/-- `NewActivityPubActorFromRemoteActor`, and the entries of the cache after it. -/
def newActivityPubActorFromRemoteActor (lookup : Lookup) (url : GoString) :
    Except FetchError Actor × (GoString → Option GoString) :=
  match (lookup.cache.entries url).map (fun data => unmarshal decodeActor data {}) with
  | some (actor, true) => (.ok actor, lookup.cache.entries)
  | some (actor, false) =>
      -- the actor keeps what could be decoded of the cached data
      fetchActor lookup url actor (Function.update lookup.cache.entries url none)
  | none => fetchActor lookup url {} lookup.cache.entries

/-- What is cached can be decoded. -/
theorem ActorCache.decodes (cache : ActorCache) {url : GoString} {actor : Actor} :
  (cache.entries url).map (fun data => unmarshal decodeActor data {}) ≠ some (actor, false)
  := by
  intro h
  obtain ⟨data, hdata, hdecode⟩ := Option.map_eq_some_iff.mp h
  have hok := (cache.fetched url data hdata).2
  rw [hdecode] at hok
  cases hok

/-- An actor is looked up at an address that something can be fetched from. -/
theorem fetchable_of_lookup {lookup : Lookup} {url : GoString} {actor : Actor}
    (h : (newActivityPubActorFromRemoteActor lookup url).1 = .ok actor) :
  Fetchable url
  := by
  unfold newActivityPubActorFromRemoteActor at h
  split at h
  · rename_i hcached
    obtain ⟨data, hdata, -⟩ := Option.map_eq_some_iff.mp hcached
    exact (lookup.cache.fetched url data hdata).1
  · rename_i hcached
    exact absurd hcached lookup.cache.decodes
  · unfold fetchActor at h
    split at h
    · cases h
    · rename_i data hfetch
      exact (fetchRemoteJSON_ok (congrArg Prod.snd hfetch)).1

end Models
