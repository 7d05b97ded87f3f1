import Mathlib.Data.Set.Card
import ActivityRelay.Models.Followers

/-!
# What `Load` publishes

The lists that `Load` publishes, by what is in Redis. A subscriber and a publisher are loaded of
every hash with their prefix, a follower of every hash that is valid for the domain of its key.

Two things can go wrong. `SCAN` may report a key twice, and `ScanKeys` sorts the keys without
removing repetitions; the lists are in strict order if and only if that does not happen. And the
domain of a key is normalised again when a follower is validated, which changes it if it ends in a
dot; a follower that was added is loaded if and only if it does not change.
-/

namespace Models

open GoString Database Function List

/-! ### The records of the lists -/

section Records

variable {U : CaseTable} {db : Database} {l : Listing db} {d : GoString} {h : Hash}

theorem loadFollower_eq_some {x : Follower} :
  loadFollower U d h = some x ↔
    x.domain = d ∧ x.inboxURL = h.stringValue "inbox_url" ∧
      x.activityID = h.stringValue "activity_id" ∧ x.actorID = h.stringValue "actor_id" ∧
      flagText x.mutuallyFollow = h.stringValue "mutually_follow" ∧
      validateFollower U x = .ok ()
  := by
  unfold loadFollower
  dsimp only
  constructor
  · intro hload
    split at hload
    case h_1 => cases hload
    case h_2 hvalid =>
      split at hload
      case isTrue => cases hload
      case isFalse hstatus =>
        cases hload
        refine ⟨rfl, rfl, rfl, rfl, ?_, hvalid⟩
        by_cases hone : h.stringValue "mutually_follow" = lit "1"
        · rw [hone]
          rfl
        · have hzero : h.stringValue "mutually_follow" = lit "0" := by
            by_contra hzero
            exact hstatus ⟨hzero, hone⟩
          rw [hzero]
          rfl
  · obtain ⟨domain, inboxURL, activityID, actorID, mutuallyFollow⟩ := x
    rintro ⟨rfl, rfl, rfl, rfl, hflag, hvalid⟩
    have hone : decide (h.stringValue "mutually_follow" = lit "1") = mutuallyFollow := by
      rw [← hflag]
      cases mutuallyFollow with
      | false | true => rfl
    rw [hone, hvalid]
    rw [if_neg]
    rw [← hflag]
    rintro ⟨hzero, hne⟩
    obtain hflag | hflag := flagText_cases mutuallyFollow
    · exact hzero hflag
    · exact hne hflag

/-- The followers that are loaded are those that the hash of their domain gives. -/
theorem mem_followers {x : Follower} :
  x ∈ (load U db l).followers ↔
    (db (followerKey x.domain)).isSome ∧
      loadFollower U x.domain (db.hash (followerKey x.domain)) = some x
  := by
  simp only [load, mem_filterMap, Listing.mem_scanKeys]
  constructor
  · rintro ⟨key, ⟨⟨domain, rfl⟩, hsome⟩, hload⟩
    obtain rfl := (loadFollower_eq_some.mp hload).1
    exact ⟨hsome, hload⟩
  · rintro ⟨hsome, hload⟩
    refine ⟨followerKey x.domain, ⟨prefix_append .., hsome⟩, ?_⟩
    exact hload

theorem isSubscriber_load_iff :
  (load U db l).isSubscriber d = true ↔ (db (subscriptionKey d)).isSome
  := by
  simp only [RelayState.isSubscriber, any_eq_true, beq_iff_eq]
  constructor
  · rintro ⟨x, hx, rfl⟩
    exact (mem_subscribers.mp hx).1
  · intro hsome
    exact ⟨loadSubscriber d (db.hash (subscriptionKey d)), mem_subscribers.mpr ⟨hsome, rfl⟩, rfl⟩

/-- A follower is loaded for the domain. -/
def HasFollower (U : CaseTable) (db : Database) (d : GoString) : Prop :=
  (db (followerKey d)).isSome ∧ (loadFollower U d (db.hash (followerKey d))).isSome

theorem isFollower_load_iff :
  (load U db l).isFollower d = true ↔ HasFollower U db d
  := by
  simp only [RelayState.isFollower, any_eq_true, beq_iff_eq, HasFollower]
  constructor
  · rintro ⟨x, hx, rfl⟩
    obtain ⟨hsome, hload⟩ := mem_followers.mp hx
    exact ⟨hsome, Option.isSome_of_eq_some hload⟩
  · rintro ⟨hsome, hload⟩
    obtain ⟨x, hx⟩ := Option.isSome_iff_exists.mp hload
    obtain rfl := (loadFollower_eq_some.mp hx).1
    exact ⟨x, mem_followers.mpr ⟨hsome, hx⟩, rfl⟩

theorem isLimited_load_iff :
  (load U db l).isLimited d = true ↔ (db.hash limitedDomainKey d).isSome
  := by
  simp only [RelayState.isLimited, load, contains_iff_mem, Listing.fields, mem_sortStrings,
    l.mem_hkeys]

theorem isBlocked_load_iff :
  (load U db l).isBlocked d = true ↔ (db.hash blockedDomainKey d).isSome
  := by
  simp only [RelayState.isBlocked, load, contains_iff_mem, Listing.fields, mem_sortStrings,
    l.mem_hkeys]

end Records

/-! ### Subscribers that are added -/

theorem followerKey_ne_subscriptionKey (d d' : GoString) :
  followerKey d ≠ subscriptionKey d'
  := by
  intro h
  have hbyte : some 0x66 = some (0x73 : UInt8) := congrArg (fun key : GoString => key[6]?) h
  exact absurd hbyte (by decide)

variable {key d pattern : GoString} {s : Subscriber} {db : Database}

theorem addSubscriber_of_ne (h : key ≠ subscriptionKey s.domain) :
  db.addSubscriber s key = db key
  := update_of_ne h ..

theorem isSome_addSubscriber :
  (db.addSubscriber s (subscriptionKey d)).isSome ↔
    d = s.domain ∨ (db (subscriptionKey d)).isSome
  := by
  by_cases hd : d = s.domain
  · simp [hd, Database.addSubscriber, Database.modify]
  · have hkey : subscriptionKey d ≠ subscriptionKey s.domain :=
      fun h => hd (append_cancel_left h)
    simp [hd, addSubscriber_of_ne hkey]

theorem hasFollower_addSubscriber {U : CaseTable} :
  HasFollower U (db.addSubscriber s) d ↔ HasFollower U db d
  := by
  have hkey := followerKey_ne_subscriptionKey d s.domain
  rw [HasFollower, HasFollower, Database.hash, Database.hash, addSubscriber_of_ne hkey]

/-! ### Listings -/

/-- An empty database has no other fields than the given ones. -/
theorem hash_empty_fields {fields : List GoString} (field : GoString)
    (h : (Database.empty.hash key field).isSome = true) :
  field ∈ fields
  := by
  cases h

namespace Listing

theorem mem_scan_ofEmpty (pattern key : GoString) :
  key ∈ ([] : List GoString) ↔ pattern <+: key ∧ (Database.empty key).isSome
  := by
  simp [Database.empty]

theorem mem_hkeys_ofEmpty (key field : GoString) :
  field ∈ ([] : List GoString) ↔ (Database.empty.hash key field).isSome
  := by
  simp [Database.empty, Database.hash]

/-- The listing of an empty database. -/
def ofEmpty : Listing .empty where
  scan _ := []
  hkeys _ := []
  mem_scan := mem_scan_ofEmpty
  nodup_hkeys _ := nodup_nil
  mem_hkeys := mem_hkeys_ofEmpty

/-- The listing of a database in which a hash with the given fields has been set. -/
def update {db : Database} (l : Listing db) (key : GoString) (h : Hash) (fields : List GoString)
    (hnodup : fields.Nodup) (hfields : ∀ field, (h field).isSome ↔ field ∈ fields) :
    Listing (update db key (some h)) where
  scan pattern := if pattern <+: key then key :: l.scan pattern else l.scan pattern
  hkeys := Function.update l.hkeys key fields
  mem_scan pattern k := by
    by_cases hk : k = key
    · subst hk
      rw [update_self]
      by_cases hstart : pattern <+: k
      · simp [hstart]
      · simp [hstart, l.mem_scan]
    · rw [update_of_ne hk, ← l.mem_scan]
      by_cases hstart : pattern <+: key
      · simp [hstart, hk]
      · simp [hstart]
  nodup_hkeys k := by
    by_cases hk : k = key
    · subst hk
      rw [update_self]
      exact hnodup
    · rw [update_of_ne hk]
      apply l.nodup_hkeys
  mem_hkeys k field := by
    by_cases hk : k = key
    · subst hk
      rw [update_self, Database.hash, update_self]
      exact (hfields field).symm
    · rw [update_of_ne hk, Database.hash, update_of_ne hk]
      apply l.mem_hkeys

/-- The fields of the hash of a subscriber. -/
def subscriberFields : List GoString := [lit "actor_id", lit "activity_id", lit "inbox_url"]

/-- The listing of a database in which a subscriber has been added. -/
def addSubscriber {db : Database} (l : Listing db) (s : Subscriber)
    (hfields : ∀ field, (db.hash (subscriptionKey s.domain) field).isSome →
      field ∈ subscriberFields) :
    Listing (db.addSubscriber s) :=
  l.update (subscriptionKey s.domain) _ subscriberFields (by decide) (by
    intro field
    rw [Hash.isSome_set, Hash.isSome_set, Hash.isSome_set, subscriberFields]
    simp only [mem_cons, not_mem_nil, or_false]
    specialize hfields field
    simp only [subscriberFields, mem_cons, not_mem_nil, or_false] at hfields
    tauto)

/-- The fields of the hash of a follower. -/
def followerFieldList : List GoString :=
  [lit "mutually_follow", lit "actor_id", lit "activity_id", lit "inbox_url"]

/-- The listing of a database in which a follower has been added. -/
def addFollower {db : Database} (l : Listing db) (U : CaseTable) (f : Follower)
    (hfields : ∀ field, (db.hash (followerKey (normalizeStateDomain U f.domain)) field).isSome →
      field ∈ followerFieldList) :
    Listing (db.addFollower U f) :=
  l.update (followerKey (normalizeStateDomain U f.domain)) _ followerFieldList (by decide) (by
    intro field
    rw [followerFields, Hash.isSome_set, Hash.isSome_set, Hash.isSome_set, Hash.isSome_set,
      followerFieldList]
    simp only [mem_cons, not_mem_nil, or_false]
    specialize hfields field
    simp only [followerFieldList, mem_cons, not_mem_nil, or_false] at hfields
    tauto)

end Listing

/-! ### A follower that was just added -/

section Added

variable {U : CaseTable} {db : Database} {f : Follower}

/-- The record of a follower is valid for the domain of its key if that is normal. -/
theorem validateFollower_normal_iff (h : validateFollower U f = .ok ()) :
  validateFollower U { f with domain := normalizeStateDomain U f.domain } = .ok () ↔
    normalizeStateDomain U (normalizeStateDomain U f.domain) = normalizeStateDomain U f.domain
  := by
  obtain ⟨hdomain, ⟨actorURL, hactor, hhost⟩, hinbox, hactivity⟩ := validateFollower_eq_ok.mp h
  rw [validateFollower_eq_ok]
  constructor
  · rintro ⟨-, ⟨actorURL', hactor', hhost'⟩, -, -⟩
    rw [hactor] at hactor'
    cases hactor'
    exact hhost'.symm.trans hhost
  · intro hnormal
    rw [hnormal]
    exact ⟨hdomain, ⟨actorURL, hactor, hhost⟩, hinbox, hactivity⟩

theorem addFollower_followerKey :
  db.addFollower U f (followerKey (normalizeStateDomain U f.domain)) =
    some (followerFields f (db.hash (followerKey (normalizeStateDomain U f.domain))))
  := update_self ..

theorem addFollower_of_ne (h : key ≠ followerKey (normalizeStateDomain U f.domain)) :
  db.addFollower U f key = db key
  := update_of_ne h ..

/-- The fields of a follower that was written. -/
theorem stringValue_followerFields (h : Hash) :
  (followerFields f h).stringValue "inbox_url" = f.inboxURL ∧
    (followerFields f h).stringValue "activity_id" = f.activityID ∧
    (followerFields f h).stringValue "actor_id" = f.actorID ∧
    (followerFields f h).stringValue "mutually_follow" = flagText f.mutuallyFollow
  := by
  unfold followerFields
  simp +decide only [Hash.stringValue_set_self, Hash.stringValue_set_of_ne, ne_eq, and_self]

theorem flagText_injective :
  Injective flagText
  := by
  decide

/-- What is loaded of a record that was just written is the follower, under the domain of the
key. -/
theorem loadFollower_followerFields {x : Follower} (h : Hash) :
  loadFollower U (normalizeStateDomain U f.domain) (followerFields f h) = some x ↔
    x = { f with domain := normalizeStateDomain U f.domain } ∧ validateFollower U x = .ok ()
  := by
  obtain ⟨hinbox, hactivity, hactor, hflag⟩ := stringValue_followerFields (f := f) h
  rw [loadFollower_eq_some, hinbox, hactivity, hactor, hflag, flagText_injective.eq_iff]
  obtain ⟨domain, inboxURL, activityID, actorID, mutuallyFollow⟩ := x
  simp only [Follower.mk.injEq]
  tauto

/-- The domains of the followers that are loaded after one was added: the domain of its key if that
is not changed by another normalisation, and those that had a follower before. -/
theorem hasFollower_addFollower_iff (hvalid : validateFollower U f = .ok ()) :
  HasFollower U (db.addFollower U f) d ↔
    if d = normalizeStateDomain U f.domain then normalizeStateDomain U d = d
    else HasFollower U db d
  := by
  split
  · rename_i hd
    subst hd
    rw [HasFollower, Database.hash, addFollower_followerKey, Option.getD_some]
    simp only [Option.isSome_some, true_and, Option.isSome_iff_exists, loadFollower_followerFields,
      exists_eq_left]
    exact validateFollower_normal_iff hvalid
  · rename_i hd
    have hkey := mt followerKey_inj.mp hd
    rw [HasFollower, HasFollower, Database.hash, Database.hash, addFollower_of_ne hkey]

/-- A `Load` after `AddFollowerChecked` has accepted a follower publishes it, under its normal
domain, if and only if that domain is not changed by another normalisation. -/
theorem mem_followers_addFollower_iff (hvalid : validateFollower U f = .ok ())
    (l : Listing (db.addFollower U f)) :
  { f with domain := normalizeStateDomain U f.domain } ∈
      (load U (db.addFollower U f) l).followers ↔
    normalizeStateDomain U (normalizeStateDomain U f.domain) = normalizeStateDomain U f.domain
  := by
  rw [mem_followers, Database.hash]
  rw [addFollower_followerKey, Option.getD_some, loadFollower_followerFields,
    validateFollower_normal_iff hvalid]
  simp

end Added

/-- The listing of a database with one follower. -/
def addedListing (U : CaseTable) (f : Follower) : Listing (Database.empty.addFollower U f) :=
  Listing.ofEmpty.addFollower U f hash_empty_fields

theorem mem_followers_addFollower_mixedCase :
  { mixedCaseFollower with domain := lit "example.com" } ∈
    (load .identity (Database.empty.addFollower .identity mixedCaseFollower)
      (addedListing .identity mixedCaseFollower)).followers
  := by
  have hdomain : normalizeStateDomain .identity mixedCaseFollower.domain = lit "example.com" := by
    decide +kernel
  have hmem := (mem_followers_addFollower_iff (by decide +kernel)
    (addedListing .identity mixedCaseFollower)).mpr (by decide +kernel)
  rwa [hdomain] at hmem

/-- A follower whose domain ends in two dots. -/
def dottedFollower : Follower where
  domain := lit "example.com.."
  inboxURL := lit "https://example.com/inbox"
  activityID := lit "https://example.com/activities/1"
  actorID := lit "https://example.com../actor"
  mutuallyFollow := false

/-- A follower that is accepted, and that `Load` refuses. -/
theorem dotted_follower_not_loaded :
  validateFollower .identity dottedFollower = .ok () ∧
    (load .identity (Database.empty.addFollower .identity dottedFollower)
      (addedListing .identity dottedFollower)).followers = []
  := by
  decide +kernel

/-! ### The order of the lists -/

/-- The domains are those that are registered, in strict order. So each of them is there once, and
the length of the list is their number. -/
structure Lists (registered : Set GoString) (domains : List GoString) : Prop where
  increasing : domains.Pairwise (· < ·)
  once : ∀ d ∈ registered, domains.count d = 1
  length_eq : domains.length = registered.ncard

theorem lists_iff {registered : Set GoString} {domains : List GoString}
    (hmem : ∀ d, d ∈ domains ↔ d ∈ registered) :
  Lists registered domains ↔ domains.Pairwise (· < ·)
  := by
  constructor
  · exact Lists.increasing
  · intro hincreasing
    have hnodup : domains.Nodup := hincreasing.imp ne_of_lt
    refine ⟨hincreasing, ?_, ?_⟩
    · intro d hd
      exact count_eq_one_of_mem hnodup ((hmem d).mpr hd)
    · have hset : registered = (domains.toFinset : Set GoString) := by
        ext d
        rw [coe_toFinset, Set.mem_ofPred_eq, hmem d]
      rw [hset, Set.ncard_coe_finset, toFinset_card_of_nodup hnodup]

/-- What follows the common start of sorted keys is in strict order if no key is there twice. -/
theorem pairwise_drop_iff {keys : List GoString} (hstart : ∀ key ∈ keys, pattern <+: key)
    (hsorted : keys.Pairwise (· ≤ ·)) :
  (keys.map (List.drop pattern.length)).Pairwise (· < ·) ↔ keys.Nodup
  := by
  have hdrop : ∀ a ∈ keys, ∀ b ∈ keys,
      a.drop pattern.length < b.drop pattern.length ↔ a < b := by
    intro a ha b hb
    obtain ⟨s, rfl⟩ := hstart a ha
    obtain ⟨t, rfl⟩ := hstart b hb
    rw [drop_left, drop_left, append_lt_append_iff]
  rw [pairwise_map]
  constructor
  · intro hdropped
    apply List.Pairwise.imp_of_mem _ hdropped
    intro a b ha hb h
    exact ne_of_lt ((hdrop a ha b hb).mp h)
  · intro hnodup
    apply List.Pairwise.imp_of_mem _ (hsorted.and hnodup)
    intro a b ha hb h
    exact (hdrop a ha b hb).mpr (lt_of_le_of_ne h.1 h.2)

section Order

variable {U : CaseTable} {db : Database} {l : Listing db}

theorem Listing.start_of_mem_scanKeys (h : key ∈ l.scanKeys pattern) :
  pattern <+: key
  := (Listing.mem_scanKeys.mp h).1

/-- The keys with a prefix, without the prefix. -/
theorem mem_drop_scanKeys :
  d ∈ (l.scanKeys pattern).map (List.drop pattern.length) ↔ (db (pattern ++ d)).isSome
  := by
  rw [mem_map]
  constructor
  · rintro ⟨key, hkey, rfl⟩
    obtain ⟨⟨domain, rfl⟩, hsome⟩ := Listing.mem_scanKeys.mp hkey
    rwa [drop_left]
  · intro hsome
    exact ⟨pattern ++ d, Listing.mem_scanKeys.mpr ⟨prefix_append .., hsome⟩, drop_left⟩

/-- The keys with a prefix are listed in strict order if `SCAN` reports each of them once. -/
theorem lists_scanKeys_iff (pattern : GoString) :
  Lists {d | (db (pattern ++ d)).isSome} ((l.scanKeys pattern).map (List.drop pattern.length)) ↔
    (l.scan pattern).Nodup
  := by
  have hmem (d : GoString) : d ∈ (l.scanKeys pattern).map (List.drop pattern.length) ↔
      d ∈ {d | (db (pattern ++ d)).isSome} := mem_drop_scanKeys
  rw [lists_iff hmem,
    pairwise_drop_iff (fun _ => Listing.start_of_mem_scanKeys) (sortStrings_sorted _)]
  exact (sortStrings_perm _).nodup_iff

/-- `Load` makes a follower of the hash of the key. -/
def loadsFollower (U : CaseTable) (db : Database) (key : GoString) : Bool :=
  (loadFollower U (key.drop followerPattern.length) (db.hash key)).isSome

theorem map_domain_subscribers :
  (load U db l).subscribers.map Subscriber.domain =
    (l.scanKeys subscriptionPattern).map (List.drop subscriptionPattern.length)
  := by
  simp only [load, map_map]
  rfl

theorem map_domain_publishers :
  (load U db l).publishers.map Publisher.domain =
    (l.scanKeys publisherPattern).map (List.drop publisherPattern.length)
  := by
  simp only [load, map_map]
  rfl

theorem map_domain_followers :
  (load U db l).followers.map Follower.domain =
    ((l.scanKeys followerPattern).filter (loadsFollower U db)).map
      (List.drop followerPattern.length)
  := by
  simp only [load]
  rw [map_filterMap, ← filterMap_eq_map, filterMap_filter]
  apply filterMap_congr
  intro key _
  rw [loadsFollower]
  cases hload : loadFollower U (key.drop followerPattern.length) (db.hash key) with
  | none => rfl
  | some x => simp [(loadFollower_eq_some.mp hload).1]

theorem mem_domain_followers :
  d ∈ (load U db l).followers.map Follower.domain ↔ d ∈ {d | HasFollower U db d}
  := by
  rw [Set.mem_ofPred_eq, ← isFollower_load_iff (l := l), RelayState.isFollower]
  simp

/-- `SCAN` reports each key of a subscriber, of a publisher and of a follower that is loaded
once. -/
structure ScansOnce (U : CaseTable) (db : Database) (l : Listing db) : Prop where
  subscribers : (l.scan subscriptionPattern).Nodup
  followers : ((l.scan followerPattern).filter (loadsFollower U db)).Nodup
  publishers : (l.scan publisherPattern).Nodup

/-- The lists that `Load` publishes have each registered domain once, in strict order, if and only
if `SCAN` reports each of the keys once. -/
theorem load_lists_iff (U : CaseTable) (db : Database) (l : Listing db) :
  (Lists {d | (db (subscriptionPattern ++ d)).isSome}
        ((load U db l).subscribers.map Subscriber.domain) ∧
      Lists {d | HasFollower U db d} ((load U db l).followers.map Follower.domain) ∧
      Lists {d | (db (publisherPattern ++ d)).isSome}
        ((load U db l).publishers.map Publisher.domain)) ↔
    ScansOnce U db l
  := by
  have hfollowers : Lists {d | HasFollower U db d} ((load U db l).followers.map Follower.domain) ↔
      ((l.scan followerPattern).filter (loadsFollower U db)).Nodup := by
    rw [lists_iff (fun _ => mem_domain_followers), map_domain_followers, pairwise_drop_iff]
    · exact ((sortStrings_perm _).filter _).nodup_iff
    · intro key hkey
      exact Listing.start_of_mem_scanKeys (mem_of_mem_filter hkey)
    · exact (sortStrings_sorted _).filter _
  rw [map_domain_subscribers, map_domain_publishers, lists_scanKeys_iff, lists_scanKeys_iff,
    hfollowers]
  constructor
  · rintro ⟨hsubscribers, hfollowers, hpublishers⟩
    exact ⟨hsubscribers, hfollowers, hpublishers⟩
  · rintro ⟨hsubscribers, hfollowers, hpublishers⟩
    exact ⟨hsubscribers, hfollowers, hpublishers⟩

end Order

def exampleSubscriber : Subscriber where
  domain := lit "example.com"
  inboxURL := lit "https://example.com/inbox"
  activityID := lit "https://example.com/activities/1"
  actorID := lit "https://example.com/actor"

/-- The subscriber has been added twice, to the same hash. -/
def addedTwice : Database :=
  (Database.empty.addSubscriber exampleSubscriber).addSubscriber exampleSubscriber

/-- A listing in which `SCAN` reports the key of the subscriber twice. -/
def repeatingListing : Listing addedTwice :=
  let once : Listing (Database.empty.addSubscriber exampleSubscriber) :=
    Listing.ofEmpty.addSubscriber exampleSubscriber hash_empty_fields
  once.addSubscriber exampleSubscriber (by
    intro field
    rw [← once.mem_hkeys]
    exact id)

/-- A key that `SCAN` reports twice makes two records of one subscriber. -/
theorem repeated_key_loaded_twice :
  (load .identity addedTwice repeatingListing).subscribers = [exampleSubscriber, exampleSubscriber]
  := by
  decide +kernel

end Models
