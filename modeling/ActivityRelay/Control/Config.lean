import ActivityRelay.Models.Snapshot

/-!
# Exporting and importing the relay

`exportConfig` prints the state of the relay as JSON, and `importConfig` writes what such a text
has into the database, one entry after the other. The export has the followers of the relay, but
the import leaves them out.
-/

namespace Control

open Function GoString List Models

/-- The fields of `RelayState` that its JSON has. -/
structure Export where
  relayConfig : RelayConfig
  limitedDomains : List GoString
  blockedDomains : List GoString
  subscribers : List Subscriber
  followers : List Follower
  publishers : List Publisher
  deriving DecidableEq, Repr

def exported (s : RelayState) : Export where
  relayConfig := s.relayConfig
  limitedDomains := s.limitedDomains
  blockedDomains := s.blockedDomains
  subscribers := s.subscribers
  followers := s.followers
  publishers := s.publishers

/-- `exportConfig`, where `marshal` is `json.Marshal`. -/
def exportConfig (marshal : Export → GoString) (s : RelayState) : GoString := marshal (exported s)

/-! ### Importing -/

/-- One entry that `importConfig` writes. -/
inductive ImportStep
  | config (key : Config)
  | limited (domain : GoString)
  | blocked (domain : GoString)
  | subscriber (subscription : Subscriber)
  deriving DecidableEq, Repr

namespace ImportStep

/-- The write of an entry. -/
def apply (db : Database) : ImportStep → Database
  | config key => db.setConfig key true
  | limited domain => db.setLimitedDomain domain true
  | blocked domain => db.setBlockedDomain domain true
  | subscriber subscription => db.addSubscriber subscription

/-- The line that is printed for an entry. -/
def message : ImportStep → GoString
  | config .personOnly => lit "Person-Type Actor limitation is enabled."
  | config .manuallyAccept => lit "Manual follow request acceptance is enabled."
  | limited domain => lit "Set [" ++ domain ++ lit "] as limited domain"
  | blocked domain => lit "Set [" ++ domain ++ lit "] as blocked domain"
  | subscriber subscription =>
      lit "Register [" ++ subscription.domain ++ lit "] as subscriber"

end ImportStep

/-- The entries that `importConfig` writes, in its order. -/
def importSteps (data : Export) : List ImportStep :=
  (if data.relayConfig.personOnly then [.config .personOnly] else []) ++
  (if data.relayConfig.manuallyAccept then [.config .manuallyAccept] else []) ++
  data.limitedDomains.map .limited ++
  data.blockedDomains.map .blocked ++
  data.subscribers.map .subscriber

/-- `importConfig`, where `unmarshal` is `json.Unmarshal`: the database afterwards and the lines
that are printed. -/
def importConfig (unmarshal : GoString → Option Export) (jsonData : GoString) (db : Database) :
    Database × List GoString :=
  match unmarshal jsonData with
  | none => (db, [])
  | some data =>
      ((importSteps data).foldl ImportStep.apply db, (importSteps data).map ImportStep.message)

/-! ### What an import writes -/

namespace ImportStep

/-- The key that an entry is written to. -/
def key : ImportStep → GoString
  | config _ => configKey
  | limited _ => limitedDomainKey
  | blocked _ => blockedDomainKey
  | subscriber subscription => subscriptionKey subscription.domain

/-- The field that an entry sets to one, if it is not a subscriber. -/
def mark : ImportStep → Option GoString
  | config .personOnly => some (lit "block_service")
  | config .manuallyAccept => some (lit "manually_accept")
  | limited domain => some domain
  | blocked domain => some domain
  | subscriber _ => none

theorem apply_of_ne (db : Database) {step : ImportStep} {k : GoString} (h : step.key ≠ k) :
  step.apply db k = db k
  := by
  cases step <;> exact update_of_ne h.symm ..

/-- An entry that is not a subscriber sets its field to one. -/
theorem hash_apply (db : Database) {step : ImportStep} {field : GoString} (h : step.mark = some field) :
  (step.apply db).hash step.key = update (db.hash step.key) field (some (lit "1"))
  := by
  cases step with
  | config k =>
    cases k <;>
    · cases h
      simp [apply, key, Database.setConfig, Database.modify, Database.hash, Hash.set, flagText]
  | limited domain =>
    cases h
    simp [apply, key, Database.setLimitedDomain, Database.setDomain, Database.modify,
      Database.hash]
  | blocked domain =>
    cases h
    simp [apply, key, Database.setBlockedDomain, Database.setDomain, Database.modify,
      Database.hash]
  | subscriber => cases h

end ImportStep

section

variable {db : Database} {steps : List ImportStep} {k field : GoString}

theorem foldl_apply_of_ne (h : ∀ step ∈ steps, step.key ≠ k) :
  steps.foldl ImportStep.apply db k = db k
  := by
  induction steps generalizing db with
  | nil => rfl
  | cons step steps ih =>
    rw [forall_mem_cons] at h
    rw [foldl_cons, ih h.2, step.apply_of_ne db h.1]

/-- A field of a hash that is not that of a subscriber is one after an import with an entry for
it, and otherwise as it was. -/
theorem hash_foldl_apply (hk : ∀ domain, subscriptionKey domain ≠ k) :
  (steps.foldl ImportStep.apply db).hash k field
    = if ∃ step ∈ steps, step.key = k ∧ step.mark = some field then some (lit "1")
      else db.hash k field
  := by
  induction steps generalizing db with
  | nil => simp
  | cons step steps ih =>
    rw [foldl_cons, ih]
    by_cases hrest : ∃ step ∈ steps, step.key = k ∧ step.mark = some field
    · rw [if_pos hrest, if_pos]
      obtain ⟨step', hstep', h⟩ := hrest
      exact ⟨step', mem_cons_of_mem _ hstep', h⟩
    rw [if_neg hrest]
    by_cases hkey : step.key = k
    · obtain ⟨field', hfield'⟩ : ∃ field', step.mark = some field' := by
        cases step with
        | config key => cases key <;> exact ⟨_, rfl⟩
        | limited | blocked => exact ⟨_, rfl⟩
        | subscriber subscription => exact absurd hkey (hk _)
      subst hkey
      rw [step.hash_apply db hfield', update_apply]
      congr 1
      simp only [exists_mem_cons_iff, hrest, or_false, true_and, hfield', Option.some.injEq,
        eq_iff_iff]
      exact eq_comm
    · rw [Database.hash, step.apply_of_ne db hkey, Database.hash, if_neg]
      rw [exists_mem_cons_iff]
      rintro (⟨hkey', -⟩ | hrest')
      · exact hkey hkey'
      · exact hrest hrest'

/-- Keys of Redis differ if their first bytes after the common start do. -/
theorem subscriptionKey_ne {k : GoString} (hk : k[6]? ≠ some 0x73) (domain : GoString) :
  subscriptionKey domain ≠ k
  := by
  rintro rfl
  exact hk rfl

theorem ImportStep.key_cases (step : ImportStep) :
  step.key[6]? = some 0x63 ∨ ∃ x, step = .subscriber x
  := by
  cases step with
  | config | limited | blocked => exact .inl rfl
  | subscriber x => exact .inr ⟨x, rfl⟩

/-- No entry is written to the hash of a follower. -/
theorem ImportStep.key_ne_followerKey (step : ImportStep) (domain : GoString) :
  step.key ≠ followerKey domain
  := by
  intro h
  have hbyte : step.key[6]? = some 0x66 := congrArg (fun key : GoString => key[6]?) h
  obtain hconfig | ⟨x, rfl⟩ := step.key_cases
  · exact absurd (hconfig.symm.trans hbyte) (by decide)
  · exact absurd (show some (0x73 : UInt8) = some 0x66 from hbyte) (by decide)

/-- Only a subscriber is written to the hash of a subscriber. -/
theorem ImportStep.eq_subscriber {step : ImportStep} {domain : GoString}
    (h : step.key = subscriptionKey domain) :
  ∃ x, step = .subscriber x ∧ x.domain = domain
  := by
  obtain hconfig | ⟨x, rfl⟩ := step.key_cases
  · refine absurd h.symm (subscriptionKey_ne ?_ domain)
    rw [hconfig]
    decide
  · exact ⟨x, rfl, (append_right_inj _).mp h⟩

theorem loadSubscriber_addSubscriber (db : Database) (x : Subscriber) :
  loadSubscriber x.domain ((db.addSubscriber x).hash (subscriptionKey x.domain)) = x
  := by
  have hash_eq : (db.addSubscriber x).hash (subscriptionKey x.domain)
      = (((db.hash (subscriptionKey x.domain)).set "inbox_url" x.inboxURL).set
          "activity_id" x.activityID).set "actor_id" x.actorID := by
    rw [Database.hash, Database.addSubscriber, Database.modify, update_self,
      Option.getD_some]
  rw [hash_eq]
  simp +decide only [loadSubscriber, Hash.stringValue, Hash.set_of_ne, Hash.set_self, ne_eq,
    Option.getD_some]

/-- The hash of a domain is there after an import if there is a subscriber for it. -/
theorem isSome_foldl_apply {domain : GoString} (hdb : db (subscriptionKey domain) = none) :
  (steps.foldl ImportStep.apply db (subscriptionKey domain)).isSome ↔
    ∃ x, .subscriber x ∈ steps ∧ x.domain = domain
  := by
  induction steps using List.reverseRecOn with
  | nil => simp [hdb]
  | append_singleton steps step ih =>
    rw [foldl_append, foldl_cons, foldl_nil]
    by_cases hkey : step.key = subscriptionKey domain
    · obtain ⟨x, rfl, rfl⟩ := ImportStep.eq_subscriber hkey
      simp only [ImportStep.apply, Database.addSubscriber, Database.modify, update_self,
        Option.isSome_some, true_iff]
      exact ⟨x, mem_append_right _ (mem_singleton_self _), rfl⟩
    · rw [step.apply_of_ne _ hkey, ih]
      constructor
      · rintro ⟨x, hx, hdomain⟩
        exact ⟨x, mem_append_left _ hx, hdomain⟩
      · rintro ⟨x, hx, rfl⟩
        rcases mem_append.mp hx with hx | hx
        · exact ⟨x, hx, rfl⟩
        · obtain rfl := mem_singleton.mp hx
          exact absurd rfl hkey

/-- A subscriber that is imported is loaded again, if no other one of its domain is imported. -/
theorem loadSubscriber_foldl_apply {x : Subscriber} (hx : .subscriber x ∈ steps)
    (hunique : ∀ y, .subscriber y ∈ steps → y.domain = x.domain → y = x) :
  loadSubscriber x.domain
    ((steps.foldl ImportStep.apply db).hash (subscriptionKey x.domain)) = x
  := by
  induction steps using List.reverseRecOn with
  | nil => cases hx
  | append_singleton steps step ih =>
    rw [foldl_append, foldl_cons, foldl_nil]
    by_cases hkey : step.key = subscriptionKey x.domain
    · obtain ⟨y, rfl, hdomain⟩ := ImportStep.eq_subscriber hkey
      obtain rfl := hunique y (mem_append_right _ (mem_singleton_self _)) hdomain
      apply loadSubscriber_addSubscriber
    · rw [Database.hash, step.apply_of_ne _ hkey]
      apply ih
      · rcases mem_append.mp hx with hx | hx
        · exact hx
        · obtain rfl := mem_singleton.mp hx
          exact absurd rfl hkey
      · intro y hy
        apply hunique y (mem_append_left _ hy)

end

/-! ### The round trip -/

/-- Two states with the same configuration, limited and blocked domains, subscribers and
followers. A scan may list a subscriber twice, so the last two are compared by their members. -/
structure SameRelay (s s' : RelayState) : Prop where
  relayConfig : s'.relayConfig = s.relayConfig
  limitedDomains : s'.limitedDomains = s.limitedDomains
  blockedDomains : s'.blockedDomains = s.blockedDomains
  subscribers : ∀ x, x ∈ s'.subscribers ↔ x ∈ s.subscribers
  followers : ∀ x, x ∈ s'.followers ↔ x ∈ s.followers

section RoundTrip

variable {U : CaseTable} {db : Database} {l : Listing db} {data : Export}

/-- The database after the import of a text into an empty one. -/
def imported (data : Export) : Database := (importSteps data).foldl ImportStep.apply .empty

/-- The entries that are written are those of the text. -/
theorem mem_importSteps {step : ImportStep} :
  step ∈ importSteps data ↔
    match step with
    | .config .personOnly => data.relayConfig.personOnly = true
    | .config .manuallyAccept => data.relayConfig.manuallyAccept = true
    | .limited domain => domain ∈ data.limitedDomains
    | .blocked domain => domain ∈ data.blockedDomains
    | .subscriber x => x ∈ data.subscribers
  := by
  unfold importSteps
  rcases step with (_ | _) | _ | _ | _ <;>
    cases data.relayConfig.personOnly <;> cases data.relayConfig.manuallyAccept <;> simp

/-- An entry that is not a subscriber is known by its key and its field. -/
theorem ImportStep.eq_of_key_of_mark {step step' : ImportStep} {field : GoString}
    (hkey : step.key = step'.key) (hmark : step.mark = some field)
    (hmark' : step'.mark = some field) :
  step = step'
  := by
  have hne : configKey ≠ limitedDomainKey ∧ configKey ≠ blockedDomainKey ∧
      limitedDomainKey ≠ blockedDomainKey := by decide
  cases step with
  | config k =>
    cases step' with
    | config k' =>
      cases k <;> cases k' <;> first | rfl | exact absurd (hmark.trans hmark'.symm) (by decide)
    | limited => exact absurd hkey hne.1
    | blocked => exact absurd hkey hne.2.1
    | subscriber => cases hmark'
  | limited domain =>
    cases step' with
    | config => exact absurd hkey.symm hne.1
    | limited domain' => exact congrArg limited (Option.some.inj (hmark.trans hmark'.symm))
    | blocked => exact absurd hkey hne.2.2
    | subscriber => cases hmark'
  | blocked domain =>
    cases step' with
    | config => exact absurd hkey.symm hne.2.1
    | limited => exact absurd hkey.symm hne.2.2
    | blocked domain' => exact congrArg blocked (Option.some.inj (hmark.trans hmark'.symm))
    | subscriber => cases hmark'
  | subscriber => cases hmark

/-- What an import into an empty database writes to the field of an entry. -/
theorem imported_mark (data : Export) (step : ImportStep) {field : GoString}
    (hmark : step.mark = some field) :
  (imported data).hash step.key field
    = if step ∈ importSteps data then some (lit "1") else none
  := by
  have hkey : ∀ domain, subscriptionKey domain ≠ step.key := by
    apply subscriptionKey_ne
    obtain hconfig | ⟨x, rfl⟩ := step.key_cases
    · rw [hconfig]
      decide
    · cases hmark
  rw [imported, hash_foldl_apply hkey]
  congr 1
  rw [eq_iff_iff]
  constructor
  · rintro ⟨step', hstep', hkey', hmark'⟩
    rw [← ImportStep.eq_of_key_of_mark hkey' hmark' hmark]
    exact hstep'
  · intro hstep
    exact ⟨step, hstep, rfl, hmark⟩

/-- An import keeps the configuration. -/
theorem loadRelayConfig_imported (data : Export) :
  loadRelayConfig (imported data) = data.relayConfig
  := by
  have hflag : ∀ b : Bool,
      decide ((if b = true then some (lit "1") else none).getD [] = lit "1") = b := by decide
  have hperson := imported_mark data (.config .personOnly) rfl
  have hmanual := imported_mark data (.config .manuallyAccept) rfl
  simp only [mem_importSteps, ImportStep.key] at hperson hmanual
  simp only [loadRelayConfig, Hash.stringValue, hperson, hmanual, hflag]

/-- An import keeps a list of domains, given the entries for its domains. -/
theorem fields_imported (l : Listing db) (l' : Listing (imported data))
    (entry : GoString → ImportStep) {k : GoString} (hkey : ∀ d, (entry d).key = k)
    (hmark : ∀ d, (entry d).mark = some d)
    (hmem : ∀ d, entry d ∈ importSteps data ↔ d ∈ l.fields k) :
  l'.fields k = l.fields k
  := by
  apply sortStrings_eq (l'.nodup_hkeys k) (l.nodup_hkeys k)
  intro d
  rw [l'.mem_hkeys, ← hkey d, imported_mark data (entry d) (hmark d), hkey d]
  rw [← mem_sortStrings, ← Listing.fields, ← hmem d]
  by_cases hd : entry d ∈ importSteps data <;> simp [hd]

/-- An import keeps the subscribers of a state that was loaded. -/
theorem loadSubscriber_imported {x : Subscriber} (hdata : data.subscribers = (load U db l).subscribers)
    (hx : x ∈ data.subscribers) :
  loadSubscriber x.domain ((imported data).hash (subscriptionKey x.domain)) = x
  := by
  apply loadSubscriber_foldl_apply (mem_importSteps.mpr hx)
  intro y hy hdomain
  replace hy : y ∈ data.subscribers := mem_importSteps.mp hy
  rw [hdata, mem_subscribers] at hx hy
  rw [← hx.2, ← hy.2, hdomain]

theorem isSome_imported {domain : GoString} :
  ((imported data) (subscriptionKey domain)).isSome ↔ ∃ x ∈ data.subscribers, x.domain = domain
  := by
  rw [imported, isSome_foldl_apply rfl]
  simp only [mem_importSteps]

/-- The keys of subscribers after an import are those before the export, and give the same
subscribers. -/
theorem imported_subscription (hdata : data.subscribers = (load U db l).subscribers)
    (domain : GoString) :
  ((imported data (subscriptionKey domain)).isSome ↔ (db (subscriptionKey domain)).isSome) ∧
    ((db (subscriptionKey domain)).isSome →
      loadSubscriber domain ((imported data).hash (subscriptionKey domain))
        = loadSubscriber domain (db.hash (subscriptionKey domain)))
  := by
  have hloaded (hsome : (db (subscriptionKey domain)).isSome) :
      loadSubscriber domain (db.hash (subscriptionKey domain)) ∈ data.subscribers := by
    rw [hdata, mem_subscribers]
    exact ⟨hsome, rfl⟩
  constructor
  · rw [isSome_imported]
    constructor
    · rintro ⟨x, hx, rfl⟩
      rw [hdata, mem_subscribers] at hx
      exact hx.1
    · intro hsome
      exact ⟨_, hloaded hsome, rfl⟩
  · intro hsome
    apply loadSubscriber_imported hdata (hloaded hsome)

theorem mem_subscribers_imported (l' : Listing (imported data))
    (hdata : data.subscribers = (load U db l).subscribers) (x : Subscriber) :
  x ∈ (load U (imported data) l').subscribers ↔ x ∈ (load U db l).subscribers
  := by
  obtain ⟨hsome, hload⟩ := imported_subscription hdata x.domain
  rw [mem_subscribers, mem_subscribers, hsome]
  apply and_congr_right
  intro hdb
  rw [hload hdb]

/-- If no scan lists a key twice, then the subscribers are the same list. -/
theorem subscribers_imported (l' : Listing (imported data))
    (hdata : data.subscribers = (load U db l).subscribers) (hl : (l.scan subscriptionPattern).Nodup)
    (hl' : (l'.scan subscriptionPattern).Nodup) :
  (load U (imported data) l').subscribers = (load U db l).subscribers
  := by
  have hkeys : l'.scanKeys subscriptionPattern = l.scanKeys subscriptionPattern := by
    apply sortStrings_eq hl' hl
    intro key
    rw [l'.mem_scan, l.mem_scan]
    apply and_congr_right
    rintro ⟨domain, rfl⟩
    exact (imported_subscription hdata domain).1
  simp only [load, hkeys]
  apply map_congr_left
  intro key hkey
  obtain ⟨⟨domain, rfl⟩, hsome⟩ := Listing.mem_scanKeys.mp hkey
  exact (imported_subscription hdata domain).2 hsome

end RoundTrip

/-- The import of an exported state into an empty database, followed by a load, gives the same
state if and only if there were no followers. The subscribers are the same list if no scan lists
a key twice. -/
theorem import_export_same_iff (U : CaseTable) {db : Database} (l : Listing db)
    (marshal : Export → GoString) (unmarshal : GoString → Option Export)
    (hjson : unmarshal (marshal (exported (load U db l))) = some (exported (load U db l)))
    (l' : Listing (importConfig unmarshal (exportConfig marshal (load U db l)) .empty).1) :
  (SameRelay (load U db l) (load U _ l') ↔ (load U db l).followers = []) ∧
    ((l.scan subscriptionPattern).Nodup → (l'.scan subscriptionPattern).Nodup →
      (load U _ l').subscribers = (load U db l).subscribers)
  := by
  have himport : (importConfig unmarshal (exportConfig marshal (load U db l)) .empty).1
      = imported (exported (load U db l)) := by
    rw [importConfig, exportConfig, hjson]
    rfl
  revert l'
  rw [himport]
  intro l'
  have hfollowers : (load U (imported (exported (load U db l))) l').followers = [] := by
    apply followers_eq_nil
    intro domain
    apply foldl_apply_of_ne
    intro step _
    apply step.key_ne_followerKey
  refine ⟨⟨?_, ?_⟩, subscribers_imported l' rfl⟩
  · intro hsame
    rw [eq_nil_iff_forall_not_mem]
    intro x hx
    rw [← hsame.followers, hfollowers] at hx
    cases hx
  · intro hnone
    exact
      { relayConfig := loadRelayConfig_imported (exported (load U db l))
        limitedDomains :=
          fields_imported l l' .limited (fun _ => rfl) (fun _ => rfl) (fun _ => mem_importSteps)
        blockedDomains :=
          fields_imported l l' .blocked (fun _ => rfl) (fun _ => rfl) (fun _ => mem_importSteps)
        subscribers := mem_subscribers_imported l' rfl
        followers := by
          intro x
          rw [hfollowers, hnone] }

/-- `json.Marshal` on a state whose text is known. -/
def marshalTo (text : GoString) (data : Export) : Export → GoString :=
  fun d => if d = data then text else []

/-- `json.Unmarshal` on the text of a state. -/
def unmarshalFrom (text : GoString) (data : Export) : GoString → Option Export :=
  fun t => if t = text then some data else none

theorem unmarshalFrom_marshalTo (text : GoString) (data : Export) :
  unmarshalFrom text data (marshalTo text data data) = some data
  := by
  simp [unmarshalFrom, marshalTo]

theorem importConfig_text (text : GoString) (s : RelayState) :
  (importConfig (unmarshalFrom text (exported s)) (exportConfig (marshalTo text (exported s)) s)
    .empty).1 = imported (exported s)
  := by
  rw [importConfig, exportConfig, unmarshalFrom_marshalTo]
  rfl

/-- A database with a subscriber. -/
def oneSubscriber : Database :=
  Database.empty.addSubscriber
    { domain := lit "example.com"
      inboxURL := lit "https://example.com/inbox"
      activityID := lit "https://example.com/activities/1"
      actorID := lit "https://example.com/actor" }

def oneSubscriberListing : Listing oneSubscriber :=
  Listing.ofEmpty.addSubscriber _ hash_empty_fields

/-- The text that the export prints for it. -/
def oneSubscriberText : GoString :=
  lit "\x7b\"relayConfig\":\x7b\x7d,\"subscriptions\":[\x7b\"domain\":\"example.com\","
    ++ lit "\"inbox_url\":\"https://example.com/inbox\","
    ++ lit "\"activity_id\":\"https://example.com/activities/1\","
    ++ lit "\"actor_id\":\"https://example.com/actor\"\x7d]\x7d"

/-- A database with a follower. -/
def oneFollower : Database :=
  Database.empty.addFollower .identity
    { domain := lit "example.com"
      inboxURL := lit "https://example.com/inbox"
      activityID := lit "https://example.com/activities/1"
      actorID := lit "https://example.com/actor"
      mutuallyFollow := true }

def oneFollowerListing : Listing oneFollower :=
  Listing.ofEmpty.addFollower .identity _ hash_empty_fields

/-- The text that the export prints for it. -/
def oneFollowerText : GoString :=
  lit "\x7b\"relayConfig\":\x7b\x7d,\"followers\":[\x7b\"domain\":\"example.com\","
    ++ lit "\"inbox_url\":\"https://example.com/inbox\","
    ++ lit "\"activity_id\":\"https://example.com/activities/1\","
    ++ lit "\"actor_id\":\"https://example.com/actor\",\"mutually_follow\":true\x7d]\x7d"

theorem import_export_one_subscriber :
  let s := load .identity oneSubscriber oneSubscriberListing
  s.subscribers ≠ [] ∧
    ∃ l' : Listing (importConfig (unmarshalFrom oneSubscriberText (exported s))
        (exportConfig (marshalTo oneSubscriberText (exported s)) s) .empty).1,
      SameRelay s (load .identity _ l')
  := by
  intro s
  have himport := importConfig_text oneSubscriberText s
  have himported : imported (exported s) = oneSubscriber := rfl
  refine ⟨by decide +kernel,
    cast (congrArg Listing (himport.trans himported).symm) oneSubscriberListing, ?_⟩
  apply (import_export_same_iff .identity oneSubscriberListing _ _
    (unmarshalFrom_marshalTo oneSubscriberText (exported s)) _).1.mpr
  decide +kernel

/-- The import leaves a follower out that the export has. -/
theorem import_export_loses_follower :
  let s := load .identity oneFollower oneFollowerListing
  (exported s).followers ≠ [] ∧
    ∃ l' : Listing (importConfig (unmarshalFrom oneFollowerText (exported s))
        (exportConfig (marshalTo oneFollowerText (exported s)) s) .empty).1,
      (load .identity _ l').followers = [] ∧ ¬ SameRelay s (load .identity _ l')
  := by
  intro s
  have hfollowers : (exported s).followers ≠ [] := by decide +kernel
  have himported : imported (exported s) = .empty := rfl
  rw [importConfig_text oneFollowerText s, himported]
  have hnone : (load .identity .empty Listing.ofEmpty).followers = [] :=
    followers_eq_nil (fun _ => rfl)
  refine ⟨hfollowers, .ofEmpty, hnone, ?_⟩
  intro hsame
  apply hfollowers
  rw [eq_nil_iff_forall_not_mem]
  intro x hx
  have hmem := (hsame.followers x).mpr hx
  rw [hnone] at hmem
  cases hmem

end Control
