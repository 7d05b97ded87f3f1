import ActivityRelay.Models.Database
import ActivityRelay.Redis.Cell

/-!
# The records of followers

`AddFollowerChecked`, `UpdateFollowerStatusChecked` and `DelFollower` each send one command that
concerns the hash of a follower, so calls of any processes are a sequence of such commands. Every
hash is complete or absent at all times. The first two look a follower up by its normal domain;
`DelFollower` takes the domain as it is given. An update changes only followers that were added
and not deleted since, as long as `DelFollower` is given domains in normal form.
-/

namespace Models

open GoString Database Function List Redis

/-! ### Calls -/

/-- Whether a command has been executed. -/
def executed : Outcome → Bool
  | .answered => true
  | .failed effect => effect

/-- A call that changes followers, with how its commands end. -/
inductive FollowerCall
  | add (follower : Follower) (outcome : Outcome)
  | update (domain : GoString) (mutuallyFollow : Bool) (outcome : Outcome)
  | del (domain : GoString) (follower pending : Outcome)
  deriving DecidableEq, Repr

/-- The fields that the script reads. -/
def followerFieldNames : List String := ["inbox_url", "activity_id", "actor_id", "mutually_follow"]

/-- Whether all fields of a follower are there and not empty. -/
def hasFollowerFields (h : Hash) : Bool :=
  followerFieldNames.all fun field => h.stringValue field ≠ []

/-- `updateFollowerStatusScript`: the hash afterwards and the number that is returned. -/
def updateFollowerStatusScript (status : GoString) : Option Hash → Option Hash × ℤ
  | none => (none, 0)
  | some h => if hasFollowerFields h then (some (h.set "mutually_follow" status), 1) else (none, -1)

section

variable (U : CaseTable)

/-- What a call does to the database. -/
def FollowerCall.perform (db : Database) : FollowerCall → Database
  | .add follower outcome =>
      match validateFollower U follower with
      | .error _ => db
      | .ok _ => if executed outcome then db.addFollower U follower else db
  | .update domain mutuallyFollow outcome =>
      let domain := normalizeStateDomain U domain
      if domain ≠ [] ∧ executed outcome then
        let key := followerKey domain
        Function.update db key (updateFollowerStatusScript (flagText mutuallyFollow) (db key)).1
      else db
  | .del domain follower pending =>
      let db := if executed follower then db.del (followerKey domain) else db
      if executed pending then db.del (pendingKey domain) else db

/-- Whether the call adds the follower of a domain. -/
def FollowerCall.adds (d : GoString) : FollowerCall → Bool
  | .add follower outcome =>
      (validateFollower U follower).isOk && executed outcome &&
        normalizeStateDomain U follower.domain = d
  | _ => false

/-- Whether the call deletes the follower of a domain. -/
def FollowerCall.deletes (d : GoString) : FollowerCall → Bool
  | .del domain follower _ => executed follower && normalizeStateDomain U domain = d
  | _ => false

/-- Whether a follower has been added and not been deleted since. -/
def listed (d : GoString) (calls : List FollowerCall) : Bool :=
  calls.foldl (fun l call => !call.deletes U d && (call.adds U d || l)) false

/-- The database after a sequence of calls. -/
def performAll (db : Database) (calls : List FollowerCall) : Database :=
  calls.foldl (fun db call => call.perform U db) db

/-- `DelFollower` is given a domain in normal form. -/
def NormalDelete : FollowerCall → Prop
  | .del domain _ _ => normalizeStateDomain U domain = domain
  | _ => True

end

/-! ### Records are complete -/

/-- A record that has all of its fields, with a status that can be read. -/
structure CompleteFollower (h : Hash) : Prop where
  fields : ∀ field ∈ followerFieldNames, h.stringValue field ≠ []
  status : h.stringValue "mutually_follow" = lit "0" ∨ h.stringValue "mutually_follow" = lit "1"

theorem flagText_cases (value : Bool) :
  flagText value = lit "0" ∨ flagText value = lit "1"
  := by
  cases value with
  | false => exact .inl rfl
  | true => exact .inr rfl

theorem flagText_ne_nil (value : Bool) :
  flagText value ≠ []
  := by
  cases value <;> decide

@[simp]
theorem Hash.stringValue_set_self (h : Hash) (field : String) (value : GoString) :
  (h.set field value).stringValue field = value
  := by
  rw [stringValue, set_self, Option.getD_some]

theorem Hash.stringValue_set_of_ne (h : Hash) {field field' : String} (value : GoString)
    (hne : lit field' ≠ lit field) :
  (h.set field value).stringValue field' = h.stringValue field'
  := by
  rw [stringValue, set_of_ne h value hne, stringValue]

section

variable {U : CaseTable} {f : Follower} {db : Database} {call : FollowerCall}
    {calls : List FollowerCall} {d : GoString}

/-- An address that is accepted is not empty. -/
theorem ne_nil_of_validateFollowerURL {field : FollowerURLField} {value : GoString}
    {url : NetUrl.URL} (h : validateFollowerURL field value = .ok url) :
  value ≠ []
  := by
  rintro rfl
  cases h

/-- What a follower that is accepted has to satisfy. -/
theorem validateFollower_eq_ok :
  validateFollower U f = .ok () ↔
    normalizeStateDomain U f.domain ≠ [] ∧
      (∃ actorURL, validateFollowerURL .actorID f.actorID = .ok actorURL ∧
        normalizeStateDomain U actorURL.host = normalizeStateDomain U f.domain) ∧
      (∃ inboxURL, validateFollowerURL .inboxURL f.inboxURL = .ok inboxURL) ∧
      trimSpace f.activityID ≠ []
  := by
  unfold validateFollower
  by_cases hdomain : normalizeStateDomain U f.domain = []
  · simp [hdomain]
  rw [if_neg hdomain]
  cases validateFollowerURL .actorID f.actorID with
  | error e => simp
  | ok actorURL =>
    by_cases hactor : normalizeStateDomain U actorURL.host = normalizeStateDomain U f.domain
    · cases validateFollowerURL .inboxURL f.inboxURL with
      | error e => simp [hactor]
      | ok inboxURL =>
        by_cases hactivity : trimSpace f.activityID = []
        · simp [hactor, hactivity]
        · simp [hactor, hactivity, hdomain]
    · simp [hactor]

/-- A follower that is accepted has all of its fields. -/
theorem ne_nil_of_validateFollower (h : validateFollower U f = .ok ()) :
  f.inboxURL ≠ [] ∧ f.activityID ≠ [] ∧ f.actorID ≠ []
  := by
  obtain ⟨-, ⟨actorURL, hactor, -⟩, ⟨inboxURL, hinbox⟩, hactivity⟩ := validateFollower_eq_ok.mp h
  refine ⟨ne_nil_of_validateFollowerURL hinbox, ?_, ne_nil_of_validateFollowerURL hactor⟩
  intro hnil
  rw [hnil] at hactivity
  exact hactivity rfl

/-- What `AddFollowerChecked` writes is complete. -/
theorem followerFields_complete (hvalid : validateFollower U f = .ok ()) (h : Hash) :
  CompleteFollower (followerFields f h)
  := by
  obtain ⟨hinbox, hactivity, hactor⟩ := ne_nil_of_validateFollower hvalid
  constructor
  · unfold followerFields followerFieldNames
    simp +decide only [forall_mem_cons, Hash.stringValue_set_self, Hash.stringValue_set_of_ne,
      ne_eq, hinbox, hactivity, hactor, flagText_ne_nil]
    simp
  · unfold followerFields
    apply flagText_cases

/-- A complete record stays complete when its status is set. -/
theorem CompleteFollower.set {h : Hash} (hcomplete : CompleteFollower h) (value : Bool) :
  CompleteFollower (h.set "mutually_follow" (flagText value))
  := by
  constructor
  · have hfields := hcomplete.fields
    unfold followerFieldNames at hfields ⊢
    simp +decide only [forall_mem_cons, Hash.stringValue_set_self, Hash.stringValue_set_of_ne,
      ne_eq, flagText_ne_nil] at hfields ⊢
    simp [hfields]
  · rw [Hash.stringValue_set_self]
    apply flagText_cases

theorem CompleteFollower.hasFollowerFields {h : Hash} (hcomplete : CompleteFollower h) :
  hasFollowerFields h = true
  := by
  simpa [Models.hasFollowerFields] using hcomplete.fields

/-! ### What a call can do to one record -/

theorem followerKey_inj {d d' : GoString} :
  followerKey d = followerKey d' ↔ d = d'
  := append_right_inj _

theorem followerKey_ne_pendingKey (d d' : GoString) :
  followerKey d ≠ pendingKey d'
  := by
  intro h
  have hbyte : some 0x66 = some (0x70 : UInt8) := congrArg (fun key : GoString => key[6]?) h
  exact absurd hbyte (by decide)

/-- What becomes of the record of a domain. -/
inductive RecordChange (U : CaseTable) (db : Database) (d : GoString) :
    FollowerCall → Option Hash → Prop
  | unchanged (call : FollowerCall) : RecordChange U db d call (db (followerKey d))
  | added {f : Follower} {outcome : Outcome}
      (valid : validateFollower U f = .ok ())
      (adds : (FollowerCall.add f outcome).adds U d = true) :
      RecordChange U db d (.add f outcome) (some (followerFields f (db.hash (followerKey d))))
  | updated {domain : GoString} (mutuallyFollow : Bool) {outcome : Outcome}
      (named : normalizeStateDomain U domain = d) :
      RecordChange U db d (.update domain mutuallyFollow outcome)
        (updateFollowerStatusScript (flagText mutuallyFollow) (db (followerKey d))).1
  | deleted {follower : Outcome} (pending : Outcome) (effect : executed follower) :
      RecordChange U db d (.del d follower pending) none

theorem perform_followerKey (U : CaseTable) (db : Database) (d : GoString) (call : FollowerCall) :
  RecordChange U db d call (call.perform U db (followerKey d))
  := by
  cases call with
  | add f outcome =>
    simp only [FollowerCall.perform]
    cases hvalid : validateFollower U f with
    | error => apply RecordChange.unchanged
    | ok =>
      dsimp only
      split
      · rename_i heffect
        unfold addFollower Database.modify
        by_cases hd : d = normalizeStateDomain U f.domain
        · subst hd
          rw [update_self]
          apply RecordChange.added hvalid
          simp [FollowerCall.adds, hvalid, heffect, Except.isOk, Except.toBool]
        · rw [update_of_ne (mt followerKey_inj.mp hd)]
          apply RecordChange.unchanged
      · apply RecordChange.unchanged
  | update domain mutuallyFollow outcome =>
    simp only [FollowerCall.perform]
    split
    · by_cases hd : d = normalizeStateDomain U domain
      · subst hd
        rw [Function.update_self]
        apply RecordChange.updated mutuallyFollow rfl
      · rw [update_of_ne (mt followerKey_inj.mp hd)]
        apply RecordChange.unchanged
    · apply RecordChange.unchanged
  | del domain follower pending =>
    have hpending (db : Database) :
        (if executed pending then db.del (pendingKey domain) else db) (followerKey d)
          = db (followerKey d) := by
      split
      · apply update_of_ne (followerKey_ne_pendingKey d domain)
      · rfl
    simp only [FollowerCall.perform, hpending]
    split
    · rename_i heffect
      by_cases hd : d = domain
      · subst hd
        rw [del, update_self]
        apply RecordChange.deleted pending heffect
      · rw [del, update_of_ne (mt followerKey_inj.mp hd)]
        apply RecordChange.unchanged
    · apply RecordChange.unchanged

/-! ### Runs of calls -/

/-- Every record is complete. -/
def CompleteRecords (db : Database) : Prop :=
  ∀ d h, db (followerKey d) = some h → CompleteFollower h

/-- Of a complete record the script sets the status; it creates none. -/
theorem updateFollowerStatusScript_of_complete {o : Option Hash}
    (ho : ∀ h, o = some h → CompleteFollower h) (status : GoString) :
  (updateFollowerStatusScript status o).1 = o.map (fun h => h.set "mutually_follow" status)
  := by
  cases o with
  | none => rfl
  | some h => simp [updateFollowerStatusScript, (ho h rfl).hasFollowerFields]

theorem CompleteRecords.perform (hdb : CompleteRecords db) (call : FollowerCall) :
  CompleteRecords (call.perform U db)
  := by
  intro d h hh
  have hchange := perform_followerKey U db d call
  rw [hh] at hchange
  generalize ho : some h = o at hchange
  cases hchange with
  | unchanged => exact hdb d h ho.symm
  | added valid adds =>
    cases ho
    apply followerFields_complete valid
  | updated mutuallyFollow named =>
    rw [updateFollowerStatusScript_of_complete (hdb d)] at ho
    obtain ⟨h₀, hh₀, rfl⟩ := Option.map_eq_some_iff.mp ho.symm
    apply (hdb d h₀ hh₀).set
  | deleted => cases ho

theorem CompleteRecords.performAll (hdb : CompleteRecords db) (calls : List FollowerCall) :
  CompleteRecords (performAll U db calls)
  := by
  induction calls generalizing db with
  | nil => exact hdb
  | cons call calls ih => exact ih (hdb.perform call)

/-- A follower that is deleted has no record, if `DelFollower` is given its domain in normal
form. -/
theorem perform_of_deletes (hnormal : NormalDelete U call) (hdeletes : call.deletes U d = true) :
  call.perform U db (followerKey d) = none
  := by
  cases call with
  | add | update => cases hdeletes
  | del domain follower pending =>
    simp only [FollowerCall.deletes, Bool.and_eq_true, decide_eq_true_eq] at hdeletes
    obtain ⟨heffect, hnamed⟩ := hdeletes
    obtain rfl : domain = d := hnormal.symm.trans hnamed
    simp only [FollowerCall.perform, heffect, if_true]
    split
    · rw [del, update_of_ne (followerKey_ne_pendingKey domain domain), del,
        update_self]
    · rw [del, update_self]

/-- A follower with a record has not been deleted, and was added or had a record before. -/
theorem record_step (hnormal : NormalDelete U call)
    (hsome : (call.perform U db (followerKey d)).isSome) :
  call.deletes U d = false ∧ (call.adds U d = true ∨ (db (followerKey d)).isSome)
  := by
  constructor
  · rw [← Bool.not_eq_true]
    intro hdeletes
    rw [perform_of_deletes hnormal hdeletes] at hsome
    cases hsome
  · have hchange := perform_followerKey U db d call
    generalize call.perform U db (followerKey d) = o at hsome hchange
    cases hchange with
    | unchanged => exact .inr hsome
    | added valid adds => exact .inl adds
    | updated mutuallyFollow named =>
      right
      cases hrecord : db (followerKey d) with
      | none =>
        rw [hrecord] at hsome
        exact hsome
      | some h => rfl
    | deleted => cases hsome

/-- Only followers that were added and not deleted since have a record, if `DelFollower` is given
domains in normal form. -/
theorem listed_of_performAll (hdb : ∀ d, db (followerKey d) = none)
    (hnormal : ∀ call ∈ calls, NormalDelete U call)
    (hsome : (performAll U db calls (followerKey d)).isSome) :
  listed U d calls = true
  := by
  induction calls using List.reverseRecOn with
  | nil =>
    change (db (followerKey d)).isSome = true at hsome
    rw [hdb] at hsome
    cases hsome
  | append_singleton calls call ih =>
    rw [forall_mem_append, forall_mem_singleton] at hnormal
    rw [performAll, foldl_append, foldl_cons, foldl_nil] at hsome
    rw [listed, foldl_append, foldl_cons, foldl_nil, Bool.and_eq_true,
      Bool.not_eq_true', Bool.or_eq_true]
    obtain ⟨hdeletes, hadds | hbefore⟩ := record_step hnormal.2 hsome
    · exact ⟨hdeletes, .inl hadds⟩
    · exact ⟨hdeletes, .inr (ih hnormal.1 hbefore)⟩

/-- Whatever processes call `AddFollowerChecked`, `UpdateFollowerStatusChecked` and `DelFollower`,
and however the commands end, from a store without followers: every record is complete or absent;
an update changes nothing but the status of a record that is there; and if `DelFollower` is given
domains in normal form, then it is the record of a follower that was added and not deleted
since. -/
theorem follower_records_complete (U : CaseTable) (db : Database)
    (hdb : ∀ d, db (followerKey d) = none) (calls : List FollowerCall) :
  (∀ d h, performAll U db calls (followerKey d) = some h → CompleteFollower h) ∧
    ∀ domain mutuallyFollow outcome d,
      let before := performAll U db calls
      let after := (FollowerCall.update domain mutuallyFollow outcome).perform U before
      after (followerKey d) ≠ before (followerKey d) →
        d = normalizeStateDomain U domain ∧
        (∃ h, before (followerKey d) = some h ∧
          after (followerKey d) = some (h.set "mutually_follow" (flagText mutuallyFollow))) ∧
        ((∀ call ∈ calls, NormalDelete U call) → listed U d calls = true)
  := by
  have hcomplete : CompleteRecords (performAll U db calls) := by
    apply CompleteRecords.performAll
    intro d h hh
    rw [hdb] at hh
    cases hh
  refine ⟨hcomplete, ?_⟩
  intro domain mutuallyFollow outcome d
  dsimp only
  have hchange := perform_followerKey U (performAll U db calls) d
    (.update domain mutuallyFollow outcome)
  generalize FollowerCall.perform U (performAll U db calls) (.update domain mutuallyFollow outcome)
    (followerKey d) = o at hchange
  intro hne
  cases hchange with
  | unchanged => exact absurd rfl hne
  | updated _ named =>
    rw [updateFollowerStatusScript_of_complete (hcomplete d)] at hne ⊢
    cases hrecord : performAll U db calls (followerKey d) with
    | none =>
      rw [hrecord] at hne
      exact absurd rfl hne
    | some h =>
      refine ⟨named.symm, ⟨h, rfl, rfl⟩, ?_⟩
      intro hnormal
      apply listed_of_performAll hdb hnormal
      rw [hrecord]
      rfl

end

/-- A follower whose domain is not in normal form. -/
def mixedCaseFollower : Follower where
  domain := lit "Example.COM"
  inboxURL := lit "https://example.com/inbox"
  activityID := lit "https://example.com/activities/1"
  actorID := lit "https://Example.COM/actor"
  mutuallyFollow := false

theorem follower_record_updated :
  let before := performAll .identity .empty [.add mixedCaseFollower .answered]
  let after := (FollowerCall.update (lit "Example.COM") true .answered).perform .identity before
  (∃ h, before (followerKey (lit "example.com")) = some h ∧
      after (followerKey (lit "example.com"))
        = some (h.set "mutually_follow" (flagText true))) ∧
    listed .identity (lit "example.com") [.add mixedCaseFollower .answered] = true
  := by
  have hrecords := follower_records_complete .identity .empty (fun _ => rfl)
    [.add mixedCaseFollower .answered]
  have hupdate := hrecords.2 (lit "Example.COM") true .answered (lit "example.com") (by
    intro heq
    have hstatus := congrArg (Option.map (Hash.stringValue · "mutually_follow")) heq
    exact absurd hstatus (by decide +kernel))
  refine ⟨hupdate.2.1, hupdate.2.2 ?_⟩
  rw [forall_mem_singleton]
  exact trivial

/-- `DelFollower` does not delete a follower under the domain that it was added with, and an
update still changes it. -/
theorem follower_updated_after_delete :
  let calls : List FollowerCall :=
    [.add mixedCaseFollower .answered, .del mixedCaseFollower.domain .answered .answered]
  let before := performAll .identity .empty calls
  let after := (FollowerCall.update mixedCaseFollower.domain true .answered).perform .identity before
  let status := fun db : Database =>
    (db (followerKey (lit "example.com"))).map (Hash.stringValue · "mutually_follow")
  listed .identity (lit "example.com") calls = false ∧
    status before = some (lit "0") ∧ status after = some (lit "1")
  := by
  decide +kernel

end Models
