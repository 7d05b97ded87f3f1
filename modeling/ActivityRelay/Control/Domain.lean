import ActivityRelay.Api.Registration

/-!
# Limiting and blocking domains

`domain set` and `domain unset` write the domains into the hash of a list as they were given. The
relay searches the lists for the normalised name of the host of an actor.
-/

namespace Control

open Api GoString Models NetUrl

/-! ### The commands -/

/-- The two commands, which differ in the value and in the word that they print: the database
afterwards, and the lines that are printed. -/
def changeDomainType (value : Bool) (word type : GoString) (args : List GoString)
    (db : Database) : Database × List GoString :=
  if type = lit "limited" then
    (args.foldl (fun db domain => db.setLimitedDomain domain value) db,
      args.map fun domain => word ++ lit " [" ++ domain ++ lit "] as limited domain")
  else if type = lit "blocked" then
    (args.foldl (fun db domain => db.setBlockedDomain domain value) db,
      args.map fun domain => word ++ lit " [" ++ domain ++ lit "] as blocked domain")
  else (db, [lit "Invalid type provided: " ++ type])

def setDomainType : GoString → List GoString → Database → Database × List GoString :=
  changeDomainType true (lit "Set")

def unsetDomainType : GoString → List GoString → Database → Database × List GoString :=
  changeDomainType false (lit "Unset")

/-- The lists of domains. -/
inductive DomainList
  | limited
  | blocked
  deriving DecidableEq, Repr

namespace DomainList

/-- The type on the command line. -/
def type : DomainList → GoString
  | limited => lit "limited"
  | blocked => lit "blocked"

/-- The key of the hash. -/
def key : DomainList → GoString
  | limited => limitedDomainKey
  | blocked => blockedDomainKey

/-- Whether an actor is on the list. -/
def lists (relay : Relay) (actorID : Option URL) : DomainList → Bool
  | limited => isActorLimited relay actorID
  | blocked => isActorBlocked relay actorID

end DomainList

/-! ### The fields of a list -/

section Fields

variable {db : Database} {relay : Relay} {actorID : Option URL}

/-- After a sequence of writes, the fields of the given domains are set or absent, and the others
are as before. -/
theorem hash_foldl_setDomain (key : GoString) (args : List GoString) (value : Bool) (d : GoString) :
  (args.foldl (fun db domain => db.setDomain key domain value) db).hash key d =
    if d ∈ args then (if value then some (lit "1") else none) else db.hash key d
  := by
  induction args generalizing db with
  | nil => rfl
  | cons domain args ih =>
    rw [List.foldl_cons, ih]
    by_cases hargs : d ∈ args
    · simp [hargs]
    · by_cases hd : d = domain
      · subst hd
        simp [Database.setDomain, Database.modify, Database.hash, hargs]
      · simp [Database.setDomain, Database.modify, Database.hash, hargs, hd]

theorem hash_changeDomainType (kind : DomainList) (word : GoString) (args : List GoString)
    (value : Bool) (d : GoString) :
  (changeDomainType value word kind.type args db).1.hash kind.key d =
    if d ∈ args then (if value then some (lit "1") else none) else db.hash kind.key d
  := by
  cases kind with
  | limited => exact hash_foldl_setDomain limitedDomainKey args value d
  | blocked => exact hash_foldl_setDomain blockedDomainKey args value d

theorem lists_loaded_iff (kind : DomainList) (l : Listing db) :
  kind.lists (relay.loaded l) actorID = true ↔
    (db.hash kind.key (normalizedActorDomain relay actorID)).isSome
  := by
  cases kind with
  | limited => exact isLimited_load_iff
  | blocked => exact isBlocked_load_iff

/-- An actor on one of the lists may not relay. -/
theorem not_able_of_lists {kind : DomainList} {actor : Actor}
    (h : kind.lists relay (parse actor.id) = true) :
  isActorAbleToRelay relay actor = false
  := by
  cases kind with
  | blocked => exact not_able_of_blocked h
  | limited =>
    unfold isActorAbleToRelay
    cases hparse : parse actor.id with
    | none => rfl
    | some url =>
      rw [DomainList.lists, hparse] at h
      simp [h]

end Fields

/-- The property of `domain set` and `domain unset` that an administrator expects: the actor is on
the list after the first, whatever spelling of its domain is set, and not any more after the
second. -/
structure Moderates (relay : Relay) (kind : DomainList) (actor : Actor) {db₁ db₂ : Database}
    (l₁ : Listing db₁) (l₂ : Listing db₂) : Prop where
  listed : kind.lists (relay.loaded l₁) (parse actor.id) = true
  unable : isActorAbleToRelay (relay.loaded l₁) actor = false
  lifted : kind.lists (relay.loaded l₂) (parse actor.id) = false

/-- An actor is on a list after a spelling of its domain has been set, and not any more after a
spelling has been unset, if and only if the normal form itself was set, now or before, and is
unset. -/
theorem moderates_iff {relay : Relay} {actor : Actor} {d d' : GoString}
    (hactor : normalizedActorDomain relay (parse actor.id) =
      normalizeStateDomain relay.caseTable d)
    (hsame : normalizeStateDomain relay.caseTable d' = normalizeStateDomain relay.caseTable d)
    (kind : DomainList) (db : Database) (l₁ : Listing (setDomainType kind.type [d] db).1)
    (l₂ : Listing (unsetDomainType kind.type [d'] (setDomainType kind.type [d] db).1).1) :
  Moderates relay kind actor l₁ l₂ ↔
    (normalizeStateDomain relay.caseTable d = d ∨
        (db.hash kind.key (normalizeStateDomain relay.caseTable d)).isSome) ∧
      normalizeStateDomain relay.caseTable d' = d'
  := by
  have hlisted : kind.lists (relay.loaded l₁) (parse actor.id) = true ↔
      normalizeStateDomain relay.caseTable d = d ∨
        (db.hash kind.key (normalizeStateDomain relay.caseTable d)).isSome := by
    rw [lists_loaded_iff, hactor, setDomainType, hash_changeDomainType]
    by_cases hd : normalizeStateDomain relay.caseTable d = d
    · simp [hd]
    · simp [hd]
  have hlifted : kind.lists (relay.loaded l₂) (parse actor.id) = false ↔
      normalizeStateDomain relay.caseTable d' = d' ∨
        kind.lists (relay.loaded l₁) (parse actor.id) = false := by
    rw [← Bool.not_eq_true, ← Bool.not_eq_true, lists_loaded_iff, lists_loaded_iff, hactor, ← hsame,
      unsetDomainType, hash_changeDomainType]
    by_cases hd : normalizeStateDomain relay.caseTable d' = d'
    · simp [hd]
    · simp [hd]
  constructor
  · intro h
    refine ⟨hlisted.mp h.listed, ?_⟩
    obtain hd | hnot := hlifted.mp h.lifted
    · exact hd
    · rw [h.listed] at hnot
      cases hnot
  · rintro ⟨hd, hd'⟩
    have hl := hlisted.mpr hd
    exact ⟨hl, not_able_of_lists hl, hlifted.mpr (.inl hd')⟩

/-- The listing of a database in which a domain has been set or unset. -/
def setDomainListing {db : Database} (l : Listing db) (key d : GoString) (value : Bool) :
    Listing (db.setDomain key d value) :=
  l.update key _ (if value then d :: (l.hkeys key).filter (· ≠ d) else (l.hkeys key).filter (· ≠ d))
    (by
      have hnodup := (l.nodup_hkeys key).filter (· ≠ d)
      cases value with
      | true => simpa using hnodup
      | false => simpa using hnodup)
    (by
      intro field
      by_cases hfield : field = d
      · cases value <;> simp [hfield]
      · cases value <;> simp [hfield, l.mem_hkeys])

theorem moderates_plainDomain :
  let db₁ := (setDomainType (lit "blocked") [lit "b"] .empty).1
  ∃ (l₁ : Listing db₁) (l₂ : Listing (unsetDomainType (lit "blocked") [lit "b"] db₁).1),
    Moderates (exampleRelay []) .blocked exampleActor l₁ l₂
  := by
  refine ⟨setDomainListing .ofEmpty blockedDomainKey (lit "b") true,
    setDomainListing (setDomainListing .ofEmpty blockedDomainKey (lit "b") true) blockedDomainKey
      (lit "b") false, ?_⟩
  have hnormal : normalizeStateDomain (exampleRelay []).caseTable (lit "b") = lit "b" := by
    decide +kernel
  exact (moderates_iff (by decide +kernel) rfl .blocked .empty _ _).mpr ⟨.inl hnormal, hnormal⟩

/-- An upper-case spelling of the domain of an actor neither blocks it nor lifts the block. -/
theorem upperCase_domain_not_blocked :
  normalizedActorDomain (exampleRelay []) (parse exampleActor.id) =
      normalizeStateDomain .identity (lit "B") ∧
    (∃ l : Listing (setDomainType (lit "blocked") [lit "B"] .empty).1,
      isActorBlocked ((exampleRelay []).loaded l) (parse exampleActor.id) = false) ∧
    ∃ l : Listing (unsetDomainType (lit "blocked") [lit "B"]
        (setDomainType (lit "blocked") [lit "b"] .empty).1).1,
      isActorBlocked ((exampleRelay []).loaded l) (parse exampleActor.id) = true
  := by
  refine ⟨by decide +kernel, ⟨setDomainListing .ofEmpty blockedDomainKey (lit "B") true, ?_⟩,
    ⟨setDomainListing (setDomainListing .ofEmpty blockedDomainKey (lit "b") true) blockedDomainKey
      (lit "B") false, ?_⟩⟩
  · rw [← Bool.not_eq_true]
    exact (lists_loaded_iff .blocked _).not.mpr (by decide +kernel)
  · exact (lists_loaded_iff .blocked _).mpr (by decide +kernel)

end Control
