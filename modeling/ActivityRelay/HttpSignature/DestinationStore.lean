import Mathlib.Data.Int.ConditionallyCompleteOrder
import Mathlib.Data.List.MinMax
import Mathlib.Data.List.Pairwise
import Mathlib.Order.ConditionallyCompleteLattice.Basic
import ActivityRelay.HttpSignature.Destination
import ActivityRelay.Transition.Run

/-!
# The newest observation

Any number of processes save what they observe of destinations, in any order. The script lets
only a newer observation replace what is stored, so the hash of a scope and an origin is that of
the newest observation for them, the `argmax` of the time stamps over all that was saved
(`Newest`). What is read back is valid, and so `plan` follows the newest observation.
-/

namespace HttpSignature

open Fallible Function GoString GoTime List NetUrl Transition

/-! ### Observations -/

/-- A call of one of the three functions that observe, with the readings of the clock: that of
the negotiator, and that before the script is called. -/
structure Observation where
  negotiator : DestinationNegotiator
  scope : DestinationScope
  destination : GoString
  evidence : CapabilityEvidence
  observedAt : ℤ
  wall : ℤ

namespace Observation

variable (U : CaseTable) (sha256 : GoString → GoString) (keyPrefix : GoString) (o : Observation)

def ttl : ℤ :=
  match o.evidence.profile with
  | .rfc9421 => o.negotiator.positiveTTL
  | _ => o.negotiator.negativeTTL

/-- The call of the function for the evidence. -/
def save (redisNow : ℤ) (keys : CapabilityKeys) :
    CapabilityKeys × Except CapabilityError (DestinationCapability × Bool) :=
  match o.evidence with
  | .successfulRFC9421 | .acceptSignature =>
      observeRFC9421Success U sha256 keyPrefix o.negotiator o.scope o.destination o.evidence
        o.observedAt o.wall redisNow keys
  | .explicitRFC9421Rejection =>
      observeExplicitRFC9421Rejection U sha256 keyPrefix o.negotiator o.scope o.destination
        o.observedAt o.wall redisNow keys
  | .successfulLegacyFallback =>
      observeSuccessfulLegacyFallback U sha256 keyPrefix o.negotiator o.scope o.destination
        o.observedAt o.wall redisNow keys

/-- The milliseconds by which observations are ordered. -/
def timestamp : ℤ := unixMilli o.observedAt

/-- The moment at which the key expires. -/
def expiresAtMs : ℤ := unixMilli (o.observedAt + o.ttl)

/-- The capability that is observed for an origin. -/
def capability (origin : GoString) : DestinationCapability :=
  ⟨origin, o.scope, o.evidence.profile, o.evidence, o.observedAt, o.observedAt + o.ttl⟩

/-- The observation is one for the scope and the origin. -/
def about (scope : DestinationScope) (origin : GoString) : Bool :=
  o.scope = scope ∧ (normalizeDestinationOrigin U o.destination).toOption = some origin

end Observation

/-! ### Processes that observe -/

/-- The store, the time of Redis in milliseconds, and the observations that were accepted. -/
structure Negotiating where
  now : ℕ
  keys : CapabilityKeys
  saved : List Observation

inductive NegotiatingEvent
  | tick (milliseconds : ℕ)
  | observe (o : Observation)

section System

variable (U : CaseTable) (sha256 : GoString → GoString) (keyPrefix : GoString)

/-- One step. Only observations that are accepted are saved. -/
def observeStep (s : Negotiating) : NegotiatingEvent → Option Negotiating
  | .tick d => some { s with now := s.now + d }
  | .observe o =>
      match o.save U sha256 keyPrefix s.now s.keys with
      | (keys, .ok _) => some { s with keys := keys, saved := s.saved ++ [o] }
      | (_, .error _) => none

/-- No observation has expired. -/
def Unexpired (s : Negotiating) : Prop := ∀ o ∈ s.saved, s.now < o.expiresAtMs

/-- Every observation was valid, and the hash of a scope and an origin is that of the newest
observation for them. -/
structure Newest (s : Negotiating) : Prop where
  valid : ∀ o ∈ s.saved, ∃ origin, normalizeDestinationOrigin U o.destination = .ok origin ∧
    (o.capability origin).validate U = .ok ()
  keys_eq : ∀ scope origin,
    s.keys (capabilityKey sha256 keyPrefix scope origin)
      = ((s.saved.filter (fun o => o.about U scope origin)).argmax Observation.timestamp).map
          (fun o => ⟨(o.capability origin).hash, some o.expiresAtMs⟩)

end System

/-! ### Keys -/

section Keys

theorem hexDigit_injective {m n : ℕ} (hm : m < 16) (hn : n < 16) (h : hexDigit m = hexDigit n) :
  m = n
  := by
  have hall : ∀ m < 16, ∀ n < 16, hexDigit m = hexDigit n → m = n := by decide
  exact hall m hm n hn h

theorem hexEncode_injective :
  Injective hexEncode
  := by
  intro s t h
  induction s generalizing t with
  | nil =>
    cases t with
    | nil => rfl
    | cons b t => simp [hexEncode] at h
  | cons a s ih =>
    cases t with
    | nil => simp [hexEncode] at h
    | cons b t =>
      simp only [hexEncode, flatMap_cons, cons_append, nil_append,
        List.cons.injEq] at h
      obtain ⟨hhigh, hlow, hrest⟩ := h
      have ha : a.toNat < 256 := a.toNat_lt
      have hb : b.toNat < 256 := b.toNat_lt
      have hhigh := hexDigit_injective (by omega) (by omega) hhigh
      have hlow := hexDigit_injective (by omega) (by omega) hlow
      have hab : a = b := by
        apply UInt8.toNat_inj.mp
        omega
      rw [hab, ih hrest]

/-- Different scopes or origins have different keys. -/
theorem capabilityKey_injective {sha256 : GoString → GoString} (hsha : Injective sha256)
    {keyPrefix : GoString} {scope scope' : DestinationScope} {origin origin' : GoString}
    (h : capabilityKey sha256 keyPrefix scope origin
      = capabilityKey sha256 keyPrefix scope' origin') :
  scope = scope' ∧ origin = origin'
  := by
  have hplain := hsha (hexEncode_injective (append_cancel_left h))
  cases scope <;> cases scope'
  case fetch.fetch | delivery.delivery =>
    have := append_cancel_left hplain
    exact ⟨rfl, (List.cons.inj this).2⟩
  case fetch.delivery =>
    have hfirst : some (0x66 : UInt8) = some 0x64 := congrArg List.head? hplain
    exact absurd hfirst (by decide)
  case delivery.fetch =>
    have hfirst : some (0x64 : UInt8) = some 0x66 := congrArg List.head? hplain
    exact absurd hfirst (by decide)

end Keys

/-! ### What is saved -/

section Saving

variable {U : CaseTable} {sha256 : GoString → GoString} {keyPrefix : GoString}
  {c : DestinationCapability}

/-- The three functions differ in the profile and the lifetime only. -/
theorem Observation.save_eq (o : Observation) (redisNow : ℤ) (keys : CapabilityKeys) :
  o.save U sha256 keyPrefix redisNow keys
    = saveObservation U sha256 keyPrefix o.scope o.destination o.evidence.profile o.evidence o.ttl
        o.observedAt o.wall redisNow keys
  := by
  obtain ⟨negotiator, scope, destination, evidence, observedAt, wall⟩ := o
  cases evidence <;> rfl

theorem observedCapability_ok {scope : DestinationScope} {destination : GoString}
    {evidence : CapabilityEvidence} {ttl observedAt : ℤ}
    (h : observedCapability U scope destination evidence.profile evidence ttl observedAt = .ok c) :
  ∃ origin, normalizeDestinationOrigin U destination = .ok origin ∧ c.validate U = .ok () ∧
    c = ⟨origin, scope, evidence.profile, evidence, observedAt, observedAt + ttl⟩
  := by
  unfold observedCapability at h
  rw [if_neg (not_not.mpr rfl)] at h
  split at h
  · cases h
  · rename_i origin horigin
    obtain ⟨u, hvalid, rfl⟩ := map_eq_ok h
    exact ⟨origin, horigin, hvalid, rfl⟩

theorem saveDestinationCapability_ok {wall now : ℤ} {keys keys' : CapabilityKeys} {b : Bool}
    (h : saveDestinationCapability U sha256 keyPrefix wall now c keys = (keys', .ok b)) :
  ∃ cell, saveDestinationCapabilityScript now c.hash
      (keys (capabilityKey sha256 keyPrefix c.scope c.origin)) = some cell ∧
    keys' = update keys (capabilityKey sha256 keyPrefix c.scope c.origin) cell.1
  := by
  unfold saveDestinationCapability at h
  split at h
  · cases h
  · split at h
    · cases h
    · dsimp only at h
      split at h
      · cases h
      · rename_i cell hcell
        exact ⟨cell, hcell, (Prod.mk.inj h).1.symm⟩

/-- An observation that is accepted has a valid capability, and the script has been executed. -/
theorem Observation.save_ok {o : Observation} {redisNow : ℤ} {keys keys' : CapabilityKeys}
    {r : DestinationCapability × Bool}
    (h : o.save U sha256 keyPrefix redisNow keys = (keys', .ok r)) :
  ∃ origin, normalizeDestinationOrigin U o.destination = .ok origin ∧
    (o.capability origin).validate U = .ok () ∧
    ∃ cell, saveDestinationCapabilityScript redisNow (o.capability origin).hash
        (keys (capabilityKey sha256 keyPrefix o.scope origin)) = some cell ∧
      keys' = update keys (capabilityKey sha256 keyPrefix o.scope origin) cell.1
  := by
  rw [o.save_eq, saveObservation] at h
  split at h
  · cases h
  · rename_i c hcapability
    obtain ⟨origin, horigin, hvalid, rfl⟩ := observedCapability_ok hcapability
    obtain ⟨hkeys, hresult⟩ := Prod.mk.inj h
    obtain ⟨b, hb, -⟩ := map_eq_ok hresult
    exact ⟨origin, horigin, hvalid, saveDestinationCapability_ok (Prod.ext hkeys hb)⟩

theorem parseInt_unixMilli (t : ℤ) :
  parseInt (formatInt (unixMilli t)) = some (unixMilli t)
  := parseInt_formatInt_of_fits (unixMilli_fits t).1 (unixMilli_fits t).2

/-- The script lets a newer observation replace an older one. -/
theorem saveDestinationCapabilityScript_eq {now : ℤ} {old : Redis.Cell CapabilityHash}
    {cell : Redis.Cell CapabilityHash × ℤ} (hnow : now < unixMilli c.expiresAt)
    (h : saveDestinationCapabilityScript now c.hash old = some cell) :
  cell.1
    = match old.get now with
      | none => some ⟨c.hash, some (unixMilli c.expiresAt)⟩
      | some current =>
          if unixMilli c.observedAt ≤ (parseInt current.observedAtMs).getD 0 then old
          else some ⟨c.hash, some (unixMilli c.expiresAt)⟩
  := by
  have hset : setCapability now c.hash = some (some ⟨c.hash, some (unixMilli c.expiresAt)⟩, 1) := by
    simp only [setCapability, DestinationCapability.hash, parseInt_unixMilli, Option.map_some,
      if_neg (not_le.mpr hnow)]
  have hobserved : parseInt c.hash.observedAtMs = some (unixMilli c.observedAt) :=
    parseInt_unixMilli _
  unfold saveDestinationCapabilityScript at h
  rw [hset] at h
  cases hold : old.get now with
  | none =>
    rw [hold] at h
    cases h
    rfl
  | some current =>
    rw [hold] at h
    dsimp only at h ⊢
    cases hcurrent : parseInt current.observedAtMs with
    | none => simp [hcurrent] at h
    | some m =>
      rw [hcurrent, hobserved] at h
      dsimp only [Option.getD_some] at h ⊢
      split at h
      · rename_i hle
        cases h
        rw [if_pos hle]
      · rename_i hle
        cases h
        rw [if_neg hle]

end Saving

/-! ### The store has the newest observations -/

section Newest

variable {U : CaseTable} {sha256 : GoString → GoString} {keyPrefix : GoString} {s s' : Negotiating}
  {e : NegotiatingEvent}

theorem Observation.about_iff {o : Observation} {scope : DestinationScope} {origin : GoString} :
  o.about U scope origin = true ↔
    o.scope = scope ∧ normalizeDestinationOrigin U o.destination = .ok origin
  := by
  unfold about
  cases normalizeDestinationOrigin U o.destination <;> simp [Except.toOption]

/-- What commands see of a key whose newest observation has not expired. -/
theorem Newest.get_eq (hs : Newest U sha256 keyPrefix s) (hunexpired : Unexpired s)
    (scope : DestinationScope) (origin : GoString) :
  (s.keys (capabilityKey sha256 keyPrefix scope origin)).get s.now
    = ((s.saved.filter (fun o => o.about U scope origin)).argmax Observation.timestamp).map
        (fun o => (o.capability origin).hash)
  := by
  rw [hs.keys_eq]
  cases hmax : (s.saved.filter (fun o => o.about U scope origin)).argmax Observation.timestamp with
  | none => rfl
  | some m =>
    have hmem : m ∈ s.saved := (mem_filter.mp (argmax_mem hmax)).1
    rw [Option.map_some, Option.map_some, Redis.Cell.get_eq_some]
    use some m.expiresAtMs, rfl
    rintro x ⟨⟩
    exact (hunexpired m hmem).le

/-- A newer observation becomes the newest one, and an older one changes nothing. -/
theorem newest_observe (hsha : Injective sha256) {o : Observation}
    (hs : Newest U sha256 keyPrefix s) (hunexpired : Unexpired s) (hnow : s.now < o.expiresAtMs)
    (h : observeStep U sha256 keyPrefix s (.observe o) = some s') :
  Newest U sha256 keyPrefix s'
  := by
  simp only [observeStep] at h
  split at h
  swap
  · cases h
  rename_i keys r hsave
  cases h
  obtain ⟨origin, horigin, hvalid, cell, hscript, rfl⟩ := Observation.save_ok hsave
  refine ⟨?_, ?_⟩
  · intro o' ho'
    rcases mem_append.mp ho' with ho' | ho'
    · exact hs.valid o' ho'
    · obtain rfl := mem_singleton.mp ho'
      exact ⟨origin, horigin, hvalid⟩
  · intro scope origin'
    dsimp only
    rw [filter_append]
    by_cases habout : o.about U scope origin' = true
    · -- The key of the observation: the script compares the time stamps as `argmax` does.
      obtain ⟨rfl, horigin'⟩ := Observation.about_iff.mp habout
      obtain rfl : origin = origin' := by
        rw [horigin] at horigin'
        exact Except.ok.inj horigin'
      have hexpires : (s.now : ℤ) < unixMilli (o.capability origin).expiresAt := hnow
      rw [update_self, saveDestinationCapabilityScript_eq hexpires hscript,
        hs.get_eq hunexpired, filter_singleton, habout, cond_true, argmax_concat]
      cases hmax : (s.saved.filter (fun o' => o'.about U o.scope origin)).argmax
          Observation.timestamp with
      | none => rfl
      | some m =>
        have hm : parseInt (m.capability origin).hash.observedAtMs = some m.timestamp :=
          parseInt_unixMilli _
        simp only [Option.map_some, hm, Option.getD_some]
        change (if o.timestamp ≤ m.timestamp then _ else _) = _
        by_cases hle : o.timestamp ≤ m.timestamp
        · rw [if_pos hle, if_neg (not_lt.mpr hle), hs.keys_eq, hmax]
        · rw [if_neg hle, if_pos (not_le.mp hle)]
          rfl
    · have hkey : capabilityKey sha256 keyPrefix scope origin'
          ≠ capabilityKey sha256 keyPrefix o.scope origin := by
        intro hkey
        obtain ⟨rfl, rfl⟩ := capabilityKey_injective hsha hkey
        exact habout (Observation.about_iff.mpr ⟨rfl, horigin⟩)
      rw [update_of_ne hkey, hs.keys_eq, filter_singleton, Bool.eq_false_of_not_eq_true habout,
        cond_false, append_nil]

/-- An observation that is not expired now was not expired before. -/
theorem unexpired_of_step (h : observeStep U sha256 keyPrefix s e = some s')
    (hunexpired : Unexpired s') :
  Unexpired s
  := by
  cases e with
  | tick d =>
    cases h
    intro o ho
    have := hunexpired o ho
    push_cast at this
    omega
  | observe o =>
    simp only [observeStep] at h
    split at h
    · cases h
      intro o' ho'
      exact hunexpired o' (mem_append_left _ ho')
    · cases h

/-- The hash stays that of the newest observation. -/
theorem newest_step (hsha : Injective sha256) (hs : Newest U sha256 keyPrefix s)
    (hunexpired : Unexpired s') (h : observeStep U sha256 keyPrefix s e = some s') :
  Newest U sha256 keyPrefix s'
  := by
  have hbefore := unexpired_of_step h hunexpired
  cases e with
  | tick d =>
    cases h
    exact ⟨hs.valid, hs.keys_eq⟩
  | observe o =>
    refine newest_observe hsha hs hbefore ?_ h
    simp only [observeStep] at h
    split at h
    · cases h
      exact hunexpired o (mem_append_right _ (mem_singleton_self _))
    · cases h

theorem newest_run (hsha : Injective sha256) {s₀ : Negotiating} {es : List NegotiatingEvent}
    (hkeys : ∀ key, s₀.keys key = none) (hsaved : s₀.saved = [])
    (hrun : run (observeStep U sha256 keyPrefix) s₀ es = some s) (hunexpired : Unexpired s) :
  Newest U sha256 keyPrefix s
  := by
  refine run_invariant (P := fun s => Unexpired s → Newest U sha256 keyPrefix s) ?_ ?_ hrun
    hunexpired
  · intro t e t' ht h hunexpired
    exact newest_step hsha (ht (unexpired_of_step h hunexpired)) hunexpired h
  · intro _
    exact ⟨by simp [hsaved], by simp [hsaved, hkeys]⟩

end Newest

/-! ### What is read back -/

section Reading

variable {U : CaseTable}

theorem Observation.ttl_range (o : Observation) :
  minute ≤ o.ttl ∧ o.ttl < 2 ^ 63
  := by
  obtain ⟨⟨positiveTTL, negativeTTL, hminute, hle, hlt⟩, scope, destination, evidence, observedAt,
    wall⟩ := o
  cases evidence <;> (simp only [ttl, CapabilityEvidence.profile]; omega)

/-- In the arithmetic of 64 bits, a moment before one that is not before 1970 is before it. -/
theorem bmod_eq_sub {a b : ℤ} (hb : 0 ≤ Int.bmod b (2 ^ 64)) (hle : a ≤ b) (hlt : b - a < 2 ^ 62) :
  Int.bmod a (2 ^ 64) = Int.bmod b (2 ^ 64) - (b - a)
  := by
  simp only [Int.bmod_def, Nat.cast_pow, Nat.cast_ofNat] at hb ⊢
  split_ifs at hb ⊢ <;> omega

variable {o : Observation} {now : ℕ}

/-- The time stamp is before the moment of expiry, and not the zero time. -/
theorem Observation.timestamp_lt (hnow : now < o.expiresAtMs) :
  o.timestamp < o.expiresAtMs ∧ ofUnixMilli o.timestamp ≠ 0
  := by
  obtain ⟨hminute, hlt⟩ := o.ttl_range
  unfold timestamp expiresAtMs unixMilli ofUnixMilli at *
  simp only [millisecond, minute, second, unixToInternal] at *
  have := bmod_eq_sub (a := o.observedAt / 1000000 - 62135596800 * 1000)
    (b := (o.observedAt + o.ttl) / 1000000 - 62135596800 * 1000) (by omega) (by omega) (by omega)
  omega

/-- The capability as it is read back, with times in whole milliseconds. -/
def Observation.readBack (o : Observation) (origin : GoString) : DestinationCapability :=
  ⟨origin, o.scope, o.evidence.profile, o.evidence, ofUnixMilli o.timestamp,
    ofUnixMilli o.expiresAtMs⟩

theorem validate_eq_ok {c : DestinationCapability} :
  c.validate U = .ok () ↔
    normalizeDestinationOrigin U c.origin = .ok c.origin ∧ c.profile ≠ .dual ∧
      c.profile = c.evidence.profile ∧ c.observedAt ≠ 0 ∧ c.observedAt < c.expiresAt
  := by
  unfold DestinationCapability.validate
  cases hnormal : normalizeDestinationOrigin U c.origin with
  | error e => simp
  | ok normalized =>
    dsimp only
    split_ifs <;> simp_all

/-- What is read back of a valid capability is valid. -/
theorem Observation.validate_readBack {origin : GoString} (hnow : now < o.expiresAtMs)
    (hvalid : (o.capability origin).validate U = .ok ()) :
  (o.readBack origin).validate U = .ok ()
  := by
  obtain ⟨hlt, hzero⟩ := timestamp_lt hnow
  obtain ⟨hnormal, hdual, hprofile, -, -⟩ := validate_eq_ok.mp hvalid
  rw [validate_eq_ok]
  refine ⟨hnormal, hdual, hprofile, hzero, ?_⟩
  simp only [readBack, ofUnixMilli, millisecond]
  omega

/-- A hash is read back as the capability that it was made of. -/
theorem Observation.capability_hash {origin : GoString} (hnow : now < o.expiresAtMs)
    (hvalid : (o.capability origin).validate U = .ok ()) :
  (o.capability origin).hash.capability U o.scope origin = .ok (o.readBack origin)
  := by
  have htime : ∀ field t, parseCapabilityTime field (formatInt (unixMilli t))
      = .ok (ofUnixMilli (unixMilli t)) := by
    intro field t
    unfold parseCapabilityTime
    rw [if_neg, parseInt_unixMilli]
    intro hempty
    have := parseInt_unixMilli t
    rw [hempty] at this
    cases this
  have hprofile : Profile.validate o.evidence.profile.string = .ok o.evidence.profile := by
    cases o.evidence <;> rfl
  unfold CapabilityHash.capability
  simp only [DestinationCapability.hash, capability, htime, hprofile,
    CapabilityEvidence.ofString_string, ne_eq, not_true_eq_false, or_self, if_false]
  change ((o.readBack origin).validate U).map _ = _
  rw [validate_readBack hnow hvalid]
  rfl

end Reading

/-! ### Plans -/

section Plans

variable {U : CaseTable} {sha256 : GoString → GoString} {keyPrefix : GoString} {s : Negotiating}
  {scope : DestinationScope}

/-- Among observations with different time stamps there is one that is newer than all others. -/
theorem newest_strict {os : List Observation}
    (hdistinct : os.Pairwise (fun o o' => o.timestamp ≠ o'.timestamp)) {m : Observation}
    (hm : m ∈ os.argmax Observation.timestamp) :
  ∀ o ∈ os, o = m ∨ o.timestamp < m.timestamp
  := by
  intro o ho
  rcases (le_of_mem_argmax ho hm).lt_or_eq with hlt | heq
  · exact .inr hlt
  · left
    by_contra hne
    have : Std.Symm (fun o o' : Observation => o.timestamp ≠ o'.timestamp) :=
      ⟨fun _ _ => Ne.symm⟩
    exact hdistinct.forall ho (argmax_mem hm) hne heq

/-- The plan for an origin with observations follows the newest of them. -/
theorem plan_of_newest {destination origin : GoString} {now wall : ℤ} {m : Observation}
    (hs : Newest U sha256 keyPrefix s) (hunexpired : Unexpired s)
    (hfresh : (if now = 0 then wall else now) < ofUnixMilli m.expiresAtMs)
    (horigin : normalizeDestinationOrigin U destination = .ok origin)
    (hmax : (s.saved.filter (fun o => o.about U scope origin)).argmax Observation.timestamp
      = some m) :
  plan U sha256 keyPrefix .dual scope destination now wall s.now s.keys
    = .ok ⟨origin, scope, m.evidence.profile, none, .cachedCapability⟩
  := by
  obtain ⟨hmem, habout⟩ := mem_filter.mp (argmax_mem hmax)
  obtain ⟨rfl, hm⟩ := Observation.about_iff.mp habout
  obtain ⟨origin', horigin', hvalid⟩ := hs.valid m hmem
  obtain rfl : origin' = origin := by
    rw [hm] at horigin'
    exact (Except.ok.inj horigin').symm
  have hnormal : normalizeDestinationOrigin U origin' = .ok origin' := (validate_eq_ok.mp hvalid).1
  have hload : loadDestinationCapability U sha256 keyPrefix s.now m.scope origin' s.keys
      = .ok (some (m.readBack origin')) := by
    unfold loadDestinationCapability
    rw [hnormal, hs.get_eq hunexpired, hmax]
    dsimp only [Option.map_some]
    rw [if_neg (not_not.mpr rfl), Observation.capability_hash (hunexpired m hmem) hvalid]
    rfl
  have hnew : (m.readBack origin').fresh now wall = true := decide_eq_true hfresh
  unfold plan
  rw [horigin]
  dsimp only
  rw [hload]
  dsimp only
  rw [if_pos hnew, Observation.validate_readBack (hunexpired m hmem) hvalid]
  rfl

/-- The plan for an origin without observations is that for an unknown destination. -/
theorem plan_of_none {destination origin : GoString} {now wall : ℤ} {p : NegotiationPlan}
    (hs : Newest U sha256 keyPrefix s) (hunexpired : Unexpired s)
    (horigin : normalizeDestinationOrigin U destination = .ok origin)
    (hnone : ∀ o ∈ s.saved, o.about U scope origin = false)
    (hp : plan U sha256 keyPrefix .dual scope destination now wall s.now s.keys = .ok p) :
  p = unknownDestinationPlan scope origin
  := by
  have hempty : s.saved.filter (fun o => o.about U scope origin) = [] := by
    rw [filter_eq_nil_iff]
    intro o ho
    rw [hnone o ho]
    exact Bool.false_ne_true
  have hget := hs.get_eq hunexpired scope origin
  rw [hempty, argmax_nil, Option.map_none] at hget
  unfold plan at hp
  rw [horigin] at hp
  dsimp only at hp
  unfold loadDestinationCapability at hp
  rw [hget] at hp
  cases hnormal : normalizeDestinationOrigin U origin with
  | error e =>
    rw [hnormal] at hp
    cases hp
  | ok normalized =>
    rw [hnormal] at hp
    dsimp only at hp
    by_cases hsame : normalized = origin
    · rw [if_neg (not_not.mpr hsame)] at hp
      exact (Except.ok.inj hp).symm
    · rw [if_pos hsame] at hp
      cases hp

/-- Whatever was saved, in whatever order: the plan for a destination with observations follows
the newest one for its scope and origin, without a fallback, and the plan for a destination
without any is that for an unknown one. -/
theorem plan_follows_newest_observation (hsha : Injective sha256) {s₀ : Negotiating}
    {es : List NegotiatingEvent} (hkeys : ∀ key, s₀.keys key = none) (hsaved : s₀.saved = [])
    (hrun : run (observeStep U sha256 keyPrefix) s₀ es = some s)
    (hdistinct : s.saved.Pairwise (fun o o' => o.timestamp ≠ o'.timestamp))
    (hunexpired : Unexpired s) (now wall : ℤ)
    (hfresh : ∀ o ∈ s.saved, (if now = 0 then wall else now) < ofUnixMilli o.expiresAtMs)
    (scope : DestinationScope) (destination : GoString) :
  (∀ origin, normalizeDestinationOrigin U destination = .ok origin →
    (∃ o ∈ s.saved, o.about U scope origin = true) →
    ∃ o ∈ s.saved, o.about U scope origin = true ∧
      (∀ o' ∈ s.saved, o'.about U scope origin = true → o' = o ∨ o'.timestamp < o.timestamp) ∧
      plan U sha256 keyPrefix .dual scope destination now wall s.now s.keys
        = .ok ⟨origin, scope, o.evidence.profile, none, .cachedCapability⟩) ∧
  ((∀ origin, normalizeDestinationOrigin U destination = .ok origin →
      ∀ o ∈ s.saved, o.about U scope origin = false) →
    ∀ p, plan U sha256 keyPrefix .dual scope destination now wall s.now s.keys = .ok p →
      ∃ origin, normalizeDestinationOrigin U destination = .ok origin ∧
        p = unknownDestinationPlan scope origin)
  := by
  have hs := newest_run hsha hkeys hsaved hrun hunexpired
  constructor
  · rintro origin horigin ⟨o, ho, habout⟩
    have hne : s.saved.filter (fun o => o.about U scope origin) ≠ [] :=
      ne_nil_of_mem (mem_filter.mpr ⟨ho, habout⟩)
    cases hmax : (s.saved.filter (fun o => o.about U scope origin)).argmax Observation.timestamp with
    | none => exact absurd (argmax_eq_none.mp hmax) hne
    | some m =>
      obtain ⟨hmem, hm⟩ := mem_filter.mp (argmax_mem hmax)
      refine ⟨m, hmem, hm, ?_, plan_of_newest hs hunexpired (hfresh m hmem) horigin hmax⟩
      intro o' ho' habout'
      exact newest_strict (hdistinct.filter _) hmax o' (mem_filter.mpr ⟨ho', habout'⟩)
  · intro hnone p hp
    cases horigin : normalizeDestinationOrigin U destination with
    | error e =>
      unfold plan at hp
      rw [horigin] at hp
      cases hp
    | ok origin => exact ⟨origin, rfl, plan_of_none hs hunexpired horigin (hnone origin horigin) hp⟩

end Plans

/-- A negotiator with the default lifetimes. -/
def defaultNegotiator : DestinationNegotiator := (newDestinationNegotiator 0 0).get rfl

/-- An observation of the host `a`, some seconds after the epoch. -/
def exampleObservation (destination : String) (evidence : CapabilityEvidence) (seconds : ℤ) :
    Observation :=
  ⟨defaultNegotiator, .delivery, lit destination, evidence, ofUnix seconds, ofUnix 10⟩

/-- The older observation of one origin is saved after the newer one. -/
def crossedObservations : List NegotiatingEvent :=
  [.observe (exampleObservation "https://a/inbox" .acceptSignature 2), .tick 1000,
    .observe (exampleObservation "https://A.:443" .explicitRFC9421Rejection 1),
    .observe (exampleObservation "https://b" .successfulLegacyFallback 3)]

def noObservations : Negotiating := ⟨0, fun _ => none, []⟩

def afterCrossedObservations : Negotiating :=
  (run (observeStep CaseTable.identity id []) noObservations crossedObservations).get
    (by decide +kernel)

theorem plan_follows_newest_observation_crossed :
  afterCrossedObservations.saved.length = 3 ∧
    ∃ o ∈ afterCrossedObservations.saved,
      plan CaseTable.identity id [] .dual .delivery (lit "https://a/other") (ofUnix 10) 0
        afterCrossedObservations.now afterCrossedObservations.keys
        = .ok ⟨lit "https://a", .delivery, o.evidence.profile, none, .cachedCapability⟩
  := by
  have hrun : run (observeStep CaseTable.identity id []) noObservations crossedObservations
      = some afterCrossedObservations := (Option.some_get _).symm
  have h := plan_follows_newest_observation Function.injective_id (fun _ => rfl) rfl hrun
    (by decide +kernel) (by unfold Unexpired; decide +kernel) (ofUnix 10) 0 (by decide +kernel)
    .delivery (lit "https://a/other")
  refine ⟨by decide +kernel, ?_⟩
  obtain ⟨o, ho, -, -, hplan⟩ := h.1 (lit "https://a") (by decide +kernel) (by decide +kernel)
  exact ⟨o, ho, hplan⟩

end HttpSignature
