import ActivityRelay.Directory.State
import ActivityRelay.Redis.Cell
import ActivityRelay.Transition.Run

/-!
# The Redis store of a directory

The two keys of a directory origin, the state hash and the lease, with the scripts of the
store. A lease is taken by `SETNX` with a random token; prolonging it, giving it up and
writing the state compare the token first.

The second part considers any interleaving of these operations by any number of clients,
with time passing in between. What the clients were told is kept apart from the keys: the
leases that were granted, each until it is given up or its lifetime is over. Never are two
of them live, the hash changes only by the owner of the live one, and nothing a former owner
does has an effect.
-/

namespace Directory

open GoString GoTime Option Redis Transition

/-- A random lease token. -/
abbrev Token := GoString

/-- The lease a client holds or held. It names the origin whose lease key it is for. -/
structure Lease where
  origin : GoString
  value : Token
  deriving DecidableEq, Repr

/-- The keys `state` and `lease` of one origin. -/
structure Keys where
  state : Cell StateHash
  lease : Cell Token

/-- The lifetime of a state hash, in milliseconds. -/
def stateRetention : ℤ := 90 * 24 * 60 * 60 * 1000

/-- `Load`, with `none` for `ErrStore`. -/
def Keys.load (now : ℤ) (k : Keys) : Option State := Directory.load (k.state.get now)

/-- `Acquire`, by a client that has drawn the token `value`. -/
def Keys.acquire (now ttl : ℤ) (origin : GoString) (value : Token) (k : Keys) :
    Keys × Option (Option Lease) :=
  if origin = [] ∨ ttl ≤ 0 then (k, none)
  else
    let r := k.lease.setNX now ttl value
    ({ k with lease := r.1 }, some (if r.2 then some ⟨origin, value⟩ else none))

/-- `saveOwnedScript`: writes all fields of the hash, and its lifetime, if the lease key
holds the token. -/
def Keys.saveOwnedScript (now : ℤ) (value : Token) (hash : StateHash) (k : Keys) : Keys × Bool :=
  if k.lease.get now ≠ some value then (k, false)
  else ({ k with state := Cell.set now stateRetention hash }, true)

/-- `SaveOwned`, with `none` for `ErrStore`. -/
def Keys.saveOwned (now : ℤ) (origin : GoString) (lease : Lease) (state : State) (k : Keys) :
    Keys × Option Bool :=
  if lease.origin ≠ origin ∨ origin = [] ∨ validateState state = false then (k, none)
  else
    let r := k.saveOwnedScript now lease.value (stateArguments state)
    (r.1, some r.2)

/-- `Renew`, with `none` for `ErrStore`. -/
def Keys.renew (now ttl : ℤ) (lease : Lease) (k : Keys) : Keys × Option Bool :=
  if ttl ≤ 0 then (k, none)
  else
    let r := k.lease.compareExpire now ttl lease.value
    ({ k with lease := r.1 }, some r.2)

def Keys.release (now : ℤ) (lease : Lease) (k : Keys) : Keys :=
  { k with lease := (k.lease.compareDel now lease.value).1 }

/-- The token in the lease key. -/
def Keys.live (now : ℤ) (k : Keys) (value : Token) : Prop := k.lease.get now = some value

section Operations

variable {now ttl : ℤ} {origin : GoString} {lease : Lease} {value : Token} {k : Keys}

theorem Keys.saveOwned_of_not_live (h : ¬ k.live now lease.value) (state : State) :
  (k.saveOwned now origin lease state).1 = k
  := by
  unfold saveOwned
  split
  · rfl
  · simp only [saveOwnedScript, if_pos (show k.lease.get now ≠ some lease.value from h)]

theorem Keys.saveOwned_lease (now : ℤ) (origin : GoString) (lease : Lease) (state : State)
    (k : Keys) :
  (k.saveOwned now origin lease state).1.lease = k.lease
  := by
  unfold saveOwned
  split
  · rfl
  · simp only [saveOwnedScript]
    split <;> rfl

theorem Keys.renew_of_not_live (h : ¬ k.live now lease.value) :
  (k.renew now ttl lease).1 = k
  := by
  unfold renew
  split
  · rfl
  · rw [Cell.compareExpire_of_ne h]

theorem Keys.release_of_not_live (h : ¬ k.live now lease.value) :
  k.release now lease = k
  := by
  rw [release, Cell.compareDel_of_ne h]

/-- `Acquire` takes a lease that is free, and leaves one that is not. -/
theorem Keys.acquire_cases (now ttl : ℤ) (origin : GoString) (value : Token) (k : Keys) :
  (k.acquire now ttl origin value).1 = k ∧
      (∀ l, (k.acquire now ttl origin value).2 ≠ some (some l)) ∨
    k.lease.get now = none ∧ 0 < ttl ∧
      k.acquire now ttl origin value =
        ({ k with lease := Cell.set now ttl value }, some (some ⟨origin, value⟩))
  := by
  unfold acquire
  split
  · left
    simp
  · rename_i hvalid
    rw [not_or, Int.not_le] at hvalid
    cases hget : k.lease.get now with
    | none =>
      right
      rw [Cell.setNX_of_none hget]
      exact ⟨rfl, hvalid.2, rfl⟩
    | some w =>
      rw [Cell.setNX_of_some hget]
      simp

end Operations

/-! ### Any interleaving of clients -/

/-- The store of an origin with the tokens that have been drawn. -/
structure StoreState where
  now : ℤ
  keys : Keys
  issued : List Token

/-- Time passes, or a client calls an operation of the store. -/
inductive StoreEvent
  | tick (milliseconds : ℕ)
  | acquire (ttl : ℤ) (value : Token)
  | renew (ttl : ℤ) (lease : Lease)
  | saveOwned (lease : Lease) (state : State)
  | release (lease : Lease)

/-- One step of the store of `origin`. A token is drawn once, and only tokens that have been
drawn are used. -/
def storeStep (origin : GoString) (s : StoreState) : StoreEvent → Option StoreState
  | .tick d => some { s with now := s.now + d }
  | .acquire ttl value =>
      if value ∈ s.issued then none
      else
        some { s with keys := (s.keys.acquire s.now ttl origin value).1, issued := value :: s.issued }
  | .renew ttl lease =>
      if lease.value ∈ s.issued then some { s with keys := (s.keys.renew s.now ttl lease).1 }
      else none
  | .saveOwned lease state =>
      if lease.value ∈ s.issued then
        some { s with keys := (s.keys.saveOwned s.now origin lease state).1 }
      else none
  | .release lease =>
      if lease.value ∈ s.issued then some { s with keys := s.keys.release s.now lease } else none

/-- The call of a client with the token of a lease it was given. -/
def StoreEvent.caller? : StoreEvent → Option Token
  | .renew _ lease => some lease.value
  | .saveOwned lease _ => some lease.value
  | .release lease => some lease.value
  | _ => none

variable {origin : GoString} {s s' : StoreState} {e : StoreEvent}

/-- A call with a token that is not in the lease key changes neither key. -/
theorem storeStep_of_not_live {value : Token} (hcall : e.caller? = some value)
    (hlive : ¬ s.keys.live s.now value) (h : storeStep origin s e = some s') :
  s' = s
  := by
  cases e with
  | tick | acquire => cases hcall
  | renew ttl lease =>
    cases hcall
    obtain ⟨-, ⟨⟩⟩ := ite_none_right_eq_some.mp h
    rw [Keys.renew_of_not_live hlive]
  | saveOwned lease state =>
    cases hcall
    obtain ⟨-, ⟨⟩⟩ := ite_none_right_eq_some.mp h
    rw [Keys.saveOwned_of_not_live hlive]
  | release lease =>
    cases hcall
    obtain ⟨-, ⟨⟩⟩ := ite_none_right_eq_some.mp h
    rw [Keys.release_of_not_live hlive]

/-- The hash changes only by the owner of the lease. -/
theorem storeStep_state (h : storeStep origin s e = some s') (hne : s'.keys.state ≠ s.keys.state) :
  ∃ lease state, e = .saveOwned lease state ∧ s.keys.live s.now lease.value
  := by
  cases e with
  | tick d =>
    cases h
    exact absurd rfl hne
  | acquire ttl value =>
    obtain ⟨-, ⟨⟩⟩ := ite_none_left_eq_some.mp h
    apply absurd _ hne
    rcases s.keys.acquire_cases s.now ttl origin value with ⟨hsame, -⟩ | ⟨-, -, hset⟩
    · rw [hsame]
    · rw [hset]
  | renew ttl lease =>
    obtain ⟨-, ⟨⟩⟩ := ite_none_right_eq_some.mp h
    apply absurd _ hne
    simp only [Keys.renew]
    split <;> rfl
  | saveOwned lease state =>
    use lease, state, rfl
    by_contra hlive
    rw [storeStep_of_not_live rfl hlive h] at hne
    exact hne rfl
  | release lease =>
    obtain ⟨-, ⟨⟩⟩ := ite_none_right_eq_some.mp h
    exact absurd rfl hne

/-- A token that has been drawn and is not in the lease key never is again. -/
theorem storeStep_former {value : Token} (hissued : value ∈ s.issued)
    (hlive : ¬ s.keys.live s.now value) (h : storeStep origin s e = some s') :
  value ∈ s'.issued ∧ ¬ s'.keys.live s'.now value
  := by
  cases e with
  | tick d =>
    cases h
    use hissued
    intro hlater
    have hle : s.now ≤ s.now + (d : ℤ) := by omega
    apply hlive (Cell.get_of_later hle hlater)
  | acquire ttl drawn =>
    obtain ⟨hfresh, ⟨⟩⟩ := ite_none_left_eq_some.mp h
    use List.mem_cons_of_mem _ hissued
    rcases s.keys.acquire_cases s.now ttl origin drawn with ⟨hsame, -⟩ | ⟨-, hpos, hset⟩
    · rw [hsame]
      apply hlive
    · have hle : s.now ≤ s.now + ttl := by omega
      rw [hset, Keys.live, Cell.get_set hle]
      rintro ⟨⟩
      apply hfresh hissued
  | renew ttl lease =>
    obtain ⟨hmem, hs⟩ := ite_none_right_eq_some.mp h
    by_cases hown : s.keys.live s.now lease.value
    · cases hs
      use hissued
      unfold Keys.renew
      split
      · apply hlive
      · have hle : s.now ≤ s.now + ttl := by omega
        rw [Cell.compareExpire_of_eq hown, Keys.live, Cell.get_set hle]
        rintro ⟨⟩
        apply hlive hown
    · rw [storeStep_of_not_live rfl hown h]
      exact ⟨hissued, hlive⟩
  | saveOwned lease state =>
    obtain ⟨-, ⟨⟩⟩ := ite_none_right_eq_some.mp h
    use hissued
    rw [Keys.live, Keys.saveOwned_lease]
    apply hlive
  | release lease =>
    obtain ⟨hmem, hs⟩ := ite_none_right_eq_some.mp h
    by_cases hown : s.keys.live s.now lease.value
    · cases hs
      use hissued
      rw [Keys.live, Keys.release, Cell.compareDel_of_eq hown]
      simp
    · rw [storeStep_of_not_live rfl hown h]
      exact ⟨hissued, hlive⟩

/-! ### Leases that were granted -/

/-- The leases that were granted, with the ends of their lifetimes, after an event in the state
`s`: one that `Acquire` returns is added, one that `Renew` reports as prolonged ends later, and one
that is given up is removed. -/
def grantStep (origin : GoString) (s : StoreState) (granted : List (Redis.Entry Token)) :
    StoreEvent → List (Redis.Entry Token)
  | .acquire ttl value =>
      match (s.keys.acquire s.now ttl origin value).2 with
      | some (some lease) => ⟨lease.value, some (s.now + ttl)⟩ :: granted
      | _ => granted
  | .renew ttl lease =>
      if (s.keys.renew s.now ttl lease).2 = some true then
        granted.map (fun g => if g.value = lease.value then ⟨g.value, some (s.now + ttl)⟩ else g)
      else granted
  | .release lease => granted.filter (fun g => g.value ≠ lease.value)
  | .tick _ | .saveOwned _ _ => granted

/-- The leases that were granted before a run or in it, and were not given up. -/
def grantsAfter (origin : GoString) :
    StoreState → List (Redis.Entry Token) → List StoreEvent → List (Redis.Entry Token)
  | _, granted, [] => granted
  | s, granted, e :: es =>
      (storeStep origin s e).elim granted
        (fun s' => grantsAfter origin s' (grantStep origin s granted e) es)

/-- A lease with this token was granted, by the state `s` or in the run of `es` to `t`, was not
given up, and its lifetime is not over at the end. -/
def LeaseLive (origin : GoString) (s : StoreState) (es : List StoreEvent) (t : StoreState)
    (value : Token) : Prop :=
  ∃ g ∈ grantsAfter origin s s.keys.lease.toList es, Cell.get t.now (some g) = some value

variable {granted : List (Redis.Entry Token)}

/-- The lifetime of a granted lease is the one of the lease key, whatever happens. The case of
`Acquire` rests on `SETNX`: it grants a lease only while the key is absent. -/
theorem agrees_step (hs : Cell.Agrees s.now s.keys.lease granted)
    (h : storeStep origin s e = some s') :
  Cell.Agrees s'.now s'.keys.lease (grantStep origin s granted e)
  := by
  cases e with
  | tick d =>
    cases h
    intro g value hg
    have hle : s.now ≤ s.now + (d : ℤ) := by omega
    apply hs g value (Cell.get_of_later hle hg)
  | acquire ttl drawn =>
    obtain ⟨-, ⟨⟩⟩ := ite_none_left_eq_some.mp h
    unfold grantStep
    rcases s.keys.acquire_cases s.now ttl origin drawn with ⟨hsame, hnone⟩ | ⟨hfree, -, hset⟩
    · dsimp only
      rw [hsame]
      split
      · exact absurd ‹_› (hnone _)
      · apply hs
    · simp only [hset]
      apply hs.grant hfree
  | renew ttl lease =>
    obtain ⟨-, ⟨⟩⟩ := ite_none_right_eq_some.mp h
    unfold grantStep Keys.renew
    by_cases httl : ttl ≤ 0
    · simpa only [if_pos httl, reduceCtorEq, if_false] using hs
    by_cases hown : s.keys.live s.now lease.value
    · simp only [if_neg httl, Cell.compareExpire_of_eq hown, if_true]
      apply hs.prolong hown
    · simpa only [if_neg httl, Cell.compareExpire_of_ne hown, Option.some.injEq,
        Bool.false_eq_true, if_false] using hs
  | saveOwned lease state =>
    obtain ⟨-, ⟨⟩⟩ := ite_none_right_eq_some.mp h
    rw [Keys.saveOwned_lease]
    apply hs
  | release lease =>
    obtain ⟨-, ⟨⟩⟩ := ite_none_right_eq_some.mp h
    apply hs.giveUp lease.value

theorem agrees_run {es : List StoreEvent} {t : StoreState}
    (hs : Cell.Agrees s.now s.keys.lease granted) (h : run (storeStep origin) s es = some t) :
  Cell.Agrees t.now t.keys.lease (grantsAfter origin s granted es)
  := by
  induction es generalizing s granted with
  | nil =>
    cases h
    apply hs
  | cons e es ih =>
    obtain ⟨s', he, hes⟩ := run_cons_eq_some.mp h
    rw [grantsAfter, he]
    apply ih (agrees_step hs he) hes

/-- The live lease is the one whose token the lease key holds. -/
theorem leaseLive_iff {es : List StoreEvent} {t : StoreState} {value : Token}
    (h : run (storeStep origin) s es = some t) :
  LeaseLive origin s es t value ↔ t.keys.live t.now value
  := by
  have hs : Cell.Agrees s.now s.keys.lease s.keys.lease.toList := fun g _ _ => Option.mem_toList
  have ht := agrees_run hs h
  constructor
  · rintro ⟨g, hmem, hg⟩
    rw [Keys.live, (ht g value hg).mp hmem, hg]
  · intro hlive
    obtain ⟨x, hkey, -⟩ := Cell.get_eq_some.mp hlive
    rw [Keys.live, hkey] at hlive
    exact ⟨⟨value, x⟩, (ht _ value hlive).mpr hkey, hlive⟩

/-- The store of an origin is fenced, at the end `t` of every interleaving of its clients from
any state `s`. At most one lease that was granted is live, it is the one whose token the lease
key holds, and as long as it is live `Acquire` gives nobody a lease and changes neither key; the
hash changes only by a `SaveOwned` with the live token; and a token that was drawn and was not live
at some time before is not live, and no call with it changes the hash, the token in the lease key or
its lifetime. -/
theorem store_fenced (origin : GoString) {es : List StoreEvent} {s t : StoreState}
    (h : run (storeStep origin) s es = some t) :
  ((∀ a b, LeaseLive origin s es t a → LeaseLive origin s es t b → a = b) ∧
    (∀ a, LeaseLive origin s es t a ↔ t.keys.live t.now a) ∧
    ∀ a, LeaseLive origin s es t a → ∀ ttl value,
      (t.keys.acquire t.now ttl origin value).1 = t.keys ∧
        ∀ lease, (t.keys.acquire t.now ttl origin value).2 ≠ some (some lease)) ∧
  (∀ e t', storeStep origin t e = some t' → t'.keys.state ≠ t.keys.state →
    ∃ lease state, e = .saveOwned lease state ∧ t.keys.live t.now lease.value) ∧
  (∀ value ∈ s.issued, ¬ s.keys.live s.now value →
    ¬ t.keys.live t.now value ∧
    ∀ e t', e.caller? = some value → storeStep origin t e = some t' → t' = t)
  := by
  refine ⟨⟨?_, fun a => leaseLive_iff h, ?_⟩, ?_, ?_⟩
  · intro a b ha hb
    rw [leaseLive_iff h, Keys.live] at ha hb
    rw [ha] at hb
    apply Option.some.inj hb
  · intro a ha ttl value
    rw [leaseLive_iff h, Keys.live] at ha
    rcases t.keys.acquire_cases t.now ttl origin value with hkept | ⟨hfree, -⟩
    · exact hkept
    · rw [ha] at hfree
      cases hfree
  · intro e s' he hne
    apply storeStep_state he hne
  · intro value hissued hlive
    obtain ⟨-, hformer⟩ := run_invariant
      (P := fun s => value ∈ s.issued ∧ ¬ s.keys.live s.now value)
      (fun _ _ _ hs h => storeStep_former hs.1 hs.2 h) ⟨hissued, hlive⟩ h
    use hformer
    intro e t' hcall he
    apply storeStep_of_not_live hcall hformer he

/-- The store when the lease of a first client has run out. -/
def ranOut : StoreState where
  now := 60001
  keys := ⟨none, some ⟨lit "first", some 60000⟩⟩
  issued := [lit "first"]

/-- A second client takes the lease. As long as it is live a third one does not get it, and the
first client's `SaveOwned` changes nothing. -/
theorem store_fenced_takenOver :
  let origin := lit "https://directory.example"
  let es := [StoreEvent.acquire 60000 (lit "second")]
  ∃ t, run (storeStep origin) ranOut es = some t ∧ LeaseLive origin ranOut es t (lit "second") ∧
    (t.keys.acquire t.now 60000 origin (lit "third")).1 = t.keys ∧
    ∀ t', storeStep origin t (.saveOwned ⟨origin, lit "first"⟩ .zero) = some t' → t' = t
  := by
  intro origin es
  have hrun := (some_get (x := run (storeStep origin) ranOut es) rfl).symm
  obtain ⟨⟨-, hlive, hkept⟩, -, hformer⟩ := store_fenced _ hrun
  have hsecond := (hlive (lit "second")).mpr rfl
  have hran : ¬ ranOut.keys.live ranOut.now (lit "first") := by
    unfold Keys.live
    decide
  refine ⟨_, hrun, hsecond, (hkept _ hsecond 60000 (lit "third")).1, ?_⟩
  intro t' ht'
  apply (hformer (lit "first") (by decide) hran).2 _ t' rfl ht'

end Directory
