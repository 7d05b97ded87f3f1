import ActivityRelay.Api.Resolver
import ActivityRelay.Transition.Run

/-!
# The loop guard

A call of `executeAnnounceActivity` reserves the canonical ID of an activity before it mints a
wrapper for it. The reservation is a key that holds a token of the call and expires after fifteen
minutes. A call that fails releases its reservation by a script that compares the token.

The first part is about one call: which calls of Redis it makes, in which order
(`executeAnnounceActivity_follows`). In the second part any number of calls run at the same time.
`Advance` says what one of them can do to the keys. While a reservation runs, its key holds the
token of the call, so that two reservations of one ID never run at the same time (`Separate`).
Nothing stops a call whose reservation has expired, though.
-/

namespace Api

open Function GoString Interaction Models Redis Transition

/-! ### One call -/

/-- How far a call is: it has drawn its token, its reservation is made, it has minted the wrapper,
the fan-out was admitted or not, or it does not hold a reservation any more. -/
inductive Phase
  | fresh
  | named (token : GoString)
  | reserved (token : GoString)
  | minted (token : GoString)
  | admitted (token : GoString)
  | rejected (token : GoString)
  | finished (token : GoString)
  deriving DecidableEq

namespace Phase

/-- The token that the call has drawn. -/
def token? : Phase → Option GoString
  | fresh => none
  | named t | reserved t | minted t | admitted t | rejected t | finished t => some t

/-- The token of a call that holds a reservation. -/
def held? : Phase → Option GoString
  | reserved t | minted t | admitted t | rejected t => some t
  | fresh | named _ | finished _ => none

theorem token_of_held {φ : Phase} {t : GoString} (h : φ.held? = some t) :
  φ.token? = some t
  := by
  cases φ with
  | fresh | named | finished => cases h
  | reserved | minted | admitted | rejected => exact h

/-- The phase after a call to Redis or the queue. -/
def next : Phase → (o : ApiOp) → o.Reply → Phase
  | fresh, .newUUID, t => named t
  | named t, .setNX _ _, granted => if granted = some true then reserved t else finished t
  | reserved t, .newUUID, _ => minted t
  | reserved t, .compareDel _ _, _ => finished t
  | minted t, .enqueueActivityExcept _ _ _, queued => if queued then admitted t else rejected t
  | rejected t, .compareDel _ _, _ => finished t
  | φ, _, _ => φ

end Phase

/-- The protocol of a call with its key. -/
def announceProtocol (key : GoString) : Protocol ApiOp ApiOp.Reply Phase where
  allows
    | .fresh, .newUUID => True
    | .named t, .setNX k t' => k = key ∧ t' = t
    | .reserved _, .recordPublisherActivity _ => True
    | .reserved _, .newUUID => True
    | .reserved t, .compareDel k t' => k = key ∧ t' = t
    | .minted _, .enqueueActivityExcept _ _ _ => True
    | .rejected t, .compareDel k t' => k = key ∧ t' = t
    | _, _ => False
  next := Phase.next

section Follows

variable {relay : Relay} {activity : Activity} {actor : Actor} {sourceRelayDomain : GoString}

/-- Any phase and value. -/
abbrev Anything {α : Type} : Phase → α → Prop := fun _ _ => True

theorem releaseCanonicalRelayActivity_follows {key t : GoString} {φ : Phase}
    (hφ : φ = .reserved t ∨ φ = .rejected t) :
  (announceProtocol key).Follows Anything φ (releaseCanonicalRelayActivity (key, t))
  := by
  unfold releaseCanonicalRelayActivity
  split
  · trivial
  · obtain rfl | rfl := hφ
    · exact ⟨⟨rfl, rfl⟩, fun _ => trivial⟩
    · exact ⟨⟨rfl, rfl⟩, fun _ => trivial⟩

/-- Recording an activity does not touch the reservation. -/
theorem recordPublisherActivity_follows {key t : GoString} :
  (announceProtocol key).Follows (fun φ _ => φ = .reserved t) (.reserved t)
    (recordPublisherActivity relay activity actor)
  := by
  unfold recordPublisherActivity storePublisher
  split
  · rfl
  · split
    · rfl
    · split
      · rfl
      · refine ⟨trivial, fun r => ?_⟩
        cases r with
        | none | some => rfl

theorem announceReserved_follows {key t originDomain : GoString} :
  (announceProtocol key).Follows Anything (.reserved t)
    (announceReserved relay activity actor sourceRelayDomain originDomain (key, t))
  := by
  unfold announceReserved
  rw [Protocol.follows_bind]
  apply recordPublisherActivity_follows.mono
  rintro φ r rfl
  cases r with
  | error e =>
    rw [Protocol.follows_bind]
    exact (releaseCanonicalRelayActivity_follows (.inl rfl)).mono (fun _ _ _ => trivial)
  | ok u =>
    refine ⟨trivial, fun uuid => ⟨trivial, fun queued => ?_⟩⟩
    cases queued with
    | true => trivial
    | false =>
      change (announceProtocol key).Follows Anything (.rejected t)
        (releaseCanonicalRelayActivity (key, t) >>= fun _ =>
          (pure (Except.ok ()) : ApiM (Except GoString Unit)))
      rw [Protocol.follows_bind]
      exact (releaseCanonicalRelayActivity_follows (.inr rfl)).mono (fun _ _ _ => trivial)

/-- A call keeps to the protocol of its canonical ID. -/
theorem executeAnnounceActivity_follows :
  (announceProtocol (canonicalRelayKey relay activity.id)).Follows Anything .fresh
    (executeAnnounceActivity relay activity actor sourceRelayDomain)
  := by
  unfold executeAnnounceActivity
  split
  · trivial
  · split
    · trivial
    · unfold reserveCanonicalRelayActivity
      split
      · trivial
      · refine ⟨trivial, fun token => ⟨⟨rfl, rfl⟩, fun granted => ?_⟩⟩
        match granted with
        | none => trivial
        | some false => trivial
        | some true => exact announceReserved_follows

end Follows

/-! ### Any number of calls -/

/-- The lifetime of a reservation, in milliseconds. -/
def reservationTTL : ℤ := Deliver.activityRetentionSeconds * 1000

/-- The reservations. -/
abbrev CanonicalKeys := GoString → Cell GoString

/-- What a call is made with. -/
structure Announcing where
  relay : Relay
  activity : Activity
  actor : Actor
  sourceRelayDomain : GoString

namespace Announcing

def program (c : Announcing) : ApiM (Except GoString Unit) :=
  executeAnnounceActivity c.relay c.activity c.actor c.sourceRelayDomain

def key (c : Announcing) : GoString := canonicalRelayKey c.relay c.activity.id

end Announcing

/-- A call with the rest of its program, its phase, and the moment of its reservation. -/
structure Call where
  program : ApiM (Except GoString Unit)
  phase : Phase
  reservedAt : ℤ

/-- The clock in milliseconds, the reservations, the identifiers that have been drawn, and the
calls. -/
structure Guarding where
  now : ℤ
  keys : CanonicalKeys
  drawn : List GoString
  call : ℕ → Call

/-- What the surroundings answer: a new identifier, how a command of Redis ends, whether a
publisher could be recorded, and whether the queue has admitted the fan-out. -/
inductive Answer
  | uuid (s : GoString)
  | outcome (outcome : Outcome)
  | recorded (error : Option GoString)
  | queued (admitted : Bool)

/-- Time passes, or a call makes its next call. -/
inductive GuardEvent
  | tick (milliseconds : ℕ)
  | exec (i : ℕ) (answer : Answer)

/-- The reply to a call, and the reservations after it. -/
def respond (now : ℤ) (keys : CanonicalKeys) : (o : ApiOp) → Answer → Option (o.Reply × CanonicalKeys)
  | .newUUID, .uuid s => some (s, keys)
  | .setNX key token, .outcome .answered =>
      let r := (keys key).setNX now reservationTTL token
      some (some r.2, update keys key r.1)
  | .setNX key token, .outcome (.failed effect) =>
      let r := (keys key).setNX now reservationTTL token
      some (none, if effect then update keys key r.1 else keys)
  | .compareDel _ _, .outcome (.failed false) => some ((), keys)
  | .compareDel key token, .outcome _ =>
      some ((), update keys key ((keys key).compareDel now token).1)
  | .recordPublisherActivity _, .recorded e => some (e, keys)
  | .enqueueActivityExcept _ _ _, .queued admitted => some (admitted, keys)
  | _, _ => none

/-- The identifiers that an answer draws. -/
def Answer.draws : Answer → List GoString
  | uuid s => [s]
  | _ => []

/-- The moment of the reservation of a call after a reply. -/
def reservedAtAfter (now reservedAt : ℤ) : (o : ApiOp) → o.Reply → ℤ
  | .setNX _ _, granted => if granted = some true then now else reservedAt
  | _, _ => reservedAt

/-- One step. An identifier is not drawn twice. -/
def guardStep (s : Guarding) : GuardEvent → Option Guarding
  | .tick d => some { s with now := s.now + d }
  | .exec i answer =>
      match (s.call i).program with
      | .pure _ => none
      | .call o k =>
          if ∃ u ∈ answer.draws, u ∈ s.drawn then none
          else
            (respond s.now s.keys o answer).map (fun r =>
              { s with
                keys := r.2
                drawn := answer.draws ++ s.drawn
                call := update s.call i
                  ⟨k r.1, (s.call i).phase.next o r.1,
                    reservedAtAfter s.now (s.call i).reservedAt o r.1⟩ })

/-! ### What a call can do -/

/-- The part of the state that a call can change. -/
structure View where
  phase : Phase
  reservedAt : ℤ
  keys : CanonicalKeys
  drawn : List GoString

/-- What one step of a call does. A reservation is granted only if there is none; apart from that,
a visible reservation is changed only by the release of the call whose token it holds. -/
inductive Advance (key : GoString) (now : ℤ) : View → View → Prop
  | name {t reservedAt keys drawn} (hfresh : t ∉ drawn) :
      Advance key now ⟨.fresh, reservedAt, keys, drawn⟩ ⟨.named t, reservedAt, keys, t :: drawn⟩
  | grant {t reservedAt keys drawn} (habsent : (keys key).get now = none) :
      Advance key now ⟨.named t, reservedAt, keys, drawn⟩
        ⟨.reserved t, now, update keys key (Cell.set now reservationTTL t), drawn⟩
  | refuse {t reservedAt keys keys' drawn}
      (hkeys : ∀ k v, (keys k).get now = some v → keys' k = keys k) :
      Advance key now ⟨.named t, reservedAt, keys, drawn⟩ ⟨.finished t, reservedAt, keys', drawn⟩
  | record {t reservedAt keys drawn} :
      Advance key now ⟨.reserved t, reservedAt, keys, drawn⟩ ⟨.reserved t, reservedAt, keys, drawn⟩
  | mint {t uuid reservedAt keys drawn} :
      Advance key now ⟨.reserved t, reservedAt, keys, drawn⟩
        ⟨.minted t, reservedAt, keys, uuid :: drawn⟩
  | accept {t reservedAt keys drawn} :
      Advance key now ⟨.minted t, reservedAt, keys, drawn⟩ ⟨.admitted t, reservedAt, keys, drawn⟩
  | reject {t reservedAt keys drawn} :
      Advance key now ⟨.minted t, reservedAt, keys, drawn⟩ ⟨.rejected t, reservedAt, keys, drawn⟩
  | release {φ : Phase} {t reservedAt keys keys' drawn} (hheld : φ.held? = some t)
      (hkeys : ∀ k v, (keys k).get now = some v → v ≠ t → keys' k = keys k) :
      Advance key now ⟨φ, reservedAt, keys, drawn⟩ ⟨.finished t, reservedAt, keys', drawn⟩

/-- The view of a call. -/
def Guarding.view (s : Guarding) (i : ℕ) : View :=
  ⟨(s.call i).phase, (s.call i).reservedAt, s.keys, s.drawn⟩

variable {t key : GoString} {keys keys' : CanonicalKeys} {now reservedAt : ℤ}
  {drawn : List GoString} {φ : Phase}

theorem compareDel_frame (k v : GoString) (h : (keys k).get now = some v) (hne : v ≠ t) :
  update keys key ((keys key).compareDel now t).1 k = keys k
  := by
  by_cases hk : k = key
  · subst hk
    rw [update_self, Cell.compareDel_of_ne]
    rw [h]
    exact fun heq => hne (Option.some.inj heq)
  · exact update_of_ne hk ..

theorem setNX_frame (k v : GoString) (h : (keys k).get now = some v) :
  update keys key ((keys key).setNX now reservationTTL t).1 k = keys k
  := by
  by_cases hk : k = key
  · subst hk
    rw [update_self, Cell.setNX_of_some h]
  · exact update_of_ne hk ..

/-- The two ends of `SET NX` that has been answered. -/
theorem advance_of_setNX :
  let r := (keys key).setNX now reservationTTL t
  Advance key now ⟨.named t, reservedAt, keys, drawn⟩
    ⟨if some r.2 = some true then .reserved t else .finished t,
      if some r.2 = some true then now else reservedAt, update keys key r.1, drawn⟩
  := by
  cases hget : (keys key).get now with
  | none =>
    rw [Cell.setNX_of_none hget]
    exact .grant hget
  | some v =>
    rw [Cell.setNX_of_some hget]
    refine .refuse (fun k v _ => ?_)
    rw [update_eq_self]

theorem advance_of_compareDel {outcome : Outcome} (hheld : φ.held? = some t)
    (h : respond now keys (.compareDel key t) (.outcome outcome) = some ((), keys')) :
  Advance key now ⟨φ, reservedAt, keys, drawn⟩ ⟨.finished t, reservedAt, keys', drawn⟩
  := by
  refine .release hheld (fun k v hv hne => ?_)
  cases outcome with
  | answered =>
    cases h
    exact compareDel_frame k v hv hne
  | failed effect =>
    cases effect with
    | false =>
      cases h
      rfl
    | true =>
      cases h
      exact compareDel_frame k v hv hne

/-- A reply that the protocol allows in a phase makes the call advance. -/
theorem advance_of_respond {o : ApiOp} {answer : Answer} {r : o.Reply}
    (hallowed : (announceProtocol key).allows φ o) (hdrawn : ¬ ∃ u ∈ answer.draws, u ∈ drawn)
    (h : respond now keys o answer = some (r, keys')) :
  Advance key now ⟨φ, reservedAt, keys, drawn⟩
    ⟨φ.next o r, reservedAtAfter now reservedAt o r, keys', answer.draws ++ drawn⟩
  := by
  simp only [announceProtocol] at hallowed
  -- One case for each call that the protocol allows.
  split at hallowed
  · cases answer with
    | uuid u =>
      have hfresh : u ∉ drawn := fun hu => hdrawn ⟨u, List.mem_singleton_self u, hu⟩
      cases h
      exact .name hfresh
    | _ => cases h
  · obtain ⟨rfl, rfl⟩ := hallowed
    cases answer with
    | outcome outcome =>
      cases outcome with
      | answered =>
        cases h
        exact advance_of_setNX
      | failed effect =>
        cases h
        refine .refuse (fun k v hv => ?_)
        cases effect with
        | false => rfl
        | true => exact setNX_frame k v hv
    | _ => cases h
  · cases answer with
    | recorded e =>
      cases h
      exact .record
    | _ => cases h
  · cases answer with
    | uuid u =>
      cases h
      exact .mint
    | _ => cases h
  · obtain ⟨rfl, rfl⟩ := hallowed
    cases answer with
    | outcome outcome => exact advance_of_compareDel rfl h
    | _ => cases h
  · cases answer with
    | queued admitted =>
      cases h
      cases r with
      | true => exact .accept
      | false => exact .reject
    | _ => cases h
  · obtain ⟨rfl, rfl⟩ := hallowed
    cases answer with
    | outcome outcome => exact advance_of_compareDel rfl h
    | _ => cases h
  · exact hallowed.elim

namespace Advance

variable {key : GoString} {now : ℤ} {v v' : View}

theorem drawn_mono (h : Advance key now v v') (ht : t ∈ v.drawn) :
  t ∈ v'.drawn
  := by
  cases h with
  | name | mint => exact List.mem_cons_of_mem _ ht
  | _ => exact ht

/-- A token is kept, or newly drawn. -/
theorem token (h : Advance key now v v') (ht : v'.phase.token? = some t) :
  v.phase.token? = some t ∨ t ∉ v.drawn ∧ t ∈ v'.drawn
  := by
  cases h with
  | name hfresh =>
    cases ht
    exact .inr ⟨hfresh, List.mem_cons_self⟩
  | release hheld =>
    cases ht
    exact .inl (Phase.token_of_held hheld)
  | _ => exact .inl ht

/-- A reservation is kept without a change of the keys, or granted because there is none. -/
theorem held (h : Advance key now v v') (ht : v'.phase.held? = some t) :
  v.phase.held? = some t ∧ v'.reservedAt = v.reservedAt ∧ v'.keys = v.keys ∨
    (v.keys key).get now = none ∧ v'.reservedAt = now ∧
      v'.keys key = Cell.set now reservationTTL t
  := by
  cases h with
  | grant habsent =>
    cases ht
    exact .inr ⟨habsent, rfl, update_self ..⟩
  | record | mint | accept | reject => exact .inl ⟨ht, rfl, rfl⟩
  | _ => cases ht

/-- A visible reservation with another token is left as it is. -/
theorem frame (h : Advance key now v v') {k u : GoString} (hu : (v.keys k).get now = some u)
    (hother : v.phase.token? ≠ some u) :
  v'.keys k = v.keys k
  := by
  cases h with
  | @grant t reservedAt keys drawn habsent =>
    by_cases hk : k = key
    · subst hk
      rw [habsent] at hu
      cases hu
    · exact update_of_ne hk ..
  | refuse hkeys => exact hkeys k u hu
  | @release φ t reservedAt keys keys' drawn hheld hkeys =>
    apply hkeys k u hu
    rintro rfl
    exact hother (Phase.token_of_held hheld)
  | _ => rfl

end Advance

/-! ### Reservations are kept apart -/

section Invariant

variable {inputs : ℕ → Announcing} {s s' : Guarding} {i : ℕ} {answer : Answer}

/-- Nothing has been called yet. -/
structure Started (inputs : ℕ → Announcing) (s : Guarding) : Prop where
  program : ∀ i, (s.call i).program = (inputs i).program
  phase : ∀ i, (s.call i).phase = .fresh

/-- Every call keeps to its protocol. -/
def Obeys (inputs : ℕ → Announcing) (s : Guarding) : Prop :=
  ∀ i, (announceProtocol (inputs i).key).Follows Anything (s.call i).phase (s.call i).program

/-- Calls have tokens of their own. While a reservation runs its key holds the token, and of two
reservations of one key, one has expired before the other is made. -/
structure Separate (inputs : ℕ → Announcing) (s : Guarding) : Prop where
  drawn : ∀ i t, (s.call i).phase.token? = some t → t ∈ s.drawn
  distinct : ∀ i j t, (s.call i).phase.token? = some t → (s.call j).phase.token? = some t → i = j
  past : ∀ i t, (s.call i).phase.held? = some t → (s.call i).reservedAt ≤ s.now
  held : ∀ i t, (s.call i).phase.held? = some t → s.now ≤ (s.call i).reservedAt + reservationTTL →
    s.keys (inputs i).key = Cell.set (s.call i).reservedAt reservationTTL t
  apart : ∀ i j t u, i ≠ j → (inputs i).key = (inputs j).key →
    (s.call i).phase.held? = some t → (s.call j).phase.held? = some u →
    (s.call i).reservedAt + reservationTTL < (s.call j).reservedAt ∨
      (s.call j).reservedAt + reservationTTL < (s.call i).reservedAt

/-- What a step of a call changes. -/
structure Steps (inputs : ℕ → Announcing) (i : ℕ) (s s' : Guarding) : Prop where
  now : s'.now = s.now
  others : ∀ j, j ≠ i → s'.call j = s.call j
  advance : Advance (inputs i).key s.now (s.view i) (s'.view i)
  obeys : (announceProtocol (inputs i).key).Follows Anything (s'.call i).phase (s'.call i).program

theorem steps_of_exec (hs : Obeys inputs s) (h : guardStep s (.exec i answer) = some s') :
  Steps inputs i s s'
  := by
  have hi := hs i
  simp only [guardStep] at h
  cases hprogram : (s.call i).program with
  | pure a => simp [hprogram] at h
  | call o k =>
    rw [hprogram] at hi h
    obtain ⟨hallowed, hfollows⟩ := hi
    split_ifs at h with hdrawn
    obtain ⟨⟨r, keys'⟩, hrespond, rfl⟩ := Option.map_eq_some_iff.mp h
    constructor
    · rfl
    · intro j hj
      exact update_of_ne hj ..
    · have hadvance : Advance (inputs i).key s.now (s.view i)
          ⟨(s.call i).phase.next o r, reservedAtAfter s.now (s.call i).reservedAt o r, keys',
            answer.draws ++ s.drawn⟩ := advance_of_respond hallowed hdrawn hrespond
      simpa only [Guarding.view, update_self] using hadvance
    · simp only [update_self]
      exact hfollows r

/-- A running reservation is seen in its key. -/
theorem Separate.get (hs : Separate inputs s) (hheld : (s.call i).phase.held? = some t)
    (hruns : s.now ≤ (s.call i).reservedAt + reservationTTL) :
  (s.keys (inputs i).key).get s.now = some t
  := by
  rw [hs.held i t hheld hruns]
  exact Cell.get_set hruns

/-- Where a key is absent, all its reservations have expired. -/
theorem Separate.expired (hs : Separate inputs s) (habsent : (s.keys key).get s.now = none)
    (hkey : (inputs i).key = key) (hheld : (s.call i).phase.held? = some t) :
  (s.call i).reservedAt + reservationTTL < s.now
  := by
  by_contra hruns
  rw [← hkey, hs.get hheld (not_lt.mp hruns)] at habsent
  cases habsent

theorem Separate.of_started (h : Started inputs s) :
  Separate inputs s
  := by
  have htoken : ∀ i t, (s.call i).phase.token? ≠ some t := by
    intro i t ht
    rw [h.phase i] at ht
    cases ht
  have hheld : ∀ i t, (s.call i).phase.held? ≠ some t :=
    fun i t ht => htoken i t (Phase.token_of_held ht)
  exact ⟨fun i t ht => absurd ht (htoken i t), fun i _ t ht => absurd ht (htoken i t),
    fun i t ht => absurd ht (hheld i t), fun i t ht => absurd ht (hheld i t),
    fun i _ t _ _ _ ht => absurd ht (hheld i t)⟩

theorem Separate.of_tick (hs : Separate inputs s) (d : ℕ) :
  Separate inputs { s with now := s.now + d }
  := by
  refine ⟨hs.drawn, hs.distinct, ?_, ?_, hs.apart⟩
  · intro i t ht
    have := hs.past i t ht
    dsimp only
    omega
  · intro i t ht hruns
    dsimp only at hruns
    exact hs.held i t ht (by omega)

/-- The token of the call that steps is not that of another call. -/
theorem Steps.token_ne (hs : Separate inputs s) (h : Steps inputs i s s') {j : ℕ} (hj : j ≠ i)
    (ht : (s'.call i).phase.token? = some t) :
  (s.call j).phase.token? ≠ some t
  := by
  intro hother
  obtain hold | ⟨hnew, -⟩ := h.advance.token ht
  · exact hj (hs.distinct j i t hother hold)
  · exact hnew (hs.drawn j t hother)

/-- The reservation of the call that steps does not overlap with another one of its key. -/
theorem Steps.apart (hs : Separate inputs s) (h : Steps inputs i s s') {j : ℕ} (hj : j ≠ i)
    (hkey : (inputs j).key = (inputs i).key) {u : GoString} (ht : (s'.call i).phase.held? = some t)
    (hu : (s.call j).phase.held? = some u) :
  (s'.call i).reservedAt + reservationTTL < (s.call j).reservedAt ∨
    (s.call j).reservedAt + reservationTTL < (s'.call i).reservedAt
  := by
  obtain ⟨hold, hat, -⟩ | ⟨habsent, hat, -⟩ := h.advance.held ht
  · have hat : (s'.call i).reservedAt = (s.call i).reservedAt := hat
    rw [hat]
    exact hs.apart i j t u hj.symm hkey.symm hold hu
  · have hat : (s'.call i).reservedAt = s.now := hat
    rw [hat]
    exact .inr (hs.expired habsent hkey hu)

/-- Running reservations stay separate over the steps of a call. -/
theorem Separate.of_steps (hs : Separate inputs s) (h : Steps inputs i s s') :
  Separate inputs s'
  := by
  have hother : ∀ j, j ≠ i → s'.call j = s.call j := h.others
  constructor
  · intro j t ht
    by_cases hj : j = i
    · subst hj
      obtain hold | ⟨-, hnew⟩ := h.advance.token ht
      · exact h.advance.drawn_mono (hs.drawn j t hold)
      · exact hnew
    · rw [hother j hj] at ht
      exact h.advance.drawn_mono (hs.drawn j t ht)
  · intro j k t hj hk
    by_cases hji : j = i
    · by_cases hki : k = i
      · rw [hji, hki]
      · subst hji
        rw [hother k hki] at hk
        exact absurd hk (h.token_ne hs hki hj)
    · by_cases hki : k = i
      · subst hki
        rw [hother j hji] at hj
        exact absurd hj (h.token_ne hs hji hk)
      · rw [hother j hji] at hj
        rw [hother k hki] at hk
        exact hs.distinct j k t hj hk
  · intro j t ht
    rw [h.now]
    by_cases hj : j = i
    · subst hj
      obtain ⟨hold, hat, -⟩ | ⟨-, hat, -⟩ := h.advance.held ht
      · exact hat.trans_le (hs.past j t hold)
      · exact hat.le
    · rw [hother j hj] at ht ⊢
      exact hs.past j t ht
  · intro j t ht hruns
    rw [h.now] at hruns
    by_cases hj : j = i
    · subst hj
      obtain ⟨hold, hat, hkeys⟩ | ⟨-, hat, hkeys⟩ := h.advance.held ht
      · have hat : (s'.call j).reservedAt = (s.call j).reservedAt := hat
        have hkeys : s'.keys = s.keys := hkeys
        rw [hat] at hruns ⊢
        rw [hkeys]
        exact hs.held j t hold hruns
      · have hat : (s'.call j).reservedAt = s.now := hat
        rw [hat]
        exact hkeys
    · rw [hother j hj] at ht hruns ⊢
      have hframe : s'.keys (inputs j).key = s.keys (inputs j).key := by
        apply h.advance.frame (hs.get ht hruns)
        intro htoken
        exact hj (hs.distinct j i t (Phase.token_of_held ht) htoken)
      rw [hframe]
      exact hs.held j t ht hruns
  · intro j k t u hjk hkey hj hk
    by_cases hji : j = i
    · subst hji
      rw [hother k hjk.symm] at hk ⊢
      exact h.apart hs hjk.symm hkey.symm hj hk
    · by_cases hki : k = i
      · subst hki
        rw [hother j hji] at hj ⊢
        exact (h.apart hs hji hkey hk hj).symm
      · rw [hother j hji] at hj ⊢
        rw [hother k hki] at hk ⊢
        exact hs.apart j k t u hjk hkey hj hk

theorem Obeys.of_steps (hs : Obeys inputs s) (h : Steps inputs i s s') :
  Obeys inputs s'
  := by
  intro j
  by_cases hj : j = i
  · subst hj
    exact h.obeys
  · rw [h.others j hj]
    exact hs j

/-- Both invariants hold in every state that is reached. -/
theorem separate_run {s₀ : Guarding} {es : List GuardEvent} (hstart : Started inputs s₀)
    (hrun : run guardStep s₀ es = some s) :
  Obeys inputs s ∧ Separate inputs s
  := by
  have hstep : ∀ s e s', Obeys inputs s ∧ Separate inputs s → guardStep s e = some s' →
      Obeys inputs s' ∧ Separate inputs s' := by
    rintro s e s' ⟨hobeys, hseparate⟩ h
    cases e with
    | tick d =>
      cases h
      exact ⟨hobeys, hseparate.of_tick d⟩
    | exec i answer =>
      have hsteps := steps_of_exec hobeys h
      exact ⟨hobeys.of_steps hsteps, hseparate.of_steps hsteps⟩
  have hobeys : Obeys inputs s₀ := by
    intro i
    rw [hstart.program i, hstart.phase i]
    exact executeAnnounceActivity_follows
  exact run_invariant hstep ⟨hobeys, Separate.of_started hstart⟩ hrun

/-- A call that mints a wrapper. -/
def Mints (i : ℕ) (s s' : Guarding) : Prop :=
  ∃ t, (s.call i).phase = .reserved t ∧ (s'.call i).phase = .minted t

/-- A call whose fan-out was admitted makes no further call, so it keeps its reservation. -/
theorem admitted_final (hs : Obeys inputs s) (hadmitted : (s.call i).phase = .admitted t) :
  guardStep s (.exec i answer) = none
  := by
  have hi := hs i
  rw [hadmitted] at hi
  simp only [guardStep]
  cases hprogram : (s.call i).program with
  | pure a => rfl
  | call o k =>
    rw [hprogram] at hi
    exact hi.1.elim

theorem key_eq_of_id_eq {c c' : Announcing} (hsha : c.relay.sha256 = c'.relay.sha256)
    (hid : trimSpace c.activity.id = trimSpace c'.activity.id) :
  c.key = c'.key
  := by
  rw [Announcing.key, Announcing.key, canonicalRelayKey, canonicalRelayKey, hsha, hid]

/-- Whatever the order of the steps of all calls: if a call mints a wrapper while another one has a
running reservation of the same ID, then its own reservation has expired before that one was made.
A call keeps its reservation if its fan-out is admitted, and no step of another call removes it
before it expires. -/
theorem reservation_outlasts_others
    (hsha : ∀ i j, (inputs i).relay.sha256 = (inputs j).relay.sha256) {s₀ : Guarding}
    {es : List GuardEvent} (hstart : Started inputs s₀) (hrun : run guardStep s₀ es = some s)
    {a b : ℕ} (hother : b ≠ a) (hstep : guardStep s (.exec b answer) = some s') :
  (∀ t, trimSpace (inputs b).activity.id = trimSpace (inputs a).activity.id →
      (s.call a).phase.held? = some t → s.now ≤ (s.call a).reservedAt + reservationTTL →
      Mints b s s' → (s.call b).reservedAt + reservationTTL < (s.call a).reservedAt) ∧
    (∀ t answer', (s.call a).phase = .admitted t → guardStep s (.exec a answer') = none) ∧
    (∀ key t, (s.call a).phase.token? = some t → (s.keys key).get s.now = some t →
      s'.keys key = s.keys key)
  := by
  obtain ⟨hobeys, hseparate⟩ := separate_run hstart hrun
  refine ⟨?_, fun t answer' hadmitted => admitted_final hobeys hadmitted, ?_⟩
  · rintro t hid hheld hruns ⟨u, hreserved, -⟩
    have hu : (s.call b).phase.held? = some u := by
      rw [hreserved]
      rfl
    have hkey : (inputs b).key = (inputs a).key := key_eq_of_id_eq (hsha b a) hid
    obtain hbefore | hafter := hseparate.apart b a u t hother hkey hu hheld
    · exact hbefore
    · have := hseparate.past b u hu
      omega
  · intro key t htoken hget
    apply (steps_of_exec hobeys hstep).advance.frame hget
    intro hsame
    exact hother (hseparate.distinct b a t hsame htoken)

end Invariant

/-! ### A call that stalls -/

/-- Any number of calls for one activity of the subscriber `b`. -/
def exampleCalls (_ : ℕ) : Announcing :=
  ⟨exampleRelay [], { id := lit "https://b/c" }, exampleActor, lit "a"⟩

def noReservations : Guarding where
  now := 0
  keys := fun _ => none
  drawn := []
  call i := ⟨(exampleCalls i).program, .fresh, 0⟩

/-- A call reserves the activity and records its publisher. -/
def reserveEvents (i : ℕ) (token : String) : List GuardEvent :=
  [.exec i (.uuid (lit token)), .exec i (.outcome .answered), .exec i (.recorded none)]

/-- The call `1` stalls until its reservation has expired, and the fan-out of the call `0` is
admitted. -/
def stalledEvents : List GuardEvent :=
  reserveEvents 1 "s" ++ [.tick 900001] ++ reserveEvents 0 "t" ++
    [.exec 0 (.uuid (lit "w")), .exec 0 (.queued true)]

def stalledState : Guarding := (run guardStep noReservations stalledEvents).get (by decide +kernel)

/-- The call `1` goes on. -/
def resumedState : Guarding :=
  (guardStep stalledState (.exec 1 (.uuid (lit "x")))).get (by decide +kernel)

theorem noReservations_started :
  Started exampleCalls noReservations
  := ⟨fun _ => rfl, fun _ => rfl⟩

/-- A wrapper is minted while the reservation of another call, whose fan-out was admitted, runs. -/
theorem stalled_call_mints :
  run guardStep noReservations stalledEvents = some stalledState ∧
    (stalledState.call 0).phase = .admitted (lit "t") ∧
    stalledState.now ≤ (stalledState.call 0).reservedAt + reservationTTL ∧
    guardStep stalledState (.exec 1 (.uuid (lit "x"))) = some resumedState ∧
    Mints 1 stalledState resumedState
  := by
  refine ⟨(Option.some_get _).symm, by decide +kernel, by decide +kernel,
    (Option.some_get _).symm, lit "s", by decide +kernel, by decide +kernel⟩

theorem reservation_outlasts_others_stalled :
  (stalledState.call 1).reservedAt + reservationTTL < (stalledState.call 0).reservedAt ∧
    guardStep stalledState (.exec 0 (.queued false)) = none
  := by
  obtain ⟨hmints, hadmitted, -⟩ := reservation_outlasts_others (a := 0) (b := 1)
    (fun _ _ => rfl) noReservations_started (Option.some_get _).symm (by decide)
    (show guardStep stalledState (.exec 1 (.uuid (lit "x"))) = some resumedState from
      (Option.some_get _).symm)
  exact ⟨hmints (lit "t") rfl (by decide +kernel) (by decide +kernel)
    ⟨lit "s", by decide +kernel, by decide +kernel⟩, hadmitted (lit "t") _ (by decide +kernel)⟩

end Api
