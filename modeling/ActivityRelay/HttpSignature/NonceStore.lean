import ActivityRelay.GoString.Base64
import ActivityRelay.HttpSignature.Verify
import ActivityRelay.Redis.Cell
import ActivityRelay.Transition.Run

/-!
# The store of nonces

`RedisRFC9421NonceStore` keeps a marker for every key and nonce that has been reserved. Any
number of calls of `VerifyPOST` share it, and their calls to the clock, the key resolver and the
store are interleaved in any order, over a clock that does not go back. Markers are those of
`SET NX` with a lifetime in nanoseconds, visible up to and including its end.

No signature is accepted twice: the marker of the first call is still visible when the second
call asks for it, because both calls have found the same creation time in their windows.
-/

namespace HttpSignature

open Function GoString GoTime HttpMessage Interaction Redis Transition

/-! ### The store -/

def defaultRFC9421NoncePrefix : GoString := lit "relay:http-signature:nonce:"

/-- A store with the prefix of its keys. -/
structure RedisRFC9421NonceStore where
  keyPrefix : GoString

/-- `NewRedisRFC9421NonceStore`, `none` if there is no client. -/
def newRedisRFC9421NonceStore (client : Bool) (keyPrefix : GoString) :
    Option RedisRFC9421NonceStore :=
  if client = false then none
  else if trimSpace keyPrefix = [] then some ⟨defaultRFC9421NoncePrefix⟩
  else some ⟨trimSpace keyPrefix⟩

/-- `hex.EncodeToString`. -/
def hexEncode (s : GoString) : GoString :=
  s.flatMap (fun b => [hexDigit (b.toNat / 16), hexDigit (b.toNat % 16)])

/-- The markers of nonces. -/
abbrev NonceKeys := GoString → Cell GoString

/-- How a `SET NX` ends: with an answer, or with an error, which may come after it has taken
effect. -/
inductive SetOutcome
  | answered
  | failed (effect : Bool) (error : GoString)
  deriving DecidableEq, Repr

/-- `SetNX` on one key. -/
def setNX (outcome : SetOutcome) (now : ℤ) (key : GoString) (ttl : Int64) (keys : NonceKeys) :
    NonceKeys × Except GoString Bool :=
  let r := (keys key).setNX now ttl.toInt (lit "1")
  match outcome with
  | .answered => (update keys key r.1, .ok r.2)
  | .failed effect error => (if effect then update keys key r.1 else keys, .error error)

section Store

variable {K : Type} (lib : SignatureLibrary K) (store : RedisRFC9421NonceStore)

def nonceKey (keyID nonce : GoString) : GoString :=
  store.keyPrefix ++ hexEncode (lib.sha256 (keyID ++ 0 :: nonce))

def reserveRFC9421Nonce (outcome : SetOutcome) (now : ℤ) (keyID nonce : GoString) (ttl : Int64)
    (keys : NonceKeys) : NonceKeys × Except GoString Bool :=
  if trimSpace keyID = [] then
    (keys, .error (lit "RFC 9421 nonce reservation key ID is empty"))
  else if nonce = [] then
    (keys, .error (lit "RFC 9421 nonce reservation nonce is empty"))
  else if ttl ≤ 0 then
    (keys, .error (lit "RFC 9421 nonce reservation TTL is not positive"))
  else setNX outcome now (nonceKey lib store keyID nonce) ttl keys

/-- A reservation sets an absent marker, or leaves the store as it is; it is granted in the
first case only. -/
theorem reserveRFC9421Nonce_cases (outcome : SetOutcome) (now : ℤ) (keyID nonce : GoString)
    (ttl : Int64) (keys : NonceKeys) :
  (reserveRFC9421Nonce lib store outcome now keyID nonce ttl keys).1 = keys ∧
      (reserveRFC9421Nonce lib store outcome now keyID nonce ttl keys).2 ≠ .ok true ∨
    (keys (nonceKey lib store keyID nonce)).get now = none ∧ 0 < ttl.toInt ∧
      (reserveRFC9421Nonce lib store outcome now keyID nonce ttl keys).1 =
        update keys (nonceKey lib store keyID nonce)
          (Cell.set now ttl.toInt (lit "1"))
  := by
  unfold reserveRFC9421Nonce
  split_ifs with hkey hnonce httl
  · exact .inl ⟨rfl, nofun⟩
  · exact .inl ⟨rfl, nofun⟩
  · exact .inl ⟨rfl, nofun⟩
  · have hpos : 0 < ttl.toInt := by
      rw [Int64.le_iff_toInt_le] at httl
      have hzero : (0 : Int64).toInt = 0 := rfl
      omega
    cases hget : (keys (nonceKey lib store keyID nonce)).get now with
    | none =>
      cases outcome with
      | answered =>
        right
        refine ⟨rfl, hpos, ?_⟩
        simp only [setNX, Cell.setNX_of_none hget]
      | failed effect error =>
        cases effect with
        | false => exact .inl ⟨rfl, nofun⟩
        | true =>
          right
          refine ⟨rfl, hpos, ?_⟩
          simp only [setNX, Cell.setNX_of_none hget, if_true]
    | some value =>
      left
      cases outcome with
      | answered =>
        simp only [setNX, Cell.setNX_of_some hget, update_eq_self, true_and]
        rintro ⟨⟩
      | failed effect error =>
        simp only [setNX, Cell.setNX_of_some hget, update_eq_self, ite_self,
          true_and]
        rintro ⟨⟩

end Store

/-! ### Calls that share a store -/

/-- A call with the time it has read, if it has, and the rest of its program. -/
structure Call (E K : Type) where
  reading : Option ℤ
  prog : VerifyM E K (Except (VerifyError E) RFC9421Verification)

/-- The clock in nanoseconds, the markers, and the calls in the order of their starts. -/
structure Verifying (E K : Type) where
  now : ℤ
  keys : NonceKeys
  calls : List (Call E K)

/-- What the environment chooses at a call: the resolved key, and how `SET NX` ends. -/
structure VerifyChoice (E K : Type) where
  resolved : Except E (RFC9421ResolvedKey K)
  outcome : SetOutcome := .answered

inductive VerifyEvent (E K : Type)
  | tick (nanoseconds : ℕ)
  | call (request : Request) (body : GoString)
  | exec (i : ℕ) (c : VerifyChoice E K)

section System

variable {E K : Type} (lib : SignatureLibrary K) (verifier : RFC9421Verifier)
  (store : RedisRFC9421NonceStore)

/-- The markers after a call to the surroundings, the time the call has read, and the reply. -/
def performVerify (c : VerifyChoice E K) (s : Verifying E K) (call : Call E K) :
    (o : VerifyOp) → NonceKeys × Option ℤ × o.Reply E K
  | .now => (s.keys, some s.now, s.now)
  | .resolveRFC9421Key _ => (s.keys, call.reading, c.resolved)
  | .reserveRFC9421Nonce keyID nonce ttl =>
      let r := reserveRFC9421Nonce lib store c.outcome s.now keyID nonce ttl s.keys
      (r.1, call.reading, r.2)

/-- One step of the calls. -/
def verifyStep (s : Verifying E K) : VerifyEvent E K → Option (Verifying E K)
  | .tick d => some { s with now := s.now + d }
  | .call request body =>
      some { s with calls := s.calls ++ [⟨none, verifyPOST lib verifier request body⟩] }
  | .exec i c =>
      (s.calls[i]?).bind (fun call =>
        match call.prog with
        | .pure _ => none
        | .call o k =>
            let r := performVerify lib store c s call o
            some { s with keys := r.1, calls := s.calls.set i ⟨r.2.1, k r.2.2⟩ })

/-- The result of a call that has returned. -/
def Verifying.result? (s : Verifying E K) (i : ℕ) : Option (Except (VerifyError E) RFC9421Verification) :=
  (s.calls[i]?).bind (fun call => call.prog.value?)

/-- The call has been accepted with the given verification. -/
def Verifying.Accepted (s : Verifying E K) (i : ℕ) (v : RFC9421Verification) : Prop :=
  s.result? i = some (.ok v)

def reservesNonce : Option VerifyOp → Bool
  | some (.reserveRFC9421Nonce _ _ _) => true
  | _ => false

/-- The time by which the lifetime of markers exceeds the two windows. -/
def RFC9421Verifier.slack : ℤ :=
  verifier.replayTTL.toInt - verifier.maximumAge.toInt - verifier.futureSkew.toInt

/-- A nonce is reserved soon after its call has read the clock. -/
def Timely (s : Verifying E K) : VerifyEvent E K → Prop
  | .exec i _ => ∀ call ∈ s.calls[i]?, reservesNonce call.prog.next? = true →
      ∀ t ∈ call.reading, s.now ≤ t + verifier.slack
  | _ => True

instance (s : Verifying E K) (e : VerifyEvent E K) : Decidable (Timely verifier s e) := by
  cases e <;> dsimp only [Timely] <;> infer_instance

/-! ### Phases of calls -/

/-- The time that a call in a phase has read. -/
def VerifyPhase.Read (reading : Option ℤ) (now : ℤ) : VerifyPhase → Prop
  | .started => True
  | .timed t | .reserved t _ => reading = some t ∧ t ≤ now

/-- The call is in the phase `φ`, with the signature `input`. -/
structure Call.In (now : ℤ) (call : Call E K) (input : SignatureInput) (φ : VerifyPhase) : Prop where
  read : φ.Read call.reading now
  follows : (verifyProtocol verifier input).Follows (Verified input) φ call.prog

/-- Every call is in a phase. -/
def Verifying.InPhases (s : Verifying E K) : Prop :=
  ∀ (i : ℕ) (call : Call E K), s.calls[i]? = some call → ∃ input φ, call.In verifier s.now input φ

/-- The marker of an accepted signature is visible as long as the signature is in the window
of a call that reserves its nonce in time. -/
def Verifying.Marked (s : Verifying E K) (v : RFC9421Verification) : Prop :=
  ∃ d, s.keys (nonceKey lib store v.keyID v.nonce) = some ⟨lit "1", some d⟩ ∧
    v.created - verifier.futureSkew.toInt + verifier.replayTTL.toInt ≤ d

variable {lib verifier store}

theorem VerifyPhase.Read.later {reading : Option ℤ} {now later : ℤ} {φ : VerifyPhase}
    (h : φ.Read reading now) (hle : now ≤ later) :
  φ.Read reading later
  := by
  cases φ with
  | started => trivial
  | timed | reserved => exact ⟨h.1, Int.le_trans h.2 hle⟩

variable (lib store) in
/-- A call goes on in the next phase of its protocol. -/
theorem Call.In.perform (c : VerifyChoice E K) {s : Verifying E K} {call : Call E K}
    {input : SignatureInput} {φ : VerifyPhase} {o : VerifyOp}
    {k : o.Reply E K → VerifyM E K (Except (VerifyError E) RFC9421Verification)}
    (h : call.In verifier s.now input φ) (hprog : call.prog = .call o k) :
  (verifyProtocol (E := E) (K := K) verifier input).allows φ o ∧
    Call.In verifier s.now
      ⟨(performVerify lib store c s call o).2.1, k (performVerify lib store c s call o).2.2⟩ input
      ((verifyProtocol (E := E) (K := K) verifier input).next φ o (performVerify lib store c s call o).2.2)
  := by
  have hfollows := h.follows
  rw [hprog] at hfollows
  obtain ⟨hallow, hrest⟩ := hfollows
  refine ⟨hallow, ?_, hrest _⟩
  have hread := h.read
  cases o with
  | now =>
    cases φ with
    | started => exact ⟨rfl, Int.le_refl _⟩
    | timed | reserved => cases hallow
  | resolveRFC9421Key | reserveRFC9421Nonce =>
    cases φ with
    | started | reserved => cases hallow
    | timed t => exact hread

variable {v : RFC9421Verification} {input : SignatureInput} {call : Call E K} {e : VerifyEvent E K}
  {s s' : Verifying E K} {result : Except (VerifyError E) RFC9421Verification}

/-- A call that has returned an acceptance was granted its nonce. -/
theorem Call.In.granted {now : ℤ} {φ : VerifyPhase} (h : call.In verifier now input φ)
    (hvalue : call.prog.value? = some (.ok v)) :
  ∃ t, φ = .reserved t (.ok true) ∧ v.keyID = input.keyID ∧ v.nonce = input.nonce ∧
    v.created = input.created
  := by
  have hfollows := h.follows
  cases hprog : call.prog with
  | call o k =>
    rw [hprog] at hvalue
    cases hvalue
  | pure result =>
    rw [hprog] at hvalue hfollows
    cases hvalue
    match φ, hfollows with
    | .reserved t (.ok true), hverified =>
      obtain ⟨v', hv', h⟩ := hverified
      cases hv'
      exact ⟨t, rfl, h⟩
    | .reserved t (.ok false), ⟨e, he, _⟩ => cases he
    | .reserved t (.error _), ⟨e, he, _⟩ => cases he
    | .started, ⟨e, he, _⟩ => cases he
    | .timed t, ⟨e, he, _⟩ => cases he

/-- A call that has the reply of the store returns, with an acceptance or a reason of the
store. -/
theorem Call.In.answered {now t : ℤ} {reply : Except GoString Bool}
    (h : call.In verifier now input (.reserved t reply)) :
  ∃ result, call.prog.value? = some result ∧ ∀ e, result = .error e → e.FromStore
  := by
  have hfollows := h.follows
  cases hprog : call.prog with
  | call o k =>
    rw [hprog] at hfollows
    cases o <;> cases hfollows.1
  | pure result =>
    rw [hprog] at hfollows
    refine ⟨result, rfl, ?_⟩
    rintro e rfl
    match reply, hfollows with
    | .ok true, ⟨v, hv, _⟩ => cases hv
    | .ok false, ⟨e', he', hstore⟩ =>
      cases he'
      exact hstore
    | .error _, ⟨e', he', hstore⟩ =>
      cases he'
      exact hstore

/-! ### What a step does -/

variable (lib verifier store) in
/-- What a step does. -/
inductive VerifyEffect (s : Verifying E K) : VerifyEvent E K → Verifying E K → Prop
  | tick (d : ℕ) : VerifyEffect s (.tick d) { s with now := s.now + d }
  | call (request : Request) (body : GoString) :
      VerifyEffect s (.call request body)
        { s with calls := s.calls ++ [⟨none, verifyPOST lib verifier request body⟩] }
  | exec (i : ℕ) (c : VerifyChoice E K) (call : Call E K) (o : VerifyOp)
      (k : o.Reply E K → VerifyM E K (Except (VerifyError E) RFC9421Verification))
      (hcall : s.calls[i]? = some call) (hprog : call.prog = .call o k) :
      VerifyEffect s (.exec i c)
        { s with
          keys := (performVerify lib store c s call o).1
          calls := s.calls.set i ⟨(performVerify lib store c s call o).2.1,
            k (performVerify lib store c s call o).2.2⟩ }

theorem verifyStep_effect (h : verifyStep lib verifier store s e = some s') :
  VerifyEffect lib verifier store s e s'
  := by
  cases e with
  | tick d =>
    cases h
    exact .tick d
  | call request body =>
    cases h
    exact .call request body
  | exec i c =>
    obtain ⟨call, hcall, h⟩ := Option.bind_eq_some_iff.mp h
    split at h
    · cases h
    · rename_i o k hprog
      cases h
      exact .exec i c call o k hcall hprog

theorem Verifying.InPhases.step (h : s.InPhases verifier)
    (he : VerifyEffect lib verifier store s e s') :
  s'.InPhases verifier
  := by
  intro j call' hj
  cases he with
  | tick d =>
    obtain ⟨input, φ, hφ⟩ := h j call' hj
    exact ⟨input, φ, hφ.read.later (by dsimp only; omega), hφ.follows⟩
  | call request body =>
    rw [List.getElem?_append] at hj
    split at hj
    · exact h j call' hj
    · rw [List.getElem?_singleton] at hj
      split at hj
      · cases hj
        obtain ⟨input, hfollows⟩ : ∃ input, (verifyProtocol (E := E) (K := K) verifier input).Follows
          (Verified input) .started (verifyPOST lib verifier request body) :=
            verifyPOST_follows request body
        exact ⟨input, .started, trivial, hfollows⟩
      · cases hj
  | exec i c call o k hcall hprog =>
    rw [List.getElem?_set] at hj
    split at hj
    · split at hj
      · cases hj
        obtain ⟨input, φ, hφ⟩ := h i call hcall
        exact ⟨input, _, (hφ.perform lib store c hprog).2⟩
      · cases hj
    · exact h j call' hj

/-- A call that has returned does not change. -/
theorem VerifyEffect.result? {i : ℕ} (he : VerifyEffect lib verifier store s e s')
    (h : s.result? i = some result) :
  s'.result? i = some result
  := by
  obtain ⟨call, hi, hvalue⟩ := Option.bind_eq_some_iff.mp h
  have hlt : i < s.calls.length := (List.getElem?_eq_some_iff.mp hi).1
  cases he with
  | tick d => exact h
  | call request body =>
    rw [Verifying.result?, List.getElem?_append_left hlt]
    exact h
  | exec j c call' o k hcall hprog =>
    have hne : j ≠ i := by
      rintro rfl
      cases hi.symm.trans hcall
      rw [hprog] at hvalue
      cases hvalue
    rw [Verifying.result?, List.getElem?_set_ne hne]
    exact h

/-- A call that has returned an acceptance after a step had returned it before, or has been
granted its nonce in the step. -/
theorem VerifyEffect.accepted {s s' : Verifying E K} {e : VerifyEvent E K} {i : ℕ}
    {v : RFC9421Verification} (hs : s.InPhases verifier)
    (he : VerifyEffect lib verifier store s e s') (h : s'.Accepted i v) :
  s.Accepted i v ∨
    ∃ c call t, e = .exec i c ∧ s.calls[i]? = some call ∧
      reservesNonce call.prog.next? = true ∧ call.reading = some t ∧ t ≤ s.now ∧
      verifier.InWindow v.created t ∧
      (s.keys (nonceKey lib store v.keyID v.nonce)).get s.now = none ∧
      s'.keys = update s.keys (nonceKey lib store v.keyID v.nonce)
        (Cell.set s.now verifier.replayTTL.toInt (lit "1"))
  := by
  cases he with
  | tick d => exact .inl h
  | call request body =>
    left
    obtain ⟨call, hi, hvalue⟩ := Option.bind_eq_some_iff.mp h
    rw [List.getElem?_append] at hi
    split at hi
    · rw [Verifying.Accepted, Verifying.result?, hi]
      exact hvalue
    · -- a call that has just been started is not accepted
      rw [List.getElem?_singleton] at hi
      split at hi
      · cases hi
        obtain ⟨input, hfollows⟩ : ∃ input, (verifyProtocol (E := E) (K := K) verifier input).Follows
          (Verified input) .started (verifyPOST lib verifier request body) :=
            verifyPOST_follows request body
        have hin : Call.In verifier s.now ⟨none, verifyPOST lib verifier request body⟩ input
          .started := ⟨trivial, hfollows⟩
        obtain ⟨t, ht, -⟩ := hin.granted hvalue
        cases ht
      · cases hi
  | exec j c call o k hcall hprog =>
    by_cases hij : j = i
    · subst hij
      right
      obtain ⟨call', hi, hvalue⟩ := Option.bind_eq_some_iff.mp h
      have hlt : j < s.calls.length := (List.getElem?_eq_some_iff.mp hcall).1
      rw [List.getElem?_set_self hlt] at hi
      cases hi
      obtain ⟨input, φ, hφ⟩ := hs j call hcall
      obtain ⟨hallow, hφ'⟩ := hφ.perform lib store c hprog
      obtain ⟨t, hnext, hkeyID, hnonce, hcreated⟩ := hφ'.granted hvalue
      -- the only call with this next phase is the reservation
      match φ, o, k, hallow, hnext, hφ.read, hprog with
      | .started, .now, _, _, hnext, _, _ => cases hnext
      | .timed _, .resolveRFC9421Key _, _, _, hnext, _, _ => cases hnext
      | .timed reading, .reserveRFC9421Nonce _ _ _, k, hallow, hnext, hread, hprog =>
        obtain ⟨rfl, rfl, rfl, hwindow⟩ := hallow
        obtain ⟨hreading, hle⟩ := hread
        have hgranted : (reserveRFC9421Nonce lib store c.outcome s.now input.keyID input.nonce
            verifier.replayTTL s.keys).2 = .ok true := (VerifyPhase.reserved.inj hnext).2
        refine ⟨c, call, reading, rfl, hcall, by rw [hprog]; rfl, hreading, hle, ?_⟩
        rw [hkeyID, hnonce, hcreated]
        use hwindow
        rcases reserveRFC9421Nonce_cases lib store c.outcome s.now input.keyID
          input.nonce verifier.replayTTL s.keys with ⟨-, hnot⟩ | ⟨hget, -, hkeys⟩
        · exact absurd hgranted hnot
        · exact ⟨hget, hkeys⟩
    · left
      rw [Verifying.Accepted, Verifying.result?, List.getElem?_set_ne hij] at h
      exact h

/-- A step that changes the markers sets one that was absent, and ends its call with an
acceptance or a reason of the store. -/
theorem VerifyEffect.keys (hs : s.InPhases verifier) (he : VerifyEffect lib verifier store s e s') :
  s'.keys = s.keys ∨
    (∃ key, (s.keys key).get s.now = none ∧ 0 < verifier.replayTTL.toInt ∧
      s'.keys = update s.keys key
        (Cell.set s.now verifier.replayTTL.toInt (lit "1"))) ∧
    ∀ i c, e = .exec i c → ∃ result, s'.result? i = some result ∧
      ∀ x, result = .error x → x.FromStore
  := by
  cases he with
  | tick | call => exact .inl rfl
  | exec j c call o k hcall hprog =>
    obtain ⟨input, φ, hφ⟩ := hs j call hcall
    obtain ⟨hallow, hφ'⟩ := hφ.perform lib store c hprog
    match φ, o, k, hallow, hφ', hprog with
    | _, .now, _, _, _, _ => exact .inl rfl
    | _, .resolveRFC9421Key _, _, _, _, _ => exact .inl rfl
    | .timed reading, .reserveRFC9421Nonce _ _ _, k, hallow, hφ', hprog =>
      obtain ⟨rfl, rfl, rfl, -⟩ := hallow
      rcases reserveRFC9421Nonce_cases lib store c.outcome s.now input.keyID input.nonce
        verifier.replayTTL s.keys with ⟨hsame, -⟩ | ⟨hget, hpos, hkeys⟩
      · exact .inl hsame
      · right
        refine ⟨⟨_, hget, hpos, hkeys⟩, ?_⟩
        rintro i _ ⟨⟩
        have hlt : j < s.calls.length := (List.getElem?_eq_some_iff.mp hcall).1
        simp only [Verifying.result?, List.getElem?_set_self hlt, Option.bind_some]
        exact hφ'.answered

/-! ### No signature is accepted twice -/

/-- The property of a state that every step keeps. -/
structure Unreplayed (lib : SignatureLibrary K) (verifier : RFC9421Verifier)
    (store : RedisRFC9421NonceStore) (s : Verifying E K) : Prop where
  inPhases : s.InPhases verifier
  marked : ∀ i v, s.Accepted i v → s.Marked lib verifier store v
  once : ∀ i j v w, i ≠ j → s.Accepted i v → s.Accepted j w →
    ¬ (v.keyID = w.keyID ∧ v.nonce = w.nonce ∧ v.created = w.created)

/-- A marker is set again only after its end, and then ends later. -/
theorem Verifying.Marked.step (hs : s.InPhases verifier)
    (he : VerifyEffect lib verifier store s e s') (h : s.Marked lib verifier store v) :
  s'.Marked lib verifier store v
  := by
  obtain ⟨d, hd, hle⟩ := h
  rcases he.keys hs with hsame | ⟨⟨key, hget, hpos, hkeys⟩, -⟩
  · exact ⟨d, by rw [hsame]; exact hd, hle⟩
  · by_cases hkey : nonceKey lib store v.keyID v.nonce = key
    · -- the marker is set again after its end
      have hend : d < s.now := by
        by_contra hnot
        have hvisible : (s.keys key).get s.now = some (lit "1") := by
          rw [← hkey, hd, Cell.get_eq_some]
          refine ⟨some d, rfl, ?_⟩
          rintro x ⟨⟩
          omega
        rw [hget] at hvisible
        cases hvisible
      refine ⟨s.now + verifier.replayTTL.toInt, ?_, by omega⟩
      rw [hkeys, hkey, update_self]
      rfl
    · refine ⟨d, ?_, hle⟩
      rw [hkeys, update_of_ne hkey]
      exact hd

/-- The marker of an accepted signature is visible to every later call that reserves the same
signature in time. -/
theorem Verifying.Marked.visible {w : RFC9421Verification} {t : ℤ}
    (h : s.Marked lib verifier store w) (hwindow : verifier.InWindow v.created t)
    (hnow : s.now ≤ t + verifier.slack)
    (hsame : v.keyID = w.keyID ∧ v.nonce = w.nonce ∧ v.created = w.created) :
  (s.keys (nonceKey lib store v.keyID v.nonce)).get s.now = some (lit "1")
  := by
  obtain ⟨d, hd, hle⟩ := h
  obtain ⟨hkeyID, hnonce, hcreated⟩ := hsame
  obtain ⟨hold, -⟩ := hwindow
  unfold RFC9421Verifier.slack at hnow
  rw [hkeyID, hnonce, hd, Cell.get_eq_some]
  refine ⟨some d, rfl, ?_⟩
  rintro x ⟨⟩
  omega

theorem Unreplayed.step (h : Unreplayed lib verifier store s) (htimely : Timely verifier s e)
    (he : VerifyEffect lib verifier store s e s') :
  Unreplayed lib verifier store s'
  := by
  -- a signature that is accepted in this step has not been accepted before
  have hfresh : ∀ i j v w, i ≠ j → s'.Accepted i v → ¬ s.Accepted i v → s.Accepted j w →
      ¬ (v.keyID = w.keyID ∧ v.nonce = w.nonce ∧ v.created = w.created) := by
    intro i j v w hij hi hnew hj hsame
    obtain ⟨c, call, t, rfl, hcall, hreserves, hreading, -, hwindow, hget, -⟩ :=
      (he.accepted h.inPhases hi).resolve_left hnew
    have hnow := htimely call hcall hreserves t hreading
    rw [(h.marked j w hj).visible hwindow hnow hsame] at hget
    cases hget
  refine ⟨h.inPhases.step he, ?_, ?_⟩
  · intro i v hi
    rcases he.accepted h.inPhases hi with hi | ⟨c, call, t, -, -, -, -, hle, hwindow, -, hkeys⟩
    · exact (h.marked i v hi).step h.inPhases he
    · refine ⟨s.now + verifier.replayTTL.toInt, ?_, ?_⟩
      · rw [hkeys, update_self]
        rfl
      · have := hwindow.2
        omega
  · intro i j v w hij hi hj hsame
    by_cases hi' : s.Accepted i v
    · by_cases hj' : s.Accepted j w
      · exact h.once i j v w hij hi' hj' hsame
      · exact hfresh j i w v hij.symm hj hj' hi' ⟨hsame.1.symm, hsame.2.1.symm, hsame.2.2.symm⟩
    · by_cases hj' : s.Accepted j w
      · exact hfresh i j v w hij hi hi' hj' hsame
      · -- one step is a call of one process
        obtain ⟨c, call, t, he₁, -⟩ := (he.accepted h.inPhases hi).resolve_left hi'
        obtain ⟨c', call', t', he₂, -⟩ := (he.accepted h.inPhases hj).resolve_left hj'
        rw [he₁] at he₂
        exact hij (VerifyEvent.exec.inj he₂).1

/-- A call that has returned keeps its result in every run. -/
theorem result?_of_run {t : Verifying E K} {es : List (VerifyEvent E K)} {i : ℕ}
    (h : s.result? i = some result) (hrun : run (verifyStep lib verifier store) s es = some t) :
  t.result? i = some result
  := by
  apply run_invariant (P := fun s => s.result? i = some result) _ h hrun
  intro s e s' hs he
  exact (verifyStep_effect he).result? hs

end System

/-- Any number of calls of `VerifyPOST` on one store, for any verifier, interleaved in any order
over a clock that does not go back, where every call reserves its nonce within the slack of the
verifier after it has read the clock. No two calls with the same key, nonce and creation time
are both accepted. A call that is rejected for a reason other than a replay or a failure of the
store has left the store as it was. -/
theorem nonce_reserved_once {E K : Type} (lib : SignatureLibrary K) (verifier : RFC9421Verifier)
    (store : RedisRFC9421NonceStore) (now : ℤ) (keys : NonceKeys) {es : List (VerifyEvent E K)}
    {t : Verifying E K} (hrun : run (verifyStep lib verifier store) ⟨now, keys, []⟩ es = some t)
    (htimely : Meets (verifyStep lib verifier store) (Timely verifier) ⟨now, keys, []⟩ es) :
  (∀ i j v w, i ≠ j → t.result? i = some (.ok v) → t.result? j = some (.ok w) →
    ¬ (v.keyID = w.keyID ∧ v.nonce = w.nonce ∧ v.created = w.created)) ∧
  ∀ i e, t.result? i = some (.error e) → ¬ e.FromStore →
    ∀ es₁ c es₂ u u', es = es₁ ++ .exec i c :: es₂ →
      run (verifyStep lib verifier store) ⟨now, keys, []⟩ es₁ = some u →
      verifyStep lib verifier store u (.exec i c) = some u' → u'.keys = u.keys
  := by
  have hinit : Unreplayed lib verifier store (⟨now, keys, []⟩ : Verifying E K) := by
    refine ⟨?_, ?_, ?_⟩
    · rintro i call ⟨⟩
    · rintro i v ⟨⟩
    · rintro i j v w - ⟨⟩
  constructor
  · have ht : Unreplayed lib verifier store t := by
      apply run_invariant_of_meets _ hinit htimely hrun
      intro s e s' hs hC he
      exact hs.step hC (verifyStep_effect he)
    exact ht.once
  · intro i e hi hnot es₁ c es₂ u u' hes hu hstep
    have hphases : u.InPhases verifier := by
      apply run_invariant (P := fun s => s.InPhases verifier) _ hinit.inPhases hu
      intro s e s' hs he
      exact hs.step (verifyStep_effect he)
    rcases (verifyStep_effect hstep).keys hphases with hsame | ⟨-, hresult⟩
    · exact hsame
    · obtain ⟨result, hresult, hstore⟩ := hresult i c rfl
      subst hes
      obtain ⟨u₁, hu₁, hrest⟩ := run_append_eq_some.mp hrun
      cases hu.symm.trans hu₁
      obtain ⟨u₂, hu₂, hrest⟩ := run_cons_eq_some.mp hrest
      cases hstep.symm.trans hu₂
      have hfinal := result?_of_run hresult hrest
      cases hi.symm.trans hfinal
      exact absurd (hstore e rfl) hnot

/-- A verifier with the default options. -/
def defaultVerifier : RFC9421Verifier where
  scheme := lit "https"
  authority := lit "relay.example"
  maximumAge := defaultRFC9421MaximumAge
  futureSkew := defaultRFC9421FutureSkew
  replayTTL := defaultRFC9421ReplayTTL
  scheme_supported := .inr rfl
  authority_ne_nil := by decide
  second_le_maximumAge := by decide
  futureSkew_nonneg := by decide
  windows_le_replayTTL := by decide

def signedInput : SignatureInput where
  coveredComponents := rfc9421POSTComponents
  keyID := lit "https://remote.example/actor#main-key"
  alg := rsaPKCS1SHA256
  nonce := lit "nonce"
  created := ofUnix 1700000000
  expires := 0

/-! ### A signed request -/

/-- The `@signature-params` of a signature with the key, as `signedInput` has them. -/
def signedParams (keyID : GoString) : GoString :=
  lit "(\"@method\" \"@authority\" \"@target-uri\" \"content-digest\" \"content-type\" \"date\")" ++
    lit ";created=1700000000;keyid=\"" ++ keyID ++
    lit "\";alg=\"rsa-v1_5-sha256\";nonce=\"nonce\";tag=\"activitypub\""

/-- The `Content-Digest` of a body with a digest. -/
def contentDigest (digest : GoString) : GoString :=
  lit "sha-256=:" ++ base64Encode digest ++ lit ":"

/-- The request with a signature by the key, for a body with the digest. -/
def signedPOST (keyID digest signature : GoString) : Request where
  method := lit "POST"
  url := some { path := lit "/inbox" }
  host := lit "relay.example"
  header name :=
    if name = lit "Content-Digest" then [contentDigest digest]
    else if name = lit "Content-Type" then [lit "application/activity+json"]
    else if name = lit "Date" then [lit "Tue, 14 Nov 2023 22:13:20 GMT"]
    else if name = lit "Signature-Input" then [lit "sig1=" ++ signedParams keyID]
    else if name = lit "Signature" then [lit "sig1=:" ++ base64Encode signature ++ lit ":"]
    else []
  body := none

/-- What the libraries find in such a request, and in no other one. -/
def unmarshalPOST (digest : GoString) (message : Message) (request : Request) :
    Except GoString (GoString → Except GoString Message) :=
  let signed := signedPOST message.input.keyID digest message.signature
  if ∀ name ∈ [lit "Signature-Input", lit "Signature"], request.header name = signed.header name then
    .ok (fun tag => if tag = rfc9421SignatureTag then .ok message else .error (lit "no such tag"))
  else .error (lit "malformed signature fields")

/-- The lines that are signed in such a request. -/
def signedText (keyID : GoString) (request : Request) : GoString :=
  lit "\"@method\": " ++ request.method ++
    lit "\n\"@authority\": " ++ request.host ++
    lit "\n\"@target-uri\": " ++ (request.url.elim [] (fun url =>
      url.scheme ++ lit "://" ++ url.host ++ url.path)) ++
    lit "\n\"content-digest\": " ++ request.header.get (lit "Content-Digest") ++
    lit "\n\"content-type\": " ++ request.header.get (lit "Content-Type") ++
    lit "\n\"date\": " ++ request.header.get (lit "Date") ++
    lit "\n\"@signature-params\": " ++ signedParams keyID

/-- A body, and its SHA-256. -/
def inboxBody : GoString := lit "\x7b\x7d"

def inboxDigest : GoString := base64Decode (lit "RBNvo1WzZ4oRRq0W9+hknpT7T8If536DEMBg9hyq/4o=")

/-- A signature of the lines of `signedRequest` with a key of 512 bits. -/
def signedMessageOfRequest : Message where
  input := signedInput
  signature := base64Decode
    (lit "bGlg+xtkrF4iPqTfcQevgAob0JmYfrE58iX1QMdC9dT6oZIajigGB1xTNNGtuSVX0IP9b42vEk7T3m4z1EhOPg==")

def signedRequest : Request :=
  signedPOST signedInput.keyID inboxDigest signedMessageOfRequest.signature

/-- The answers of the libraries for this request, with the SHA-256 of its body and of its key ID
and nonce. -/
def requestLibrary : SignatureLibrary Unit where
  unmarshal := unmarshalPOST inboxDigest signedMessageOfRequest
  signatureBase input request := .ok (fun _ => .ok (signedText input.keyID request))
  verify _ text signature :=
    if text = signedText signedInput.keyID
          (cloneRFC9421Request signedRequest inboxBody (lit "https") (lit "relay.example")) ∧
        signature = signedMessageOfRequest.signature then .ok ()
    else .error (lit "crypto/rsa: verification error")
  unmarshalDictionary values := .ok (fun name =>
    if name = lit "sha-256" ∧ values = [contentDigest inboxDigest] then some (.bytes inboxDigest)
    else none)
  sha256 text :=
    if text = inboxBody then inboxDigest
    else if text = signedInput.keyID ++ 0 :: signedInput.nonce then
      base64Decode (lit "9qrjX9mr1mDRvySiB7GDwJeC/3Dw3FT91yAhhiPZrfg=")
    else []

def resolvedKey : VerifyChoice Unit Unit where
  resolved := .ok ⟨signedInput.keyID, [], [], some ()⟩

/-- A request is sent twice, and both calls have read the clock and resolved the key before the
first of them reserves the nonce. -/
def sentTwice : List (VerifyEvent Unit Unit) :=
  [.call signedRequest inboxBody, .exec 0 resolvedKey, .exec 0 resolvedKey,
    .call signedRequest inboxBody, .exec 1 resolvedKey, .exec 1 resolvedKey, .tick 1000,
    .exec 0 resolvedKey, .exec 1 resolvedKey]

theorem nonce_reserved_once_sentTwice :
  ∃ t v, run (verifyStep requestLibrary defaultVerifier ⟨defaultRFC9421NoncePrefix⟩)
      ⟨ofUnix 1700000000, fun _ => none, []⟩ sentTwice = some t ∧
    t.result? 0 = some (.ok v) ∧ t.result? 1 ≠ some (.ok v)
  := by
  have hrun := (Option.some_get
    (x := run (verifyStep requestLibrary defaultVerifier ⟨defaultRFC9421NoncePrefix⟩)
      ⟨ofUnix 1700000000, fun _ => none, []⟩ sentTwice) (by decide +kernel)).symm
  refine ⟨_, signedMessageOfRequest.verification (K := Unit) ⟨signedInput.keyID, [], [], some ()⟩,
    hrun, by decide +kernel, ?_⟩
  intro h
  have honce := nonce_reserved_once _ _ _ _ _ hrun (by decide +kernel)
  exact honce.1 0 1 _ _ (by decide) (by decide +kernel) h ⟨rfl, rfl, rfl⟩

end HttpSignature
