import ActivityRelay.Directory.Writers

/-!
# The time of the last observation

A cycle and a manual command write a `LastObserved` that is not before the one they have loaded,
whatever their clocks read. `unregister` writes what its clock reads. As long as that is not before
the persisted time, the persisted `LastObserved` never goes back, in any interleaving of processes.

A process that writes has loaded the state under its lease, and nobody else has written since
(`Observing`).
-/

namespace Directory

open GoString GoTime Interaction Transition

variable {subject : Subject} {n : ℕ}

/-! ### The persisted time -/

/-- The number that a text of `unixString` stands for. -/
def writtenSeconds : GoString → ℤ
  | 0x2D :: digits => -((parseDigits 0 digits).getD 0 : ℕ)
  | digits => ((parseDigits 0 digits).getD 0 : ℕ)

/-- The instant that a text of `unixString` stands for, also if `Load` rejects it. -/
def writtenTime (value : GoString) : ℤ :=
  if value = [] ∨ value = lit "0" then 0 else ofUnix (writtenSeconds value)

/-- The `LastObserved` that a hash has, the zero instant if there is none. -/
def persistedObserved : Option StateHash → ℤ
  | none => 0
  | some values => writtenTime values.lastObservedUnix

/-- The persisted `LastObserved` of the directory. -/
def World.observed (w : World) : ℤ := persistedObserved (w.keys.state.get w.now)

/-- Zero, or a whole second after the epoch. -/
def Whole (t : ℤ) : Prop := t = 0 ∨ 0 < unix t ∧ truncate t = t

theorem writtenSeconds_formatInt (t : ℤ) :
  writtenSeconds (formatInt t) = t
  := by
  unfold formatInt
  split
  · rw [writtenSeconds, parseDigits_formatNat, Option.getD_some]
    omega
  · obtain ⟨b, s, hs, hminus, -⟩ := formatNat_eq_cons t.natAbs
    have hdigits := parseDigits_formatNat t.natAbs
    rw [hs] at hdigits ⊢
    rw [writtenSeconds, hdigits, Option.getD_some]
    · omega
    · rintro digits ⟨⟩
      exact hminus rfl

/-- What is kept of an instant that is written. -/
theorem writtenTime_unixString (t : ℤ) :
  writtenTime (unixString t) = if t = 0 ∨ unix t = 0 then 0 else truncate t
  := by
  by_cases hzero : t = 0
  · subst hzero
    rfl
  rw [unixString, if_neg hzero]
  by_cases hepoch : unix t = 0
  · rw [hepoch, if_pos (.inr rfl)]
    decide
  · obtain ⟨hnil, hlit⟩ := formatInt_ne_zero hepoch
    rw [writtenTime, if_neg (by simp [hnil, hlit]), if_neg (by simp [hzero, hepoch]),
      writtenSeconds_formatInt, ofUnix_unix]

/-- A state that is written at a time after `x` is persisted with one. -/
theorem Whole.le_written {x : ℤ} (hx : Whole x) {st : State} (hle : x ≤ st.lastObserved) :
  x ≤ persistedObserved (some (stateArguments st))
  := by
  change x ≤ writtenTime (unixString st.lastObserved)
  rw [writtenTime_unixString]
  obtain rfl | ⟨hpos, hwhole⟩ := hx
  · split
    · exact le_refl 0
    · unfold truncate second
      omega
  · have hlater := unix_mono hle
    have hne : st.lastObserved ≠ 0 := ne_zero_of_unix_pos (by omega)
    rw [if_neg (by omega), ← hwhole]
    apply truncate_mono hle

/-- The hash is one that was written by `SaveOwned`. -/
def WrittenHash (k : Keys) : Prop :=
  ∀ now h, k.state.get now = some h → ∃ st : State, h = stateArguments st

/-- A state that is loaded has the persisted time, which is zero or after the epoch. -/
theorem load_observed {w : World} {st : State} (hhash : WrittenHash w.keys)
    (h : w.keys.load w.now = some st) :
  st.lastObserved = w.observed ∧ Whole st.lastObserved
  := by
  unfold Keys.load at h
  unfold World.observed
  cases hget : w.keys.state.get w.now with
  | none =>
    rw [hget] at h
    cases h
    exact ⟨rfl, .inl rfl⟩
  | some values =>
    obtain ⟨st₀, rfl⟩ := hhash w.now values hget
    rw [hget] at h
    have hparse := (load_stateArguments h).2.2.2.2
    change _ = writtenTime (unixString st₀.lastObserved) ∧ _
    rw [writtenTime_unixString]
    rcases parseTime_unixString hparse with ⟨hzero, hst⟩ | ⟨hpos, hst⟩
    · rw [if_pos hzero, hst]
      exact ⟨rfl, .inl rfl⟩
    · have hne := ne_zero_of_unix_pos hpos
      rw [if_neg (by omega), hst]
      refine ⟨rfl, .inr ⟨?_, truncate_truncate _⟩⟩
      rw [unix_truncate]
      exact hpos

/-! ### What a process will write -/

/-- A lower bound for the time that a process will write, from what it has read. -/
def Writing.bound : Writing → Option ℤ
  | .loaded .unregister _ _ => none
  | .timed .unregister _ _ now => some (truncate now)
  | .loaded _ _ st | .timed _ _ st _ => some st.lastObserved
  | .outside _ | .previewed _ _ | .owning _ _ => none

theorem Written.exists_bound {st st' : State} {now : ℤ} {role : Role}
    (h : Written subject st now role st') (hcycle : role = .cycle → st.lastObserved ≤ now)
    (l : Lease) :
  ∃ x, (Writing.timed role l st now).bound = some x ∧ x ≤ st'.lastObserved
  := by
  cases h with
  | failure e =>
    refine ⟨st.lastObserved, rfl, ?_⟩
    rw [applyFailure_lastObserved]
    exact hcycle rfl
  | success digest response hdigest => exact ⟨st.lastObserved, rfl, hcycle rfl⟩
  | command digest response hdigest hlength =>
    refine ⟨st.lastObserved, rfl, ?_⟩
    change _ ≤ max (max (truncate now) st.lastObserved) st.lastSuccess
    omega
  | suppressed registered =>
    refine ⟨truncate now, rfl, ?_⟩
    change truncate now ≤ now
    unfold truncate second
    omega

/-- When `unregister` reads its clock under its lease, that is a second or more after the epoch
and not before the persisted time. -/
def ClockNotBehind (s : Fleet n) : Event n → Prop
  | .exec i c =>
      (s.proc i).kind.role = .unregister → (s.proc i).prog.next? = some .clock →
        ∀ l ∈ (s.proc i).lease, s.world.keys.live s.world.now l.value →
          0 < unix c.reading ∧ s.world.observed ≤ truncate c.reading
  | _ => True

/-- Processes in their phases, and what is known of an owner of the lease: it will write a time
that is not before the persisted one. -/
structure Observing (subject : Subject) (s : Fleet n) (φ : Fin n → Phase) (ψ : Fin n → Writing) :
    Prop where
  inPhases : InPhases subject s φ
  tokens : Tokens s.world φ
  writesIn : ∀ i, (s.proc i).WritesIn subject (ψ i)
  hash : WrittenHash s.world.keys
  ordered : ∀ i l st now, ψ i = .timed .cycle l st now → st.lastObserved ≤ now
  bound : ∀ i l x, (ψ i).lease = some l → s.world.keys.live s.world.now l.value →
    (ψ i).bound = some x → Whole x ∧ s.world.observed ≤ x

section Step

variable {s s' : Fleet n} {φ φ' : Fin n → Phase} {ψ ψ' : Fin n → Writing}

theorem Observing.lease (h : Observing subject s φ ψ) (i : Fin n) :
  (ψ i).lease = (φ i).lease
  := by
  rw [(h.writesIn i).lease, (h.inPhases i).lease]

section Call

variable {i : Fin n} {c : Choice} {o : DirectoryOp} {w : World} {p : Proc} {r : o.Reply}

theorem Observing.call_ordered (h : Observing subject s φ ψ) (hallow : Writes subject (ψ i) o)
    (hperforms : Performs subject c s.world (s.proc i) o w p r) :
  ∀ l st now, nextWriting (ψ i) o r = .timed .cycle l st now → st.lastObserved ≤ now
  := by
  have hordered := h.ordered i
  generalize ψ i = ψi at hallow hordered
  cases hallow with
  | neutral _ _ hneutral =>
    rw [nextWriting_neutral hneutral]
    exact hordered
  | time | finish =>
    cases hperforms with
    | monotonicNow _ r hr =>
      rintro _ _ _ ⟨⟩
      rw [hr]
      exact le_max_right _ _
  | read role l st hrole =>
    cases hperforms with
    | clock r hr =>
      rintro _ _ _ ⟨⟩
      exact absurd rfl hrole
  | preview | load => cases hperforms with
      | load r => rcases r with _ | st <;> rintro _ _ _ ⟨⟩
  | clock st => rintro _ _ _ ⟨⟩
  | acquire | acquireCommand => cases hperforms with
      | acquire r => rcases r with _ | _ | l <;> rintro _ _ _ ⟨⟩
  | save role l st now st' hwritten => cases role <;> rintro _ _ _ ⟨⟩
  | release _ l hl =>
    rw [nextWriting_release]
    rintro _ _ _ ⟨⟩

/-- What the process of a call will write is not before the persisted time. -/
theorem Observing.call_bound (h : Observing subject s φ ψ) (hallow : Writes subject (ψ i) o)
    (hperforms : Performs subject c s.world (s.proc i) o w p r)
    (hclock : (ψ i).role = .unregister → o = .clock → ∀ l, (ψ i).lease = some l →
      s.world.keys.live s.world.now l.value →
        0 < unix c.reading ∧ s.world.observed ≤ truncate c.reading) :
  ∀ l x, (nextWriting (ψ i) o r).lease = some l → w.keys.live w.now l.value →
    (nextWriting (ψ i) o r).bound = some x → Whole x ∧ w.observed ≤ x
  := by
  have hbound := h.bound i
  have hload : ∀ st, some st = c.fault.answer (s.world.keys.load s.world.now) →
      Whole st.lastObserved ∧ s.world.observed ≤ st.lastObserved := by
    intro st hst
    obtain ⟨hobserved, hwhole⟩ := load_observed h.hash (Fault.eq_of_answer hst)
    exact ⟨hwhole, hobserved.symm.le⟩
  generalize ψ i = ψi at hallow hbound hclock
  cases hallow with
  | neutral _ _ hneutral =>
    rw [nextWriting_neutral hneutral]
    cases hperforms with
    | acquire | release | load | monotonicNow | clock | saveOwned => exact hneutral.elim
    | _ => exact hbound
  | load role l =>
    cases hperforms with
    | load r hr =>
      rcases r with _ | st
      · rintro _ _ _ _ ⟨⟩
      · intro l' x _ _ hx
        cases role with
        | unregister => cases hx
        | cycle | manual =>
          cases hx
          exact hload st hr
  | time | finish =>
    cases hperforms with
    | monotonicNow => exact hbound
  | read role l st hrole =>
    cases hperforms with
    | clock r hr =>
      cases role with
      | cycle => exact absurd rfl hrole
      | manual => exact hbound
      | unregister =>
        intro l' x hl hlive hx
        cases hx
        obtain ⟨hpos, hle⟩ := hclock rfl rfl l' hl hlive
        rw [hr]
        refine ⟨.inr ⟨?_, truncate_truncate _⟩, hle⟩
        rw [unix_truncate]
        exact hpos
  | preview => cases hperforms with
      | load r => rcases r with _ | st <;> rintro _ _ _ _ ⟨⟩
  | clock st => rintro _ _ _ _ ⟨⟩
  | acquire | acquireCommand => cases hperforms with
      | acquire r => rcases r with _ | _ | l <;> rintro _ _ _ _ ⟨⟩
  | save role l st now st' hwritten => cases role <;> rintro _ _ _ _ ⟨⟩
  | release _ l hl =>
    rw [nextWriting_release]
    rintro _ _ _ _ ⟨⟩

/-- A call leaves the hash as it is, or the owner of the lease writes a time that is not before
the persisted one. -/
theorem Observing.call_state (h : Observing subject s φ ψ) (hallow : Writes subject (ψ i) o)
    (hperform : perform subject c s.world (s.proc i) o = some (w, p, r)) :
  w.keys.state = s.world.keys.state ∨
    (∃ l, (ψ i).lease = some l ∧ s.world.keys.live s.world.now l.value) ∧
      (∃ st, w.keys.state = Redis.Cell.set s.world.now stateRetention (stateArguments st)) ∧
      s.world.observed ≤ w.observed
  := by
  rcases perform_state hperform with hsame | ⟨l, st', rfl, hlive, hset⟩
  · exact .inl hsame
  right
  have hbound := h.bound i
  have hordered := h.ordered i
  generalize ψ i = ψi at hallow hbound hordered
  cases hallow with
  | neutral _ _ hneutral => exact hneutral.elim
  | save role l st now st' hwritten =>
    refine ⟨⟨l, rfl, hlive⟩, ⟨st', hset⟩, ?_⟩
    obtain ⟨x, hx, hle⟩ := hwritten.exists_bound (fun hrole => hordered l st now (by rw [hrole])) l
    obtain ⟨hwhole, hobserved⟩ := hbound l x rfl hlive hx
    have hretention : (0 : ℤ) ≤ stateRetention := by decide
    rw [World.observed.eq_def w, hset, perform_now hperform, Redis.Cell.get_set (by omega)]
    exact le_trans hobserved (hwhole.le_written hle)

end Call

/-- A step that is not a call leaves what is persisted. -/
theorem get_of_step {e : Event n} (h : step subject s e = some s') (hkept : HashKept s e)
    (hcall : ∀ i c, e ≠ .exec i c) :
  s'.world.keys.state.get s'.world.now = s.world.keys.state.get s.world.now
  := by
  cases e with
  | tick d =>
    cases h
    exact hkept
  | edit | boot =>
    cases h
    rfl
  | start | observe =>
    simp only [step] at h
    split at h
    · cases h
      rfl
    · cases h
  | exec i c => exact absurd rfl (hcall i c)
  | renew i =>
    simp only [step] at h
    split at h
    · cases h
    · rename_i l hlease
      cases h
      simp only [Keys.renew]
      split <;> rfl

/-- A step does not take the persisted time back. -/
theorem Observing.step {e : Event n} (h : Observing subject s φ ψ) (hkept : HashKept s e)
    (hclock : ClockNotBehind s e) (he : Directory.step subject s e = some s') :
  s.world.observed ≤ s'.world.observed ∧ ∃ φ' ψ', Observing subject s' φ' ψ'
  := by
  obtain ⟨φ', heffect, hφ'⟩ := step_effect h.inPhases he
  obtain ⟨ψ', hwriting, hψ'⟩ := step_writing h.writesIn he
  have htokens := h.tokens.of_effect h.inPhases hφ' heffect
  have hlive : ∀ i l, (ψ i).lease = some l → s'.world.keys.live s'.world.now l.value →
      s.world.keys.live s.world.now l.value := by
    intro i l hl
    rw [h.lease i] at hl
    apply heffect.live_before h.inPhases hφ' (h.tokens.issued i l hl)
  cases hwriting with
  | other _ _ hcall hstate hlatch =>
    have hobserved : s'.world.observed = s.world.observed :=
      congrArg persistedObserved (get_of_step he hkept hcall)
    refine ⟨hobserved.symm.le, φ', ψ, hφ', htokens, hψ', ?_, h.ordered, ?_⟩
    · intro now values hvalues
      rw [hstate] at hvalues
      exact h.hash now values hvalues
    · intro i l x hl hown hx
      rw [hobserved]
      exact h.bound i l x hl (hlive i l hl hown) hx
  | job _ i role p hcall hlatch =>
    refine ⟨le_refl _, φ', _, hφ', htokens, hψ', h.hash, ?_, ?_⟩
    · apply (Function.forall_update_iff ψ
        (fun _ ψ => ∀ l st now, ψ = .timed .cycle l st now → st.lastObserved ≤ now)).mpr
      exact ⟨by rintro _ _ _ ⟨⟩, fun j _ => h.ordered j⟩
    · apply (Function.forall_update_iff ψ (fun _ ψ => ∀ l x, ψ.lease = some l →
        s.world.keys.live s.world.now l.value → ψ.bound = some x →
          Whole x ∧ s.world.observed ≤ x)).mpr
      exact ⟨by rintro _ _ ⟨⟩, fun j _ => h.bound j⟩
  | call i c o w p r k hprog hallow hperform =>
    have hperforms := performs_of_perform hperform
    have hordered := h.call_ordered hallow hperforms
    have hbound := h.call_bound hallow hperforms (by
      rintro hrole rfl l hl hown
      apply hclock _ _ l _ hown
      · rw [← (h.writesIn i).role, hrole]
      · rw [hprog]
        rfl
      · rw [← (h.writesIn i).lease, hl]
        rfl)
    have hnow := perform_now hperform
    have hle : s.world.observed ≤ w.observed := by
      rcases h.call_state hallow hperform with hsame | ⟨-, -, hle⟩
      · rw [World.observed, World.observed, hsame, hnow]
      · exact hle
    refine ⟨hle, φ', _, hφ', htokens, hψ', ?_, ?_, ?_⟩
    · intro later values hvalues
      rcases h.call_state hallow hperform with hsame | ⟨-, ⟨st, hset⟩, -⟩
      · rw [hsame] at hvalues
        exact h.hash later values hvalues
      · rw [hset] at hvalues
        obtain ⟨t, hcell, -⟩ := Redis.Cell.get_eq_some.mp hvalues
        exact ⟨st, (congrArg Redis.Entry.value (Option.some.inj hcell)).symm⟩
    · apply (Function.forall_update_iff ψ
        (fun _ ψ => ∀ l st now, ψ = .timed .cycle l st now → st.lastObserved ≤ now)).mpr
      exact ⟨hordered, fun j _ => h.ordered j⟩
    · apply (Function.forall_update_iff ψ (fun _ ψ => ∀ l x, ψ.lease = some l →
        w.keys.live w.now l.value → ψ.bound = some x → Whole x ∧ w.observed ≤ x)).mpr
      refine ⟨hbound, ?_⟩
      intro j hj l x hl hown hx
      have hown' := hlive j l hl hown
      rcases h.call_state hallow hperform with hsame | ⟨⟨l', hl', hown''⟩, -, -⟩
      · rw [World.observed, hsame, hnow]
        exact h.bound j l x hl hown' hx
      · -- only one process has the live token, and it is the one that writes
        have heq : l.value = l'.value := Option.some.inj (hown'.symm.trans hown'')
        rw [h.lease] at hl hl'
        exact absurd (h.tokens.distinct j i l l' hl hl' heq) hj

end Step

theorem Idle.observing {s : Fleet n} (hs : Idle s) (hhash : WrittenHash s.world.keys) :
  Observing subject s (fun i => .outside (s.proc i).kind.role)
    (fun i => .outside (s.proc i).kind.role)
  := by
  refine ⟨hs.inPhases, ⟨?_, ?_⟩, hs.writesIn, hhash, ?_, ?_⟩
  · rintro i l ⟨⟩
  · rintro i j l l' ⟨⟩
  · rintro i l st now ⟨⟩
  · rintro i l x ⟨⟩

/-- Any number of scheduler replicas and commands, with any clocks, on a hash that is absent or was
written by `SaveOwned` and does not expire. If `unregister` never reads a time before the persisted
one under its lease, then the persisted `LastObserved` at any time is not before the one at an
earlier time. -/
theorem lastObserved_never_decreases (subject : Subject) {s t u : Fleet n} {es es' : List (Event n)}
    (hs : Idle s) (hhash : WrittenHash s.world.keys) (hrun : run (step subject) s es = some t)
    (hrun' : run (step subject) t es' = some u)
    (hmeets : Meets (step subject) (fun s e => HashKept s e ∧ ClockNotBehind s e) s (es ++ es')) :
  t.world.observed ≤ u.world.observed
  := by
  have hobserving : ∃ φ ψ, Observing subject t φ ψ := by
    apply run_invariant_of_meets (P := fun s => ∃ φ ψ, Observing subject s φ ψ) _
      ⟨_, _, hs.observing hhash⟩ hmeets.left hrun
    rintro s e s' ⟨φ, ψ, h⟩ hC he
    exact (h.step hC.1 hC.2 he).2
  have hlater : (∃ φ ψ, Observing subject u φ ψ) ∧ t.world.observed ≤ u.world.observed := by
    apply run_invariant_of_meets
      (P := fun s => (∃ φ ψ, Observing subject s φ ψ) ∧ t.world.observed ≤ s.world.observed) _
      ⟨hobserving, le_refl _⟩ (hmeets.right hrun) hrun'
    rintro s e s' ⟨⟨φ, ψ, h⟩, hle⟩ hC he
    obtain ⟨hstep, hnext⟩ := h.step hC.1 hC.2 he
    exact ⟨hnext, le_trans hle hstep⟩
  exact hlater.2

instance (s : Fleet n) (e : Event n) : Decidable (ClockNotBehind s e) := by
  induction e using Event.casesOn <;> dsimp only [ClockNotBehind] <;> infer_instance

/-- `unregister` up to its first write, on a host whose clock reads the given time. -/
def suppressedAt (seconds : ℤ) : List (Event 1) :=
  [.start 0 (.unregister false)] ++ calls 0 seconds (lit "unregister") 6

theorem staleReplica_written :
  WrittenHash staleReplica.world.keys
  := by
  intro now values hvalues
  obtain ⟨t, hcell, -⟩ := Redis.Cell.get_eq_some.mp hvalues
  exact ⟨staleState, (congrArg Redis.Entry.value (Option.some.inj hcell)).symm⟩

/-- The clock reads a time after the persisted one. -/
theorem lastObserved_moves_forward :
  ∃ u, run (step relaySubject) staleReplica (suppressedAt 1700000000) = some u ∧
    staleReplica.world.observed ≤ u.world.observed ∧ u.world.observed = ofUnix 1700000000
  := by
  have hrun := (Option.some_get
    (x := run (step relaySubject) staleReplica (suppressedAt 1700000000)) rfl).symm
  have hempty : run (step relaySubject) staleReplica [] = some staleReplica := rfl
  refine ⟨_, hrun, ?_, by decide +kernel⟩
  apply lastObserved_never_decreases relaySubject (replica_replicas _).1 staleReplica_written
    hempty hrun
  decide +kernel

/-- A scheduler has written that it observed 1699990000. The host of `unregister` is behind, and
the command writes 1699980000. -/
theorem lastObserved_moves_back :
  ∃ u, run (step relaySubject) staleReplica (suppressedAt 1699980000) = some u ∧
    Idle staleReplica ∧ WrittenHash staleReplica.world.keys ∧
      staleReplica.world.observed = ofUnix 1699990000 ∧ u.world.observed = ofUnix 1699980000
  := by
  have hrun := (Option.some_get
    (x := run (step relaySubject) staleReplica (suppressedAt 1699980000)) rfl).symm
  exact ⟨_, hrun, (replica_replicas _).1, staleReplica_written, by decide +kernel,
    by decide +kernel⟩

end Directory
