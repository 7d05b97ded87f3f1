import ActivityRelay.Directory.Cycle
import ActivityRelay.Directory.Suppression

/-!
# Deadlines after failures

After a failed operation the scheduler writes a deadline, and no replica sends a request
before it, by its own monotonic clock. This holds over restarts and any interleaving of
replicas, if the failure is that of a relay which is not registered, or is registered with
the configured profile. Otherwise the profile counts as changed in every cycle, and the
deadline is passed over.

The invariant (`Deferred`) is about the persisted state: it was observed at the deadline or
later, or it is a failure with this or a later deadline. A replica that has lost its lease
may act on an older state, so the invariant is about owners of the lease only; tokens are
never drawn again, so a former owner stays one.
-/

namespace Directory

open Function GoString GoTime Interaction Redis Transition

variable {subject : Subject} {n : ℕ} {φ φ' : Fin n → Phase} {i : Fin n} {ψ : Phase} {e : Event n}
  {s s' : Fleet n} {c : Choice} {digest : GoString} {d now startupBoundary : ℤ} {st st' : State}

/-! ### Conditions on runs -/

/-- Only cycles of the scheduler are started. -/
def SchedulersOnly : Event n → Prop
  | .start _ kind => kind = .cycle
  | _ => True

def readsMonotonicNow : Option DirectoryOp → Bool
  | some (.monotonicNow _) => true
  | _ => false

instance (e : Event n) : Decidable (SchedulersOnly e) := by
  induction e using Event.casesOn <;> dsimp only [SchedulersOnly] <;> infer_instance

/-- The monotonic clock is read a second or more after the epoch. -/
def AfterEpoch (s : Fleet n) : Event n → Prop
  | .exec i c => readsMonotonicNow (s.proc i).prog.next? = true → 0 < unix c.reading
  | _ => True

instance (s : Fleet n) (e : Event n) : Decidable (AfterEpoch s e) := by
  induction e using Event.casesOn <;> dsimp only [AfterEpoch] <;> infer_instance

/-- The hash of the directory does not expire. -/
def HashKept (s : Fleet n) : Event n → Prop
  | .tick d => s.world.keys.state.get (s.world.now + d) = s.world.keys.state.get s.world.now
  | _ => True

instance (s : Fleet n) (e : Event n) : Decidable (HashKept s e) := by
  induction e using Event.casesOn <;> dsimp only [HashKept] <;> infer_instance

/-- A client that is built from the file has the profile with the given digest. -/
def ProfileIs (digest : GoString) (file : Option FileConfig) : Prop :=
  ∀ config ∈ file, ∀ d ∈ config.profileDigest, d = digest

instance (digest : GoString) (file : Option FileConfig) : Decidable (ProfileIs digest file) :=
  inferInstanceAs (Decidable (∀ config ∈ file, ∀ d ∈ config.profileDigest, d = digest))

/-- The profile in the file is not changed. -/
def ProfileKept (digest : GoString) : Event n → Prop
  | .edit file => ProfileIs digest file
  | _ => True

instance (digest : GoString) (e : Event n) : Decidable (ProfileKept digest e) := by
  induction e using Event.casesOn <;> dsimp only [ProfileKept] <;> infer_instance

/-- A register or heartbeat request is started by the owner of the lease only. -/
def OwnersRequest (s : Fleet n) : Event n → Prop
  | .exec i _ =>
      (s.proc i).requests = true → ∀ l ∈ (s.proc i).lease, s.world.keys.live s.world.now l.value
  | _ => True

instance (s : Fleet n) (e : Event n) : Decidable (OwnersRequest s e) := by
  induction e using Event.casesOn <;> dsimp only [OwnersRequest] <;> infer_instance

/-! ### Tokens -/

/-- The tokens of the processes have been drawn, and are different. -/
structure Tokens (w : World) (φ : Fin n → Phase) : Prop where
  issued : ∀ i l, (φ i).lease = some l → l.value ∈ w.issued
  distinct : ∀ i j l l', (φ i).lease = some l → (φ j).lease = some l' → l.value = l'.value → i = j

theorem Tokens.update {w w' : World} (h : Tokens w φ) (hissued : ∀ t ∈ w.issued, t ∈ w'.issued)
    (hψ : ∀ l, ψ.lease = some l → (φ i).lease = some l ∨ l.value ∈ w'.issued ∧ l.value ∉ w.issued) :
  Tokens w' (update φ i ψ)
  := by
  have hold : ∀ j l, (Function.update φ i ψ j).lease = some l →
      (φ j).lease = some l ∨ j = i ∧ l.value ∈ w'.issued ∧ l.value ∉ w.issued := by
    intro j l hj
    by_cases hji : j = i
    · subst hji
      rw [update_self] at hj
      exact (hψ l hj).imp id (fun h => ⟨rfl, h⟩)
    · rw [update_of_ne hji] at hj
      exact .inl hj
  constructor
  · intro j l hj
    rcases hold j l hj with h' | ⟨-, h', -⟩
    · apply hissued _ (h.issued j l h')
    · apply h'
  · intro j k l l' hj hk heq
    rcases hold j l hj with h₁ | ⟨rfl, -, h₁⟩ <;> rcases hold k l' hk with h₂ | ⟨rfl, -, h₂⟩
    · apply h.distinct j k l l' h₁ h₂ heq
    · rw [← heq] at h₂
      exact absurd (h.issued j l h₁) h₂
    · rw [heq] at h₁
      exact absurd (h.issued k l' h₂) h₁
    · rfl

/-- Tokens stay distinct, as each is drawn once. -/
theorem Tokens.of_effect (h : Tokens s.world φ) (hφ : InPhases subject s φ)
    (hφ' : InPhases subject s' φ') (he : Effect subject s φ e s' φ') :
  Tokens s'.world φ'
  := by
  cases he with
  | tick | edit | observe | renew => exact ⟨h.issued, h.distinct⟩
  | boot | start => exact h.update (fun _ ht => ht) (nofun)
  | exec i c o k w p r ψ hprog hallow hperform hmoves =>
    have hlease := (hφ' i).lease
    simp only [update_self] at hlease
    have heffect := perform_lease (hφ i).lease hallow hperform
    rw [← hlease, ← (hφ i).lease] at heffect
    cases heffect with
    | kept hkey hissued hafter =>
      apply h.update hissued
      intro l hl
      left
      rw [← hafter, hl]
    | taken token hfree hfresh hkey hissued hbefore hafter =>
      apply h.update
      · intro t ht
        rw [hissued]
        apply List.mem_cons_of_mem _ ht
      · intro l hl
        right
        rcases hafter with hafter | hafter <;> rw [hafter] at hl <;> cases hl
        rw [hissued]
        exact ⟨List.mem_cons_self, hfresh⟩
    | released l hbefore hafter hissued hkey =>
      apply h.update
      · rw [hissued]
        exact fun _ ht => ht
      · intro l' hl'
        rw [hafter] at hl'
        cases hl'

/-- A token that has been drawn and is in the lease key was in it before. -/
theorem Effect.live_before (he : Effect subject s φ e s' φ') (hφ : InPhases subject s φ)
    (hφ' : InPhases subject s' φ') {token : Token} (hissued : token ∈ s.world.issued)
    (hlive : s'.world.keys.live s'.world.now token) :
  s.world.keys.live s.world.now token
  := by
  cases he with
  | tick d =>
    have hle : s.world.now ≤ s.world.now + (d : ℤ) := by omega
    apply Cell.get_of_later hle hlive
  | exec i c o k w p r ψ hprog hallow hperform hmoves =>
    rw [Keys.live, perform_now hperform] at hlive
    cases perform_lease (hφ i).lease hallow hperform with
    | kept hkey _ _ =>
      rw [hkey] at hlive
      exact hlive
    | taken drawn hfree hfresh hkey _ _ _ =>
      have hdrawn := Keys.live_acquired (w := s.world) hkey
      rw [Keys.live, hlive] at hdrawn
      cases hdrawn
      exact absurd hissued hfresh
    | released l _ _ _ hkey =>
      rcases hkey with hkey | hkey <;> rw [hkey] at hlive
      · exact hlive
      · by_cases hown : s.world.keys.lease.get s.world.now = some l.value
        · rw [Cell.compareDel_of_eq hown] at hlive
          cases hlive
        · rw [Cell.compareDel_of_ne hown] at hlive
          exact hlive
  | renew i l hl =>
    by_cases hown : s.world.keys.live s.world.now l.value
    · have hpos : ¬ leaseTTL ≤ 0 := by decide
      have hrenewed : ((s.world.keys.renew s.world.now leaseTTL l).1).live s.world.now l.value := by
        apply Keys.live_acquired (w := s.world)
        apply congrArg Prod.fst (Cell.compareExpire_of_eq hown)
      have heq := hrenewed.symm.trans hlive
      cases heq
      exact hown
    · dsimp only at hlive
      rw [Keys.renew_of_not_live hown] at hlive
      exact hlive
  | _ => exact hlive

/-! ### Replicas -/

/-- The monotonic times a cycle has read are after the epoch. -/
def Phase.Clocked : Phase → Prop
  | .timed _ _ now | .enabled _ _ now | .broken _ _ now | .sending _ _ now _
  | .completed _ _ now _ _ => 0 < unix now
  | _ => True

/-- Replicas in their phases, with clocks after the epoch. -/
structure Cycling (subject : Subject) (s : Fleet n) (φ : Fin n → Phase) : Prop where
  inPhases : InPhases subject s φ
  tokens : Tokens s.world φ
  role : ∀ i, (φ i).role = .cycle
  clocked : ∀ i, (φ i).Clocked

/-- A system of replicas that are not in the middle of a cycle. -/
def Replicas (s : Fleet n) : Prop := Idle s ∧ ∀ i, (s.proc i).kind = .cycle

theorem Replicas.cycling (h : Replicas s) :
  Cycling subject s (fun i => .outside (s.proc i).kind.role)
  := by
  refine ⟨h.1.inPhases, ⟨?_, ?_⟩, ?_, ?_⟩
  · rintro i l ⟨⟩
  · rintro i j l l' ⟨⟩
  · intro i
    rw [h.2 i]
    rfl
  · intro i
    trivial

theorem perform_monotonicNow {w w' : World} {p p' : Proc} {persisted r : ℤ}
    (h : perform subject c w p (.monotonicNow persisted) = some (w', p', r)) :
  unix c.reading ≤ unix r
  := by
  cases performs_of_perform h with
  | monotonicNow _ _ hr =>
    rw [← unix_truncate]
    apply unix_mono
    omega

theorem Cycling.of_effect (h : Cycling subject s φ) (hφ' : InPhases subject s' φ')
    (honly : SchedulersOnly e) (hepoch : AfterEpoch s e) (he : Effect subject s φ e s' φ') :
  Cycling subject s' φ'
  := by
  refine ⟨hφ', h.tokens.of_effect h.inPhases hφ' he, ?_, ?_⟩
  · apply he.forall_phase (P := fun φ => φ.role = .cycle) rfl _ _ h.role
    · rintro i kind rfl
      obtain rfl : kind = .cycle := honly
      rfl
    · intro i c o w p r ψ _ _ _ _ hmoves hi
      rw [hmoves.role, hi]
  · apply he.forall_phase (P := Phase.Clocked) trivial (fun _ _ _ => trivial) _ h.clocked
    rintro i c o w p r ψ rfl hnext _ hperform hmoves hi
    generalize φ i = φi at hmoves hi
    cases hmoves with
    | stay | enable | fail | request | finish => exact hi
    | time l st now =>
      rw [AfterEpoch, hnext] at hepoch
      exact lt_of_lt_of_le (hepoch rfl) (perform_monotonicNow hperform)
    | _ => trivial

/-! ### Deferred states -/

/-- The state was observed at the time `d` or later, or it is a failure, with the profile of
the relay, whose deadline is `d` or later. -/
def Deferred (subject : Subject) (digest : GoString) (d : ℤ) (st : State) : Prop :=
  d ≤ st.lastObserved ∨
    st.Failed ∧ profileChanged st (some digest) = false ∧ 0 < d ∧ d ≤ st.nextAttempt ∧
      d ≤ st.lastObserved + heartbeatInterval subject

/-- A cycle sends requests for a deferred state only at the deadline or later. -/
theorem Deferred.le_now (h : Deferred subject digest d st) (hobserved : st.lastObserved ≤ now)
    (hdue : notDue (startupReconciliationDue st startupBoundary) (profileChanged st (some digest))
      st now = false) :
  d ≤ now
  := by
  rcases h with h | ⟨hfailed, hchanged, hpos, hnext, -⟩
  · omega
  · rw [hfailed.startup, hchanged] at hdue
    have hle := le_of_notDue_eq_false hdue (by omega)
    omega

/-- A state that is written at a time after `d` is deferred when it is read. -/
theorem deferred_of_lastObserved (hd : truncate d = d) (hle : d ≤ now) (hpos : 0 < unix now)
    (hobserved : st.lastObserved = now) (hload : load (some (stateArguments st)) = some st') :
  Deferred subject digest d st'
  := by
  left
  rw [← hobserved] at hpos hle
  rw [(load_written hload hpos).2.2.2.1, ← hd]
  apply truncate_mono hle

/-- The failure to build a client keeps a state deferred. -/
theorem Deferred.applyFailure (h : Deferred subject digest d st) (hd : truncate d = d)
    (hobserved : st.lastObserved ≤ now) (hpos : 0 < unix now)
    (hload : load (some (stateArguments (applyFailure subject st now .response))) = some st') :
  Deferred subject digest d st'
  := by
  rcases h with h | ⟨-, hchanged, hdpos, -, hinterval⟩
  · apply deferred_of_lastObserved hd (le_trans h hobserved) hpos _ hload
    apply applyFailure_lastObserved
  right
  have hlater : d ≤ truncate now + heartbeatInterval subject := by
    rw [← truncate_add truncate_heartbeatInterval, ← hd]
    apply truncate_mono
    omega
  have hwritten : (Directory.applyFailure subject st now .response).nextAttempt =
      truncate now + heartbeatInterval subject := by
    simp [Directory.applyFailure, classifyFailure, nextHeartbeatAttempt, ne_zero_of_unix_pos hpos,
      heartbeatInterval]
  obtain ⟨hfailed, hchanged', hlast, hnext⟩ := load_failure (some digest) hload hpos
  rw [hwritten] at hnext
  have hnext' : st'.nextAttempt = truncate now + heartbeatInterval subject := by
    rcases hnext with ⟨hle, -⟩ | hnext
    · have hmono : unix (truncate now) ≤ unix (truncate now + heartbeatInterval subject) := by
        apply unix_mono
        have hnominal : (0 : ℤ) ≤ nominalHeartbeatInterval := by decide
        have hinterval : nominalHeartbeatInterval ≤ heartbeatInterval subject :=
          nominal_le_heartbeatInterval
        omega
      rw [unix_truncate] at hmono
      omega
    · rw [hnext, truncate_add truncate_heartbeatInterval, truncate_truncate]
  rw [hchanged] at hchanged'
  exact ⟨hfailed, hchanged', hdpos, hnext' ▸ hlater, hlast ▸ hlater⟩

/-- A failure that is written with the deadline `d` is deferred. -/
theorem deferred_of_failure {st₁ : State} {e : ClientError} (hpos : 0 < unix now)
    (hchanged : profileChanged st (some digest) = false)
    (hload : load (some (stateArguments (applyFailure subject st now e))) = some st₁) :
  Deferred subject digest st₁.nextAttempt st₁
  := by
  obtain ⟨hfailed, hchanged', hlast, hnext⟩ := load_failure (some digest) hload hpos
  by_cases hd : st₁.nextAttempt ≤ 0
  · left
    have hlastpos := truncate_pos hpos
    omega
  right
  rw [hchanged] at hchanged'
  refine ⟨hfailed, hchanged', by omega, le_refl _, ?_⟩
  rcases hnext with ⟨-, hzero⟩ | hnext
  · omega
  · rw [hnext, hlast]
    apply applyFailure_nextAttempt_le st (ne_zero_of_unix_pos hpos)

/-! ### The invariant -/

/-- What a cycle that owns the lease has read and decided. -/
def Phase.Held (subject : Subject) (digest : GoString) (d : ℤ) : Phase → Prop
  | .loaded _ st | .timed _ st _ | .enabled _ st _ | .broken _ st _ => Deferred subject digest d st
  | .sending _ _ now _ | .completed _ _ now _ _ => d ≤ now
  | _ => True

/-- The persisted state is deferred, and the owner of the lease acts on a deferred state. -/
structure Deferring (subject : Subject) (digest : GoString) (d : ℤ) (s : Fleet n)
    (φ : Fin n → Phase) : Prop where
  profile : ProfileIs digest s.world.file
  hash : ∀ st, s.world.keys.load s.world.now = some st → Deferred subject digest d st
  held : ∀ i l, (φ i).lease = some l → s.world.keys.live s.world.now l.value →
    (φ i).Held subject digest d

theorem perform_profile {w w' : World} {p p' : Proc} {o : DirectoryOp} {r : o.Reply}
    (h : perform subject c w p o = some (w', p', r)) (hprofile : ProfileIs digest w.file) :
  ProfileIs digest w'.file
  := by
  have hedit : ∀ (edit : FileConfig → FileConfig) fault,
      (∀ config, (edit config).profileDigest = config.profileDigest) →
      ProfileIs digest (editFile edit fault w.file).1 := by
    intro edit fault hkeep
    cases hfile : w.file with
    | none => rintro config ⟨⟩
    | some config =>
      rw [hfile] at hprofile
      simp only [editFile]
      split
      · exact hprofile
      · rintro _ ⟨⟩ d' hd'
        rw [hkeep] at hd'
        exact hprofile config rfl d' hd'
  cases performs_of_perform h with
  | disable | remove => exact hedit _ _ (fun _ => rfl)
  | _ => exact hprofile

/-- The profile in the file is kept by a step that does not change it. -/
theorem Effect.profile (he : Effect subject s φ e s' φ') (hkept : ProfileKept digest e)
    (h : ProfileIs digest s.world.file) :
  ProfileIs digest s'.world.file
  := by
  cases he with
  | edit file => exact hkept
  | exec i c o k w p r ψ hprog hallow hperform hmoves => exact perform_profile hperform h
  | _ => exact h

/-- What the owner of the lease writes is deferred. -/
theorem Deferring.saved {l : Lease} (h : Deferring subject digest d s φ)
    (hcycling : Cycling subject s φ) (hd : truncate d = d)
    (hallow : Allows subject (φ i) (.saveOwned l st)) (hlive : s.world.keys.live s.world.now l.value)
    (hload : load (some (stateArguments st)) = some st') :
  Deferred subject digest d st'
  := by
  have hheld := h.held i
  have hclocked := hcycling.clocked i
  have htimed := (hcycling.inPhases i).timed
  have hrole := hcycling.role i
  generalize φ i = φi at hallow hheld hclocked htimed hrole
  cases hallow with
  | alone role _ hcall | command role _ _ hcall => cases hcall
  | saveCommand role _ _ hcycle => exact absurd hrole hcycle
  | saveBroken _ st₀ now =>
    have hdeferred : Deferred subject digest d st₀ := hheld l rfl hlive
    exact hdeferred.applyFailure hd htimed.1 hclocked hload
  | save _ st₀ now digest' finished _ hfinished =>
    have hle : d ≤ now := hheld l rfl hlive
    obtain ⟨-, hnow, -⟩ := htimed
    exact deferred_of_lastObserved hd (le_trans hle hnow)
      (lt_of_lt_of_le hclocked (unix_mono hnow)) hfinished.lastObserved hload

/-- What a cycle that owns the lease comes to know by a call. -/
theorem Deferring.moves {w : World} {p : Proc} {o : DirectoryOp} {r : o.Reply}
    (h : Deferring subject digest d s φ) (hcycling : Cycling subject s φ)
    (hperform : perform subject c s.world (s.proc i) o = some (w, p, r))
    (hmoves : Moves startupBoundary (φ i) o r ψ)
    (hheld : ∀ l, (φ i).lease = some l → ψ.lease = some l → (φ i).Held subject digest d) :
  (∃ l, ψ.lease = some l) → ψ.Held subject digest d
  := by
  rintro ⟨l, hl⟩
  have htimed := (hcycling.inPhases i).timed
  generalize φ i = φi at hmoves hheld htimed
  cases hmoves with
  | stay | time | enable | fail | finish => exact hheld l hl hl
  | load _ st => exact h.hash st (perform_load hperform)
  | request _ st now config digest' hsome hdue =>
    have hdeferred : Deferred subject digest d st := hheld l hl hl
    obtain ⟨config, rfl, hdigest⟩ := Option.bind_eq_some_iff.mp hsome
    obtain rfl := h.profile config (perform_readConfig hperform) digest' hdigest
    exact hdeferred.le_now htimed.1 hdue
  | _ => trivial

/-- A deadline stays in force over every step. -/
theorem Deferring.of_effect (h : Deferring subject digest d s φ) (hcycling : Cycling subject s φ)
    (hd : truncate d = d) (hφ' : InPhases subject s' φ') (hhash : HashKept s e)
    (hprofile : ProfileKept digest e) (he : Effect subject s φ e s' φ') :
  Deferring subject digest d s' φ'
  := by
  have hback : ∀ i l, (φ i).lease = some l → s'.world.keys.live s'.world.now l.value →
      (φ i).Held subject digest d := by
    intro i l hl hlive
    apply h.held i l hl
    apply he.live_before hcycling.inPhases hφ' (hcycling.tokens.issued i l hl) hlive
  have hupdate : ∀ i ψ, (∀ l, ψ.lease = some l → s'.world.keys.live s'.world.now l.value →
      ψ.Held subject digest d) → ∀ j l, (update φ i ψ j).lease = some l →
      s'.world.keys.live s'.world.now l.value →
      (update φ i ψ j).Held subject digest d := by
    intro i ψ hψ j l hj hlive
    by_cases hji : j = i
    · subst hji
      rw [update_self] at hj ⊢
      exact hψ l hj hlive
    · rw [update_of_ne hji] at hj ⊢
      exact hback j l hj hlive
  have hprofile' := he.profile hprofile h.profile
  cases he with
  | tick t =>
    refine ⟨hprofile', ?_, hback⟩
    intro st hst
    apply h.hash st
    rw [← hst]
    simp only [Keys.load]
    rw [hhash]
  | edit | observe => exact ⟨hprofile', h.hash, hback⟩
  | boot i reading | start i kind hidle => exact ⟨hprofile', h.hash, hupdate i _ (by rintro l ⟨⟩)⟩
  | exec i c o k w p r ψ hprog hallow hperform hmoves =>
    refine ⟨hprofile', ?_, hupdate i ψ ?_⟩
    · intro st' hst'
      rw [perform_now hperform] at hst'
      rcases perform_state hperform with hsame | ⟨l, st, rfl, hlive, hset⟩
      · rw [Keys.load, hsame] at hst'
        exact h.hash st' hst'
      · rw [Keys.load_set hset] at hst'
        exact h.saved hcycling hd hallow hlive hst'
    · intro l hl hlive
      apply h.moves hcycling hperform hmoves _ ⟨l, hl⟩
      intro l' hl' hψ
      obtain rfl := Option.some.inj (hψ.symm.trans hl)
      exact hback i l' hl' hlive
  | renew i l hl =>
    refine ⟨hprofile', ?_, hback⟩
    intro st hst
    apply h.hash st
    rw [← hst]
    simp only [Keys.load, Keys.renew]
    split <;> rfl

/-! ### From a failure on -/

/-- A replica that writes a failure has observed it after the epoch, under its lease. -/
theorem Cycling.failure {s : Fleet n} {φ : Fin n → Phase} {i : Fin n} {l : Lease} {st : State}
    (h : Cycling subject s φ) (hcall : (s.proc i).prog.next? = some (.saveOwned l st))
    (hfailed : st.Failed) :
  (φ i).lease = some l ∧
    ∃ st₀ now e, st = applyFailure subject st₀ now e ∧ 0 < unix now
  := by
  have hallow := (h.inPhases i).allows hcall
  have hclocked := h.clocked i
  have htimed := (h.inPhases i).timed
  have hrole := h.role i
  generalize φ i = φi at hallow hclocked htimed hrole
  cases hallow with
  | alone role _ hcommand | command role _ _ hcommand => cases hcommand
  | saveCommand role _ _ hcycle => exact absurd hrole hcycle
  | saveBroken _ st₀ now => exact ⟨rfl, st₀, now, _, rfl, hclocked⟩
  | save _ st₀ now digest finished _ hfinished =>
    refine ⟨rfl, ?_⟩
    cases hfinished with
    | success response hresponse => exact absurd hfailed (applySuccess_not_failed _ _ _ _)
    | failure e =>
      exact ⟨st₀, finished, e, rfl, lt_of_lt_of_le hclocked (unix_mono htimed.2.1)⟩

/-- The state of the system when the owner of the lease has written a failure. -/
theorem Cycling.deferring {s₁ : Fleet n} {φ₁ : Fin n → Phase} {l : Lease} {st₁ : State}
    (h : Cycling subject s φ) (hcall : (s.proc i).prog.next? = some (.saveOwned l st))
    (hfailed : st.Failed) (hlive : s.world.keys.live s.world.now l.value)
    (he : Effect subject s φ (.exec i c) s₁ φ₁) (hφ₁ : InPhases subject s₁ φ₁)
    (hsaved : s₁.world.keys.state.get s₁.world.now = some (stateArguments st))
    (hload : s₁.world.keys.load s₁.world.now = some st₁) (hprofile : ProfileIs digest s₁.world.file)
    (hchanged : profileChanged st (some digest) = false) :
  Deferring subject digest st₁.nextAttempt s₁ φ₁
  := by
  obtain ⟨hlease, st₀, now, e, rfl, hpos⟩ := h.failure hcall hfailed
  have hchanged₀ : profileChanged st₀ (some digest) = false := by
    rw [← hchanged]
    symm
    apply profileChanged_congr (applyFailure_registered st₀ now e)
      (applyFailure_profileDigest st₀ now e)
  refine ⟨hprofile, ?_, ?_⟩
  · intro st' hst'
    cases hload.symm.trans hst'
    rw [Keys.load, hsaved] at hload
    exact deferred_of_failure hpos hchanged₀ hload
  · intro k l' hk hlive'
    by_cases hki : k = i
    · -- the process itself goes on to release its lease
      subst hki
      cases he with
      | exec _ _ o k' w p r ψ hprog hallow hperform hmoves =>
        rw [hprog] at hcall
        cases hcall
        rw [update_self] at hk ⊢
        have hrole := h.role k
        generalize φ k = φk at hmoves hrole hallow
        cases hmoves with
        | stay _ _ _ hstay _ => exact absurd hrole (hstay _ _ rfl)
        | saveBroken | save => trivial
    · -- no other process owns the lease
      exfalso
      have hkφ : (φ k).lease = some l' := by
        cases he with
        | exec _ _ o k' w p r ψ hprog hallow hperform hmoves =>
          rw [update_of_ne hki] at hk
          exact hk
      have hbefore := he.live_before h.inPhases hφ₁ (h.tokens.issued k l' hkφ) hlive'
      have heq : l'.value = l.value := Option.some.inj (hbefore.symm.trans hlive)
      exact hki (h.tokens.distinct k i l' l hkφ hlease heq)

/-- Any number of replicas of the scheduler, over any restarts. The owner of the lease writes
a failure, whose deadline is read back as `st₁.nextAttempt`, when the relay is not registered
or is registered with the configured profile. As long as the profile in the file is not
changed, no replica starts a register or heartbeat request while its monotonic clock is
before the deadline, in every run in which requests are started by owners of the lease, clocks
are after the epoch, and the hash does not expire. -/
theorem deadline_kept (subject : Subject) {init s s₁ t : Fleet n} {es es' : List (Event n)}
    {i j : Fin n} {c c' : Choice} {l : Lease} {st st₁ : State} {digest : GoString}
    (hinit : Replicas init) (hrun : run (step subject) init es = some s)
    (hcond : Meets (step subject) (fun s e => SchedulersOnly e ∧ AfterEpoch s e) init es)
    (hcall : (s.proc i).prog.next? = some (.saveOwned l st)) (hfailed : st.Failed)
    (hlive : s.world.keys.live s.world.now l.value) (hsave : step subject s (.exec i c) = some s₁)
    (hsaved : s₁.world.keys.state.get s₁.world.now = some (stateArguments st))
    (hload : s₁.world.keys.load s₁.world.now = some st₁) (hprofile : ProfileIs digest s₁.world.file)
    (hchanged : profileChanged st (some digest) = false)
    (hrun' : run (step subject) s₁ es' = some t)
    (hcond' : Meets (step subject)
      (fun s e => SchedulersOnly e ∧ AfterEpoch s e ∧ ProfileKept digest e ∧ HashKept s e ∧
        OwnersRequest s e) s₁ (es' ++ [.exec j c'])) (hrequests : (t.proc j).requests = true) :
  st₁.nextAttempt ≤ (t.proc j).lastNow
  := by
  obtain ⟨φ, hcycling⟩ : ∃ φ, Cycling subject s φ := by
    apply run_invariant_of_meets _ ⟨_, hinit.cycling⟩ hcond hrun
    rintro s e s' ⟨φ, hφ⟩ hC he
    obtain ⟨φ', heffect, hφ'⟩ := step_effect hφ.inPhases he
    exact ⟨φ', hφ.of_effect hφ' hC.1 hC.2 heffect⟩
  obtain ⟨φ₁, heffect, hφ₁⟩ := step_effect hcycling.inPhases hsave
  have hcycling₁ : Cycling subject s₁ φ₁ := by
    refine hcycling.of_effect hφ₁ ?_ ?_ heffect
    · trivial
    · rw [AfterEpoch, hcall]
      rintro ⟨⟩
  have hdeferring := hcycling.deferring hcall hfailed hlive heffect hφ₁ hsaved hload hprofile
    hchanged
  have hd : truncate st₁.nextAttempt = st₁.nextAttempt := (load_spec hload).1
  obtain ⟨ψ, hψ, hdeferring'⟩ : ∃ ψ, Cycling subject t ψ ∧
      Deferring subject digest st₁.nextAttempt t ψ := by
    apply run_invariant_of_meets _ ⟨φ₁, hcycling₁, hdeferring⟩ hcond'.left hrun'
    rintro s e s' ⟨φ, hφ, hd'⟩ hC he
    obtain ⟨φ', heffect, hφ'⟩ := step_effect hφ.inPhases he
    refine ⟨φ', hφ.of_effect hφ' hC.1 hC.2.1 heffect, ?_⟩
    exact hd'.of_effect hφ hd hφ' hC.2.2.2.1 hC.2.2.1 heffect
  have howner := (hcond'.right hrun').1.2.2.2.2 hrequests
  have hin := hψ.inPhases j
  obtain ⟨l', st', now, digest', hj⟩ := hin.sending (hin.role ▸ hψ.role j) hrequests
  have hlease := hin.lease
  have htimed := hin.timed
  have hheld := hdeferring'.held j l'
  rw [hj] at hlease htimed hheld
  have hle : st₁.nextAttempt ≤ now := hheld rfl (howner l' hlease.symm)
  rw [← htimed.2]
  exact hle

/-- The profile digest of the configured client. -/
def configuredDigest : GoString := List.replicate 64 0x61

/-- One replica of a relay with the given hash. -/
def replica (hash : Cell StateHash) : Fleet 1 where
  world := { now := 0, keys := ⟨hash, none⟩, issued := [], file := some enabledConfig }
  proc := fun _ => .boot (ofUnix 1700000000)

theorem replica_replicas (hash : Cell StateHash) :
  Replicas (replica hash)
  := ⟨fun _ => ⟨rfl, rfl⟩, fun _ => rfl⟩

/-- The directory asks to come back after an hour. -/
def rateLimited : ClientError := .protocol .rateLimited (60 * minute)

/-- A cycle whose request is refused, up to the writing of the failure. It makes `count` calls
before the request. -/
def refusedCycle (count : ℕ) : List (Event 1) :=
  [.start 0 .cycle] ++ calls 0 1700000000 (lit "first") count ++
    [.exec 0 { reply := .error rateLimited }] ++ calls 0 1700000000 [] 3

/-- The next cycle, up to its request, by a clock that reads the given seconds. -/
def nextCycle (seconds : ℤ) (count : ℕ) : List (Event 1) :=
  calls 0 seconds [] 1 ++ [.start 0 .cycle] ++ calls 0 seconds (lit "second") count

/-- A relay that is not registered, when its replica is about to write the failure, and when
it has. -/
def refused : Fleet 1 := (run (step relaySubject) (replica none) (refusedCycle 9)).get rfl

def refusedSaved : Fleet 1 := (step relaySubject refused (.exec 0 {})).get rfl

def refusedState : State := applyFailure relaySubject .zero (ofUnix 1700000000) rateLimited

/-- The next request comes an hour later. -/
theorem deadline_kept_hour :
  ∃ t, run (step relaySubject) refusedSaved (nextCycle 1700003600 9) = some t ∧
    (t.proc 0).requests = true ∧ ofUnix 1700003600 ≤ (t.proc 0).lastNow
  := by
  have hrun := (Option.some_get
    (x := run (step relaySubject) (replica none) (refusedCycle 9)) rfl).symm
  have hsave := (Option.some_get (x := step relaySubject refused (.exec 0 {})) rfl).symm
  have hrun' := (Option.some_get
    (x := run (step relaySubject) refusedSaved (nextCycle 1700003600 9)) rfl).symm
  have hload := (Option.some_get
    (x := refusedSaved.world.keys.load refusedSaved.world.now) rfl).symm
  have hcall : (refused.proc 0).prog.next? =
      some (.saveOwned ⟨relaySubject.origin, lit "first"⟩ refusedState) := rfl
  have hprofile : ProfileIs configuredDigest refusedSaved.world.file := by decide
  have hcond : Meets (step relaySubject)
      (fun s e => SchedulersOnly e ∧ AfterEpoch s e ∧ ProfileKept configuredDigest e ∧
        HashKept s e ∧ OwnersRequest s e)
      refusedSaved (nextCycle 1700003600 9 ++ [.exec 0 {}]) := by decide
  refine ⟨_, hrun', rfl, ?_⟩
  apply deadline_kept relaySubject (replica_replicas none) hrun (by decide) hcall (by decide)
    (by decide) hsave rfl hload hprofile (by decide) hrun' hcond rfl

/-- The state of a relay that was registered with another profile than the configured one. -/
def staleState : State where
  registered := true
  lastSuccess := ofUnix 1699990000
  nextAttempt := ofUnix 1700076400
  lastOutcome := .registered
  diagnostic := .none
  attempt := 0
  lastObserved := ofUnix 1699990000
  profileDigest := List.replicate 64 0x62
  profileProtocolVersion := 1

def staleReplica : Fleet 1 := replica (Cell.set 0 stateRetention (stateArguments staleState))

/-- Its replica when it is about to write a failure, and when it has. -/
def staleRefused : Fleet 1 := (run (step relaySubject) staleReplica (refusedCycle 10)).get rfl

def staleSaved : Fleet 1 := (step relaySubject staleRefused (.exec 0 {})).get rfl

/-- A minute after a failure whose deadline is an hour later, the replica of a relay that was
registered with another profile starts its next request. -/
theorem deadline_passed_over :
  ∃ l st st₁ t, run (step relaySubject) staleReplica (refusedCycle 10) = some staleRefused ∧
    Meets (step relaySubject) (fun s e => SchedulersOnly e ∧ AfterEpoch s e) staleReplica
      (refusedCycle 10) ∧
    (staleRefused.proc 0).prog.next? = some (.saveOwned l st) ∧ st.Failed ∧
    staleRefused.world.keys.live staleRefused.world.now l.value ∧
    step relaySubject staleRefused (.exec 0 {}) = some staleSaved ∧
    staleSaved.world.keys.state.get staleSaved.world.now = some (stateArguments st) ∧
    staleSaved.world.keys.load staleSaved.world.now = some st₁ ∧
    ProfileIs configuredDigest staleSaved.world.file ∧
    run (step relaySubject) staleSaved (nextCycle 1700000060 10) = some t ∧
    Meets (step relaySubject)
      (fun s e => SchedulersOnly e ∧ AfterEpoch s e ∧ ProfileKept configuredDigest e ∧
        HashKept s e ∧ OwnersRequest s e)
      staleSaved (nextCycle 1700000060 10 ++ [.exec 0 {}]) ∧
    (t.proc 0).requests = true ∧ (t.proc 0).lastNow < st₁.nextAttempt
  := by
  exact ⟨⟨relaySubject.origin, lit "first"⟩,
    applyFailure relaySubject staleState (ofUnix 1700000000) rateLimited, _, _, rfl, by decide, rfl,
    by decide, by decide, rfl, rfl, rfl, by decide, rfl, by decide, rfl, by decide⟩

end Directory
