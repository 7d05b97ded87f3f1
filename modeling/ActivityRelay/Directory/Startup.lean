import ActivityRelay.Directory.Deadline

/-!
# The startup of a scheduler

A call of `Run` notes the instant at which it was started, and an operation that was last
observed before that instant is reconciled once without regard to its deadline. It happens at
most once in a call of `Run`, if no reading of the clock is before the one at the start:
the instant is not part of the latch of the monotonic clock, so after a backward step of the
clock the reconciliation itself is observed before the startup, and is repeated in every
cycle.

The count is a credit argument (`Spent`): after the first cycle with an early request, the
persisted state gives no reason for another one.
-/

namespace Directory

open Function GoString GoTime Interaction Transition

variable {subject : Subject} {n : ℕ} {i : Fin n} {start : ℤ} {digest : GoString} {c : Choice}
  {w w' : World} {p p' : Proc}

/-! ### Conditions on runs -/

/-- The process stays in its call of `Run`. -/
def SameRun (i : Fin n) : Event n → Prop
  | .boot j _ => j ≠ i
  | .start j kind => j = i → kind = .cycle
  | _ => True

instance (i : Fin n) (e : Event n) : Decidable (SameRun i e) := by
  induction e using Event.casesOn <;> dsimp only [SameRun] <;> infer_instance

/-- The lease and the state of a call that writes the state. -/
def savedState : Option DirectoryOp → Option (Lease × State)
  | some (.saveOwned l st) => some (l, st)
  | _ => none

/-- The call asks whether the process has to stop. -/
def asksToStop : Option DirectoryOp → Bool
  | some .leaseLost | some .cancelled => true
  | _ => false

/-- No other process writes the state. -/
def OnlyWriter (i : Fin n) (s : Fleet n) : Event n → Prop
  | .exec j _ => j ≠ i → savedState (s.proc j).prog.next? = none
  | _ => True

instance (i : Fin n) (s : Fleet n) (e : Event n) : Decidable (OnlyWriter i s e) := by
  induction e using Event.casesOn <;> dsimp only [OnlyWriter] <;> infer_instance

/-- The operations of the process are successful. -/
def Succeeds (i : Fin n) (s : Fleet n) : Event n → Prop
  | .exec j _ => j = i → ∀ x ∈ savedState (s.proc i).prog.next?, ¬ x.2.Failed
  | _ => True

instance (i : Fin n) (s : Fleet n) (e : Event n) : Decidable (Succeeds i s e) := by
  induction e using Event.casesOn <;> dsimp only [Succeeds] <;> infer_instance

/-- What the process has sent is written: it keeps its lease, is not stopped, and its calls
that write the state take effect. -/
def Persists (i : Fin n) (s : Fleet n) : Event n → Prop
  | .exec j c => j = i →
      (asksToStop (s.proc i).prog.next? = true → c.flag = false) ∧
      ∀ x ∈ savedState (s.proc i).prog.next?,
        c.fault ≠ .dropped ∧ s.world.keys.live s.world.now x.1.value
  | _ => True

instance (i : Fin n) (s : Fleet n) (e : Event n) : Decidable (Persists i s e) := by
  induction e using Event.casesOn <;> dsimp only [Persists] <;> infer_instance

/-- The clock of the process does not read a time before `start`. -/
def ClockFrom (i : Fin n) (start : ℤ) (s : Fleet n) : Event n → Prop
  | .exec j c => j = i → readsMonotonicNow (s.proc i).prog.next? = true → start ≤ c.reading
  | _ => True

instance (i : Fin n) (start : ℤ) (s : Fleet n) (e : Event n) : Decidable (ClockFrom i start s e) := by
  induction e using Event.casesOn <;> dsimp only [ClockFrom] <;> infer_instance

/-- The event starts the first request of a cycle of the process before the persisted
deadline. -/
def startsEarly (i : Fin n) (s : Fleet n) : Event n → Bool
  | .exec j _ =>
      j = i && (s.proc i).requests && !(s.proc i).early &&
        s.world.deadlineAhead (s.proc i).lastNow
  | _ => false

/-! ### The process -/

/-- What a cycle knows that reads its clock at `start` or later, under the profile with the
given digest. -/
def Phase.Ready (start : ℤ) (digest : GoString) : Phase → Prop
  | .loaded _ st => validProfileState st.profileDigest st.profileProtocolVersion = true
  | .timed _ st now | .enabled _ st now | .broken _ st now =>
      validProfileState st.profileDigest st.profileProtocolVersion = true ∧ truncate start ≤ now
  | .sending _ st now d | .completed _ st now d _ =>
      validProfileState st.profileDigest st.profileProtocolVersion = true ∧ truncate start ≤ now ∧
        d = digest ∧ (digest = [] ∨ digest.length = 64 ∧ digest.all isLowerHex = true)
  | _ => True

/-- The process `i` in a call of `Run` that was started when its clock read `start`. -/
structure Running (subject : Subject) (i : Fin n) (start : ℤ) (digest : GoString) (s : Fleet n)
    (φ : Fin n → Phase) : Prop where
  inPhases : InPhases subject s φ
  role : (φ i).role = .cycle
  boundary : (s.proc i).startupBoundary = truncate start
  profile : ProfileIs digest s.world.file
  origin : ∀ l, (φ i).lease = some l → l.origin = subject.origin
  ready : (φ i).Ready start digest

theorem perform_truncate_le {persisted r : ℤ}
    (h : perform subject c w p (.monotonicNow persisted) = some (w', p', r)) :
  truncate c.reading ≤ r
  := by
  cases performs_of_perform h with
  | monotonicNow _ _ hr => omega

variable {φ φ' : Fin n → Phase} {o : DirectoryOp} {r : o.Reply} {s s' : Fleet n} {ψ : Phase}
  {e : Event n} {st : State} {now finished : ℤ} {response : Response}

/-- What a cycle comes to know by a call. -/
theorem Running.moves {startupBoundary : ℤ} (h : Running subject i start digest s φ)
    (hnext : (s.proc i).prog.next? = some o)
    (hclock : readsMonotonicNow (s.proc i).prog.next? = true → start ≤ c.reading)
    (hperform : perform subject c s.world (s.proc i) o = some (w, p, r))
    (hmoves : Moves startupBoundary (φ i) o r ψ) :
  ψ.Ready start digest
  := by
  have hready := h.ready
  generalize φ i = φi at hmoves hready
  cases hmoves with
  | stay | enable | fail | finish => exact hready
  | load l st => exact (load_spec (perform_load hperform)).2
  | time l st now =>
    refine ⟨hready, ?_⟩
    rw [hnext] at hclock
    exact le_trans (truncate_mono (hclock rfl)) (perform_truncate_le hperform)
  | request l st now config d hsome hdue =>
    obtain ⟨config, rfl, hdigest⟩ := Option.bind_eq_some_iff.mp hsome
    obtain rfl := h.profile config (perform_readConfig hperform) d hdigest
    exact ⟨hready.1, hready.2, rfl, config.digest d hdigest⟩
  | _ => trivial

/-- The lease of a process is one of the directory. -/
theorem perform_origin {φ : Phase} (hφ : φ.lease = p.lease) (hallow : Allows subject φ o)
    (h : perform subject c w p o = some (w', p', r))
    (horigin : ∀ l, p.lease = some l → l.origin = subject.origin) :
  ∀ l, p'.lease = some l → l.origin = subject.origin
  := by
  intro l hl
  cases perform_lease hφ hallow h with
  | kept hkey hissued hafter => exact horigin l (hafter ▸ hl)
  | taken token hfree hfresh hkey hissued hbefore hafter =>
    rcases hafter with hafter | hafter <;> rw [hafter] at hl <;> cases hl
    rfl
  | released l' hbefore hafter hissued hkey =>
    rw [hafter] at hl
    cases hl

theorem Running.of_effect (h : Running subject i start digest s φ) (hφ' : InPhases subject s' φ')
    (hsame : SameRun i e) (hprofile : ProfileKept digest e) (hclock : ClockFrom i start s e)
    (he : Effect subject s φ e s' φ') :
  Running subject i start digest s' φ'
  := by
  have hprofile' := he.profile hprofile h.profile
  by_cases hactor : e.actor? = some i
  · cases he with
    | tick | edit | renew => cases hactor
    | boot j reading => exact absurd (Option.some.inj hactor) hsame
    | start j kind hidle =>
      obtain rfl := Option.some.inj hactor
      obtain rfl : kind = .cycle := hsame rfl
      refine ⟨hφ', ?_, ?_, hprofile', ?_, ?_⟩ <;> simp only [Fleet.setProc, update_self]
      · rfl
      · exact h.boundary
      · rintro l ⟨⟩
      · trivial
    | exec j c o k w p r ψ hprog hallow hperform hmoves =>
      obtain rfl := Option.some.inj hactor
      have hin := h.inPhases j
      have hlease := (hφ' j).lease
      refine ⟨hφ', ?_, ?_, hprofile', ?_, ?_⟩ <;> simp only [update_self] at hlease ⊢
      · rw [hmoves.role, h.role]
      · rw [(perform_proc hperform).2, h.boundary]
      · rw [hlease]
        apply perform_origin hin.lease hallow hperform
        rw [← hin.lease]
        exact h.origin
      · apply h.moves _ (hclock rfl) hperform hmoves
        rw [hprog]
        rfl
    | observe j reading persisted now hidle hnow =>
      obtain rfl := Option.some.inj hactor
      refine ⟨hφ', h.role, ?_, hprofile', h.origin, h.ready⟩
      simp only [Fleet.setProc, update_self]
      exact h.boundary
  · obtain ⟨hproc, hphase⟩ := he.other hactor
    refine ⟨hφ', ?_, ?_, hprofile', ?_, ?_⟩
    · rw [hphase]
      exact h.role
    · rw [hproc]
      exact h.boundary
    · rw [hphase]
      exact h.origin
    · rw [hphase]
      exact h.ready

/-! ### States that give no reason for an early request -/

/-- Neither the startup nor the profile makes an operation due, or there is no deadline. -/
def Calm (start : ℤ) (digest : GoString) (st : State) : Prop :=
  startupReconciliationDue st (truncate start) = false ∧ profileChanged st (some digest) = false ∨
    st.nextAttempt ≤ 0

theorem Calm.nextAttempt_le (h : Calm start digest st) (hnow : 0 ≤ now)
    (hdue : notDue (startupReconciliationDue st (truncate start))
      (profileChanged st (some digest)) st now = false) :
  st.nextAttempt ≤ now
  := by
  rcases h with ⟨hstartup, hchanged⟩ | h
  · rw [hstartup, hchanged] at hdue
    by_cases hzero : st.nextAttempt = 0
    · omega
    · exact le_of_notDue_eq_false hdue hzero
  · omega

/-- After a success the registered profile is that of the client. -/
theorem profileChanged_applySuccess
    (hresponse : response.operation = .register ∨
      st.registered = true ∧ profileChanged st (some digest) = false) :
  profileChanged (applySuccess subject st (clientProfileDigest digest) response finished)
    (some digest) = false
  := by
  obtain ⟨operation, version⟩ := response
  simp only [profileChanged, applySuccess, Option.bind_some, Bool.true_and] at hresponse ⊢
  cases hdigest : clientProfileDigest digest with
  | none => rfl
  | some d =>
    cases operation with
    | register => simp
    | _ =>
      obtain ⟨hreg, hsame⟩ := hresponse.resolve_left (by rintro ⟨⟩)
      rw [hreg, hdigest] at hsame
      exact hsame

/-- A success that is observed at the startup or later is read back as a calm state. -/
theorem calm_of_success {st' : State}
    (hresponse : response.operation = .register ∨
      st.registered = true ∧ profileChanged st (some digest) = false)
    (hstart : truncate start ≤ finished) (hpos : 0 < unix finished)
    (hload : load (some (stateArguments
      (applySuccess subject st (clientProfileDigest digest) response finished))) = some st') :
  Calm start digest st'
  := by
  left
  obtain ⟨hreg, -, hdigest, hlast, -⟩ := load_written hload hpos
  rw [applySuccess_lastObserved] at hlast
  constructor
  · have hne : st'.lastObserved ≠ 0 := by
      have := truncate_pos hpos
      omega
    have hle : ¬ st'.lastObserved < truncate start := by
      have := truncate_mono hstart
      rw [truncate_truncate] at this
      omega
    rw [startupReconciliationDue, if_pos (.inr ⟨hne, hle⟩)]
  · rw [profileChanged_congr hreg hdigest]
    exact profileChanged_applySuccess hresponse

/-! ### The credit -/

/-- The persisted state, if it can be read, has the property. -/
def World.Reads (w : World) (P : State → Prop) : Prop := ∀ st, w.keys.load w.now = some st → P st

/-- A process in the phase has no early request left: its cycle has had one, or the persisted
state and the state it has read give no reason for one. -/
def Phase.Spent (start : ℤ) (digest : GoString) (w : World) (early : Bool) : Phase → Prop
  | .loaded _ st | .timed _ st _ | .enabled _ st _ | .broken _ st _ =>
      Calm start digest st ∧ w.Reads (fun p => p = st ∨ p.nextAttempt ≤ 0)
  | .sending _ _ now _ => early = true ∨ w.Reads (fun p => p.nextAttempt ≤ now)
  | .completed _ _ _ _ _ => True
  | _ => w.Reads (Calm start digest)

/-- What a process has read stays in force when the persisted state expires, or does not
change. -/
theorem Phase.Spent.of_load {early early' : Bool} {φ : Phase} (h : φ.Spent start digest w early)
    (hready : φ.Ready start digest) (hpos : 0 < unix start) (hearly : early = true → early' = true)
    (hload : w'.keys.load w'.now = w.keys.load w.now ∨ w'.keys.load w'.now = some State.zero) :
  φ.Spent start digest w' early'
  := by
  have hreads : ∀ P : State → Prop, P State.zero → w.Reads P → w'.Reads P := by
    intro P hzero hP st hst
    rcases hload with hload | hload <;> rw [hload] at hst
    · exact hP st hst
    · cases hst
      exact hzero
  have hcalm : Calm start digest State.zero := .inr (le_refl 0)
  cases φ with
  | loaded | timed | enabled | broken => exact ⟨h.1, hreads _ (.inr (le_refl 0)) h.2⟩
  | sending l st now d =>
    refine h.imp hearly (hreads _ ?_)
    have hstart := truncate_pos hpos
    have hnow := hready.2.1
    change (0 : ℤ) ≤ now
    omega
  | completed l st now d finished => trivial
  | _ => exact hreads _ hcalm h

theorem perform_early (h : perform subject c w p o = some (w', p', r)) (hearly : p.early = true) :
  p'.early = true
  := by
  cases performs_of_perform h with
  | send op version r => simp [hearly]
  | _ => exact hearly

/-- A call that does not write the state leaves it readable as it is. -/
theorem perform_load_eq (h : perform subject c w p o = some (w', p', r))
    (hsave : savedState (some o) = none) :
  w'.keys.load w'.now = w.keys.load w.now
  := by
  rcases perform_state h with hstate | ⟨l, st, rfl, -⟩
  · rw [Keys.load, Keys.load, hstate, perform_now h]
  · cases hsave

/-- What a replica writes at the end of a cycle leaves no reason for an early request. -/
theorem Running.spent_save {l : Lease} {st' : State} {r : Option Bool} {l' : Lease} {d : GoString}
    (h : Running subject i start digest s φ) (hpos : 0 < unix start)
    (hφ : φ i = .completed l st now d finished) (hfinished : Finished subject st d finished st')
    (hfailed : ¬ st'.Failed) (hfault : c.fault ≠ .dropped)
    (hlive : s.world.keys.live s.world.now l.value)
    (hperform : perform subject c s.world (s.proc i) (.saveOwned l st') = some (w, p, r)) :
  (Phase.closing l').Spent start digest w p.early
  := by
  have horigin := h.origin l
  have hready := h.ready
  have htimed := (h.inPhases i).timed
  rw [hφ] at horigin hready htimed
  obtain ⟨hvalid, hstart, rfl, hdigest⟩ := hready
  cases performs_of_perform hperform with
  | saveOwned =>
    intro st'' hload
    cases hfinished with
    | failure e => exact absurd (applyFailure_failed st finished e) hfailed
    | success response hresponse =>
      have hstate : validateState
          (applySuccess subject st (clientProfileDigest d) response finished) = true :=
        validateState_applySuccess response finished hvalid hdigest
      have hwritten := Keys.saveOwned_valid (horigin rfl) subject.nonempty hstate hlive
      rw [Fault.keys, if_neg hfault, Keys.load_set hwritten] at hload
      have hle : truncate start ≤ finished := le_trans hstart htimed.2.1
      have hpos' : 0 < unix finished := by
        have := unix_mono hle
        rw [unix_truncate] at this
        omega
      exact calm_of_success hresponse hle hpos' hload

/-- A replica whose calls are successful and take effect has no early request left after a
call if it had none before. -/
theorem Running.spent_call (h : Running subject i start digest s φ) (hpos : 0 < unix start)
    (hnext : (s.proc i).prog.next? = some o) (hsucceeds : Succeeds i s (.exec i c))
    (hpersists : Persists i s (.exec i c)) (hallow : Allows subject (φ i) o)
    (hperform : perform subject c s.world (s.proc i) o = some (w, p, r))
    (hmoves : Moves (s.proc i).startupBoundary (φ i) o r ψ)
    (hspent : (φ i).Spent start digest s.world (s.proc i).early) :
  ψ.Spent start digest w p.early
  := by
  have hsucceeds := hsucceeds rfl
  obtain ⟨hflag, hlanded⟩ := hpersists rfl
  rw [hnext] at hsucceeds hflag hlanded
  have hzero : (0 : ℤ) ≤ truncate start := le_of_lt (truncate_pos hpos)
  have hboundary := h.boundary
  have hready := h.ready
  have hrole := h.role
  have hreads : ∀ P : State → Prop, savedState (some o) = none → s.world.Reads P → w.Reads P := by
    intro P hsave hP st hst
    rw [perform_load_eq hperform hsave] at hst
    exact hP st hst
  -- the state that was read is in force when the cycle ends without a request
  have hclosed : ∀ st, savedState (some o) = none → Calm start digest st →
      s.world.Reads (fun p => p = st ∨ p.nextAttempt ≤ 0) → w.Reads (Calm start digest) := by
    intro st hsave hcalm hread
    refine hreads _ hsave ?_
    intro st' hst'
    rcases hread st' hst' with rfl | hle
    · exact hcalm
    · exact .inr hle
  generalize hi : φ i = φi at hmoves hspent hallow hready hrole
  cases hmoves with
  | stay _ _ _ hsave hrelease =>
    refine hspent.of_load hready hpos (perform_early hperform) (.inl ?_)
    apply perform_load_eq hperform
    cases o with
    | saveOwned l st => exact absurd hrole (hsave l st rfl)
    | _ => rfl
  | load l st =>
    have hst := perform_load hperform
    refine ⟨hspent st hst, hreads _ rfl ?_⟩
    intro st' hst'
    exact .inl (Option.some.inj (hst'.symm.trans hst))
  | time | enable | fail => exact ⟨hspent.1, hreads _ rfl hspent.2⟩
  | disabled l st now config | defer l st now config => exact hclosed st rfl hspent.1 hspent.2
  | request l st now config d hsome hdue =>
    right
    obtain ⟨hvalid, hnow⟩ := hready
    obtain ⟨config, rfl, hdigest⟩ := Option.bind_eq_some_iff.mp hsome
    obtain rfl := h.profile config (perform_readConfig hperform) d hdigest
    refine hreads _ rfl ?_
    intro st' hst'
    rcases hspent.2 st' hst' with rfl | hle
    · rw [hboundary] at hdue
      exact hspent.1.nextAttempt_le (by omega) hdue
    · omega
  | saveBroken l st now st' r =>
    cases hallow with
    | saveBroken => exact absurd (applyFailure_failed st now _) (hsucceeds _ rfl)
  | lost l st now d =>
    cases performs_of_perform hperform with
    | leaseLost _ hr =>
      rw [hflag rfl] at hr
      cases hr
  | cancel l st now d =>
    cases performs_of_perform hperform with
    | cancelled _ hr =>
      rw [hflag rfl] at hr
      cases hr
  | finish l st now d finished => trivial
  | save l st now d finished st' r =>
    cases hallow with
    | save _ _ _ _ _ _ hfinished =>
      obtain ⟨hfault, hlive⟩ := hlanded _ rfl
      exact h.spent_save hpos hi hfinished (hsucceeds _ rfl) hfault hlive hperform
  | _ => exact hreads _ rfl hspent

/-- A step in which no call writes the state leaves it as it is, or lets it expire. -/
theorem Effect.load (he : Effect subject s φ e s' φ')
    (hsave : ∀ j c, e = .exec j c → savedState (s.proc j).prog.next? = none) :
  s'.world.keys.load s'.world.now = s.world.keys.load s.world.now ∨
    s'.world.keys.load s'.world.now = some State.zero
  := by
  cases he with
  | tick d =>
    have hle : s.world.now ≤ s.world.now + d := by omega
    exact s.world.keys.load_later hle
  | exec j c o k w p r ψ hprog hallow hperform hmoves =>
    have hnone := hsave j c rfl
    rw [hprog] at hnone
    exact .inl (perform_load_eq hperform hnone)
  | renew j l hl =>
    left
    have hstate : (s.world.keys.renew s.world.now leaseTTL l).1.state = s.world.keys.state := by
      unfold Keys.renew
      split <;> rfl
    rw [Keys.load, Keys.load, hstate]
  | edit | boot | start | observe => exact .inl rfl

theorem Running.spent_effect (h : Running subject i start digest s φ) (hpos : 0 < unix start)
    (hsame : SameRun i e) (honly : OnlyWriter i s e) (hsucceeds : Succeeds i s e)
    (hpersists : Persists i s e) (he : Effect subject s φ e s' φ')
    (hspent : (φ i).Spent start digest s.world (s.proc i).early) :
  (φ' i).Spent start digest s'.world (s'.proc i).early
  := by
  by_cases hactor : e.actor? = some i
  · cases he with
    | tick | edit | renew => cases hactor
    | boot j reading => exact absurd (Option.some.inj hactor) hsame
    | start j kind hidle =>
      obtain rfl := Option.some.inj hactor
      simp only [Fleet.setProc, update_self]
      generalize φ j = φj at hidle hspent
      cases φj with
      | outside | waiting | alone => exact hspent
      | _ => cases hidle
    | exec j c o k w p r ψ hprog hallow hperform hmoves =>
      obtain rfl := Option.some.inj hactor
      simp only [update_self]
      refine h.spent_call hpos ?_ hsucceeds hpersists hallow hperform hmoves hspent
      rw [hprog]
      rfl
    | observe j reading persisted now hidle hnow =>
      obtain rfl := Option.some.inj hactor
      simp only [Fleet.setProc, update_self]
      exact hspent
  · obtain ⟨hproc, hphase⟩ := he.other hactor
    rw [hproc, hphase]
    apply hspent.of_load h.ready hpos id
    apply he.load
    rintro j c rfl
    apply honly
    rintro rfl
    exact hactor rfl

/-- A process without an early request left starts none. -/
theorem Running.not_startsEarly (h : Running subject i start digest s φ)
    (hspent : (φ i).Spent start digest s.world (s.proc i).early) :
  startsEarly i s e = false
  := by
  by_contra hearly
  rw [Bool.not_eq_false] at hearly
  cases e with
  | exec j c =>
    simp only [startsEarly, Bool.and_eq_true, Bool.not_eq_true'] at hearly
    obtain ⟨⟨⟨-, hrequests⟩, hfirst⟩, hahead⟩ := hearly
    have hin := h.inPhases i
    have htimed := hin.timed
    obtain ⟨l, st, now, d, hi⟩ := hin.sending (hin.role ▸ h.role) hrequests
    rw [hi] at hspent htimed
    simp only [World.deadlineAhead, Option.any_eq_true, decide_eq_true_eq] at hahead
    obtain ⟨st', hst', hlt⟩ := hahead
    have hle : st'.nextAttempt ≤ now := (hspent.resolve_left (by rw [hfirst]; decide)) st' hst'
    rw [← htimed.2] at hlt
    omega
  | _ => cases hearly

/-- The first early request of a cycle is the last one. -/
theorem Running.spent_of_startsEarly (h : Running subject i start digest s φ)
    (hearly : startsEarly i s e = true) (he : Effect subject s φ e s' φ') :
  (φ' i).Spent start digest s'.world (s'.proc i).early
  := by
  cases he with
  | exec j c o k w p r ψ hprog hallow hperform hmoves =>
    simp only [startsEarly, Bool.and_eq_true, decide_eq_true_eq] at hearly
    obtain ⟨⟨⟨rfl, hrequests⟩, -⟩, hahead⟩ := hearly
    obtain ⟨op, version, hnext, hop⟩ := Proc.exists_send hrequests
    have hin := h.inPhases j
    obtain ⟨l, st, now, d, hj⟩ := hin.sending (hin.role ▸ h.role) hrequests
    rw [hprog] at hnext
    cases hnext
    rw [hj] at hmoves
    simp only [update_self]
    cases hmoves with
    | stay =>
      left
      cases performs_of_perform hperform with
      | send => simp [hop, hahead]
  | _ => cases hearly

/-- The process at the start of its call of `Run`. -/
theorem running_boot (hφ : InPhases subject s φ) (hprofile : ProfileIs digest s'.world.file)
    (h : step subject s (.boot i start) = some s') :
  ∃ φ', Running subject i start digest s' φ'
  := by
  obtain ⟨φ', he, hφ'⟩ := step_effect hφ h
  use φ'
  cases he with
  | boot _ _ =>
    refine ⟨hφ', ?_, ?_, hprofile, ?_, ?_⟩ <;> simp only [Fleet.setProc, update_self]
    · rfl
    · rfl
    · rintro l ⟨⟩
    · trivial

/-- The process has credit for an early request, or needs none. -/
def EarlyCredit (subject : Subject) (i : Fin n) (start : ℤ) (digest : GoString) (s : Fleet n)
    (credit : ℕ) : Prop :=
  ∃ φ, Running subject i start digest s φ ∧
    (1 ≤ credit ∨ (φ i).Spent start digest s.world (s.proc i).early)

/-- An early request uses up the credit, and no step gives it back. -/
theorem EarlyCredit.step {credit : ℕ} (h : EarlyCredit subject i start digest s credit)
    (hpos : 0 < unix start)
    (hcond : SameRun i e ∧ OnlyWriter i s e ∧ ProfileKept digest e ∧ Succeeds i s e ∧
      Persists i s e ∧ ClockFrom i start s e) (he : Directory.step subject s e = some s') :
  ∃ m, EarlyCredit subject i start digest s' m ∧ m + (if startsEarly i s e then 1 else 0) ≤ credit
  := by
  obtain ⟨φ, hφ, hcredit⟩ := h
  obtain ⟨hsame, honly, hkept, hsucceeds, hpersists, hclock⟩ := hcond
  obtain ⟨φ', heffect, hinPhases⟩ := step_effect hφ.inPhases he
  have hφ' := hφ.of_effect hinPhases hsame hkept hclock heffect
  by_cases hearly : startsEarly i s e = true
  · -- the credit is used
    have hone : 1 ≤ credit := by
      apply hcredit.resolve_right
      intro hspent
      rw [hφ.not_startsEarly hspent] at hearly
      cases hearly
    refine ⟨0, ⟨φ', hφ', .inr (hφ.spent_of_startsEarly hearly heffect)⟩, ?_⟩
    rw [if_pos hearly]
    omega
  · refine ⟨credit, ⟨φ', hφ', ?_⟩, by rw [if_neg hearly]; omega⟩
    apply hcredit.imp_right
    exact hφ.spent_effect hpos hsame honly hsucceeds hpersists heffect

/-- Any number of processes, of which `i` is in a call of `Run` that was started when its clock
read `start`, a second or more after the epoch. Its profile is not changed, its operations are
successful and persisted, and no other process writes the state. Then at most one cycle of
the call starts its requests before the persisted deadline, in every run in which no reading
of the clock is before `start`. -/
theorem startup_early_once (subject : Subject) {init s t : Fleet n} {es es' : List (Event n)}
    {i : Fin n} {start : ℤ} {digest : GoString} (hinit : Idle init)
    (hrun : run (step subject) init (es ++ [.boot i start]) = some s) (hepoch : 0 < unix start)
    (hprofile : ProfileIs digest s.world.file) (hrun' : run (step subject) s es' = some t)
    (hcond : Meets (step subject)
      (fun s e => SameRun i e ∧ OnlyWriter i s e ∧ ProfileKept digest e ∧ Succeeds i s e ∧
        Persists i s e ∧ ClockFrom i start s e) s es') :
  countSteps (step subject) (startsEarly i) s es' ≤ 1
  := by
  obtain ⟨u, hbefore, hboot⟩ := run_append_eq_some.mp hrun
  obtain ⟨φu, hu⟩ := run_inPhases hinit hbefore
  obtain ⟨s', hboot, hs'⟩ := run_cons_eq_some.mp hboot
  obtain rfl := Option.some.inj hs'
  obtain ⟨φ, hφ⟩ := running_boot hu hprofile hboot
  obtain ⟨m, -, hle⟩ : ∃ m, EarlyCredit subject i start digest t m ∧
      countSteps (step subject) (startsEarly i) s' es' + m ≤ 1 := by
    apply countSteps_le_of_credit _ ⟨φ, hφ, .inl le_rfl⟩ hcond hrun'
    intro s e s' credit h hC he
    exact h.step hepoch hC he
  omega

/-- The state of a relay that was registered with the configured profile, a day before its next
heartbeat. -/
def settledState : State := { staleState with profileDigest := configuredDigest }

/-- Its replica is started. -/
def settledInit : Fleet 1 :=
  replica (Redis.Cell.set 0 stateRetention (stateArguments settledState))

def settledReplica : Fleet 1 :=
  (run (step relaySubject) settledInit [.boot 0 (ofUnix 1700000000)]).get rfl

/-- Two cycles, by a clock that reads the given seconds. -/
def twoCycles (seconds : ℤ) (count : ℕ) : List (Event 1) :=
  [.start 0 .cycle] ++ calls 0 seconds (lit "first") 16 ++ [.start 0 .cycle] ++
    calls 0 seconds (lit "second") count

/-- The heartbeat at the startup is early, and the next cycle starts none. -/
theorem startup_early_once_settled :
  countSteps (step relaySubject) (startsEarly 0) settledReplica (twoCycles 1700000000 4) = 1
  := by
  have hrun := (Option.some_get
    (x := run (step relaySubject) settledInit ([] ++ [.boot 0 (ofUnix 1700000000)])) rfl).symm
  have hrun' := (Option.some_get
    (x := run (step relaySubject) settledReplica (twoCycles 1700000000 4)) rfl).symm
  have hprofile : ProfileIs configuredDigest settledReplica.world.file := by decide
  have hcond : Meets (step relaySubject)
      (fun s e => SameRun 0 e ∧ OnlyWriter 0 s e ∧ ProfileKept configuredDigest e ∧
        Succeeds 0 s e ∧ Persists 0 s e ∧ ClockFrom 0 (ofUnix 1700000000) s e)
      settledReplica (twoCycles 1700000000 4) := by decide
  apply le_antisymm
  · exact startup_early_once relaySubject (replica_replicas _).1 hrun (by decide) hprofile hrun'
      hcond
  · decide

/-- After a step of the clock to a thousand seconds before the startup, every cycle is
early. -/
theorem startup_early_twice :
  ∃ t, run (step relaySubject) settledInit [.boot 0 (ofUnix 1700000000)] = some settledReplica ∧
    ProfileIs configuredDigest settledReplica.world.file ∧
    run (step relaySubject) settledReplica (twoCycles 1699999000 16) = some t ∧
    Meets (step relaySubject)
      (fun s e => SameRun 0 e ∧ OnlyWriter 0 s e ∧ ProfileKept configuredDigest e ∧
        Succeeds 0 s e ∧ Persists 0 s e)
      settledReplica (twoCycles 1699999000 16) ∧
    countSteps (step relaySubject) (startsEarly 0) settledReplica (twoCycles 1699999000 16) = 2
  := by
  exact ⟨_, rfl, by decide, rfl, by decide, by decide⟩

end Directory
