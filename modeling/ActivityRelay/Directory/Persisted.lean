import ActivityRelay.Directory.Writers

/-!
# States that are written can be read

From an empty store, every state that the scheduler or a command passes to `SaveOwned` is valid,
and `Load` returns it in whole seconds. So no run leaves a state that keeps later cycles or
commands from loading it.

The times of a state come from clocks that are read a second or more after the epoch. A time before
that would be written as zero, which is read as no time, or as a negative number, which is not read
at all.
-/

namespace Directory

open GoString GoTime Interaction Option Transition

variable {subject : Subject} {n : ℕ} {t : ℤ}

/-! ### Times -/

/-- A time with room for a day and its jitter in the 64 bits of Go's seconds. -/
def WithinReach (t : ℤ) : Prop := unix t + 26 * 60 * 60 < 2 ^ 63

/-- A second or more after the epoch, and within reach. -/
def Readable (t : ℤ) : Prop := 0 < unix t ∧ WithinReach t

/-- A time that is written and read back in whole seconds. -/
def Writable (t : ℤ) : Prop := t = 0 ∨ 0 < unix t ∧ unix t < 2 ^ 63

/-- No time, or one that was read from a clock. -/
def Seen (t : ℤ) : Prop := t = 0 ∨ Readable t

instance (t : ℤ) : Decidable (WithinReach t) := inferInstanceAs (Decidable (_ < _))

instance (t : ℤ) : Decidable (Readable t) := inferInstanceAs (Decidable (_ ∧ _))

theorem Seen.writable (h : Seen t) :
  Writable t
  := by
  obtain rfl | ⟨hpos, hreach⟩ := h
  · exact .inl rfl
  · right
    unfold WithinReach at hreach
    omega

theorem parseTime_unixString_of_writable (h : Writable t) :
  parseTime (unixString t) = some (truncate t)
  := by
  obtain rfl | ⟨hpos, hfits⟩ := h
  · rfl
  · have hne : t ≠ 0 := ne_zero_of_unix_pos hpos
    obtain ⟨htext, htext'⟩ := formatInt_ne_zero (show unix t ≠ 0 by omega)
    rw [unixString, if_neg hne, parseTime, if_neg (by simp [htext, htext']),
      parseInt_formatInt (by omega), if_pos hfits, bind_some, if_neg (by omega), ofUnix_unix]

theorem Readable.truncate {t : ℤ} (h : Readable t) :
  Readable (truncate t)
  := by
  unfold Readable WithinReach at *
  rw [unix_truncate]
  exact h

theorem Seen.truncate (h : Seen t) :
  Seen (truncate t)
  := by
  obtain rfl | h := h
  · exact .inl rfl
  · exact .inr h.truncate

theorem Writable.truncate {t : ℤ} (h : Writable t) :
  Writable (truncate t)
  := by
  obtain rfl | h := h
  · exact .inl rfl
  · right
    rw [unix_truncate]
    exact h

/-- The later one of a time that was read and of one within reach. -/
theorem Readable.max {t u : ℤ} (ht : Readable t) (hu : WithinReach u) :
  Readable (max t u)
  := by
  constructor
  · exact lt_of_lt_of_le ht.1 (unix_mono (le_max_left t u))
  · rcases le_total t u with hle | hle
    · rw [max_eq_right hle]
      exact hu
    · rw [max_eq_left hle]
      exact ht.2

theorem Seen.withinReach (h : Seen t) :
  WithinReach t
  := by
  obtain rfl | h := h
  · unfold WithinReach
    decide
  · exact h.2

theorem heartbeatInterval_le :
  heartbeatInterval subject ≤ 26 * hour
  := by
  have hrange : (maximumStableJitter / second).toNat + 1 = 7201 := by decide
  unfold heartbeatInterval stableJitter
  rw [hrange]
  unfold nominalHeartbeatInterval hour minute second
  omega

/-- A deadline within a day and its jitter after a time that was read can be written. -/
theorem writable_add {d : ℤ} (ht : Readable t) (hd : 0 ≤ d) (hle : d ≤ 26 * hour) :
  Writable (t + d)
  := by
  right
  obtain ⟨hpos, hreach⟩ := ht
  unfold WithinReach at hreach
  unfold unix second at *
  unfold hour minute second at hle
  omega

theorem writable_nextHeartbeatAttempt (ht : Readable t) :
  Writable (nextHeartbeatAttempt subject t)
  := by
  unfold nextHeartbeatAttempt
  split
  · exact .inl rfl
  · apply writable_add ht.truncate
    · have hle : nominalHeartbeatInterval ≤ heartbeatInterval subject := nominal_le_heartbeatInterval
      unfold heartbeatInterval at hle
      have hpos : 0 ≤ nominalHeartbeatInterval := by decide
      omega
    · exact heartbeatInterval_le

/-! ### States -/

/-- A state in whole seconds. -/
def State.truncated (st : State) : State :=
  { st with
    lastSuccess := truncate st.lastSuccess
    nextAttempt := truncate st.nextAttempt
    lastObserved := truncate st.lastObserved }

/-- A state that can be written and read back. -/
structure State.Sound (st : State) : Prop where
  valid : validateState st = true
  lastSuccess : Seen st.lastSuccess
  nextAttempt : Writable st.nextAttempt
  lastObserved : Seen st.lastObserved

variable {st : State} {digest : GoString} {now : ℤ} {c : Choice}

theorem State.Sound.truncated (h : st.Sound) :
  st.truncated.Sound
  := ⟨h.valid, h.lastSuccess.truncate, h.nextAttempt.truncate, h.lastObserved.truncate⟩

theorem State.zero_sound :
  State.zero.Sound
  := ⟨rfl, .inl rfl, .inl rfl, .inl rfl⟩

theorem validateState_iff :
  validateState st = true ↔
    0 ≤ st.attempt ∧ st.attempt ≤ 16 ∧
      validProfileState st.profileDigest st.profileProtocolVersion = true
  := by
  unfold validateState maximumAttempt
  simp only [Bool.and_eq_true, decide_eq_true_eq, and_assoc]

theorem protocolVersion_of_valid {version : ℤ} (h : validProfileState digest version = true) :
  0 ≤ version ∧ version ≤ 3
  := by
  unfold validProfileState at h
  split at h
  · simp only [decide_eq_true_eq] at h
    omega
  · simp only [Bool.and_eq_true, Bool.or_eq_true, decide_eq_true_eq] at h
    omega

theorem parseSmall_formatInt (bound : ℕ) {v : ℤ} (hbound : bound < 256) (hlow : 0 ≤ v)
    (hhigh : v ≤ bound) :
  parseSmall bound (formatInt v) = some v
  := by
  have hnat : v.natAbs < 2 ^ 8 := by omega
  have hle : v.natAbs ≤ bound := by omega
  rw [formatInt, if_neg (by omega), parseSmall, if_neg (formatNat_ne_nil _), parseUint_formatNat,
    if_pos hnat, filter_some, if_pos (decide_eq_true hle), map_some,
    Option.some.injEq]
  omega

/-- A state that was written is read back in whole seconds. -/
theorem State.Sound.load (h : st.Sound) :
  load (some (stateArguments st)) = some st.truncated
  := by
  obtain ⟨hlow, hhigh, hprofile⟩ := validateState_iff.mp h.valid
  obtain ⟨hversion, hversion'⟩ := protocolVersion_of_valid hprofile
  have hregistered : ¬ ((stateArguments st).registered ≠ lit "0" ∧
      (stateArguments st).registered ≠ lit "1") := by
    have hcases : ∀ b : Bool, ¬ ((if b then lit "1" else lit "0") ≠ lit "0" ∧
        (if b then lit "1" else lit "0") ≠ lit "1") := by decide
    exact hcases st.registered
  have hflag : ∀ b : Bool, decide ((if b then lit "1" else lit "0") = lit "1") = b := by decide
  rw [Directory.load, if_neg hregistered]
  simp only [stateArguments, parseTime_unixString_of_writable h.lastSuccess.writable,
    parseTime_unixString_of_writable h.nextAttempt,
    parseTime_unixString_of_writable h.lastObserved.writable,
    parseSmall_formatInt 16 (by decide) hlow hhigh,
    parseSmall_formatInt 3 (by decide) hversion hversion',
    LastOutcome.parse_string, Diagnostic.parse_string, bind_eq_bind, bind_some,
    hprofile, if_true]
  congr 2
  exact hflag st.registered

/-! ### What is written is sound -/

section Written

variable {st : State} {now : ℤ}

theorem retryDelay_nonneg (attempt : ℤ) :
  0 ≤ retryDelay subject attempt
  := by
  have hpow : 0 < (2 : ℤ) ^ (max attempt 1 - 1).toNat := Int.pow_pos (by decide)
  have hbase : 0 ≤ min (initialRetry * 2 ^ (max attempt 1 - 1).toNat) maximumLocalRetry := by
    have hinitial : 0 < initialRetry := by decide
    have hmaximum : 0 ≤ maximumLocalRetry := by decide
    have := mul_pos hinitial hpow
    omega
  simp only [retryDelay]
  split
  · exact hbase
  · have hmaximum : 0 ≤ maximumLocalRetry := by decide
    have hsecond : 0 ≤ second := by decide
    apply le_min _ hmaximum
    apply add_nonneg hbase
    apply mul_nonneg _ hsecond
    omega

theorem sound_applyFailure (hst : st.Sound) (hnow : Readable now) (e : ClientError) :
  (applyFailure subject st now e).Sound
  := by
  obtain ⟨hlow, hhigh, hprofile⟩ := validateState_iff.mp hst.valid
  simp only [applyFailure]
  split
  · refine ⟨?_, hst.lastSuccess, writable_nextHeartbeatAttempt hnow, .inr hnow⟩
    rw [validateState_iff]
    exact ⟨le_refl 0, (by decide : (0 : ℤ) ≤ 16), hprofile⟩
  · refine ⟨?_, hst.lastSuccess, ?_, .inr hnow⟩
    · rw [validateState_iff]
      refine ⟨?_, min_le_right _ _, hprofile⟩
      dsimp only
      unfold maximumAttempt
      omega
    · dsimp only
      apply writable_add hnow
      · have hdelay : 0 ≤ retryDelay subject (min (st.attempt + 1) maximumAttempt) :=
          retryDelay_nonneg _
        have hmax : 0 ≤ maximumRetryAfter := by decide
        omega
      · have hmax : maximumRetryAfter ≤ 26 * hour := by decide
        omega

theorem sound_applySuccess (hst : st.Sound) (hnow : Readable now) (hdigest : ClientDigest digest)
    (response : Response) :
  (applySuccess subject st (clientProfileDigest digest) response now).Sound
  := by
  have hprofile := (validateState_iff.mp hst.valid).2.2
  have hvalid : validateState
      (applySuccess subject st (clientProfileDigest digest) response now) = true :=
    validateState_applySuccess response now hprofile hdigest
  exact ⟨hvalid, .inr hnow, writable_nextHeartbeatAttempt hnow, .inr hnow⟩

theorem sound_commandSuccess (hst : st.Sound) (hnow : Readable now) (hdigest : ClientDigest digest)
    {response : Response} (hlength : response.operation = .register → digest.length = 64) :
  (commandSuccess subject st response digest now).Sound
  := by
  have hcompleted : Readable (max (max (truncate now) st.lastObserved) st.lastSuccess) :=
    (hnow.truncate.max hst.lastObserved.withinReach).max hst.lastSuccess.withinReach
  refine ⟨?_, .inr hcompleted, writable_nextHeartbeatAttempt hcompleted, .inr hcompleted⟩
  rw [validateState_iff]
  refine ⟨le_refl 0, (by decide : (0 : ℤ) ≤ 16), ?_⟩
  simp only [commandSuccess]
  split
  · rename_i hregister
    have hlong := hlength hregister
    obtain rfl | ⟨-, hhex⟩ := hdigest
    · cases hlong
    · have hne : digest ≠ [] := by
        rintro rfl
        cases hlong
      rw [validProfileState, if_neg hne, hhex, hlong]
      cases response.protocolVersion <;> rfl
  · exact (validateState_iff.mp hst.valid).2.2

/-- What a process writes that has loaded a sound state and has read its clock is sound. -/
theorem Written.sound {role : Role} {st' : State} (hwritten : Written subject st now role st')
    (hst : st.Sound) (hnow : Readable now) :
  st'.Sound
  := by
  cases hwritten with
  | failure e => apply sound_applyFailure hst hnow
  | success digest response hdigest => apply sound_applySuccess hst hnow hdigest
  | command digest response hdigest hlength => apply sound_commandSuccess hst hnow hdigest hlength
  | suppressed registered => exact ⟨hst.valid, hst.lastSuccess, .inl rfl, .inr hnow⟩

end Written

/-! ### Runs -/

/-- The clock is read a second or more after the epoch. A process that reads it for another
directory has a time of the state of that directory, too. -/
def ReadableClocks (s : Fleet n) : Event n → Prop
  | .exec i c =>
      readsMonotonicNow (s.proc i).prog.next? = true ∨ (s.proc i).prog.next? = some .clock →
        Readable c.reading
  | .observe _ reading persisted => Readable reading ∧ WithinReach persisted
  | _ => True

/-- The hash of the directory is one that was written for a sound state. -/
def SoundHash (k : Keys) : Prop :=
  ∀ now h, k.state.get now = some h → ∃ st : State, st.Sound ∧ h = stateArguments st

/-- What a process has read is sound. -/
structure Writing.Sound (φ : Writing) : Prop where
  state : ∀ st ∈ φ.state, st.Sound
  time : ∀ role l st now, φ = .timed role l st now → Readable now

structure SoundRun (subject : Subject) (s : Fleet n) (φ : Fin n → Writing) : Prop where
  writesIn : ∀ i, (s.proc i).WritesIn subject (φ i)
  phase : ∀ i, (φ i).Sound
  latch : ∀ i, WithinReach (s.proc i).lastNow
  hash : SoundHash s.world.keys

theorem SoundHash.load {k : Keys} (h : SoundHash k) (now : ℤ) :
  ∃ st : State, st.Sound ∧ k.load now = some st
  := by
  unfold Keys.load
  cases hhash : k.state.get now with
  | none => exact ⟨.zero, State.zero_sound, rfl⟩
  | some values =>
    obtain ⟨st, hst, rfl⟩ := h now values hhash
    exact ⟨st.truncated, hst.truncated, hst.load⟩

theorem SoundHash.set {k : Keys} (hst : st.Sound)
    (h : k.state = Redis.Cell.set now stateRetention (stateArguments st)) :
  SoundHash k
  := by
  intro later values hvalues
  rw [h] at hvalues
  obtain ⟨t, hcell, -⟩ := Redis.Cell.get_eq_some.mp hvalues
  have hentry := Option.some.inj hcell
  exact ⟨st, hst, (congrArg Redis.Entry.value hentry).symm⟩

/-- A monotonic time is a time that was read. -/
theorem readable_monotonicNow {p : Proc} {persisted r : ℤ} (hreading : Readable c.reading)
    (hlatch : WithinReach p.lastNow) (hpersisted : WithinReach persisted)
    (hr : r = max (max (truncate c.reading) p.lastNow) persisted) :
  Readable r
  := by
  rw [hr]
  exact (hreading.truncate.max hlatch).max hpersisted

variable {φ : Writing} {l : Lease}

theorem Writing.Sound.of_state {ψ : Writing} (hφ : φ.Sound) (hstate : ψ.state = φ.state)
    (htime : ∀ role l st now, ψ ≠ .timed role l st now) :
  ψ.Sound
  := by
  constructor
  · rw [hstate]
    exact hφ.state
  · intro role l st now hψ
    exact absurd hψ (htime role l st now)

theorem Writing.sound_of_state (hstate : φ.state = some st) (hst : st.Sound)
    (htime : ∀ role l st now, φ ≠ .timed role l st now) :
  φ.Sound
  := by
  constructor
  · rw [hstate]
    rintro st' ⟨⟩
    exact hst
  · intro role l st now hφ
    exact absurd hφ (htime role l st now)

theorem Writing.sound_of_no_state (h : φ.state = none) :
  φ.Sound
  := by
  constructor
  · rw [h]
    rintro st ⟨⟩
  · rintro role l st now rfl
    cases h

theorem Writing.Sound.timed (hφ : φ.Sound) {role : Role} (hstate : φ.state = some st)
    (hnow : Readable now) :
  (Writing.timed role l st now).Sound
  := by
  constructor
  · rintro st' ⟨⟩
    apply hφ.state st hstate
  · rintro role l st now ⟨⟩
    exact hnow

variable {φ : Fin n → Writing} {i : Fin n} {s : Fleet n} {o : DirectoryOp}

/-- What a process knows after a call is sound. -/
theorem SoundRun.call (h : SoundRun subject s φ) {w : World} {p : Proc} {r : o.Reply}
    (hallow : Writes subject (φ i) o) (hperforms : Performs subject c s.world (s.proc i) o w p r)
    (hclock : readsMonotonicNow (some o) = true ∨ o = .clock → Readable c.reading) :
  (nextWriting (φ i) o r).Sound ∧ WithinReach p.lastNow
  := by
  have hphase := h.phase i
  have hlatch := h.latch i
  have hload : ∀ st, some st = c.fault.answer (s.world.keys.load s.world.now) → st.Sound := by
    intro st hst
    obtain ⟨st₀, hsound, heq⟩ := h.hash.load s.world.now
    rw [Fault.eq_of_answer hst] at heq
    cases heq
    exact hsound
  generalize φ i = φi at hallow hphase
  cases hallow with
  | neutral _ _ hneutral =>
    rw [nextWriting_neutral hneutral]
    refine ⟨hphase, ?_⟩
    cases hperforms with
    | monotonicNow => exact hneutral.elim
    | _ => exact hlatch
  | preview | load =>
    cases hperforms with
    | load r hr =>
      refine ⟨?_, hlatch⟩
      rcases r with _ | st
      · exact hphase
      · exact Writing.sound_of_state rfl (hload st hr) (by rintro _ _ _ _ ⟨⟩)
  | clock st =>
    cases hperforms with
    | monotonicNow _ r hr =>
      have hst := hphase.state st rfl
      exact ⟨hphase, (readable_monotonicNow (hclock (.inl rfl)) hlatch
        hst.lastObserved.withinReach hr).2⟩
  | acquire st =>
    cases hperforms with
    | acquire r =>
      refine ⟨?_, hlatch⟩
      rcases r with _ | _ | l
      · exact hphase
      · exact hphase
      · exact Writing.sound_of_no_state rfl
  | acquireCommand role =>
    cases hperforms with
    | acquire r =>
      refine ⟨?_, hlatch⟩
      rcases r with _ | _ | l <;> exact Writing.sound_of_no_state rfl
  | time l st | finish l st now =>
    cases hperforms with
    | monotonicNow _ r hr =>
      have hreadable := readable_monotonicNow (hclock (.inl rfl)) hlatch
        (hphase.state st rfl).lastObserved.withinReach hr
      exact ⟨hphase.timed rfl hreadable, hreadable.2⟩
  | read role l st hrole =>
    cases hperforms with
    | clock r hr =>
      subst hr
      exact ⟨hphase.timed rfl (hclock (.inr rfl)), hlatch⟩
  | save role l st now st' hwritten =>
    cases hperforms with
    | saveOwned =>
      refine ⟨?_, hlatch⟩
      cases role with
      | unregister => exact hphase.of_state rfl (by rintro _ _ _ _ ⟨⟩)
      | _ => exact Writing.sound_of_no_state rfl
  | release _ l hl =>
    cases hperforms with
    | release =>
      rw [nextWriting_release]
      exact ⟨Writing.sound_of_no_state rfl, hlatch⟩

/-- The state of a call of `SaveOwned` is sound. -/
theorem SoundRun.saved (h : SoundRun subject s φ)
    (hallow : Writes subject (φ i) (.saveOwned l st)) :
  st.Sound
  := by
  have hphase := h.phase i
  generalize φ i = φi at hallow hphase
  cases hallow with
  | neutral _ _ hneutral => exact hneutral.elim
  | save role l st₀ now st hwritten =>
    exact hwritten.sound (hphase.state st₀ rfl) (hphase.time role l st₀ now rfl)

/-- Soundness is kept if the clocks that are read are readable. -/
theorem SoundRun.step {s' : Fleet n} {e : Event n} (h : SoundRun subject s φ)
    (hclocks : ReadableClocks s e) (he : Directory.step subject s e = some s') :
  ∃ φ', SoundRun subject s' φ'
  := by
  obtain ⟨φ', heffect, hwrites⟩ := step_writing h.writesIn he
  use φ'
  cases heffect with
  | other _ _ hcall hstate hlatch =>
    refine ⟨hwrites, h.phase, ?_, ?_⟩
    · intro i
      obtain hsame | ⟨reading, persisted, rfl, hnow⟩ := hlatch i
      · rw [hsame]
        exact h.latch i
      · obtain ⟨hreading, hpersisted⟩ := hclocks
        rw [hnow]
        exact ((hreading.truncate.max (h.latch i)).max hpersisted).2
    · intro now values hvalues
      rw [hstate] at hvalues
      exact h.hash now values hvalues
  | job _ i role p hcall hlatch =>
    refine ⟨hwrites, ?_, ?_, h.hash⟩
    · apply (Function.forall_update_iff φ (fun _ ψ => ψ.Sound)).mpr
      exact ⟨Writing.sound_of_no_state rfl, fun j _ => h.phase j⟩
    · apply (Function.forall_update_iff s.proc (fun _ p => WithinReach p.lastNow)).mpr
      refine ⟨?_, fun j _ => h.latch j⟩
      obtain hsame | hzero := hlatch
      · rw [hsame]
        exact h.latch i
      · rw [hzero]
        decide
  | call i c o w p r k hprog hallow hperform =>
    have hnext : (s.proc i).prog.next? = some o := by
      rw [hprog]
      rfl
    have hclock : readsMonotonicNow (some o) = true ∨ o = .clock → Readable c.reading := by
      intro hreads
      apply hclocks
      rw [hnext, Option.some.injEq]
      exact hreads
    obtain ⟨hphase, hlatch⟩ := h.call hallow (performs_of_perform hperform) hclock
    refine ⟨hwrites, ?_, ?_, ?_⟩
    · apply (Function.forall_update_iff φ (fun _ ψ => ψ.Sound)).mpr
      exact ⟨hphase, fun j _ => h.phase j⟩
    · apply (Function.forall_update_iff s.proc (fun _ p => WithinReach p.lastNow)).mpr
      exact ⟨hlatch, fun j _ => h.latch j⟩
    · rcases perform_state hperform with hsame | ⟨l, st, rfl, -, hset⟩
      · intro now values hvalues
        rw [hsame] at hvalues
        exact h.hash now values hvalues
      · exact SoundHash.set (h.saved hallow) hset

/-- A successful `SaveOwned` has written the state. -/
theorem Keys.saveOwned_answered {k : Keys} {origin : GoString}
    (h : (k.saveOwned now origin l st).2 = some true) :
  (k.saveOwned now origin l st).1.state = Redis.Cell.set now stateRetention (stateArguments st)
  := by
  unfold Keys.saveOwned Keys.saveOwnedScript at *
  split at h
  · cases h
  · rename_i hvalid
    rw [if_neg hvalid]
    split at h
    · cases h
    · rename_i hlive
      rw [if_neg hlive]

theorem Fault.answer_eq_some {α : Type} {fault : Fault} {reply : Option α} {a : α}
    (h : fault.answer reply = some a) :
  fault = .none ∧ reply = some a
  := by
  unfold Fault.answer at h
  split at h
  · exact ⟨‹_›, h⟩
  · cases h

/-- A step that executes the next call of a process. -/
theorem exec_next {s' : Fleet n} (hnext : (s.proc i).prog.next? = some o)
    (h : step subject s (.exec i c) = some s') :
  ∃ (w : World) (p : Proc) (r : o.Reply) (k : o.Reply → DirectoryM Unit),
    perform subject c s.world (s.proc i) o = some (w, p, r) ∧
      s' = { world := w, proc := Function.update s.proc i { p with prog := k r } }
  := by
  simp only [step] at h
  split at h
  · cases h
  · rename_i o' k hprog
    rw [hprog] at hnext
    cases hnext
    obtain ⟨⟨w, p, r⟩, hperform, rfl⟩ := map_eq_some_iff.mp h
    exact ⟨w, p, r, k, hperform, rfl⟩

/-- Any number of scheduler replicas and commands from an empty store, with clocks that are read a
second or more after the epoch. In every state that is reached, `Load` succeeds; every state that
is about to be passed to `SaveOwned` is valid; and after a successful `SaveOwned`, `Load` returns
that state in whole seconds. -/
theorem saved_states_load (subject : Subject) {s t : Fleet n} {es : List (Event n)} (hs : Idle s)
    (hempty : s.world.keys.state = none) (hlatch : ∀ i, WithinReach (s.proc i).lastNow)
    (hrun : run (step subject) s es = some t) (hclocks : Meets (step subject) ReadableClocks s es) :
  (∃ st, t.world.keys.load t.world.now = some st) ∧
    ∀ i l st, (t.proc i).prog.next? = some (.saveOwned l st) →
      validateState st = true ∧
        ∀ c t', step subject t (.exec i c) = some t' →
          c.fault.answer (t.world.keys.saveOwned t.world.now subject.origin l st).2 = some true →
            t'.world.keys.load t'.world.now = some st.truncated
  := by
  have hstart : SoundRun subject s (fun i => .outside (s.proc i).kind.role) := by
    refine ⟨hs.writesIn, fun _ => Writing.sound_of_no_state rfl, hlatch, ?_⟩
    intro now values hvalues
    rw [hempty] at hvalues
    cases hvalues
  obtain ⟨φ, h⟩ : ∃ φ, SoundRun subject t φ := by
    apply run_invariant_of_meets (P := fun s => ∃ φ, SoundRun subject s φ) _ ⟨_, hstart⟩ hclocks
      hrun
    rintro s e s' ⟨φ, h⟩ hC he
    exact h.step hC he
  refine ⟨?_, ?_⟩
  · obtain ⟨st, -, hst⟩ := h.hash.load t.world.now
    exact ⟨st, hst⟩
  intro i l st hnext
  have hsound : st.Sound := by
    have hfollows := (h.writesIn i).follows
    cases hprog : (t.proc i).prog with
    | pure a =>
      rw [hprog] at hnext
      cases hnext
    | call o k =>
      rw [hprog] at hnext hfollows
      cases hnext
      exact h.saved hfollows.1
  use hsound.valid
  intro c t' hstep hreply
  obtain ⟨w, p, r, k, hperform, rfl⟩ := exec_next hnext hstep
  cases performs_of_perform hperform with
  | saveOwned _ _ _ hr =>
    obtain ⟨hfault, hsaved⟩ := Fault.answer_eq_some hreply
    have hset := Keys.saveOwned_answered hsaved
    rw [Keys.load_set, hsound.load]
    simp only [Fault.keys, hfault, reduceCtorEq, if_false]
    exact hset

instance (s : Fleet n) (e : Event n) : Decidable (ReadableClocks s e) := by
  induction e using Event.casesOn <;> dsimp only [ReadableClocks] <;> infer_instance

/-- A failure that a replica writes, and what is read of it. -/
theorem saved_states_load_refused :
  validateState refusedState = true ∧
    refusedSaved.world.keys.load refusedSaved.world.now = some refusedState.truncated
  := by
  have hrun := (some_get
    (x := run (step relaySubject) (replica none) (refusedCycle 9)) rfl).symm
  have hsave := (some_get (x := step relaySubject refused (.exec 0 {})) rfl).symm
  have hloads := (saved_states_load relaySubject (replica_replicas none).1 rfl (by decide) hrun
    (by decide)).2 0 ⟨relaySubject.origin, lit "first"⟩ refusedState rfl
  exact ⟨hloads.1, hloads.2 _ _ hsave rfl⟩

end Directory
