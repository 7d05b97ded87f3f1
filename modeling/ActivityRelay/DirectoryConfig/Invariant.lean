import ActivityRelay.DirectoryConfig.Ownership

/-!
# What holds in every run

Each process is in a phase of its protocol and knows what an editor knows in this phase, and no file
is locked twice. What one event does to the two paths and to the phases is a `Change`; an invariant
of the paths and the phases has to be checked for these only (`run_keeps`).
-/

namespace DirectoryConfig

open Function GoString Interaction Posix

variable {n : ℕ} (U : CaseTable) (codec : Codec) (calls : Fin n → Call)

/-- The program of a process follows the protocol from its phase on. -/
structure Keeps (call : Call) (φ : Phase) (p : Proc) : Prop where
  follows : ∀ prog, p.prog = some prog → (protocol U codec call).Follows Ended φ prog
  killed : p.prog = none → φ = .outside none
  unbegun : p.begun = false → φ = .outside none

/-- The invariant of the processes. -/
structure Inv (φ : Fin n → Phase) (fleet : Fleet n) : Prop where
  keeps : ∀ i, Keeps U codec (calls i) (φ i) (fleet.proc i)
  knows : ∀ i, Knows U codec (calls i) fleet.volume (φ i) (fleet.proc i).descriptors
  exclusive : ∀ i j, (fleet.proc i).descriptors.locked = true →
    (fleet.proc j).descriptors.locked = true →
    (fleet.proc i).descriptors.config = (fleet.proc j).descriptors.config → i = j

/-- What an event does to the two paths and to the phases. -/
inductive Change (fleet : Fleet n) (φ : Fin n → Phase) (v' : Files) :
    Event n → (Fin n → Phase) → Prop
  | exec (i : Fin n) (c : Choice) (o : EditOp) (k : o.Reply → EditM (Except EditError Unit))
      (φ' : Phase) (prog : (fleet.proc i).prog = some (.call o k))
      (move : Move U codec (calls i) c fleet.volume v' o (φ i) φ') :
      Change fleet φ v' (.exec i c) (update φ i φ')
  | kill (i : Fin n) (e : Option Ending) (ended : e ≠ none → φ i = .outside e)
      (same : v' = fleet.volume) : Change fleet φ v' (.kill i) (update φ i (.outside e))
  | crash (pick : Name → ℕ) (bodies : ℕ → GoString) (e : Fin n → Option Ending)
      (ended : ∀ i, e i ≠ none → φ i = .outside (e i))
      (same : v' = fleet.volume.crash pick bodies) :
      Change fleet φ v' (.crash pick bodies) (fun i => .outside (e i))

variable {U codec calls} {φ : Fin n → Phase} {fleet fleet' : Fleet n} {ψ : Phase} {i j : Fin n}
  {call : Call} {v v' : Files}

theorem hasLock_of_owns (h : ψ.owns = true) :
  ψ.hasLock = true
  := by
  cases ψ <;> first | rfl | cases h

/-- There is only one owner. -/
theorem Inv.owner_unique (h : Inv U codec calls φ fleet) (hi : (φ i).owns = true)
    (hj : (φ j).owns = true) :
  i = j
  := by
  apply h.exclusive i j
  · rw [(h.knows i).locked]
    exact hasLock_of_owns hi
  · rw [(h.knows j).locked]
    exact hasLock_of_owns hj
  · rw [← (h.knows i).owner hi, ← (h.knows j).owner hj]

/-- What an editor knows is kept by changes that do no harm. -/
theorem Knows.of_harmless {d : Descriptors} (h : Knows U codec call v ψ d)
    (hv : ψ.owns = true → Harmless v v') :
  Knows U codec call v' ψ d
  := by
  refine ⟨h.locked, ?_, ?_⟩
  · intro howns
    rw [(hv howns).entry]
    exact h.owner howns
  · rintro w rfl
    exact (h.work w rfl).of_harmless (hv rfl)

theorem not_held {file : Option ℕ} (h : fleet.held i file = false) (hne : j ≠ i)
    (hlocked : (fleet.proc j).descriptors.locked = true) :
  (fleet.proc j).descriptors.config ≠ file
  := fun hfile => (decide_eq_false_iff_not.mp h) ⟨j, hne, hlocked, hfile⟩

/-- One process goes on. -/
theorem Inv.set (h : Inv U codec calls φ fleet) {p : Proc} (hkeeps : Keeps U codec (calls i) ψ p)
    (hknows : Knows U codec (calls i) v ψ p.descriptors)
    (hharmless : (φ i).owns = true ∨ Harmless fleet.volume v)
    (hlock : p.descriptors.locked = true →
      (fleet.proc i).descriptors.locked = true ∧
        p.descriptors.config = (fleet.proc i).descriptors.config ∨
      fleet.held i p.descriptors.config = false) :
  Inv U codec calls (update φ i ψ) (fleet.set i v p)
  := by
  have hother : ∀ j, j ≠ i → (fleet.proc j).descriptors.locked = true →
      p.descriptors.locked = true →
      (fleet.proc j).descriptors.config ≠ p.descriptors.config := by
    intro j hj hlocked hp
    rcases hlock hp with ⟨hold, hsame⟩ | hfree
    · rw [hsame]
      exact fun heq => hj (h.exclusive j i hlocked hold heq)
    · exact not_held hfree hj hlocked
  refine ⟨?_, ?_, ?_⟩
  · intro j
    by_cases hj : j = i
    · subst hj
      rw [update_self, fleet.proc_set_self]
      exact hkeeps
    · rw [update_of_ne hj, fleet.proc_set_of_ne hj]
      exact h.keeps j
  · intro j
    by_cases hj : j = i
    · subst hj
      rw [update_self, fleet.proc_set_self]
      exact hknows
    · rw [update_of_ne hj, fleet.proc_set_of_ne hj]
      apply (h.knows j).of_harmless
      intro howns
      exact hharmless.resolve_left (fun hi => hj (h.owner_unique howns hi))
  · intro j k hlj hlk heq
    by_cases hj : j = i
    · by_cases hk : k = i
      · rw [hj, hk]
      · subst hj
        rw [fleet.proc_set_self] at hlj heq
        rw [fleet.proc_set_of_ne hk] at hlk heq
        exact absurd heq.symm (hother k hk hlk hlj)
    · rw [fleet.proc_set_of_ne hj] at hlj heq
      by_cases hk : k = i
      · subst hk
        rw [fleet.proc_set_self] at hlk heq
        exact absurd heq (hother j hj hlj hlk)
      · rw [fleet.proc_set_of_ne hk] at hlk heq
        exact h.exclusive j k hlj hlk heq

theorem Inv.exec (h : Inv U codec calls φ fleet) {c : Choice}
    (hstep : step fleet (.exec i c) = some fleet') :
  ∃ φ', Inv U codec calls φ' fleet' ∧
    Change U codec calls fleet φ fleet'.volume (.exec i c) φ'
  := by
  rw [step] at hstep
  split at hstep
  · rename_i o k hprog
    obtain ⟨⟨r, v', d'⟩, hperform, rfl⟩ := Option.map_eq_some_iff.mp hstep
    have hfollows := (h.keeps i).follows _ hprog
    have hperformed := (h.knows i).performed hfollows.1 hperform
    refine ⟨update φ i (nextPhase (φ i) o r), ?_,
      .exec i c o k _ hprog hperformed.move⟩
    refine h.set ⟨?_, nofun, nofun⟩ hperformed.knows hperformed.harmless
      hperformed.lock
    rintro _ ⟨⟩
    exact hfollows.2 r
  · cases hstep

/-- A process that may be killed is outside after that, and has not succeeded by it. -/
theorem Keeps.kill {p : Proc} (h : Keeps U codec call ψ p)
    (hknows : Knows U codec call v ψ p.descriptors) (v' : Files) :
  ∃ e, (e ≠ none → ψ = .outside e) ∧ Keeps U codec call (.outside e) p.kill ∧
    Knows U codec call v' (.outside e) p.kill.descriptors
  := by
  have houtside : ∀ e, ψ = .outside e →
      Knows U codec call v' (.outside e) p.descriptors := by
    rintro e rfl
    exact ⟨hknows.locked, nofun, nofun⟩
  unfold Proc.kill
  split
  · rename_i o k hprog
    split
    · refine ⟨none, fun hne => absurd rfl hne, ⟨nofun, fun _ => rfl, fun _ => rfl⟩, ?_⟩
      exact ⟨rfl, nofun, nofun⟩
    · rename_i hbegun
      have hψ := h.unbegun (Bool.eq_false_of_not_eq_true hbegun)
      exact ⟨none, fun _ => hψ, hψ ▸ h, houtside none hψ⟩
  · rename_i hprog
    have hψ : ∃ e, ψ = .outside e := by
      cases hp : p.prog with
      | none => exact ⟨none, h.killed hp⟩
      | some prog =>
        cases prog with
        | pure r =>
          obtain ⟨e, he, -⟩ := h.follows _ hp
          exact ⟨e, he⟩
        | call o k => exact absurd hp (hprog o k)
    obtain ⟨e, he⟩ := hψ
    exact ⟨e, fun _ => he, he ▸ h, houtside e he⟩

theorem Inv.kill (h : Inv U codec calls φ fleet) (i : Fin n) :
  ∃ φ', Inv U codec calls φ' (fleet.set i fleet.volume (fleet.proc i).kill) ∧
    Change U codec calls fleet φ fleet.volume (.kill i) φ'
  := by
  obtain ⟨e, hended, hkeeps, hknows⟩ := (h.keeps i).kill (h.knows i) fleet.volume
  refine ⟨update φ i (.outside e), ?_, .kill i e hended rfl⟩
  apply h.set hkeeps hknows (.inr (Harmless.refl _))
  rw [hknows.locked]
  rintro ⟨⟩

theorem Inv.crash (h : Inv U codec calls φ fleet) (pick : Name → ℕ) (bodies : ℕ → GoString) :
  ∃ φ', Inv U codec calls φ'
      { volume := fleet.volume.crash pick bodies, proc := fun i => (fleet.proc i).kill } ∧
    Change U codec calls fleet φ (fleet.volume.crash pick bodies) (.crash pick bodies) φ'
  := by
  choose e hended hkeeps hknows using
    fun i => (h.keeps i).kill (h.knows i) (fleet.volume.crash pick bodies)
  refine ⟨fun i => .outside (e i), ⟨hkeeps, hknows, ?_⟩, .crash pick bodies e hended rfl⟩
  intro i j hi
  rw [(hknows i).locked] at hi
  cases hi

theorem Inv.step (h : Inv U codec calls φ fleet) {event : Event n}
    (hstep : DirectoryConfig.step fleet event = some fleet') :
  ∃ φ', Inv U codec calls φ' fleet' ∧ Change U codec calls fleet φ fleet'.volume event φ'
  := by
  cases event with
  | exec i c => exact h.exec hstep
  | kill i =>
    cases hstep
    exact h.kill i
  | crash pick bodies =>
    cases hstep
    exact h.crash pick bodies

theorem inv_start (v : Files) :
  Inv U codec calls (fun _ => .outside none) (start U codec calls v)
  := by
  refine ⟨?_, ?_, nofun⟩
  · intro i
    refine ⟨?_, nofun, fun _ => rfl⟩
    rintro _ ⟨⟩
    exact editFile_follows
  · intro i
    exact ⟨rfl, nofun, nofun⟩

/-- A call that has returned success has ended in one of the two ways. -/
theorem Inv.ended (h : Inv U codec calls φ fleet) (hi : (fleet.proc i).succeeded = true) :
  ∃ e, φ i = .outside (some e)
  := by
  obtain ⟨e, he, hok⟩ := (h.keeps i).follows _ (Proc.succeeded_iff.mp hi)
  obtain ⟨e', rfl⟩ := Option.ne_none_iff_exists'.mp (hok rfl)
  exact ⟨e', he⟩

theorem Proc.succeeded_of_kill {p : Proc} (h : p.kill.succeeded = true) :
  p.succeeded = true
  := by
  unfold kill at h
  split at h
  · split at h
    · cases h
    · exact h
  · exact h

/-- A call that leads outside with success is that which closes the descriptor. -/
theorem Move.closes {c : Choice} {o : EditOp} {e : Ending}
    (h : Move U codec call c v v' o ψ (.outside (some e))) (hallows : Allows U codec call ψ o) :
  (ψ = .found ∨ ψ = .synced) ∧ SamePaths v v'
  := by
  cases h with
  | quiet same phases =>
    refine ⟨?_, same⟩
    rcases phases with rfl | hending | hundecided
    · cases hallows with
      | close _ hclosable | remove _ _ _ hclosable => cases hclosable
    · have hending' := Phase.outside.inj hending
      cases ψ with
      | found => exact .inl rfl
      | synced => exact .inr rfl
      | _ => cases hending'
    · cases hundecided.undecided

/-- A call returns success by closing its descriptor. -/
theorem Inv.returned (h : Inv U codec calls φ fleet) {event : Event n}
    (hstep : DirectoryConfig.step fleet event = some fleet')
    (hbefore : (fleet.proc i).succeeded = false) (hafter : (fleet'.proc i).succeeded = true) :
  (φ i = .found ∨ φ i = .synced) ∧ SamePaths fleet.volume fleet'.volume
  := by
  have hkill : (fleet.proc i).kill.succeeded ≠ true := by
    intro hkill
    rw [Proc.succeeded_of_kill hkill] at hbefore
    cases hbefore
  cases event with
  | exec j c =>
    rw [DirectoryConfig.step] at hstep
    split at hstep
    · rename_i o k hprog
      obtain ⟨⟨r, v', d'⟩, hperform, rfl⟩ := Option.map_eq_some_iff.mp hstep
      by_cases hij : i = j
      · subst hij
        rw [fleet.proc_set_self, Proc.succeeded_iff] at hafter
        have hfollows := (h.keeps i).follows _ hprog
        have hended := hfollows.2 r
        rw [Option.some.inj hafter] at hended
        obtain ⟨e, he, hok⟩ := hended
        obtain ⟨e', rfl⟩ := Option.ne_none_iff_exists'.mp (hok rfl)
        have hmove := ((h.knows i).performed hfollows.1 hperform).move
        change nextPhase (φ i) o r = _ at he
        rw [he] at hmove
        exact hmove.closes hfollows.1
      · rw [fleet.proc_set_of_ne hij, hbefore] at hafter
        cases hafter
    · cases hstep
  | kill j =>
    cases hstep
    by_cases hij : i = j
    · subst hij
      rw [fleet.proc_set_self] at hafter
      exact absurd hafter hkill
    · rw [fleet.proc_set_of_ne hij, hbefore] at hafter
      cases hafter
  | crash pick bodies =>
    cases hstep
    exact absurd hafter hkill

/-- What every change keeps that is met holds at the end of every run. -/
theorem run_keeps {J : (Fin n → Phase) → Files → Prop} {C : Fleet n → Event n → Prop}
    {events : List (Event n)}
    (hchange : ∀ fleet event φ v' φ', Inv U codec calls φ fleet → C fleet event →
      J φ fleet.volume → Change U codec calls fleet φ v' event φ' → J φ' v')
    (hstart : J (fun _ => .outside none) v)
    (hmeets : Transition.Meets DirectoryConfig.step C (start U codec calls v) events)
    (hrun : Transition.run DirectoryConfig.step (start U codec calls v) events = some fleet') :
  ∃ φ, Inv U codec calls φ fleet' ∧ J φ fleet'.volume
  := by
  apply Transition.run_invariant_of_meets
    (P := fun fleet => ∃ φ, Inv U codec calls φ fleet ∧ J φ fleet.volume) _
    ⟨_, inv_start v, hstart⟩ hmeets hrun
  rintro fleet event fleet'' ⟨φ, hinv, hJ⟩ hC hstep
  obtain ⟨φ', hinv', hmove⟩ := hinv.step hstep
  exact ⟨φ', hinv', hchange fleet event φ fleet''.volume φ' hinv hC hJ hmove⟩

end DirectoryConfig
