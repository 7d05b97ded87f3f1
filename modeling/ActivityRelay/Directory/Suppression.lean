import ActivityRelay.Directory.System

/-!
# Disabling an entry

`unregister` disables the entry of a directory in the configuration file while it holds the
lease. Replicas of the scheduler look at the file again after they have taken the lease, so
once the entry is disabled none of them starts a request. The other commands look at the
file only before they take the lease, so one of them may start a request for an entry that
was disabled in between.

Both facts rest on the exclusion of the lease (`Exclusive`), as long as no lease runs out
while a process holds it.
-/

namespace Directory

open Function GoString Interaction Transition

variable {subject : Subject} {n : ℕ}

/-- The entry is enabled in the configuration file. -/
def World.EntryEnabled (w : World) : Prop := w.file.bind FileConfig.entry = some true

instance (w : World) : Decidable w.EntryEnabled :=
  inferInstanceAs (Decidable (w.file.bind FileConfig.entry = some true))

/-! ### Conditions on runs -/

/-- No lease runs out while a process holds it. -/
def LeasesKept (s : Fleet n) : Event n → Prop
  | .tick d => ∀ i, ∀ l ∈ (s.proc i).lease, s.world.keys.live s.world.now l.value →
      s.world.keys.live (s.world.now + d) l.value
  | _ => True

instance (now : ℤ) (k : Keys) (value : Token) : Decidable (k.live now value) :=
  inferInstanceAs (Decidable (k.lease.get now = some value))

instance (s : Fleet n) (e : Event n) : Decidable (LeasesKept s e) := by
  cases e <;> dsimp only [LeasesKept] <;> infer_instance

/-- The file, if it can be loaded, names a Redis server. -/
def StoreConfigured (s : Fleet n) : Prop := ∀ config ∈ s.world.file, config.redisURL ≠ []

instance (s : Fleet n) : Decidable (StoreConfigured s) :=
  inferInstanceAs (Decidable (∀ config ∈ s.world.file, config.redisURL ≠ []))

/-- The file, if it can be loaded, has the scheduler gate open. -/
def GateOpen (s : Fleet n) : Prop := ∀ config ∈ s.world.file, config.schedulerEnabled = true

instance (s : Fleet n) : Decidable (GateOpen s) :=
  inferInstanceAs (Decidable (∀ config ∈ s.world.file, config.schedulerEnabled = true))

/-- The event is not an edit of the file that enables the entry. -/
def NotEnabling : Event n → Prop
  | .edit file => file.bind FileConfig.entry ≠ some true
  | _ => True

instance (e : Event n) : Decidable (NotEnabling e) := by
  cases e <;> dsimp only [NotEnabling] <;> infer_instance

/-- A `register`, `heartbeat` or `sync` command takes the lease only while the entry is
enabled in the file. -/
def AcquiresEnabled (s : Fleet n) : Event n → Prop
  | .exec i _ =>
      (s.proc i).kind.role = .manual → (s.proc i).prog.next? = some .acquire →
        s.world.EntryEnabled
  | _ => True

instance (s : Fleet n) (e : Event n) : Decidable (AcquiresEnabled s e) := by
  cases e <;> dsimp only [AcquiresEnabled] <;> infer_instance

/-! ### Exclusion -/

/-- A process that holds a lease has its token in the lease key, and no other process holds
one. -/
def Exclusive (w : World) (φ : Fin n → Phase) : Prop :=
  ∀ i l, (φ i).lease = some l → w.keys.live w.now l.value ∧ ∀ j, j ≠ i → (φ j).lease = none

variable {φ φ' : Fin n → Phase} {i : Fin n} {ψ : Phase} {w w' : World} {e : Event n}
  {s s' : Fleet n} {o : DirectoryOp} {r : o.Reply} {c : Choice} {startupBoundary : ℤ}
  {roles : Role → Prop}

/-- A process that gives up its lease, or has none, may be in any phase without one. -/
theorem Exclusive.update_none (h : Exclusive w φ) (hψ : ψ.lease = none)
    (hlive : ∀ j l, j ≠ i → (φ j).lease = some l → w'.keys.live w'.now l.value) :
  Exclusive w' (update φ i ψ)
  := by
  intro j l hj
  by_cases hji : j = i
  · subst hji
    rw [update_self, hψ] at hj
    cases hj
  rw [update_of_ne hji] at hj
  use hlive j l hji hj
  intro k hk
  by_cases hki : k = i
  · subst hki
    rw [update_self, hψ]
  · rw [update_of_ne hki]
    apply (h j l hj).2 k hk

/-- A process may change its phase under the same lease. -/
theorem Exclusive.update_same (h : Exclusive w φ) (hψ : ψ.lease = (φ i).lease)
    (hlive : ∀ j l, (φ j).lease = some l → w'.keys.live w'.now l.value) :
  Exclusive w' (update φ i ψ)
  := by
  have hsame : ∀ j, (update φ i ψ j).lease = (φ j).lease := by
    intro j
    by_cases hji : j = i
    · subst hji
      rw [update_self, hψ]
    · rw [update_of_ne hji]
  intro j l hj
  rw [hsame] at hj
  use hlive j l hj
  intro k hk
  rw [hsame]
  apply (h j l hj).2 k hk

theorem Keys.live_acquired {keys : Keys} {token : Token}
    (h : keys.lease = Redis.Cell.set w.now leaseTTL token) :
  keys.live w.now token
  := by
  rw [Keys.live, h]
  apply Redis.Cell.get_set
  have hpos : (0 : ℤ) ≤ leaseTTL := by decide
  omega

/-- A free lease key means that no process holds a lease. -/
theorem Exclusive.lease_none (h : Exclusive w φ) (hfree : w.keys.lease.get w.now = none)
    (i : Fin n) :
  (φ i).lease = none
  := by
  rw [Option.eq_none_iff_forall_ne_some]
  intro l hl
  have hlive := (h i l hl).1
  rw [Keys.live, hfree] at hlive
  cases hlive

/-- Exclusion is kept by a call. -/
theorem Exclusive.of_call {origin : GoString} (h : Exclusive w φ) (hnow : w'.now = w.now)
    (he : LeaseEffect origin w (φ i).lease w' ψ.lease) :
  Exclusive w' (update φ i ψ)
  := by
  cases he with
  | kept hkey hissued hafter =>
    apply h.update_same hafter
    intro j l hj
    rw [Keys.live, hkey, hnow]
    apply (h j l hj).1
  | taken token hfree hfresh hkey hissued hbefore hafter =>
    rcases hafter with hafter | hafter
    · intro j l hj
      by_cases hji : j = i
      · subst hji
        rw [update_self, hafter] at hj
        cases hj
        rw [hnow]
        use Keys.live_acquired hkey
        intro k hk
        rw [update_of_ne hk]
        apply h.lease_none hfree
      · rw [update_of_ne hji, h.lease_none hfree] at hj
        cases hj
    · apply h.update_none hafter
      intro j l _ hj
      rw [h.lease_none hfree] at hj
      cases hj
  | released l hbefore hafter hissued hkey =>
    apply h.update_none hafter
    intro j l' hji hj
    rw [(h i l hbefore).2 j hji] at hj
    cases hj

/-- There is one owner at most, as long as no lease runs out. -/
theorem Exclusive.of_effect (h : Exclusive s.world φ) (hφ : InPhases subject s φ)
    (hφ' : InPhases subject s' φ') (hkept : LeasesKept s e) (he : Effect subject s φ e s' φ') :
  Exclusive s'.world φ'
  := by
  cases he with
  | tick d =>
    intro i l hl
    obtain ⟨hlive, hothers⟩ := h i l hl
    use hkept i l ((hφ i).lease ▸ hl) hlive
  | edit | observe => apply h
  | boot | start =>
    apply h.update_none rfl
    intro j l _ hj
    apply (h j l hj).1
  | exec i c o k w p r ψ hprog hallow hperform hmoves =>
    have hlease := (hφ' i).lease
    simp only [update_self] at hlease
    apply h.of_call (perform_now hperform)
    rw [hlease, (hφ i).lease]
    apply perform_lease (hφ i).lease hallow hperform
  | renew i l hl =>
    intro j l' hj
    obtain ⟨hlive, hothers⟩ := h j l' hj
    refine ⟨?_, hothers⟩
    by_cases hji : j = i
    · subst hji
      cases hl.symm.trans hj
      apply Keys.live_acquired (w := s.world)
      apply congrArg Prod.fst (Redis.Cell.compareExpire_of_eq hlive)
    · rw [(h i l hl).2 j hji] at hj
      cases hj

/-! ### What calls do to the file, and what they read in it -/

theorem editFile_entry {edit : FileConfig → FileConfig} {fault : Fault} {file : Option FileConfig}
    (hedit : ∀ config, (edit config).entry ≠ some true)
    (h : file.bind FileConfig.entry ≠ some true) :
  (editFile edit fault file).1.bind FileConfig.entry ≠ some true
  := by
  cases file with
  | none => apply h
  | some config =>
    simp only [editFile]
    split
    · apply h
    · apply hedit

/-- No call enables the entry. -/
theorem perform_entry {p p' : Proc} (h : perform subject c w p o = some (w', p', r))
    (hentry : ¬ w.EntryEnabled) :
  ¬ w'.EntryEnabled
  := by
  cases performs_of_perform h with
  | disable | remove =>
    apply editFile_entry _ hentry
    rintro config ⟨⟩
  | _ => apply hentry

/-- A step that does not edit the file so leaves the entry not enabled. -/
theorem Effect.entry (he : Effect subject s φ e s' φ') (hedit : NotEnabling e)
    (h : ¬ s.world.EntryEnabled) :
  ¬ s'.world.EntryEnabled
  := by
  cases he with
  | edit file => apply hedit
  | exec i c o k w p r ψ hprog hallow hperform hmoves => apply perform_entry hperform h
  | _ => apply h

/-! ### Replicas -/

/-- The phases of a cycle that has found the entry enabled while it held the lease. -/
def Phase.Checked : Phase → Prop
  | .enabled _ _ _ | .broken _ _ _ | .sending _ _ _ _ | .completed _ _ _ _ _ => True
  | _ => False

/-- A cycle gets past its check only while the entry is enabled. -/
theorem Moves.checked {p p' : Proc} {φ : Phase} (hmoves : Moves startupBoundary φ o r ψ)
    (h : perform subject c w p o = some (w', p', r)) (hψ : ψ.Checked) :
  φ.Checked ∨ w.EntryEnabled
  := by
  cases hmoves with
  | stay => exact .inl hψ
  | enable l st now config henabled =>
    right
    rcases config with _ | config
    · cases henabled
    rw [World.EntryEnabled, perform_readConfig h]
    simp only [durableDirectoryEnabled, Option.some.injEq, Bool.and_eq_true] at henabled
    rcases hentry : config.entry with _ | enabled
    · simp [hentry] at henabled
    · simpa [hentry] using henabled.2
  | fail | request | finish => exact .inl trivial
  | _ => exact hψ.elim

theorem Phase.Checked.lease_ne_none {φ : Phase} (h : φ.Checked) :
  φ.lease ≠ none
  := by
  cases φ <;> first | exact h.elim | rintro ⟨⟩

theorem Phase.Checked.role {φ : Phase} (h : φ.Checked) :
  φ.role = .cycle
  := by
  cases φ <;> first | exact h.elim | rfl

/-- No process of the role works without a store. -/
theorem Effect.not_alone {role : Role} (he : Effect subject s φ e s' φ')
    (htakes : ∀ config ∈ s.world.file, takesLease config role = true) (h : ∀ i, φ i ≠ .alone role) :
  ∀ i, φ' i ≠ .alone role
  := by
  apply he.forall_phase (P := fun φ => φ ≠ .alone role) _ _ _ h
  · rintro ⟨⟩
  · rintro i kind - ⟨⟩
  · intro i c o w p r ψ _ _ _ hperform hmoves hφ hψ
    generalize hi : φ i = φi at hmoves hφ
    subst hψ
    cases hmoves with
    | stay => exact hφ rfl
    | work _ config hnot =>
      have htake := htakes config (perform_readConfig hperform)
      rw [hnot] at htake
      cases htake

/-- The exclusion of the lease, where no process of the given roles works without a store. -/
def Guarded (subject : Subject) (roles : Role → Prop) (s : Fleet n) : Prop :=
  ∃ φ, InPhases subject s φ ∧ Exclusive s.world φ ∧ ∀ role, roles role → ∀ i, φ i ≠ .alone role

theorem Idle.guarded (hs : Idle s) (roles : Role → Prop) :
  Guarded subject roles s
  := by
  refine ⟨_, hs.inPhases, ?_, ?_⟩
  · rintro i l ⟨⟩
  · rintro role _ i ⟨⟩

theorem Guarded.step (h : Guarded subject roles s)
    (htakes : ∀ role, roles role → ∀ config ∈ s.world.file, takesLease config role = true)
    (hkept : LeasesKept s e) (he : Directory.step subject s e = some s') :
  Guarded subject roles s'
  := by
  obtain ⟨φ, hφ, hexclusive, halone⟩ := h
  obtain ⟨φ', heffect, hφ'⟩ := step_effect hφ he
  refine ⟨φ', hφ', hexclusive.of_effect hφ hφ' hkept heffect, ?_⟩
  intro role hrole
  apply heffect.not_alone (htakes role hrole) (halone role hrole)

/-- When `unregister` disables the entry, no other process holds a lease. -/
theorem Guarded.disable (h : Guarded subject roles s) (hunregister : roles .unregister)
    (hcall : (s.proc i).prog.next? = some .disable)
    (he : Directory.step subject s (.exec i c) = some s') :
  ∃ φ, InPhases subject s' φ ∧ (φ i).role = .unregister ∧
    ∀ j, j ≠ i → (φ j).lease = none ∧ ∀ role, roles role → φ j ≠ .alone role
  := by
  obtain ⟨φ, hφ, hexclusive, halone⟩ := h
  obtain ⟨φ', heffect, hφ'⟩ := step_effect hφ he
  have howning : ∃ l, φ i = .owning .unregister l := by
    have hallow := (hφ i).allows hcall
    generalize hi : φ i = φi at hallow
    cases hallow with
    | alone role _ hcommand =>
      cases hcommand
      exact absurd hi (halone .unregister hunregister i)
    | command role l _ hcommand =>
      cases hcommand
      exact ⟨l, rfl⟩
  obtain ⟨l, hi⟩ := howning
  refine ⟨φ', hφ', ?_⟩
  cases heffect with
  | exec _ _ o k w p r ψ hprog hallow hperform hmoves =>
    constructor
    · rw [update_self, hmoves.role, hi]
      rfl
    · intro j hj
      rw [update_of_ne hj]
      use (hexclusive i l (by rw [hi]; rfl)).2 j hj
      intro role hrole
      apply halone role hrole j

/-- The entry is not enabled in the file, and no replica is past its check. -/
def Suppressed (subject : Subject) (s : Fleet n) : Prop :=
  ¬ s.world.EntryEnabled ∧ ∃ φ, InPhases subject s φ ∧ ∀ j, ¬ (φ j).Checked

theorem Suppressed.step (h : Suppressed subject s) (hedit : NotEnabling e)
    (he : Directory.step subject s e = some s') :
  Suppressed subject s'
  := by
  obtain ⟨hentry, φ, hφ, hchecked⟩ := h
  obtain ⟨φ', heffect, hφ'⟩ := step_effect hφ he
  refine ⟨heffect.entry hedit hentry, φ', hφ', ?_⟩
  apply heffect.forall_phase (P := fun φ => ¬ φ.Checked) _ _ _ hchecked
  · rintro ⟨⟩
  · rintro i kind - ⟨⟩
  · intro i c o w p r ψ _ _ _ hperform hmoves hφ hψ
    rcases hmoves.checked hperform hψ with h | h
    · apply hφ h
    · apply hentry h

/-- Any number of replicas and commands, on a file that names a Redis server, where no lease
runs out while a process holds it. Once a `DisableFile` of `unregister` has left the entry not
enabled, and until the file is edited to enable it again, no replica is ever about to start a
register or heartbeat request. -/
theorem no_request_after_disable (subject : Subject) {init s s₁ t : Fleet n}
    {es es' : List (Event n)} {i : Fin n} {c : Choice} (hinit : Idle init)
    (hrun : run (step subject) init es = some s)
    (hkept : Meets (step subject) (fun s e => StoreConfigured s ∧ LeasesKept s e) init es)
    (hcall : (s.proc i).prog.next? = some .disable)
    (hdisable : step subject s (.exec i c) = some s₁) (hdone : ¬ s₁.world.EntryEnabled)
    (hrun' : run (step subject) s₁ es' = some t)
    (hedit : Meets (step subject) (fun _ e => NotEnabling e) s₁ es') :
  ∀ j, (t.proc j).kind.role = .cycle → (t.proc j).requests = false
  := by
  have hguarded : Guarded subject (fun role => role = .unregister) s := by
    apply run_invariant_of_meets _ (hinit.guarded _) hkept hrun
    intro s e s' h hC he
    apply h.step _ hC.2 he
    rintro _ rfl config hconfig
    simpa [takesLease] using hC.1 config hconfig
  obtain ⟨φ, hφ, hrole, hothers⟩ := hguarded.disable rfl hcall hdisable
  have hsuppressed : Suppressed subject s₁ := by
    refine ⟨hdone, φ, hφ, ?_⟩
    intro j hj
    by_cases hji : j = i
    · subst hji
      rw [hj.role] at hrole
      cases hrole
    · exact hj.lease_ne_none (hothers j hji).1
  obtain ⟨-, φ', hφ', hchecked⟩ : Suppressed subject t := by
    apply run_invariant_of_meets _ hsuppressed hedit hrun'
    intro s e s' h hC he
    apply h.step hC he
  intro j hrole'
  by_contra hrequests
  rw [Bool.not_eq_false] at hrequests
  obtain ⟨l, st, now, digest, hj⟩ := (hφ' j).sending hrole' hrequests
  apply hchecked j
  rw [hj]
  trivial

/-- A relay and a directory. -/
def relaySubject : Subject where
  relayActor := lit "https://relay.example/actor"
  origin := lit "https://directory.example"
  hash := fun _ => 0
  nonempty := by decide

/-- A configuration file with an enabled entry. -/
def enabledConfig : FileConfig where
  entry := some true
  schedulerEnabled := true
  redisURL := lit "redis://localhost"
  profileDigest := some (List.replicate 64 0x61)
  gate := fun _ => by decide
  digest := by decide

/-- Two processes that share the file and an empty store. -/
def pair : Fleet 2 where
  world := { now := 0, keys := ⟨none, none⟩, issued := [], file := some enabledConfig }
  proc := fun _ => .boot (GoTime.ofUnix 1700000000)

/-- A number of calls of a process that do not fail, when its clock reads the given seconds of
the epoch. -/
def calls (i : Fin n) (seconds : ℤ) (token : Token) (count : ℕ) : List (Event n) :=
  List.replicate count (.exec i { token := token, reading := GoTime.ofUnix seconds })

/-- A replica has read the configuration, the state and the clock when `unregister` reads the
configuration, takes the lease and reads the state. -/
def beforeDisable : List (Event 2) :=
  [.start 1 .cycle] ++ calls 1 1700000000 (lit "replica") 3 ++ [.start 0 (.unregister false)] ++
    calls 0 1700000000 (lit "unregister") 3

theorem pair_idle :
  Idle pair
  := fun _ => ⟨rfl, rfl⟩

/-- The pair when `unregister` is about to disable the entry, and when it has. -/
def disabling : Fleet 2 := (run (step relaySubject) pair beforeDisable).get rfl

def disabled : Fleet 2 := (step relaySubject disabling (.exec 0 {})).get rfl

/-- `unregister` goes on up to the release of its lease, and the replica takes the lease. -/
def afterDisable : List (Event 2) :=
  calls 0 1700000000 [] 9 ++ calls 1 1700000000 (lit "replica") 4

/-- A replica whose cycle has begun before the entry is disabled takes the lease after it, and
starts no request. -/
theorem no_request_after_disable_begun :
  ∃ t, run (step relaySubject) disabled afterDisable = some t ∧ (t.proc 1).lease.isSome = true ∧
    (t.proc 1).requests = false
  := by
  have hrun := (Option.some_get (x := run (step relaySubject) pair beforeDisable) rfl).symm
  have hstep := (Option.some_get (x := step relaySubject disabling (.exec 0 {})) rfl).symm
  have hrun' := (Option.some_get (x := run (step relaySubject) disabled afterDisable) rfl).symm
  refine ⟨_, hrun', rfl, ?_⟩
  apply no_request_after_disable relaySubject pair_idle hrun (by decide) rfl hstep (by decide)
    hrun' (by decide) 1 rfl

/-! ### Commands -/

/-- A command that is about to start a request has taken the lease, or works without a
store. -/
theorem Proc.In.working {p : Proc} {φ : Phase} (hφ : p.In subject φ) (hrole : p.kind.role = .manual)
    (h : p.requests = true) :
  Working .manual φ
  := by
  obtain ⟨op, version, hnext, -⟩ := p.exists_send h
  rw [← hφ.role] at hrole
  cases hφ.allows hnext with
  | send l st now digest => cases hrole
  | alone role _ hcall =>
    obtain rfl : role = .manual := hrole
    exact .inl rfl
  | command role l _ hcall =>
    obtain rfl : role = .manual := hrole
    exact .inr ⟨l, rfl⟩

/-- A command begins to work when it takes the lease, or when it reads a file under which it
takes none. -/
theorem Moves.working {φ : Phase} {role : Role} (h : Moves startupBoundary φ o r ψ)
    (hψ : Working role ψ) :
  Working role φ ∨ φ = .waiting role ∧ o = .acquire ∨
    φ = .outside role ∧ ∃ config, takesLease config role = false ∧
      (⟨o, r⟩ : (o : DirectoryOp) × o.Reply) = ⟨.readConfig, some config⟩
  := by
  rcases hψ with rfl | ⟨l, rfl⟩
  · cases h with
    | stay => exact .inl (.inl rfl)
    | work _ config hnot => exact .inr (.inr ⟨rfl, config, hnot, rfl⟩)
  · cases h with
    | stay => exact .inl (.inr ⟨l, rfl⟩)
    | own => exact .inr (.inl ⟨rfl, rfl⟩)

/-- The entry is not enabled in the file, and no command other than `unregister` works. -/
def Quiet (subject : Subject) (s : Fleet n) : Prop :=
  ¬ s.world.EntryEnabled ∧ ∃ φ, InPhases subject s φ ∧ ∀ j, ¬ Working .manual (φ j)

theorem Quiet.step (h : Quiet subject s) (hgate : GateOpen s) (hedit : NotEnabling e)
    (hacquires : AcquiresEnabled s e) (he : Directory.step subject s e = some s') :
  Quiet subject s'
  := by
  obtain ⟨hentry, φ, hφ, hworking⟩ := h
  obtain ⟨φ', heffect, hφ'⟩ := step_effect hφ he
  refine ⟨heffect.entry hedit hentry, φ', hφ', ?_⟩
  apply heffect.forall_phase (P := fun φ => ¬ Working .manual φ) _ _ _ hworking
  · rintro (h | ⟨l, h⟩) <;> cases h
  · rintro i kind - (h | ⟨l, h⟩) <;> cases h
  · rintro i c o w p r ψ rfl hnext _ hperform hmoves hi hψ
    rcases hmoves.working hψ with h | ⟨hwaiting, rfl⟩ | ⟨-, config, hnot, heq⟩
    · apply hi h
    · apply hentry (hacquires _ hnext)
      rw [← (hφ i).role, hwaiting]
      rfl
    · cases heq
      have hfile := perform_readConfig hperform
      have hredis := config.gate (hgate config hfile)
      simp [takesLease, hgate config hfile, hredis] at hnot

/-- Any number of replicas and commands, on a file with the scheduler gate open, where no
lease runs out while a process holds it. Once a `DisableFile` of `unregister` has left the entry
not enabled, and until the file is edited to enable it again, no `register`, `heartbeat` or
`sync` command is ever about to start a register or heartbeat request, if such commands take
the lease only while the entry is enabled. -/
theorem no_command_request_after_disable (subject : Subject) {init s s₁ t : Fleet n}
    {es es' : List (Event n)} {i : Fin n} {c : Choice} (hinit : Idle init)
    (hrun : run (step subject) init es = some s)
    (hkept : Meets (step subject) (fun s e => GateOpen s ∧ LeasesKept s e) init es)
    (hcall : (s.proc i).prog.next? = some .disable)
    (hdisable : step subject s (.exec i c) = some s₁) (hdone : ¬ s₁.world.EntryEnabled)
    (hrun' : run (step subject) s₁ es' = some t)
    (hedit : Meets (step subject) (fun s e => GateOpen s ∧ NotEnabling e ∧ AcquiresEnabled s e)
      s₁ es') :
  ∀ j, (t.proc j).kind.role = .manual → (t.proc j).requests = false
  := by
  have hguarded : Guarded subject (fun _ => True) s := by
    apply run_invariant_of_meets _ (hinit.guarded _) hkept hrun
    intro s e s' h hC he
    apply h.step _ hC.2 he
    intro role _ config hconfig
    have hredis := config.gate (hC.1 config hconfig)
    cases role <;> simp [takesLease, hC.1 config hconfig, hredis]
  obtain ⟨φ, hφ, hrole, hothers⟩ := hguarded.disable trivial hcall hdisable
  have hquiet : Quiet subject s₁ := by
    refine ⟨hdone, φ, hφ, ?_⟩
    intro j hj
    by_cases hji : j = i
    · subst hji
      rcases hj with hj | ⟨l, hj⟩ <;> rw [hj] at hrole <;> cases hrole
    · obtain ⟨hlease, halone⟩ := hothers j hji
      rcases hj with hj | ⟨l, hj⟩
      · exact halone .manual trivial hj
      · rw [hj] at hlease
        cases hlease
  obtain ⟨-, φ', hφ', hworking⟩ : Quiet subject t := by
    apply run_invariant_of_meets _ hquiet hedit hrun'
    intro s e s' h hC he
    apply h.step hC.1 hC.2.1 hC.2.2 he
  intro j hrole'
  by_contra hrequests
  rw [Bool.not_eq_false] at hrequests
  apply hworking j ((hφ' j).working hrole' hrequests)

/-- A `register` command has read the configuration when `unregister` reads it, takes the
lease and reads the state. -/
def beforeDisableCommand : List (Event 2) :=
  [.start 1 .register] ++ calls 1 1700000000 [] 1 ++ [.start 0 (.unregister false)] ++
    calls 0 1700000000 (lit "unregister") 3

/-- The two commands when `unregister` is about to disable the entry, and when it has. -/
def disablingCommand : Fleet 2 := (run (step relaySubject) pair beforeDisableCommand).get rfl

def disabledCommand : Fleet 2 := (step relaySubject disablingCommand (.exec 0 {})).get rfl

/-- The operator stops `register` and starts `sync` when the entry is disabled. -/
def syncAfterDisable : List (Event 2) :=
  [.boot 1 0, .start 1 .sync] ++ calls 1 1700000000 [] 1

/-- A command that begins after the entry is disabled starts no request. -/
theorem no_command_request_after_disable_sync :
  ∃ t, run (step relaySubject) disabledCommand syncAfterDisable = some t ∧
    (t.proc 1).kind = .sync ∧ (t.proc 1).requests = false
  := by
  have hrun := (Option.some_get (x := run (step relaySubject) pair beforeDisableCommand) rfl).symm
  have hstep := (Option.some_get (x := step relaySubject disablingCommand (.exec 0 {})) rfl).symm
  have hrun' :=
    (Option.some_get (x := run (step relaySubject) disabledCommand syncAfterDisable) rfl).symm
  refine ⟨_, hrun', rfl, ?_⟩
  apply no_command_request_after_disable relaySubject pair_idle hrun (by decide) rfl hstep
    (by decide) hrun' (by decide) 1 rfl

/-- `unregister` goes on up to the release of its lease, and then `register` takes the lease,
reads the state and asks for the status of the directory. -/
def registerAfterDisable : List (Event 2) :=
  calls 0 1700000000 [] 9 ++ calls 1 1700000000 (lit "register") 3

/-- A `register` command that has read the configuration before the entry was disabled starts
its request after it. -/
theorem command_request_after_disable :
  ∃ t, run (step relaySubject) pair beforeDisableCommand = some disablingCommand ∧
    Meets (step relaySubject) (fun s e => GateOpen s ∧ LeasesKept s e) pair beforeDisableCommand ∧
    (disablingCommand.proc 0).prog.next? = some .disable ∧
    step relaySubject disablingCommand (.exec 0 {}) = some disabledCommand ∧
    ¬ disabledCommand.world.EntryEnabled ∧
    run (step relaySubject) disabledCommand registerAfterDisable = some t ∧
    Meets (step relaySubject) (fun s e => GateOpen s ∧ LeasesKept s e ∧ NotEnabling e)
      disabledCommand registerAfterDisable ∧
    (t.proc 1).kind.role = .manual ∧ (t.proc 1).requests = true
  := by
  exact ⟨_, rfl, by decide, rfl, rfl, by decide, rfl, by decide, rfl, rfl⟩

end Directory
