import ActivityRelay.Directory.Deadline

/-!
# What the processes write

The states that the scheduler and the commands pass to `SaveOwned`, in terms of what the process
has read: the state it has loaded under its lease, and the time. A cycle and a manual command write
once; `unregister` writes twice, before and after its request.

This is a second protocol of the same programs, which leaves the requests out: all other calls are
allowed at any time and change nothing (`Neutral`).
-/

namespace Directory

open Function GoString GoTime Interaction Protocol Transition

/-- A digest that a client can have. -/
def ClientDigest (digest : GoString) : Prop :=
  digest = [] ∨ digest.length = 64 ∧ digest.all isLowerHex = true

/-- The phases of a process, with the state it has loaded, before its lease (`previewed`) or under
it, and the time it has read since. -/
inductive Writing
  | outside (role : Role)
  | previewed (role : Role) (st : State)
  | owning (role : Role) (lease : Lease)
  | loaded (role : Role) (lease : Lease) (st : State)
  | timed (role : Role) (lease : Lease) (st : State) (now : ℤ)

namespace Writing

def role : Writing → Role
  | outside r | previewed r _ | owning r _ | loaded r _ _ | timed r _ _ _ => r

def lease : Writing → Option Lease
  | outside _ | previewed _ _ => none
  | owning _ l | loaded _ l _ | timed _ l _ _ => some l

/-- The state that has been loaded. -/
def state : Writing → Option State
  | outside _ | owning _ _ => none
  | previewed _ st | loaded _ _ st | timed _ _ st _ => some st

end Writing

section Protocol

variable (subject : Subject)

/-- What a process that has loaded the state `st` and has then read the time `now` may write. -/
inductive Written (st : State) (now : ℤ) : Role → State → Prop
  | failure (e : ClientError) : Written st now .cycle (applyFailure subject st now e)
  | success (digest : GoString) (response : Response) (hdigest : ClientDigest digest) :
      Written st now .cycle (applySuccess subject st (clientProfileDigest digest) response now)
  | command (digest : GoString) (response : Response) (hdigest : ClientDigest digest)
      (hlength : response.operation = .register → digest.length = 64) :
      Written st now .manual (commandSuccess subject st response digest now)
  | suppressed (registered : Bool) : Written st now .unregister (suppressedState st registered now)

/-- Calls that neither write nor change what a process knows of its state. -/
def Neutral : DirectoryOp → Prop
  | .readConfig | .leaseLost | .cancelled | .status | .send _ _ | .sleep _ | .disable | .remove =>
      True
  | .load | .monotonicNow _ | .clock | .acquire | .saveOwned _ _ | .release _ => False

/-- The calls that are allowed in a phase. -/
inductive Writes : Writing → DirectoryOp → Prop
  | neutral (φ o) (h : Neutral o) : Writes φ o
  | preview : Writes (.outside .cycle) .load
  | clock (st) : Writes (.previewed .cycle st) (.monotonicNow st.lastObserved)
  | acquire (st) : Writes (.previewed .cycle st) .acquire
  | acquireCommand (r) : Writes (.outside r) .acquire
  | load (r l) : Writes (.owning r l) .load
  | time (l st) : Writes (.loaded .cycle l st) (.monotonicNow st.lastObserved)
  | finish (l st now) : Writes (.timed .cycle l st now) (.monotonicNow st.lastObserved)
  | read (r l st) (h : r ≠ .cycle) : Writes (.loaded r l st) .clock
  | save (r l st now st') (h : Written subject st now r st') :
      Writes (.timed r l st now) (.saveOwned l st')
  | release (φ l) (h : Writing.lease φ = some l) : Writes φ (.release l)

/-- The phase after a call and its reply. -/
def nextWriting : Writing → (o : DirectoryOp) → o.Reply → Writing
  | .outside r, .load, some st => .previewed r st
  | .previewed r _, .acquire, some (some l) => .owning r l
  | .outside r, .acquire, some (some l) => .owning r l
  | .owning r l, .load, some st => .loaded r l st
  | .loaded r l st, .monotonicNow _, now => .timed r l st now
  | .timed r l st _, .monotonicNow _, now => .timed r l st now
  | .loaded r l st, .clock, now => .timed r l st now
  | .timed .unregister l st _, .saveOwned _ _, _ => .loaded .unregister l st
  | .timed r l _ _, .saveOwned _ _, _ => .owning r l
  | φ, .release _, _ => .outside φ.role
  | φ, _, _ => φ

def writing : Protocol DirectoryOp DirectoryOp.Reply Writing where
  allows := Writes subject
  next := nextWriting

end Protocol

/-! ### The programs follow the protocol -/

section Follows

variable {subject : Subject} {startupBoundary : ℤ} {r : Role} {l : Lease} {st : State} {φ : Writing}
  {α β : Type} {Q : Writing → β → Prop} {operation : DirectoryM (Except ClientError Response)}
  {digest : GoString}

theorem nextWriting_neutral {o : DirectoryOp} (h : Neutral o) (φ : Writing) (x : o.Reply) :
  nextWriting φ o x = φ
  := by
  cases o with
  | load | monotonicNow | clock | acquire | saveOwned | release => exact h.elim
  | _ => cases φ <;> rfl

theorem nextWriting_release (φ : Writing) (l : Lease) (x : Unit) :
  nextWriting φ (.release l) x = .outside φ.role
  := by
  cases φ <;> rfl

/-- A program without other calls follows the protocol in every phase. -/
theorem follows_of_neutral {p : DirectoryM α} (h : p.AllCalls Neutral) :
  (writing subject).Follows (fun ψ _ => ψ = φ) φ p
  := by
  induction p with
  | pure a => rfl
  | call o k ih =>
    use .neutral φ o h.1
    intro x
    change (writing subject).Follows _ (nextWriting φ o x) (k x)
    rw [nextWriting_neutral h.1]
    apply ih x (h.2 x)

theorem neutral_follows_op (o : DirectoryOp) {f : o.Reply → DirectoryM β} (h : Neutral o)
    (hf : ∀ x, (writing subject).Follows Q φ (f x)) :
  (writing subject).Follows Q φ (Prog.op (R := DirectoryOp.Reply) o >>= f)
  := by
  refine follows_op.mpr ⟨.neutral φ o h, fun x => ?_⟩
  change (writing subject).Follows Q (nextWriting φ o x) _
  rw [nextWriting_neutral h]
  apply hf

theorem neutral_follows_bind {p : DirectoryM α} {f : α → DirectoryM β} (h : p.AllCalls Neutral)
    (hf : ∀ x, (writing subject).Follows Q φ (f x)) :
  (writing subject).Follows Q φ (p >>= f)
  := by
  rw [follows_bind]
  apply (follows_of_neutral h).mono
  rintro ψ a rfl
  apply hf a

theorem sendVersion_neutral (op : Operation) (version : ProtocolVersion) :
  (sendVersion op version).AllCalls Neutral
  := by
  refine ⟨trivial, ?_⟩
  rintro (e | _) <;> exact trivial

theorem negotiated_neutral (op : Operation) :
  (negotiated op).AllCalls Neutral
  := by
  refine ⟨trivial, ?_⟩
  rintro (e | version)
  · exact trivial
  · apply sendVersion_neutral

theorem heartbeatWithRegisterReconciliation_neutral :
  heartbeatWithRegisterReconciliationNegotiated.AllCalls Neutral
  := by
  refine ⟨trivial, ?_⟩
  rintro (e | version)
  · exact trivial
  apply (sendVersion_neutral .heartbeat version).bind
  intro result
  split
  · exact trivial
  · apply (sendVersion_neutral .register version).bind
    rintro (e | _)
    · exact trivial
    · apply sendVersion_neutral
  · exact trivial

theorem reconcile_neutral (st : State) (changed : Bool) :
  (reconcile st changed).AllCalls Neutral
  := by
  apply Prog.AllCalls.bind
  · unfold firstOperation
    split
    · apply heartbeatWithRegisterReconciliation_neutral
    · apply negotiated_neutral
  · rintro (e | response)
    · exact trivial
    · change (if _ then _ else _ : DirectoryM _).AllCalls Neutral
      split
      · apply negotiated_neutral
      · exact trivial

theorem retryFrom_neutral (hop : operation.AllCalls Neutral) (left attempt : ℕ) :
  (retryFrom operation left attempt).AllCalls Neutral
  := by
  induction left generalizing attempt with
  | zero => exact hop
  | succ left ih =>
    apply hop.bind
    rintro (e | response)
    · dsimp only
      cases commandRetryDelay attempt e with
      | none => exact trivial
      | some delay =>
        refine ⟨trivial, ?_⟩
        rintro (_ | _)
        · exact trivial
        · apply ih (attempt + 1)
    · exact trivial

/-- A cycle that has written its state goes on to release its lease. -/
theorem saveAndReport_writes {now : ℤ} {st' : State} (h : Written subject st now .cycle st') :
  (writing subject).Follows (fun ψ _ => ψ.role = .cycle ∧ ψ.lease = some l) (.timed .cycle l st now)
    (saveAndReport l st')
  := by
  refine ⟨.save .cycle l st now st' h, ?_⟩
  rintro (_ | _ | _) <;> exact ⟨rfl, rfl⟩

theorem runClient_writes {now : ℤ} (startupDue : Bool) (hdigest : ClientDigest digest) :
  (writing subject).Follows (fun ψ _ => ψ.role = .cycle ∧ ψ.lease = some l)
    (.timed .cycle l st now) (runClient subject l startupDue st now digest)
  := by
  unfold runClient
  dsimp only
  split
  · exact ⟨rfl, rfl⟩
  apply neutral_follows_bind (reconcile_neutral st _)
  intro result
  apply neutral_follows_op .leaseLost trivial
  rintro (_ | _)
  · apply neutral_follows_op .cancelled trivial
    rintro (_ | _)
    · refine ⟨.finish l st now, fun finished => ?_⟩
      rcases result with e | response
      · apply saveAndReport_writes (.failure e)
      · apply saveAndReport_writes (.success digest response hdigest)
    · exact ⟨rfl, rfl⟩
  · exact ⟨rfl, rfl⟩

theorem clientDigest_of_file {config : Option FileConfig}
    (h : config.bind FileConfig.profileDigest = some digest) :
  ClientDigest digest
  := by
  obtain ⟨config, -, hdigest⟩ := Option.bind_eq_some_iff.mp h
  apply config.digest digest hdigest

theorem runOwned_writes (startupBoundary : ℤ) :
  (writing subject).Follows (fun ψ _ => ψ.role = .cycle ∧ ψ.lease = some l) (.owning .cycle l)
    (runOwned subject startupBoundary l)
  := by
  refine follows_op.mpr ⟨.load .cycle l, ?_⟩
  rintro (_ | st)
  · exact ⟨rfl, rfl⟩
  refine follows_op.mpr ⟨.time l st, fun now => ?_⟩
  apply neutral_follows_op .readConfig trivial
  intro config
  rcases durableDirectoryEnabled config with _ | _ | _
  · exact ⟨rfl, rfl⟩
  · exact ⟨rfl, rfl⟩
  apply neutral_follows_op .readConfig trivial
  intro config
  rcases hdigest : Option.bind config FileConfig.profileDigest with _ | digest
  · apply saveAndReport_writes (.failure .response)
  · apply runClient_writes _ (clientDigest_of_file hdigest)

/-- A cycle ends without the lease. -/
theorem runDirectory_writes (startupBoundary : ℤ) :
  (writing subject).Follows (fun ψ _ => ψ.lease = none) (.outside .cycle)
    (runDirectory subject startupBoundary)
  := by
  apply neutral_follows_op .readConfig trivial
  intro config
  rcases durableDirectoryEnabled config with _ | _ | _
  · rfl
  · rfl
  refine follows_op.mpr ⟨.preview, ?_⟩
  rintro (_ | st)
  · rfl
  refine follows_op.mpr ⟨.clock st, fun now => ?_⟩
  have hpreview : (previewChanged st).AllCalls Neutral := by
    unfold previewChanged
    split
    · exact ⟨trivial, fun _ => trivial⟩
    · exact trivial
  apply neutral_follows_bind hpreview
  intro changed
  split
  · rfl
  refine follows_op.mpr ⟨.acquire st, ?_⟩
  rintro (_ | _ | l)
  · rfl
  · rfl
  · rw [follows_bind]
    apply (runOwned_writes startupBoundary).mono
    rintro ψ result ⟨hrole, hlease⟩
    refine ⟨.release ψ l hlease, fun _ => ?_⟩
    change (nextWriting ψ (.release l) ()).lease = none
    rw [nextWriting_release]
    rfl

/-! ### The commands -/

/-- The body of `withLease` writes as the owner of the lease. -/
theorem withLease_writes {body : Lease → State → DirectoryM (Except CommandError Unit)}
    (hbody : ∀ l st, (writing subject).Follows (fun ψ _ => ψ.role = r ∧ ψ.lease = some l)
      (.loaded r l st) (body l st)) :
  (writing subject).Follows (fun ψ _ => ψ.lease = none) (.outside r) (withLease body)
  := by
  refine follows_op.mpr ⟨.acquireCommand r, ?_⟩
  rintro (_ | _ | l)
  · rfl
  · rfl
  refine follows_op.mpr ⟨.load r l, ?_⟩
  rintro (_ | st)
  · exact ⟨.release _ l rfl, fun _ => rfl⟩
  · rw [follows_bind]
    apply (hbody l st).mono
    rintro ψ result ⟨hrole, hlease⟩
    refine ⟨.release ψ l hlease, fun _ => ?_⟩
    change (nextWriting ψ (.release l) ()).lease = none
    rw [nextWriting_release]
    rfl

theorem lifecycleOwned_writes (hop : operation.AllCalls Neutral) (hdigest : ClientDigest digest) :
  (writing subject).Follows (fun ψ _ => ψ.role = .manual ∧ ψ.lease = some l)
    (.loaded .manual l st) (lifecycleOwned subject operation digest l st)
  := by
  apply neutral_follows_bind (retryFrom_neutral hop 2 0)
  intro result
  apply neutral_follows_op .leaseLost trivial
  rintro (_ | _)
  · rcases result with e | response
    · exact ⟨rfl, rfl⟩
    · refine follows_op.mpr ⟨.read .manual l st (by simp), fun now => ?_⟩
      split
      · exact ⟨rfl, rfl⟩
      · rename_i hlength
        refine follows_op.mpr ⟨.save .manual l st now _ ?_, ?_⟩
        · apply Written.command digest response hdigest
          intro hregister
          by_contra hne
          exact hlength ⟨hregister, hne⟩
        · rintro (_ | _ | _) <;> exact ⟨rfl, rfl⟩
  · exact ⟨rfl, rfl⟩

theorem clientDigest_of_selectedClient {config : FileConfig} {requireEnabled : Bool}
    (h : selectedClient config requireEnabled = .ok digest) :
  ClientDigest digest
  := by
  unfold selectedClient at h
  split at h
  · cases h
  split at h
  · cases h
  split at h
  · cases h
  · rename_i d hd
    obtain rfl := Except.ok.inj h
    apply config.digest d hd

theorem lifecycleCommand_writes (hop : operation.AllCalls Neutral) :
  (writing subject).Follows (fun ψ _ => ψ.lease = none) (.outside .manual)
    (lifecycleCommand subject operation)
  := by
  apply neutral_follows_op .readConfig trivial
  rintro (_ | config)
  · rfl
  cases hclient : selectedClient config true with
  | error e =>
    simp only [hclient]
    rfl
  | ok digest =>
    simp only [hclient]
    split
    · apply withLease_writes
      intro l st
      apply lifecycleOwned_writes hop (clientDigest_of_selectedClient hclient)
    · apply neutral_follows_bind (retryFrom_neutral hop 2 0)
      rintro (e | _) <;> rfl

/-- The phase of `unregister`, with a lease or without a store. -/
def unregisterWriting : Option (Lease × State) → Writing
  | none => .outside .unregister
  | some (l, st) => .loaded .unregister l st

theorem saveSuppressed_writes {f : Bool → DirectoryM β} (owned : Option (Lease × State))
    (registered : State → Bool)
    (hf : ∀ x, (writing subject).Follows Q (unregisterWriting owned) (f x)) :
  (writing subject).Follows Q (unregisterWriting owned) (saveSuppressed owned registered >>= f)
  := by
  rcases owned with _ | ⟨l, st⟩
  · apply hf true
  · refine ⟨.read .unregister l st (by simp), fun now => ?_⟩
    refine ⟨.save .unregister l st now _ (.suppressed _), fun x => ?_⟩
    apply hf

theorem ownedLeaseHasBeenLost_neutral (owned : Option (Lease × State)) :
  (ownedLeaseHasBeenLost owned).AllCalls Neutral
  := by
  unfold ownedLeaseHasBeenLost
  split
  · exact ⟨trivial, fun _ => trivial⟩
  · exact trivial

theorem unregisterBody_writes (owned : Option (Lease × State)) (remove : Bool) :
  (writing subject).Follows (fun ψ _ => ψ = unregisterWriting owned) (unregisterWriting owned)
    (unregisterBody owned remove)
  := by
  apply neutral_follows_op .disable trivial
  rintro (_ | _)
  · rfl
  apply saveSuppressed_writes
  rintro (_ | _)
  · rfl
  apply neutral_follows_bind (ownedLeaseHasBeenLost_neutral owned)
  rintro (_ | _)
  · apply neutral_follows_bind (retryFrom_neutral (negotiated_neutral _) 2 0)
    intro result
    apply neutral_follows_bind (ownedLeaseHasBeenLost_neutral owned)
    rintro (_ | _)
    · rcases result with e | response
      · rfl
      · apply saveSuppressed_writes
        rintro (_ | _)
        · rfl
        · rcases remove with _ | _
          · rfl
          · apply neutral_follows_op .remove trivial
            rintro (_ | _) <;> rfl
    · rfl
  · rfl

theorem unregisterCommand_writes (remove : Bool) :
  (writing subject).Follows (fun ψ _ => ψ.lease = none) (.outside .unregister)
    (unregisterCommand remove)
  := by
  apply neutral_follows_op .readConfig trivial
  rintro (_ | config)
  · rfl
  cases hclient : selectedClient config false with
  | error e =>
    simp only [hclient]
    rfl
  | ok digest =>
    simp only [hclient]
    split
    · apply withLease_writes
      intro l st
      apply (unregisterBody_writes (some (l, st)) remove).mono
      rintro ψ result rfl
      exact ⟨rfl, rfl⟩
    · apply (unregisterBody_writes none remove).mono
      rintro ψ result rfl
      rfl

/-- Every program follows the protocol. -/
theorem Kind.program_writes (kind : Kind) (startupBoundary : ℤ) :
  (writing subject).Follows (fun ψ _ => ψ.lease = none) (.outside kind.role)
    (kind.program subject startupBoundary)
  := by
  cases kind with
  | cycle => exact (follows_bind _ _).mpr (runDirectory_writes startupBoundary)
  | register | sync =>
    exact (follows_bind _ _).mpr (lifecycleCommand_writes (negotiated_neutral .register))
  | heartbeat =>
    exact (follows_bind _ _).mpr (lifecycleCommand_writes (negotiated_neutral .heartbeat))
  | unregister remove => exact (follows_bind _ _).mpr (unregisterCommand_writes remove)

end Follows

/-! ### The system -/

variable {subject : Subject} {n : ℕ} {φ : Fin n → Writing} {s : Fleet n}

/-- The process is in the phase `φ`. -/
structure Proc.WritesIn (subject : Subject) (p : Proc) (φ : Writing) : Prop where
  role : φ.role = p.kind.role
  lease : φ.lease = p.lease
  follows : (writing subject).Follows (fun ψ _ => ψ.lease = none) φ p.prog

theorem nextWriting_role (φ : Writing) (o : DirectoryOp) (r : o.Reply) :
  (nextWriting φ o r).role = φ.role
  := by
  unfold nextWriting
  split <;> rfl

/-- The lease that is followed is that of the process. -/
theorem Writes.perform {c : Choice} {w w' : World} {p p' : Proc} {o : DirectoryOp} {r : o.Reply}
    {φ : Writing} (hlease : φ.lease = p.lease) (hallow : Writes subject φ o)
    (h : Performs subject c w p o w' p' r) :
  (nextWriting φ o r).lease = p'.lease
  := by
  cases hallow with
  | neutral _ _ hneutral =>
    rw [nextWriting_neutral hneutral]
    cases h with
    | acquire | release | load | monotonicNow | clock | saveOwned => exact hneutral.elim
    | _ => exact hlease
  | acquire | acquireCommand =>
    cases h with
    | acquire r => rcases r with _ | _ | l <;> rfl
  | load | preview =>
    cases h with
    | load r => rcases r with _ | st <;> exact hlease
  | save role l st now st' hwritten =>
    cases h with
    | saveOwned => cases role <;> exact hlease
  | release _ l hl =>
    cases h with
    | release =>
      rw [nextWriting_release]
      rfl
  | clock | time | finish =>
    cases h with
    | monotonicNow => exact hlease
  | read role l st hrole =>
    cases h with
    | clock => exact hlease

/-- What a step does to the phases: nothing, a new job, or a call. -/
inductive WritingEffect (subject : Subject) (s : Fleet n) (φ : Fin n → Writing) :
    Event n → Fleet n → (Fin n → Writing) → Prop
  | other (e : Event n) (s' : Fleet n) (hcall : ∀ i c, e ≠ .exec i c)
      (hstate : s'.world.keys.state = s.world.keys.state)
      (hlatch : ∀ i, (s'.proc i).lastNow = (s.proc i).lastNow ∨
        ∃ reading persisted, e = .observe i reading persisted ∧
          (s'.proc i).lastNow = max (max (truncate reading) (s.proc i).lastNow) persisted) :
      WritingEffect subject s φ e s' φ
  | job (e : Event n) (i : Fin n) (role : Role) (p : Proc) (hcall : ∀ i c, e ≠ .exec i c)
      (hlatch : p.lastNow = (s.proc i).lastNow ∨ p.lastNow = 0) :
      WritingEffect subject s φ e (s.setProc i p) (update φ i (.outside role))
  | call (i : Fin n) (c : Choice) (o : DirectoryOp) (w : World) (p : Proc) (r : o.Reply)
      (k : o.Reply → DirectoryM Unit) (hprog : (s.proc i).prog = .call o k)
      (hallow : Writes subject (φ i) o) (hperform : perform subject c s.world (s.proc i) o = some (w, p, r)) :
      WritingEffect subject s φ (.exec i c)
        { world := w, proc := update s.proc i { p with prog := k r } }
        (update φ i (nextWriting (φ i) o r))

theorem writesIn_update (hφ : ∀ i, (s.proc i).WritesIn subject (φ i)) {i : Fin n} {p : Proc}
    {ψ : Writing} (hp : p.WritesIn subject ψ) (j : Fin n) :
  (update s.proc i p j).WritesIn subject (update φ i ψ j)
  := by
  by_cases hj : j = i
  · subst hj
    rw [update_self, update_self]
    exact hp
  · rw [update_of_ne hj, update_of_ne hj]
    exact hφ j

/-- One step of the system, seen through the phases. -/
theorem step_writing {s' : Fleet n} {e : Event n} (hφ : ∀ i, (s.proc i).WritesIn subject (φ i))
    (h : step subject s e = some s') :
  ∃ φ', WritingEffect subject s φ e s' φ' ∧ ∀ i, (s'.proc i).WritesIn subject (φ' i)
  := by
  cases e with
  | tick d =>
    cases h
    exact ⟨φ, .other _ _ (by rintro _ _ ⟨⟩) rfl (fun _ => .inl rfl), hφ⟩
  | edit file =>
    cases h
    exact ⟨φ, .other _ _ (by rintro _ _ ⟨⟩) rfl (fun _ => .inl rfl), hφ⟩
  | boot i reading =>
    cases h
    exact ⟨_, .job _ i .cycle _ (by rintro _ _ ⟨⟩) (.inr rfl), writesIn_update hφ ⟨rfl, rfl, rfl⟩⟩
  | start i kind =>
    simp only [step] at h
    split at h
    · cases h
      exact ⟨_, .job _ i kind.role _ (by rintro _ _ ⟨⟩) (.inl rfl),
        writesIn_update hφ ⟨rfl, rfl, kind.program_writes _⟩⟩
    · cases h
  | exec i c =>
    simp only [step] at h
    split at h
    · cases h
    · rename_i o k hprog
      obtain ⟨⟨w, p, r⟩, hperform, rfl⟩ := Option.map_eq_some_iff.mp h
      have hfollows := (hφ i).follows
      rw [hprog] at hfollows
      obtain ⟨hallow, hrest⟩ := hfollows
      refine ⟨_, .call i c o w p r k hprog hallow hperform, writesIn_update hφ ⟨?_, ?_, hrest r⟩⟩
      · rw [nextWriting_role, (hφ i).role]
        rw [(perform_proc hperform).1]
      · apply Writes.perform (hφ i).lease hallow (performs_of_perform hperform)
  | observe i reading persisted =>
    simp only [step] at h
    split at h
    · cases h
      refine ⟨φ, .other _ _ (by rintro _ _ ⟨⟩) rfl ?_, ?_⟩
      · intro j
        by_cases hj : j = i
        · subst hj
          exact .inr ⟨reading, persisted, rfl, by simp [Fleet.setProc]⟩
        · exact .inl (by simp [Fleet.setProc, hj])
      · intro j
        by_cases hj : j = i
        · subst hj
          simp only [Fleet.setProc, update_self]
          exact ⟨(hφ j).role, (hφ j).lease, (hφ j).follows⟩
        · simpa [Fleet.setProc, hj] using hφ j
    · cases h
  | renew i =>
    simp only [step] at h
    split at h
    · cases h
    · rename_i l hlease
      cases h
      refine ⟨φ, .other _ _ (by rintro _ _ ⟨⟩) ?_ (fun _ => .inl rfl), hφ⟩
      simp only [Keys.renew]
      split <;> rfl

theorem Idle.writesIn (h : Idle s) (i : Fin n) :
  (s.proc i).WritesIn subject (.outside (s.proc i).kind.role)
  := by
  obtain ⟨hprog, hlease⟩ := h i
  refine ⟨rfl, hlease.symm, ?_⟩
  rw [hprog]
  rfl

end Directory
