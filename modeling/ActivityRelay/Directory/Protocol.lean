import ActivityRelay.Directory.Command

/-!
# The protocol of the processes

What the programs of the scheduler and of the commands have in common, seen from the store
and the directory: the phases of a process, the calls it makes in each of them, and what it
has read when it makes them. A cycle of the scheduler sends its requests only in the phase
`sending`, which it reaches by taking the lease, reading the state, reading the clock,
finding the entry enabled, and finding that an operation is due, in this order. A command
sends its requests in the phase `owning`, or in the phase `alone` without a store.

All programs follow the protocol (`Kind.program_follows`).
-/

namespace Directory

open GoString GoTime Interaction Protocol

/-- The jobs of processes. -/
inductive Kind
  | cycle
  | register
  | heartbeat
  | sync
  | unregister (remove : Bool)
  deriving DecidableEq, Repr

def Kind.role : Kind → Role
  | cycle => .cycle
  | register | heartbeat | sync => .manual
  | unregister _ => .unregister

/-- The program of a job, for a scheduler that was started at `startupBoundary`. -/
def Kind.program (subject : Subject) (startupBoundary : ℤ) : Kind → DirectoryM Unit
  | cycle => do
      let _ ← runDirectory subject startupBoundary
      return ()
  | register => do
      let _ ← registerCommand subject
      return ()
  | heartbeat => do
      let _ ← heartbeatCommand subject
      return ()
  | sync => do
      let _ ← syncCommand subject
      return ()
  | unregister remove => do
      let _ ← unregisterCommand remove
      return ()

/-! ### Phases -/

/-- The phases of a process, with what it has read: the state `st`, the monotonic time `now`
of its decision, the digest of its client, and the time `finished` at which its requests
were finished. -/
inductive Phase
  | outside (role : Role)
  | waiting (role : Role)
  | alone (role : Role)
  | owning (role : Role) (lease : Lease)
  | leased (lease : Lease)
  | loaded (lease : Lease) (st : State)
  | timed (lease : Lease) (st : State) (now : ℤ)
  | enabled (lease : Lease) (st : State) (now : ℤ)
  | broken (lease : Lease) (st : State) (now : ℤ)
  | sending (lease : Lease) (st : State) (now : ℤ) (digest : GoString)
  | completed (lease : Lease) (st : State) (now : ℤ) (digest : GoString) (finished : ℤ)
  | closing (lease : Lease)

namespace Phase

def role : Phase → Role
  | outside r | waiting r | alone r | owning r _ => r
  | _ => .cycle

/-- The lease of a process between `Acquire` and `Release`. -/
def lease : Phase → Option Lease
  | outside _ | waiting _ | alone _ => none
  | owning _ l | leased l | loaded l _ | timed l _ _ | enabled l _ _ | broken l _ _
  | sending l _ _ _ | completed l _ _ _ _ | closing l => some l

end Phase

/-- The calls of a command to its directory and its file. -/
inductive CommandCall : Role → DirectoryOp → Prop
  | status (r) : CommandCall r .status
  | send (r op version) (h : op = .unregister ↔ r = .unregister) (hr : r ≠ .cycle) :
      CommandCall r (.send op version)
  | leaseLost (r) : CommandCall r .leaseLost
  | sleep (r delay) : CommandCall r (.sleep delay)
  | disable : CommandCall .unregister .disable
  | remove : CommandCall .unregister .remove

section Protocol

variable (subject : Subject) (startupBoundary : ℤ)

/-- What a cycle writes when its requests are finished. A heartbeat ends the requests only
of a relay that is registered with its profile. -/
inductive Finished (st : State) (digest : GoString) (finished : ℤ) : State → Prop
  | success (response : Response)
      (h : response.operation = .register ∨
        st.registered = true ∧ profileChanged st (some digest) = false) :
      Finished st digest finished
        (applySuccess subject st (clientProfileDigest digest) response finished)
  | failure (e : ClientError) : Finished st digest finished (applyFailure subject st finished e)

/-- The calls that are allowed in a phase. -/
inductive Allows : Phase → DirectoryOp → Prop
  | config (r) : Allows (.outside r) .readConfig
  | preview : Allows (.outside .cycle) .load
  | clock (persisted) : Allows (.outside .cycle) (.monotonicNow persisted)
  | acquire : Allows (.outside .cycle) .acquire
  | acquireCommand (r) : Allows (.waiting r) .acquire
  | alone (r o) (h : CommandCall r o) : Allows (.alone r) o
  | command (r l o) (h : CommandCall r o) : Allows (.owning r l) o
  | loadCommand (r l) : Allows (.owning r l) .load
  | clockCommand (r l) : Allows (.owning r l) .clock
  | saveCommand (r l st) (hr : r ≠ .cycle) : Allows (.owning r l) (.saveOwned l st)
  | load (l) : Allows (.leased l) .load
  | time (l st) : Allows (.loaded l st) (.monotonicNow st.lastObserved)
  | recheck (l st now) : Allows (.timed l st now) .readConfig
  | client (l st now) : Allows (.enabled l st now) .readConfig
  | saveBroken (l st now) :
      Allows (.broken l st now) (.saveOwned l (applyFailure subject st now .response))
  | status (l st now digest) : Allows (.sending l st now digest) .status
  | send (l st now digest op version) (h : op ≠ .unregister) :
      Allows (.sending l st now digest) (.send op version)
  | leaseLost (l st now digest) : Allows (.sending l st now digest) .leaseLost
  | cancelled (l st now digest) : Allows (.sending l st now digest) .cancelled
  | finish (l st now digest) :
      Allows (.sending l st now digest) (.monotonicNow st.lastObserved)
  | save (l st now digest finished st') (h : Finished subject st digest finished st') :
      Allows (.completed l st now digest finished) (.saveOwned l st')
  | release (l) : Allows (.closing l) (.release l)
  | releaseCommand (r l) : Allows (.owning r l) (.release l)

/-- The phase after the second decision of a cycle. -/
def decision (l : Lease) (st : State) (now : ℤ) : Option GoString → Phase
  | none => .broken l st now
  | some digest =>
      if notDue (startupReconciliationDue st startupBoundary) (profileChanged st (some digest)) st
          now then
        .closing l
      else .sending l st now digest

/-- The phase after a call and its reply. -/
def nextPhase : Phase → (o : DirectoryOp) → o.Reply → Phase
  | .outside .cycle, .acquire, some (some l) => .leased l
  | .outside .manual, .readConfig, some config =>
      if takesLease config .manual then .waiting .manual else .alone .manual
  | .outside .unregister, .readConfig, some config =>
      if takesLease config .unregister then .waiting .unregister else .alone .unregister
  | .waiting r, .acquire, some (some l) => .owning r l
  | .leased l, .load, some st => .loaded l st
  | .leased l, .load, none => .closing l
  | .loaded l st, .monotonicNow _, now => .timed l st now
  | .timed l st now, .readConfig, config =>
      if durableDirectoryEnabled config = some true then .enabled l st now else .closing l
  | .enabled l st now, .readConfig, config =>
      decision startupBoundary l st now (config.bind FileConfig.profileDigest)
  | .sending l _ _ _, .leaseLost, true => .closing l
  | .sending l _ _ _, .cancelled, true => .closing l
  | .sending l st now digest, .monotonicNow _, finished => .completed l st now digest finished
  | .broken l _ _, .saveOwned _ _, _ => .closing l
  | .completed l _ _ _ _, .saveOwned _ _, _ => .closing l
  | φ, .release _, _ => .outside φ.role
  | φ, _, _ => φ

/-- The protocol of a process whose scheduler was started at `startupBoundary`. -/
def protocol : Protocol DirectoryOp DirectoryOp.Reply Phase where
  allows := Allows subject
  next := nextPhase startupBoundary

/-- A cycle sends its requests only if they are due. -/
theorem decision_cases (l : Lease) (st : State) (now : ℤ) (digest : Option GoString) :
  digest = none ∧ decision startupBoundary l st now digest = .broken l st now ∨
    decision startupBoundary l st now digest = .closing l ∨
    ∃ d, digest = some d ∧ decision startupBoundary l st now digest = .sending l st now d ∧
      notDue (startupReconciliationDue st startupBoundary) (profileChanged st (some d)) st now
        = false
  := by
  cases digest with
  | none =>
    left
    exact ⟨rfl, rfl⟩
  | some d =>
    right
    by_cases hdue : notDue (startupReconciliationDue st startupBoundary)
      (profileChanged st (some d)) st now = true
    · left
      rw [decision, if_pos hdue]
    · right
      use d, rfl
      rw [decision, if_neg hdue]
      exact ⟨rfl, by simpa using hdue⟩

/-- How a call and its reply change the phase. -/
inductive Moves : Phase → (o : DirectoryOp) → o.Reply → Phase → Prop
  | stay (φ o r) (hsave : ∀ l st, o = .saveOwned l st → Phase.role φ ≠ .cycle)
      (hrelease : ∀ l, o ≠ .release l) : Moves φ o r φ
  | leave (l r) : Moves (.closing l) (.release l) r (.outside .cycle)
  | leaveCommand (role l r) : Moves (.owning role l) (.release l) r (.outside role)
  | wait (role config) (h : takesLease config role = true) :
      Moves (.outside role) .readConfig (some config) (.waiting role)
  | work (role config) (h : takesLease config role = false) :
      Moves (.outside role) .readConfig (some config) (.alone role)
  | own (role l) : Moves (.waiting role) .acquire (some (some l)) (.owning role l)
  | lease (l) : Moves (.outside .cycle) .acquire (some (some l)) (.leased l)
  | load (l st) : Moves (.leased l) .load (some st) (.loaded l st)
  | unloadable (l) : Moves (.leased l) .load none (.closing l)
  | time (l st now) :
      Moves (.loaded l st) (.monotonicNow st.lastObserved) now (.timed l st now)
  | enable (l st now config) (h : durableDirectoryEnabled config = some true) :
      Moves (.timed l st now) .readConfig config (.enabled l st now)
  | disabled (l st now config) : Moves (.timed l st now) .readConfig config (.closing l)
  | fail (l st now config) (h : config.bind FileConfig.profileDigest = none) :
      Moves (.enabled l st now) .readConfig config (.broken l st now)
  | request (l st now config digest) (h : config.bind FileConfig.profileDigest = some digest)
      (hdue : notDue (startupReconciliationDue st startupBoundary)
        (profileChanged st (some digest)) st now = false) :
      Moves (.enabled l st now) .readConfig config (.sending l st now digest)
  | defer (l st now config) : Moves (.enabled l st now) .readConfig config (.closing l)
  | saveBroken (l st now st' r) : Moves (.broken l st now) (.saveOwned l st') r (.closing l)
  | lost (l st now digest) : Moves (.sending l st now digest) .leaseLost true (.closing l)
  | cancel (l st now digest) : Moves (.sending l st now digest) .cancelled true (.closing l)
  | finish (l st now digest finished) :
      Moves (.sending l st now digest) (.monotonicNow st.lastObserved) finished
        (.completed l st now digest finished)
  | save (l st now digest finished st' r) :
      Moves (.completed l st now digest finished) (.saveOwned l st') r (.closing l)

/-- The choice of a command between the lease and no store. -/
theorem moves_config (role : Role) (config : FileConfig) :
  Moves startupBoundary (.outside role) .readConfig (some config)
    (if takesLease config role then .waiting role else .alone role)
  := by
  split
  · rename_i h
    exact .wait role config h
  · rename_i h
    exact .work role config (by simpa using h)

/-- The phase after a call is one that `Moves` describes. -/
theorem nextPhase_moves {φ : Phase} {o : DirectoryOp} (h : Allows subject φ o) (r : o.Reply) :
  Moves startupBoundary φ o r (nextPhase startupBoundary φ o r)
  := by
  cases h with
  | config role =>
    cases role with
    | cycle => exact .stay _ _ _ (by rintro _ _ ⟨⟩) (by rintro _ ⟨⟩)
    | manual | unregister =>
      rcases r with _ | config
      · exact .stay _ _ _ (by rintro _ _ ⟨⟩) (by rintro _ ⟨⟩)
      · apply moves_config
  | acquire =>
    rcases r with _ | _ | l
    · exact .stay _ _ _ (by rintro _ _ ⟨⟩) (by rintro _ ⟨⟩)
    · exact .stay _ _ _ (by rintro _ _ ⟨⟩) (by rintro _ ⟨⟩)
    · exact .lease l
  | acquireCommand role =>
    rcases r with _ | _ | l
    · exact .stay _ _ _ (by rintro _ _ ⟨⟩) (by rintro _ ⟨⟩)
    · exact .stay _ _ _ (by rintro _ _ ⟨⟩) (by rintro _ ⟨⟩)
    · exact .own role l
  | alone role o hcall | command role l o hcall =>
    cases hcall <;> exact .stay _ _ _ (by rintro _ _ ⟨⟩) (by rintro _ ⟨⟩)
  | load l =>
    rcases r with _ | st
    · exact .unloadable l
    · exact .load l st
  | time l st => exact .time l st r
  | recheck l st now =>
    simp only [nextPhase]
    split
    · rename_i henabled
      exact .enable l st now r henabled
    · exact .disabled l st now r
  | client l st now =>
    rcases decision_cases startupBoundary l st now (Option.bind r FileConfig.profileDigest)
      with ⟨hnone, hd⟩ | hd | ⟨digest, hsome, hd, hdue⟩ <;> rw [nextPhase, hd]
    · exact .fail l st now r hnone
    · exact .defer l st now r
    · exact .request l st now r digest hsome hdue
  | finish l st now digest => exact .finish l st now digest r
  | saveBroken l st now => exact .saveBroken l st now _ r
  | leaseLost l st now digest =>
    rcases r with _ | _
    · exact .stay _ _ _ (by rintro _ _ ⟨⟩) (by rintro _ ⟨⟩)
    · exact .lost l st now digest
  | cancelled l st now digest =>
    rcases r with _ | _
    · exact .stay _ _ _ (by rintro _ _ ⟨⟩) (by rintro _ ⟨⟩)
    · exact .cancel l st now digest
  | save l st now digest finished st' hfinished => exact .save l st now digest finished st' r
  | saveCommand role l st hrole => exact .stay _ _ _ (fun _ _ _ => hrole) (by rintro _ ⟨⟩)
  | release l => exact .leave l r
  | releaseCommand role l => exact .leaveCommand role l r
  | _ => exact .stay _ _ _ (by rintro _ _ ⟨⟩) (by rintro _ ⟨⟩)

end Protocol

/-! ### The programs follow the protocol -/

section Follows

variable {subject : Subject} {startupBoundary : ℤ} {l : Lease} {st : State} {now : ℤ}
  {digest : GoString} {Q : Phase → Except ClientError Response → Prop} {op : Operation} {φ : Phase}

/-- A program that follows the protocol and ends in the phase that it begins in. -/
def Stays (subject : Subject) (startupBoundary : ℤ) (φ : Phase) {α : Type} (p : DirectoryM α) :
    Prop :=
  (protocol subject startupBoundary).Follows (fun ψ _ => ψ = φ) φ p

/-- The requests of a cycle stay in the phase `sending`, and end with a heartbeat only if the
relay is registered with its profile. -/
def Reconciled (l : Lease) (st : State) (now : ℤ) (digest : GoString) (φ : Phase)
    (result : Except ClientError Response) : Prop :=
  φ = .sending l st now digest ∧ ∀ response, result = .ok response →
    response.operation = .register ∨
      st.registered = true ∧ profileChanged st (some digest) = false

theorem sendVersion_follows {version : ProtocolVersion}
    (hallow : Allows subject φ (.send op version))
    (hstay : ∀ r, nextPhase startupBoundary φ (.send op version) r = φ)
    (herror : ∀ e, Q φ (.error e)) (hok : Q φ (.ok ⟨op, version⟩)) :
  (protocol subject startupBoundary).Follows Q φ (sendVersion op version)
  := by
  use hallow
  intro r
  change (protocol subject startupBoundary).Follows Q (nextPhase _ φ _ r) _
  rw [hstay r]
  cases r with
  | error e => apply herror e
  | ok _ => apply hok

theorem negotiated_follows (hstatus : Allows subject φ .status)
    (hallow : ∀ version, Allows subject φ (.send op version))
    (hstay : ∀ r, nextPhase startupBoundary φ .status r = φ)
    (hstay' : ∀ version r, nextPhase startupBoundary φ (.send op version) r = φ)
    (herror : ∀ e, Q φ (.error e)) (hok : ∀ version, Q φ (.ok ⟨op, version⟩)) :
  (protocol subject startupBoundary).Follows Q φ (negotiated op)
  := by
  use hstatus
  intro r
  change (protocol subject startupBoundary).Follows Q (nextPhase _ φ _ r) _
  rw [hstay r]
  cases r with
  | error e => apply herror e
  | ok version => apply sendVersion_follows (hallow version) (hstay' version) herror (hok version)

theorem registerNegotiated_follows :
  (protocol subject startupBoundary).Follows (Reconciled l st now digest)
    (.sending l st now digest) registerNegotiated
  := by
  apply negotiated_follows (.status l st now digest)
  · intro version
    apply Allows.send l st now digest _ version (by simp)
  · intro r
    rfl
  · intro version r
    rfl
  · intro e
    use rfl
    rintro response ⟨⟩
  · intro version
    use rfl
    rintro response ⟨⟩
    left
    rfl

theorem heartbeat_follows (hreg : st.registered = true)
    (hsame : profileChanged st (some digest) = false) :
  (protocol subject startupBoundary).Follows (Reconciled l st now digest)
    (.sending l st now digest) heartbeatWithRegisterReconciliationNegotiated
  := by
  have hall : ∀ result, Reconciled l st now digest (.sending l st now digest) result :=
    fun _ => ⟨rfl, fun _ _ => .inr ⟨hreg, hsame⟩⟩
  have hsend : ∀ op version, op ≠ .unregister →
      (protocol subject startupBoundary).Follows (Reconciled l st now digest)
        (.sending l st now digest) (sendVersion op version) := by
    intro op version hop
    apply sendVersion_follows (.send l st now digest op version hop) (fun _ => rfl)
      (fun _ => hall _) (hall _)
  use .status l st now digest
  rintro (e | version)
  · apply hall
  refine ⟨.send l st now digest _ _ (by simp), ?_⟩
  rintro (e | _)
  · cases e with
    | protocol code retryAfter =>
      cases code with
      | relayNotRegistered =>
        refine ⟨.send l st now digest _ _ (by simp), ?_⟩
        rintro (e | _)
        · apply hall
        · apply hsend _ _ (by simp)
      | _ => apply hall
    | _ => apply hall
  · apply hall

theorem firstOperation_follows :
  (protocol subject startupBoundary).Follows (Reconciled l st now digest)
    (.sending l st now digest) (firstOperation st (profileChanged st (some digest)))
  := by
  unfold firstOperation
  split
  · rename_i h
    simp only [Bool.and_eq_true, Bool.not_eq_true'] at h
    apply heartbeat_follows h.1 h.2
  · apply registerNegotiated_follows

theorem reconcile_follows :
  (protocol subject startupBoundary).Follows (Reconciled l st now digest)
    (.sending l st now digest) (reconcile st (profileChanged st (some digest)))
  := by
  rw [reconcile, follows_bind]
  apply firstOperation_follows.mono
  rintro φ (e | response) ⟨rfl, hresult⟩
  · exact ⟨rfl, nofun⟩
  · change (protocol subject startupBoundary).Follows _ _ (if _ then _ else _)
    split
    · apply registerNegotiated_follows
    · exact ⟨rfl, hresult⟩

/-- A cycle that has written its state goes on to release its lease. -/
theorem saveAndReport_follows {st' : State} (hallow : Allows subject φ (.saveOwned l st'))
    (hnext : ∀ r, nextPhase startupBoundary φ (.saveOwned l st') r = .closing l) :
  (protocol subject startupBoundary).Follows (fun ψ _ => ψ = .closing l) φ
    (saveAndReport l st')
  := by
  use hallow
  intro r
  change (protocol subject startupBoundary).Follows _ (nextPhase _ φ _ r) _
  rw [hnext r]
  rcases r with _ | _ | _ <;> rfl

theorem runClient_follows :
  (protocol subject startupBoundary).Follows (fun ψ _ => ψ = .closing l)
    (decision startupBoundary l st now (some digest))
    (runClient subject l (startupReconciliationDue st startupBoundary) st now digest)
  := by
  simp only [runClient, decision]
  split
  · rfl
  rw [follows_bind]
  apply reconcile_follows.mono
  rintro φ result ⟨rfl, hresult⟩
  use .leaseLost l st now digest
  rintro (_ | _)
  · use .cancelled l st now digest
    rintro (_ | _)
    · use .finish l st now digest
      intro finished
      rcases result with e | response
      · apply saveAndReport_follows (.save _ _ _ _ _ _ (.failure e)) (fun _ => rfl)
      · apply saveAndReport_follows (.save _ _ _ _ _ _ (.success response (hresult _ rfl)))
          (fun _ => rfl)
    · rfl
  · rfl

theorem runOwned_follows :
  (protocol subject startupBoundary).Follows (fun ψ _ => ψ = .closing l) (.leased l)
    (runOwned subject startupBoundary l)
  := by
  refine follows_op.mpr ⟨.load l, ?_⟩
  rintro (_ | st)
  · rfl
  refine follows_op.mpr ⟨.time l st, fun now => ?_⟩
  refine follows_op.mpr ⟨.recheck l st now, fun config => ?_⟩
  change (protocol subject startupBoundary).Follows _ (if _ then _ else _) _
  rcases durableDirectoryEnabled config with _ | _ | _
  · rfl
  · rfl
  refine follows_op.mpr ⟨.client l st now, fun config' => ?_⟩
  change (protocol subject startupBoundary).Follows _
    (decision startupBoundary l st now (Option.bind config' FileConfig.profileDigest)) _
  rcases Option.bind config' FileConfig.profileDigest with _ | digest
  · apply saveAndReport_follows (.saveBroken l st now) (fun _ => rfl)
  · apply runClient_follows

/-- A cycle follows the protocol from outside the lease, and is outside of it at the end. -/
theorem runDirectory_follows :
  (protocol subject startupBoundary).Follows (fun ψ _ => ψ.lease = none) (.outside .cycle)
    (runDirectory subject startupBoundary)
  := by
  refine follows_op.mpr ⟨.config .cycle, fun config => ?_⟩
  rcases durableDirectoryEnabled config with _ | _ | _
  · rfl
  · rfl
  refine follows_op.mpr ⟨.preview, ?_⟩
  rintro (_ | st)
  · rfl
  refine follows_op.mpr ⟨.clock st.lastObserved, fun now => ?_⟩
  rw [follows_bind]
  have hpreview : Stays subject startupBoundary (.outside .cycle) (previewChanged st) := by
    unfold previewChanged
    split
    · refine follows_op.mpr ⟨.config .cycle, fun config => ?_⟩
      rfl
    · rfl
  apply hpreview.mono
  rintro φ changed rfl
  split
  · rfl
  refine follows_op.mpr ⟨.acquire, ?_⟩
  rintro (_ | _ | l)
  · rfl
  · rfl
  · rw [follows_bind]
    apply runOwned_follows.mono
    rintro φ result rfl
    exact ⟨.release l, fun _ => rfl⟩

/-! ### The commands -/

/-- The phases in which a command calls its directory. -/
def Working (r : Role) (φ : Phase) : Prop := φ = .alone r ∨ ∃ l, φ = .owning r l

variable {r : Role} {φ : Phase} {o : DirectoryOp}
  {operation : DirectoryM (Except ClientError Response)}

theorem Working.allows (hφ : Working r φ) (h : CommandCall r o) :
  Allows subject φ o
  := by
  rcases hφ with rfl | ⟨l, rfl⟩
  · apply Allows.alone r o h
  · apply Allows.command r l o h

theorem Working.nextPhase (hφ : Working r φ) (h : CommandCall r o) (x : o.Reply) :
  nextPhase startupBoundary φ o x = φ
  := by
  rcases hφ with rfl | ⟨l, rfl⟩ <;> cases h <;> rfl

/-- One call of a command to its directory or its file. -/
theorem Working.follows_op {α : Type} {Q : Phase → α → Prop} {f : o.Reply → DirectoryM α}
    (hφ : Working r φ) (h : CommandCall r o)
    (hf : ∀ x, (protocol subject startupBoundary).Follows Q φ (f x)) :
  (protocol subject startupBoundary).Follows Q φ (Prog.op (R := DirectoryOp.Reply) o >>= f)
  := by
  refine Protocol.follows_op.mpr ⟨hφ.allows h, fun x => ?_⟩
  change (protocol subject startupBoundary).Follows Q (Directory.nextPhase _ φ o x) _
  rw [hφ.nextPhase h x]
  apply hf

theorem Working.negotiated_follows (hφ : Working r φ) (hop : op = .unregister ↔ r = .unregister)
    (hr : r ≠ .cycle) :
  Stays subject startupBoundary φ (negotiated op)
  := by
  apply Directory.negotiated_follows (hφ.allows (.status r))
  · intro version
    apply hφ.allows (.send r op version hop hr)
  · intro x
    apply hφ.nextPhase (.status r)
  · intro version x
    apply hφ.nextPhase (.send r op version hop hr)
  · intro e
    rfl
  · intro version
    rfl

theorem Working.retryFrom_follows (hφ : Working r φ)
    (hop : Stays subject startupBoundary φ operation) :
  ∀ left attempt, Stays subject startupBoundary φ (retryFrom operation left attempt)
  := by
  intro left
  induction left with
  | zero =>
    intro _
    apply hop
  | succ left ih =>
    intro attempt
    refine (follows_bind _ _).mpr (hop.mono ?_)
    rintro ψ (e | response) rfl
    · dsimp only
      cases commandRetryDelay attempt e with
      | none => rfl
      | some delay =>
        apply hφ.follows_op (.sleep r delay)
        rintro (_ | _)
        · rfl
        · apply ih (attempt + 1)
    · rfl

theorem lifecycleOwned_follows (hop : Stays subject startupBoundary (.owning .manual l) operation) :
  Stays subject startupBoundary (.owning .manual l) (lifecycleOwned subject operation digest l st)
  := by
  have hφ : Working .manual (.owning .manual l) := .inr ⟨l, rfl⟩
  refine (follows_bind _ _).mpr ((hφ.retryFrom_follows hop 2 0).mono ?_)
  rintro ψ result rfl
  apply hφ.follows_op (.leaseLost .manual)
  rintro (_ | _)
  · rcases result with e | response
    · rfl
    · refine follows_op.mpr ⟨.clockCommand .manual l, fun now => ?_⟩
      split
      · rfl
      · refine follows_op.mpr ⟨.saveCommand .manual l _ (by simp), ?_⟩
        rintro (_ | _ | _) <;> rfl
  · rfl

/-- The lease is given up whatever the body returns. -/
theorem withLease_follows {body : Lease → State → DirectoryM (Except CommandError Unit)}
    (hbody : ∀ l st, Stays subject startupBoundary (.owning r l) (body l st)) :
  (protocol subject startupBoundary).Follows (fun ψ _ => ψ.lease = none) (.waiting r)
    (withLease body)
  := by
  refine follows_op.mpr ⟨.acquireCommand r, ?_⟩
  rintro (_ | _ | l)
  · rfl
  · rfl
  refine follows_op.mpr ⟨.loadCommand r l, ?_⟩
  rintro (_ | st)
  · exact ⟨.releaseCommand r l, fun _ => rfl⟩
  · rw [follows_bind]
    apply (hbody l st).mono
    rintro ψ result rfl
    exact ⟨.releaseCommand r l, fun _ => rfl⟩

theorem lifecycleAlone_follows (hop : Stays subject startupBoundary (.alone .manual) operation) :
  (protocol subject startupBoundary).Follows (fun ψ _ => ψ.lease = none) (.alone .manual)
    (lifecycleAlone operation)
  := by
  have hφ : Working .manual (.alone .manual) := .inl rfl
  rw [lifecycleAlone, follows_bind]
  apply (hφ.retryFrom_follows hop 2 0).mono
  rintro ψ (e | response) rfl <;> rfl

/-- The choice of a command between the lease and no store, after it has read the
configuration and found its client, or failed to. -/
theorem command_follows {config : FileConfig} {selected : Except CommandError GoString}
    {leased alone : GoString → DirectoryM (Except CommandError Unit)}
    (hleased : ∀ digest, (protocol subject startupBoundary).Follows (fun ψ _ => ψ.lease = none)
      (.waiting r) (leased digest))
    (halone : ∀ digest, (protocol subject startupBoundary).Follows (fun ψ _ => ψ.lease = none)
      (.alone r) (alone digest)) :
  (protocol subject startupBoundary).Follows (fun ψ _ => ψ.lease = none)
    (if takesLease config r then .waiting r else .alone r)
    (match selected with
      | .error e => return .error e
      | .ok digest => if takesLease config r then leased digest else alone digest)
  := by
  rcases selected with e | digest <;> split
  · rfl
  · rfl
  · apply hleased
  · apply halone

theorem lifecycleCommand_follows
    (hop : ∀ φ, Working .manual φ → Stays subject startupBoundary φ operation) :
  (protocol subject startupBoundary).Follows (fun ψ _ => ψ.lease = none) (.outside .manual)
    (lifecycleCommand subject operation)
  := by
  refine follows_op.mpr ⟨.config .manual, ?_⟩
  rintro (_ | config)
  · rfl
  apply command_follows
  · intro digest
    apply withLease_follows
    intro l st
    apply lifecycleOwned_follows (hop _ (.inr ⟨l, rfl⟩))
  · intro digest
    apply lifecycleAlone_follows (hop _ (.inl rfl))

/-- The phase of `unregister`, with a lease or without a store. -/
def unregisterPhase : Option (Lease × State) → Phase
  | none => .alone .unregister
  | some (l, _) => .owning .unregister l

variable (owned : Option (Lease × State))

theorem unregisterPhase_working :
  Working .unregister (unregisterPhase owned)
  := by
  rcases owned with _ | ⟨l, st⟩
  · left
    rfl
  · right
    exact ⟨l, rfl⟩

theorem saveSuppressed_follows (registered : State → Bool) :
  Stays subject startupBoundary (unregisterPhase owned) (saveSuppressed owned registered)
  := by
  rcases owned with _ | ⟨l, st⟩
  · rfl
  · refine follows_op.mpr ⟨.clockCommand .unregister l, fun now => ?_⟩
    refine follows_op.mpr ⟨.saveCommand .unregister l _ (by simp), fun x => ?_⟩
    rfl

theorem ownedLeaseHasBeenLost_follows :
  Stays subject startupBoundary (unregisterPhase owned) (ownedLeaseHasBeenLost owned)
  := by
  rcases owned with _ | ⟨l, st⟩
  · rfl
  · exact ⟨.command .unregister l _ (.leaseLost .unregister), fun _ => rfl⟩

theorem unregisterBody_follows (remove : Bool) :
  Stays subject startupBoundary (unregisterPhase owned) (unregisterBody owned remove)
  := by
  have hφ := unregisterPhase_working owned
  apply hφ.follows_op .disable
  rintro (_ | _)
  · rfl
  refine (follows_bind _ _).mpr ((saveSuppressed_follows owned _).mono ?_)
  rintro ψ (_ | _) rfl
  · rfl
  refine (follows_bind _ _).mpr ((ownedLeaseHasBeenLost_follows owned).mono ?_)
  rintro ψ (_ | _) rfl
  · have hop : Stays subject startupBoundary (unregisterPhase owned) unregisterNegotiated :=
      hφ.negotiated_follows (by simp) (by simp)
    refine (follows_bind _ _).mpr ((hφ.retryFrom_follows hop 2 0).mono ?_)
    rintro ψ result rfl
    refine (follows_bind _ _).mpr ((ownedLeaseHasBeenLost_follows owned).mono ?_)
    rintro ψ (_ | _) rfl
    · rcases result with e | response
      · rfl
      · refine (follows_bind _ _).mpr ((saveSuppressed_follows owned _).mono ?_)
        rintro ψ (_ | _) rfl
        · rfl
        · rcases remove with _ | _
          · rfl
          · apply hφ.follows_op .remove
            rintro (_ | _) <;> rfl
    · rfl
  · rfl

theorem unregisterCommand_follows (remove : Bool) :
  (protocol subject startupBoundary).Follows (fun ψ _ => ψ.lease = none) (.outside .unregister)
    (unregisterCommand remove)
  := by
  refine follows_op.mpr ⟨.config .unregister, ?_⟩
  rintro (_ | config)
  · rfl
  apply command_follows
  · intro _
    apply withLease_follows
    intro l st
    apply (unregisterBody_follows (some (l, st)) remove).mono
    rintro ψ result rfl
    rfl
  · intro _
    apply (unregisterBody_follows none remove).mono
    rintro ψ result rfl
    rfl

/-- The program of a job follows the protocol from outside the lease, and is outside of it
at the end. -/
theorem Kind.program_follows (kind : Kind) :
  (protocol subject startupBoundary).Follows (fun ψ _ => ψ.lease = none) (.outside kind.role)
    (kind.program subject startupBoundary)
  := by
  have hmanual : ∀ op, op ≠ .unregister → ∀ φ, Working .manual φ →
      Stays subject startupBoundary φ (negotiated op) := by
    intro op hop φ hφ
    apply hφ.negotiated_follows (by simpa using hop) (by simp)
  cases kind with
  | cycle => exact (follows_bind _ _).mpr runDirectory_follows
  | register | sync =>
    exact (follows_bind _ _).mpr
      (lifecycleCommand_follows (hmanual .register (by simp)))
  | heartbeat =>
    exact (follows_bind _ _).mpr
      (lifecycleCommand_follows (hmanual .heartbeat (by simp)))
  | unregister remove => exact (follows_bind _ _).mpr (unregisterCommand_follows remove)

end Follows

end Directory
