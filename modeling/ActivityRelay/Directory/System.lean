import Mathlib.Data.Fintype.Basic
import Mathlib.Logic.Function.Basic
import ActivityRelay.Directory.Protocol

/-!
# Processes around one directory

Any number of processes that share the store of a directory and the configuration file. A
process is a replica of the scheduler or a command; it executes its program call by call, and
the calls of the processes are interleaved in any order. What a call depends on beside the
shared state is chosen by the environment: the reading of a clock, a random token, the answer
of the directory, and whether a call fails before or after it has taken effect. Between the
calls time passes, the file is edited, leases are renewed, and processes are restarted.

Every process is at all times in a phase of the protocol (`InPhases`), so a property of the
whole system is a property of the phases and the shared state.
-/

namespace Directory

open Function GoString GoTime Interaction Transition

/-! ### The shared state and the processes -/

/-- What the processes share: the store with its clock in milliseconds, the tokens that have
been drawn, and the configuration file, `none` if it cannot be loaded. -/
structure World where
  now : ℤ
  keys : Keys
  issued : List Token
  file : Option FileConfig

/-- The deadline of the persisted state is after the given time. -/
def World.deadlineAhead (w : World) (now : ℤ) : Bool :=
  (w.keys.load w.now).any (fun st => now < st.nextAttempt)

/-- A process with its latch `lastNow`, the instant its scheduler was started at, the lease
it holds, and whether its job has started a register or heartbeat request before the
persisted deadline. -/
structure Proc where
  lastNow : ℤ
  startupBoundary : ℤ
  lease : Option Lease
  early : Bool
  kind : Kind
  prog : DirectoryM Unit

/-- A process whose scheduler is started when its clock reads `reading`. -/
def Proc.boot (reading : ℤ) : Proc where
  lastNow := 0
  startupBoundary := truncate reading
  lease := none
  early := false
  kind := .cycle
  prog := .pure ()

structure Fleet (n : ℕ) where
  world : World
  proc : Fin n → Proc

/-- How a call fails: before it takes effect, or after. -/
inductive Fault
  | none
  | dropped
  | unanswered
  deriving DecidableEq, Repr

/-- What the environment chooses at a call. -/
structure Choice where
  fault : Fault := .none
  token : Token := []
  reading : ℤ := 0
  flag : Bool := false
  status : Except ClientError ProtocolVersion := .ok .v1
  reply : Except ClientError Unit := .ok ()

/-! ### Calls -/

/-- The reply to a call that may fail. -/
def Fault.answer {α : Type} (fault : Fault) (reply : Option α) : Option α :=
  if fault = .none then reply else Option.none

/-- The keys after a call that may fail. -/
def Fault.keys (fault : Fault) (before after : Keys) : Keys :=
  if fault = .dropped then before else after

/-- `DisableFile` and `RemoveFile`: an entry is edited if the file has it. A file that cannot
be loaded still cannot be after an edit. -/
def editFile (edit : FileConfig → FileConfig) (fault : Fault) :
    Option FileConfig → Option FileConfig × Bool
  | some config =>
      if config.entry = none ∨ fault = .dropped then (some config, false)
      else (some (edit config), fault = .none)
  | none => (none, fault = .none)

variable (subject : Subject) {n : ℕ}

/-- The effect of a call, and its reply. The only choice that cannot be made is that of a
token that has been drawn before. -/
def perform (c : Choice) (w : World) (p : Proc) : (o : DirectoryOp) → Option (World × Proc × o.Reply)
  | .readConfig => some (w, p, c.fault.answer w.file)
  | .load => some (w, p, c.fault.answer (w.keys.load w.now))
  | .monotonicNow persisted =>
      let now := max (max (truncate c.reading) p.lastNow) persisted
      some (w, { p with lastNow := now }, now)
  | .clock => some (w, p, c.reading)
  | .acquire =>
      if c.token ∈ w.issued then none
      else
        let r := w.keys.acquire w.now leaseTTL subject.origin c.token
        let reply := c.fault.answer r.2
        some ({ w with keys := c.fault.keys w.keys r.1, issued := c.token :: w.issued },
          { p with lease := reply.join }, reply)
  | .saveOwned lease state =>
      let r := w.keys.saveOwned w.now subject.origin lease state
      some ({ w with keys := c.fault.keys w.keys r.1 }, p, c.fault.answer r.2)
  | .release lease =>
      some ({ w with keys := c.fault.keys w.keys (w.keys.release w.now lease) },
        { p with lease := none }, ())
  | .leaseLost => some (w, p, c.flag)
  | .cancelled => some (w, p, c.flag)
  | .status => some (w, p, c.status)
  | .send op _ =>
      let early := op ≠ .unregister && w.deadlineAhead p.lastNow
      some (w, { p with early := p.early || early }, c.reply)
  | .sleep _ => some (w, p, c.flag)
  | .disable =>
      let r := editFile FileConfig.disable c.fault w.file
      some ({ w with file := r.1 }, p, r.2)
  | .remove =>
      let r := editFile FileConfig.remove c.fault w.file
      some ({ w with file := r.1 }, p, r.2)

/-! ### Steps -/

/-- The events of the system. A process that is not in the middle of a job reads its clock
for other directories of its scheduler, too (`observe`). -/
inductive Event (n : ℕ)
  | tick (milliseconds : ℕ)
  | edit (file : Option FileConfig)
  | boot (i : Fin n) (reading : ℤ)
  | start (i : Fin n) (kind : Kind)
  | exec (i : Fin n) (c : Choice)
  | observe (i : Fin n) (reading persisted : ℤ)
  | renew (i : Fin n)

/-- The process at the start of a job. -/
def Proc.start (p : Proc) (kind : Kind) : Proc :=
  { p with
    lease := none
    early := false
    kind := kind
    prog := kind.program subject p.startupBoundary }

def Fleet.setProc (s : Fleet n) (i : Fin n) (p : Proc) : Fleet n :=
  { s with proc := update s.proc i p }

/-- One step of the system. -/
def step (s : Fleet n) : Event n → Option (Fleet n)
  | .tick d => some { s with world := { s.world with now := s.world.now + d } }
  | .edit file => some { s with world := { s.world with file := file } }
  | .boot i reading => some (s.setProc i (.boot reading))
  | .start i kind =>
      match (s.proc i).prog with
      | .pure _ => some (s.setProc i ((s.proc i).start subject kind))
      | .call _ _ => none
  | .exec i c =>
      match (s.proc i).prog with
      | .pure _ => none
      | .call o k =>
          (perform subject c s.world (s.proc i) o).map (fun r =>
            { world := r.1, proc := update s.proc i { r.2.1 with prog := k r.2.2 } })
  | .observe i reading persisted =>
      match (s.proc i).prog with
      | .pure _ =>
          let now := max (max (truncate reading) (s.proc i).lastNow) persisted
          some (s.setProc i { s.proc i with lastNow := now })
      | .call _ _ => none
  | .renew i =>
      match (s.proc i).lease with
      | none => none
      | some lease =>
          let keys := (s.world.keys.renew s.world.now leaseTTL lease).1
          some { s with world := { s.world with keys := keys } }

/-! ### Phases -/

/-- The times a process in a phase has read are in order, and the last of them is in the
latch of the process. -/
def Phase.Timed (lastNow : ℤ) : Phase → Prop
  | .timed _ st now | .enabled _ st now | .broken _ st now | .sending _ st now _ =>
      st.lastObserved ≤ now ∧ now = lastNow
  | .completed _ st now _ finished => st.lastObserved ≤ now ∧ now ≤ finished ∧ finished = lastNow
  | _ => True

/-- The process is in the phase `φ`. -/
structure Proc.In (p : Proc) (φ : Phase) : Prop where
  role : φ.role = p.kind.role
  lease : φ.lease = p.lease
  timed : φ.Timed p.lastNow
  follows : (protocol subject p.startupBoundary).Follows (fun ψ _ => ψ.lease = none) φ p.prog

variable {subject} {o : DirectoryOp} {r : o.Reply} {φ ψ : Phase} {c : Choice} {p p' : Proc}
  {w' w : World}

theorem Moves.role {startupBoundary : ℤ} (h : Moves startupBoundary φ o r ψ) :
  ψ.role = φ.role
  := by
  cases h with
  | _ => rfl

variable (subject) in
/-- What a call does to the world and to its process, and what it replies. -/
inductive Performs (c : Choice) (w : World) (p : Proc) :
    (o : DirectoryOp) → World → Proc → o.Reply → Prop
  | readConfig (r : Option FileConfig) (reply : r = c.fault.answer w.file) :
      Performs c w p .readConfig w p r
  | load (r : Option State) (reply : r = c.fault.answer (w.keys.load w.now)) :
      Performs c w p .load w p r
  | monotonicNow (persisted r : ℤ)
      (reply : r = max (max (truncate c.reading) p.lastNow) persisted) :
      Performs c w p (.monotonicNow persisted) w { p with lastNow := r } r
  | clock (r : ℤ) (reply : r = c.reading) : Performs c w p .clock w p r
  | acquire (r : Option (Option Lease)) (fresh : c.token ∉ w.issued)
      (reply : r = c.fault.answer (w.keys.acquire w.now leaseTTL subject.origin c.token).2) :
      Performs c w p .acquire
        { w with
          keys := c.fault.keys w.keys (w.keys.acquire w.now leaseTTL subject.origin c.token).1
          issued := c.token :: w.issued }
        { p with lease := r.join } r
  | saveOwned (l : Lease) (st : State) (r : Option Bool)
      (reply : r = c.fault.answer (w.keys.saveOwned w.now subject.origin l st).2) :
      Performs c w p (.saveOwned l st)
        { w with keys := c.fault.keys w.keys (w.keys.saveOwned w.now subject.origin l st).1 } p r
  | release (l : Lease) :
      Performs c w p (.release l)
        { w with keys := c.fault.keys w.keys (w.keys.release w.now l) }
        { p with lease := none } ()
  | leaseLost (r : Bool) (reply : r = c.flag) : Performs c w p .leaseLost w p r
  | cancelled (r : Bool) (reply : r = c.flag) : Performs c w p .cancelled w p r
  | status (r : Except ClientError ProtocolVersion) (reply : r = c.status) :
      Performs c w p .status w p r
  | send (op : Operation) (version : ProtocolVersion) (r : Except ClientError Unit)
      (reply : r = c.reply) :
      Performs c w p (.send op version) w
        { p with early := p.early || (op ≠ .unregister && w.deadlineAhead p.lastNow) } r
  | sleep (delay : ℤ) (r : Bool) (reply : r = c.flag) : Performs c w p (.sleep delay) w p r
  | disable (r : Bool) (reply : r = (editFile FileConfig.disable c.fault w.file).2) :
      Performs c w p .disable
        { w with file := (editFile FileConfig.disable c.fault w.file).1 } p r
  | remove (r : Bool) (reply : r = (editFile FileConfig.remove c.fault w.file).2) :
      Performs c w p .remove
        { w with file := (editFile FileConfig.remove c.fault w.file).1 } p r

theorem performs_of_perform (h : perform subject c w p o = some (w', p', r)) :
  Performs subject c w p o w' p' r
  := by
  cases o with
  | acquire =>
    obtain ⟨hfresh, h⟩ := Option.ite_none_left_eq_some.mp h
    obtain ⟨rfl, rfl, rfl⟩ := h
    exact .acquire _ hfresh rfl
  | release l =>
    obtain ⟨rfl, rfl, -⟩ := h
    exact .release l
  | _ =>
    obtain ⟨rfl, rfl, rfl⟩ := h
    constructor
    rfl

/-- What a call leaves as it is in its process. -/
theorem perform_proc (h : perform subject c w p o = some (w', p', r)) :
  p'.kind = p.kind ∧ p'.startupBoundary = p.startupBoundary
  := by
  cases performs_of_perform h with
  | _ => exact ⟨rfl, rfl⟩

/-- A command's call to its directory or its file touches neither the store nor the clock of
the process. -/
theorem perform_commandCall {role : Role} (hcall : CommandCall role o)
    (h : perform subject c w p o = some (w', p', r)) :
  p'.lease = p.lease ∧ p'.lastNow = p.lastNow ∧ w'.now = w.now ∧ w'.keys = w.keys ∧
    w'.issued = w.issued
  := by
  cases hcall with
  | _ =>
    cases performs_of_perform h with
    | _ => exact ⟨rfl, rfl, rfl, rfl, rfl⟩

/-- A call keeps the lease and the clock of the phase those of the process. -/
theorem Proc.In.perform (hφ : φ.lease = p.lease ∧ φ.Timed p.lastNow) (hallow : Allows subject φ o)
    (h : Directory.perform subject c w p o = some (w', p', r)) :
  (nextPhase p.startupBoundary φ o r).lease = p'.lease ∧
    (nextPhase p.startupBoundary φ o r).Timed p'.lastNow
  := by
  obtain ⟨hlease, htimed⟩ := hφ
  have hperforms := performs_of_perform h
  cases hallow with
  | acquire | acquireCommand =>
    cases hperforms with
    | acquire r => rcases r with _ | _ | l <;> exact ⟨rfl, trivial⟩
  | alone role o hcall =>
    obtain ⟨hl, ht, -⟩ := perform_commandCall hcall h
    rw [Working.nextPhase (.inl rfl) hcall, hl, ht]
    exact ⟨hlease, htimed⟩
  | command role l o hcall =>
    obtain ⟨hl, ht, -⟩ := perform_commandCall hcall h
    rw [Working.nextPhase (.inr ⟨l, rfl⟩) hcall, hl, ht]
    exact ⟨hlease, htimed⟩
  | release | releaseCommand =>
    cases hperforms with
    | release => exact ⟨rfl, trivial⟩
  | config role =>
    cases hperforms with
    | readConfig r =>
      cases role <;> rcases r with _ | config
      all_goals first | exact ⟨hlease, trivial⟩ | skip
      all_goals
        simp only [nextPhase]
        split <;> exact ⟨hlease, trivial⟩
  | load l =>
    cases hperforms with
    | load r => rcases r with _ | st <;> exact ⟨hlease, trivial⟩
  | recheck l st now =>
    cases hperforms with
    | readConfig r =>
      simp only [nextPhase]
      split
      · exact ⟨hlease, htimed⟩
      · exact ⟨hlease, trivial⟩
  | client l st now =>
    cases hperforms with
    | readConfig r =>
      rcases decision_cases p.startupBoundary l st now (Option.bind r FileConfig.profileDigest)
        with ⟨-, hd⟩ | hd | ⟨digest, -, hd, -⟩
      · rw [nextPhase, hd]
        exact ⟨hlease, htimed⟩
      · rw [nextPhase, hd]
        exact ⟨hlease, trivial⟩
      · rw [nextPhase, hd]
        exact ⟨hlease, htimed⟩
  | time l st =>
    cases hperforms with
    | monotonicNow _ r hr =>
      refine ⟨hlease, ?_, rfl⟩
      rw [hr]
      exact le_max_right _ _
  | finish l st now digest =>
    cases hperforms with
    | monotonicNow _ r hr =>
      obtain ⟨hobserved, rfl⟩ := htimed
      refine ⟨hlease, hobserved, ?_, rfl⟩
      rw [hr]
      exact le_max_of_le_left (le_max_right _ _)
  | leaseLost l st now digest =>
    cases hperforms with
    | leaseLost r =>
      rcases r with _ | _
      · exact ⟨hlease, htimed⟩
      · exact ⟨hlease, trivial⟩
  | cancelled l st now digest =>
    cases hperforms with
    | cancelled r =>
      rcases r with _ | _
      · exact ⟨hlease, htimed⟩
      · exact ⟨hlease, trivial⟩
  | saveBroken | save =>
    cases hperforms with
    | saveOwned => exact ⟨hlease, trivial⟩
  | _ =>
    cases hperforms with
    | _ => exact ⟨hlease, htimed⟩

theorem Proc.In.exec {k : o.Reply → DirectoryM Unit} (hφ : p.In subject φ)
    (hprog : p.prog = .call o k) (h : Directory.perform subject c w p o = some (w', p', r)) :
  Allows subject φ o ∧
    Proc.In subject { p' with prog := k r } (nextPhase p.startupBoundary φ o r)
  := by
  have hfollows := hφ.follows
  rw [hprog] at hfollows
  obtain ⟨hallow, hrest⟩ := hfollows
  obtain ⟨hlease, htimed⟩ := Proc.In.perform ⟨hφ.lease, hφ.timed⟩ hallow h
  obtain ⟨hkind, hboundary⟩ := perform_proc h
  refine ⟨hallow, ?_, hlease, htimed, ?_⟩
  · rw [(nextPhase_moves _ _ hallow r).role, hφ.role]
    rw [hkind]
  · dsimp only
    rw [hboundary]
    apply hrest r

/-- The call a process in a phase is about to make is allowed. -/
theorem Proc.In.allows (hφ : p.In subject φ) (h : p.prog.next? = some o) :
  Allows subject φ o
  := by
  have hfollows := hφ.follows
  cases hprog : p.prog with
  | pure a =>
    rw [hprog] at h
    cases h
  | call o' k =>
    rw [hprog] at h hfollows
    cases h
    exact hfollows.1

/-- The process is about to start a register or heartbeat request. -/
def Proc.requests (p : Proc) : Bool :=
  match p.prog.next? with
  | some (.send op _) => op ≠ .unregister
  | _ => false

theorem Proc.exists_send (h : p.requests = true) :
  ∃ op version, p.prog.next? = some (.send op version) ∧ op ≠ .unregister
  := by
  unfold Proc.requests at h
  split at h
  · rename_i op version hnext
    exact ⟨op, version, hnext, by simpa using h⟩
  · cases h

/-- A replica that is about to start a request is in the phase `sending`. -/
theorem Proc.In.sending (hφ : p.In subject φ) (hrole : p.kind.role = .cycle)
    (h : p.requests = true) :
  ∃ l st now digest, φ = .sending l st now digest
  := by
  obtain ⟨op, version, hnext, -⟩ := p.exists_send h
  rw [← hφ.role] at hrole
  cases hφ.allows hnext with
  | send l st now digest => exact ⟨l, st, now, digest, rfl⟩
  | alone role _ hcall | command role l _ hcall =>
    cases hcall with
    | send _ _ _ _ hcycle => exact absurd hrole hcycle

/-- A process that is not in a job holds no lease, and its clock may go on. -/
theorem Proc.In.idle (hφ : p.In subject φ) {u : Unit} (hprog : p.prog = .pure u) :
  φ.lease = none ∧ ∀ t, φ.Timed t
  := by
  have hlease := hφ.follows
  rw [hprog] at hlease
  have hnone : φ.lease = none := hlease
  use hnone
  intro t
  cases φ <;> trivial

theorem Proc.In.start (kind : Kind) :
  (p.start subject kind).In subject (.outside kind.role)
  := ⟨rfl, rfl, trivial, kind.program_follows⟩

theorem Proc.In.boot (reading : ℤ) :
  (Proc.boot reading).In subject (.outside .cycle)
  := ⟨rfl, rfl, trivial, rfl⟩

/-! ### What a step does -/

variable (subject) in
/-- Every process is in its phase. -/
def InPhases (s : Fleet n) (φ : Fin n → Phase) : Prop := ∀ i, (s.proc i).In subject (φ i)

variable (subject) in
/-- What a step does to the shared state, the processes and their phases. -/
inductive Effect (s : Fleet n) (φ : Fin n → Phase) : Event n → Fleet n → (Fin n → Phase) → Prop
  | tick (d : ℕ) :
      Effect s φ (.tick d) { s with world := { s.world with now := s.world.now + d } } φ
  | edit (file : Option FileConfig) :
      Effect s φ (.edit file) { s with world := { s.world with file := file } } φ
  | boot (i : Fin n) (reading : ℤ) :
      Effect s φ (.boot i reading) (s.setProc i (.boot reading))
        (update φ i (.outside .cycle))
  | start (i : Fin n) (kind : Kind) (hidle : (φ i).lease = none) :
      Effect s φ (.start i kind) (s.setProc i ((s.proc i).start subject kind))
        (update φ i (.outside kind.role))
  | exec (i : Fin n) (c : Choice) (o : DirectoryOp) (k : o.Reply → DirectoryM Unit)
      (w : World) (p : Proc) (r : o.Reply) (ψ : Phase) (hprog : (s.proc i).prog = .call o k)
      (hallow : Allows subject (φ i) o)
      (hperform : perform subject c s.world (s.proc i) o = some (w, p, r))
      (hmoves : Moves (s.proc i).startupBoundary (φ i) o r ψ) :
      Effect s φ (.exec i c)
        { world := w, proc := update s.proc i { p with prog := k r } }
        (update φ i ψ)
  | observe (i : Fin n) (reading persisted now : ℤ) (hidle : (φ i).lease = none)
      (hnow : now = max (max (truncate reading) (s.proc i).lastNow) persisted) :
      Effect s φ (.observe i reading persisted) (s.setProc i { s.proc i with lastNow := now }) φ
  | renew (i : Fin n) (l : Lease) (hlease : (φ i).lease = some l) :
      Effect s φ (.renew i)
        { s with
          world := { s.world with keys := (s.world.keys.renew s.world.now leaseTTL l).1 } } φ

theorem InPhases.update {s : Fleet n} {φ : Fin n → Phase} (hφ : InPhases subject s φ) {i : Fin n}
    (hp : p.In subject ψ) (w : World) :
  InPhases subject { world := w, proc := update s.proc i p } (update φ i ψ)
  := by
  intro j
  by_cases hj : j = i
  · subst hj
    simpa using hp
  · simpa [hj] using hφ j

variable {e : Event n}

/-- One step of the system, seen through the phases. -/
theorem step_effect {s s' : Fleet n} {φ : Fin n → Phase} (hφ : InPhases subject s φ)
    (h : step subject s e = some s') :
  ∃ φ', Effect subject s φ e s' φ' ∧ InPhases subject s' φ'
  := by
  cases e with
  | tick d =>
    cases h
    exact ⟨φ, .tick d, hφ⟩
  | edit file =>
    cases h
    exact ⟨φ, .edit file, hφ⟩
  | boot i reading =>
    cases h
    exact ⟨_, .boot i reading, hφ.update (.boot reading) s.world⟩
  | start i kind =>
    simp only [step] at h
    split at h
    · rename_i u hprog
      cases h
      exact ⟨_, .start i kind ((hφ i).idle hprog).1, hφ.update (.start kind) s.world⟩
    · cases h
  | exec i c =>
    simp only [step] at h
    split at h
    · cases h
    · rename_i o k hprog
      obtain ⟨⟨w, p, r⟩, hperform, rfl⟩ := Option.map_eq_some_iff.mp h
      obtain ⟨hallow, hp⟩ := (hφ i).exec hprog hperform
      exact ⟨_, .exec i c o k w p r _ hprog hallow hperform (nextPhase_moves _ _ hallow r),
        hφ.update hp w⟩
  | observe i reading persisted =>
    simp only [step] at h
    split at h
    · rename_i u hprog
      cases h
      obtain ⟨hidle, htimed⟩ := (hφ i).idle hprog
      refine ⟨φ, .observe i reading persisted _ hidle rfl, ?_⟩
      intro j
      by_cases hj : j = i
      · subst hj
        simp only [Fleet.setProc, update_self]
        exact ⟨(hφ j).role, (hφ j).lease, htimed _, (hφ j).follows⟩
      · simpa [Fleet.setProc, hj] using hφ j
    · cases h
  | renew i =>
    simp only [step] at h
    split at h
    · cases h
    · rename_i l hlease
      cases h
      exact ⟨φ, .renew i l ((hφ i).lease.trans hlease), hφ⟩

/-- The process that takes part in an event. -/
def Event.actor? : Event n → Option (Fin n)
  | .boot i _ | .start i _ | .exec i _ | .observe i _ _ => some i
  | .tick _ | .edit _ | .renew _ => none

/-- A process that does not take part in an event is left as it is. -/
theorem Effect.other {s s' : Fleet n} {φ φ' : Fin n → Phase} {i : Fin n}
    (he : Effect subject s φ e s' φ') (h : e.actor? ≠ some i) :
  s'.proc i = s.proc i ∧ φ' i = φ i
  := by
  have hne : ∀ j : Fin n, some j ≠ some i → i ≠ j := fun j hj hij => hj (congrArg some hij.symm)
  cases he with
  | tick | edit | renew => exact ⟨rfl, rfl⟩
  | boot j reading | start j kind hidle | exec j c o k w p r ψ hprog hallow hperform hmoves =>
    exact ⟨update_of_ne (hne j h) _ _, update_of_ne (hne j h) _ _⟩
  | observe j reading persisted now hidle hnow =>
    exact ⟨update_of_ne (hne j h) _ _, rfl⟩

/-- A property of phases that holds at the start of a job and is kept by the calls of a step is
kept by the step. -/
theorem Effect.forall_phase {P : Phase → Prop} {s s' : Fleet n} {φ φ' : Fin n → Phase}
    (he : Effect subject s φ e s' φ') (hboot : P (.outside .cycle))
    (hstart : ∀ i kind, e = .start i kind → P (.outside kind.role))
    (hcall : ∀ i c o w p r ψ, e = .exec i c → (s.proc i).prog.next? = some o →
      Allows subject (φ i) o → perform subject c s.world (s.proc i) o = some (w, p, r) →
      Moves (s.proc i).startupBoundary (φ i) o r ψ → P (φ i) → P ψ) (h : ∀ i, P (φ i)) :
  ∀ i, P (φ' i)
  := by
  have hupdate : ∀ i ψ, P ψ → ∀ j, P (update φ i ψ j) := by
    intro i ψ hψ j
    by_cases hj : j = i
    · subst hj
      rw [update_self]
      apply hψ
    · rw [update_of_ne hj]
      apply h
  cases he with
  | tick | edit | observe | renew => apply h
  | boot i reading => apply hupdate i _ hboot
  | start i kind hidle => apply hupdate i _ (hstart i kind rfl)
  | exec i c o k w p r ψ hprog hallow hperform hmoves =>
    apply hupdate i
    apply hcall i c o w p r ψ rfl _ hallow hperform hmoves (h i)
    rw [hprog]
    rfl

/-- What a call does to the lease key, the tokens that have been drawn, and the lease of the
process, which was `before` and is `after`. A lease that is taken may be unknown to the
process if the call was not answered. -/
inductive LeaseEffect (origin : GoString) (w : World) (before : Option Lease) (w' : World)
    (after : Option Lease) : Prop
  | kept (hkey : w'.keys.lease = w.keys.lease) (hissued : ∀ t ∈ w.issued, t ∈ w'.issued)
      (hafter : after = before)
  | taken (token : Token) (hfree : w.keys.lease.get w.now = none) (hfresh : token ∉ w.issued)
      (hkey : w'.keys.lease = Redis.Cell.set w.now leaseTTL token)
      (hissued : w'.issued = token :: w.issued) (hbefore : before = none)
      (hafter : after = some ⟨origin, token⟩ ∨ after = none)
  | released (l : Lease) (hbefore : before = some l) (hafter : after = none)
      (hissued : w'.issued = w.issued)
      (hkey : w'.keys.lease = w.keys.lease ∨
        w'.keys.lease = (w.keys.lease.compareDel w.now l.value).1)

theorem perform_now (h : perform subject c w p o = some (w', p', r)) :
  w'.now = w.now
  := by
  cases performs_of_perform h with
  | _ => rfl

/-- A call with an answer has not failed. -/
theorem Fault.eq_of_answer {α : Type} {fault : Fault} {reply : Option α} {a : α}
    (h : some a = fault.answer reply) :
  reply = some a
  := by
  unfold Fault.answer at h
  split at h
  · exact h.symm
  · cases h

/-- A configuration that is read is the one in the file. -/
theorem perform_readConfig {config : FileConfig}
    (h : perform subject c w p .readConfig = some (w', p', some config)) :
  w.file = some config
  := by
  cases performs_of_perform h with
  | readConfig _ hr => exact Fault.eq_of_answer hr

theorem perform_acquire {r : Option (Option Lease)} {before : Option Lease}
    (hbefore : before = none) (h : perform subject c w p .acquire = some (w', p', r)) :
  LeaseEffect subject.origin w before w' p'.lease
  := by
  cases performs_of_perform h with
  | acquire _ hfresh hr =>
    subst hr
    have hissued : ∀ t ∈ w.issued, t ∈ c.token :: w.issued := fun t ht => List.mem_cons_of_mem _ ht
    rcases w.keys.acquire_cases w.now leaseTTL subject.origin c.token with
      ⟨hsame, hnot⟩ | ⟨hfree, -, hset⟩
    · apply LeaseEffect.kept _ hissued _
      · simp only [hsame, Fault.keys, ite_self]
      · rw [hbefore]
        simp only [Fault.answer]
        split
        · rcases hr : (w.keys.acquire w.now leaseTTL subject.origin c.token).2 with _ | _ | l
          · rfl
          · rfl
          · exact absurd hr (hnot l)
        · rfl
    · rw [hset]
      cases hfault : c.fault with
      | none => exact .taken c.token hfree hfresh rfl rfl hbefore (.inl rfl)
      | dropped => exact .kept rfl hissued hbefore.symm
      | unanswered => exact .taken c.token hfree hfresh rfl rfl hbefore (.inr rfl)

/-- What a call does to the lease key and to the lease of its process. -/
theorem perform_lease (hφ : φ.lease = p.lease) (hallow : Allows subject φ o)
    (h : perform subject c w p o = some (w', p', r)) :
  LeaseEffect subject.origin w p.lease w' p'.lease
  := by
  cases performs_of_perform h with
  | acquire r =>
    apply perform_acquire _ h
    rw [← hφ]
    cases hallow with
    | acquire | acquireCommand => rfl
    | alone role _ hcall | command role l _ hcall => cases hcall
  | saveOwned l st r =>
    refine .kept ?_ (fun _ ht => ht) rfl
    simp only [Fault.keys]
    split
    · rfl
    · apply Keys.saveOwned_lease
  | release l =>
    have hl : p.lease = some l := by
      rw [← hφ]
      cases hallow with
      | release | releaseCommand => rfl
      | alone role _ hcall | command role _ _ hcall => cases hcall
    refine .released l hl rfl rfl ?_
    simp only [Fault.keys]
    split
    · left
      rfl
    · right
      rfl
  | _ => exact .kept rfl (fun _ ht => ht) rfl

/-- A system whose processes are not in the middle of a job. -/
def Idle (s : Fleet n) : Prop := ∀ i, (s.proc i).prog = .pure () ∧ (s.proc i).lease = none

theorem Idle.inPhases {s : Fleet n} (h : Idle s) :
  InPhases subject s (fun i => .outside (s.proc i).kind.role)
  := by
  intro i
  obtain ⟨hprog, hlease⟩ := h i
  refine ⟨rfl, hlease.symm, trivial, ?_⟩
  rw [hprog]
  rfl

/-- In every state that is reached from one without jobs, the processes are in phases. -/
theorem run_inPhases {s t : Fleet n} {es : List (Event n)} (hs : Idle s)
    (h : run (step subject) s es = some t) :
  ∃ φ, InPhases subject t φ
  := by
  apply run_invariant (P := fun s => ∃ φ, InPhases subject s φ) _ ⟨_, hs.inPhases⟩ h
  rintro s e s' ⟨φ, hφ⟩ he
  obtain ⟨φ', -, hφ'⟩ := step_effect hφ he
  exact ⟨φ', hφ'⟩

end Directory
