import ActivityRelay.DirectoryConfig.Phases
import ActivityRelay.Posix.Volume
import ActivityRelay.Transition.Run

/-!
# Editors of one configuration file

Any number of calls of `DisableFile` and `RemoveFile` on one path, each in a process of its own. The
processes are interleaved at their system calls. A system call may fail, a process may be killed
between two of its calls, and the system may crash.
-/

namespace DirectoryConfig

open GoString Interaction Posix

/-- What a process has opened: the configuration file, which it may have locked, and a temporary
file. -/
structure Descriptors where
  config : Option ℕ := none
  locked : Bool := false
  temp : Option ℕ := none

/-- What is left open in a call: whether it fails, the file and the number in the name of a
temporary file that is created, and what a failed write has written. -/
structure Choice where
  fault : Bool := false
  file : ℕ := 0
  id : ℕ := 0
  body : GoString := []

abbrev Files := Volume Name GoString

/-- The path names the open file, which is a regular one. -/
def pathIs (v : Files) (d : Descriptors) : Bool :=
  (v.entry (.file .config)).any (fun i => d.config = some i && (v.file i).regular)

/-- `regularFileExists`, of the backup. -/
def regularBackup (v : Files) : Bool := (v.fileAt (.file .backup)).any (fun f => f.regular)

/-- The open temporary file is changed. -/
def changeTemp (v : Files) (d : Descriptors) (change : File GoString → File GoString) : Files :=
  match d.temp with
  | none => v
  | some i => v.setFile i (change (v.file i))

/-- The effect of a system call. `held` are the files that other processes have locked, and `busy`
those on which descriptors are open; a temporary file that is created is a new one. There is no
result if the call has to wait or the choice is not a possible one. -/
def perform (held : Option ℕ → Bool) (busy : ℕ → Bool) (v : Files) (d : Descriptors) (c : Choice) :
    (o : EditOp) → Option (o.Reply × Files × Descriptors)
  | .openPath =>
      match v.entry (.file .config) with
      | none => some (false, v, d)
      | some i =>
          if c.fault then some (false, v, d) else some (true, v, { d with config := some i })
  | .flock =>
      if c.fault then some (false, v, d)
      else if held d.config then none
      else some (true, v, { d with locked := true })
  | .samePath => some (!c.fault && pathIs v d, v, d)
  | .read => some (if c.fault then none else d.config.map (fun i => (v.file i).body), v, d)
  | .close => some ((), v, { d with config := none, locked := false })
  | .backupExists _ => some (!c.fault && regularBackup v, v, d)
  | .createTemp target =>
      if c.fault then some (none, v, d)
      else if v.entry (.temp target c.id) = none ∧ v.Unused c.file ∧ busy c.file = false then
        some (some c.id,
          (v.bind (.temp target c.id) (some c.file)).setFile c.file ⟨[], false, true⟩,
          { d with temp := some c.file })
      else none
  | .write body =>
      if c.fault then
        some (false, changeTemp v d (fun f => { f with body := c.body, synced := false }), d)
      else some (true, changeTemp v d (fun f => { f with body := body, synced := false }), d)
  | .chown => some (!c.fault, v, d)
  | .chmod => some (!c.fault, v, d)
  | .fsync =>
      if c.fault then some (false, v, d)
      else some (true, changeTemp v d (fun f => { f with synced := true }), d)
  | .closeTemp => some (!c.fault, v, { d with temp := none })
  | .rename target id =>
      if c.fault then some (false, v, d)
      else
        match v.rename (.temp target id) (.file target) with
        | none => some (false, v, d)
        | some v' => some (true, v', d)
  | .remove target id =>
      match v.entry (.temp target id) with
      | none => some ((), v, d)
      | some _ =>
          if c.fault then some ((), v, d) else some ((), v.bind (.temp target id) none, d)
  | .syncDirectory =>
      if c.fault then some (false, v, d) else some (true, v.syncDirectory, d)

/-- A process, with the rest of its program. There is none if it has been killed. -/
structure Proc where
  begun : Bool := false
  descriptors : Descriptors := {}
  prog : Option (EditM (Except EditError Unit))

/-- The call of the process has returned success. -/
def Proc.succeeded (p : Proc) : Bool :=
  match p.prog with
  | some (.pure (.ok _)) => true
  | _ => false

theorem Proc.succeeded_iff {p : Proc} :
  p.succeeded = true ↔ p.prog = some (.pure (.ok ()))
  := by
  constructor
  · intro h
    unfold succeeded at h
    split at h
    · assumption
    · cases h
  · intro h
    rw [succeeded, h]

/-- The system call that the process is about to make. -/
def Proc.next? (p : Proc) : Option EditOp := p.prog.bind Prog.next?

/-- The process is killed if it has begun its call and not returned from it. -/
def Proc.kill (p : Proc) : Proc :=
  match p.prog with
  | some (.call _ _) => if p.begun then { p with descriptors := {}, prog := none } else p
  | _ => p

/-- The directory and the processes. -/
structure Fleet (n : ℕ) where
  volume : Files
  proc : Fin n → Proc

/-- What happens: a system call, the death of a process, or a crash of the system. -/
inductive Event (n : ℕ)
  | exec (i : Fin n) (c : Choice)
  | kill (i : Fin n)
  | crash (pick : Name → ℕ) (bodies : ℕ → GoString)

variable {n : ℕ}

def Event.isCrash : Event n → Bool
  | .crash _ _ => true
  | _ => false

variable (fleet : Fleet n)

/-- Another process has locked the file. -/
def Fleet.held (i : Fin n) (file : Option ℕ) : Bool :=
  decide (∃ j, j ≠ i ∧ (fleet.proc j).descriptors.locked = true ∧
    (fleet.proc j).descriptors.config = file)

/-- A descriptor is open on the file. -/
def Fleet.busy (file : ℕ) : Bool :=
  decide (∃ j, (fleet.proc j).descriptors.config = some file ∨
    (fleet.proc j).descriptors.temp = some file)

/-- The directory and one of the processes are changed. -/
def Fleet.set (i : Fin n) (v : Files) (p : Proc) : Fleet n where
  volume := v
  proc := Function.update fleet.proc i p

@[simp]
theorem Fleet.proc_set_self (i : Fin n) (v : Files) (p : Proc) :
  (fleet.set i v p).proc i = p
  := by
  change Function.update fleet.proc i p i = p
  rw [Function.update_self]

theorem Fleet.proc_set_of_ne {i j : Fin n} (h : j ≠ i) (v : Files) (p : Proc) :
  (fleet.set i v p).proc j = fleet.proc j
  := by
  change Function.update fleet.proc i p j = fleet.proc j
  rw [Function.update_of_ne h]

def step : Event n → Option (Fleet n)
  | .exec i c =>
      match (fleet.proc i).prog with
      | some (.call o k) =>
          (perform (fleet.held i) fleet.busy fleet.volume (fleet.proc i).descriptors c o).map
            (fun (r, v, d) =>
              fleet.set i v { begun := true, descriptors := d, prog := some (k r) })
      | _ => none
  | .kill i => some (fleet.set i fleet.volume (fleet.proc i).kill)
  | .crash pick bodies =>
      some { volume := fleet.volume.crash pick bodies, proc := fun i => (fleet.proc i).kill }

/-- The processes before their calls. -/
def start (U : CaseTable) (codec : Codec) (calls : Fin n → Call) (v : Files) : Fleet n where
  volume := v
  proc := fun i => { prog := some (editFile U codec (calls i)) }

/-- A process makes some calls without faults. The number is for the temporary files. -/
def calling (i : Fin n) (number count : ℕ) : List (Event n) :=
  List.replicate count (.exec i { file := number, id := number })

/-- A directory with a configuration file in which both directories are enabled. -/
def sampleFiles : Files := .single (.file .config) ⟨sampleText true true, true, true⟩

end DirectoryConfig
