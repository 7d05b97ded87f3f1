import ActivityRelay.DirectoryConfig.Editor

/-!
# Phases of an editor

What an editor knows of the directory at each point of its program, and which calls it makes there.
Between the check of the path and the renaming it is the *owner* of the configuration file: it has
the lock of the file that the path names.
-/

namespace DirectoryConfig

open GoString Interaction Protocol

/-- What an owner knows of the backup. -/
inductive Backup
  | unknown
  | missing
  | kept
  | saved
  | durable
  deriving DecidableEq, Repr

/-- A temporary file that is being written. -/
structure Filling where
  target : Target
  id : ℕ
  written : Option GoString
  synced : Bool

/-- The work of an owner: the text of the configuration file, and the temporary files that have been
written and synced. -/
structure Work where
  original : GoString
  backup : Backup := .unknown
  filling : Option Filling := none
  replacement : Option ℕ := none
  backupTemp : Option ℕ := none

/-- How a call has succeeded. -/
inductive Ending
  | early
  | completed
  deriving DecidableEq, Repr

/-- The phases. In `found` the entry was disabled already and there is a backup; in `renamed` and
`synced` the path names the new file. -/
inductive Phase
  | outside (ending : Option Ending)
  | opened
  | locked
  | verified
  | working (w : Work)
  | found
  | renamed
  | synced

/-- The number of a temporary file that is ready to be renamed. -/
def Work.temp (w : Work) : Target → Option ℕ
  | .config => w.replacement
  | .backup => w.backupTemp

/-- A temporary file has been written and synced. -/
def Work.ready (w : Work) (target : Target) (id : ℕ) : Work :=
  match target with
  | .config => { w with filling := none, replacement := some id }
  | .backup => { w with filling := none, backupTemp := some id }

section Ready

variable (w : Work) (target : Target) (id : ℕ)

@[simp]
theorem Work.original_ready :
  (w.ready target id).original = w.original
  := by
  cases target <;> rfl

@[simp]
theorem Work.backup_ready :
  (w.ready target id).backup = w.backup
  := by
  cases target <;> rfl

@[simp]
theorem Work.filling_ready :
  (w.ready target id).filling = none
  := by
  cases target <;> rfl

theorem Work.temp_ready_eq_some {target' : Target} {id' : ℕ}
    (h : (w.ready target id).temp target' = some id') :
  target' = target ∧ id' = id ∨ w.temp target' = some id'
  := by
  cases target <;> cases target'
  · exact .inl ⟨rfl, (Option.some.inj h).symm⟩
  · exact .inr h
  · exact .inr h
  · exact .inl ⟨rfl, (Option.some.inj h).symm⟩

end Ready

/-- How a call has succeeded that is closed in a phase. -/
def Phase.ending : Phase → Option Ending
  | .found => some .early
  | .synced => some .completed
  | _ => none

/-- The phase after a call. -/
def nextPhase : Phase → (o : EditOp) → o.Reply → Phase
  | .outside _, .openPath, true => .opened
  | .opened, .flock, true => .locked
  | .locked, .samePath, true => .verified
  | .verified, .read, some body => .working { original := body }
  | φ, .close, _ => .outside φ.ending
  | .working _, .backupExists true, true => .found
  | .working w, .backupExists true, false => .working { w with backup := .missing }
  | .working w, .backupExists false, true => .working { w with backup := .kept }
  | .working w, .backupExists false, false => .working { w with backup := .missing }
  | .working w, .createTemp target, some id =>
      .working { w with filling := some ⟨target, id, none, false⟩ }
  | .working w, .write body, true =>
      .working { w with filling := w.filling.map (fun f => { f with written := some body }) }
  | .working w, .fsync, true =>
      .working { w with filling := w.filling.map (fun f => { f with synced := true }) }
  | .working w, .closeTemp, closed =>
      match w.filling with
      | none => .working w
      | some f =>
          if f.synced && closed then .working (w.ready f.target f.id)
          else .working { w with filling := none }
  | .working w, .rename .backup _, true => .working { w with backup := .saved }
  | .working _, .rename .config _, true => .renamed
  | .working w, .syncDirectory, true =>
      .working { w with backup := if w.backup = .saved then .durable else w.backup }
  | .renamed, .syncDirectory, true => .synced
  | φ, _, _ => φ

variable (U : CaseTable) (codec : Codec) (call : Call)

/-- The entry is to be disabled and is enabled. -/
def WasEnabled (text : GoString) : Prop :=
  ∃ p, prepare U codec call text = .ok p ∧ p.wasEnabled = true

/-- The entry is to be disabled and is disabled. -/
def FoundDisabled (text : GoString) : Prop :=
  call.action = .disable ∧ ∃ p, prepare U codec call text = .ok p ∧ p.wasEnabled = false

/-- The text of a temporary file. -/
def TempText (original : GoString) : Target → GoString → Prop
  | .config, body => Edited U codec call original body
  | .backup, body => body = original

/-- The phases in which the descriptor is closed. -/
def Phase.closable : Phase → Bool
  | .outside _ => false
  | .working w => w.filling.isNone
  | _ => true

/-- The calls that an editor makes in a phase. -/
inductive Allows : Phase → EditOp → Prop
  | openPath : Allows (.outside none) .openPath
  | flock : Allows .opened .flock
  | samePath : Allows .locked .samePath
  | read : Allows .verified .read
  | close (φ : Phase) (h : φ.closable = true) : Allows φ .close
  | early (w : Work) (found : FoundDisabled U codec call w.original) (unknown : w.backup = .unknown)
      (idle : w.filling = none) :
      Allows (.working w) (.backupExists true)
  | preserve (w : Work) (disabled : ¬ WasEnabled U codec call w.original)
      (replacement : w.replacement ≠ none) (idle : w.filling = none) :
      Allows (.working w) (.backupExists false)
  | createConfig (w : Work) (idle : w.filling = none) (absent : w.replacement = none)
      (cause : WasEnabled U codec call w.original ∨ call.action = .remove ∨ w.backup = .missing) :
      Allows (.working w) (.createTemp .config)
  | createBackup (w : Work) (idle : w.filling = none) (replacement : w.replacement ≠ none)
      (absent : w.backupTemp = none) :
      Allows (.working w) (.createTemp .backup)
  | write (w : Work) (f : Filling) (body : GoString) (filling : w.filling = some f)
      (blank : f.written = none) (text : TempText U codec call w.original f.target body) :
      Allows (.working w) (.write body)
  | chown (w : Work) (f : Filling) (filling : w.filling = some f) : Allows (.working w) .chown
  | chmod (w : Work) (f : Filling) (filling : w.filling = some f) : Allows (.working w) .chmod
  | fsync (w : Work) (f : Filling) (filling : w.filling = some f) (written : f.written ≠ none) :
      Allows (.working w) .fsync
  | closeTemp (w : Work) (f : Filling) (filling : w.filling = some f) :
      Allows (.working w) .closeTemp
  | renameBackup (w : Work) (id : ℕ) (idle : w.filling = none) (temp : w.backupTemp = some id)
      (cause : WasEnabled U codec call w.original ∨ w.backup = .missing) :
      Allows (.working w) (.rename .backup id)
  | recheck (w : Work) (idle : w.filling = none) : Allows (.working w) .samePath
  | renameConfig (w : Work) (id : ℕ) (idle : w.filling = none) (temp : w.replacement = some id)
      (backup : w.backup = .durable ∨ w.backup = .kept) :
      Allows (.working w) (.rename .config id)
  | syncBackup (w : Work) (idle : w.filling = none) : Allows (.working w) .syncDirectory
  | syncConfig : Allows .renamed .syncDirectory
  | remove (φ : Phase) (target : Target) (id : ℕ) (h : φ.closable = true) :
      Allows φ (.remove target id)

/-- The protocol of an editor. -/
def protocol : Protocol EditOp EditOp.Reply Phase where
  allows := Allows U codec call
  next := nextPhase

/-! ### The programs keep to the protocol -/

section Follows

variable {U codec call} {w : Work} {target : Target} {body text : GoString} {id : ℕ}
  {preserveBackup : Bool} {p : Prepared}

theorem openLockedSnapshot_follows (attempts : ℕ) :
  (protocol U codec call).Follows
    (fun φ r => match r with
      | none => φ = .outside none
      | some body => φ = .working { original := body })
    (.outside none) (openLockedSnapshot attempts)
  := by
  induction attempts with
  | zero => rfl
  | succ attempts ih =>
    refine follows_op.mpr ⟨.openPath, ?_⟩
    rintro (_ | _)
    · rfl
    refine follows_op.mpr ⟨.flock, ?_⟩
    rintro (_ | _)
    · exact ⟨.close _ rfl, fun _ => rfl⟩
    refine follows_op.mpr ⟨.samePath, ?_⟩
    rintro (_ | _)
    · exact ⟨.close _ rfl, fun _ => ih⟩
    refine follows_op.mpr ⟨.read, ?_⟩
    rintro (_ | body)
    · exact ⟨.close _ rfl, fun _ => rfl⟩
    dsimp only
    split
    · exact ⟨.close _ rfl, fun _ => rfl⟩
    · rfl

/-- A temporary file is filled: it is synced exactly if this succeeds. -/
theorem fillTemp_follows (id : ℕ) (hbody : TempText U codec call w.original target body) :
  (protocol U codec call).Follows
    (fun φ r => ∃ f, φ = .working { w with filling := some f } ∧ f.target = target ∧ f.id = id ∧
      f.synced = r)
    (.working { w with filling := some ⟨target, id, none, false⟩ }) (fillTemp body)
  := by
  refine follows_op.mpr ⟨.write _ _ body rfl rfl hbody, ?_⟩
  rintro (_ | _)
  · exact ⟨_, rfl, rfl, rfl, rfl⟩
  refine follows_op.mpr ⟨.chown _ _ rfl, ?_⟩
  rintro (_ | _)
  · exact ⟨_, rfl, rfl, rfl, rfl⟩
  refine follows_op.mpr ⟨.chmod _ _ rfl, ?_⟩
  rintro (_ | _)
  · exact ⟨_, rfl, rfl, rfl, rfl⟩
  refine ⟨.fsync _ _ rfl (Option.some_ne_none body), ?_⟩
  rintro (_ | _)
  · exact ⟨_, rfl, rfl, rfl, rfl⟩
  · exact ⟨_, rfl, rfl, rfl, rfl⟩

theorem writeSyncedTemp_follows (hidle : w.filling = none)
    (hcreate : Allows U codec call (.working w) (.createTemp target))
    (hbody : TempText U codec call w.original target body) :
  (protocol U codec call).Follows
    (fun φ r => match r with
      | none => φ = .working w
      | some id => φ = .working (w.ready target id))
    (.working w) (writeSyncedTemp target body)
  := by
  have hw : { w with filling := none } = w := by
    rw [← hidle]
  refine follows_op.mpr ⟨hcreate, ?_⟩
  rintro (_ | id)
  · rfl
  apply (follows_bind _ _).mpr
  apply Follows.mono _ (fillTemp_follows id hbody)
  rintro φ filled ⟨f, rfl, rfl, rfl, hsynced⟩
  refine follows_op.mpr ⟨.closeTemp _ f rfl, ?_⟩
  intro closed
  dsimp only [protocol, nextPhase]
  rw [hsynced]
  split
  · change (protocol U codec call).Follows _ (.working (w.ready f.target f.id)) _
    rfl
  · rw [hw]
    refine ⟨.remove _ _ _ ?_, fun _ => rfl⟩
    rw [Phase.closable, hidle]
    rfl

theorem commitBackup_follows (hidle : w.filling = none) (htemp : w.backupTemp = some id)
    (hcause : WasEnabled U codec call w.original ∨ w.backup = .missing) :
  (protocol U codec call).Follows
    (fun φ r => ∃ b, φ = .working { w with backup := b } ∧ (r = true → b = .durable))
    (.working w) (commitBackup id)
  := by
  refine follows_op.mpr ⟨.renameBackup w id hidle htemp hcause, ?_⟩
  rintro (_ | _)
  · exact ⟨w.backup, rfl, nofun⟩
  refine ⟨.syncBackup _ hidle, ?_⟩
  rintro (_ | _)
  · exact ⟨.saved, rfl, nofun⟩
  · exact ⟨.durable, rfl, fun _ => rfl⟩

/-- How the replacement ends: the descriptor may be closed, and after success the path names the new
file also after a crash. -/
def Replaced (φ : Phase) (r : Bool) : Prop := φ.closable = true ∧ (r = true → φ = .synced)

theorem closable_of_idle (hidle : w.filling = none) :
  (Phase.working w).closable = true
  := by
  rw [Phase.closable, hidle]
  rfl

/-- The removal of a temporary file changes nothing of how the replacement ends. -/
theorem replaced_remove {φ : Phase} {r : Bool} (h : Replaced φ r) :
  (protocol U codec call).Follows Replaced φ (do remove target id; return r)
  := by
  refine ⟨.remove φ target id h.1, ?_⟩
  intro u
  change Replaced (nextPhase φ (.remove target id) u) r
  have hstay : nextPhase φ (.remove target id) u = φ := by
    cases φ <;> rfl
  rw [hstay]
  exact h

theorem commitConfig_follows (hidle : w.filling = none) (htemp : w.replacement = some id)
    (hbackup : w.backup = .durable ∨ w.backup = .kept) :
  (protocol U codec call).Follows Replaced (.working w) (commitConfig id)
  := by
  have hfailed : Replaced (.working w) false := ⟨closable_of_idle hidle, nofun⟩
  refine follows_op.mpr ⟨.recheck w hidle, ?_⟩
  rintro (_ | _)
  · exact hfailed
  refine follows_op.mpr ⟨.renameConfig w id hidle htemp hbackup, ?_⟩
  rintro (_ | _)
  · exact hfailed
  refine ⟨.syncConfig, ?_⟩
  rintro (_ | _)
  · exact ⟨rfl, nofun⟩
  · exact ⟨rfl, fun _ => rfl⟩

theorem saveThenCommit_follows (hidle : w.filling = none) (htemp : w.replacement = some id)
    (habsent : w.backupTemp = none)
    (hcause : WasEnabled U codec call w.original ∨ w.backup = .missing) :
  (protocol U codec call).Follows Replaced (.working w) (saveThenCommit w.original id)
  := by
  have hsome : w.replacement ≠ none := by
    rw [htemp]
    exact Option.some_ne_none id
  apply (follows_bind _ _).mpr
  apply Follows.mono _
    (writeSyncedTemp_follows hidle (.createBackup w hidle hsome habsent) rfl)
  rintro φ (_ | backupTemp) rfl
  · exact ⟨closable_of_idle hidle, nofun⟩
  apply (follows_bind _ _).mpr
  apply Follows.mono _
    (commitBackup_follows (w := w.ready .backup backupTemp) rfl rfl hcause)
  rintro φ (_ | _) ⟨b, rfl, hsaved⟩
  · exact replaced_remove ⟨rfl, nofun⟩
  · obtain rfl := hsaved rfl
    apply (follows_bind _ _).mpr
    apply Follows.mono _ (commitConfig_follows
      (w := { w.ready .backup backupTemp with backup := .durable }) rfl htemp (.inl rfl))
    intro φ r hr
    exact replaced_remove hr

theorem replaceWith_follows (hidle : w.filling = none) (htemp : w.replacement = some id)
    (habsent : w.backupTemp = none)
    (hpreserve : WasEnabled U codec call w.original ↔ preserveBackup = false) :
  (protocol U codec call).Follows Replaced (.working w) (replaceWith w.original preserveBackup id)
  := by
  have hsome : w.replacement ≠ none := by
    rw [htemp]
    exact Option.some_ne_none id
  cases preserveBackup with
  | false => exact saveThenCommit_follows hidle htemp habsent (.inl (hpreserve.mpr rfl))
  | true =>
    have hdisabled : ¬ WasEnabled U codec call w.original := by
      rw [hpreserve]
      exact Bool.noConfusion
    refine follows_op.mpr ⟨.preserve w hdisabled hsome hidle, ?_⟩
    rintro (_ | _)
    · exact saveThenCommit_follows (w := { w with backup := .missing }) hidle htemp habsent
        (.inr rfl)
    · exact commitConfig_follows (w := { w with backup := .kept }) hidle htemp (.inr rfl)

theorem atomicReplace_follows {replacement : GoString} (hidle : w.filling = none)
    (habsent : w.replacement = none) (hbackup : w.backupTemp = none)
    (hcause : WasEnabled U codec call w.original ∨ call.action = .remove ∨ w.backup = .missing)
    (hedited : Edited U codec call w.original replacement)
    (hpreserve : WasEnabled U codec call w.original ↔ preserveBackup = false) :
  (protocol U codec call).Follows Replaced (.working w)
    (atomicReplace w.original replacement preserveBackup)
  := by
  apply (follows_bind _ _).mpr
  apply Follows.mono _
    (writeSyncedTemp_follows hidle (.createConfig w hidle habsent hcause) hedited)
  rintro φ (_ | id) rfl
  · exact ⟨closable_of_idle hidle, nofun⟩
  apply (follows_bind _ _).mpr
  apply Follows.mono _
    (replaceWith_follows (w := w.ready .config id) rfl rfl hbackup hpreserve)
  intro φ r hr
  exact replaced_remove hr

/-- How the part with the lock ends: the descriptor may be closed, and after success the entry was
found as it should be, or the path names the new file. -/
def EditedLocked (φ : Phase) (r : Except EditError Unit) : Prop :=
  φ.closable = true ∧ (r = .ok () → φ.ending ≠ none)

theorem editedLocked_error (hidle : w.filling = none) (e : EditError) :
  EditedLocked (.working w) (.error e)
  := ⟨closable_of_idle hidle, nofun⟩

theorem wasEnabled_iff (hp : prepare U codec call text = .ok p) :
  WasEnabled U codec call text ↔ p.wasEnabled = true
  := by
  constructor
  · rintro ⟨p', hp', hwas⟩
    rw [hp] at hp'
    rw [Except.ok.inj hp']
    exact hwas
  · intro hwas
    exact ⟨p, hp, hwas⟩

theorem ne_remove_of_wasEnabled (hp : prepare U codec call text = .ok p)
    (hwas : p.wasEnabled = true) :
  call.action ≠ .remove
  := by
  intro haction
  obtain ⟨root, directories, before, item, after, -, -, rfl⟩ := prepare_eq_ok hp
  rw [haction] at hwas
  cases hwas

theorem replaceEntry_follows (hp : prepare U codec call w.original = .ok p)
    (hidle : w.filling = none) (habsent : w.replacement = none) (hbackup : w.backupTemp = none)
    (hcause : WasEnabled U codec call w.original ∨ call.action = .remove ∨ w.backup = .missing) :
  (protocol U codec call).Follows EditedLocked (.working w) (replaceEntry codec call w.original p)
  := by
  have hpreserve : WasEnabled U codec call w.original ↔
      (call.action = .remove || !p.wasEnabled) = false := by
    rw [wasEnabled_iff hp, Bool.or_eq_false_iff, Bool.not_eq_false', decide_eq_false_iff_not]
    exact ⟨fun hwas => ⟨ne_remove_of_wasEnabled hp hwas, hwas⟩, fun h => h.2⟩
  unfold replaceEntry
  split
  · exact editedLocked_error hidle _
  rename_i replacement hencode
  apply (follows_bind _ _).mpr
  apply Follows.mono _
    (atomicReplace_follows hidle habsent hbackup hcause ⟨p, hp, hencode⟩ hpreserve)
  rintro φ (_ | _) ⟨hclosable, hsynced⟩
  · exact ⟨hclosable, nofun⟩
  · obtain rfl := hsynced rfl
    exact ⟨rfl, fun _ => Option.some_ne_none _⟩

theorem editLocked_follows (original : GoString) :
  (protocol U codec call).Follows EditedLocked (.working { original := original })
    (editLocked U codec call original)
  := by
  unfold editLocked
  split
  · exact editedLocked_error rfl _
  rename_i p hp
  split
  · rename_i hdone
    refine follows_op.mpr ⟨.early _ ⟨hdone.1, p, hp, hdone.2⟩ rfl rfl, ?_⟩
    rintro (_ | _)
    · exact replaceEntry_follows (w := { original := original, backup := .missing }) hp rfl rfl rfl
        (.inr (.inr rfl))
    · exact ⟨rfl, fun _ => Option.some_ne_none _⟩
  · rename_i hdone
    apply replaceEntry_follows (w := { original := original }) hp rfl rfl rfl
    rw [wasEnabled_iff hp]
    cases haction : call.action with
    | remove => exact .inr (.inl rfl)
    | disable =>
      left
      rw [← Bool.not_eq_false]
      exact fun hwas => hdone ⟨haction, hwas⟩

/-- A call ends outside, and after success it has ended in one of the two ways. -/
def Ended (φ : Phase) (r : Except EditError Unit) : Prop :=
  ∃ e, φ = .outside e ∧ (r = .ok () → e ≠ none)

/-- The whole edit keeps to the protocol. -/
theorem editFile_follows :
  (protocol U codec call).Follows Ended (.outside none) (editFile U codec call)
  := by
  have herror : ∀ e, Ended (.outside none) (.error e) := fun e => ⟨none, rfl, nofun⟩
  unfold editFile
  split
  · apply (follows_bind _ _).mpr
    apply Follows.mono _ (openLockedSnapshot_follows 4)
    rintro φ (_ | original) rfl
    · exact herror _
    apply (follows_bind _ _).mpr
    apply Follows.mono _ (editLocked_follows original)
    rintro φ r ⟨hclosable, hr⟩
    refine ⟨.close φ hclosable, ?_⟩
    intro u
    refine ⟨φ.ending, ?_, hr⟩
    cases φ <;> rfl
  · exact herror _

end Follows

end DirectoryConfig
