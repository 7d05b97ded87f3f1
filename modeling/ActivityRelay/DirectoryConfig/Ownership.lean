import ActivityRelay.DirectoryConfig.System

/-!
# The owner of the configuration file

What an editor knows of the directory in its phase is kept by its own calls and by those of the
others. For between its check of the path and its renaming an editor is the only one that has the
lock of the file that the path names, and the others can do no more than to remove temporary files
and to sync the directory.
-/

namespace DirectoryConfig

open GoString Interaction Posix

/-! ### What does no harm to an owner -/

/-- A change of the directory that removes temporary files and loses what a crash may bring back. -/
structure Harmless (v v' : Files) : Prop where
  file : v'.file = v.file
  entry : ∀ target, v'.entry (.file target) = v.entry (.file target)
  recoverable : ∀ n i, some i ∈ v'.recoverable n → some i ∈ v.recoverable n
  crashFiles : ∀ target, ∀ f ∈ v'.crashFiles (.file target), f ∈ v.crashFiles (.file target)
  temps : ∀ target id i, v'.entry (.temp target id) = some i → v.entry (.temp target id) = some i

namespace Harmless

variable {v v' : Files}

theorem refl (v : Files) :
  Harmless v v
  := ⟨rfl, fun _ => rfl, fun _ _ h => h, fun _ _ h => h, fun _ _ _ h => h⟩

theorem syncDirectory (v : Files) :
  Harmless v v.syncDirectory
  := by
  refine ⟨rfl, fun _ => rfl, ?_, ?_, fun _ _ _ h => h⟩
  · intro n i hi
    rw [List.mem_singleton.mp hi]
    exact v.current n
  · intro target f hf
    rw [List.mem_singleton.mp hf]
    exact v.fileAt_mem_crashFiles _

theorem remove (v : Files) (target : Target) (id : ℕ) :
  Harmless v (v.bind (.temp target id) none)
  := by
  have hne : ∀ target', Name.file target' ≠ .temp target id := by
    rintro target' ⟨⟩
  refine ⟨rfl, fun _ => v.entry_bind_of_ne (hne _), ?_, ?_, ?_⟩
  · intro n i hi
    by_cases hn : n = .temp target id
    · subst hn
      rw [v.recoverable_bind_self] at hi
      exact List.mem_of_ne_of_mem (Option.some_ne_none i) hi
    · rw [v.recoverable_bind_of_ne hn] at hi
      exact hi
  · intro target' f hf
    exact hf
  · intro target' id' i hi
    by_cases hn : Name.temp target' id' = .temp target id
    · rw [hn, v.entry_bind_self] at hi
      cases hi
    · rw [v.entry_bind_of_ne hn] at hi
      exact hi

theorem fileAt (h : Harmless v v') (target : Target) :
  v'.fileAt (.file target) = v.fileAt (.file target)
  := by
  rw [Volume.fileAt, Volume.fileAt, h.entry, h.file]

end Harmless

/-! ### What an owner knows -/

/-- The files of the two paths are the same, also after a crash. -/
structure SamePaths (v v' : Files) : Prop where
  entry : ∀ target, v'.entry (.file target) = v.entry (.file target)
  fileAt : ∀ target, v'.fileAt (.file target) = v.fileAt (.file target)
  crashFiles : ∀ target, v'.crashFiles (.file target) = v.crashFiles (.file target)

theorem SamePaths.refl (v : Files) :
  SamePaths v v
  := ⟨fun _ => rfl, fun _ => rfl, fun _ => rfl⟩

/-- The content of a file that has been written and synced. -/
def whole (body : GoString) : File GoString := ⟨body, true, true⟩

theorem eq_whole {file : File GoString} (hsynced : file.synced = true)
    (hregular : file.regular = true) :
  file = whole file.body
  := by
  cases file
  congr

variable (U : CaseTable) (codec : Codec) (call : Call)

/-- A temporary file that is being written is reached by its name and its descriptor only. -/
structure FillingKept (original : GoString) (v : Files) (f : Filling) (i : ℕ) : Prop where
  own : ∀ n, some i ∈ v.recoverable n → n = .temp f.target f.id
  entry : ∀ j, v.entry (.temp f.target f.id) = some j → j = i
  regular : (v.file i).regular = true
  written : ∀ body, f.written = some body →
    (v.file i).body = body ∧ TempText U codec call original f.target body
  synced : f.synced = true → f.written ≠ none ∧ (v.file i).synced = true

/-- A file is one that a temporary file for the target should be. -/
def ReadyFile (original : GoString) (target : Target) (file : File GoString) : Prop :=
  ∃ body, file = whole body ∧ TempText U codec call original target body

/-- What an owner knows of the two paths. -/
structure PathsKept (v : Files) (original : GoString) (backup : Backup) : Prop where
  text : v.text (.file .config) = some original
  saved : backup = .saved → v.fileAt (.file .backup) = some (whole original)
  durable : backup = .durable → ∀ f ∈ v.crashFiles (.file .backup), f = some (whole original)

/-- What an owner knows while it works. -/
structure WorkKept (v : Files) (d : Descriptors) (w : Work) : Prop where
  paths : PathsKept v w.original w.backup
  filling : ∀ f, w.filling = some f → w.temp f.target = none ∧
    ∃ i, d.temp = some i ∧ FillingKept U codec call w.original v f i
  ready : ∀ target id, w.temp target = some id → ∀ i, v.entry (.temp target id) = some i →
    ReadyFile U codec call w.original target (v.file i)
  fresh : call.action = .disable → ¬ WasEnabled U codec call w.original →
    w.backup = .unknown → w = { original := w.original }
  kept : w.backup = .kept → ¬ WasEnabled U codec call w.original

variable {U codec call} {v v' : Files} {d d' : Descriptors} {w w' : Work} {i id : ℕ}
  {original : GoString} {backup : Backup} {f : Filling} {target : Target}

/-! ### The paths -/

theorem SamePaths.trans {v'' : Files} (h : SamePaths v v') (h' : SamePaths v' v'') :
  SamePaths v v''
  where
  entry target := (h'.entry target).trans (h.entry target)
  fileAt target := (h'.fileAt target).trans (h.fileAt target)
  crashFiles target := (h'.crashFiles target).trans (h.crashFiles target)

theorem SamePaths.text (h : SamePaths v v') (target : Target) :
  v'.text (.file target) = v.text (.file target)
  := by
  rw [v'.text_eq_map, h.fileAt, ← v.text_eq_map]

theorem samePaths_setFile {f : File GoString}
    (h : ∀ target, some i ∉ v.recoverable (.file target)) :
  SamePaths v (v.setFile i f)
  where
  entry _ := rfl
  fileAt target := v.fileAt_setFile (h target)
  crashFiles target := v.crashFiles_setFile (h target)

theorem samePaths_bind_temp (v : Files) (target : Target) (id : ℕ) (e : Option ℕ) :
  SamePaths v (v.bind (.temp target id) e)
  where
  entry _ := v.entry_bind_of_ne (nofun)
  fileAt _ := v.fileAt_bind_of_ne (nofun)
  crashFiles _ := v.crashFiles_bind_of_ne (nofun)

theorem PathsKept.of_samePaths (h : PathsKept v original backup) (hv : SamePaths v v') :
  PathsKept v' original backup
  := by
  refine ⟨?_, ?_, ?_⟩
  · rw [hv.text]
    exact h.text
  · rw [hv.fileAt]
    exact h.saved
  · rw [hv.crashFiles]
    exact h.durable

theorem PathsKept.of_harmless (h : PathsKept v original backup) (hv : Harmless v v') :
  PathsKept v' original backup
  := by
  refine ⟨?_, ?_, ?_⟩
  · rw [v'.text_eq_map, hv.fileAt, ← v.text_eq_map]
    exact h.text
  · rw [hv.fileAt]
    exact h.saved
  · intro hdurable f hf
    exact h.durable hdurable f (hv.crashFiles _ f hf)

/-- The sync of the directory makes a backup durable. -/
theorem PathsKept.syncDirectory (h : PathsKept v original backup) :
  PathsKept v.syncDirectory original (if backup = .saved then .durable else backup)
  := by
  split
  · rename_i hsaved
    refine ⟨h.text, nofun, ?_⟩
    intro _ f hf
    rw [List.mem_singleton.mp hf]
    exact h.saved hsaved
  · exact h.of_harmless (Harmless.syncDirectory v)

/-! ### The work -/

theorem FillingKept.of_harmless (h : FillingKept U codec call original v f i) (hv : Harmless v v') :
  FillingKept U codec call original v' f i
  := by
  refine ⟨fun n hn => h.own n (hv.recoverable n i hn), fun j hj => h.entry j (hv.temps _ _ j hj),
    ?_, ?_, ?_⟩
  · rw [hv.file]
    exact h.regular
  · rw [hv.file]
    exact h.written
  · rw [hv.file]
    exact h.synced

theorem WorkKept.of_harmless (h : WorkKept U codec call v d w) (hv : Harmless v v') :
  WorkKept U codec call v' d w
  := by
  refine ⟨h.paths.of_harmless hv, ?_, ?_, h.fresh, h.kept⟩
  · intro f hf
    obtain ⟨htemp, i, hi, hfilling⟩ := h.filling f hf
    exact ⟨htemp, i, hi, hfilling.of_harmless hv⟩
  · intro target id hid i hi
    rw [hv.file]
    exact h.ready target id hid i (hv.temps target id i hi)

/-- A temporary file is created. -/
theorem WorkKept.created (h : WorkKept U codec call v d w) (habsent : w.temp target = none)
    (hunused : v.Unused i)
    (hfresh : call.action = .disable → ¬ WasEnabled U codec call w.original →
      w.backup ≠ .unknown) :
  SamePaths v ((v.bind (.temp target id) (some i)).setFile i ⟨[], false, true⟩) ∧
    WorkKept U codec call ((v.bind (.temp target id) (some i)).setFile i ⟨[], false, true⟩)
      { d with temp := some i } { w with filling := some ⟨target, id, none, false⟩ }
  := by
  have hown : ∀ n, some i ∈ (v.bind (.temp target id) (some i)).recoverable n →
      n = .temp target id := by
    intro n hn
    by_contra hne
    rw [v.recoverable_bind_of_ne hne] at hn
    exact hunused.not_mem n hn
  have hpaths : SamePaths v ((v.bind (.temp target id) (some i)).setFile i ⟨[], false, true⟩) := by
    apply (samePaths_bind_temp v target id (some i)).trans
    apply samePaths_setFile
    intro target' hmem
    cases hown _ hmem
  refine ⟨hpaths, h.paths.of_samePaths hpaths, ?_, ?_, ?_, h.kept⟩
  · intro f hf
    cases hf
    refine ⟨habsent, i, rfl, hown, ?_, ?_, nofun, nofun⟩
    · intro j hj
      change (v.bind (.temp target id) (some i)).entry (.temp target id) = some j at hj
      rw [v.entry_bind_self] at hj
      exact (Option.some.inj hj).symm
    · rw [Volume.file_setFile_self]
  · intro target' id' hid j hj
    change w.temp target' = some id' at hid
    have hne : Name.temp target' id' ≠ .temp target id := by
      rintro ⟨⟩
      rw [habsent] at hid
      cases hid
    change (v.bind (.temp target id) (some i)).entry (.temp target' id') = some j at hj
    rw [v.entry_bind_of_ne hne] at hj
    have hji : j ≠ i := by
      rintro rfl
      exact hunused.not_mem _ (hj ▸ v.current _)
    rw [Volume.file_setFile_of_ne _ hji]
    exact h.ready target' id' hid j hj
  · intro haction hwas hunknown
    exact absurd hunknown (hfresh haction hwas)

/-- The temporary file that is being written is changed. -/
theorem WorkKept.changed (h : WorkKept U codec call v d w) (f' : Filling)
    (change : File GoString → File GoString) (hf : w.filling = some f)
    (htarget : f'.target = f.target) (hid : f'.id = f.id)
    (hregular : ∀ file, (change file).regular = file.regular)
    (hwritten : ∀ i, FillingKept U codec call w.original v f i → ∀ body, f'.written = some body →
      (change (v.file i)).body = body ∧ TempText U codec call w.original f.target body)
    (hsynced : ∀ i, FillingKept U codec call w.original v f i → f'.synced = true →
      f'.written ≠ none ∧ (change (v.file i)).synced = true) :
  SamePaths v (changeTemp v d change) ∧
    WorkKept U codec call (changeTemp v d change) d { w with filling := some f' }
  := by
  obtain ⟨habsent, i, hi, hfilling⟩ := h.filling f hf
  have hchange : changeTemp v d change = v.setFile i (change (v.file i)) := by
    rw [changeTemp, hi]
  have hpaths : SamePaths v (v.setFile i (change (v.file i))) := by
    apply samePaths_setFile
    intro target hmem
    cases hfilling.own _ hmem
  rw [hchange]
  refine ⟨hpaths, h.paths.of_samePaths hpaths, ?_, ?_, ?_, h.kept⟩
  · intro g hg
    cases hg
    rw [htarget]
    refine ⟨habsent, i, hi, ?_⟩
    refine ⟨?_, ?_, ?_, ?_, ?_⟩
    · rw [htarget, hid]
      exact hfilling.own
    · rw [htarget, hid]
      exact hfilling.entry
    · rw [v.file_setFile_self, hregular]
      exact hfilling.regular
    · rw [v.file_setFile_self, htarget]
      exact hwritten i hfilling
    · rw [v.file_setFile_self]
      exact hsynced i hfilling
  · intro target id hready j hj
    have hji : j ≠ i := by
      rintro rfl
      -- otherwise the file would have the name of one that is ready
      have hname := hfilling.own _ (hj ▸ v.current (.temp target id))
      obtain ⟨rfl, rfl⟩ := Name.temp.inj hname
      change w.temp f.target = some f.id at hready
      rw [habsent] at hready
      cases hready
    rw [v.file_setFile_of_ne hji]
    exact h.ready target id hready j hj
  · intro haction hwas hunknown
    have hfresh := h.fresh haction hwas hunknown
    rw [hfresh] at hf
    cases hf

theorem not_filling {p : Prop} (hidle : w.filling = none) (hf : w.filling = some f) :
  p
  := by
  rw [hidle] at hf
  cases hf

/-- The work while a temporary file is written has begun. -/
theorem WorkKept.not_fresh (h : WorkKept U codec call v d w)
    (hbegun : w.filling ≠ none ∨ w.replacement ≠ none ∨ w.backupTemp ≠ none)
    (haction : call.action = .disable) (hwas : ¬ WasEnabled U codec call w.original) :
  w.backup ≠ .unknown
  := by
  intro hunknown
  have hfresh := h.fresh haction hwas hunknown
  rw [hfresh] at hbegun
  rcases hbegun with hbegun | hbegun | hbegun
  · exact hbegun rfl
  · exact hbegun rfl
  · exact hbegun rfl

/-- The temporary file is closed and given up. -/
theorem WorkKept.givenUp (h : WorkKept U codec call v d w) (hf : w.filling = some f) :
  WorkKept U codec call v { d with temp := none } { w with filling := none }
  := by
  refine ⟨h.paths, nofun, h.ready, ?_, h.kept⟩
  intro haction hwas hunknown
  apply absurd hunknown (h.not_fresh (.inl _) haction hwas)
  rw [hf]
  exact Option.some_ne_none f

/-- The temporary file is closed and ready. -/
theorem WorkKept.closed (h : WorkKept U codec call v d w) (hf : w.filling = some f)
    (hsynced : f.synced = true) :
  WorkKept U codec call v { d with temp := none } (w.ready f.target f.id)
  := by
  obtain ⟨-, i, -, hfilling⟩ := h.filling f hf
  refine ⟨?_, ?_, ?_, ?_, ?_⟩
  · rw [w.original_ready, w.backup_ready]
    exact h.paths
  · intro g hg
    rw [w.filling_ready] at hg
    cases hg
  · intro target id hid j hj
    rw [w.original_ready]
    rcases w.temp_ready_eq_some _ _ hid with ⟨rfl, rfl⟩ | hid
    · obtain rfl := hfilling.entry j hj
      obtain ⟨hwritten, hsync⟩ := hfilling.synced hsynced
      obtain ⟨body, hbody⟩ := Option.ne_none_iff_exists'.mp hwritten
      obtain ⟨rfl, htext⟩ := hfilling.written body hbody
      exact ⟨_, eq_whole hsync hfilling.regular, htext⟩
    · exact h.ready target id hid j hj
  · rw [w.original_ready, w.backup_ready]
    intro haction hwas hunknown
    apply absurd hunknown (h.not_fresh (.inl _) haction hwas)
    rw [hf]
    exact Option.some_ne_none f
  · rw [w.original_ready, w.backup_ready]
    exact h.kept

/-! ### Renaming -/

/-- A file gets the path of a target. -/
structure Installs (v v' : Files) (target : Target) (file : File GoString) : Prop where
  fileAt : v'.fileAt (.file target) = some file
  crashFiles : v'.crashFiles (.file target) = some file :: v.crashFiles (.file target)
  entry_of_ne : ∀ target', target' ≠ target →
    v'.entry (.file target') = v.entry (.file target')
  fileAt_of_ne : ∀ target', target' ≠ target →
    v'.fileAt (.file target') = v.fileAt (.file target')
  crashFiles_of_ne : ∀ target', target' ≠ target →
    v'.crashFiles (.file target') = v.crashFiles (.file target')

theorem rename_eq_some (h : v.rename (.temp target id) (.file target) = some v') :
  ∃ i, v.entry (.temp target id) = some i ∧
    v' = (v.bind (.temp target id) none).bind (.file target) (some i)
  := by
  obtain ⟨i, hi, rfl⟩ := Option.map_eq_some_iff.mp h
  exact ⟨i, hi, rfl⟩

/-- A rename gives the path the file, and leaves the other path. -/
theorem installs_rename (v : Files) (target : Target) (id i : ℕ) :
  Installs v ((v.bind (.temp target id) none).bind (.file target) (some i)) target (v.file i)
  := by
  have htemp := samePaths_bind_temp v target id none
  have hne : ∀ target', target' ≠ target → Name.file target' ≠ .file target := by
    rintro target' hne ⟨⟩
    exact hne rfl
  refine ⟨?_, ?_, ?_, ?_, ?_⟩
  · rw [Volume.fileAt_bind_self]
    rfl
  · rw [Volume.crashFiles_bind_self, htemp.crashFiles]
    rfl
  · intro target' h
    rw [Volume.entry_bind_of_ne _ (hne target' h), htemp.entry]
  · intro target' h
    rw [Volume.fileAt_bind_of_ne _ (hne target' h), htemp.fileAt]
  · intro target' h
    rw [Volume.crashFiles_bind_of_ne _ (hne target' h), htemp.crashFiles]

/-- The text of the configuration file is the backup. -/
theorem WorkKept.renamedBackup (h : WorkKept U codec call v d w) (hidle : w.filling = none)
    (htemp : w.backupTemp = some id) (hi : v.entry (.temp .backup id) = some i) :
  v.file i = whole w.original ∧
    WorkKept U codec call ((v.bind (.temp .backup id) none).bind (.file .backup) (some i))
      d { w with backup := .saved }
  := by
  obtain ⟨body, hfile, htext⟩ := h.ready .backup id htemp i hi
  obtain rfl : body = w.original := htext
  have hinstalls := installs_rename v .backup id i
  refine ⟨hfile, ⟨?_, ?_, nofun⟩, ?_, ?_, nofun, nofun⟩
  · rw [Volume.text_eq_map, hinstalls.fileAt_of_ne .config (nofun), ← v.text_eq_map]
    exact h.paths.text
  · intro _
    rw [hinstalls.fileAt, hfile]
  · exact fun f hf => not_filling hidle hf
  · intro target id' hid j hj
    exact h.ready target id' hid j ((Harmless.remove v .backup id).temps target id' j hj)

/-! ### Calls -/

/-- The phases in which an editor has the lock of its file. -/
def Phase.hasLock : Phase → Bool
  | .outside _ | .opened => false
  | _ => true

/-- The phases of an owner. -/
def Phase.owns : Phase → Bool
  | .verified | .working _ => true
  | _ => false

/-- The phases before the outcome is known. -/
def Phase.undecided : Phase → Bool
  | .outside none | .opened | .locked | .verified | .working _ => true
  | _ => false

/-- The phases after which the call succeeds. -/
def Phase.done : Phase → Bool
  | .outside (some _) | .found | .synced => true
  | _ => false

variable (U codec call) in
/-- What an editor knows in a phase. -/
structure Knows (v : Files) (φ : Phase) (d : Descriptors) : Prop where
  locked : d.locked = φ.hasLock
  owner : φ.owns = true → v.entry (.file .config) = d.config
  work : ∀ w, φ = .working w → WorkKept U codec call v d w

/-- The phase after a call without an outcome. The backup is looked for only with a replacement at
hand. -/
structure Undecided (φ φ' : Phase) : Prop where
  undecided : φ'.undecided = true
  work : ∀ w', φ' = .working w' → w'.backup = .unknown ∨
    ∃ w, φ = .working w ∧ w'.original = w.original ∧ (w.replacement = none → w'.backup = w.backup)

variable (U codec call) in
/-- What a call does to the two paths, and the phases around it. -/
inductive Move (c : Choice) (v v' : Files) : EditOp → Phase → Phase → Prop
  | quiet {o : EditOp} {φ φ' : Phase} (same : SamePaths v v')
      (phases : φ' = φ ∨ φ' = .outside φ.ending ∨ Undecided φ φ') : Move c v v' o φ φ'
  | found {w : Work} (same : v' = v) (text : v.text (.file .config) = some w.original)
      (found : FoundDisabled U codec call w.original) (fault : c.fault = false)
      (backup : regularBackup v = true) : Move c v v' (.backupExists true) (.working w) .found
  | missed {w : Work} (same : v' = v) (text : v.text (.file .config) = some w.original)
      (found : FoundDisabled U codec call w.original)
      (backup : c.fault = true ∨ regularBackup v = false) :
      Move c v v' (.backupExists true) (.working w) (.working { w with backup := .missing })
  | saved {o : EditOp} {w : Work} (text : v.text (.file .config) = some w.original)
      (cause : WasEnabled U codec call w.original ∨ w.backup = .missing)
      (installs : Installs v v' .backup (whole w.original)) :
      Move c v v' o (.working w) (.working { w with backup := .saved })
  | installed {o : EditOp} {w : Work} (body : GoString) (kept : PathsKept v w.original w.backup)
      (edited : Edited U codec call w.original body)
      (backup : w.backup = .durable ∨ w.backup = .kept ∧ ¬ WasEnabled U codec call w.original)
      (installs : Installs v v' .config (whole body)) : Move c v v' o (.working w) .renamed
  | synced {o : EditOp} {w : Work} (same : v' = v.syncDirectory) :
      Move c v v' o (.working w)
        (.working { w with backup := if w.backup = .saved then .durable else w.backup })
  | completed {o : EditOp} (same : v' = v.syncDirectory) : Move c v v' o .renamed .synced

variable (U codec call) in
/-- What is known after a call. -/
structure Performed (held : Option ℕ → Bool) (c : Choice) (o : EditOp) (v : Files)
    (d : Descriptors) (φ : Phase) (v' : Files) (d' : Descriptors) (φ' : Phase) : Prop where
  knows : Knows U codec call v' φ' d'
  harmless : φ.owns = true ∨ Harmless v v'
  lock : d'.locked = true → d.locked = true ∧ d'.config = d.config ∨ held d'.config = false
  move : Move U codec call c v v' o φ φ'

section Performed

variable {held : Option ℕ → Bool} {c : Choice} {o : EditOp} {φ φ' : Phase}

/-- A call that has failed, or only asks. -/
theorem Knows.stay (h : Knows U codec call v φ d) :
  Performed U codec call held c o v d φ v d φ
  where
  knows := h
  harmless := .inr (Harmless.refl v)
  lock hlocked := .inl ⟨hlocked, rfl⟩
  move := .quiet (SamePaths.refl v) (.inl rfl)

/-- A call of an editor that has not come to work yet. -/
theorem performed_before (hlocked : d'.locked = φ'.hasLock)
    (howner : φ'.owns = true → v.entry (.file .config) = d'.config) (hwork : ∀ w, φ' ≠ .working w)
    (hundecided : φ'.undecided = true)
    (hlock : d'.locked = true → d.locked = true ∧ d'.config = d.config ∨ held d'.config = false) :
  Performed U codec call held c o v d φ v d' φ'
  where
  knows := ⟨hlocked, howner, fun w hw => absurd hw (hwork w)⟩
  harmless := .inr (Harmless.refl v)
  lock := hlock
  move := by
    apply Move.quiet (SamePaths.refl v)
    exact .inr (.inr ⟨hundecided, fun w hw => absurd hw (hwork w)⟩)

/-- A call of an editor that is at work and stays at it. -/
theorem Knows.working (h : Knows U codec call v (.working w) d)
    (hentry : v'.entry (.file .config) = v.entry (.file .config)) (hlocked : d'.locked = d.locked)
    (hconfig : d'.config = d.config) (hwork : WorkKept U codec call v' d' w')
    (hmove : Move U codec call c v v' o (.working w) (.working w')) :
  Performed U codec call held c o v d (.working w) v' d' (.working w')
  where
  knows := by
    refine ⟨?_, ?_, ?_⟩
    · rw [hlocked]
      exact h.locked
    · intro _
      rw [hentry, hconfig]
      exact h.owner rfl
    · rintro _ ⟨⟩
      exact hwork
  harmless := .inl rfl
  lock := by
    rw [hlocked, hconfig]
    exact fun hl => .inl ⟨hl, rfl⟩
  move := hmove

/-- The files of the paths stay, too. -/
theorem Knows.working_quiet (h : Knows U codec call v (.working w) d) (hpaths : SamePaths v v')
    (hlocked : d'.locked = d.locked) (hconfig : d'.config = d.config)
    (hwork : WorkKept U codec call v' d' w') (horiginal : w'.original = w.original)
    (hbackup : w.replacement = none → w'.backup = w.backup) :
  Performed U codec call held c o v d (.working w) v' d' (.working w')
  := by
  apply h.working (hpaths.entry _) hlocked hconfig hwork
  apply Move.quiet hpaths
  refine .inr (.inr ⟨rfl, ?_⟩)
  rintro _ ⟨⟩
  exact .inr ⟨w, rfl, horiginal, hbackup⟩

variable (U codec call) in
/-- What is known after a call of an editor in a phase, whatever the call does. -/
def Performs (φ : Phase) (o : EditOp) : Prop :=
  ∀ {held : Option ℕ → Bool} {busy : ℕ → Bool} {c : Choice} {v : Files} {d : Descriptors}
    {r : o.Reply} {v' : Files} {d' : Descriptors}, Knows U codec call v φ d →
    perform held busy v d c o = some (r, v', d') →
    Performed U codec call held c o v d φ v' d' (nextPhase φ o r)

theorem performed_openPath :
  Performs U codec call (.outside none) .openPath
  := by
  intro held busy c v d r v' d' hknows h
  rw [perform] at h
  split at h
  · cases h
    exact hknows.stay
  · split at h
    · cases h
      exact hknows.stay
    · cases h
      refine performed_before ?_ (nofun) (nofun) rfl ?_
      · exact hknows.locked
      · intro hlocked
        cases hknows.locked.symm.trans hlocked

theorem performed_flock :
  Performs U codec call .opened .flock
  := by
  intro held busy c v d r v' d' hknows h
  rw [perform] at h
  split at h
  · cases h
    exact hknows.stay
  · split at h
    · cases h
    · rename_i hheld
      cases h
      apply performed_before rfl (by rintro ⟨⟩) (by rintro w ⟨⟩) rfl
      exact fun _ => .inr (Bool.eq_false_of_not_eq_true hheld)

theorem entry_of_pathIs (h : pathIs v d = true) :
  v.entry (.file .config) = d.config
  := by
  obtain ⟨i, hi, hsame⟩ := (Option.any_eq_true _ _).mp h
  rw [Bool.and_eq_true, decide_eq_true_eq] at hsame
  rw [hi, hsame.1]

theorem performed_samePath :
  Performs U codec call .locked .samePath
  := by
  intro held busy c v d r v' d' hknows h
  cases h
  cases hr : (!c.fault && pathIs v d) with
  | false => exact hknows.stay
  | true =>
    refine performed_before ?_ ?_ (nofun) rfl ?_
    · exact hknows.locked
    · intro _
      exact entry_of_pathIs (Bool.and_elim_right hr)
    · exact fun hlocked => .inl ⟨hlocked, rfl⟩

/-- An editor that has read the file of the path is at work. -/
theorem performed_read :
  Performs U codec call .verified .read
  := by
  intro held busy c v d r v' d' hknows h
  cases h
  split
  · exact hknows.stay
  cases hconfig : d.config with
  | none => exact hknows.stay
  | some i =>
    have htext : v.text (.file .config) = some (v.file i).body := by
      rw [Volume.text, hknows.owner rfl, hconfig]
      rfl
    refine ⟨⟨hknows.locked, fun _ => hknows.owner rfl, ?_⟩, .inl rfl,
      fun hlocked => .inl ⟨hlocked, rfl⟩, ?_⟩
    · rintro _ ⟨⟩
      refine ⟨⟨htext, nofun, nofun⟩, nofun, ?_, fun _ _ _ => rfl,
        nofun⟩
      rintro (_ | _) id ⟨⟩
    · apply Move.quiet (SamePaths.refl v)
      refine .inr (.inr ⟨rfl, ?_⟩)
      rintro _ ⟨⟩
      exact .inl rfl

theorem performed_close :
  Performs U codec call φ .close
  := by
  intro held busy c v d r v' d' hknows h
  cases h
  have hnext : nextPhase φ .close () = .outside φ.ending := by
    cases φ <;> rfl
  rw [hnext]
  refine ⟨⟨rfl, nofun, nofun⟩, .inr (Harmless.refl v), nofun, ?_⟩
  exact .quiet (SamePaths.refl v) (.inr (.inl rfl))

theorem performed_early (hfound : FoundDisabled U codec call w.original)
    (hidle : w.filling = none) :
  Performs U codec call (.working w) (.backupExists true)
  := by
  intro held busy c v d r v' d' hknows h
  have hwork := hknows.work w rfl
  cases h
  cases hr : (!c.fault && regularBackup v) with
  | true =>
    rw [Bool.and_eq_true, Bool.not_eq_true'] at hr
    refine ⟨⟨hknows.locked, nofun, nofun⟩, .inl rfl,
      fun hlocked => .inl ⟨hlocked, rfl⟩, ?_⟩
    exact .found rfl hwork.paths.text hfound hr.1 hr.2
  | false =>
    rw [Bool.and_eq_false_iff, Bool.not_eq_false'] at hr
    refine hknows.working rfl rfl rfl ?_ (.missed rfl hwork.paths.text hfound hr)
    refine ⟨⟨hwork.paths.text, nofun, nofun⟩, ?_, hwork.ready, nofun,
      nofun⟩
    exact fun f hf => not_filling hidle hf

theorem performed_preserve (hdisabled : ¬ WasEnabled U codec call w.original)
    (hreplacement : w.replacement ≠ none) :
  Performs U codec call (.working w) (.backupExists false)
  := by
  intro held busy c v d r v' d' hknows h
  have hwork := hknows.work w rfl
  cases h
  cases (!c.fault && regularBackup v) with
  | true =>
    refine hknows.working_quiet (SamePaths.refl v) rfl rfl ?_ rfl (absurd · hreplacement)
    exact ⟨⟨hwork.paths.text, nofun, nofun⟩, hwork.filling, hwork.ready,
      nofun, fun _ => hdisabled⟩
  | false =>
    refine hknows.working_quiet (SamePaths.refl v) rfl rfl ?_ rfl (absurd · hreplacement)
    exact ⟨⟨hwork.paths.text, nofun, nofun⟩, hwork.filling, hwork.ready,
      nofun, nofun⟩

theorem performed_createTemp (target : Target) (habsent : w.temp target = none)
    (hfresh : call.action = .disable → ¬ WasEnabled U codec call w.original → w.backup ≠ .unknown) :
  Performs U codec call (.working w) (.createTemp target)
  := by
  intro held busy c v d r v' d' hknows h
  rw [perform] at h
  split at h
  · cases h
    exact hknows.stay
  · split at h
    · rename_i hfree
      cases h
      obtain ⟨hpaths, hwork⟩ :=
        (hknows.work w rfl).created habsent hfree.2.1 hfresh
      exact hknows.working_quiet hpaths rfl rfl hwork rfl (fun _ => rfl)
    · cases h

/-- A write touches the open temporary file only, even if it fails. -/
theorem performed_write {body : GoString} (hf : w.filling = some f) (hblank : f.written = none)
    (htext : TempText U codec call w.original f.target body) :
  Performs U codec call (.working w) (.write body)
  := by
  intro held busy c v d r v' d' hknows h
  have hunsynced : ∀ i, FillingKept U codec call w.original v f i → f.synced = true → False :=
    fun i hfilling hsynced => (hfilling.synced hsynced).1 hblank
  rw [perform] at h
  split at h
  · cases h
    obtain ⟨hpaths, hwork⟩ := (hknows.work w rfl).changed f
      (fun g => { g with body := c.body, synced := false }) hf rfl rfl (fun _ => rfl)
      (fun i _ body hbody => by rw [hblank] at hbody; cases hbody)
      (fun i hfilling hsynced => (hunsynced i hfilling hsynced).elim)
    rw [← hf] at hwork
    exact hknows.working_quiet hpaths rfl rfl hwork rfl (fun _ => rfl)
  · cases h
    obtain ⟨hpaths, hwork⟩ := (hknows.work w rfl).changed
      { f with written := some body } (fun g => { g with body := body, synced := false }) hf rfl
      rfl (fun _ => rfl)
      (fun i _ body' hbody' => by cases hbody'; exact ⟨rfl, htext⟩)
      (fun i hfilling hsynced => (hunsynced i hfilling hsynced).elim)
    change Performed U codec call held c _ v d (.working w) _ d
      (.working { w with filling := w.filling.map _ })
    rw [hf]
    exact hknows.working_quiet hpaths rfl rfl hwork rfl (fun _ => rfl)

theorem performed_fsync (hf : w.filling = some f) (hwritten : f.written ≠ none) :
  Performs U codec call (.working w) .fsync
  := by
  intro held busy c v d r v' d' hknows h
  rw [perform] at h
  split at h
  · cases h
    exact hknows.stay
  · cases h
    obtain ⟨hpaths, hwork⟩ := (hknows.work w rfl).changed
      { f with synced := true } (fun g => { g with synced := true }) hf rfl rfl (fun _ => rfl)
      (fun i hfilling => hfilling.written) (fun i _ _ => ⟨hwritten, rfl⟩)
    change Performed U codec call held c _ v d (.working w) _ d
      (.working { w with filling := w.filling.map _ })
    rw [hf]
    exact hknows.working_quiet hpaths rfl rfl hwork rfl (fun _ => rfl)

theorem performed_closeTemp (hf : w.filling = some f) :
  Performs U codec call (.working w) .closeTemp
  := by
  intro held busy c v d r v' d' hknows h
  have hwork := hknows.work w rfl
  cases h
  simp only [nextPhase, hf]
  split
  · rename_i hsynced
    exact hknows.working_quiet (SamePaths.refl v) rfl rfl
      (hwork.closed hf (Bool.and_elim_left hsynced)) (w.original_ready _ _)
      (fun _ => w.backup_ready _ _)
  · exact hknows.working_quiet (SamePaths.refl v) rfl rfl (hwork.givenUp hf) rfl (fun _ => rfl)

/-- The backup that is installed is the text of the file. -/
theorem performed_renameBackup (hidle : w.filling = none) (htemp : w.backupTemp = some id)
    (hcause : WasEnabled U codec call w.original ∨ w.backup = .missing) :
  Performs U codec call (.working w) (.rename .backup id)
  := by
  intro held busy c v d r v' d' hknows h
  have hwork := hknows.work w rfl
  rw [perform] at h
  split at h
  · cases h
    exact hknows.stay
  · split at h
    · cases h
      exact hknows.stay
    · rename_i v'' hrename
      cases h
      obtain ⟨i, hi, rfl⟩ := rename_eq_some hrename
      obtain ⟨hfile, hwork'⟩ := hwork.renamedBackup hidle htemp hi
      have hinstalls := installs_rename v .backup id i
      rw [hfile] at hinstalls
      exact hknows.working (hinstalls.entry_of_ne .config (nofun)) rfl rfl hwork'
        (.saved hwork.paths.text hcause hinstalls)

/-- The file that is installed is the edited text, with a backup beside it. -/
theorem performed_renameConfig (htemp : w.replacement = some id)
    (hbackup : w.backup = .durable ∨ w.backup = .kept) :
  Performs U codec call (.working w) (.rename .config id)
  := by
  intro held busy c v d r v' d' hknows h
  have hwork := hknows.work w rfl
  rw [perform] at h
  split at h
  · cases h
    exact hknows.stay
  · split at h
    · cases h
      exact hknows.stay
    · rename_i v'' hrename
      cases h
      obtain ⟨i, hi, rfl⟩ := rename_eq_some hrename
      obtain ⟨body, hfile, hedited⟩ := hwork.ready .config id htemp i hi
      have hinstalls := installs_rename v .config id i
      rw [hfile] at hinstalls
      refine ⟨⟨hknows.locked, nofun, nofun⟩, .inl rfl,
        fun hlocked => .inl ⟨hlocked, rfl⟩, ?_⟩
      exact .installed body hwork.paths hedited
        (hbackup.imp_right (fun hkept => ⟨hkept, hwork.kept hkept⟩)) hinstalls

theorem performed_syncBackup (hidle : w.filling = none) :
  Performs U codec call (.working w) .syncDirectory
  := by
  intro held busy c v d r v' d' hknows h
  have hwork := hknows.work w rfl
  rw [perform] at h
  split at h
  · cases h
    exact hknows.stay
  · cases h
    refine hknows.working rfl rfl rfl ?_ (.synced rfl)
    refine ⟨hwork.paths.syncDirectory, ?_, hwork.ready, ?_, ?_⟩
    · exact fun f hf => not_filling hidle hf
    · intro haction hwas hunknown
      split at hunknown
      · cases hunknown
      · rw [hwork.fresh haction hwas hunknown]
        rfl
    · intro hkept
      split at hkept
      · cases hkept
      · exact hwork.kept hkept

theorem performed_syncConfig :
  Performs U codec call .renamed .syncDirectory
  := by
  intro held busy c v d r v' d' hknows h
  rw [perform] at h
  split at h
  · cases h
    exact hknows.stay
  · cases h
    exact ⟨⟨hknows.locked, nofun, nofun⟩, .inr (Harmless.syncDirectory v),
      fun hlocked => .inl ⟨hlocked, rfl⟩, .completed rfl⟩

theorem performed_remove :
  Performs U codec call φ (.remove target id)
  := by
  intro held busy c v d r v' d' hknows h
  have hnext : nextPhase φ (.remove target id) r = φ := by
    cases φ <;> rfl
  rw [hnext]
  rw [perform] at h
  split at h
  · cases h
    exact hknows.stay
  · split at h
    · cases h
      exact hknows.stay
    · cases h
      have hharmless := Harmless.remove v target id
      refine ⟨⟨hknows.locked, ?_, fun w hw => (hknows.work w hw).of_harmless hharmless⟩,
        .inr hharmless, fun hlocked => .inl ⟨hlocked, rfl⟩, ?_⟩
      · intro howns
        exact hknows.owner howns
      · exact .quiet (samePaths_bind_temp v target id none) (.inl rfl)

/-- What a call of the protocol does. -/
theorem Knows.performed {busy : ℕ → Bool} {r : o.Reply} (hknows : Knows U codec call v φ d)
    (hallows : Allows U codec call φ o) (h : perform held busy v d c o = some (r, v', d')) :
  Performed U codec call held c o v d φ v' d' (nextPhase φ o r)
  := by
  cases hallows with
  | openPath => exact performed_openPath hknows h
  | flock => exact performed_flock hknows h
  | samePath => exact performed_samePath hknows h
  | read => exact performed_read hknows h
  | close _ _ => exact performed_close hknows h
  | early w hfound _ hidle => exact performed_early hfound hidle hknows h
  | preserve w hdisabled hreplacement _ => exact performed_preserve hdisabled hreplacement hknows h
  | createConfig w _ habsent hcause =>
    refine performed_createTemp .config (w := w) habsent ?_ hknows h
    intro haction hwas hunknown
    rcases hcause with hcause | hcause | hcause
    · exact hwas hcause
    · rw [haction] at hcause
      cases hcause
    · rw [hunknown] at hcause
      cases hcause
  | createBackup w _ hreplacement habsent =>
    refine performed_createTemp .backup (w := w) habsent ?_ hknows h
    exact (hknows.work w rfl).not_fresh (.inr (.inl hreplacement))
  | write w f body hf hblank htext => exact performed_write hf hblank htext hknows h
  | chown | chmod | recheck =>
    cases h
    exact hknows.stay
  | fsync w f hf hwritten => exact performed_fsync hf hwritten hknows h
  | closeTemp w f hf => exact performed_closeTemp hf hknows h
  | renameBackup w id hidle htemp hcause =>
    exact performed_renameBackup hidle htemp hcause hknows h
  | renameConfig w id _ htemp hbackup => exact performed_renameConfig htemp hbackup hknows h
  | syncBackup w hidle => exact performed_syncBackup hidle hknows h
  | syncConfig => exact performed_syncConfig hknows h
  | remove _ target id _ => exact performed_remove hknows h

end Performed

end DirectoryConfig
