import ActivityRelay.DirectoryConfig.Invariant

/-!
# The backup of the configuration file

Calls of `DisableFile` for one entry that is enabled at the start, with failures, kills and crashes
at any point. The configuration file is always the original or the complete disabled document. The
backup is the original whenever the entry is disabled, so a later call never puts a document with
the disabled entry in its place.
-/

namespace DirectoryConfig

open GoString Interaction Posix

variable {n : ℕ} {U : CaseTable} {codec : Codec} {call : Call} {original text : GoString}

variable (U codec call original) in
/-- The file is the complete disabled document. -/
def DisabledWhole (f : Option (File GoString)) : Prop :=
  ∃ disabled, Edited U codec call original disabled ∧ f = some (whole disabled)

variable (U codec call original) in
/-- What holds of the two paths, and of the processes. -/
structure Recoverable (φ : Fin n → Phase) (v : Files) : Prop where
  config : ∀ f ∈ v.crashFiles (.file .config),
    f = some (whole original) ∨ DisabledWhole U codec call original f
  backup : (∃ f ∈ v.crashFiles (.file .config), DisabledWhole U codec call original f) →
    ∀ f ∈ v.crashFiles (.file .backup), f = some (whole original)
  decided : ∀ i, φ i = .found ∨ φ i = .renamed ∨ φ i = .synced →
    DisabledWhole U codec call original (v.fileAt (.file .config))
  idle : ∀ i w, φ i = .working w → ¬ WasEnabled U codec call w.original → w.backup = .unknown

/-- The look at the backup of a call that finds the entry disabled does not fail. -/
def Truthful (fleet : Fleet n) : Event n → Prop
  | .exec i c => (fleet.proc i).next? = some (.backupExists true) → c.fault = false
  | _ => True

instance (fleet : Fleet n) (event : Event n) : Decidable (Truthful fleet event) := by
  cases event <;> dsimp only [Truthful] <;> infer_instance

theorem Edited.not_wasEnabled {disabled : GoString} (haction : call.action = .disable)
    (h : Edited U codec call text disabled) :
  ¬ WasEnabled U codec call disabled
  := by
  rintro ⟨p, hp, hwas⟩
  obtain ⟨item, hitem, hdisabled⟩ := h.disabled haction
  obtain ⟨root, directories, before, item', after, hroot, hfound, rfl⟩ := prepare_eq_ok hp
  have hentry : entry codec disabled call.origin = some item' := by
    rw [entry, hroot, Option.bind_some, hfound.items_eq, hfound.find_self]
  cases hitem.symm.trans hentry
  rw [hdisabled, Bool.and_false] at hwas
  cases hwas

theorem FoundDisabled.not_wasEnabled (h : FoundDisabled U codec call text) :
  ¬ WasEnabled U codec call text
  := by
  obtain ⟨-, p, hp, hdisabled⟩ := h
  rw [wasEnabled_iff hp, hdisabled]
  exact Bool.false_ne_true

namespace Recoverable

variable {φ : Fin n → Phase} {v v' : Files} {i : Fin n} {ψ' : Phase} {c : Choice} {o : EditOp}

section

variable (h : Recoverable U codec call original φ v)
include h

/-- The file of the path, by its text. -/
theorem fileAt_config
    (htext : v.text (.file .config) = some text) :
  text = original ∨ DisabledWhole U codec call original (v.fileAt (.file .config)) ∧
    Edited U codec call original text
  := by
  rw [v.text_eq_map] at htext
  rcases h.config _ (v.fileAt_mem_crashFiles _) with horiginal | ⟨disabled, hedited, hdisabled⟩
  · left
    rw [horiginal] at htext
    exact (Option.some.inj htext).symm
  · right
    rw [hdisabled] at htext
    cases htext
    exact ⟨⟨_, hedited, hdisabled⟩, hedited⟩

/-- An owner that works on a text with the enabled entry works on the original. -/
theorem eq_original (haction : call.action = .disable)
    (htext : v.text (.file .config) = some text) (hwas : WasEnabled U codec call text) :
  text = original
  := by
  rcases h.fileAt_config htext with horiginal | ⟨-, hedited⟩
  · exact horiginal
  · exact absurd hwas (hedited.not_wasEnabled haction)

/-- The entry is found disabled in the disabled document only. -/
theorem disabledWhole
    (henabled : WasEnabled U codec call original) (htext : v.text (.file .config) = some text)
    (hwas : ¬ WasEnabled U codec call text) :
  DisabledWhole U codec call original (v.fileAt (.file .config))
  := by
  rcases h.fileAt_config htext with rfl | ⟨hdisabled, -⟩
  · exact absurd henabled hwas
  · exact hdisabled

/-- The backup of the disabled document. -/
theorem backup_of_disabledWhole
    (hdisabled : DisabledWhole U codec call original (v.fileAt (.file .config))) :
  v.fileAt (.file .backup) = some (whole original)
  := h.backup ⟨_, v.fileAt_mem_crashFiles _, hdisabled⟩ _ (v.fileAt_mem_crashFiles _)

/-! ### Invariance -/

/-- The invariant after a change of the phase of one process. The files that a crash may bring back
are among the ones before, but the backup may be a new one. -/
theorem update
    (hfileAt : v'.fileAt (.file .config) = v.fileAt (.file .config))
    (hconfig : ∀ f ∈ v'.crashFiles (.file .config), f ∈ v.crashFiles (.file .config))
    (hbackup : ∀ f ∈ v'.crashFiles (.file .backup),
      f ∈ v.crashFiles (.file .backup) ∨ f = some (whole original))
    (hdecided : ψ' = .found ∨ ψ' = .renamed ∨ ψ' = .synced →
      DisabledWhole U codec call original (v.fileAt (.file .config)))
    (hidle : ∀ w, ψ' = .working w → ¬ WasEnabled U codec call w.original → w.backup = .unknown) :
  Recoverable U codec call original (Function.update φ i ψ') v'
  := by
  refine ⟨fun f hf => h.config f (hconfig f hf), ?_, ?_, ?_⟩
  · rintro ⟨f, hf, hdisabled⟩ g hg
    exact (hbackup g hg).elim (h.backup ⟨f, hconfig f hf, hdisabled⟩ g) id
  · rw [hfileAt]
    rw [Function.forall_update_iff φ (fun _ ψ => ψ = .found ∨ ψ = .renamed ∨ ψ = .synced →
      DisabledWhole U codec call original (v.fileAt (.file .config)))]
    exact ⟨hdecided, fun j _ => h.decided j⟩
  · rw [Function.forall_update_iff φ (fun _ ψ => ∀ w, ψ = .working w →
      ¬ WasEnabled U codec call w.original → w.backup = .unknown)]
    exact ⟨hidle, fun j _ => h.idle j⟩

end

theorem decided_of_quiet {ψ : Phase} (h : ψ' = ψ ∨ ψ' = .outside ψ.ending ∨ Undecided ψ ψ')
    (hdecided : ψ' = .found ∨ ψ' = .renamed ∨ ψ' = .synced) :
  ψ' = ψ
  := by
  rcases h with heq | rfl | hundecided
  · exact heq
  · rcases hdecided with h | h | h <;> cases h
  · have hψ := hundecided.undecided
    rcases hdecided with rfl | rfl | rfl <;> cases hψ

section

variable (h : Recoverable U codec call original φ v)
include h

/-- A quiet call keeps an owner idle that has nothing to do. -/
theorem idle_of_quiet {ψ : Phase} {d : Descriptors}
    (haction : call.action = .disable) (hknows : Knows U codec call v ψ d) (hψ : φ i = ψ)
    (hphases : ψ' = ψ ∨ ψ' = .outside ψ.ending ∨ Undecided ψ ψ') {w' : Work}
    (hw' : ψ' = .working w') (hwas : ¬ WasEnabled U codec call w'.original) :
  w'.backup = .unknown
  := by
  rcases hphases with rfl | rfl | hundecided
  · exact h.idle i w' (hψ.trans hw') hwas
  · cases hw'
  · rcases hundecided.work w' hw' with hunknown | ⟨w, rfl, horiginal, hbackup⟩
    · exact hunknown
    · rw [horiginal] at hwas
      have hunknown := h.idle i w hψ hwas
      rw [hbackup, hunknown]
      rw [(hknows.work w rfl).fresh haction hwas hunknown]

/-- An owner that does not idle has found the entry enabled. -/
theorem wasEnabled {w : Work} (hφ : φ i = .working w)
    (hbusy : w.backup ≠ .unknown) :
  WasEnabled U codec call w.original
  := by
  by_contra hwas
  exact hbusy (h.idle i w hφ hwas)

/-- A backup is installed. -/
theorem saved {w : Work}
    (haction : call.action = .disable) (hφ : φ i = .working w)
    (htext : v.text (.file .config) = some w.original)
    (hcause : WasEnabled U codec call w.original ∨ w.backup = .missing)
    (hinstalls : Installs v v' .backup (whole w.original)) :
  Recoverable U codec call original
    (Function.update φ i (.working { w with backup := .saved })) v'
  := by
  have hwas : WasEnabled U codec call w.original := by
    rcases hcause with hwas | hmissing
    · exact hwas
    · apply h.wasEnabled hφ
      rw [hmissing]
      rintro ⟨⟩
  apply h.update (hinstalls.fileAt_of_ne _ (by rintro ⟨⟩))
  · intro f hf
    rw [← hinstalls.crashFiles_of_ne _ (by rintro ⟨⟩)]
    exact hf
  · intro f hf
    rw [hinstalls.crashFiles, h.eq_original haction htext hwas] at hf
    exact (List.mem_cons.mp hf).symm
  · rintro (⟨⟨⟩⟩ | ⟨⟨⟩⟩ | ⟨⟨⟩⟩)
  · rintro _ ⟨⟩ hnot
    exact absurd hwas hnot

/-- A new configuration file is installed. -/
theorem installed {w : Work} {body : GoString}
    (haction : call.action = .disable) (hφ : φ i = .working w)
    (hkept : PathsKept v w.original w.backup) (hedited : Edited U codec call w.original body)
    (hbackup : w.backup = .durable ∨ w.backup = .kept ∧ ¬ WasEnabled U codec call w.original)
    (hinstalls : Installs v v' .config (whole body)) :
  Recoverable U codec call original (Function.update φ i .renamed) v'
  := by
  have hwas : WasEnabled U codec call w.original := by
    apply h.wasEnabled hφ
    rcases hbackup with hdurable | ⟨hkept, -⟩
    · rw [hdurable]
      rintro ⟨⟩
    · rw [hkept]
      rintro ⟨⟩
  have hdurable : w.backup = .durable := hbackup.resolve_right (fun hkept => hkept.2 hwas)
  have horiginal := h.eq_original haction hkept.text hwas
  have hdisabled : DisabledWhole U codec call original (some (whole body)) :=
    ⟨body, horiginal ▸ hedited, rfl⟩
  refine ⟨?_, ?_, ?_, ?_⟩
  · intro f hf
    rw [hinstalls.crashFiles] at hf
    rcases List.mem_cons.mp hf with rfl | hf
    · exact .inr hdisabled
    · exact h.config f hf
  · intro _ f hf
    rw [hinstalls.crashFiles_of_ne _ (by rintro ⟨⟩)] at hf
    rw [hkept.durable hdurable f hf, horiginal]
  · rw [hinstalls.fileAt]
    exact fun _ _ => hdisabled
  · rw [Function.forall_update_iff φ (fun _ ψ => ∀ w, ψ = .working w →
      ¬ WasEnabled U codec call w.original → w.backup = .unknown)]
    exact ⟨by rintro w ⟨⟩, fun j _ => h.idle j⟩

/-- What a system call keeps. -/
theorem move {d : Descriptors}
    (haction : call.action = .disable) (henabled : WasEnabled U codec call original)
    (hknows : Knows U codec call v (φ i) d) (htruthful : o = .backupExists true → c.fault = false)
    (hmove : Move U codec call c v v' o (φ i) ψ') :
  Recoverable U codec call original (Function.update φ i ψ') v'
  := by
  generalize hφ : φ i = ψ at hmove hknows
  cases hmove with
  | quiet same phases =>
    apply h.update (same.fileAt _)
    · intro f hf
      rw [← same.crashFiles]
      exact hf
    · intro f hf
      rw [← same.crashFiles]
      exact .inl hf
    · intro hdecided
      apply h.decided i
      rw [hφ, ← decided_of_quiet phases hdecided]
      exact hdecided
    · exact fun w hw hwas => h.idle_of_quiet haction hknows hφ phases hw hwas
  | found same text found fault backup =>
    subst same
    apply h.update rfl (fun _ hf => hf) (fun _ hf => .inl hf) _ (by rintro w ⟨⟩)
    intro _
    exact h.disabledWhole henabled text found.not_wasEnabled
  | missed same text found backup =>
    -- the backup is there, and the look at it has not failed
    have hdisabled := h.disabledWhole henabled text found.not_wasEnabled
    rw [htruthful rfl, regularBackup, h.backup_of_disabledWhole hdisabled] at backup
    rcases backup with hfault | hnone
    · cases hfault
    · cases hnone
  | saved text cause installs => exact h.saved haction hφ text cause installs
  | installed body kept edited backup installs =>
    exact h.installed haction hφ kept edited backup installs
  | @synced _ w same =>
    subst same
    have hsync := Harmless.syncDirectory v
    apply h.update (hsync.fileAt _) (hsync.crashFiles _)
      (fun f hf => .inl (hsync.crashFiles _ f hf))
    · rintro (⟨⟨⟩⟩ | ⟨⟨⟩⟩ | ⟨⟨⟩⟩)
    · rintro _ ⟨⟩ hwas
      have hunknown := h.idle i w hφ hwas
      simp only [hunknown, reduceCtorEq, if_false]
  | completed same =>
    subst same
    have hsync := Harmless.syncDirectory v
    apply h.update (hsync.fileAt _) (hsync.crashFiles _)
      (fun f hf => .inl (hsync.crashFiles _ f hf))
    · exact fun _ => h.decided i (.inr (.inl hφ))
    · rintro w ⟨⟩

end

/-- The step lemma. -/
theorem change {fleet : Fleet n} {event : Event n} {φ' : Fin n → Phase}
    (h : Recoverable U codec call original φ fleet.volume) (haction : call.action = .disable)
    (henabled : WasEnabled U codec call original) (hinv : Inv U codec (fun _ => call) φ fleet)
    (htruthful : Truthful fleet event)
    (hchange : Change U codec (fun _ => call) fleet φ v' event φ') :
  Recoverable U codec call original φ' v'
  := by
  cases hchange with
  | exec i c o k ψ prog move =>
    apply h.move haction henabled (hinv.knows i) _ move
    rintro rfl
    apply htruthful
    simp only [Proc.next?, prog, Option.bind_some, Prog.next?]
  | kill i e ended same =>
    subst same
    apply h.update rfl (fun _ hf => hf) (fun _ hf => .inl hf)
    · rintro (⟨⟨⟩⟩ | ⟨⟨⟩⟩ | ⟨⟨⟩⟩)
    · rintro w ⟨⟩
  | crash pick bodies e ended same =>
    subst same
    have hsynced : ∀ file, some file ∈ fleet.volume.crashFiles (.file .config) →
        file.synced = true := by
      intro file hfile
      rcases h.config _ hfile with horiginal | ⟨disabled, -, hdisabled⟩
      · rw [Option.some.inj horiginal]
        rfl
      · rw [Option.some.inj hdisabled]
        rfl
    have hconfig := fleet.volume.fileAt_crash pick bodies hsynced
    refine ⟨?_, ?_, ?_, nofun⟩
    · intro f hf
      rw [List.mem_singleton.mp hf]
      exact h.config _ hconfig
    · rintro ⟨f, hf, hdisabled⟩ g hg
      rw [List.mem_singleton.mp hf] at hdisabled
      have hbackup := h.backup ⟨_, hconfig, hdisabled⟩
      rw [List.mem_singleton.mp hg]
      apply hbackup
      apply fleet.volume.fileAt_crash pick bodies
      intro file hfile
      rw [Option.some.inj (hbackup _ hfile)]
      rfl
    · rintro i (⟨⟨⟩⟩ | ⟨⟨⟩⟩ | ⟨⟨⟩⟩)

/-- The texts of the two paths when the entry is disabled. -/
theorem texts (h : Recoverable U codec call original φ v)
    (hdisabled : DisabledWhole U codec call original (v.fileAt (.file .config))) :
  ∃ disabled, Edited U codec call original disabled ∧
    v.text (.file .config) = some disabled ∧ v.text (.file .backup) = some original
  := by
  have hbackup := h.backup_of_disabledWhole hdisabled
  obtain ⟨disabled, hedited, hfile⟩ := hdisabled
  refine ⟨disabled, hedited, ?_, ?_⟩
  · rw [v.text_eq_map, hfile]
    rfl
  · rw [v.text_eq_map, hbackup]
    rfl

/-- At the start the configuration file is the original, also after a crash. -/
theorem start (haction : call.action = .disable) (henabled : WasEnabled U codec call original)
    (hstart : ∀ f ∈ v.crashFiles (.file .config), f = some (whole original)) :
  Recoverable U codec call original (fun _ : Fin n => .outside none) v
  := by
  refine ⟨fun f hf => .inl (hstart f hf), ?_, ?_, nofun⟩
  · rintro ⟨f, hf, disabled, hedited, hfile⟩
    rw [hstart f hf] at hfile
    obtain rfl := congrArg File.body (Option.some.inj hfile)
    exact absurd henabled (hedited.not_wasEnabled haction)
  · rintro i (⟨⟨⟩⟩ | ⟨⟨⟩⟩ | ⟨⟨⟩⟩)

end Recoverable

/-- The entry is enabled in the original, whose file is durable at the start. In every history of
calls of `DisableFile` for it, with failures, kills and crashes, the configuration file is the
original or the complete disabled document, and in the second case the backup is the original. When
a call returns success, it is the second case. -/
theorem original_or_disabled {origin : GoString} {v₀ : Files} {fleet : Fleet n}
    (henabled : WasEnabled U codec ⟨.disable, origin⟩ original)
    (hstart : ∀ f ∈ v₀.crashFiles (.file .config), f = some (whole original))
    (events : List (Event n))
    (htruthful : Transition.Meets step Truthful
      (start U codec (fun _ => ⟨.disable, origin⟩) v₀) events)
    (hrun : Transition.run step (start U codec (fun _ => ⟨.disable, origin⟩) v₀) events =
      some fleet) :
  (fleet.volume.text (.file .config) = some original ∨
    ∃ disabled, Edited U codec ⟨.disable, origin⟩ original disabled ∧
      fleet.volume.text (.file .config) = some disabled ∧
      fleet.volume.text (.file .backup) = some original) ∧
  ∀ event fleet', step fleet event = some fleet' →
    ∀ i, (fleet.proc i).succeeded = false → (fleet'.proc i).succeeded = true →
      ∃ disabled, Edited U codec ⟨.disable, origin⟩ original disabled ∧
        Disabled codec origin disabled ∧
        fleet'.volume.text (.file .config) = some disabled ∧
        fleet'.volume.text (.file .backup) = some original
  := by
  obtain ⟨φ, hinv, h⟩ := run_keeps
    (J := Recoverable U codec ⟨.disable, origin⟩ original) (C := Truthful)
    (fun _ _ _ _ _ hinv htruthful h hchange => h.change rfl henabled hinv htruthful hchange)
    (.start rfl henabled hstart) htruthful hrun
  refine ⟨?_, ?_⟩
  · rcases h.config _ (fleet.volume.fileAt_mem_crashFiles _) with horiginal | hdisabled
    · left
      rw [fleet.volume.text_eq_map, horiginal]
      rfl
    · exact .inr (h.texts hdisabled)
  · intro event fleet' hstep i hbefore hafter
    obtain ⟨hphase, hsame⟩ := hinv.returned hstep hbefore hafter
    obtain ⟨disabled, hedited, hconfig, hbackup⟩ := h.texts (h.decided i (hphase.imp_right .inr))
    refine ⟨disabled, hedited, hedited.disabled rfl, ?_, ?_⟩
    · rw [hsame.text]
      exact hconfig
    · rw [hsame.text]
      exact hbackup

/-- The first call is in front of its last sync when the system crashes, and its renaming survives.
The second call is about to return. -/
def interruptedEvents : List (Event 2) :=
  calling 0 1 10 ++ calling 0 2 10 ++ [.crash (fun _ => 0) (fun _ => [])] ++ calling 1 3 5

def interruptedRun : Option (Fleet 2) :=
  Transition.run step (start .identity sampleCodec (fun _ => ⟨.disable, firstOrigin⟩) sampleFiles)
    interruptedEvents

theorem original_or_disabled_interrupted :
  ∃ fleet fleet', interruptedRun = some fleet ∧ step fleet (.exec 1 {}) = some fleet' ∧
    (fleet'.proc 1).succeeded = true ∧
    ∃ disabled, Disabled sampleCodec firstOrigin disabled ∧
      fleet'.volume.text (.file .config) = some disabled ∧
      fleet'.volume.text (.file .backup) = some (sampleText true true)
  := by
  have hend : interruptedRun.any (fun fleet => !(fleet.proc 1).succeeded &&
      (step fleet (.exec 1 {})).any (fun fleet' => (fleet'.proc 1).succeeded)) = true := by
    decide +kernel
  obtain ⟨fleet, hrun, hlast⟩ := (Option.any_eq_true _ _).mp hend
  rw [Bool.and_eq_true, Bool.not_eq_true'] at hlast
  obtain ⟨fleet', hstep, hafter⟩ := (Option.any_eq_true _ _).mp hlast.2
  have henabled : WasEnabled .identity sampleCodec ⟨.disable, firstOrigin⟩
      (sampleText true true) := by
    use ⟨true, sampleTree [sampleItem firstOrigin false, sampleItem secondOrigin true]⟩
    decide +kernel
  have hstart : ∀ f ∈ sampleFiles.crashFiles (.file .config),
      f = some (whole (sampleText true true)) :=
    fun f hf => List.mem_singleton.mp hf
  have hreturned := (original_or_disabled henabled hstart interruptedEvents
    (by decide +kernel) hrun).2
  obtain ⟨disabled, -, hdisabled, htexts⟩ := hreturned _ fleet' hstep 1 hlast.1 hafter
  exact ⟨fleet, fleet', hrun, hstep, hafter, disabled, hdisabled, htexts⟩

end DirectoryConfig
