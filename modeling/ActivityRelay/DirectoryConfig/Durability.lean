import ActivityRelay.DirectoryConfig.Invariant

/-!
# Durability of a disabled entry

A call of `DisableFile` that has renamed its new file and synced the directory leaves an entry that
no crash enables again. A call that finds the entry disabled returns without a sync, so it relies on
the earlier call that has disabled it.
-/

namespace DirectoryConfig

open GoString Interaction Posix

variable {n : ℕ} {U : CaseTable} {codec : Codec} {calls : Fin n → Call} {text : GoString}
  {v v' : Files} {ψ ψ' : Phase} {c : Choice} {o : EditOp}

/-- The file has the entry of an origin, and it is disabled. -/
def DisabledFile (codec : Codec) (origin : GoString) (f : Option (File GoString)) : Prop :=
  ∃ file, f = some file ∧ Disabled codec origin file.body

/-- The entries of the calls that have succeeded are disabled, also after a crash. -/
structure Durable (codec : Codec) (calls : Fin n → Call) (φ : Fin n → Phase) (v : Files) :
    Prop where
  synced : ∀ file, some file ∈ v.crashFiles (.file .config) → file.synced = true
  done : ∀ i, (φ i).done = true →
    ∀ f ∈ v.crashFiles (.file .config), DisabledFile codec (calls i).origin f
  renamed : ∀ i, φ i = .renamed → DisabledFile codec (calls i).origin (v.fileAt (.file .config))

/-- A call is about to return because it finds its entry disabled and a backup. -/
def returnsEarly (fleet : Fleet n) : Event n → Bool
  | .exec i c =>
      (fleet.proc i).next? = some (.backupExists true) && !c.fault && regularBackup fleet.volume
  | _ => false

/-- No renaming of the configuration file can be undone by a crash. -/
def PathSynced (v : Files) : Prop :=
  ∀ f ∈ v.crashFiles (.file .config), f = v.fileAt (.file .config)

instance (v : Files) : Decidable (PathSynced v) :=
  inferInstanceAs (Decidable (∀ f ∈ v.crashFiles (.file .config), f = v.fileAt (.file .config)))

/-- A call that returns early does so when the path is synced. -/
def EarlySynced (fleet : Fleet n) (event : Event n) : Prop :=
  returnsEarly fleet event = true → PathSynced fleet.volume

instance (fleet : Fleet n) (event : Event n) : Decidable (EarlySynced fleet event) :=
  inferInstanceAs (Decidable (returnsEarly fleet event = true → PathSynced fleet.volume))

theorem fileAt_of_text {v : Files} {name : Name} (h : v.text name = some text) :
  ∃ file, v.fileAt name = some file ∧ file.body = text
  := by
  rw [v.text_eq_map] at h
  exact Option.map_eq_some_iff.mp h

/-- An edit of the configuration file by `DisableFile` keeps a disabled entry. -/
theorem DisabledFile.edited {call : Call} {origin body : GoString}
    (h : DisabledFile codec origin (v.fileAt (.file .config))) (haction : call.action = .disable)
    (htext : v.text (.file .config) = some text) (hedited : Edited U codec call text body) :
  DisabledFile codec origin (some (whole body))
  := by
  obtain ⟨file, hfile, hdisabled⟩ := h
  obtain ⟨file', hfile', rfl⟩ := fileAt_of_text htext
  cases hfile.symm.trans hfile'
  exact ⟨whole body, rfl, hedited.disabled_of_disabled haction hdisabled⟩

/-- An entry that has been found disabled is so in the file of the path. -/
theorem FoundDisabled.disabledFile {call : Call} (h : FoundDisabled U codec call text)
    (htext : v.text (.file .config) = some text) :
  DisabledFile codec call.origin (v.fileAt (.file .config))
  := by
  obtain ⟨haction, p, hp, hwas⟩ := h
  obtain ⟨file, hfile, rfl⟩ := fileAt_of_text htext
  exact ⟨file, hfile, disabled_of_prepare hp haction hwas⟩

theorem done_of_undecided (h : ψ.undecided = true) :
  ψ.done = false
  := by
  unfold Phase.undecided at h
  split at h <;> first | rfl | cases h

/-- A quiet call does not lead to success. -/
theorem done_of_quiet (h : ψ' = ψ ∨ ψ' = .outside ψ.ending ∨ Undecided ψ ψ')
    (hdone : ψ'.done = true) :
  ψ.done = true
  := by
  rcases h with rfl | rfl | hundecided
  · exact hdone
  · cases ψ <;> first | rfl | cases hdone
  · rw [done_of_undecided hundecided.undecided] at hdone
    cases hdone

theorem renamed_of_quiet (h : ψ' = ψ ∨ ψ' = .outside ψ.ending ∨ Undecided ψ ψ')
    (hrenamed : ψ' = .renamed) :
  ψ = .renamed
  := by
  subst hrenamed
  rcases h with rfl | h | hundecided
  · rfl
  · cases h
  · cases hundecided.undecided

/-! ### Invariance -/

namespace Durable

variable {φ : Fin n → Phase} {i : Fin n}

section

variable (h : Durable codec calls φ v)
include h

/-- The invariant after a change of the phase of one process and of the directory. -/
theorem update
    (hsynced : ∀ file, some file ∈ v'.crashFiles (.file .config) → file.synced = true)
    (hdone : ψ'.done = true →
      ∀ f ∈ v'.crashFiles (.file .config), DisabledFile codec (calls i).origin f)
    (hrenamed : ψ' = .renamed →
      DisabledFile codec (calls i).origin (v'.fileAt (.file .config)))
    (hfiles : ∀ f ∈ v'.crashFiles (.file .config), f ∈ v.crashFiles (.file .config) ∨
      ∀ origin, DisabledFile codec origin (v.fileAt (.file .config)) →
        DisabledFile codec origin f)
    (hfile : ∀ origin, DisabledFile codec origin (v.fileAt (.file .config)) →
      DisabledFile codec origin (v'.fileAt (.file .config))) :
  Durable codec calls (Function.update φ i ψ') v'
  := by
  refine ⟨hsynced, ?_, ?_⟩
  · rw [Function.forall_update_iff φ (fun j ψ => ψ.done = true →
      ∀ f ∈ v'.crashFiles (.file .config), DisabledFile codec (calls j).origin f)]
    refine ⟨hdone, ?_⟩
    intro j _ hj f hf
    rcases hfiles f hf with hf | hf
    · exact h.done j hj f hf
    · exact hf _ (h.done j hj _ (v.fileAt_mem_crashFiles _))
  · rw [Function.forall_update_iff φ (fun j ψ => ψ = .renamed →
      DisabledFile codec (calls j).origin (v'.fileAt (.file .config)))]
    exact ⟨hrenamed, fun j _ hj => hfile _ (h.renamed j hj)⟩

/-- The files of the path are the same. -/
theorem update_of_same
    (hfileAt : v'.fileAt (.file .config) = v.fileAt (.file .config))
    (hcrashFiles : v'.crashFiles (.file .config) = v.crashFiles (.file .config))
    (hdone : ψ'.done = true →
      ∀ f ∈ v.crashFiles (.file .config), DisabledFile codec (calls i).origin f)
    (hrenamed : ψ' = .renamed → φ i = .renamed) :
  Durable codec calls (Function.update φ i ψ') v'
  := by
  apply h.update
  · rw [hcrashFiles]
    exact h.synced
  · rw [hcrashFiles]
    exact hdone
  · rw [hfileAt]
    exact fun hψ => h.renamed i (hrenamed hψ)
  · rw [hcrashFiles]
    exact fun f hf => .inl hf
  · rw [hfileAt]
    exact fun _ hdisabled => hdisabled

/-- The directory is synced. -/
theorem update_of_sync
    (hdone : ψ'.done = true →
      DisabledFile codec (calls i).origin (v.fileAt (.file .config))) (hrenamed : ψ' ≠ .renamed) :
  Durable codec calls (Function.update φ i ψ') v.syncDirectory
  := by
  have hmem : ∀ f ∈ v.syncDirectory.crashFiles (.file .config), f = v.fileAt (.file .config) :=
    fun f hf => List.mem_singleton.mp hf
  apply h.update
  · intro file hfile
    apply h.synced file
    rw [hmem _ hfile]
    exact v.fileAt_mem_crashFiles _
  · intro hψ f hf
    rw [hmem f hf]
    exact hdone hψ
  · exact fun hψ => absurd hψ hrenamed
  · intro f hf
    rw [hmem f hf]
    exact .inl (v.fileAt_mem_crashFiles _)
  · exact fun _ hdisabled => hdisabled

/-- What a system call keeps. -/
theorem move (hdisable : (calls i).action = .disable)
    (hearly : o = .backupExists true → c.fault = false → regularBackup v = true → PathSynced v)
    (hmove : Move U codec (calls i) c v v' o (φ i) ψ') :
  Durable codec calls (Function.update φ i ψ') v'
  := by
  generalize hφ : φ i = ψ at hmove
  cases hmove with
  | quiet same phases =>
    apply h.update_of_same (same.fileAt _) (same.crashFiles _)
    · exact fun hψ => h.done i (hφ ▸ done_of_quiet phases hψ)
    · exact fun hψ => hφ ▸ renamed_of_quiet phases hψ
  | found same text found fault backup =>
    subst same
    apply h.update_of_same rfl rfl _ (by rintro ⟨⟩)
    intro _ f hf
    rw [hearly rfl fault backup f hf]
    exact found.disabledFile text
  | missed same text found backup =>
    subst same
    exact h.update_of_same rfl rfl (by rintro ⟨⟩) (by rintro ⟨⟩)
  | saved text cause installs =>
    exact h.update_of_same (installs.fileAt_of_ne _ nofun)
      (installs.crashFiles_of_ne _ nofun) nofun nofun
  | installed body kept edited backup installs =>
    have hkeep : ∀ origin, DisabledFile codec origin (v.fileAt (.file .config)) →
        DisabledFile codec origin (some (whole body)) :=
      fun _ hdisabled => hdisabled.edited hdisable kept.text edited
    apply h.update
    · intro file hfile
      rw [installs.crashFiles] at hfile
      rcases List.mem_cons.mp hfile with hfile | hfile
      · rw [Option.some.inj hfile]
        rfl
      · exact h.synced file hfile
    · rintro ⟨⟩
    · intro _
      rw [installs.fileAt]
      exact ⟨whole body, rfl, edited.disabled hdisable⟩
    · intro f hf
      rw [installs.crashFiles] at hf
      rcases List.mem_cons.mp hf with rfl | hf
      · exact .inr hkeep
      · exact .inl hf
    · rw [installs.fileAt]
      exact hkeep
  | synced same =>
    subst same
    exact h.update_of_sync nofun nofun
  | completed same =>
    subst same
    exact h.update_of_sync (fun _ => h.renamed i hφ) (by rintro ⟨⟩)

end

theorem change {fleet : Fleet n} {event : Event n} {φ' : Fin n → Phase}
    (h : Durable codec calls φ fleet.volume) (hdisable : ∀ i, (calls i).action = .disable)
    (hearly : EarlySynced fleet event) (hchange : Change U codec calls fleet φ v' event φ') :
  Durable codec calls φ' v'
  := by
  cases hchange with
  | exec i c o k ψ prog move =>
    apply h.move (hdisable i) _ move
    rintro rfl hfault hbackup
    apply hearly
    simp only [returnsEarly, Proc.next?, prog, Option.bind_some, Prog.next?, hfault, hbackup,
      decide_true, Bool.not_false, Bool.and_self]
  | kill i e ended same =>
    subst same
    apply h.update_of_same rfl rfl _ (by rintro ⟨⟩)
    intro hdone
    apply h.done i
    cases e with
    | none => cases hdone
    | some e => rw [ended (Option.some_ne_none e), hdone]
  | crash pick bodies e ended same =>
    subst same
    have hmem : ∀ f ∈ (fleet.volume.crash pick bodies).crashFiles (.file .config),
        f ∈ fleet.volume.crashFiles (.file .config) := by
      intro f hf
      rw [List.mem_singleton.mp hf]
      exact fleet.volume.fileAt_crash pick bodies h.synced
    refine ⟨fun file hfile => h.synced file (hmem _ hfile), ?_, by rintro i ⟨⟩⟩
    intro i hdone f hf
    apply h.done i _ f (hmem f hf)
    cases he : e i with
    | none =>
      rw [he] at hdone
      cases hdone
    | some e' =>
      rw [ended i (by rw [he]; exact Option.some_ne_none e')]
      exact hdone

end Durable

/-- In every history of calls of `DisableFile` with failures, kills and crashes in which a call
returns early only when no renaming of the configuration file can be undone: the entry of a call
that has returned success is disabled after every crash. -/
theorem disabled_after_crash {v₀ : Files} {fleet : Fleet n}
    (hdisable : ∀ i, (calls i).action = .disable)
    (hsynced : ∀ file, some file ∈ v₀.crashFiles (.file .config) → file.synced = true)
    (events : List (Event n))
    (hearly : Transition.Meets step EarlySynced (start U codec calls v₀) events)
    (hrun : Transition.run step (start U codec calls v₀) events = some fleet) (i : Fin n)
    (hi : (fleet.proc i).succeeded = true) (pick : Name → ℕ) (bodies : ℕ → GoString) :
  ∃ text, (fleet.volume.crash pick bodies).text (.file .config) = some text ∧
    Disabled codec (calls i).origin text
  := by
  obtain ⟨φ, hinv, hdurable⟩ := run_keeps (J := Durable codec calls)
    (fun _ _ _ _ _ _ hC h hchange => h.change hdisable hC hchange)
    ⟨hsynced, nofun, nofun⟩ hearly hrun
  obtain ⟨e, he⟩ := hinv.ended hi
  have hdone : (φ i).done = true := by
    rw [he]
    rfl
  obtain ⟨file, hfile, hdisabled⟩ :=
    hdurable.done i hdone _ (fleet.volume.fileAt_crash pick bodies hdurable.synced)
  refine ⟨file.body, ?_, hdisabled⟩
  rw [Volume.text_eq_map, hfile]
  rfl

/-- Two calls that disable the first directory. -/
def sameCall (_ : Fin 2) : Call := ⟨.disable, firstOrigin⟩

def repeatedRun (events : List (Event 2)) : Option (Fleet 2) :=
  Transition.run step (start .identity sampleCodec sameCall sampleFiles) events

/-- The second call comes when the first one has returned. -/
def repeatedEvents : List (Event 2) := calling 0 1 10 ++ calling 0 2 14 ++ calling 1 3 6

theorem disabled_after_crash_repeated :
  ∃ fleet, repeatedRun repeatedEvents = some fleet ∧ (fleet.proc 1).succeeded = true ∧
    ∀ pick bodies, ∃ text, (fleet.volume.crash pick bodies).text (.file .config) = some text ∧
      Disabled sampleCodec firstOrigin text
  := by
  have hend : (repeatedRun repeatedEvents).any (fun fleet => (fleet.proc 1).succeeded) = true := by
    decide +kernel
  obtain ⟨fleet, hrun, hsecond⟩ := (Option.any_eq_true _ _).mp hend
  refine ⟨fleet, hrun, hsecond, disabled_after_crash ?_ ?_ repeatedEvents ?_ hrun 1 hsecond⟩
  · intro i
    rfl
  · intro file hfile
    cases List.mem_singleton.mp hfile
    rfl
  · decide +kernel

/-- The first call renames its new file and fails to sync the directory. The second one finds the
entry disabled and returns. -/
def unsyncedEvents : List (Event 2) :=
  calling 0 1 10 ++ calling 0 2 10 ++ [.exec 0 { fault := true }] ++ calling 0 2 3 ++ calling 1 3 6

/-- A crash brings the old file back, with the entry enabled. -/
theorem enabled_after_crash :
  ∃ fleet, repeatedRun unsyncedEvents = some fleet ∧ (fleet.proc 1).succeeded = true ∧
    (fleet.volume.crash (fun _ => 1) (fun _ => [])).text (.file .config) =
      some (sampleText true true) ∧
    ¬ Disabled sampleCodec firstOrigin (sampleText true true)
  := by
  have hend : (repeatedRun unsyncedEvents).any (fun fleet => (fleet.proc 1).succeeded &&
      decide ((fleet.volume.crash (fun _ => 1) (fun _ => [])).text (.file .config) =
        some (sampleText true true))) = true := by
    decide +kernel
  obtain ⟨fleet, hrun, hboth⟩ := (Option.any_eq_true _ _).mp hend
  obtain ⟨hsecond, htext⟩ := (Bool.and_eq_true _ _).mp hboth
  refine ⟨fleet, hrun, hsecond, of_decide_eq_true htext, ?_⟩
  rintro ⟨item, hitem, hdisabled⟩
  have hentry : entry sampleCodec (sampleText true true) firstOrigin =
      some (sampleItem firstOrigin true) := by
    decide +kernel
  rw [← Option.some.inj (hentry.symm.trans hitem)] at hdisabled
  revert hdisabled
  decide +kernel

end DirectoryConfig
