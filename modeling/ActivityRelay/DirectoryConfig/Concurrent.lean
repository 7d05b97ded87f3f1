import ActivityRelay.DirectoryConfig.Invariant

/-!
# No edit is lost

Whatever calls edit the configuration file at the same time, a call that has returned success finds
its entry as it wanted it until the end of the run, and the entries that no call names are left as
they were.
-/

namespace DirectoryConfig

open GoString Interaction Posix

variable {n : ℕ} {U : CaseTable} {codec : Codec} {calls : Fin n → Call} {call : Call}
  {v₀ v' : Files} {φ φ' : Fin n → Phase} {fleet : Fleet n}

/-- The entry of an origin in the configuration file. -/
def entryOf (codec : Codec) (v : Files) (origin : GoString) : Option Node :=
  (v.text (.file .config)).bind (fun text => entry codec text origin)

/-- The configuration file is as a call wants it. -/
def SettledIn (codec : Codec) (v : Files) (call : Call) : Prop :=
  ∃ text, v.text (.file .config) = some text ∧ Settled codec call text

/-- The calls with an outcome have what they want, and the entries that no call names are those of
the files at the start. -/
structure NothingLost (codec : Codec) (calls : Fin n → Call) (v₀ : Files) (φ : Fin n → Phase)
    (v : Files) : Prop where
  settled : ∀ i, (φ i).undecided = false → SettledIn codec v (calls i)
  others : ∀ origin, (∀ i, (calls i).origin ≠ origin) →
    entryOf codec v origin = entryOf codec v₀ origin

/-- An entry that has been found disabled is as `DisableFile` wants it. -/
theorem FoundDisabled.settled {text : GoString} (h : FoundDisabled U codec call text) :
  Settled codec call text
  := by
  obtain ⟨haction, p, hp, hwas⟩ := h
  obtain ⟨item, hitem, hdisabled⟩ := disabled_of_prepare hp haction hwas
  rw [Settled, haction]
  intro item' hitem'
  rw [hitem] at hitem'
  rw [← Option.some.inj hitem']
  exact hdisabled

/-- What a call does to the text of the configuration file: it stays and no other call has an
outcome by it, or it is edited. -/
theorem Move.text_cases {c : Choice} {v v' : Files} {o : EditOp} {φ φ' : Phase}
    (h : Move U codec call c v v' o φ φ') :
  v'.text (.file .config) = v.text (.file .config) ∧
      (φ'.undecided = false → φ.undecided = false ∨ SettledIn codec v call) ∨
    ∃ text body, v.text (.file .config) = some text ∧ v'.text (.file .config) = some body ∧
      Edited U codec call text body
  := by
  cases h with
  | quiet same phases =>
    left
    refine ⟨same.text _, ?_⟩
    intro hdecided
    left
    rcases phases with rfl | rfl | hundecided
    · exact hdecided
    · cases φ <;> first | rfl | cases hdecided
    · rw [hundecided.undecided] at hdecided
      cases hdecided
  | found same text found _ _ =>
    left
    rw [same]
    exact ⟨rfl, fun _ => .inr ⟨_, text, found.settled⟩⟩
  | missed same text found _ | synced same =>
    left
    rw [same]
    exact ⟨rfl, nofun⟩
  | saved text _ installs =>
    left
    refine ⟨?_, nofun⟩
    rw [v'.text_eq_map, installs.fileAt_of_ne .config (nofun), v.text_eq_map]
  | @installed _ w body kept edited _ installs =>
    right
    refine ⟨w.original, body, kept.text, ?_, edited⟩
    rw [v'.text_eq_map, installs.fileAt]
    rfl
  | completed same =>
    left
    rw [same]
    exact ⟨rfl, fun _ => .inl rfl⟩

theorem SettledIn.of_text {v : Files} (h : SettledIn codec v call)
    (htext : v'.text (.file .config) = v.text (.file .config)) :
  SettledIn codec v' call
  := by
  rw [SettledIn, htext]
  exact h

/-- The step lemma. -/
theorem NothingLost.change (h : NothingLost codec calls v₀ φ fleet.volume) {event : Event n}
    (hcrash : event.isCrash = false) (hchange : Change U codec calls fleet φ v' event φ') :
  NothingLost codec calls v₀ φ' v'
  := by
  cases hchange with
  | exec i c o k ψ prog move =>
    rcases move.text_cases with ⟨htext, hdecided⟩ | ⟨text, body, htext, hbody, hedited⟩
    · refine ⟨?_, ?_⟩
      · rw [Function.forall_update_iff φ
          (fun j ψ => ψ.undecided = false → SettledIn codec v' (calls j))]
        constructor
        · intro hψ
          exact ((hdecided hψ).elim (h.settled i) id).of_text htext
        · intro j _ hj
          exact (h.settled j hj).of_text htext
      · intro origin horigin
        rw [entryOf, htext]
        exact h.others origin horigin
    · refine ⟨?_, ?_⟩
      · rw [Function.forall_update_iff φ
          (fun j ψ => ψ.undecided = false → SettledIn codec v' (calls j))]
        constructor
        · intro _
          exact ⟨body, hbody, hedited.settled⟩
        · intro j _ hj
          obtain ⟨text', htext', hsettled⟩ := h.settled j hj
          cases htext.symm.trans htext'
          exact ⟨body, hbody, hedited.settled_of_settled hsettled⟩
      · intro origin horigin
        rw [← h.others origin horigin, entryOf, entryOf, htext, hbody, Option.bind_some,
          Option.bind_some, hedited.entry_of_ne (horigin i).symm]
  | kill i e ended same =>
    subst same
    refine ⟨?_, h.others⟩
    rw [Function.forall_update_iff φ
      (fun j ψ => ψ.undecided = false → SettledIn codec fleet.volume (calls j))]
    constructor
    · intro he
      apply h.settled i
      cases e with
      | none => cases he
      | some e => rw [ended (Option.some_ne_none e)]; rfl
    · exact fun j _ => h.settled j
  | crash pick bodies e ended same => cases hcrash

/-- In every interleaving of calls of `DisableFile` and `RemoveFile`, with system calls that fail
and processes that are killed, but no crash of the system: for each call that has returned success
the entry is disabled or absent, or absent for `RemoveFile`, and the entries that no call names are
as they were at the start. -/
theorem edits_not_lost (events : List (Event n)) (hcrash : ∀ event ∈ events, event.isCrash = false)
    (hrun : Transition.run step (start U codec calls v₀) events = some fleet) :
  (∀ i, (fleet.proc i).succeeded = true → SettledIn codec fleet.volume (calls i)) ∧
    ∀ origin, (∀ i, (calls i).origin ≠ origin) →
      entryOf codec fleet.volume origin = entryOf codec v₀ origin
  := by
  obtain ⟨φ, hinv, hlost⟩ := run_keeps (J := NothingLost codec calls v₀)
    (C := fun _ event => event.isCrash = false)
    (fun _ _ _ _ _ _ hcrash h hchange => h.change hcrash hchange)
    ⟨nofun, fun _ _ => rfl⟩ (Transition.meets_of_forall_mem hcrash _) hrun
  refine ⟨?_, hlost.others⟩
  intro i hi
  obtain ⟨e, he⟩ := hinv.ended hi
  apply hlost.settled i
  rw [he]
  rfl

/-- The first entry is disabled and the second one removed by two processes. The second one waits
for the lock of a file that is replaced meanwhile. -/
def twoCalls (i : Fin 2) : Call :=
  if i = 0 then ⟨.disable, firstOrigin⟩ else ⟨.remove, secondOrigin⟩

def twoCallsEvents : List (Event 2) :=
  calling 0 0 1 ++ calling 1 0 1 ++ calling 0 1 9 ++ calling 0 2 14 ++ calling 1 3 19

def twoCallsRun : Option (Fleet 2) :=
  Transition.run step (start .identity sampleCodec twoCalls sampleFiles) twoCallsEvents

theorem edits_not_lost_stale_lock :
  ∃ fleet, twoCallsRun = some fleet ∧
    (fleet.proc 0).succeeded = true ∧ (fleet.proc 1).succeeded = true ∧
    SettledIn sampleCodec fleet.volume ⟨.disable, firstOrigin⟩ ∧
    SettledIn sampleCodec fleet.volume ⟨.remove, secondOrigin⟩
  := by
  have hend : twoCallsRun.any
      (fun fleet => (fleet.proc 0).succeeded && (fleet.proc 1).succeeded) = true := by
    decide +kernel
  obtain ⟨fleet, hrun, hboth⟩ := (Option.any_eq_true _ _).mp hend
  obtain ⟨hfirst, hsecond⟩ := (Bool.and_eq_true _ _).mp hboth
  have hsettled := (edits_not_lost twoCallsEvents (by decide +kernel) hrun).1
  exact ⟨fleet, hrun, hfirst, hsecond, hsettled 0 hfirst, hsettled 1 hsecond⟩

end DirectoryConfig
