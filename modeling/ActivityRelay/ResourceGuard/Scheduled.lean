import ActivityRelay.ResourceGuard.SummaryState
import ActivityRelay.Transition.Run

/-!
# Scheduled runs of the resource guard

A timer starts the resource guard again and again. Over all its runs, at times that never decrease,
each slot of a day is mailed at most once, and is not recorded both as sent and as skipped; and a
run that mails a summary settles all slots of the day that have come. A run may fail to deliver a
mail, and then the slot is due again in the next one.

What is recorded for a day is dropped after some time, but never for the last day of all. Runs of an
earlier day do not come any more, so the records of the last day are enough (`Accounted`).
-/

namespace ResourceGuard

open List PyString PyTime Transition

/-! ### Runs -/

/-- The date and the slot that a mail is the summary of. -/
def Mail.slot : Mail → Option (PyString × PyString)
  | .summary _ slot localDate => some (localDate, slot)
  | .storage _ _ _ | .summaryNow _ _ => none

/-- The files, and the dates and slots of the summaries that have been delivered. -/
structure System where
  files : Files
  mailed : List (PyString × PyString) := []

/-- A run that completes, or stops at a mail that is not delivered. -/
def step (u : Unicode) (s : System) (r : Run) : Option System :=
  let outcome := runLocked u r s.files
  match outcome.exit with
  | .raised => none
  | .code _ => some ⟨outcome.files, s.mailed ++ outcome.mails.filterMap Mail.slot⟩

/-- A run that the timer starts. -/
def Run.Scheduled (r : Run) : Prop := ∃ noMail, r.command = .scheduled noMail

/-- What is recorded for a date. -/
def Files.record (files : Files) (localDate : PyString) : DayRecord :=
  dayRecord (files.summarySlots.getD {}) localDate

/-! ### What a scheduled run does -/

variable {u : Unicode} {r : Run} {files : Files} {s s' : System}

theorem reportStorage_ok {noMail : Bool} {files' : Files} {mails : List Mail}
    (h : reportStorage u r noMail files = .ok (files', mails)) :
  files'.summarySlots = files.summarySlots ∧ files'.summaryDate = files.summaryDate ∧
    mails.filterMap Mail.slot = []
  := by
  unfold reportStorage at h
  by_cases hsame : r.overall.text = (files.state.map (strip u)).getD (lit "unknown")
  · rw [if_pos hsame] at h
    cases h
    exact ⟨rfl, rfl, rfl⟩
  · rw [if_neg hsame] at h
    split at h
    · cases h
    · split_ifs at h
      · cases h
        exact ⟨rfl, rfl, rfl⟩
      · cases h
        exact ⟨rfl, rfl, rfl⟩

/-- The outcome is that of a run that mails no summary of a slot. -/
def Outcome.Idle (outcome : Outcome) (files : Files) : Prop :=
  outcome.files = files ∧ outcome.mails = []

/-- The outcome is that of a run that mails the summary of the slot that is due. -/
structure Outcome.Sends (outcome : Outcome) (u : Unicode) (r : Run) (slots : List PyString)
    (files : Files) (state : SummaryState) (slot : PyString) (skipped : List PyString) : Prop where
  due : dueSlot u slots r.now (dayRecord state r.localDate) = .ok (some slot, skipped)
  recorded : outcome.files = files.save r (state.withRecord r.localDate
    ((dayRecord state r.localDate).processed r slot skipped))
  mailed : ∃ recipient, outcome.mails = [.summary recipient slot r.localDate]

/-- A run sends nothing, or the summary of one slot. -/
theorem sendDueSlot_cases (u : Unicode) (r : Run) (noMail : Bool) (slots : List PyString)
    (files : Files) (state : SummaryState) :
  (sendDueSlot u r noMail slots files state).Idle files ∨
    ∃ slot skipped,
      (sendDueSlot u r noMail slots files state).Sends u r slots files state slot skipped
  := by
  unfold sendDueSlot
  dsimp only
  split
  · exact .inl ⟨rfl, rfl⟩
  · exact .inl ⟨rfl, rfl⟩
  · rename_i slot skipped hdue
    split_ifs with hmail
    · exact .inl ⟨rfl, rfl⟩
    · split
      · exact .inl ⟨rfl, rfl⟩
      · rename_i recipient hrecipient
        split_ifs with hdelivers
        · exact .inr ⟨slot, skipped, hdue, rfl, recipient, rfl⟩
        · exact .inl ⟨rfl, rfl⟩

theorem sendScheduledSummary_cases (u : Unicode) (r : Run) (noMail : Bool)
    (hlegacy : files.summaryDate = none) (state : SummaryState) :
  (sendScheduledSummary u r noMail files state).Idle files ∨
    ∃ slots legacyUsed slot skipped, parseSummaryTimes u r.config = .ok (slots, legacyUsed) ∧
      (sendScheduledSummary u r noMail files state).Sends u r slots files state slot skipped
  := by
  unfold sendScheduledSummary
  split
  · exact .inl ⟨rfl, rfl⟩
  · split_ifs with henabled
    · exact .inl ⟨rfl, rfl⟩
    · split
      · exact .inl ⟨rfl, rfl⟩
      · rename_i slots legacyUsed hslots
        have hmigrate : migrateLegacySummaryDate u r slots legacyUsed files state =
            (files, state, false) := by
          rw [migrateLegacySummaryDate, hlegacy]
        rw [hmigrate]
        rcases sendDueSlot_cases u r noMail slots files state with h | ⟨slot, skipped, h⟩
        · exact .inl h
        · exact .inr ⟨slots, legacyUsed, slot, skipped, hslots, h⟩

/-- The run mails the summary of a slot, and records it with the slots that it skips. -/
structure Sends (u : Unicode) (r : Run) (s s' : System) (slots : List PyString) (slot : PyString)
    (skipped : List PyString) : Prop where
  configured : ∃ legacyUsed, parseSummaryTimes u r.config = .ok (slots, legacyUsed)
  due : dueSlot u slots r.now (s.files.record r.localDate) = .ok (some slot, skipped)
  recorded : s'.files.summarySlots = some (pruneSummaryState
    ((s.files.summarySlots.getD {}).withRecord r.localDate
      ((s.files.record r.localDate).processed r slot skipped)))
  mailed : s'.mailed = s.mailed ++ [(r.localDate, slot)]

theorem step_eq_some (h : step u s r = some s') :
  s' = ⟨(runLocked u r s.files).files,
    s.mailed ++ (runLocked u r s.files).mails.filterMap Mail.slot⟩
  := by
  unfold step at h
  dsimp only at h
  split at h
  · cases h
  · cases h
    rfl

/-- A scheduled run leaves the records as they are and mails no summary of a slot, or it mails one
and records it. -/
theorem step_cases (hscheduled : r.Scheduled) (hlegacy : s.files.summaryDate = none)
    (h : step u s r = some s') :
  s'.files.summaryDate = none ∧
    ((s'.files.summarySlots = s.files.summarySlots ∧ s'.mailed = s.mailed) ∨
      ∃ slots slot skipped, Sends u r s s' slots slot skipped)
  := by
  obtain ⟨noMail, hcommand⟩ := hscheduled
  obtain rfl := step_eq_some h
  rw [runLocked, hcommand]
  dsimp only
  split_ifs with hsettings
  · split
    · simp [hlegacy]
    · rename_i files mails hreport
      obtain ⟨hslots, hdate, hmails⟩ := reportStorage_ok hreport
      rw [hlegacy] at hdate
      rcases sendScheduledSummary_cases u r noMail hdate (s.files.summarySlots.getD {}) with
        ⟨hfiles, hnone⟩ | ⟨slots, legacyUsed, slot, skipped, hparse, hsends⟩
      · simp [hfiles, hnone, hmails, hslots, hdate]
      · obtain ⟨recipient, hmailed⟩ := hsends.mailed
        refine ⟨?_, .inr ⟨slots, slot, skipped, ⟨legacyUsed, hparse⟩, hsends.due, ?_, ?_⟩⟩
        · rw [hsends.recorded]
          exact hdate
        · rw [hsends.recorded]
          rfl
        · rw [hmailed, filterMap_append, hmails]
          rfl
  · simp [hlegacy]

/-! ### What holds after all runs -/

/-- What holds on a date after scheduled runs: no day after it is recorded, no slot is recorded
twice, and the slots of the date that were mailed are recorded as sent. -/
structure Accounted (d : Date) (s : System) : Prop where
  noLegacy : s.files.summaryDate = none
  days_le : ∀ key ∈ (s.files.summarySlots.getD {}).days, key ≤ d.isoformat
  disjoint : ∀ localDate slot, slot ∈ (s.files.record localDate).sentSlots →
    slot ∉ (s.files.record localDate).skippedSlots
  nodup : s.mailed.Nodup
  mailed_le : ∀ m ∈ s.mailed, m.1 ≤ d.isoformat
  mailed_sent : ∀ slot, (d.isoformat, slot) ∈ s.mailed →
    slot ∈ (s.files.record d.isoformat).sentSlots

theorem accounted_start (hslots : files.summarySlots = none) (hlegacy : files.summaryDate = none)
    (d : Date) :
  Accounted d { files }
  := by
  have hrecord : ∀ localDate, files.record localDate = {} := by
    intro localDate
    rw [Files.record, hslots]
    rfl
  constructor
  case noLegacy => exact hlegacy
  case days_le =>
    intro key hkey
    rw [hslots] at hkey
    exact absurd hkey (AList.notMem_empty key)
  case disjoint =>
    intro localDate slot hslot
    rw [hrecord] at hslot
    exact absurd hslot (AList.notMem_empty slot)
  case nodup => exact nodup_nil
  case mailed_le => simp
  case mailed_sent => simp

/-- On a later date, nothing was mailed yet. -/
theorem Accounted.later {d d' : Date} (hle : d ≤ d') (h : Accounted d s) :
  Accounted d' s
  := by
  have htext := Date.isoformat_le_iff.mpr hle
  constructor
  case noLegacy => exact h.noLegacy
  case days_le => exact fun key hkey => (h.days_le key hkey).trans htext
  case disjoint => exact h.disjoint
  case nodup => exact h.nodup
  case mailed_le => exact fun m hm => (h.mailed_le m hm).trans htext
  case mailed_sent =>
    intro slot hmailed
    have hback : d'.isoformat ≤ d.isoformat := h.mailed_le _ hmailed
    obtain rfl := le_antisymm hle (Date.isoformat_le_iff.mp hback)
    exact h.mailed_sent slot hmailed

section Sends

variable {u : Unicode} {r : Run} {s s' : System} {slots : List PyString} {slot : PyString}
    {skipped : List PyString}

variable (h : Sends u r s s' slots slot skipped)
include h

/-- The slot that is sent and those that are skipped are the ones that have come and that were not
recorded. -/
theorem Sends.due_iff :
  slot ∉ skipped ∧
    ∀ other, other = slot ∨ other ∈ skipped ↔
      other ∈ slots ∧ NotLater other r.now ∧ ¬ (s.files.record r.localDate).Records other
  := by
  obtain ⟨legacyUsed, hslots⟩ := h.configured
  obtain ⟨hslot, hnodup, -⟩ := parseSummaryTimes_ok hslots
  exact dueSlot_ok hslot hnodup h.due

theorem Sends.getD_eq :
  s'.files.summarySlots.getD {} = pruneSummaryState
    ((s.files.summarySlots.getD {}).withRecord r.localDate
      ((s.files.record r.localDate).processed r slot skipped))
  := by
  rw [h.recorded]
  rfl

/-- No day is added but the one of the run. -/
theorem Sends.days_le
    (hdays : ∀ key ∈ (s.files.summarySlots.getD {}).days, key ≤ r.localDate) :
  ∀ key ∈ (s'.files.summarySlots.getD {}).days, key ≤ r.localDate
  := by
  intro key hkey
  rw [h.getD_eq] at hkey
  rcases mem_days_withRecord.mp (mem_days_of_pruned hkey) with rfl | hkey
  · exact le_rfl
  · exact hdays key hkey

/-- The record of the day of the run is kept. -/
theorem Sends.record_eq
    (hdays : ∀ key ∈ (s.files.summarySlots.getD {}).days, key ≤ r.localDate) :
  s'.files.record r.localDate = (s.files.record r.localDate).processed r slot skipped
  := by
  rw [Files.record, h.getD_eq, dayRecord_pruneSummaryState_latest, dayRecord_withRecord]
  · exact mem_days_withRecord.mpr (.inl rfl)
  · intro key hkey
    rcases mem_days_withRecord.mp hkey with rfl | hkey
    · exact le_rfl
    · exact hdays key hkey

/-- The records of other days are as they were, or dropped. -/
theorem Sends.record_of_ne {localDate : PyString}
    (hne : localDate ≠ r.localDate) :
  s'.files.record localDate = s.files.record localDate ∨ s'.files.record localDate = {}
  := by
  have hbefore : s.files.record localDate = _ :=
    (dayRecord_withRecord_of_ne (s.files.summarySlots.getD {}) hne
      ((s.files.record r.localDate).processed r slot skipped)).symm
  rw [hbefore, Files.record, h.getD_eq]
  apply dayRecord_pruneSummaryState

theorem Sends.mem_sentSlots_iff
    (hdays : ∀ key ∈ (s.files.summarySlots.getD {}).days, key ≤ r.localDate) (other : PyString) :
  other ∈ (s'.files.record r.localDate).sentSlots ↔
    other = slot ∨ other ∈ (s.files.record r.localDate).sentSlots
  := by
  rw [h.record_eq hdays, mem_sentSlots_processed]

theorem Sends.mem_skippedSlots_iff
    (hdays : ∀ key ∈ (s.files.summarySlots.getD {}).days, key ≤ r.localDate) (other : PyString) :
  other ∈ (s'.files.record r.localDate).skippedSlots ↔
    other ∈ skipped ∨ other ∈ (s.files.record r.localDate).skippedSlots
  := by
  rw [h.record_eq hdays, mem_skippedSlots_processed]

/-- A run that mails a summary settles the slots that have come. -/
theorem Sends.records_of_notLater
    (hdays : ∀ key ∈ (s.files.summarySlots.getD {}).days, key ≤ r.localDate) {other : PyString}
    (hother : other ∈ slots) (hlater : NotLater other r.now) :
  (s'.files.record r.localDate).Records other
  := by
  rw [DayRecord.Records, h.mem_sentSlots_iff hdays, h.mem_skippedSlots_iff hdays]
  by_cases hrecords : (s.files.record r.localDate).Records other
  · rcases hrecords with hsent | hskipped
    · exact .inl (.inr hsent)
    · exact .inr (.inr hskipped)
  · rcases (h.due_iff.2 other).mpr ⟨hother, hlater, hrecords⟩ with heq | hskipped
    · exact .inl (.inl heq)
    · exact .inr (.inl hskipped)

/-- No slot of the day is both sent and skipped. -/
theorem Sends.disjoint
    (hdays : ∀ key ∈ (s.files.summarySlots.getD {}).days, key ≤ r.localDate)
    (hdisjoint : ∀ localDate slot, slot ∈ (s.files.record localDate).sentSlots →
      slot ∉ (s.files.record localDate).skippedSlots) (localDate other : PyString)
    (hsent : other ∈ (s'.files.record localDate).sentSlots) :
  other ∉ (s'.files.record localDate).skippedSlots
  := by
  obtain ⟨hslot, hdue⟩ := h.due_iff
  by_cases hdate : localDate = r.localDate
  · subst hdate
    rw [h.mem_sentSlots_iff hdays] at hsent
    rw [h.mem_skippedSlots_iff hdays, not_or]
    rcases hsent with rfl | hsent
    · obtain ⟨-, -, hnew⟩ := (hdue other).mp (.inl rfl)
      exact ⟨hslot, fun hskipped => hnew (.inr hskipped)⟩
    · constructor
      · intro hskipped
        obtain ⟨-, -, hnew⟩ := (hdue other).mp (.inr hskipped)
        exact hnew (.inl hsent)
      · exact hdisjoint r.localDate other hsent
  · rcases h.record_of_ne hdate with hrecord | hrecord
    · rw [hrecord] at hsent ⊢
      exact hdisjoint localDate other hsent
    · rw [hrecord]
      exact AList.notMem_empty other

end Sends

/-- A run that leaves the records as they are, and mails no summary of a slot. -/
theorem Accounted.idle {d : Date} (h : Accounted d s) (hlegacy : s'.files.summaryDate = none)
    (hslots : s'.files.summarySlots = s.files.summarySlots) (hmailed : s'.mailed = s.mailed) :
  Accounted d s'
  := by
  have hrecord : ∀ localDate, s'.files.record localDate = s.files.record localDate := by
    intro localDate
    rw [Files.record, hslots, Files.record]
  constructor
  case noLegacy => exact hlegacy
  case days_le =>
    rw [hslots]
    exact h.days_le
  case disjoint =>
    intro localDate slot
    rw [hrecord]
    exact h.disjoint localDate slot
  case nodup =>
    rw [hmailed]
    exact h.nodup
  case mailed_le =>
    rw [hmailed]
    exact h.mailed_le
  case mailed_sent =>
    intro slot
    rw [hmailed, hrecord]
    exact h.mailed_sent slot

/-- A run that mails the summary of a slot. Had it been mailed before, then on the same day, and it
would be recorded as sent and not be due. -/
theorem Accounted.sends {slots : List PyString} {slot : PyString} {skipped : List PyString}
    (h : Accounted r.now.date s) (hlegacy : s'.files.summaryDate = none)
    (hsends : Sends u r s s' slots slot skipped) :
  Accounted r.now.date s'
  := by
  obtain ⟨-, -, hnew⟩ := (hsends.due_iff.2 slot).mp (.inl rfl)
  constructor
  case noLegacy => exact hlegacy
  case days_le => exact hsends.days_le h.days_le
  case disjoint => exact hsends.disjoint h.days_le h.disjoint
  case nodup =>
    rw [hsends.mailed, ← concat_eq_append, nodup_concat]
    refine ⟨?_, h.nodup⟩
    intro hmailed
    exact hnew (.inl (h.mailed_sent slot hmailed))
  case mailed_le =>
    intro m hm
    rw [hsends.mailed, mem_append, mem_singleton] at hm
    rcases hm with hm | rfl
    · exact h.mailed_le m hm
    · exact le_rfl
  case mailed_sent =>
    intro other hother
    rw [hsends.mailed, mem_append, mem_singleton] at hother
    apply (hsends.mem_sentSlots_iff h.days_le other).mpr
    rcases hother with hother | hother
    · exact .inr (h.mailed_sent other hother)
    · exact .inl (Prod.mk.inj hother).2

/-- One run. -/
theorem Accounted.step (hscheduled : r.Scheduled) (h : Accounted r.now.date s)
    (hstep : step u s r = some s') :
  Accounted r.now.date s'
  := by
  obtain ⟨hlegacy, ⟨hslots, hmailed⟩ | ⟨slots, slot, skipped, hsends⟩⟩ :=
    step_cases hscheduled h.noLegacy hstep
  · exact h.idle hlegacy hslots hmailed
  · exact h.sends hlegacy hsends

/-- All runs, at a date that none of them is after. -/
theorem accounted_run (hslots : files.summarySlots = none) (hlegacy : files.summaryDate = none)
    {runs : List Run} (hscheduled : ∀ r ∈ runs, r.Scheduled)
    (htimes : runs.Pairwise (fun r r' => r.now.NotAfter r'.now))
    (hrun : run (step u) { files } runs = some s) {d : Date} (hd : ∀ r ∈ runs, r.now.date ≤ d) :
  Accounted d s
  := by
  have hdates : runs.Pairwise (fun r r' => r.now.date ≤ r'.now.date) :=
    htimes.imp (fun h => h.date_le)
  exact run_invariant_of_times (fun _ _ _ hle h => h.later hle)
    (fun _ _ _ hscheduled h hstep => h.step hscheduled hstep) (accounted_start hslots hlegacy)
    hscheduled hdates hrun hd

/-- The slots that are configured. -/
def Run.slots (u : Unicode) (r : Run) : List PyString :=
  match parseSummaryTimes u r.config with
  | .ok (slots, _) => slots
  | .error _ => []

/-- Over scheduled runs at times that never decrease, each slot of a date is mailed at most once,
no slot of a date is ever recorded both as sent and as skipped, and after a run that mails a summary
all slots of the date that have come are recorded. -/
theorem scheduled_runs {u : Unicode} {files : Files} (hslots : files.summarySlots = none)
    (hlegacy : files.summaryDate = none) {runs : List Run} (hscheduled : ∀ r ∈ runs, r.Scheduled)
    (htimes : runs.Pairwise (fun r r' => r.now.NotAfter r'.now)) {t : System}
    (hrun : run (step u) { files } runs = some t) :
  t.mailed.Nodup ∧
    ∀ before r after s s', runs = before ++ r :: after →
      run (step u) { files } before = some s → step u s r = some s' →
      (∀ localDate slot, slot ∈ (s'.files.record localDate).sentSlots →
        slot ∉ (s'.files.record localDate).skippedSlots) ∧
      (s'.mailed ≠ s.mailed → ∀ slot ∈ r.slots u, NotLater slot r.now →
        (s'.files.record r.localDate).Records slot)
  := by
  constructor
  · exact (accounted_run hslots hlegacy hscheduled htimes hrun (fun r _ => r.now.date.le_max)).nodup
  · rintro before r after s s' rfl hbefore hstep
    rw [forall_mem_append, forall_mem_cons] at hscheduled
    rw [pairwise_append] at htimes
    obtain ⟨hprevious, hr, -⟩ := hscheduled
    have hdates : ∀ r' ∈ before, r'.now.date ≤ r.now.date := by
      intro r' hr'
      exact (htimes.2.2 r' hr' r mem_cons_self).date_le
    have hs : Accounted r.now.date s :=
      accounted_run hslots hlegacy hprevious htimes.1 hbefore hdates
    refine ⟨(hs.step hr hstep).disjoint, ?_⟩
    intro hmails slot hslot hlater
    obtain ⟨-, ⟨-, hmailed⟩ | ⟨slots, sent, skipped, hsends⟩⟩ := step_cases hr hs.noLegacy hstep
    · exact absurd hmailed hmails
    · obtain ⟨legacyUsed, hconfigured⟩ := hsends.configured
      rw [Run.slots, hconfigured] at hslot
      exact hsends.records_of_notLater hs.days_le hslot hlater

/-! ### A day -/

/-- A run on a day with four slots. -/
def timerRun (hour minute : ℕ) (delivers : Bool) : Run where
  command := .scheduled false
  config := List.toAList
    [⟨lit "DAILY_SUMMARY_EMAIL", .text (lit "true")⟩,
      ⟨lit "DAILY_SUMMARY_TIMES", .text (lit "20:00, 08:00, 14:30, 12:00, 08:00")⟩]
  now :=
    { date := ⟨2026, 7, 27, by decide, by decide, by decide⟩
      hour := hour
      minute := minute
      second := 0
      microsecond := 0
      offset := lit "-04:00" }
  stateDir := lit "/var/lib/activity-relay-guard"
  settings := true
  confirmed := false
  overall := .ok
  delivers _ := delivers
  domains := none
  archive label := lit "/var/lib/activity-relay-guard/summaries/" ++ label

/-- In the afternoon a mail is not delivered, and in the evening another one. -/
def timerRuns : List Run :=
  [timerRun 15 0 false, timerRun 15 5 true, timerRun 15 10 true, timerRun 20 0 false,
    timerRun 20 5 true]

/-- The summaries of the afternoon and of the evening are sent once each. The first of them settles
the slot of the morning. -/
theorem scheduled_runs_timerRuns :
  ∃ s s' t,
    run (step Unicode.ascii) { files := {} } [timerRun 15 0 false] = some s ∧
    step Unicode.ascii s (timerRun 15 5 true) = some s' ∧
    run (step Unicode.ascii) { files := {} } timerRuns = some t ∧
    t.mailed = [(lit "2026-07-27", lit "14:30"), (lit "2026-07-27", lit "20:00")] ∧
    t.mailed.Nodup ∧
    (s'.files.record (lit "2026-07-27")).Records (lit "08:00")
  := by
  have hscheduled : ∀ r ∈ timerRuns, r.Scheduled := by
    simp only [timerRuns, forall_mem_cons, not_mem_nil, false_implies, implies_true,
      and_true]
    exact ⟨⟨false, rfl⟩, ⟨false, rfl⟩, ⟨false, rfl⟩, ⟨false, rfl⟩, ⟨false, rfl⟩⟩
  have htimes : timerRuns.Pairwise (fun r r' => r.now.NotAfter r'.now) := by
    decide +kernel
  have hfinal : (run (step Unicode.ascii) { files := {} } timerRuns).map System.mailed =
      some [(lit "2026-07-27", lit "14:30"), (lit "2026-07-27", lit "20:00")] := by
    decide +kernel
  obtain ⟨t, hrun, hmailed⟩ := Option.map_eq_some_iff.mp hfinal
  have hfirst : (run (step Unicode.ascii) { files := {} } [timerRun 15 0 false]).map
      System.mailed = some [] := by
    decide +kernel
  obtain ⟨s, hs, hnothing⟩ := Option.map_eq_some_iff.mp hfirst
  have hsecond : (run (step Unicode.ascii) { files := {} }
      ([timerRun 15 0 false] ++ [timerRun 15 5 true])).map System.mailed =
      some [(lit "2026-07-27", lit "14:30")] := by
    decide +kernel
  rw [run_append, hs] at hsecond
  obtain ⟨s', hs', hsent⟩ := Option.map_eq_some_iff.mp hsecond
  obtain ⟨s'', hstep, heq⟩ := run_cons_eq_some.mp hs'
  cases heq
  obtain ⟨hnodup, hsteps⟩ := scheduled_runs rfl rfl hscheduled htimes hrun
  have hsettled := (hsteps [timerRun 15 0 false] (timerRun 15 5 true) _ s _ rfl hs hstep).2
  refine ⟨s, _, t, hs, hstep, hrun, hmailed, hnodup, hsettled ?_ (lit "08:00") ?_ ?_⟩
  · rw [hsent, hnothing]
    exact cons_ne_nil _ _
  · decide +kernel
  · exact (notLater_slotText_iff (by decide : 8 < 24) (by decide : 0 < 60) _).mpr (by decide)

end ResourceGuard
