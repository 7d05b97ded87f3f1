import ActivityRelay.ResourceGuard.SummaryTimes

/-!
# Runs of the resource guard

A run of the resource guard reports a change of the state of the storage, and then sends the summary
of the slot that is due. What has become of the slots of a day is kept in a file: the slots that
were sent, and those that were skipped because a later one was sent first. Only the last days are
kept. A run that cannot deliver a mail stops, and nothing is recorded for the slot.

A run reads the clock, the configuration and the state of the storage, and whether a mail is
delivered does not depend on it; these are given with the run (`Run`). The other inputs are the
files of the state directory (`Files`).
-/

namespace ResourceGuard

open List PyString PyTime

/-! ### The recorded slots -/

/-- What is recorded for a slot that was sent, by the guard or, as far as it can be known, by an
earlier version of it. -/
inductive SentEntry
  | summary (processedAt archive : PyString)
  | legacySummaryDate (processedAt : PyString)
  deriving DecidableEq

structure SkippedEntry where
  skippedAt : PyString
  caughtUpBy : PyString
  reason : PyString
  deriving DecidableEq

structure Migration where
  migratedAt : PyString
  source : PyString
  mappedToSlot : Option PyString
  archivedAs : PyString
  deriving DecidableEq

structure DayRecord where
  sentSlots : Dict SentEntry := ∅
  skippedSlots : Dict SkippedEntry := ∅
  legacySummaryDate : Option Migration := none

structure ManualEntry where
  processedAt : PyString
  archive : PyString
  deriving DecidableEq

structure SummaryState where
  days : Dict DayRecord := ∅
  manualSummaries : List ManualEntry := []

/-- `day_record`. -/
def dayRecord (state : SummaryState) (localDate : PyString) : DayRecord :=
  (state.days.lookup localDate).getD {}

/-- The state after changes of the record that `day_record` returns. -/
def SummaryState.withRecord (state : SummaryState) (localDate : PyString) (record : DayRecord) :
    SummaryState :=
  { state with days := state.days.insert localDate record }

def summaryStateRetentionDays : ℕ := 31

/-- `prune_summary_state`. -/
def pruneSummaryState (state : SummaryState) : SummaryState where
  days := (withoutLast summaryStateRetentionDays (sorted state.days.keys)).foldl
    (fun days dateKey => days.erase dateKey) state.days
  manualSummaries := state.manualSummaries.drop (state.manualSummaries.length - 100)

/-- The slots that have come and that are not recorded. -/
def dueSlots (u : Unicode) (now : Datetime) (record : DayRecord) :
    List PyString → Except ConfigError (List PyString)
  | [] => .ok []
  | slot :: slots => do
      let (hour, minute, canonical) ← parseSummaryTime u slot
      let due ← dueSlots u now record slots
      if hour * 60 + minute ≤ now.minuteOfDay then
        if canonical ∉ record.sentSlots ∧ canonical ∉ record.skippedSlots then
          return canonical :: due
        else return due
      else return due

variable (u : Unicode)

/-- `due_slot`: the slot to be sent, and those to be skipped. -/
def dueSlot (slots : List PyString) (now : Datetime) (record : DayRecord) :
    Except ConfigError (Option PyString × List PyString) :=
  (dueSlots u now record slots).map (fun due => (due.getLast?, due.dropLast))

/-! ### Files and mails -/

/-- The state of the storage. -/
inductive Level
  | ok
  | warning
  | critical
  deriving DecidableEq

def Level.text : Level → PyString
  | .ok => lit "ok"
  | .warning => lit "warning"
  | .critical => lit "critical"

def Level.rank : Level → ℕ
  | .ok => 0
  | .warning => 1
  | .critical => 2

/-- The files of the state directory: `summary-slots.json`, `state`, `summary-domains.json`,
`summary-date` of earlier versions, and whether there is a file `summary-date.migrated`. -/
structure Files where
  summarySlots : Option SummaryState := none
  state : Option PyString := none
  summaryDomains : Option (List PyString) := none
  summaryDate : Option PyString := none
  migrated : Bool := false

inductive Mail
  | storage (recipient previous : PyString) (overall : Level)
  | summary (recipient slot localDate : PyString)
  | summaryNow (recipient localDate : PyString)
  deriving DecidableEq

inductive Command
  | scheduled (noMail : Bool)
  | sendSummaryNow
  | previewSummary
  | showSummaryState
  | resetSummarySlot (value : PyString)
  | resetSummaryState
  deriving DecidableEq

/-- A run, with what it reads from outside the state directory: whether the mail settings and the
thresholds are valid, whether a reset is confirmed, the state of the storage, which mails are
delivered, the servers that are connected, if they are known, and the paths of archived
summaries. -/
structure Run where
  command : Command
  config : Config
  now : Datetime
  stateDir : PyString
  settings : Bool
  confirmed : Bool
  overall : Level
  delivers : Mail → Bool
  domains : Option (List PyString)
  archive : PyString → PyString

variable (r : Run)

def Run.localDate : PyString := r.now.date.isoformat

/-- How a run ends: with an exit code, or with an exception other than `MailDeliveryError`. -/
inductive Exit
  | code (n : ℕ)
  | raised
  deriving DecidableEq

/-- The files after a run, the mails that were delivered, and how the run ends. -/
structure Outcome where
  files : Files
  mails : List Mail
  exit : Exit

/-! ### Parts of a run -/

/-- The recipient of mails. -/
def recipient : Except ConfigError PyString := do
  let value ← configScalar r.config (lit "ADMIN_EMAIL") (lit "root")
  return if strip u value = [] then lit "root" else strip u value

/-- The report of a changed state of the storage: the files after it and the mails, or the end of
the run. -/
def reportStorage (noMail : Bool) (files : Files) :
    Except Exit (Files × List Mail) :=
  let previous := (files.state.map (strip u)).getD (lit "unknown")
  let reported := { files with state := some (r.overall.text ++ lit "\n") }
  if r.overall.text = previous then .ok (files, [])
  else
    match recipient u r with
    | .error _ => .error .raised
    | .ok recipient =>
        if noMail then .ok (reported, [])
        else if r.delivers (.storage recipient previous r.overall) then
          .ok (reported, [.storage recipient previous r.overall])
        else .error (.code 3)

/-- `migrate_legacy_summary_date`: the files and the state after it, and whether there was
something to migrate. -/
def migrateLegacySummaryDate (slots : List PyString) (legacyUsed : Bool)
    (files : Files) (state : SummaryState) : Files × SummaryState × Bool :=
  match files.summaryDate with
  | none => (files, state, false)
  | some text =>
      let legacyDate := strip u text
      if legacyDate = [] then ({ files with summaryDate := none }, state, true)
      else
        let record := dayRecord state legacyDate
        let slot := slots.headD []
        let mapped := legacyUsed && decide (legacyDate = r.localDate)
        let sentSlots :=
          if mapped ∧ slot ∉ record.sentSlots then
            record.sentSlots.insert slot (.legacySummaryDate r.now.isoformat)
          else record.sentSlots
        let source := r.stateDir ++ lit "/summary-date"
        let destination :=
          if files.migrated then
            source ++ lit ".migrated." ++ padded 4 r.now.date.year ++ padded 2 r.now.date.month ++
              padded 2 r.now.date.day ++ padded 2 r.now.hour ++ padded 2 r.now.minute ++
              padded 2 r.now.second
          else source ++ lit ".migrated"
        let migration : Migration :=
          { migratedAt := (record.legacySummaryDate.map Migration.migratedAt).getD r.now.isoformat
            source := (record.legacySummaryDate.map Migration.source).getD source
            mappedToSlot := if mapped then some slot else none
            archivedAs := destination }
        let record :=
          { record with sentSlots := sentSlots, legacySummaryDate := some migration }
        ({ files with summaryDate := none, migrated := true }, state.withRecord legacyDate record,
          true)

/-- The record after a slot was sent and others were skipped. -/
def DayRecord.processed (record : DayRecord) (r : Run) (slot : PyString) (skipped : List PyString) :
    DayRecord where
  sentSlots := record.sentSlots.insert slot (.summary r.now.isoformat (r.archive slot))
  skippedSlots := skipped.foldl
    (fun entries other => entries.insert other
      { skippedAt := r.now.isoformat
        caughtUpBy := slot
        reason := lit "a later scheduled slot was processed first" })
    record.skippedSlots
  legacySummaryDate := record.legacySummaryDate

/-- The files after a summary was sent. -/
def Files.save (files : Files) (r : Run) (state : SummaryState) : Files :=
  { files with
    summarySlots := some (pruneSummaryState state)
    summaryDomains := r.domains <|> files.summaryDomains }

/-- The summary of the slot that is due, if there is one. -/
def sendDueSlot (noMail : Bool) (slots : List PyString) (files : Files)
    (state : SummaryState) : Outcome :=
  let record := dayRecord state r.localDate
  match dueSlot u slots r.now record with
  | .error _ => ⟨files, [], .raised⟩
  | .ok (none, _) => ⟨files, [], .code r.overall.rank⟩
  | .ok (some slot, skipped) =>
      if noMail then ⟨files, [], .code r.overall.rank⟩
      else
        match recipient u r with
        | .error _ => ⟨files, [], .raised⟩
        | .ok recipient =>
            if r.delivers (.summary recipient slot r.localDate) then
              ⟨files.save r (state.withRecord r.localDate (record.processed r slot skipped)),
                [.summary recipient slot r.localDate], .code r.overall.rank⟩
            else ⟨files, [], .code 3⟩

/-- The part of a scheduled run after the report on the storage. -/
def sendScheduledSummary (noMail : Bool) (files : Files)
    (state : SummaryState) : Outcome :=
  match configScalar r.config (lit "DAILY_SUMMARY_EMAIL") (lit "false") with
  | .error _ => ⟨files, [], .raised⟩
  | .ok value =>
      if configuredBool u value = false then ⟨files, [], .code r.overall.rank⟩
      else
        match parseSummaryTimes u r.config with
        | .error _ => ⟨files, [], .raised⟩
        | .ok (slots, legacyUsed) =>
            match migrateLegacySummaryDate u r slots legacyUsed files state with
            | (files, state, false) => sendDueSlot u r noMail slots files state
            | (files, state, true) =>
                let state := pruneSummaryState state
                sendDueSlot u r noMail slots { files with summarySlots := some state } state

/-- A summary that does not belong to a slot. -/
def sendManualSummary (files : Files) (state : SummaryState) : Outcome :=
  match recipient u r with
  | .error _ => ⟨files, [], .raised⟩
  | .ok recipient =>
      if r.delivers (.summaryNow recipient r.localDate) then
        let label := lit "manual-" ++ padded 2 r.now.hour ++ padded 2 r.now.minute ++
          padded 2 r.now.second
        let entry : ManualEntry := { processedAt := r.now.isoformat, archive := r.archive label }
        ⟨files.save r { state with manualSummaries := state.manualSummaries ++ [entry] },
          [.summaryNow recipient r.localDate], .code r.overall.rank⟩
      else ⟨files, [], .code 3⟩

/-- The state after a reset of one slot. -/
def resetSlot (state : SummaryState) (localDate slot : PyString) : SummaryState :=
  let record := dayRecord state localDate
  state.withRecord localDate
    { record with
      sentSlots := record.sentSlots.erase slot
      skippedSlots := record.skippedSlots.erase slot }

/-- `run_locked`. -/
def runLocked (files : Files) : Outcome :=
  let state := files.summarySlots.getD {}
  match r.command with
  | .showSummaryState => ⟨files, [], .code 0⟩
  | .resetSummarySlot value =>
      match parseSummaryTime u value with
      | .error _ => ⟨files, [], .raised⟩
      | .ok (_, _, slot) =>
          if r.confirmed then
            let state := pruneSummaryState (resetSlot state r.localDate slot)
            ⟨{ files with summarySlots := some state }, [], .code 0⟩
          else ⟨files, [], .raised⟩
  | .resetSummaryState =>
      if r.confirmed then
        let state := pruneSummaryState { state with days := state.days.erase r.localDate }
        ⟨{ files with summarySlots := some state }, [], .code 0⟩
      else ⟨files, [], .raised⟩
  | .previewSummary =>
      if r.settings then ⟨files, [], .code r.overall.rank⟩ else ⟨files, [], .raised⟩
  | .sendSummaryNow =>
      if r.settings then sendManualSummary u r files state else ⟨files, [], .raised⟩
  | .scheduled noMail =>
      if r.settings then
        match reportStorage u r noMail files with
        | .error exit => ⟨files, [], exit⟩
        | .ok (files, mails) =>
            let outcome := sendScheduledSummary u r noMail files state
            { outcome with mails := mails ++ outcome.mails }
      else ⟨files, [], .raised⟩

/-! ### The slot that is due -/

/-- The slot has come at the time. -/
def NotLater (slot : PyString) (now : Datetime) : Prop :=
  ∃ hour minute, hour < 24 ∧ minute < 60 ∧ slot = slotText hour minute ∧
    hour * 60 + minute ≤ now.minuteOfDay

theorem notLater_slotText_iff {hour minute : ℕ} (hhour : hour < 24) (hminute : minute < 60)
    (now : Datetime) :
  NotLater (slotText hour minute) now ↔ hour * 60 + minute ≤ now.minuteOfDay
  := by
  constructor
  · rintro ⟨hour', minute', hhour', hminute', heq, hle⟩
    -- both are read from the same text
    have hparse := parseSummaryTime_slotText Unicode.ascii hhour hminute
    rw [heq, parseSummaryTime_slotText Unicode.ascii hhour' hminute'] at hparse
    cases hparse
    exact hle
  · intro hle
    exact ⟨hour, minute, hhour, hminute, rfl, hle⟩

/-- The slot is recorded as sent or as skipped. -/
def DayRecord.Records (record : DayRecord) (slot : PyString) : Prop :=
  slot ∈ record.sentSlots ∨ slot ∈ record.skippedSlots

variable {slots skipped : List PyString} {record : DayRecord} {state : SummaryState}

/-- The slots that are due are those that have come and are not recorded. -/
theorem dueSlots_ok (now : Datetime) (record : DayRecord) (hslots : ∀ slot ∈ slots, IsSlot slot) :
  ∃ due, dueSlots u now record slots = .ok due ∧ due.Sublist slots ∧
    ∀ slot, slot ∈ due ↔ slot ∈ slots ∧ NotLater slot now ∧ ¬ record.Records slot
  := by
  induction slots with
  | nil => exact ⟨[], rfl, List.Sublist.refl [], by simp⟩
  | cons slot slots ih =>
    rw [forall_mem_cons] at hslots
    obtain ⟨⟨hour, minute, hhour, hminute, rfl⟩, hslots⟩ := hslots
    obtain ⟨due, hdue, hsublist, hmem⟩ := ih hslots
    have hlater := notLater_slotText_iff hhour hminute now
    have hstep : dueSlots u now record (slotText hour minute :: slots) =
        if hour * 60 + minute ≤ now.minuteOfDay then
          if slotText hour minute ∉ record.sentSlots ∧
              slotText hour minute ∉ record.skippedSlots then
            .ok (slotText hour minute :: due)
          else .ok due
        else .ok due := by
      rw [dueSlots, parseSummaryTime_slotText u hhour hminute, hdue]
      rfl
    by_cases hcome : hour * 60 + minute ≤ now.minuteOfDay
    · by_cases hrecords : record.Records (slotText hour minute)
      · rw [if_pos hcome, if_neg (by rwa [← not_or, not_not])] at hstep
        refine ⟨due, hstep, hsublist.cons _, ?_⟩
        intro slot
        rw [hmem, mem_cons]
        grind
      · rw [if_pos hcome, if_pos (not_or.mp hrecords)] at hstep
        refine ⟨_, hstep, hsublist.cons_cons _, ?_⟩
        intro slot
        rw [mem_cons, mem_cons, hmem]
        grind
    · rw [if_neg hcome] at hstep
      refine ⟨due, hstep, hsublist.cons _, ?_⟩
      intro slot
      rw [hmem, mem_cons]
      grind

/-- The last slot that is due is to be sent, and the others are to be skipped. -/
theorem dueSlot_ok {u : Unicode} {now : Datetime} (hslots : ∀ slot ∈ slots, IsSlot slot)
    (hnodup : slots.Nodup) {slot : PyString}
    (h : dueSlot u slots now record = .ok (some slot, skipped)) :
  slot ∉ skipped ∧
    ∀ other, other = slot ∨ other ∈ skipped ↔
      other ∈ slots ∧ NotLater other now ∧ ¬ record.Records other
  := by
  obtain ⟨due, hdue, hsublist, hmem⟩ := dueSlots_ok u now record hslots
  rw [dueSlot, hdue] at h
  obtain ⟨hlast, rfl⟩ := Prod.mk.inj (Except.ok.inj h)
  have hsplit : due.dropLast ++ [slot] = due := dropLast_append_getLast? slot hlast
  have hdistinct := hnodup.sublist hsublist
  rw [← hsplit, nodup_append'] at hdistinct
  constructor
  · intro hskipped
    exact hdistinct.2.2 hskipped (mem_singleton_self slot)
  · intro other
    rw [← hmem, ← hsplit, mem_append, mem_singleton, hsplit, or_comm]

/-! ### Pruning -/

theorem lookup_foldl_erase {β : Type} (keys : List PyString) (d : Dict β) (key : PyString) :
  (keys.foldl (fun d k => d.erase k) d).lookup key = if key ∈ keys then none else d.lookup key
  := by
  induction keys generalizing d with
  | nil => rfl
  | cons k keys ih =>
    rw [foldl_cons, ih]
    by_cases hkey : key = k
    · subst hkey
      simp
    · simp [hkey, AList.lookup_erase_ne]

theorem mem_days_of_pruned {key : PyString} (h : key ∈ (pruneSummaryState state).days) :
  key ∈ state.days
  := by
  rw [← AList.lookup_isSome] at h ⊢
  rw [pruneSummaryState, lookup_foldl_erase] at h
  split_ifs at h with hdropped
  · cases h
  · exact h

/-- What is not dropped is kept as it was. -/
theorem dayRecord_pruneSummaryState (state : SummaryState) (localDate : PyString) :
  dayRecord (pruneSummaryState state) localDate = dayRecord state localDate ∨
    dayRecord (pruneSummaryState state) localDate = {}
  := by
  rw [dayRecord, dayRecord, pruneSummaryState, lookup_foldl_erase]
  split_ifs
  · exact .inr rfl
  · exact .inl rfl

/-- The last day is kept. -/
theorem dayRecord_pruneSummaryState_latest {localDate : PyString} (hday : localDate ∈ state.days)
    (hlatest : ∀ key ∈ state.days, key ≤ localDate) :
  dayRecord (pruneSummaryState state) localDate = dayRecord state localDate
  := by
  rw [dayRecord, dayRecord, pruneSummaryState, lookup_foldl_erase, if_neg]
  exact not_mem_withoutLast_sorted state.days.keys_nodup hday hlatest (by decide)

/-! ### Records -/

@[simp]
theorem dayRecord_withRecord (state : SummaryState) (localDate : PyString) (record : DayRecord) :
  dayRecord (state.withRecord localDate record) localDate = record
  := by
  rw [dayRecord, SummaryState.withRecord, AList.lookup_insert]
  rfl

theorem dayRecord_withRecord_of_ne (state : SummaryState) {localDate other : PyString}
    (h : other ≠ localDate) (record : DayRecord) :
  dayRecord (state.withRecord localDate record) other = dayRecord state other
  := by
  rw [dayRecord, SummaryState.withRecord, AList.lookup_insert_ne h]
  rfl

theorem mem_days_withRecord {localDate key : PyString} :
  key ∈ (state.withRecord localDate record).days ↔ key = localDate ∨ key ∈ state.days
  := AList.mem_insert _

theorem mem_sentSlots_processed {r : Run} {slot other : PyString} :
  other ∈ (record.processed r slot skipped).sentSlots ↔ other = slot ∨ other ∈ record.sentSlots
  := AList.mem_insert _

theorem mem_foldl_insert {β : Type} (value : PyString → β) (keys : List PyString) (d : Dict β)
    (key : PyString) :
  key ∈ keys.foldl (fun d k => d.insert k (value k)) d ↔ key ∈ keys ∨ key ∈ d
  := by
  induction keys generalizing d with
  | nil => simp
  | cons k keys ih =>
    rw [foldl_cons, ih, AList.mem_insert, mem_cons]
    tauto

theorem mem_skippedSlots_processed {r : Run} {slot other : PyString} :
  other ∈ (record.processed r slot skipped).skippedSlots ↔
    other ∈ skipped ∨ other ∈ record.skippedSlots
  := mem_foldl_insert _ skipped record.skippedSlots other

end ResourceGuard
