import Mathlib.Data.List.AList
import ActivityRelay.Fallible.Result
import ActivityRelay.PyTime.Date

/-!
# The times of summaries

The resource guard sends summaries at the times of the day that are configured. A time that is
configured is called a slot, and is kept as `HH:MM`. The slots are sorted, and no slot is there
twice (`parseSummaryTimes_ok`).
-/

namespace ResourceGuard

open Fallible PyString PyTime

/-- A `dict` with strings as keys. -/
abbrev Dict (β : Type) := AList (fun _ : PyString => β)

/-! ### Configuration -/

inductive ConfigValue
  | text (s : PyString)
  | items (l : List PyString)
  deriving DecidableEq

abbrev Config := Dict ConfigValue

/-- The values that are refused. -/
inductive ConfigError
  | scalar (key : PyString)
  | integer (text : PyString)
  | hour
  | minute
  | time (value : PyString)
  | noTime
  deriving DecidableEq

def configScalar (config : Config) (key default : PyString) : Except ConfigError PyString :=
  match config.lookup key with
  | none => .ok default
  | some (.text s) => .ok s
  | some (.items _) => .error (.scalar key)

def configuredBool (u : Unicode) (value : PyString) : Bool :=
  decide (lower u (strip u value) ∈ [lit "1", lit "true", lit "yes", lit "on"])

def configInt (u : Unicode) (config : Config) (key default : PyString) : Except ConfigError ℤ := do
  let text ← configScalar config key default
  match int u text with
  | some n => .ok n
  | none => .error (.integer text)

/-! ### Slots -/

/-- A time of the day as `HH:MM`. -/
def slotText (hour minute : ℕ) : PyString := padded 2 hour ++ (':' :: padded 2 minute)

/-- The first group of the pattern, `[01]\d|2[0-3]`. -/
def hourValue (u : Unicode) (a b : Char) : Option ℕ :=
  if a = '0' ∨ a = '1' then (u.digit b).map (fun d => 10 * (a.toNat - 48) + d)
  else if a = '2' ∧ '0' ≤ b ∧ b ≤ '3' then some (20 + (b.toNat - 48))
  else none

/-- The second group of the pattern, `[0-5]\d`. -/
def minuteValue (u : Unicode) (a b : Char) : Option ℕ :=
  if '0' ≤ a ∧ a ≤ '5' then (u.digit b).map (fun d => 10 * (a.toNat - 48) + d) else none

/-- `parse_summary_time`: the hour, the minute and the slot. -/
def parseSummaryTime (u : Unicode) (value : PyString) : Except ConfigError (ℕ × ℕ × PyString) :=
  match strip u value with
  | [a, b, ':', c, d] =>
      match hourValue u a b, minuteValue u c d with
      | some hour, some minute => .ok (hour, minute, slotText hour minute)
      | _, _ => .error (.time [a, b, ':', c, d])
  | value => .error (.time value)

/-- The slots of values, in order. -/
def canonicalTimes (u : Unicode) : List PyString → Except ConfigError (List PyString)
  | [] => .ok []
  | value :: values => do
      let time ← parseSummaryTime u value
      let others ← canonicalTimes u values
      return time.2.2 :: others

/-- The time that is configured as an hour and a minute. -/
def legacyTime (u : Unicode) (config : Config) : Except ConfigError PyString := do
  let hour ← configInt u config (lit "DAILY_SUMMARY_HOUR") (lit "8")
  let minute ← configInt u config (lit "DAILY_SUMMARY_MINUTE") (lit "0")
  if ¬ (0 ≤ hour ∧ hour ≤ 23) then .error .hour
  else if ¬ (0 ≤ minute ∧ minute ≤ 59) then .error .minute
  else .ok (slotText hour.toNat minute.toNat)

/-- The values that slots are read from, and whether they come from the hour and the minute. -/
def rawTimes (u : Unicode) (config : Config) : Except ConfigError (List PyString × Bool) :=
  match config.lookup (lit "DAILY_SUMMARY_TIMES") with
  | some (.items (item :: items)) => .ok (item :: items, false)
  | some (.text (c :: text)) =>
      .ok (((split ',' (c :: text)).map (strip u)).filter (fun item => item ≠ []), false)
  | _ => (legacyTime u config).map (fun slot => ([slot], true))

/-- `parse_summary_times`. -/
def parseSummaryTimes (u : Unicode) (config : Config) :
    Except ConfigError (List PyString × Bool) := do
  let (raw, legacyUsed) ← rawTimes u config
  let canonical ← canonicalTimes u raw
  if canonical = [] then .error .noTime
  else .ok (sorted canonical.dedup, legacyUsed)

/-- A time of the day as it is configured. -/
def IsSlot (slot : PyString) : Prop :=
  ∃ hour minute, hour < 24 ∧ minute < 60 ∧ slot = slotText hour minute

variable {u : Unicode} {hour minute : ℕ}

theorem hourValue_lt {a b : Char} (h : hourValue u a b = some hour) :
  hour < 24
  := by
  unfold hourValue at h
  split_ifs at h with hlow hhigh
  · obtain ⟨d, hd, rfl⟩ := Option.map_eq_some_iff.mp h
    have hlt := u.digit_lt b d hd
    have ha : a.toNat - 48 ≤ 1 := by
      rcases hlow with rfl | rfl <;> decide
    omega
  · cases h
    have hb : b.toNat ≤ 51 := hhigh.2.2
    omega

theorem minuteValue_lt {a b : Char} (h : minuteValue u a b = some minute) :
  minute < 60
  := by
  unfold minuteValue at h
  split_ifs at h with hdigit
  obtain ⟨d, hd, rfl⟩ := Option.map_eq_some_iff.mp h
  have hlt := u.digit_lt b d hd
  have ha : a.toNat ≤ 53 := hdigit.2
  omega

theorem parseSummaryTime_ok {value slot : PyString}
    (h : parseSummaryTime u value = .ok (hour, minute, slot)) :
  hour < 24 ∧ minute < 60 ∧ slot = slotText hour minute
  := by
  unfold parseSummaryTime at h
  split at h
  · split at h
    · rename_i hhour hminute
      cases h
      exact ⟨hourValue_lt hhour, minuteValue_lt hminute, rfl⟩
    · cases h
  · cases h

theorem slotText_eq (hour minute : ℕ) :
  slotText hour minute =
    [Nat.digitChar (hour / 10 % 10), Nat.digitChar (hour % 10), ':',
      Nat.digitChar (minute / 10 % 10), Nat.digitChar (minute % 10)]
  := by
  simp [slotText, padded]

theorem hourValue_digitChar (u : Unicode) (h : hour < 24) :
  hourValue u (Nat.digitChar (hour / 10 % 10)) (Nat.digitChar (hour % 10)) = some hour
  := by
  -- the last digit is the same with all tables, so ASCII stands for all of them
  have hdigit := digit_digitChar u (Nat.mod_lt hour (by decide : 0 < 10))
  have hascii : ∀ hour : Fin 24, hourValue Unicode.ascii
      (Nat.digitChar (hour / 10 % 10)) (Nat.digitChar (hour % 10)) = some (hour : ℕ) := by
    decide +kernel
  rw [← hascii ⟨hour, h⟩, hourValue, hourValue, hdigit,
    digit_digitChar Unicode.ascii (Nat.mod_lt hour (by decide : 0 < 10))]

theorem minuteValue_digitChar (u : Unicode) (h : minute < 60) :
  minuteValue u (Nat.digitChar (minute / 10 % 10)) (Nat.digitChar (minute % 10)) = some minute
  := by
  have hdigit := digit_digitChar u (Nat.mod_lt minute (by decide : 0 < 10))
  have hascii : ∀ minute : Fin 60, minuteValue Unicode.ascii
      (Nat.digitChar (minute / 10 % 10)) (Nat.digitChar (minute % 10)) = some (minute : ℕ) := by
    decide +kernel
  rw [← hascii ⟨minute, h⟩, minuteValue, minuteValue, hdigit,
    digit_digitChar Unicode.ascii (Nat.mod_lt minute (by decide : 0 < 10))]

/-- A slot is read as the hour and the minute that it is made of. -/
theorem parseSummaryTime_slotText (u : Unicode) (hhour : hour < 24) (hminute : minute < 60) :
  parseSummaryTime u (slotText hour minute) = .ok (hour, minute, slotText hour minute)
  := by
  have hstrip : strip u (slotText hour minute) = slotText hour minute := by
    apply strip_eq_self
    · rintro c ⟨⟩
      exact isSpace_digitChar u (Nat.mod_lt _ (by decide))
    · rintro c ⟨⟩
      exact isSpace_digitChar u (Nat.mod_lt _ (by decide))
  rw [parseSummaryTime, hstrip, slotText_eq]
  simp only [hourValue_digitChar u hhour, minuteValue_digitChar u hminute, slotText_eq]

/-! ### The configured slots -/

theorem canonicalTimes_ok {values slots : List PyString} (h : canonicalTimes u values = .ok slots) :
  ∀ slot ∈ slots, IsSlot slot
  := by
  induction values generalizing slots with
  | nil =>
    cases h
    simp
  | cons value values ih =>
    obtain ⟨⟨hour, minute, slot⟩, htime, h⟩ := bind_eq_ok.mp h
    obtain ⟨others, hothers, h⟩ := bind_eq_ok.mp h
    cases h
    rw [List.forall_mem_cons]
    exact ⟨⟨hour, minute, parseSummaryTime_ok htime⟩, ih hothers⟩

/-- The slots are sorted, and none of them is there twice. -/
theorem parseSummaryTimes_ok {config : Config} {slots : List PyString} {legacyUsed : Bool}
    (h : parseSummaryTimes u config = .ok (slots, legacyUsed)) :
  (∀ slot ∈ slots, IsSlot slot) ∧ slots.Nodup ∧ slots.Pairwise (· ≤ ·) ∧ slots ≠ []
  := by
  obtain ⟨⟨raw, legacy⟩, -, h⟩ := bind_eq_ok.mp h
  obtain ⟨canonical, hcanonical, h⟩ := bind_eq_ok.mp h
  split_ifs at h with hnone
  cases h
  refine ⟨?_, nodup_sorted.mpr (List.nodup_dedup canonical), pairwise_sorted _, ?_⟩
  · intro slot hslot
    rw [mem_sorted, List.mem_dedup] at hslot
    exact canonicalTimes_ok hcanonical slot hslot
  · obtain ⟨slot, hslot⟩ := List.exists_mem_of_ne_nil canonical hnone
    rw [← List.mem_dedup, ← mem_sorted] at hslot
    exact List.ne_nil_of_mem hslot

end ResourceGuard
