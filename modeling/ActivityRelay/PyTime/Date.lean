import Mathlib.Data.Prod.Lex
import ActivityRelay.PyString.Order

/-!
# Dates and times of Python

The date and the time that a clock on the wall shows. Formatted as `YYYY-MM-DD`, dates are ordered
as strings the way they are as dates (`Date.isoformat_lt_iff`).
-/

namespace PyTime

open PyString

/-- A `date`. Every month has room for 31 days. -/
structure Date where
  year : ℕ
  month : ℕ
  day : ℕ
  year_bounds : 1 ≤ year ∧ year ≤ 9999
  month_bounds : 1 ≤ month ∧ month ≤ 12
  day_bounds : 1 ≤ day ∧ day ≤ 31
  deriving DecidableEq

namespace Date

/-- Years are compared first, then months, then days. -/
def toTriple (d : Date) : ℕ ×ₗ ℕ ×ₗ ℕ := toLex (d.year, toLex (d.month, d.day))

theorem toTriple_injective :
  Function.Injective toTriple
  := by
  rintro ⟨y, m, d, _, _, _⟩ ⟨y', m', d', _, _, _⟩ h
  cases h
  rfl

instance linearOrder : LinearOrder Date := LinearOrder.lift' toTriple toTriple_injective

theorem lt_iff {d e : Date} :
  d < e ↔ d.year < e.year ∨
    d.year = e.year ∧ (d.month < e.month ∨ d.month = e.month ∧ d.day < e.day)
  := by
  change d.toTriple < e.toTriple ↔ _
  rw [toTriple, toTriple, Prod.Lex.toLex_lt_toLex, Prod.Lex.toLex_lt_toLex]

def max : Date := ⟨9999, 12, 31, by decide, by decide, by decide⟩

theorem le_max (d : Date) :
  d ≤ max
  := by
  have hy := d.year_bounds
  have hm := d.month_bounds
  have hd := d.day_bounds
  rw [← not_lt, lt_iff]
  change ¬ (9999 < d.year ∨ 9999 = d.year ∧ (12 < d.month ∨ 12 = d.month ∧ 31 < d.day))
  omega

def isoformat (d : Date) : PyString :=
  padded 4 d.year ++ ('-' :: (padded 2 d.month ++ ('-' :: padded 2 d.day)))

/-- As strings, dates are ordered as they are as dates. -/
theorem isoformat_lt_iff {d e : Date} :
  d.isoformat < e.isoformat ↔ d < e
  := by
  have hy := d.year_bounds
  have hy' := e.year_bounds
  have hm := d.month_bounds
  have hm' := e.month_bounds
  have hd := d.day_bounds
  have hd' := e.day_bounds
  have hlength (width n m : ℕ) : (padded width n).length = (padded width m).length := by simp
  rw [isoformat, isoformat, append_lt_append_iff (hlength 4 _ _), List.cons_lt_cons_iff,
    append_lt_append_iff (hlength 2 _ _), List.cons_lt_cons_iff, padded_lt_padded_iff,
    padded_lt_padded_iff, padded_lt_padded_iff, padded_inj, padded_inj, lt_iff]
  simp only [lt_self_iff_false, true_and, false_or]
  omega

theorem isoformat_le_iff {d e : Date} :
  d.isoformat ≤ e.isoformat ↔ d ≤ e
  := by
  rw [← not_lt, ← not_lt, isoformat_lt_iff]

end Date

/-- A `datetime` with an offset from UTC. -/
structure Datetime where
  date : Date
  hour : ℕ
  minute : ℕ
  second : ℕ
  microsecond : ℕ
  offset : PyString
  deriving DecidableEq

namespace Datetime

def isoformat (t : Datetime) : PyString :=
  t.date.isoformat ++ lit "T" ++ padded 2 t.hour ++ lit ":" ++ padded 2 t.minute ++ lit ":" ++
    padded 2 t.second ++
    (if t.microsecond = 0 then [] else lit "." ++ padded 6 t.microsecond) ++ t.offset

/-- The time of the day in minutes. -/
def minuteOfDay (t : Datetime) : ℕ := t.hour * 60 + t.minute

/-- The first time is not later on the clock on the wall than the second. -/
def NotAfter (t t' : Datetime) : Prop :=
  toLex (t.date, toLex (t.hour, toLex (t.minute, toLex (t.second, t.microsecond)))) ≤
    toLex (t'.date, toLex (t'.hour, toLex (t'.minute, toLex (t'.second, t'.microsecond))))

instance decidableNotAfter (t t' : Datetime) : Decidable (NotAfter t t') :=
  inferInstanceAs (Decidable (_ ≤ _))

theorem NotAfter.date_le {t t' : Datetime} (h : NotAfter t t') :
  t.date ≤ t'.date
  := by
  rw [NotAfter, Prod.Lex.toLex_le_toLex] at h
  rcases h with h | h
  · exact h.le
  · exact h.1.le

end Datetime

end PyTime
