import Mathlib.Algebra.Order.Ring.Int
import Mathlib.Data.Fintype.Basic
import Mathlib.Data.Int.Notation
import Mathlib.Tactic.Common

/-!
# Instants

An instant is an integer, the number of nanoseconds since the start of year 1, so that the
zero instant is the zero value of Go's `time.Time`; a duration is a number of nanoseconds.
Seconds of the Unix epoch are counted from 1970-01-01. Seconds are integers without a
bound; the source has 64 bits for them, some 292 billion years.
-/

namespace GoTime

def second : ℤ := 1000000000
def minute : ℤ := 60 * second
def hour : ℤ := 60 * minute

/-- The seconds from the start of year 1 to the Unix epoch. -/
def unixToInternal : ℤ := 62135596800

variable (t : ℤ)

/-- `Truncate(time.Second)`. -/
def truncate : ℤ := t / second * second

/-- `Unix()`: the whole seconds since the epoch. -/
def unix : ℤ := t / second - unixToInternal

/-- `time.Unix(seconds, 0)`. -/
def ofUnix (seconds : ℤ) : ℤ := (seconds + unixToInternal) * second

def millisecond : ℤ := 1000000

/-- `UnixMilli()`, in the arithmetic of 64 bits. -/
def unixMilli : ℤ := Int.bmod (t / millisecond - unixToInternal * 1000) (2 ^ 64)

/-- `time.UnixMilli(milliseconds)`. -/
def ofUnixMilli (milliseconds : ℤ) : ℤ := (milliseconds + unixToInternal * 1000) * millisecond

theorem unixMilli_fits :
  -2 ^ 63 ≤ unixMilli t ∧ unixMilli t < 2 ^ 63
  := by
  unfold unixMilli
  have hlow := Int.le_bmod (x := t / millisecond - unixToInternal * 1000) (m := 2 ^ 64) (by simp)
  have hhigh := Int.bmod_lt (x := t / millisecond - unixToInternal * 1000) (m := 2 ^ 64) (by simp)
  omega

theorem truncate_mono {s t : ℤ} (h : s ≤ t) :
  truncate s ≤ truncate t
  := by
  unfold truncate second
  omega

@[simp]
theorem truncate_truncate :
  truncate (truncate t) = truncate t
  := by
  unfold truncate second
  omega

/-- The instant of the whole seconds since the epoch is the truncated one. -/
theorem ofUnix_unix :
  ofUnix (unix t) = truncate t
  := by
  unfold ofUnix unix truncate
  rw [Int.sub_add_cancel]

theorem truncate_add {t : ℤ} {d : ℤ} (h : truncate d = d) :
  truncate (t + d) = truncate t + d
  := by
  unfold truncate second at *
  omega

end GoTime
