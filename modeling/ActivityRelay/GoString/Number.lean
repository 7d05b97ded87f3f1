import Mathlib.Data.Int.Notation
import ActivityRelay.GoString.Utf8

/-!
# Digits and decimal numbers

Decimal and hexadecimal digits, and `strconv.FormatInt`, `ParseInt` and `ParseUint` in base ten. A number that fits is read back
from what is written of it (`parseInt_formatInt`, `parseUint_formatNat`), and a negative
number is not read back as one that is not (`parseInt_formatInt_neg`).
-/

namespace GoString

/-- The byte is a decimal digit. -/
def isDigit (b : UInt8) : Bool := 0x30 ≤ b.toNat && b.toNat ≤ 0x39

/-- The value of a hexadecimal digit. -/
def hexValue (b : UInt8) : Option ℕ :=
  if isDigit b then some (b.toNat - 0x30)
  else if 0x61 ≤ b.toNat ∧ b.toNat ≤ 0x66 then some (b.toNat - 0x61 + 10)
  else if 0x41 ≤ b.toNat ∧ b.toNat ≤ 0x46 then some (b.toNat - 0x41 + 10)
  else none

/-- The hexadecimal digit of a value below sixteen, in lower case. -/
def hexDigit (n : ℕ) : UInt8 := if n < 10 then UInt8.ofNat (0x30 + n) else UInt8.ofNat (0x57 + n)

/-- The value of a decimal digit. -/
def digitValue (b : UInt8) : Option ℕ :=
  if 0x30 ≤ b.toNat ∧ b.toNat ≤ 0x39 then some (b.toNat - 0x30) else none

theorem isDigit_iff (b : UInt8) :
  isDigit b = true ↔ 0x30 ≤ b.toNat ∧ b.toNat ≤ 0x39
  := by
  simp [isDigit]

theorem isSome_digitValue {b : UInt8} (h : isDigit b = true) :
  (digitValue b).isSome = true
  := by
  simp [digitValue, (isDigit_iff b).mp h]

/-- The number that the digits of a string add to the number `n` before them. -/
def parseDigits : ℕ → GoString → Option ℕ
  | n, [] => some n
  | n, b :: s => (digitValue b).bind (fun d => parseDigits (10 * n + d) s)

/-- `strconv.ParseUint(s, 10, bits)`. -/
def parseUint (bits : ℕ) (s : GoString) : Option ℕ :=
  if s = [] then none else (parseDigits 0 s).filter (fun n => n < 2 ^ bits)

/-- `strconv.ParseInt(s, 10, 64)`. -/
def parseInt : GoString → Option ℤ
  | [] => none
  | b :: s =>
      if b = 0x2D then ((parseUint 64 s).filter (fun n => n ≤ 2 ^ 63)).map (fun n : ℕ => -(n : ℤ))
      else if b = 0x2B then ((parseUint 64 s).filter (fun n => n < 2 ^ 63)).map (fun n : ℕ => (n : ℤ))
      else ((parseUint 64 (b :: s)).filter (fun n => n < 2 ^ 63)).map (fun n : ℕ => (n : ℤ))

/-- The number that `strconv.ParseUint(s, 10, 64)` computes from the digits of a string after the
number `n`. It stops at a number that is too large, whatever comes after it. -/
def saturateDigits : ℕ → GoString → Option ℕ
  | n, [] => some n
  | n, b :: s =>
      (digitValue b).bind (fun d =>
        if 2 ^ 64 ≤ 10 * n + d then some (2 ^ 64 - 1) else saturateDigits (10 * n + d) s)

/-- The number that `strconv.ParseInt(s, 10, 64)` returns with or without an error: zero for what
is no number, and the nearest number for one that is out of range. -/
def parseIntValue : GoString → ℤ
  | [] => 0
  | b :: s =>
      if b = 0x2D then -((digits s).elim 0 (fun n => min n (2 ^ 63)) : ℕ)
      else if b = 0x2B then ((digits s).elim 0 (fun n => min n (2 ^ 63 - 1)) : ℕ)
      else ((digits (b :: s)).elim 0 (fun n => min n (2 ^ 63 - 1)) : ℕ)
  where
    digits (s : GoString) : Option ℕ := if s = [] then none else saturateDigits 0 s

/-- The decimal digits of a number. -/
def formatNat (n : ℕ) : GoString := (Nat.toDigits 10 n).map (fun c => c.toNat.toUInt8)

/-- `strconv.FormatInt(n, 10)`. -/
def formatInt (n : ℤ) : GoString :=
  if n < 0 then 0x2D :: formatNat n.natAbs else formatNat n.natAbs

/-! ### Reading what was written -/

theorem digit_toNat {c : Char} (hc : c.isDigit = true) :
  0x30 ≤ c.toNat ∧ c.toNat ≤ 0x39
  := by
  simpa [Char.isDigit, UInt32.le_iff_toNat_le] using hc

theorem digitValue_digit {c : Char} (hc : c.isDigit = true) :
  digitValue c.toNat.toUInt8 = some (c.toNat - '0'.toNat)
  := by
  have hrange := digit_toNat hc
  unfold digitValue
  rw [toNat_toUInt8 (by omega), if_pos hrange]
  rfl

theorem parseDigits_map {cs : List Char} (hcs : ∀ c ∈ cs, c.isDigit = true) (n : ℕ) :
  parseDigits n (cs.map (fun c => c.toNat.toUInt8)) = some (Nat.ofDigitChars 10 cs n)
  := by
  induction cs generalizing n with
  | nil => rfl
  | cons c cs ih =>
    rw [List.forall_mem_cons] at hcs
    rw [List.map_cons, parseDigits, digitValue_digit hcs.1, Option.bind_some, ih hcs.2,
      Nat.ofDigitChars_cons]

theorem parseDigits_formatNat (n : ℕ) :
  parseDigits 0 (formatNat n) = some n
  := by
  rw [formatNat, parseDigits_map, Nat.ofDigitChars_toDigits (by decide) (by decide)]
  intro c hc
  apply Nat.isDigit_of_mem_toDigits (by decide) (by decide) hc

theorem formatNat_ne_nil (n : ℕ) :
  formatNat n ≠ []
  := by
  simp [formatNat, Nat.toDigits_ne_nil]

/-- A number is read back if it fits. -/
theorem parseUint_formatNat (bits n : ℕ) :
  parseUint bits (formatNat n) = if n < 2 ^ bits then some n else none
  := by
  rw [parseUint, if_neg (formatNat_ne_nil n), parseDigits_formatNat]
  by_cases h : n < 2 ^ bits <;> simp [Option.filter, h]

/-- The digits of a number start with a digit, and so with no sign. -/
theorem formatNat_eq_cons (n : ℕ) :
  ∃ b s, formatNat n = b :: s ∧ b ≠ 0x2D ∧ b ≠ 0x2B
  := by
  obtain ⟨c, cs, hcs⟩ := List.exists_cons_of_ne_nil (Nat.toDigits_ne_nil (n := n) (b := 10))
  have hmem : c ∈ Nat.toDigits 10 n := by
    rw [hcs]
    apply List.mem_cons_self
  have hrange := digit_toNat (Nat.isDigit_of_mem_toDigits (by decide) (by decide) hmem)
  have hnat := toNat_toUInt8 (n := c.toNat) (by omega)
  refine ⟨c.toNat.toUInt8, cs.map (fun c => c.toNat.toUInt8), ?_, ?_, ?_⟩
  · rw [formatNat, hcs, List.map_cons]
  · intro h
    rw [h] at hnat
    have : (0x2D : UInt8).toNat = 0x2D := rfl
    omega
  · intro h
    rw [h] at hnat
    have : (0x2B : UInt8).toNat = 0x2B := rfl
    omega

/-- A number that is not negative is read back if it fits. -/
theorem parseInt_formatInt {n : ℤ} (hn : 0 ≤ n) :
  parseInt (formatInt n) = if n < 2 ^ 63 then some n else none
  := by
  obtain ⟨b, s, hs, hminus, hplus⟩ := formatNat_eq_cons n.natAbs
  rw [formatInt, if_neg (by omega), hs, parseInt, if_neg hminus, if_neg hplus, ← hs,
    parseUint_formatNat]
  by_cases h : n < 2 ^ 63
  · have h₁ : n.natAbs < 2 ^ 63 := by omega
    have h₂ : n.natAbs < 2 ^ 64 := by omega
    rw [if_pos h, if_pos h₂]
    simp only [Option.filter_some, decide_eq_true h₁, if_true, Option.map_some, Option.some.injEq]
    omega
  · have h₁ : ¬ n.natAbs < 2 ^ 63 := by omega
    rw [if_neg h]
    by_cases h₂ : n.natAbs < 2 ^ 64
    · rw [if_pos h₂]
      simp only [Option.filter_some, decide_eq_false h₁, Bool.false_eq_true, if_false,
        Option.map_none]
    · rw [if_neg h₂]
      rfl

/-- A number of 64 bits is read back. -/
theorem parseInt_formatInt_of_fits {n : ℤ} (hlow : -2 ^ 63 ≤ n) (hhigh : n < 2 ^ 63) :
  parseInt (formatInt n) = some n
  := by
  by_cases hn : 0 ≤ n
  · rw [parseInt_formatInt hn, if_pos hhigh]
  · have hfits : n.natAbs ≤ 2 ^ 63 := by omega
    rw [formatInt, if_pos (by omega), parseInt, if_pos rfl, parseUint_formatNat, if_pos (by omega),
      Option.filter_some, if_pos (decide_eq_true hfits), Option.map_some, Option.some.injEq]
    omega

theorem le_of_parseDigits {s : GoString} {n m : ℕ} (h : parseDigits n s = some m) :
  n ≤ m
  := by
  induction s generalizing n with
  | nil =>
    cases h
    rfl
  | cons b s ih =>
    rw [parseDigits, Option.bind_eq_some_iff] at h
    obtain ⟨d, -, hd⟩ := h
    have := ih hd
    omega

/-- Digits that make a number that fits are all read. -/
theorem saturateDigits_of_parseDigits {s : GoString} {n m : ℕ} (h : parseDigits n s = some m)
    (hm : m < 2 ^ 64) :
  saturateDigits n s = some m
  := by
  induction s generalizing n with
  | nil => exact h
  | cons b s ih =>
    rw [parseDigits, Option.bind_eq_some_iff] at h
    obtain ⟨d, hd, hrest⟩ := h
    have hle := le_of_parseDigits hrest
    rw [saturateDigits, hd, Option.bind_some, if_neg (by omega)]
    apply ih hrest

theorem digits_formatNat {n : ℕ} (hn : n < 2 ^ 64) :
  parseIntValue.digits (formatNat n) = some n
  := by
  rw [parseIntValue.digits, if_neg (formatNat_ne_nil n)]
  apply saturateDigits_of_parseDigits (parseDigits_formatNat n) hn

theorem neg_le_parseIntValue (s : GoString) :
  -2 ^ 63 ≤ parseIntValue s
  := by
  have hmin : ∀ n : Option ℕ, n.elim 0 (fun n => min n (2 ^ 63)) ≤ 2 ^ 63 := by
    rintro (_ | n)
    · simp
    · apply min_le_right
  cases s with
  | nil => simp [parseIntValue]
  | cons b s =>
    have := hmin (parseIntValue.digits s)
    rw [parseIntValue]
    split_ifs <;> omega

/-- The value of a number that fits is the number. -/
theorem parseIntValue_formatInt {n : ℤ} (hlow : -2 ^ 63 ≤ n) (hhigh : n < 2 ^ 63) :
  parseIntValue (formatInt n) = n
  := by
  have hdigits := digits_formatNat (n := n.natAbs) (by omega)
  unfold formatInt
  split
  · rw [parseIntValue, if_pos rfl, hdigits, Option.elim_some, min_eq_left (by omega)]
    omega
  · obtain ⟨b, s, hs, hminus, hplus⟩ := formatNat_eq_cons n.natAbs
    rw [hs] at hdigits ⊢
    rw [parseIntValue, if_neg hminus, if_neg hplus, hdigits, Option.elim_some,
      min_eq_left (by omega)]
    omega

/-- A negative number is read back as a negative number, if at all. -/
theorem parseInt_formatInt_neg {n m : ℤ} (hn : n < 0) (h : parseInt (formatInt n) = some m) :
  m < 0
  := by
  rw [formatInt, if_pos hn, parseInt, if_pos rfl, parseUint_formatNat] at h
  split at h
  · rw [Option.map_eq_some_iff] at h
    obtain ⟨k, hk, rfl⟩ := h
    obtain rfl := Option.some.inj (Option.filter_eq_some_iff.mp hk).1
    omega
  · cases h

end GoString
