import Mathlib.Data.Char
import Mathlib.Data.List.Dedup
import Mathlib.Data.List.Lex
import Mathlib.Data.List.Sort
import ActivityRelay.PyString.Text

/-!
# The order of strings

Strings are compared code point by code point. Numbers that are written with the same width are
ordered as the numbers are (`padded_lt_padded_iff`).
-/

namespace PyString

open List

instance order : LinearOrder PyString := List.instLinearOrder

/-! ### Sorting -/

def sorted (l : List PyString) : List PyString := l.insertionSort (· ≤ ·)

variable {l : List PyString} {s : PyString}

theorem mem_sorted :
  s ∈ sorted l ↔ s ∈ l
  := (l.perm_insertionSort (· ≤ ·)).mem_iff

theorem nodup_sorted :
  (sorted l).Nodup ↔ l.Nodup
  := (l.perm_insertionSort (· ≤ ·)).nodup_iff

theorem pairwise_sorted (l : List PyString) :
  (sorted l).Pairwise (· ≤ ·)
  := l.pairwise_insertionSort (· ≤ ·)

/-- `l[:-n]`. -/
def withoutLast {α : Type} (n : ℕ) (l : List α) : List α := l.take (l.length - n)

/-- The greatest string is not among those before the last ones. -/
theorem not_mem_withoutLast_sorted (hl : l.Nodup) (hs : s ∈ l) (hmax : ∀ t ∈ l, t ≤ s) {n : ℕ}
    (hn : 0 < n) :
  s ∉ withoutLast n (sorted l)
  := by
  intro hmem
  have hlength : 0 < (sorted l).length := length_pos_of_mem (mem_sorted.mpr hs)
  have hsplit := take_append_drop ((sorted l).length - n) (sorted l)
  obtain ⟨t, ht⟩ : ∃ t, t ∈ (sorted l).drop ((sorted l).length - n) := by
    apply exists_mem_of_ne_nil
    rw [Ne, drop_eq_nil_iff]
    omega
  have hsorted := pairwise_sorted l
  have hnodup := nodup_sorted.mpr hl
  rw [← hsplit, pairwise_append] at hsorted
  rw [← hsplit, nodup_append'] at hnodup
  have hst : s ≤ t := hsorted.2.2 s hmem t ht
  have hts : t ≤ s := hmax t (mem_sorted.mp (mem_of_mem_drop ht))
  obtain rfl := le_antisymm hst hts
  exact hnodup.2.2 hmem ht

/-! ### Numbers of a fixed width -/

/-- Strings with starts of the same length are ordered by the starts first. -/
theorem append_lt_append_iff {s' : PyString} (h : s.length = s'.length) {t t' : PyString} :
  s ++ t < s' ++ t' ↔ s < s' ∨ s = s' ∧ t < t'
  := by
  induction s generalizing s' with
  | nil =>
    obtain rfl := length_eq_zero_iff.mp h.symm
    simp
  | cons c s ih =>
    cases s' with
    | nil => cases h
    | cons c' s' =>
      rw [length_cons, length_cons, Nat.add_right_cancel_iff] at h
      rw [cons_append, cons_append, cons_lt_cons_iff, cons_lt_cons_iff, ih h,
        List.cons.injEq]
      tauto

theorem digitChar_lt_digitChar_iff {d e : ℕ} (hd : d < 10) (he : e < 10) :
  Nat.digitChar d < Nat.digitChar e ↔ d < e
  := by
  change d.digitChar.toNat < e.digitChar.toNat ↔ d < e
  rw [Nat.toNat_digitChar_of_lt_ten hd, Nat.toNat_digitChar_of_lt_ten he]
  omega

theorem digitChar_inj {d e : ℕ} (hd : d < 10) (he : e < 10) :
  Nat.digitChar d = Nat.digitChar e ↔ d = e
  := by
  rw [← Char.toNat_inj, Nat.toNat_digitChar_of_lt_ten hd, Nat.toNat_digitChar_of_lt_ten he]
  omega

/-- Numbers are compared by their first digit first. -/
theorem add_mul_lt_add_mul_iff {p x y a b : ℕ} (hx : x < p) (hy : y < p) :
  x + p * a < y + p * b ↔ a < b ∨ a = b ∧ x < y
  := by
  rcases lt_trichotomy a b with h | rfl | h
  · have hle : p * (a + 1) ≤ p * b := Nat.mul_le_mul_left p h
    rw [Nat.mul_add, Nat.mul_one] at hle
    omega
  · omega
  · have hle : p * (b + 1) ≤ p * a := Nat.mul_le_mul_left p h
    rw [Nat.mul_add, Nat.mul_one] at hle
    omega

/-- The last digits are ordered as the numbers they are the digits of. -/
theorem padded_lt_padded_iff (width n m : ℕ) :
  padded width n < padded width m ↔ n % 10 ^ width < m % 10 ^ width
  := by
  induction width with
  | zero => simp [padded, Nat.mod_one]
  | succ width ih =>
    have hn : n / 10 ^ width % 10 < 10 := Nat.mod_lt _ (by decide)
    have hm : m / 10 ^ width % 10 < 10 := Nat.mod_lt _ (by decide)
    rw [padded, padded, cons_lt_cons_iff, ih, digitChar_lt_digitChar_iff hn hm,
      digitChar_inj hn hm, Nat.mod_pow_succ, Nat.mod_pow_succ]
    have hpos : 0 < 10 ^ width := Nat.pow_pos (by decide)
    exact (add_mul_lt_add_mul_iff (Nat.mod_lt n hpos) (Nat.mod_lt m hpos)).symm

theorem padded_inj (width n m : ℕ) :
  padded width n = padded width m ↔ n % 10 ^ width = m % 10 ^ width
  := by
  rw [le_antisymm_iff, ← not_lt, ← not_lt, padded_lt_padded_iff, padded_lt_padded_iff, not_lt,
    not_lt, ← le_antisymm_iff]

end PyString
