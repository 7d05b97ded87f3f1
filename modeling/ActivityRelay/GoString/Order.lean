import Mathlib.Data.List.Lex
import Mathlib.Data.List.Sort
import ActivityRelay.GoString.Utf8

/-!
# The order of strings

Strings are compared byte by byte.
-/

namespace GoString

instance byteOrder : LinearOrder UInt8 where
  le_refl := UInt8.le_refl
  le_trans _ _ _ := UInt8.le_trans
  lt_iff_le_not_ge a b := by
    rw [UInt8.lt_iff_toNat_lt, UInt8.le_iff_toNat_le, UInt8.le_iff_toNat_le]
    omega
  le_antisymm _ _ := UInt8.le_antisymm
  le_total := UInt8.le_total
  toDecidableLE := inferInstance

instance order : LinearOrder GoString := List.instLinearOrder

/-- `sort.Strings`. -/
def sortStrings (l : List GoString) : List GoString := l.insertionSort (· ≤ ·)

theorem mem_sortStrings {l : List GoString} {s : GoString} :
  s ∈ sortStrings l ↔ s ∈ l
  := (l.perm_insertionSort (· ≤ ·)).mem_iff

theorem sortStrings_sorted (l : List GoString) :
  (sortStrings l).Pairwise (· ≤ ·)
  := l.pairwise_insertionSort (· ≤ ·)

theorem sortStrings_perm (l : List GoString) :
  (sortStrings l).Perm l
  := l.perm_insertionSort (· ≤ ·)

/-- Two lists of the same strings, each of them once, are sorted to the same list. -/
theorem sortStrings_eq {l l' : List GoString} (hl : l.Nodup) (hl' : l'.Nodup)
    (hmem : ∀ s, s ∈ l ↔ s ∈ l') :
  sortStrings l = sortStrings l'
  := by
  have hperm : l.Perm l' := (List.perm_ext_iff_of_nodup hl hl').mpr hmem
  apply List.Perm.eq_of_pairwise' (sortStrings_sorted l) (sortStrings_sorted l')
  calc
    (sortStrings l).Perm l := sortStrings_perm l
    l.Perm l' := hperm
    l'.Perm (sortStrings l') := (sortStrings_perm l').symm

/-- Strings with a common start are ordered by what follows it. -/
theorem append_lt_append_iff (s : GoString) {t t' : GoString} :
  s ++ t < s ++ t' ↔ t < t'
  := by
  have hmono : StrictMono (fun t : GoString => s ++ t) := by
    intro t t' h
    exact List.Lex.append_left (· < ·) h s
  exact hmono.lt_iff_lt

end GoString
