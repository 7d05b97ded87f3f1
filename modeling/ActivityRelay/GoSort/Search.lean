import Mathlib.Data.List.Basic
import Mathlib.Data.List.Pairwise
import Mathlib.Order.Lattice
import Mathlib.Tactic.Common

/-!
# Binary search

`sort.Search` of Go, and the insertion into a sorted list that is made with it. If a list is
sorted by a key, then `upsert` replaces the first element with the key of the new one, or adds
the new one where it belongs (`upsert_spec`). The list stays sorted, strictly if it was.
-/

namespace GoSort

open List

/-- The loop of `sort.Search` between `i` and `j`, of at most `fuel` rounds. -/
def searchLoop (f : ℕ → Bool) : ℕ → ℕ → ℕ → ℕ
  | 0, i, _ => i
  | fuel + 1, i, j =>
      if i < j then
        let h := (i + j) / 2
        if f h then searchLoop f fuel i h else searchLoop f fuel (h + 1) j
      else i

/-- `sort.Search`. Every round makes the interval shorter, so `n` rounds are enough. -/
def search (n : ℕ) (f : ℕ → Bool) : ℕ := searchLoop f n 0 n

/-- If `f` holds from `r` on and not before, then the loop ends at `r`. -/
theorem searchLoop_eq {f : ℕ → Bool} {n r : ℕ} (hlow : ∀ k < r, f k = false)
    (hhigh : ∀ k < n, r ≤ k → f k = true) {fuel i j : ℕ} (hfuel : j - i ≤ fuel) (hi : i ≤ r)
    (hj : r ≤ j) (hn : j ≤ n) :
  searchLoop f fuel i j = r
  := by
  induction fuel generalizing i j with
  | zero =>
    rw [searchLoop]
    omega
  | succ fuel ih =>
    rw [searchLoop]
    by_cases hij : i < j
    · rw [if_pos hij]
      dsimp only
      by_cases hr : r ≤ (i + j) / 2
      · rw [if_pos (hhigh _ (by omega) hr)]
        apply ih (by omega) hi hr (by omega)
      · rw [hlow _ (by omega), if_neg Bool.false_ne_true]
        apply ih (by omega) (by omega) hj hn
    · rw [if_neg hij]
      omega

theorem search_eq {f : ℕ → Bool} {n r : ℕ} (hr : r ≤ n) (hlow : ∀ k < r, f k = false)
    (hhigh : ∀ k < n, r ≤ k → f k = true) :
  search n f = r
  := searchLoop_eq hlow hhigh (Nat.sub_le _ _) (Nat.zero_le _) hr (Nat.le_refl _)

/-! ### Insertion -/

section Upsert

variable {α K : Type*} [LinearOrder K] (key : α → K)

/-- The list `l` with `a` at the place that a binary search finds for its key. An element with
the same key that stands there is replaced. -/
def upsert (a : α) (l : List α) : List α :=
  let index := search l.length (fun i => l[i]?.all (fun b => key a ≤ key b))
  if l[index]?.any (fun b => key b = key a) then l.set index a else l.insertIdx index a

variable {key} {a : α} {l : List α}

/-- A list that is sorted is split by a key. -/
theorem exists_split (hl : l.Pairwise (fun b c => key b ≤ key c)) (k : K) :
  ∃ l₁ l₂, l = l₁ ++ l₂ ∧ (∀ b ∈ l₁, key b < k) ∧ ∀ b ∈ l₂, k ≤ key b
  := by
  induction l with
  | nil => exact ⟨[], [], rfl, by simp, by simp⟩
  | cons c l ih =>
    rw [pairwise_cons] at hl
    rcases lt_or_ge (key c) k with hc | hc
    · obtain ⟨l₁, l₂, rfl, h₁, h₂⟩ := ih hl.2
      use c :: l₁, l₂, rfl
      simp only [forall_mem_cons]
      exact ⟨⟨hc, h₁⟩, h₂⟩
    · use [], c :: l, rfl
      simp only [forall_mem_cons]
      refine ⟨by simp, hc, ?_⟩
      intro b hb
      apply le_trans hc (hl.1 b hb)

/-- The search ends where the list is split. -/
theorem search_split {l₁ l₂ : List α} (h₁ : ∀ b ∈ l₁, key b < key a)
    (h₂ : ∀ b ∈ l₂, key a ≤ key b) :
  search (l₁ ++ l₂).length (fun i => (l₁ ++ l₂)[i]?.all (fun b => key a ≤ key b)) = l₁.length
  := by
  apply search_eq
  · simp
  · intro k hk
    rw [List.getElem?_append_left hk, List.getElem?_eq_getElem hk]
    simpa using h₁ _ (getElem_mem hk)
  · intro k hk hle
    rw [length_append] at hk
    rw [List.getElem?_append_right hle, List.getElem?_eq_getElem (by omega)]
    simpa using h₂ _ (getElem_mem (by omega))

omit [LinearOrder K] in
theorem insertIdx_length (l₁ l₂ : List α) (a : α) :
  (l₁ ++ l₂).insertIdx l₁.length a = l₁ ++ a :: l₂
  := by
  induction l₁ with
  | nil => rfl
  | cons b l₁ ih => simp [ih]

omit [LinearOrder K] in
/-- A relation that holds between the elements of a list is kept if one takes the place of `old`
that is related to what stands before and after it. -/
theorem pairwise_replace {r : α → α → Prop} {l₁ old l₂ : List α}
    (h : (l₁ ++ old ++ l₂).Pairwise r) (h₁ : ∀ b ∈ l₁, r b a) (h₂ : ∀ b ∈ l₂, r a b) :
  (l₁ ++ a :: l₂).Pairwise r
  := by
  rw [pairwise_append] at h
  rw [pairwise_append, pairwise_cons]
  refine ⟨(pairwise_append.mp h.1).1, ⟨h₂, h.2.1⟩, ?_⟩
  intro b hb c hc
  rcases mem_cons.mp hc with rfl | hc
  · exact h₁ b hb
  · exact h.2.2 b (mem_append_left _ hb) c hc

section Sorted

variable (hl : l.Pairwise (fun b c => key b ≤ key c))
include hl

/-- What `upsert` does to a sorted list. -/
theorem upsert_spec (a : α) :
  ∃ l₁ old l₂, l = l₁ ++ old ++ l₂ ∧ upsert key a l = l₁ ++ a :: l₂ ∧
    (∀ b ∈ l₁, key b < key a) ∧ (∀ b ∈ l₂, key a ≤ key b) ∧
    (old = [] ∧ (∀ b ∈ l₂, key a < key b) ∨ ∃ b, old = [b] ∧ key b = key a)
  := by
  obtain ⟨l₁, l₂, rfl, h₁, h₂⟩ := exists_split hl (key a)
  simp only [upsert, search_split h₁ h₂, List.getElem?_append_right (Nat.le_refl _), Nat.sub_self]
  cases l₂ with
  | nil =>
    refine ⟨l₁, [], [], by simp, ?_, h₁, by simp, .inl ⟨rfl, by simp⟩⟩
    simp
  | cons b l₂ =>
    rw [forall_mem_cons] at h₂
    by_cases hb : key b = key a
    · refine ⟨l₁, [b], l₂, by simp, ?_, h₁, h₂.2, .inr ⟨b, rfl, hb⟩⟩
      simp [hb]
    · have hlt : key a < key b := lt_of_le_of_ne h₂.1 (Ne.symm hb)
      have hsorted := (pairwise_cons.mp (pairwise_append.mp hl).2.1).1
      refine ⟨l₁, [], b :: l₂, by simp, ?_, h₁, ?_, .inl ⟨rfl, ?_⟩⟩
      · simp [hb, insertIdx_length]
      · rw [forall_mem_cons]
        exact h₂
      · rw [forall_mem_cons]
        exact ⟨hlt, fun c hc => lt_of_lt_of_le hlt (hsorted c hc)⟩

theorem mem_upsert_self (a : α) :
  a ∈ upsert key a l
  := by
  obtain ⟨l₁, old, l₂, -, h, -⟩ := upsert_spec hl a
  simp [h]

theorem eq_or_mem_of_mem_upsert {b : α} (hb : b ∈ upsert key a l) :
  b = a ∨ b ∈ l
  := by
  obtain ⟨l₁, old, l₂, rfl, h, -⟩ := upsert_spec hl a
  simp only [h, mem_append, mem_cons] at hb ⊢
  tauto

theorem mem_upsert_of_ne {b : α} (hb : b ∈ l) (hne : key b ≠ key a) :
  b ∈ upsert key a l
  := by
  obtain ⟨l₁, old, l₂, rfl, h, -, -, hold⟩ := upsert_spec hl a
  have hnot : b ∉ old := by
    rcases hold with ⟨rfl, -⟩ | ⟨c, rfl, hc⟩
    · simp
    · rw [mem_singleton]
      rintro rfl
      exact hne hc
  simp only [h, mem_append, mem_cons] at hb ⊢
  tauto

/-- A sorted list stays sorted. -/
theorem upsert_sorted (a : α) :
  (upsert key a l).Pairwise (fun b c => key b ≤ key c)
  := by
  obtain ⟨l₁, old, l₂, rfl, h, h₁, h₂, -⟩ := upsert_spec hl a
  rw [h]
  exact pairwise_replace hl (fun b hb => (h₁ b hb).le) h₂

end Sorted

section Strict

variable (hl : l.Pairwise (fun b c => key b < key c))
include hl

theorem sorted_of_strict :
  l.Pairwise (fun b c => key b ≤ key c)
  := hl.imp le_of_lt

/-- In a list that is strictly sorted, an element is determined by its key. -/
theorem eq_of_key_eq {b c : α} (hb : b ∈ l) (hc : c ∈ l) (h : key b = key c) :
  b = c
  := by
  by_contra hne
  have : Std.Symm (fun b c : α => key b ≠ key c) := ⟨fun _ _ => Ne.symm⟩
  have hkeys : l.Pairwise (fun b c => key b ≠ key c) := hl.imp ne_of_lt
  exact hkeys.forall hb hc hne h

/-- In a list that is strictly sorted, the keys after the place of `a` are above that of `a`. -/
theorem upsert_spec_strict (a : α) :
  ∃ l₁ old l₂, l = l₁ ++ old ++ l₂ ∧ upsert key a l = l₁ ++ a :: l₂ ∧
    (∀ b ∈ l₁, key b < key a) ∧ (∀ b ∈ l₂, key a < key b) ∧ ∀ b ∈ old, key b = key a
  := by
  obtain ⟨l₁, old, l₂, rfl, h, h₁, -, hold⟩ := upsert_spec (sorted_of_strict hl) a
  use l₁, old, l₂, rfl, h, h₁
  rcases hold with ⟨rfl, h₂⟩ | ⟨b, rfl, hb⟩
  · exact ⟨h₂, by simp⟩
  · constructor
    · intro c hc
      rw [← hb]
      apply (pairwise_append.mp hl).2.2 b (by simp) c hc
    · simpa using hb

/-- A strictly sorted list stays so. -/
theorem upsert_strict (a : α) :
  (upsert key a l).Pairwise (fun b c => key b < key c)
  := by
  obtain ⟨l₁, old, l₂, rfl, h, h₁, h₂, -⟩ := upsert_spec_strict hl a
  rw [h]
  exact pairwise_replace hl h₁ h₂

/-- A strictly sorted list has, after the insertion of `a`, the element `a` and those with
other keys. -/
theorem mem_upsert_strict (a : α) {b : α} :
  b ∈ upsert key a l ↔ b = a ∨ b ∈ l ∧ key b ≠ key a
  := by
  obtain ⟨l₁, old, l₂, rfl, h, h₁, h₂, hold⟩ := upsert_spec_strict hl a
  simp only [h, mem_append, mem_cons]
  constructor
  · rintro (hb | rfl | hb)
    · exact .inr ⟨.inl (.inl hb), (h₁ b hb).ne⟩
    · exact .inl rfl
    · exact .inr ⟨.inr hb, (h₂ b hb).ne'⟩
  · rintro (rfl | ⟨(hb | hb) | hb, hne⟩)
    · exact .inr (.inl rfl)
    · exact .inl hb
    · exact absurd (hold b hb) hne
    · exact .inr (.inr hb)

end Strict

end Upsert

end GoSort
