import Mathlib.Data.List.Nodup

/-!
# The first elements by a key

`firsts key l` keeps, of the elements of a list with the same key, the first one. The elements
stay in their order, each key of the list occurs once, and the element with a key is the one that
a search from the start finds (`find?_eq_some_of_mem_firsts`).
-/

namespace Dedup

open List

variable {α κ : Type*} [DecidableEq κ] (key : α → κ)

/-- The elements of a list before which there is none with the same key. -/
def firsts : List α → List α
  | [] => []
  | a :: l => a :: (firsts l).filter (fun b => key b ≠ key a)

variable {key} {a : α} {k : κ} {l : List α}

theorem firsts_sublist (l : List α) :
  (firsts key l).Sublist l
  := by
  induction l with
  | nil => apply List.Sublist.refl
  | cons a l ih =>
    apply List.Sublist.cons_cons
    exact filter_sublist.trans ih

theorem mem_of_mem_firsts (h : a ∈ firsts key l) :
  a ∈ l
  := (firsts_sublist l).subset h

/-- An element is kept with the first one of its key. -/
theorem mem_firsts_cons {b : α} :
  b ∈ firsts key (a :: l) ↔ b = a ∨ b ∈ firsts key l ∧ key b ≠ key a
  := by
  rw [firsts, mem_cons, mem_filter, decide_eq_true_eq]

theorem nodup_keys_firsts (key : α → κ) (l : List α) :
  ((firsts key l).map key).Nodup
  := by
  induction l with
  | nil => apply nodup_nil
  | cons a l ih =>
    rw [firsts, map_cons, nodup_cons]
    constructor
    · rw [mem_map]
      rintro ⟨b, hb, hkey⟩
      rw [mem_filter, decide_eq_true_eq] at hb
      exact hb.2 hkey
    · exact ih.sublist (filter_sublist.map key)

/-- No key is lost. -/
theorem mem_keys_firsts :
  k ∈ (firsts key l).map key ↔ k ∈ l.map key
  := by
  induction l with
  | nil => rfl
  | cons a l ih =>
    simp only [mem_map, mem_firsts_cons, map_cons, mem_cons] at ih ⊢
    constructor
    · rintro ⟨b, rfl | ⟨hb, -⟩, rfl⟩
      · exact .inl rfl
      · exact .inr (ih.mp ⟨b, hb, rfl⟩)
    · rintro (rfl | hk)
      · exact ⟨a, .inl rfl, rfl⟩
      · obtain ⟨b, hb, rfl⟩ := ih.mpr hk
        by_cases hkey : key b = key a
        · exact ⟨a, .inl rfl, hkey.symm⟩
        · exact ⟨b, .inr ⟨hb, hkey⟩, rfl⟩

/-- The element that is kept is the first one of its key. -/
theorem find?_eq_some_of_mem_firsts (h : a ∈ firsts key l) :
  l.find? (fun b => key b = key a) = some a
  := by
  induction l with
  | nil => cases h
  | cons b l ih =>
    obtain rfl | ⟨ha, hkey⟩ := mem_firsts_cons.mp h
    · apply List.find?_cons_of_pos
      rw [decide_eq_true_eq]
    · rw [List.find?_cons_of_neg, ih ha]
      rw [decide_eq_true_eq]
      exact Ne.symm hkey

/-- Of the second part of a list, those elements are kept whose key is not in the first part. -/
theorem mem_firsts_append {l' : List α} :
  a ∈ firsts key (l ++ l') ↔ a ∈ firsts key l ∨ a ∈ firsts key l' ∧ key a ∉ l.map key
  := by
  induction l with
  | nil => simp [firsts]
  | cons b l ih =>
    rw [cons_append, mem_firsts_cons, ih, mem_firsts_cons, map_cons, mem_cons]
    tauto

end Dedup
