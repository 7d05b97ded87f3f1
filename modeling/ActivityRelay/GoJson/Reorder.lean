import ActivityRelay.GoJson.Grammar
import ActivityRelay.GoJson.Parts

/-!
# The order of members

`Reorder v w` says that `w` is `v` with the members of some of its objects, at any depth, in another
order. Reordering a value that a text can have gives a value that a text can have
(`Reorder.exists_parseText`).
-/

namespace GoJson

open GoString List

/-- The members of objects in another order. -/
inductive Reorder : Json → Json → Prop
  | refl (v : Json) : Reorder v v
  | trans {u v w : Json} : Reorder u v → Reorder v w → Reorder u w
  | members {ms ms' : List (GoString × Json)} : ms.Perm ms' → Reorder (.object ms) (.object ms')
  | member (before : List (GoString × Json)) (key : GoString) {v w : Json}
      (after : List (GoString × Json)) : Reorder v w →
      Reorder (.object (before ++ (key, v) :: after)) (.object (before ++ (key, w) :: after))
  | element (before : List Json) {v w : Json} (after : List Json) : Reorder v w →
      Reorder (.array (before ++ v :: after)) (.array (before ++ w :: after))

/-! ### What a reordering keeps -/

namespace Reorder

variable {v w : Json}

theorem distinctNames_eq (h : Reorder v w) :
  distinctNames v = distinctNames w
  := by
  induction h with
  | refl v => rfl
  | trans _ _ ih₁ ih₂ => exact ih₁.trans ih₂
  | members hperm =>
    simp only [distinctNames, membersDistinct_eq, (hperm.map Prod.fst).nodup_iff, hperm.all_eq]
  | member before key after _ ih =>
    simp only [distinctNames, membersDistinct_eq, map_append, map_cons,
      all_append, all_cons, ih]
  | element before after _ ih =>
    simp only [distinctNames, elementsDistinct_eq, all_append, all_cons, ih]

theorem floatsInRange_eq (h : Reorder v w) :
  floatsInRange v = floatsInRange w
  := by
  induction h with
  | refl v => rfl
  | trans _ _ ih₁ ih₂ => exact ih₁.trans ih₂
  | members hperm => simp only [floatsInRange, membersInRange_eq, hperm.all_eq]
  | member before key after _ ih =>
    simp only [floatsInRange, membersInRange_eq, all_append, all_cons, ih]
  | element before after _ ih =>
    simp only [floatsInRange, elementsInRange_eq, all_append, all_cons, ih]

theorem depth_le_iff (h : Reorder v w) {n : ℕ} :
  depth v ≤ n ↔ depth w ≤ n
  := by
  induction h generalizing n with
  | refl v => rfl
  | trans _ _ ih₁ ih₂ => exact ih₁.trans ih₂
  | members hperm =>
    cases n with
    | zero => simp [depth]
    | succ n => simp only [depth, Nat.add_le_add_iff_right, membersDepth_le_iff, hperm.mem_iff]
  | member before key after _ ih =>
    cases n with
    | zero => simp [depth]
    | succ n =>
      simp only [depth, Nat.add_le_add_iff_right, membersDepth_le_iff, forall_mem_append,
        forall_mem_cons, ih]
  | element before after _ ih =>
    cases n with
    | zero => simp [depth]
    | succ n =>
      simp only [depth, Nat.add_le_add_iff_right, elementsDepth_le_iff, forall_mem_append,
        forall_mem_cons, ih]

/-- The tokens are the same, but for their order. -/
theorem mem_tokens_iff (h : Reorder v w) (t : Token) :
  t ∈ tokens v ↔ t ∈ tokens w
  := by
  induction h with
  | refl v => rfl
  | trans _ _ ih₁ ih₂ => exact ih₁.trans ih₂
  | members hperm =>
    simp only [tokens, mem_cons, mem_append, mem_memberTokens, hperm.mem_iff]
  | member before key after _ ih =>
    simp only [tokens, mem_cons, mem_append, mem_memberTokens, or_and_right, exists_or,
      exists_eq_left, ih]
  | element before after _ ih =>
    simp only [tokens, mem_cons, mem_append, mem_elementTokens, or_and_right, exists_or,
      exists_eq_left, ih]

/-- A reordering of the value of a text is the value of a text. -/
theorem exists_parseText {s : GoString} (hs : parseText s = some v) (h : Reorder v w) :
  ∃ s', parseText s' = some w
  := by
  rw [parseText_eq_some_iff] at hs
  obtain ⟨htext, hdepth⟩ := hs
  have hreadable : ∀ t ∈ tokens w, Readable t := by
    intro t ht
    exact exists_isText_iff.mp ⟨s, htext⟩ t ((h.mem_tokens_iff t).mpr ht)
  obtain ⟨s', hs'⟩ := exists_isText_iff.mpr hreadable
  exact ⟨s', parseText_eq_some_iff.mpr ⟨hs', h.depth_le_iff.mp hdepth⟩⟩

end Reorder

end GoJson
