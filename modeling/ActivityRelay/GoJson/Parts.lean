import ActivityRelay.GoJson.Decode
import ActivityRelay.GoJson.Tokens

/-!
# The parts of a value

`Occurs w v` says that `w` is `v` or a part of it, at any depth. What is computed by recursion over
a value is a condition on all that occurs in it (`distinctNames_eq_true_iff`,
`floatsInRange_eq_true_iff`).
-/

namespace GoJson

open GoString List

/-! ### Names and numbers -/

mutual

/-- No object of the value has two members with the same name. -/
def distinctNames : Json → Bool
  | .array elements => elementsDistinct elements
  | .object members => decide (members.map Prod.fst).Nodup && membersDistinct members
  | .null | .bool _ | .number _ | .string _ => true

def elementsDistinct : List Json → Bool
  | [] => true
  | v :: elements => distinctNames v && elementsDistinct elements

def membersDistinct : List (GoString × Json) → Bool
  | [] => true
  | (_, v) :: members => distinctNames v && membersDistinct members

end

theorem elementsDistinct_eq (elements : List Json) :
  elementsDistinct elements = elements.all distinctNames
  := by
  induction elements with
  | nil => rfl
  | cons v elements ih => rw [elementsDistinct, ih, all_cons]

variable (members : List (GoString × Json))

theorem membersDistinct_eq :
  membersDistinct members = members.all (fun m => distinctNames m.2)
  := by
  induction members with
  | nil => rfl
  | cons m members ih => rw [membersDistinct, ih, all_cons]

theorem elementsInRange_eq (elements : List Json) :
  elementsInRange elements = elements.all floatsInRange
  := by
  induction elements with
  | nil => rfl
  | cons v elements ih => rw [elementsInRange, ih, all_cons]

theorem membersInRange_eq :
  membersInRange members = members.all (fun m => floatsInRange m.2)
  := by
  induction members with
  | nil => rfl
  | cons m members ih => rw [membersInRange, ih, all_cons]

/-! ### Occurrences -/

/-- The values that a value is made of. -/
def parts : Json → List Json
  | .array elements => elements
  | .object members => members.map Prod.snd
  | .null | .bool _ | .number _ | .string _ => []

/-- What holds for a value if it holds for what the value is made of holds for all values. -/
theorem Json.induct_parts {P : Json → Prop} (h : ∀ v, (∀ u ∈ parts v, P u) → P v) (v : Json) :
  P v
  := by
  induction v using Json.induct with
  | null | bool b | number raw | string s => exact h _ (by simp [parts])
  | array elements ih => exact h _ ih
  | object members ih => exact h _ (forall_mem_map.mpr ih)

/-- The first value is the second or a part of it, at any depth. -/
inductive Occurs (w : Json) : Json → Prop
  | here : Occurs w w
  | inside {u v : Json} (hu : u ∈ parts v) (h : Occurs w u) : Occurs w v

/-- What holds for a value if a condition holds for it, and if it holds for what the value is made
of, holds if the condition holds for all that occurs in the value. -/
theorem iff_forall_occurs {P C : Json → Prop} (h : ∀ v, P v ↔ C v ∧ ∀ u ∈ parts v, P u) (v : Json) :
  P v ↔ ∀ w, Occurs w v → C w
  := by
  constructor
  · intro hv w hoccurs
    induction hoccurs with
    | here => exact ((h w).mp hv).1
    | inside hu _ ih => exact ih (((h _).mp hv).2 _ hu)
  · induction v using Json.induct_parts with
    | h v ih =>
      intro hall
      refine (h v).mpr ⟨hall v .here, ?_⟩
      intro u hu
      exact ih u hu (fun w hw => hall w (.inside hu hw))

/-- No two members of an object in the value have the same name. -/
theorem distinctNames_eq_true_iff (v : Json) :
  distinctNames v = true ↔
    ∀ members, Occurs (.object members) v → (members.map Prod.fst).Nodup
  := by
  have hparts : ∀ v, distinctNames v = true ↔
      (∀ members, v = .object members → (members.map Prod.fst).Nodup) ∧
        ∀ u ∈ parts v, distinctNames u = true := by
    intro v
    cases v with
    | object members =>
      simp only [distinctNames, parts, membersDistinct_eq, forall_mem_map, all_eq_true,
        Bool.and_eq_true, decide_eq_true_eq, Json.object.injEq, forall_eq']
    | _ => simp [distinctNames, parts, elementsDistinct_eq]
  rw [iff_forall_occurs hparts v]
  constructor
  · intro h members hoccurs
    exact h _ hoccurs members rfl
  · rintro h w hoccurs members rfl
    exact h members hoccurs

/-- Two members of an object have the same name. -/
def RepeatedName : Prop :=
  ∃ i j : Fin members.length, i < j ∧ (members.get i).1 = (members.get j).1

theorem repeatedName_iff {members : List (GoString × Json)} :
  RepeatedName members ↔ ¬ (members.map Prod.fst).Nodup
  := by
  rw [List.Nodup, pairwise_map, pairwise_iff_get, RepeatedName]
  push Not
  rfl

theorem distinctNames_eq_false_iff (v : Json) :
  distinctNames v = false ↔ ∃ members, Occurs (.object members) v ∧ RepeatedName members
  := by
  rw [← Bool.not_eq_true, distinctNames_eq_true_iff]
  push Not
  simp only [repeatedName_iff]

/-- All numbers in the value fit a `float64`. -/
theorem floatsInRange_eq_true_iff (v : Json) :
  floatsInRange v = true ↔ ∀ raw, Occurs (.number raw) v → floatInRange raw = true
  := by
  have hparts : ∀ v, floatsInRange v = true ↔
      (∀ raw, v = .number raw → floatInRange raw = true) ∧
        ∀ u ∈ parts v, floatsInRange u = true := by
    intro v
    cases v with
    | object members =>
      simp only [floatsInRange, parts, membersInRange_eq, forall_mem_map, all_eq_true,
        reduceCtorEq, false_implies, implies_true, true_and]
    | _ => simp [floatsInRange, parts, elementsInRange_eq]
  rw [iff_forall_occurs hparts v]
  constructor
  · intro h raw hoccurs
    exact h _ hoccurs raw rfl
  · rintro h w hoccurs raw rfl
    exact h raw hoccurs

end GoJson
