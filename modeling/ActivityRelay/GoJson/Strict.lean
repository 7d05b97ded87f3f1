import ActivityRelay.GoJson.Reorder

/-!
# Decoding without unknown fields

A decoder of Go with `DisallowUnknownFields`, into structs of numbers, Booleans, strings, slices of
numbers and nested structs. An object with a member that has no field is an error.

For structs of strings and numbers, `Leafwise` says what is decoded: each member writes to some of
the leaves of the struct, and what is written last to a leaf counts. The result does not depend on
the order of the members if and only if all that is written to the same leaf is the same
(`Leafwise.reorder_iff`).
-/

namespace GoJson

open GoString List

/-! ### Decoders -/

/-- Into an `int`. -/
def decodeInt : Decoder ℤ
  | .number raw, old =>
      match parseInt raw with
      | some n => (n, true)
      | none => (old, false)
  | .null, old => (old, true)
  | _, old => (old, false)

/-- Into a Boolean. -/
def decodeBool : Decoder Bool
  | .bool b, _ => (b, true)
  | .null, old => (old, true)
  | _, old => (old, false)

/-- A slice with what is in its memory after its elements. -/
structure Slice (α : Type) where
  elements : List α
  spare : List α
  deriving DecidableEq

/-- Into the elements of the memory of a slice. -/
def decodeMemory {α : Type} (zero : α) (decoder : Decoder α) : List Json → List α → List α × Bool
  | [], _ => ([], true)
  | v :: elements, memory =>
      let first := decoder v (memory.headD zero)
      let others := decodeMemory zero decoder elements memory.tail
      (first.1 :: others.1, first.2 && others.2)

/-- Into a slice. The elements that are there are decoded into, and so is what is left in the memory
of a slice that was longer. -/
def decodeSlice {α : Type} (zero : α) (decoder : Decoder α) : Decoder (Slice α)
  | .array [], _ => (⟨[], []⟩, true)
  | .array elements, old =>
      let memory := old.elements ++ old.spare
      let r := decodeMemory zero decoder elements memory
      (⟨r.1, memory.drop elements.length⟩, r.2)
  | .null, _ => (⟨[], []⟩, true)
  | _, old => (old, false)

/-- One member of an object. -/
def decodeKnownMember {σ : Type} (fields : List (Field σ)) (r : σ × Bool) (m : GoString × Json) :
    σ × Bool :=
  match findField fields m.1 with
  | none => (r.1, false)
  | some f =>
      let r' := f.decoder m.2 r.1
      (r'.1, r.2 && r'.2)

/-- Into a struct, with `DisallowUnknownFields`. -/
def decodeKnownStruct {σ : Type} (fields : List (Field σ)) : Decoder σ
  | .object members, old => members.foldl (decodeKnownMember fields) (old, true)
  | .null, old => (old, true)
  | _, old => (old, false)

/-! ### Leaves -/

section Leaves

variable {σ L V : Type} (get : σ → L → V)

/-- What a decoder does: whether it accepts a value, and what it writes to each leaf, in order.
Neither depends on what was there before, and reordering a value only changes the order. -/
structure Leafwise (decoder : Decoder σ) where
  accepts : Json → Bool
  written : L → Json → List V
  accepts_eq : ∀ v old, (decoder v old).2 = accepts v
  written_eq : ∀ v old l, get (decoder v old).1 l = (written l v).getLast?.getD (get old l)
  accepts_reorder : ∀ {v w}, Reorder v w → accepts v = accepts w
  written_reorder : ∀ {v w}, Reorder v w → ∀ l, (written l v).Perm (written l w)
  written_last : ∀ {v l a}, a ∈ written l v →
    ∃ w, Reorder v w ∧ (written l w).getLast? = some a

/-- A field of a struct with the leaves it has. -/
structure LeafField extends Field σ where
  leafwise : Leafwise get decoder

variable {get} (fields : List (LeafField get))

/-- The field of a name. -/
def findLeafField (name : GoString) : Option (LeafField get) :=
  match fields.find? (fun f => f.name = name) with
  | some f => some f
  | none => fields.find? (fun f => foldName f.name = foldName name)

theorem findField_map (name : GoString) :
  findField (fields.map LeafField.toField) name =
    (findLeafField fields name).map LeafField.toField
  := by
  simp only [findField, findLeafField, List.find?_map, Function.comp_def]
  cases fields.find? (fun f => f.name = name) with
  | none | some => rfl

/-- Whether a member is accepted. -/
def memberAccepts (m : GoString × Json) : Bool :=
  match findLeafField fields m.1 with
  | none => false
  | some f => f.leafwise.accepts m.2

/-- What a member writes to a leaf. -/
def memberWritten (l : L) (m : GoString × Json) : List V :=
  match findLeafField fields m.1 with
  | none => []
  | some f => f.leafwise.written l m.2

def structAccepts : Json → Bool
  | .object members => members.all (memberAccepts fields)
  | .null => true
  | _ => false

def structWritten (l : L) : Json → List V
  | .object members => members.flatMap (memberWritten fields l)
  | _ => []

section Struct

variable (fields : List (LeafField get))

theorem decodeKnownMember_spec (r : σ × Bool) (m : GoString × Json) :
  (decodeKnownMember (fields.map LeafField.toField) r m).2 =
      (r.2 && memberAccepts fields m) ∧
    ∀ l, get (decodeKnownMember (fields.map LeafField.toField) r m).1 l =
      (memberWritten fields l m).getLast?.getD (get r.1 l)
  := by
  unfold decodeKnownMember memberAccepts memberWritten
  rw [findField_map]
  cases findLeafField fields m.1 with
  | none => simp
  | some f =>
    constructor
    · exact congrArg (r.2 && ·) (f.leafwise.accepts_eq _ _)
    · exact f.leafwise.written_eq _ _

theorem foldl_decodeKnownMember_spec (members : List (GoString × Json)) (r : σ × Bool) :
  (members.foldl (decodeKnownMember (fields.map LeafField.toField)) r).2 =
      (r.2 && members.all (memberAccepts fields)) ∧
    ∀ l, get (members.foldl (decodeKnownMember (fields.map LeafField.toField)) r).1 l =
      (members.flatMap (memberWritten fields l)).getLast?.getD (get r.1 l)
  := by
  induction members generalizing r with
  | nil => simp
  | cons m members ih =>
    obtain ⟨haccepts, hwritten⟩ := decodeKnownMember_spec fields r m
    obtain ⟨hall, hrest⟩ := ih (decodeKnownMember (fields.map LeafField.toField) r m)
    constructor
    · rw [foldl_cons, hall, haccepts, all_cons, Bool.and_assoc]
    · intro l
      rw [foldl_cons, hrest, hwritten, flatMap_cons, List.getLast?_append]
      cases (members.flatMap (memberWritten fields l)).getLast? with
      | none | some => rfl

variable {fields}

theorem memberAccepts_reorder (key : GoString) {v w : Json} (h : Reorder v w) :
  memberAccepts fields (key, v) = memberAccepts fields (key, w)
  := by
  unfold memberAccepts
  cases findLeafField fields key with
  | none => rfl
  | some f => exact f.leafwise.accepts_reorder h

theorem memberWritten_reorder (key : GoString) {v w : Json} (h : Reorder v w) (l : L) :
  (memberWritten fields l (key, v)).Perm (memberWritten fields l (key, w))
  := by
  unfold memberWritten
  cases findLeafField fields key with
  | none => exact .refl _
  | some f => exact f.leafwise.written_reorder h l

theorem memberWritten_last {m : GoString × Json} {l : L} {a : V}
    (h : a ∈ memberWritten fields l m) :
  ∃ w, Reorder m.2 w ∧ (memberWritten fields l (m.1, w)).getLast? = some a
  := by
  unfold memberWritten at h ⊢
  cases hfind : findLeafField fields m.1 with
  | none => simp [hfind] at h
  | some f =>
    simp only [hfind] at h ⊢
    exact f.leafwise.written_last h

theorem structAccepts_reorder {v w : Json} (h : Reorder v w) :
  structAccepts fields v = structAccepts fields w
  := by
  induction h with
  | refl | element => rfl
  | trans _ _ ih₁ ih₂ => exact ih₁.trans ih₂
  | members hperm => exact hperm.all_eq
  | member before key after h _ =>
    simp only [structAccepts, all_append, all_cons, memberAccepts_reorder key h]

theorem structWritten_reorder {v w : Json} (h : Reorder v w) (l : L) :
  (structWritten fields l v).Perm (structWritten fields l w)
  := by
  induction h with
  | refl | element before after _ _ => exact .refl _
  | trans _ _ ih₁ ih₂ => exact ih₁.trans ih₂
  | members hperm => exact hperm.flatMap_right _
  | member before key after h _ =>
    simp only [structWritten, flatMap_append, flatMap_cons]
    exact ((memberWritten_reorder key h l).append_right _).append_left _

/-- Any member that writes a field can be made the last one, which is the one that counts. -/
theorem structWritten_last {v : Json} {l : L} {a : V} (h : a ∈ structWritten fields l v) :
  ∃ w, Reorder v w ∧ (structWritten fields l w).getLast? = some a
  := by
  cases v with
  | object members =>
    obtain ⟨m, hm, ha⟩ := mem_flatMap.mp h
    obtain ⟨w, hreorder, hlast⟩ := memberWritten_last ha
    obtain ⟨before, after, rfl⟩ := append_of_mem hm
    refine ⟨.object (before ++ after ++ [(m.1, w)]), ?_, ?_⟩
    · have hperm : (before ++ m :: after).Perm (before ++ after ++ [m]) :=
        perm_middle.trans (perm_append_singleton m _).symm
      exact (Reorder.members hperm).trans (.member _ _ [] hreorder)
    · rw [structWritten, flatMap_append, List.getLast?_append, flatMap_singleton,
        hlast, Option.some_or]
  | _ => simp [structWritten] at h

variable (fields)

theorem decodeKnownStruct_accepts (v : Json) (old : σ) :
  (decodeKnownStruct (fields.map LeafField.toField) v old).2 = structAccepts fields v
  := by
  cases v with
  | object members => exact (foldl_decodeKnownMember_spec fields members (old, true)).1
  | _ => rfl

theorem decodeKnownStruct_written (v : Json) (old : σ) (l : L) :
  get (decodeKnownStruct (fields.map LeafField.toField) v old).1 l =
    (structWritten fields l v).getLast?.getD (get old l)
  := by
  cases v with
  | object members => exact (foldl_decodeKnownMember_spec fields members (old, true)).2 l
  | _ => rfl

/-- A struct of fields. -/
def Leafwise.struct : Leafwise get (decodeKnownStruct (fields.map LeafField.toField)) where
  accepts := structAccepts fields
  written := structWritten fields
  accepts_eq := decodeKnownStruct_accepts fields
  written_eq := decodeKnownStruct_written fields
  accepts_reorder := structAccepts_reorder
  written_reorder := structWritten_reorder
  written_last := structWritten_last

end Struct

/-! ### Scalars -/

/-- A decoder that reads a value, or leaves what was there. Arrays and objects are all alike. -/
structure Scalar {α : Type} (decoder : Decoder α) where
  read : Json → Option α × Bool
  decoder_eq : ∀ v old, decoder v old = ((read v).1.getD old, (read v).2)
  array_eq : ∀ elements elements', read (.array elements) = read (.array elements')
  object_eq : ∀ members members', read (.object members) = read (.object members')

namespace Scalar

variable {α : Type} {decoder : Decoder α} (s : Scalar decoder)

theorem read_reorder {v w : Json} (h : Reorder v w) :
  s.read v = s.read w
  := by
  induction h with
  | refl v => rfl
  | trans _ _ ih₁ ih₂ => exact ih₁.trans ih₂
  | members _ | member _ _ _ _ _ => exact s.object_eq _ _
  | element _ _ _ _ => exact s.array_eq _ _

variable (value : α → V)

theorem written_eq (v : Json) (old : α) :
  value (decoder v old).1 =
    ((s.read v).1.toList.map value).getLast?.getD (value old)
  := by
  rw [s.decoder_eq]
  cases (s.read v).1 with
  | none | some => rfl

theorem written_last {v : Json} {a : V} (h : a ∈ (s.read v).1.toList.map value) :
  ((s.read v).1.toList.map value).getLast? = some a
  := by
  cases hread : (s.read v).1 with
  | none => simp [hread] at h
  | some b =>
    rw [hread] at h
    rw [mem_singleton.mp h]
    rfl

/-- A scalar has one leaf. -/
def leafwise : Leafwise (fun a (_ : Unit) => value a) decoder where
  accepts v := (s.read v).2
  written _ v := (s.read v).1.toList.map value
  accepts_eq v old := congrArg Prod.snd (s.decoder_eq v old)
  written_eq v old _ := s.written_eq value v old
  accepts_reorder h := congrArg Prod.snd (s.read_reorder h)
  written_reorder h _ := .of_eq (congrArg (fun r => r.1.toList.map value) (s.read_reorder h))
  written_last h := ⟨_, .refl _, s.written_last value h⟩

end Scalar

def readString : Json → Option GoString × Bool
  | .string s => (some s, true)
  | .null => (none, true)
  | _ => (none, false)

theorem decodeString_eq (v : Json) (old : GoString) :
  decodeString v old = ((readString v).1.getD old, (readString v).2)
  := by
  cases v <;> rfl

def Scalar.string : Scalar decodeString where
  read := readString
  decoder_eq := decodeString_eq
  array_eq _ _ := rfl
  object_eq _ _ := rfl

def readInt : Json → Option ℤ × Bool
  | .number raw => (parseInt raw, (parseInt raw).isSome)
  | .null => (none, true)
  | _ => (none, false)

theorem decodeInt_eq (v : Json) (old : ℤ) :
  decodeInt v old = ((readInt v).1.getD old, (readInt v).2)
  := by
  cases v with
  | number raw =>
    rw [decodeInt, readInt]
    cases parseInt raw with
    | none | some => rfl
  | _ => rfl

def Scalar.int : Scalar decodeInt where
  read := readInt
  decoder_eq := decodeInt_eq
  array_eq _ _ := rfl
  object_eq _ _ := rfl

/-! ### Fields -/

section Part

variable {τ L' : Type} {get' : τ → L' → V}

variable (get get') in
/-- A part of a struct that has some of its leaves. -/
structure Part where
  view : σ → τ
  update : σ → τ → σ
  leaf : L → Option L'
  view_update : ∀ s t, view (update s t) = t
  get_some : ∀ s {l l'}, leaf l = some l' → get s l = get' (view s) l'
  get_none : ∀ s t {l}, leaf l = none → get (update s t) l = get s l

namespace Part

variable (part : Part get get') {decoder : Decoder τ} (d : Leafwise get' decoder)

def written (l : L) (v : Json) : List V :=
  match part.leaf l with
  | none => []
  | some l' => d.written l' v

theorem written_eq (name : String) (v : Json) (old : σ) (l : L) :
  get ((field name decoder part.view part.update).decoder v old).1 l =
    (part.written d l v).getLast?.getD (get old l)
  := by
  change get (part.update old (decoder v (part.view old)).1) l = _
  unfold written
  cases hleaf : part.leaf l with
  | none => exact part.get_none _ _ hleaf
  | some l' =>
    rw [part.get_some _ hleaf, part.view_update, d.written_eq, part.get_some old hleaf]

theorem written_reorder {v w : Json} (h : Reorder v w) (l : L) :
  (part.written d l v).Perm (part.written d l w)
  := by
  unfold written
  cases part.leaf l with
  | none => exact .refl _
  | some l' => exact d.written_reorder h l'

theorem written_last {v : Json} {l : L} {a : V} (h : a ∈ part.written d l v) :
  ∃ w, Reorder v w ∧ (part.written d l w).getLast? = some a
  := by
  unfold written at h ⊢
  cases hleaf : part.leaf l with
  | none => simp [hleaf] at h
  | some l' =>
    simp only [hleaf] at h ⊢
    exact d.written_last h

/-- The field of the part. -/
def leafField (name : String) : LeafField get where
  toField := field name decoder part.view part.update
  leafwise := {
    accepts := d.accepts
    written := part.written d
    accepts_eq := fun v old => d.accepts_eq v (part.view old)
    written_eq := part.written_eq d name
    accepts_reorder := d.accepts_reorder
    written_reorder := part.written_reorder d
    written_last := part.written_last d }

end Part

/-- A part that is one leaf. -/
def Part.single {α : Type} [DecidableEq L] {value : α → V} (leaf : L) (view : σ → α)
    (update : σ → α → σ) (view_update : ∀ s a, view (update s a) = a)
    (get_leaf : ∀ s, get s leaf = value (view s))
    (get_update : ∀ s a l, l ≠ leaf → get (update s a) l = get s l) :
    Part get (fun a (_ : Unit) => value a) where
  view := view
  update := update
  leaf l := if l = leaf then some () else none
  view_update := view_update
  get_some s l _ h := by
    obtain ⟨rfl, -⟩ := Option.ite_none_right_eq_some.mp h
    exact get_leaf s
  get_none s a l h := by
    have hne : l ≠ leaf := fun heq => Option.some_ne_none _ ((if_pos heq).symm.trans h)
    exact get_update s a l hne

end Part

/-! ### The order of members -/

/-- What a decoder returns if there is no error. -/
def decoded (decoder : Decoder σ) (zero : σ) (v : Json) : Option σ :=
  if (decoder v zero).2 then some (decoder v zero).1 else none

namespace Leafwise

variable {decoder : Decoder σ} (d : Leafwise get decoder)

/-- All that is written to the same leaf is the same. -/
def Agrees (v : Json) : Prop := ∀ l, ∀ a ∈ d.written l v, ∀ b ∈ d.written l v, a = b

theorem getLast?_eq {v w : Json} (hagrees : d.Agrees v) (h : Reorder v w) (l : L) :
  (d.written l w).getLast? = (d.written l v).getLast?
  := by
  have hperm := d.written_reorder h l
  cases hw : (d.written l w).getLast? with
  | none =>
    rw [List.getLast?_eq_none_iff] at hw
    rw [hw, perm_nil] at hperm
    rw [hperm, List.getLast?_nil]
  | some a =>
    cases hv : (d.written l v).getLast? with
    | none =>
      rw [List.getLast?_eq_none_iff] at hv
      rw [hv, nil_perm] at hperm
      simp [hperm] at hw
    | some b =>
      have ha := hperm.mem_iff.mpr (mem_of_getLast? hw)
      rw [hagrees l a ha b (mem_of_getLast? hv)]

/-- The result does not depend on the order of the members of an accepted value if and only if all
that is written to the same leaf is the same. -/
theorem reorder_iff (hget : Function.Injective get) (zero : σ) (v : Json) :
  (∀ w, Reorder v w → decoded decoder zero w = decoded decoder zero v) ↔
    (d.accepts v = true → d.Agrees v)
  := by
  constructor
  · intro h haccepts l a ha b hb
    obtain ⟨w, hw, hlast⟩ := d.written_last ha
    obtain ⟨w', hw', hlast'⟩ := d.written_last hb
    have hvalue : ∀ {u c}, Reorder v u → (d.written l u).getLast? = some c →
        c = get (decoder v zero).1 l := by
      intro u c hu hc
      have heq := h u hu
      rw [decoded, decoded, d.accepts_eq, d.accepts_eq, ← d.accepts_reorder hu, if_pos haccepts,
        if_pos haccepts, Option.some.injEq] at heq
      rw [← heq, d.written_eq, hc, Option.getD_some]
    rw [hvalue hw hlast, hvalue hw' hlast']
  · intro h w hw
    rw [decoded, decoded, d.accepts_eq, d.accepts_eq, ← d.accepts_reorder hw]
    split_ifs with haccepts
    · rw [Option.some.injEq]
      apply hget
      funext l
      rw [d.written_eq, d.written_eq, d.getLast?_eq (h haccepts) hw]
    · rfl

end Leafwise

end Leaves

end GoJson
