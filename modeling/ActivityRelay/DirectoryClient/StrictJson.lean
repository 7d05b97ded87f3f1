import ActivityRelay.GoJson.Strict

/-!
# The strict JSON of the directory client

The client of a directory accepts a body only if it is one JSON text in which no object has two
members with the same name, and which has no member that is unknown. Names are compared as they are
when repeated ones are looked for, but members are matched with fields without regard to case. So a
document can have two values for one field after all, and then it depends on the order of its
members which of them counts.
-/

namespace DirectoryClient

open GoString GoJson List

/-! ### Repeated names -/

mutual

/-- The function `scan` of `duplicateJSONName`: `none` if it returns true, and otherwise the tokens
that are left. A token that is a number is an error if it is out of the range of `float64`. -/
def scan : (fuel : ℕ) → List Token → Option (List Token)
  | 0, _ => none
  | fuel + 1, .openBrace :: ts => scanMembers fuel [] ts
  | fuel + 1, .openBracket :: ts => scanElements fuel ts
  | _ + 1, .number raw :: ts => if floatInRange raw then some ts else none
  | _ + 1, .string _ :: ts => some ts
  | _ + 1, .bool _ :: ts => some ts
  | _ + 1, .null :: ts => some ts
  | _ + 1, _ => none

/-- The loop over the members of an object, with the names so far. -/
def scanMembers : (fuel : ℕ) → (seen : List GoString) → List Token → Option (List Token)
  | 0, _, _ => none
  | fuel + 1, seen, .string name :: ts =>
      if name ∈ seen then none else (scan fuel ts).bind (scanMembers fuel (name :: seen))
  | _ + 1, _, .closeBrace :: ts => some ts
  | _ + 1, _, _ => none

/-- The loop over the elements of an array. -/
def scanElements : (fuel : ℕ) → List Token → Option (List Token)
  | 0, _ => none
  | _ + 1, .closeBracket :: ts => some ts
  | fuel + 1, ts => (scan fuel ts).bind (scanElements fuel)

end

/-- `duplicateJSONName`. The tokens are those of `Decoder.Token`, which passes over commas and
colons. That it fails where they are misplaced is left out, since only valid texts are scanned. -/
def duplicateJSONName (body : GoString) : Bool :=
  match lexFrom .between body with
  | none => true
  | some ts =>
      let ts := withoutPunctuation ts
      match scan ts.length ts with
      | none => true
      | some rest => !rest.isEmpty

/-! ### Values -/

/-- The text is scanned to the end of the value without an error. -/
def Scans (v : Json) : Prop :=
  ∀ fuel ts, (tokens v).length ≤ fuel →
    scan fuel (tokens v ++ ts) = if distinctNames v && floatsInRange v then some ts else none

theorem tokens_length_pos (v : Json) :
  0 < (tokens v).length
  := by
  cases v <;> simp [tokens]

theorem scanElements_elementTokens {elements : List Json} (h : ∀ v ∈ elements, Scans v) {fuel : ℕ}
    (hfuel : (elementTokens elements).length < fuel) (ts : List Token) :
  scanElements fuel (elementTokens elements ++ .closeBracket :: ts) =
    if elementsDistinct elements && elementsInRange elements then some ts else none
  := by
  induction elements generalizing fuel with
  | nil =>
    obtain ⟨fuel, rfl⟩ := Nat.exists_eq_add_of_lt hfuel
    rfl
  | cons v elements ih =>
    rw [forall_mem_cons] at h
    rw [elementTokens, length_append] at hfuel
    obtain ⟨fuel, rfl⟩ : ∃ n, fuel = n + 1 := Nat.exists_eq_succ_of_ne_zero (by omega)
    have hpos := tokens_length_pos v
    have hstep : scanElements (fuel + 1)
        (elementTokens (v :: elements) ++ .closeBracket :: ts) =
        (scan fuel (tokens v ++ (elementTokens elements ++ .closeBracket :: ts))).bind
          (scanElements fuel) := by
      rw [elementTokens, append_assoc]
      cases v <;> rfl
    rw [hstep, h.1 _ _ (by omega), elementsDistinct, elementsInRange]
    cases hv : distinctNames v && floatsInRange v with
    | false =>
      rw [Bool.and_eq_false_iff] at hv
      rcases hv with hv | hv <;> simp [hv]
    | true =>
      rw [Bool.and_eq_true] at hv
      rw [if_pos rfl, Option.bind_some, ih h.2 (by omega), hv.1, hv.2, Bool.true_and,
        Bool.true_and]

theorem scanMembers_memberTokens {members : List (GoString × Json)} (h : ∀ m ∈ members, Scans m.2)
    {fuel : ℕ} (hfuel : (memberTokens members).length < fuel) (seen : List GoString)
    (ts : List Token) :
  scanMembers fuel seen (memberTokens members ++ .closeBrace :: ts) =
    if (∀ m ∈ members, m.1 ∉ seen) ∧ (members.map Prod.fst).Nodup ∧
        membersDistinct members = true ∧ membersInRange members = true then some ts else none
  := by
  induction members generalizing fuel seen with
  | nil =>
    obtain ⟨fuel, rfl⟩ := Nat.exists_eq_add_of_lt hfuel
    rfl
  | cons m members ih =>
    obtain ⟨name, v⟩ := m
    simp only [forall_mem_cons] at h
    rw [memberTokens, length_cons, length_append] at hfuel
    obtain ⟨fuel, rfl⟩ : ∃ n, fuel = n + 1 := Nat.exists_eq_succ_of_ne_zero (by omega)
    rw [memberTokens, cons_append, append_assoc, scanMembers, h.1 _ _ (by omega)]
    simp only [forall_mem_cons, map_cons, nodup_cons, membersDistinct,
      membersInRange, Bool.and_eq_true]
    by_cases hseen : name ∈ seen
    · simp [hseen]
    rw [if_neg hseen]
    by_cases hv : distinctNames v = true ∧ floatsInRange v = true
    · have hnames : (∀ m ∈ members, m.1 ∉ name :: seen) ↔
          (∀ m ∈ members, m.1 ∉ seen) ∧ name ∉ members.map Prod.fst := by
        simp only [mem_cons, not_or, mem_map, not_exists, not_and]
        constructor
        · intro h
          exact ⟨fun m hm => (h m hm).2, fun m hm => (h m hm).1⟩
        · rintro ⟨hother, hname⟩ m hm
          exact ⟨hname m hm, hother m hm⟩
      rw [if_pos hv, Option.bind_some, ih h.2 (by omega)]
      simp only [hnames, hseen, hv, not_false_eq_true, true_and, and_assoc]
    · rw [if_neg hv, Option.bind_none, if_neg]
      tauto

theorem scans (v : Json) :
  Scans v
  := by
  induction v using Json.induct with
  | null | bool b | string s | number =>
    intro fuel ts hfuel
    obtain ⟨fuel, rfl⟩ := Nat.exists_eq_add_of_le' hfuel
    rfl
  | array elements ih =>
    intro fuel ts hfuel
    rw [tokens, length_cons, length_append, length_singleton] at hfuel
    obtain ⟨fuel, rfl⟩ : ∃ n, fuel = n + 1 := Nat.exists_eq_succ_of_ne_zero (by omega)
    rw [tokens, cons_append, append_assoc, scan]
    exact scanElements_elementTokens ih (by omega) ts
  | object members ih =>
    intro fuel ts hfuel
    rw [tokens, length_cons, length_append, length_singleton] at hfuel
    obtain ⟨fuel, rfl⟩ : ∃ n, fuel = n + 1 := Nat.exists_eq_succ_of_ne_zero (by omega)
    rw [tokens, cons_append, append_assoc, scan, singleton_append,
      scanMembers_memberTokens ih (by omega), distinctNames, floatsInRange]
    simp only [not_mem_nil, not_false_eq_true, implies_true, true_and, Bool.and_eq_true,
      decide_eq_true_eq, and_assoc]

variable {body : GoString} {v : Json}

/-- Repeated names are found exactly in the texts that have them, or a number out of range. -/
theorem duplicateJSONName_of_isText (h : IsText body v) :
  duplicateJSONName body = !(distinctNames v && floatsInRange v)
  := by
  have hscan := scans v (tokens v).length [] le_rfl
  rw [append_nil] at hscan
  rw [IsText] at h
  unfold duplicateJSONName
  simp only [h, withoutPunctuation_spelling, hscan]
  cases distinctNames v && floatsInRange v with
  | false | true => rfl

theorem duplicateJSONName_eq (h : parseText body = some v) :
  duplicateJSONName body = !(distinctNames v && floatsInRange v)
  := duplicateJSONName_of_isText (parseText_eq_some_iff.mp h).1

/-- In a text whose numbers fit a `float64`, a repeated name is found exactly if an object, at any
depth, has two members with the same name. -/
theorem duplicateJSONName_eq_true_iff {body : GoString} {v : Json} (htext : IsText body v)
    (hnumbers : ∀ raw, Occurs (.number raw) v → floatInRange raw = true) :
  duplicateJSONName body = true ↔
    ∃ members, Occurs (.object members) v ∧ RepeatedName members
  := by
  have hrange := (floatsInRange_eq_true_iff v).mpr hnumbers
  rw [duplicateJSONName_of_isText htext, hrange, Bool.and_true, Bool.not_eq_true',
    distinctNames_eq_false_iff]

/-- Names are compared as they are decoded, also if one of them is written with an escape. -/
theorem duplicateJSONName_escaped :
  duplicateJSONName (lit "[\x7b\"a\": 1, \"b\": \x7b\x7d, \"\\u0061\": 2\x7d]") = true ∧
    ∃ members,
      Occurs (.object members)
        (.array [.object [(lit "a", .number (lit "1")), (lit "b", .object []),
          (lit "a", .number (lit "2"))]]) ∧
      RepeatedName members
  := by
  have hfound : duplicateJSONName
      (lit "[\x7b\"a\": 1, \"b\": \x7b\x7d, \"\\u0061\": 2\x7d]") = true := by
    decide +kernel
  have htext : IsText (lit "[\x7b\"a\": 1, \"b\": \x7b\x7d, \"\\u0061\": 2\x7d]")
      (.array [.object [(lit "a", .number (lit "1")), (lit "b", .object []),
        (lit "a", .number (lit "2"))]]) := rfl
  refine ⟨hfound, (duplicateJSONName_eq_true_iff htext ?_).mp hfound⟩
  rw [← floatsInRange_eq_true_iff]
  decide +kernel

/-! ### Decoding -/

/-- `decodeStrictJSON`, with `none` for an error. A text that is valid is one value, so there is
nothing after it that could be decoded. -/
def decodeStrictJSON {σ : Type} (decoder : Decoder σ) (zero : σ) (body : GoString) : Option σ :=
  match parseText body with
  | none => none
  | some v => if duplicateJSONName body then none else decoded decoder zero v

theorem decodeStrictJSON_eq {σ : Type} (decoder : Decoder σ) (zero : σ)
    (h : parseText body = some v) :
  decodeStrictJSON decoder zero body =
    if distinctNames v && floatsInRange v then decoded decoder zero v else none
  := by
  unfold decodeStrictJSON
  simp only [h, duplicateJSONName_eq h]
  cases distinctNames v && floatsInRange v with
  | false | true => rfl

end DirectoryClient
