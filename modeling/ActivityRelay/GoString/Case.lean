import ActivityRelay.GoString.Utf8

/-!
# Lower case

`strings.ToLower` maps `unicode.ToLower` over the runes of a string. Below `runeSelf` the
map is the ASCII one; above it is a table of the Unicode data, which is a parameter here,
with the properties of the data that the development rests on.

A byte is *special* if it is ASCII and not a letter. Lowering a string keeps the special
bytes and where they stand: a special byte is in, at the start of, or at the end of the
lowered string exactly when it is in the string, and lowering splits at it. So it commutes
with everything that cuts a string at separators.
-/

namespace GoString

open List

/-- The lower case of the runes above ASCII, with what is used of the Unicode data: lower
case is a rune, is not an ASCII byte other than a lower-case letter (the Kelvin sign
becomes `k`), and is stable. -/
structure CaseTable where
  lower : ℕ → ℕ
  rune : ∀ r, runeSelf ≤ r → IsRune r → IsRune (lower r)
  letter : ∀ r, runeSelf ≤ r → runeSelf ≤ lower r ∨ 0x61 ≤ lower r ∧ lower r ≤ 0x7A
  stable : ∀ r, runeSelf ≤ r → runeSelf ≤ lower r → lower (lower r) = lower r

/-- The table that keeps every rune above ASCII. -/
def CaseTable.identity : CaseTable where
  lower r := r
  rune _ _ h := h
  letter _ h := .inl h
  stable _ _ _ := rfl

/-- The lower case of an ASCII byte; other bytes stay. -/
def lowerByte (b : UInt8) : UInt8 :=
  if 0x41 ≤ b.toNat ∧ b.toNat ≤ 0x5A then b + 0x20 else b

/-- `unicode.ToLower`. -/
def CaseTable.toLowerRune (U : CaseTable) (r : ℕ) : ℕ :=
  if r < runeSelf then (if 0x41 ≤ r ∧ r ≤ 0x5A then r + 0x20 else r) else U.lower r

def toLower (U : CaseTable) (s : GoString) : GoString :=
  encode ((decode s).map U.toLowerRune)

/-- An ASCII byte that is not a letter. -/
def Special (x : UInt8) : Prop :=
  x.toNat < runeSelf ∧ ¬ (0x41 ≤ x.toNat ∧ x.toNat ≤ 0x5A) ∧
    ¬ (0x61 ≤ x.toNat ∧ x.toNat ≤ 0x7A)

instance : DecidablePred Special := fun _ => inferInstanceAs (Decidable (_ ∧ _))

variable {U : CaseTable} {x : UInt8}

theorem lowerByte_toNat (b : UInt8) :
  (lowerByte b).toNat = if 0x41 ≤ b.toNat ∧ b.toNat ≤ 0x5A then b.toNat + 0x20 else b.toNat
  := by
  unfold lowerByte
  split
  · rw [UInt8.toNat_add]
    simp only [UInt8.reduceToNat]
    omega
  · rfl

theorem lowerByte_special (hx : Special x) :
  lowerByte x = x
  := if_neg hx.2.1

/-- Lowering neither makes nor unmakes a special byte. -/
theorem lowerByte_eq_special {b : UInt8} (hx : Special x) :
  lowerByte b = x ↔ b = x
  := by
  constructor
  · intro h
    have hb := lowerByte_toNat b
    rw [h] at hb
    apply UInt8.toNat_inj.mp
    unfold Special runeSelf at hx
    split at hb
    · omega
    · exact hb.symm
  · rintro rfl
    apply lowerByte_special hx

/-! ### Lowering, rune by rune -/

@[simp]
theorem toLower_nil :
  toLower U [] = []
  := rfl

theorem encode_toLowerRune_ascii {a : UInt8} (ha : a.toNat < runeSelf) :
  encodeRune (U.toLowerRune a.toNat) = [lowerByte a]
  := by
  have hlt : (lowerByte a).toNat < runeSelf := by
    rw [lowerByte_toNat]
    unfold runeSelf at *
    split <;> omega
  have heq : U.toLowerRune a.toNat = (lowerByte a).toNat := by
    rw [lowerByte_toNat, CaseTable.toLowerRune, if_pos ha]
  rw [heq, encodeRune_ascii hlt]
  simp

/-- Lowering splits at an ASCII byte. -/
theorem toLower_append_ascii {c : UInt8} (hc : c.toNat < runeSelf) (s t : GoString) :
  toLower U (s ++ c :: t) = toLower U s ++ lowerByte c :: toLower U t
  := by
  simp only [toLower, decode_append_ascii hc, encode, map_append, map_cons,
    flatMap_append, flatMap_cons, encode_toLowerRune_ascii hc, singleton_append]

theorem toLower_cons_ascii {c : UInt8} (hc : c.toNat < runeSelf) (t : GoString) :
  toLower U (c :: t) = lowerByte c :: toLower U t
  := toLower_append_ascii hc [] t

/-- The lower case of an ASCII string. -/
theorem toLower_ascii {s : GoString} (hs : ∀ b ∈ s, b.toNat < runeSelf) :
  toLower U s = s.map lowerByte
  := by
  induction s with
  | nil => apply toLower_nil
  | cons b s ih =>
    rw [forall_mem_cons] at hs
    rw [toLower_cons_ascii hs.1, ih hs.2, map_cons]

/-- Lowering splits at a special byte, which stays. -/
theorem toLower_append_special (hx : Special x) (s t : GoString) :
  toLower U (s ++ x :: t) = toLower U s ++ x :: toLower U t
  := by
  rw [toLower_append_ascii hx.1, lowerByte_special hx]

/-- The lower case of a rune above ASCII is written without special bytes. -/
theorem encode_toLowerRune_other {r : ℕ} (hr : runeSelf ≤ r) :
  encodeRune (U.toLowerRune r) ≠ [] ∧ ∀ b ∈ encodeRune (U.toLowerRune r), ¬ Special b
  := by
  rw [CaseTable.toLowerRune, if_neg (by omega)]
  by_cases h : runeSelf ≤ U.lower r
  · obtain ⟨hne, hb⟩ := encodeRune_nonascii h
    use hne
    intro b hmem hs
    have := hb b hmem
    have := hs.1
    omega
  · obtain hl := (U.letter r hr).resolve_left h
    have hlt : U.lower r < 256 := by omega
    rw [encodeRune_ascii (by omega)]
    constructor
    · simp
    · intro b hb hs
      rw [mem_singleton] at hb
      obtain ⟨-, -, hnot⟩ := hs
      rw [hb, toNat_toUInt8 hlt] at hnot
      apply hnot hl

/-- A string that does not start with an ASCII byte starts with bytes that are not special
and that are lowered to bytes that are not special, apart from the rest. -/
theorem toLower_cons_other {a : UInt8} (ha : ¬ a.toNat < runeSelf) (s : GoString) :
  ∃ u u' s', a :: s = u ++ s' ∧ toLower U (a :: s) = u' ++ toLower U s' ∧ u ≠ [] ∧ u' ≠ [] ∧
    (∀ b ∈ u, ¬ Special b) ∧ (∀ b ∈ u', ¬ Special b)
  := by
  have notSpecial : ∀ b : UInt8, runeSelf ≤ b.toNat → ¬ Special b := by
    intro b hb hs
    have := hs.1
    omega
  cases hm : multi a s with
  | none =>
    obtain ⟨hne, hb⟩ := encode_toLowerRune_other (U := U) (r := runeError) (by decide)
    use [a], encodeRune (U.toLowerRune runeError), s
    refine ⟨rfl, ?_, by simp, hne, ?_, hb⟩
    · simp only [toLower, decode_cons, if_neg ha, hm, encode, map_cons, flatMap_cons]
    · intro b hb
      rw [mem_singleton] at hb
      subst hb
      apply notSpecial
      omega
  | some p =>
    obtain ⟨r, s'⟩ := p
    obtain ⟨hr, -, u, rfl, hu⟩ := multi_spec hm
    obtain ⟨hne, hb⟩ := encode_toLowerRune_other (U := U) hr
    use a :: u, encodeRune (U.toLowerRune r), s'
    refine ⟨rfl, ?_, by simp, hne, ?_, hb⟩
    · simp only [toLower, decode_cons, if_neg ha, hm, encode, map_cons, flatMap_cons]
    · intro b hb
      apply notSpecial
      rcases mem_cons.mp hb with rfl | hb
      · omega
      · apply hu b hb

/-- Induction along the runes of a string: what holds of the empty string, is kept by an
ASCII byte in front, and is kept by bytes in front that are not special and are lowered to
such, holds of every string and its lower case. -/
theorem toLower_induction {P : GoString → GoString → Prop} (nil : P [] [])
    (ascii : ∀ c s, c.toNat < runeSelf → P s (toLower U s) →
      P (c :: s) (lowerByte c :: toLower U s))
    (other : ∀ u u' s, u ≠ [] → u' ≠ [] → (∀ b ∈ u, ¬ Special b) → (∀ b ∈ u', ¬ Special b) →
      P s (toLower U s) → P (u ++ s) (u' ++ toLower U s)) :
  ∀ s : GoString, P s (toLower U s)
  | [] => nil
  | a :: s => by
      by_cases ha : a.toNat < runeSelf
      · rw [toLower_cons_ascii ha]
        apply ascii a s ha
        apply toLower_induction nil ascii other
      · obtain ⟨u, u', s', hs, hl, hu, hu', hb, hb'⟩ := toLower_cons_other (U := U) ha s
        have hlen : s'.length < (a :: s).length := by
          rw [hs, length_append]
          have := length_pos_of_ne_nil hu
          omega
        rw [hl, hs]
        apply other u u' s' hu hu' hb hb'
        apply toLower_induction nil ascii other s'
  termination_by s => s.length
  decreasing_by
  · exact Nat.lt_succ_self _
  · exact hlen

/-! ### Special bytes -/

theorem mem_toLower_special (hx : Special x) (s : GoString) :
  x ∈ toLower U s ↔ x ∈ s
  := by
  apply toLower_induction (P := fun s s' => x ∈ s' ↔ x ∈ s)
  · simp
  · intro c s hc ih
    rw [mem_cons, mem_cons, ih, eq_comm, lowerByte_eq_special hx, eq_comm]
  · intro u u' s hu hu' hb hb' ih
    rw [mem_append, mem_append, ih]
    tauto

theorem head?_toLower_special (hx : Special x) (s : GoString) :
  (toLower U s).head? = some x ↔ s.head? = some x
  := by
  apply toLower_induction (P := fun s s' => s'.head? = some x ↔ s.head? = some x)
  · simp
  · intro c s hc ih
    simp only [List.head?_cons, Option.some.injEq]
    apply lowerByte_eq_special hx
  · intro u u' s hu hu' hb hb' ih
    rw [List.head?_append_of_ne_nil _ hu, List.head?_append_of_ne_nil _ hu']
    constructor
    · intro h
      exact absurd hx (hb' x (mem_of_mem_head? h))
    · intro h
      exact absurd hx (hb x (mem_of_mem_head? h))

theorem toLower_eq_nil (s : GoString) :
  toLower U s = [] ↔ s = []
  := by
  apply toLower_induction (P := fun s s' => s' = [] ↔ s = [])
  · simp
  · intro c s hc ih
    simp
  · intro u u' s hu hu' hb hb' ih
    simp [hu, hu']

theorem getLast?_toLower_special (hx : Special x) (s : GoString) :
  (toLower U s).getLast? = some x ↔ s.getLast? = some x
  := by
  apply toLower_induction (P := fun s s' => s'.getLast? = some x ↔ s.getLast? = some x)
  · simp
  · intro c s hc ih
    cases s with
    | nil =>
      simp only [toLower_nil, List.getLast?_singleton, Option.some.injEq]
      apply lowerByte_eq_special hx
    | cons d s =>
      have hne : toLower U (d :: s) ≠ [] := by simp [toLower_eq_nil]
      obtain ⟨e, s', hs'⟩ := exists_cons_of_ne_nil hne
      rw [hs', List.getLast?_cons_cons, ← hs', List.getLast?_cons_cons]
      apply ih
  · intro u u' s hu hu' hb hb' ih
    by_cases hs : s = []
    · subst hs
      simp only [toLower_nil, append_nil]
      constructor
      · intro h
        exact absurd hx (hb' x (mem_of_getLast? h))
      · intro h
        exact absurd hx (hb x (mem_of_getLast? h))
    · have hs' : toLower U s ≠ [] := by simpa [toLower_eq_nil] using hs
      rw [List.getLast?_append_of_ne_nil _ hs, List.getLast?_append_of_ne_nil _ hs']
      apply ih

/-- Lowering keeps the number of special bytes of any kind. -/
theorem countP_toLower {P : UInt8 → Bool} (hP : ∀ b, P b = true → Special b) (s : GoString) :
  (toLower U s).countP P = s.countP P
  := by
  apply toLower_induction (P := fun s s' => s'.countP P = s.countP P)
  · rfl
  · intro c s hc ih
    have hbyte : P (lowerByte c) = P c := by
      rw [Bool.eq_iff_iff]
      constructor
      · intro h
        rwa [(lowerByte_eq_special (hP _ h)).mp rfl]
      · intro h
        rwa [lowerByte_special (hP _ h)]
    rw [countP_cons, countP_cons, ih, hbyte]
  · intro u u' s hu hu' hb hb' ih
    have hzero : ∀ w : GoString, (∀ b ∈ w, ¬ Special b) → w.countP P = 0 := by
      intro w hw
      rw [countP_eq_zero]
      exact fun b hb h => hw b hb (hP b h)
    rw [countP_append, countP_append, hzero u hb, hzero u' hb', ih]

/-- A string of special bytes is its own lower case, and only such a string is lowered to
one. -/
theorem toLower_all_special {Q : UInt8 → Prop} (hQ : ∀ b, Q b → Special b) (s : GoString) :
  (∀ b ∈ toLower U s, Q b) ↔ ∀ b ∈ s, Q b
  := by
  apply toLower_induction (P := fun s s' => (∀ b ∈ s', Q b) ↔ ∀ b ∈ s, Q b)
  · simp
  · intro c s hc ih
    rw [forall_mem_cons, forall_mem_cons, ih]
    have hcQ : Q (lowerByte c) ↔ Q c := by
      constructor
      · intro h
        have : c = lowerByte c := (lowerByte_eq_special (hQ _ h)).mp rfl
        rw [this]
        apply h
      · intro h
        rw [lowerByte_special (hQ _ h)]
        apply h
    rw [hcQ]
  · intro u u' s hu hu' hb hb' ih
    obtain ⟨b, hbu⟩ := exists_mem_of_ne_nil u hu
    obtain ⟨b', hbu'⟩ := exists_mem_of_ne_nil u' hu'
    constructor
    · intro h
      exact absurd (hQ _ (h b' (mem_append_left _ hbu'))) (hb' b' hbu')
    · intro h
      exact absurd (hQ _ (h b (mem_append_left _ hbu))) (hb b hbu)

/-! ### Lowering twice -/

theorem isRune_toLowerRune {r : ℕ} (hr : IsRune r) :
  IsRune (U.toLowerRune r)
  := by
  unfold CaseTable.toLowerRune
  split_ifs with hself hupper
  · unfold IsRune
    omega
  · exact hr
  · exact U.rune r (not_lt.mp hself) hr

theorem toLowerRune_toLowerRune (r : ℕ) :
  U.toLowerRune (U.toLowerRune r) = U.toLowerRune r
  := by
  by_cases hself : r < runeSelf
  · have hlower : U.toLowerRune r = if 0x41 ≤ r ∧ r ≤ 0x5A then r + 0x20 else r := if_pos hself
    have hself' : U.toLowerRune r < runeSelf := by
      rw [hlower]
      unfold runeSelf at *
      split_ifs <;> omega
    rw [CaseTable.toLowerRune, if_pos hself', if_neg]
    rw [hlower]
    split_ifs <;> omega
  · have hlower : U.toLowerRune r = U.lower r := if_neg hself
    rw [hlower]
    obtain hlarge | hletter := U.letter r (not_lt.mp hself)
    · rw [CaseTable.toLowerRune, if_neg (not_lt.mpr hlarge), U.stable r (not_lt.mp hself) hlarge]
    · rw [CaseTable.toLowerRune, if_pos (by unfold runeSelf; omega), if_neg (by omega)]

/-- The runes of a lowered string are those of the string, lowered. -/
theorem decode_toLower (s : GoString) :
  decode (toLower U s) = (decode s).map U.toLowerRune
  := by
  apply decode_encode
  rw [forall_mem_map]
  exact fun r hr => isRune_toLowerRune (isRune_of_mem_decode s r hr)

theorem toLower_toLower (s : GoString) :
  toLower U (toLower U s) = toLower U s
  := by
  rw [toLower, decode_toLower, map_map, toLower]
  congr 1
  exact map_congr_left fun r _ => toLowerRune_toLowerRune r

theorem length_decode_toLower (s : GoString) :
  (decode (toLower U s)).length = (decode s).length
  := by
  rw [decode_toLower, length_map]

end GoString
