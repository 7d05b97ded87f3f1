import ActivityRelay.GoString.Utf8

/-!
# Base64

`base64.StdEncoding.EncodeToString`, and that the string determines the bytes.
-/

namespace GoString

/-- A character of the standard alphabet. -/
def base64Char (n : ℕ) : UInt8 :=
  if n < 26 then UInt8.ofNat (0x41 + n)
  else if n < 52 then UInt8.ofNat (0x61 + (n - 26))
  else if n < 62 then UInt8.ofNat (0x30 + (n - 52))
  else if n = 62 then 0x2B
  else 0x2F

/-- `base64.StdEncoding.EncodeToString`. -/
def base64Encode : GoString → GoString
  | [] => []
  | [a] => [base64Char (a.toNat / 4), base64Char (a.toNat % 4 * 16), 0x3D, 0x3D]
  | [a, b] =>
      [base64Char (a.toNat / 4), base64Char (a.toNat % 4 * 16 + b.toNat / 16),
        base64Char (b.toNat % 16 * 4), 0x3D]
  | a :: b :: c :: s =>
      base64Char (a.toNat / 4) :: base64Char (a.toNat % 4 * 16 + b.toNat / 16) ::
        base64Char (b.toNat % 16 * 4 + c.toNat / 64) :: base64Char (c.toNat % 64) ::
        base64Encode s

/-- The place of a character in the standard alphabet. -/
def base64Index (c : UInt8) : ℕ :=
  if c = 0x2B then 62
  else if c = 0x2F then 63
  else if c < 0x41 then c.toNat - 0x30 + 52
  else if c < 0x61 then c.toNat - 0x41
  else c.toNat - 0x61 + 26

theorem base64Index_base64Char {n : ℕ} (hn : n < 64) :
  base64Index (base64Char n) = n
  := by
  have hall : ∀ n : Fin 64, base64Index (base64Char n) = n := by decide
  exact hall ⟨n, hn⟩

theorem base64Char_ne_pad {n : ℕ} (hn : n < 64) :
  base64Char n ≠ 0x3D
  := by
  have hall : ∀ n : Fin 64, base64Char n ≠ 0x3D := by decide
  exact hall ⟨n, hn⟩

/-- The bytes that a string encodes. -/
def base64Decode : GoString → GoString
  | a :: b :: c :: d :: s =>
      let first := UInt8.ofNat (base64Index a * 4 + base64Index b / 16)
      let second := UInt8.ofNat (base64Index b % 16 * 16 + base64Index c / 4)
      if c = 0x3D then [first]
      else if d = 0x3D then [first, second]
      else
        first :: second :: UInt8.ofNat (base64Index c % 4 * 64 + base64Index d) :: base64Decode s
  | _ => []

theorem ofNat_eq_of_toNat {a : UInt8} {n : ℕ} (h : n = a.toNat) :
  UInt8.ofNat n = a
  := by
  rw [h, UInt8.ofNat_toNat]

theorem base64Decode_base64Encode (s : GoString) :
  base64Decode (base64Encode s) = s
  := by
  induction s using base64Encode.induct with
  | case1 => rfl
  | case2 a =>
    have ha := a.toNat_lt
    simp only [base64Encode, base64Decode, if_true]
    rw [base64Index_base64Char (by omega), base64Index_base64Char (by omega),
      ofNat_eq_of_toNat (a := a) (by omega)]
  | case3 a b =>
    have ha := a.toNat_lt
    have hb := b.toNat_lt
    simp only [base64Encode, base64Decode, if_true]
    rw [if_neg (base64Char_ne_pad (by omega)), base64Index_base64Char (by omega),
      base64Index_base64Char (by omega), base64Index_base64Char (by omega),
      ofNat_eq_of_toNat (a := a) (by omega), ofNat_eq_of_toNat (a := b) (by omega)]
  | case4 a b c s ih =>
    have ha := a.toNat_lt
    have hb := b.toNat_lt
    have hc := c.toNat_lt
    simp only [base64Encode, base64Decode]
    rw [if_neg (base64Char_ne_pad (by omega)), if_neg (base64Char_ne_pad (by omega)),
      base64Index_base64Char (by omega), base64Index_base64Char (by omega),
      base64Index_base64Char (by omega), base64Index_base64Char (by omega),
      ofNat_eq_of_toNat (a := a) (by omega), ofNat_eq_of_toNat (a := b) (by omega),
      ofNat_eq_of_toNat (a := c) (by omega), ih]

theorem base64Encode_injective {s t : GoString} (h : base64Encode s = base64Encode t) :
  s = t
  := by
  rw [← base64Decode_base64Encode s, h, base64Decode_base64Encode]

/-- The characters that an encoded string consists of. -/
theorem base64Encode_mem {s : GoString} {b : UInt8} (h : b ∈ base64Encode s) :
  b = 0x3D ∨ ∃ n < 64, b = base64Char n
  := by
  induction s using base64Encode.induct with
  | case1 => cases h
  | case2 a =>
    have ha := a.toNat_lt
    simp only [base64Encode, List.mem_cons, List.not_mem_nil, or_false, or_self] at h
    rcases h with h | h | h
    · exact .inr ⟨_, by omega, h⟩
    · exact .inr ⟨_, by omega, h⟩
    · exact .inl h
  | case3 a b =>
    have ha := a.toNat_lt
    have hb := b.toNat_lt
    simp only [base64Encode, List.mem_cons, List.not_mem_nil, or_false] at h
    rcases h with h | h | h | h
    · exact .inr ⟨_, by omega, h⟩
    · exact .inr ⟨_, by omega, h⟩
    · exact .inr ⟨_, by omega, h⟩
    · exact .inl h
  | case4 a b c s ih =>
    have ha := a.toNat_lt
    have hb := b.toNat_lt
    have hc := c.toNat_lt
    simp only [base64Encode, List.mem_cons] at h
    rcases h with h | h | h | h | h
    · exact .inr ⟨_, by omega, h⟩
    · exact .inr ⟨_, by omega, h⟩
    · exact .inr ⟨_, by omega, h⟩
    · exact .inr ⟨_, by omega, h⟩
    · exact ih h

example : base64Encode (lit "light w") = lit "bGlnaHQgdw==" := by decide

end GoString
