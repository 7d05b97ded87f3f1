import Mathlib.Algebra.Order.Ring.Int
import Mathlib.Data.Fintype.Basic
import Mathlib.Data.List.Basic
import Mathlib.Tactic.Common

/-!
# Byte strings and UTF-8

A Go string is a list of bytes, which need not be valid UTF-8. `decode` reads it the way a
`range` loop does: a byte that starts no valid sequence is read as `runeError`, and the
reading goes on at the next byte. `encode` writes runes back.

A byte below `runeSelf` is a rune by itself wherever it stands, so decoding splits at it
(`decode_append_ascii`). A rune that is not ASCII is written in bytes that are not ASCII
(`encodeRune_nonascii`), so the first and the last byte of an encoding tell whether the
first and the last rune are ASCII.
-/

/-- A Go string: its bytes. -/
abbrev GoString := List UInt8

namespace GoString

open List

instance lawfulBEq : LawfulBEq GoString := inferInstanceAs (LawfulBEq (List UInt8))

/-- The bytes of a string literal. -/
def lit (s : String) : GoString := s.toUTF8.data.toList

/-- What holds for the 256 bytes holds for every byte. -/
theorem forall_byte {P : UInt8 → Prop} (h : ∀ n : Fin 256, P (UInt8.ofNat n)) (b : UInt8) :
  P b
  := by
  have hb := h ⟨b.toNat, b.toNat_lt⟩
  rwa [UInt8.ofNat_toNat] at hb

/-- `utf8.RuneSelf`: the bytes below it are single-byte runes. -/
def runeSelf : ℕ := 0x80

/-- `utf8.RuneError`, the rune an invalid byte is read as. -/
def runeError : ℕ := 0xFFFD

/-- A Unicode scalar value: no surrogate, and not above the last rune. -/
def IsRune (r : ℕ) : Prop := r < 0xD800 ∨ 0xDFFF < r ∧ r ≤ 0x10FFFF

/-- A continuation byte. -/
def isTail (b : UInt8) : Bool := 0x80 ≤ b.toNat && b.toNat ≤ 0xBF

/-- The bytes `a b` are a valid two-byte sequence. -/
def isTwo (a b : UInt8) : Bool := 0xC2 ≤ a.toNat && a.toNat ≤ 0xDF && isTail b

/-- The bytes `a b c` are a valid three-byte sequence: not overlong, no surrogate. -/
def isThree (a b c : UInt8) : Bool :=
  0xE0 ≤ a.toNat && a.toNat ≤ 0xEF && isTail b && isTail c &&
    (a.toNat != 0xE0 || 0xA0 ≤ b.toNat) && (a.toNat != 0xED || b.toNat ≤ 0x9F)

/-- The bytes `a b c d` are a valid four-byte sequence: not overlong, not above the last
rune. -/
def isFour (a b c d : UInt8) : Bool :=
  0xF0 ≤ a.toNat && a.toNat ≤ 0xF4 && isTail b && isTail c && isTail d &&
    (a.toNat != 0xF0 || 0x90 ≤ b.toNat) && (a.toNat != 0xF4 || b.toNat ≤ 0x8F)

def runeTwo (a b : UInt8) : ℕ :=
  (a.toNat - 0xC0) * 0x40 + (b.toNat - 0x80)

def runeThree (a b c : UInt8) : ℕ :=
  (a.toNat - 0xE0) * 0x1000 + (b.toNat - 0x80) * 0x40 + (c.toNat - 0x80)

def runeFour (a b c d : UInt8) : ℕ :=
  (a.toNat - 0xF0) * 0x40000 + (b.toNat - 0x80) * 0x1000 + (c.toNat - 0x80) * 0x40 +
    (d.toNat - 0x80)

/-- The runes of a string. -/
def decode : GoString → List ℕ
  | [] => []
  | a :: s =>
      if a.toNat < runeSelf then a.toNat :: decode s else
      match s with
      | [] => [runeError]
      | b :: s₁ =>
          if isTwo a b then runeTwo a b :: decode s₁ else
          match s₁ with
          | [] => runeError :: decode [b]
          | c :: s₂ =>
              if isThree a b c then runeThree a b c :: decode s₂ else
              match s₂ with
              | [] => runeError :: decode [b, c]
              | d :: s₃ =>
                  if isFour a b c d then runeFour a b c d :: decode s₃
                  else runeError :: decode (b :: c :: d :: s₃)

/-- The bytes of a rune; a number that is no rune is written as `runeError`. -/
def encodeRune (r : ℕ) : GoString :=
  if r < 0x80 then [r.toUInt8]
  else if r < 0x800 then [(0xC0 + r / 0x40).toUInt8, (0x80 + r % 0x40).toUInt8]
  else if 0xD800 ≤ r ∧ r ≤ 0xDFFF ∨ 0x10FFFF < r then [0xEF, 0xBF, 0xBD]
  else if r < 0x10000 then
    [(0xE0 + r / 0x1000).toUInt8, (0x80 + r / 0x40 % 0x40).toUInt8, (0x80 + r % 0x40).toUInt8]
  else
    [(0xF0 + r / 0x40000).toUInt8, (0x80 + r / 0x1000 % 0x40).toUInt8,
      (0x80 + r / 0x40 % 0x40).toUInt8, (0x80 + r % 0x40).toUInt8]

/-- The bytes of a list of runes. -/
def encode (rs : List ℕ) : GoString := rs.flatMap encodeRune

/-! ### Reading one rune -/

/-- The rune of two or more bytes that starts with `a` and goes on in `s`, with what is left
of `s` after it. -/
def multi (a : UInt8) : GoString → Option (ℕ × GoString)
  | [] => none
  | b :: s₁ =>
      if isTwo a b then some (runeTwo a b, s₁) else
      match s₁ with
      | [] => none
      | c :: s₂ =>
          if isThree a b c then some (runeThree a b c, s₂) else
          match s₂ with
          | [] => none
          | d :: s₃ => if isFour a b c d then some (runeFour a b c d, s₃) else none

/-- Decoding reads one rune and goes on after it. -/
theorem decode_cons (a : UInt8) (s : GoString) :
  decode (a :: s) =
    if a.toNat < runeSelf then a.toNat :: decode s else
    match multi a s with
    | some (r, s') => r :: decode s'
    | none => runeError :: decode s
  := by
  rcases s with _ | ⟨b, _ | ⟨c, _ | ⟨d, s⟩⟩⟩
  · simp [decode, multi]
  · by_cases h₂ : isTwo a b <;> simp [decode, multi, h₂]
  · by_cases h₂ : isTwo a b <;> by_cases h₃ : isThree a b c <;> simp [decode, multi, h₂, h₃]
  · by_cases h₂ : isTwo a b <;> by_cases h₃ : isThree a b c <;> by_cases h₄ : isFour a b c d <;>
      simp [decode, multi, h₂, h₃, h₄]

variable {a b c d : UInt8} {r : ℕ}

theorem decode_cons_ascii (ha : a.toNat < runeSelf) (s : GoString) :
  decode (a :: s) = a.toNat :: decode s
  := by
  rw [decode_cons, if_pos ha]

theorem decode_cons_ne_nil (a : UInt8) (s : GoString) :
  decode (a :: s) ≠ []
  := by
  rw [decode_cons]
  split
  · apply cons_ne_nil
  · split <;> apply cons_ne_nil

theorem isTail_iff (b : UInt8) :
  isTail b = true ↔ 0x80 ≤ b.toNat ∧ b.toNat ≤ 0xBF
  := by
  simp [isTail]

theorem runeTwo_spec (h : isTwo a b) :
  runeSelf ≤ runeTwo a b ∧ IsRune (runeTwo a b) ∧ 0xC2 ≤ a.toNat ∧ runeSelf ≤ b.toNat
  := by
  simp only [isTwo, Bool.and_eq_true, decide_eq_true_eq, isTail_iff] at h
  unfold runeTwo IsRune runeSelf
  omega

theorem runeThree_spec (h : isThree a b c) :
  runeSelf ≤ runeThree a b c ∧ IsRune (runeThree a b c) ∧ 0xE0 ≤ a.toNat ∧ runeSelf ≤ b.toNat ∧
    runeSelf ≤ c.toNat
  := by
  simp only [isThree, Bool.and_eq_true, Bool.or_eq_true, decide_eq_true_eq, bne_iff_ne,
    isTail_iff] at h
  unfold runeThree IsRune runeSelf
  omega

theorem runeFour_spec (h : isFour a b c d) :
  runeSelf ≤ runeFour a b c d ∧ IsRune (runeFour a b c d) ∧ 0xF0 ≤ a.toNat ∧
    runeSelf ≤ b.toNat ∧ runeSelf ≤ c.toNat ∧ runeSelf ≤ d.toNat
  := by
  simp only [isFour, Bool.and_eq_true, Bool.or_eq_true, decide_eq_true_eq, bne_iff_ne,
    isTail_iff] at h
  unfold runeFour IsRune runeSelf
  omega

/-- A rune of several bytes is not ASCII, and none of its bytes is. -/
theorem multi_spec {s s' : GoString} (h : multi a s = some (r, s')) :
  runeSelf ≤ r ∧ IsRune r ∧ ∃ u, s = u ++ s' ∧ ∀ b ∈ u, runeSelf ≤ b.toNat
  := by
  rcases s with _ | ⟨b, s⟩
  · simp [multi] at h
  by_cases h₂ : isTwo a b
  · simp [multi, h₂] at h
    obtain ⟨rfl, rfl⟩ := h
    obtain ⟨hr, hrune, -, hb⟩ := runeTwo_spec h₂
    use hr, hrune, [b]
    simp [hb]
  rcases s with _ | ⟨c, s⟩
  · simp [multi, h₂] at h
  by_cases h₃ : isThree a b c
  · simp [multi, h₂, h₃] at h
    obtain ⟨rfl, rfl⟩ := h
    obtain ⟨hr, hrune, -, hb, hc⟩ := runeThree_spec h₃
    use hr, hrune, [b, c]
    simp [hb, hc]
  rcases s with _ | ⟨d, s⟩
  · simp [multi, h₂, h₃] at h
  by_cases h₄ : isFour a b c d
  · simp [multi, h₂, h₃, h₄] at h
    obtain ⟨rfl, rfl⟩ := h
    obtain ⟨hr, hrune, -, hb, hc, hd⟩ := runeFour_spec h₄
    use hr, hrune, [b, c, d]
    simp [hb, hc, hd]
  · simp [multi, h₂, h₃, h₄] at h

theorem multi_length_le {s s' : GoString} (h : multi a s = some (r, s')) :
  s'.length ≤ s.length
  := by
  obtain ⟨-, -, u, rfl, -⟩ := multi_spec h
  simp

/-- A byte that is no continuation byte is no part of a rune that starts before it. -/
theorem multi_append_start (hc : isTail c = false) (a : UInt8) (s t : GoString) :
  multi a (s ++ c :: t) = (multi a s).map (fun p => (p.1, p.2 ++ c :: t))
  := by
  rcases s with _ | ⟨b, _ | ⟨d, _ | ⟨e, s⟩⟩⟩
  · rcases t with _ | ⟨x, _ | ⟨y, t⟩⟩ <;> simp [multi, isTwo, isThree, isFour, hc]
  · by_cases h₂ : isTwo a b
    · simp [multi, h₂]
    · rcases t with _ | ⟨x, t⟩ <;> simp [multi, isThree, isFour, h₂, hc]
  · by_cases h₂ : isTwo a b
    · simp [multi, h₂]
    · by_cases h₃ : isThree a b d <;> simp [multi, isFour, h₂, h₃, hc]
  · by_cases h₂ : isTwo a b
    · simp [multi, h₂]
    · by_cases h₃ : isThree a b d
      · simp [multi, h₂, h₃]
      · by_cases h₄ : isFour a b d e <;> simp [multi, h₂, h₃, h₄]

/-- Decoding splits at a byte that is no continuation byte. -/
theorem decode_append_start {c : UInt8} (hc : isTail c = false) (t : GoString) :
  ∀ s : GoString, decode (s ++ c :: t) = decode s ++ decode (c :: t)
  | [] => rfl
  | a :: s => by
      rw [cons_append, decode_cons, decode_cons a s, multi_append_start hc]
      by_cases ha : a.toNat < runeSelf
      · simp only [ha, if_true, cons_append]
        rw [decode_append_start hc t s]
      · simp only [ha, if_false]
        cases hm : multi a s with
        | none =>
            simp only [Option.map_none, cons_append]
            rw [decode_append_start hc t s]
        | some p =>
            have hlen : p.2.length ≤ s.length := multi_length_le hm
            simp only [Option.map_some, cons_append]
            rw [decode_append_start hc t p.2]
  termination_by s => s.length
  decreasing_by
    all_goals
      rw [length_cons]
      omega

theorem isTail_ascii (hc : c.toNat < runeSelf) :
  isTail c = false
  := by
  unfold runeSelf at hc
  simp only [isTail, Bool.and_eq_false_iff, decide_eq_false_iff_not]
  omega

/-- Decoding splits at an ASCII byte, which is a rune by itself. -/
theorem decode_append_ascii (hc : c.toNat < runeSelf) (s t : GoString) :
  decode (s ++ c :: t) = decode s ++ c.toNat :: decode t
  := by
  rw [decode_append_start (isTail_ascii hc), decode_cons_ascii hc]

/-! ### Writing one rune -/

theorem encodeRune_ascii (hr : r < runeSelf) :
  encodeRune r = [r.toUInt8]
  := by
  unfold encodeRune
  rw [if_pos (show r < 0x80 from hr)]

theorem toNat_toUInt8 {n : ℕ} (hn : n < 256) :
  n.toUInt8.toNat = n
  := by
  simp only [Nat.toUInt8_eq, UInt8.toNat_ofNat']
  omega

/-- A rune that is not ASCII is written in bytes that are not ASCII, at least one of them. -/
theorem encodeRune_nonascii (hr : runeSelf ≤ r) :
  encodeRune r ≠ [] ∧ ∀ b ∈ encodeRune r, runeSelf ≤ b.toNat
  := by
  simp only [runeSelf] at hr ⊢
  unfold encodeRune
  rw [if_neg (by omega)]
  split_ifs
  · simp
    omega
  · simp
  · simp
    omega
  · simp
    omega

/-! ### Sequences of bytes -/

/-- What is read is a rune. -/
theorem isRune_of_mem_decode :
  ∀ s : GoString, ∀ r ∈ decode s, IsRune r
  | [] => by simp [decode]
  | a :: s => by
      rw [decode_cons]
      by_cases ha : a.toNat < runeSelf
      · rw [if_pos ha, forall_mem_cons]
        refine ⟨.inl ?_, isRune_of_mem_decode s⟩
        unfold runeSelf at ha
        omega
      · rw [if_neg ha]
        cases hm : multi a s with
        | none =>
            rw [forall_mem_cons]
            exact ⟨.inr (by decide), isRune_of_mem_decode s⟩
        | some p =>
            have hlen : p.2.length ≤ s.length := multi_length_le hm
            rw [forall_mem_cons]
            exact ⟨(multi_spec hm).2.1, isRune_of_mem_decode p.2⟩
  termination_by s => s.length
  decreasing_by
    all_goals
      rw [length_cons]
      omega

theorem decode_two (h : isTwo a b = true) (s : GoString) :
  decode (a :: b :: s) = runeTwo a b :: decode s
  := by
  obtain ⟨-, -, ha, -⟩ := runeTwo_spec h
  rw [decode_cons, if_neg (by unfold runeSelf; omega)]
  simp [multi, h]

theorem isTwo_of_lead (ha : 0xE0 ≤ a.toNat) :
  isTwo a b = false ∧ ¬ a.toNat < runeSelf
  := by
  simp only [isTwo, runeSelf, Bool.and_eq_false_iff, decide_eq_false_iff_not]
  omega

theorem decode_three (h : isThree a b c = true) (s : GoString) :
  decode (a :: b :: c :: s) = runeThree a b c :: decode s
  := by
  obtain ⟨-, -, ha, -⟩ := runeThree_spec h
  obtain ⟨htwo, hself⟩ := isTwo_of_lead (b := b) ha
  rw [decode_cons, if_neg hself]
  simp [multi, htwo, h]

theorem decode_four (h : isFour a b c d = true) (s : GoString) :
  decode (a :: b :: c :: d :: s) = runeFour a b c d :: decode s
  := by
  obtain ⟨-, -, ha, -⟩ := runeFour_spec h
  obtain ⟨htwo, hself⟩ := isTwo_of_lead (b := b) (show 0xE0 ≤ a.toNat by omega)
  have hthree : isThree a b c = false := by
    simp only [isThree, Bool.and_eq_false_iff, decide_eq_false_iff_not]
    omega
  rw [decode_cons, if_neg hself]
  simp [multi, htwo, hthree, h]

/-- A rune that was written is read back. -/
theorem decode_encodeRune_append (hr : IsRune r) (s : GoString) :
  decode (encodeRune r ++ s) = r :: decode s
  := by
  unfold IsRune at hr
  unfold encodeRune
  split_ifs with h₁ h₂ h₃ h₄
  · have hbyte := toNat_toUInt8 (n := r) (by omega)
    rw [singleton_append, decode_cons_ascii (by rw [hbyte]; exact h₁), hbyte]
  · have ha := toNat_toUInt8 (n := 0xC0 + r / 0x40) (by omega)
    have hb := toNat_toUInt8 (n := 0x80 + r % 0x40) (by omega)
    generalize (0xC0 + r / 0x40).toUInt8 = a at ha ⊢
    generalize (0x80 + r % 0x40).toUInt8 = b at hb ⊢
    have htwo : isTwo a b = true := by
      simp only [isTwo, Bool.and_eq_true, decide_eq_true_eq, isTail_iff]
      omega
    have hrune : runeTwo a b = r := by
      unfold runeTwo
      omega
    rw [cons_append, singleton_append, decode_two htwo, hrune]
  · omega
  · have ha := toNat_toUInt8 (n := 0xE0 + r / 0x1000) (by omega)
    have hb := toNat_toUInt8 (n := 0x80 + r / 0x40 % 0x40) (by omega)
    have hc := toNat_toUInt8 (n := 0x80 + r % 0x40) (by omega)
    generalize (0xE0 + r / 0x1000).toUInt8 = a at ha ⊢
    generalize (0x80 + r / 0x40 % 0x40).toUInt8 = b at hb ⊢
    generalize (0x80 + r % 0x40).toUInt8 = c at hc ⊢
    have hthree : isThree a b c = true := by
      simp only [isThree, Bool.and_eq_true, Bool.or_eq_true, decide_eq_true_eq, bne_iff_ne,
        isTail_iff]
      omega
    have hrune : runeThree a b c = r := by
      unfold runeThree
      omega
    rw [cons_append, cons_append, singleton_append, decode_three hthree, hrune]
  · have ha := toNat_toUInt8 (n := 0xF0 + r / 0x40000) (by omega)
    have hb := toNat_toUInt8 (n := 0x80 + r / 0x1000 % 0x40) (by omega)
    have hc := toNat_toUInt8 (n := 0x80 + r / 0x40 % 0x40) (by omega)
    have hd := toNat_toUInt8 (n := 0x80 + r % 0x40) (by omega)
    generalize (0xF0 + r / 0x40000).toUInt8 = a at ha ⊢
    generalize (0x80 + r / 0x1000 % 0x40).toUInt8 = b at hb ⊢
    generalize (0x80 + r / 0x40 % 0x40).toUInt8 = c at hc ⊢
    generalize (0x80 + r % 0x40).toUInt8 = d at hd ⊢
    have hfour : isFour a b c d = true := by
      simp only [isFour, Bool.and_eq_true, Bool.or_eq_true, decide_eq_true_eq, bne_iff_ne,
        isTail_iff]
      omega
    have hrune : runeFour a b c d = r := by
      unfold runeFour
      omega
    rw [cons_append, cons_append, cons_append, singleton_append,
      decode_four hfour, hrune]

theorem decode_encode {rs : List ℕ} (h : ∀ r ∈ rs, IsRune r) :
  decode (encode rs) = rs
  := by
  induction rs with
  | nil => rfl
  | cons r rs ih =>
    rw [forall_mem_cons] at h
    rw [encode, flatMap_cons, decode_encodeRune_append h.1]
    exact congrArg (r :: ·) (ih h.2)

example : decode (lit "aé€") = [0x61, 0xE9, 0x20AC] := by decide
example : decode [0x61, 0xE2, 0x82, 0x62] = [0x61, runeError, runeError, 0x62] := by decide

end GoString
