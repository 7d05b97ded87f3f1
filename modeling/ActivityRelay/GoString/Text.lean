import ActivityRelay.GoString.Case

/-!
# Trimming and cutting strings

The parts of Go's `strings` package that take text apart: white space around a string
(`trimSpace`), the two sides of the first or of the last occurrence of a byte (`cut`,
`cutLast`), and a one-byte suffix (`trimSuffix`). The last two commute with lowering a
string at a special byte.
-/

namespace GoString

open List

/-! ### White space -/

/-- The ASCII white space of `unicode.IsSpace`. -/
def isSpaceByte (b : UInt8) : Bool := b == 0x20 || 0x09 ≤ b.toNat && b.toNat ≤ 0x0D

/-- The white space of two bytes: U+0085 and U+00A0. -/
def isSpaceTwo (a b : UInt8) : Bool := a == 0xC2 && (b == 0x85 || b == 0xA0)

/-- The white space of three bytes: U+1680, U+2000 to U+200A, U+2028, U+2029, U+202F,
U+205F and U+3000. -/
def isSpaceThree (a b c : UInt8) : Bool :=
  a == 0xE1 && b == 0x9A && c == 0x80 ||
  a == 0xE2 && b == 0x80 && (0x80 ≤ c.toNat && c.toNat ≤ 0x8A || c == 0xA8 || c == 0xA9 || c == 0xAF) ||
  a == 0xE2 && b == 0x81 && c == 0x9F ||
  a == 0xE3 && b == 0x80 && c == 0x80

/-- `unicode.IsSpace`. -/
def isSpaceRune (r : ℕ) : Bool :=
  r == 0x20 || 0x09 ≤ r && r ≤ 0x0D || r == 0x85 || r == 0xA0 || r == 0x1680 ||
  0x2000 ≤ r && r ≤ 0x200A || r == 0x2028 || r == 0x2029 || r == 0x202F || r == 0x205F || r == 0x3000

/-- A string without the white space at its start, where `two` and `three` tell the white
space of more than one byte. -/
def trimStart (two : UInt8 → UInt8 → Bool) (three : UInt8 → UInt8 → UInt8 → Bool) :
    GoString → GoString
  | [] => []
  | a :: s =>
      if isSpaceByte a then trimStart two three s else
      match s with
      | [] => [a]
      | b :: s₁ =>
          if two a b then trimStart two three s₁ else
          match s₁ with
          | [] => [a, b]
          | c :: s₂ => if three a b c then trimStart two three s₂ else a :: b :: c :: s₂

def trimLeft (s : GoString) : GoString := trimStart isSpaceTwo isSpaceThree s

/-- The white space at the end is the one at the start of the reversed string, with the
bytes of each rune reversed. -/
def trimRight (s : GoString) : GoString :=
  (trimStart (fun c b => isSpaceTwo b c) (fun c b a => isSpaceThree a b c) s.reverse).reverse

def trimSpace (s : GoString) : GoString := trimRight (trimLeft s)

/-- The fields of a string, where `field` is what has been read of the current one. -/
def fieldsFrom (field : GoString) : GoString → List GoString
  | [] => if field = [] then [] else [field]
  | a :: s =>
      let cut := if field = [] then [] else [field]
      if isSpaceByte a then cut ++ fieldsFrom [] s else
      match s with
      | [] => [field ++ [a]]
      | b :: s₁ =>
          if isSpaceTwo a b then cut ++ fieldsFrom [] s₁ else
          match s₁ with
          | [] => fieldsFrom (field ++ [a]) (b :: [])
          | c :: s₂ =>
              if isSpaceThree a b c then cut ++ fieldsFrom [] s₂
              else fieldsFrom (field ++ [a]) (b :: c :: s₂)

def fields (s : GoString) : List GoString := fieldsFrom [] s

example : fields (lit " a\u00A0b\n\u3000cd ") = [lit "a", lit "b", lit "cd"] := by decide

/-- A string of white space. -/
inductive Blank : GoString → Prop
  | nil : Blank []
  | one {a s} : isSpaceByte a → Blank s → Blank (a :: s)
  | two {a b s} : isSpaceTwo a b → Blank s → Blank (a :: b :: s)
  | three {a b c s} : isSpaceThree a b c → Blank s → Blank (a :: b :: c :: s)

variable {s t : GoString} {x : UInt8}

theorem Blank.append (hs : Blank s) (ht : Blank t) :
  Blank (s ++ t)
  := by
  induction hs with
  | nil => apply ht
  | one h _ ih => apply Blank.one h ih
  | two h _ ih => apply Blank.two h ih
  | three h _ ih => apply Blank.three h ih

/-- The white space of two bytes is a valid sequence for a rune of white space. -/
theorem isSpaceTwo_spec {a b : UInt8} (h : isSpaceTwo a b) :
  isTwo a b ∧ isSpaceRune (runeTwo a b)
  := by
  simp only [isSpaceTwo, Bool.and_eq_true, Bool.or_eq_true, beq_iff_eq] at h
  obtain ⟨rfl, rfl | rfl⟩ := h
  · decide
  · decide

/-- The white space of three bytes is a valid sequence for a rune of white space. -/
theorem isSpaceThree_spec {a b c : UInt8} (h : isSpaceThree a b c) :
  isTwo a b = false ∧ isThree a b c ∧ isSpaceRune (runeThree a b c)
  := by
  simp only [isSpaceThree, Bool.and_eq_true, Bool.or_eq_true, beq_iff_eq, decide_eq_true_eq] at h
  rcases h with ((⟨⟨rfl, rfl⟩, rfl⟩ | ⟨⟨rfl, rfl⟩, hc⟩) | ⟨⟨rfl, rfl⟩, rfl⟩) | ⟨⟨rfl, rfl⟩, rfl⟩
  · decide
  · rcases hc with ((hc | rfl) | rfl) | rfl
    · have hrune : runeThree 0xE2 0x80 c = 0x2000 + (c.toNat - 0x80) := by
        unfold runeThree
        rw [show (0xE2 : UInt8).toNat = 0xE2 from rfl, show (0x80 : UInt8).toNat = 0x80 from rfl]
      refine ⟨by decide, ?_, ?_⟩
      · have hTail := (isTail_iff c).mpr (by omega)
        simp only [isThree, hTail]
        rfl
      · simp only [hrune, isSpaceRune, Bool.or_eq_true, beq_iff_eq, Bool.and_eq_true,
          decide_eq_true_eq]
        omega
    · decide
    · decide
    · decide
  · decide
  · decide

theorem isSpaceByte_iff (b : UInt8) :
  isSpaceByte b = true ↔ b.toNat = 0x20 ∨ 0x09 ≤ b.toNat ∧ b.toNat ≤ 0x0D
  := by
  simp only [isSpaceByte, Bool.or_eq_true, beq_iff_eq, Bool.and_eq_true, decide_eq_true_eq]
  rw [← UInt8.toNat_inj]
  rfl

/-- A byte of white space is an ASCII space or not ASCII. -/
theorem Blank.byte (hs : Blank s) :
  ∀ b ∈ s, isSpaceByte b ∨ runeSelf ≤ b.toNat
  := by
  induction hs with
  | nil => simp
  | one h _ ih =>
    rw [forall_mem_cons]
    exact ⟨.inl h, ih⟩
  | @two a b s h _ ih =>
    obtain ⟨-, -, ha, hb⟩ := runeTwo_spec (isSpaceTwo_spec h).1
    rw [forall_mem_cons, forall_mem_cons]
    exact ⟨.inr (by unfold runeSelf; omega), .inr hb, ih⟩
  | @three a b c s h _ ih =>
    obtain ⟨-, -, ha, hb, hc⟩ := runeThree_spec (isSpaceThree_spec h).2.1
    rw [forall_mem_cons, forall_mem_cons, forall_mem_cons]
    exact ⟨.inr (by unfold runeSelf; omega), .inr hb, .inr hc, ih⟩

/-- White space does not start with a continuation byte. -/
theorem Blank.isTail_head {a : UInt8} (h : Blank (a :: s)) :
  isTail a = false
  := by
  cases h with
  | one ha _ =>
    rw [isSpaceByte_iff] at ha
    apply isTail_ascii
    unfold runeSelf
    omega
  | two hab _ =>
    obtain ⟨-, -, ha, -⟩ := runeTwo_spec (isSpaceTwo_spec hab).1
    simp only [isTail, Bool.and_eq_false_iff, decide_eq_false_iff_not]
    omega
  | three habc _ =>
    obtain ⟨-, -, ha, -⟩ := runeThree_spec (isSpaceThree_spec habc).2.1
    simp only [isTail, Bool.and_eq_false_iff, decide_eq_false_iff_not]
    omega

/-- White space that follows a string adds a rune of white space to its runes. -/
theorem Blank.decode_append (ht : Blank t) (hne : t ≠ []) :
  ∃ r ∈ decode (s ++ t), isSpaceRune r = true
  := by
  obtain ⟨a, t, rfl⟩ := exists_cons_of_ne_nil hne
  rw [decode_append_start ht.isTail_head]
  cases ht with
  | one h _ =>
    rw [isSpaceByte_iff] at h
    have ha : a.toNat < runeSelf := by
      unfold runeSelf
      omega
    use a.toNat
    constructor
    · simp [decode_cons_ascii ha]
    · simp only [isSpaceRune, Bool.or_eq_true, beq_iff_eq, Bool.and_eq_true, decide_eq_true_eq]
      omega
  | @two _ b t h _ =>
    obtain ⟨hab, hr⟩ := isSpaceTwo_spec h
    use runeTwo a b
    simp [decode_two hab, hr]
  | @three _ b c t h _ =>
    obtain ⟨-, habc, hr⟩ := isSpaceThree_spec h
    use runeThree a b c
    simp [decode_three habc, hr]

/-- Trimming the start takes white space off. -/
theorem trimStart_spec (two : UInt8 → UInt8 → Bool) (three : UInt8 → UInt8 → UInt8 → Bool)
    {P : GoString → Prop} (nil : P []) (h₁ : ∀ a s, isSpaceByte a → P s → P (a :: s))
    (h₂ : ∀ a b s, two a b → P s → P (a :: b :: s))
    (h₃ : ∀ a b c s, three a b c → P s → P (a :: b :: c :: s)) (s : GoString) :
  ∃ u, s = u ++ trimStart two three s ∧ P u
  := by
  fun_induction trimStart two three s with
  | case2 a s ha ih =>
    obtain ⟨u, hu, hP⟩ := ih
    use a :: u
    rw [cons_append, ← hu]
    exact ⟨rfl, h₁ a u ha hP⟩
  | case4 a ha b s hab ih =>
    obtain ⟨u, hu, hP⟩ := ih
    use a :: b :: u
    rw [cons_append, cons_append, ← hu]
    exact ⟨rfl, h₂ a b u hab hP⟩
  | case6 a ha b hab c s habc ih =>
    obtain ⟨u, hu, hP⟩ := ih
    use a :: b :: c :: u
    rw [cons_append, cons_append, cons_append, ← hu]
    exact ⟨rfl, h₃ a b c u habc hP⟩
  | _ => exact ⟨[], rfl, nil⟩

/-- Trimming the end takes white space off. -/
theorem trimRight_spec (s : GoString) :
  ∃ v, s = trimRight s ++ v ∧ Blank v
  := by
  obtain ⟨v, hv, hblank⟩ := trimStart_spec (fun c b => isSpaceTwo b c)
    (fun c b a => isSpaceThree a b c) (P := fun v => Blank v.reverse) .nil
    (fun a v h hv => by simpa using hv.append (.one h .nil))
    (fun a b v h hv => by simpa using hv.append (.two h .nil))
    (fun a b c v h hv => by simpa using hv.append (.three h .nil)) s.reverse
  refine ⟨v.reverse, ?_, hblank⟩
  rw [trimRight, ← reverse_append, ← hv, reverse_reverse]

/-- A string is its trimmed form between white space. -/
theorem trimSpace_spec (s : GoString) :
  ∃ u v, s = u ++ trimSpace s ++ v ∧ Blank u ∧ Blank v
  := by
  obtain ⟨u, hu, hblank⟩ := trimStart_spec isSpaceTwo isSpaceThree (P := Blank) .nil
    (fun _ _ => .one) (fun _ _ _ => .two) (fun _ _ _ _ => .three) s
  obtain ⟨v, hv, hblank'⟩ := trimRight_spec (trimLeft s)
  refine ⟨u, v, ?_, hblank, hblank'⟩
  rw [append_assoc, trimSpace, ← hv]
  apply hu

/-- Trimming stops at a byte that is not in a pattern of white space. -/
theorem trimStart_append_cons {two : UInt8 → UInt8 → Bool} {three : UInt8 → UInt8 → UInt8 → Bool}
    {c : UInt8} (hc : isSpaceByte c = false) (htwo : ∀ a, two a c = false ∧ two c a = false)
    (hthree : ∀ a b, three a b c = false ∧ three a c b = false ∧ three c a b = false)
    (s t : GoString) :
  trimStart two three (s ++ c :: t) = trimStart two three s ++ c :: t
  := by
  fun_induction trimStart two three s with
  | case1 =>
    rw [nil_append, trimStart.eq_def]
    cases t with
    | nil => simp [hc]
    | cons d t => cases t <;> simp [hc, htwo, hthree]
  | case2 a s ha ih =>
    rw [cons_append, trimStart.eq_def]
    simp only [ha, if_true]
    exact ih
  | case3 a ha =>
    rw [cons_append, nil_append, trimStart.eq_def]
    cases t <;> simp [ha, htwo, hthree]
  | case4 a ha b s hab ih =>
    rw [cons_append, cons_append, trimStart.eq_def]
    simp [ha, hab, ih]
  | case5 a ha b hab =>
    rw [cons_append, cons_append, nil_append, trimStart.eq_def]
    simp [ha, hab, hthree]
  | case6 a ha b hab d s habd ih =>
    rw [cons_append, cons_append, cons_append, trimStart.eq_def]
    simp [ha, hab, habd, ih]
  | case7 a ha b hab d s habd =>
    rw [cons_append, cons_append, cons_append, trimStart.eq_def]
    simp [ha, hab, habd]

/-- White space ends at an ASCII byte that is no white space. -/
theorem Blank.not_mem (hs : Blank s) {c : UInt8} (hascii : c.toNat < runeSelf)
    (hspace : isSpaceByte c = false) :
  c ∉ s
  := by
  intro hmem
  obtain h | h := hs.byte c hmem
  · rw [h] at hspace
    cases hspace
  · omega

section Ascii

variable {c : UInt8} (hascii : c.toNat < runeSelf) (hspace : isSpaceByte c = false)
include hascii hspace

theorem isSpaceTwo_ascii (a : UInt8) :
  isSpaceTwo a c = false ∧ isSpaceTwo c a = false
  := by
  constructor
  · by_contra h
    exact (Blank.two (by simpa using h) .nil).not_mem hascii hspace (by simp)
  · by_contra h
    exact (Blank.two (by simpa using h) .nil).not_mem hascii hspace (by simp)

theorem isSpaceThree_ascii (a b : UInt8) :
  isSpaceThree a b c = false ∧ isSpaceThree a c b = false ∧ isSpaceThree c a b = false
  := by
  refine ⟨?_, ?_, ?_⟩
  · by_contra h
    exact (Blank.three (by simpa using h) .nil).not_mem hascii hspace (by simp)
  · by_contra h
    exact (Blank.three (by simpa using h) .nil).not_mem hascii hspace (by simp)
  · by_contra h
    exact (Blank.three (by simpa using h) .nil).not_mem hascii hspace (by simp)

theorem trimLeft_cons_ascii (s : GoString) :
  trimLeft (c :: s) = c :: s
  := by
  apply trimStart_append_cons hspace (isSpaceTwo_ascii hascii hspace)
    (isSpaceThree_ascii hascii hspace) [] s

/-- The end of a string is trimmed up to an ASCII byte that is no white space. -/
theorem trimRight_append_ascii (s t : GoString) :
  trimRight (s ++ c :: t) = s ++ c :: trimRight t
  := by
  have htwo := isSpaceTwo_ascii hascii hspace
  have hthree := isSpaceThree_ascii hascii hspace
  unfold trimRight
  rw [reverse_append, reverse_cons, append_assoc, singleton_append,
    trimStart_append_cons hspace (fun a => (htwo a).symm)
      (fun a b => ⟨(hthree b a).2.2, (hthree b a).2.1, (hthree b a).1⟩)]
  simp

theorem head?_trimRight (h : s.head? = some c) :
  (trimRight s).head? = some c
  := by
  obtain ⟨t, rfl⟩ := List.head?_eq_some_iff.mp h
  have htrim := trimRight_append_ascii hascii hspace [] t
  rw [nil_append, nil_append] at htrim
  rw [htrim]
  rfl

theorem trimRight_eq_self (h : s.getLast? = some c) :
  trimRight s = s
  := by
  obtain ⟨t, rfl⟩ := List.getLast?_eq_some_iff.mp h
  apply trimRight_append_ascii hascii hspace

end Ascii

/-- White space that follows a string adds to its runes. -/
theorem Blank.length_decode_lt {v : GoString} (hv : Blank v) (hne : v ≠ []) :
  (decode s).length < (decode (s ++ v)).length
  := by
  obtain ⟨a, v, rfl⟩ := exists_cons_of_ne_nil hne
  rw [decode_append_start hv.isTail_head, length_append]
  have hpos := length_pos_of_ne_nil (decode_cons_ne_nil a v)
  omega

/-- An ASCII byte that is no white space is not trimmed. -/
theorem mem_trimSpace (hascii : x.toNat < runeSelf) (hspace : isSpaceByte x = false)
    (s : GoString) :
  x ∈ trimSpace s ↔ x ∈ s
  := by
  obtain ⟨u, v, hs, hu, hv⟩ := trimSpace_spec s
  conv_rhs => rw [hs]
  simp only [mem_append, hu.not_mem hascii hspace, hv.not_mem hascii hspace, false_or,
    or_false]

/-- What is left of a string has no other bytes. -/
theorem mem_of_mem_trimSpace {s : GoString} (h : x ∈ trimSpace s) :
  x ∈ s
  := by
  obtain ⟨u, v, hs, -⟩ := trimSpace_spec s
  rw [hs]
  simp [h]

/-- A string of ASCII bytes without white space is not trimmed. -/
theorem trimSpace_eq_self {s : GoString} (h : ∀ b ∈ s, b.toNat < runeSelf ∧ isSpaceByte b = false) :
  trimSpace s = s
  := by
  have hnil : ∀ u, Blank u → (∀ b ∈ u, b ∈ s) → u = [] := by
    intro u hu hsub
    rw [eq_nil_iff_forall_not_mem]
    intro b hb
    obtain ⟨hascii, hspace⟩ := h b (hsub b hb)
    exact hu.not_mem hascii hspace hb
  obtain ⟨u, v, hs, hu, hv⟩ := trimSpace_spec s
  have hu' := hnil u hu (fun b hb => by rw [hs]; simp [hb])
  have hv' := hnil v hv (fun b hb => by rw [hs]; simp [hb])
  rw [hu', hv'] at hs
  simpa using hs.symm

/-! ### Cutting at a byte -/

/-- `strings.Cut` at a one-byte separator: what is before its first occurrence and, if
there is one, what is after it. -/
def cut (x : UInt8) : GoString → GoString × Option GoString
  | [] => ([], none)
  | b :: s => if b = x then ([], some s) else (b :: (cut x s).1, (cut x s).2)

/-- The two sides of the last occurrence of a byte (`strings.LastIndexByte`). -/
def cutLast (x : UInt8) (s : GoString) : Option (GoString × GoString) :=
  (cut x s.reverse).2.map (fun t => (t.reverse, (cut x s.reverse).1.reverse))

/-- `strings.TrimSuffix` for a suffix of one byte. -/
def trimSuffix (x : UInt8) (s : GoString) : GoString :=
  if s.getLast? = some x then s.dropLast else s

/-- A string with the suffix, or one that is left as it is. -/
theorem trimSuffix_cases (x : UInt8) (s : GoString) :
  (∃ t, s = t ++ [x] ∧ trimSuffix x s = t) ∨ trimSuffix x s = s
  := by
  by_cases h : s.getLast? = some x
  · obtain ⟨t, rfl⟩ := List.getLast?_eq_some_iff.mp h
    exact .inl ⟨t, rfl, by simp [trimSuffix]⟩
  · exact .inr (if_neg h)

theorem trimSuffix_sublist (x : UInt8) (s : GoString) :
  (trimSuffix x s).Sublist s
  := by
  obtain ⟨t, rfl, h⟩ | h := trimSuffix_cases x s <;> simp [h]

theorem mem_trimSuffix {y : UInt8} (hne : x ≠ y) (s : GoString) :
  x ∈ trimSuffix y s ↔ x ∈ s
  := by
  obtain ⟨t, rfl, h⟩ | h := trimSuffix_cases y s <;> simp [h, hne]

theorem head?_trimSuffix {y : UInt8} (hne : x ≠ y) (s : GoString) :
  (trimSuffix y s).head? = some x ↔ s.head? = some x
  := by
  obtain ⟨t, rfl, h⟩ | h := trimSuffix_cases y s
  · rw [h]
    cases t <;> simp [hne.symm]
  · rw [h]

theorem length_decode_trimSuffix_le (hx : x.toNat < runeSelf) (s : GoString) :
  (decode (trimSuffix x s)).length ≤ (decode s).length
  := by
  obtain ⟨t, rfl, h⟩ | h := trimSuffix_cases x s <;> simp [h, decode_append_ascii hx]

theorem cut_of_not_mem (h : x ∉ s) :
  cut x s = (s, none)
  := by
  induction s with
  | nil => rfl
  | cons b s ih =>
    rw [mem_cons, not_or] at h
    rw [cut, if_neg (Ne.symm h.1), ih h.2]

theorem cut_append (h : x ∉ s) (t : GoString) :
  cut x (s ++ x :: t) = (s, some t)
  := by
  induction s with
  | nil => simp [cut]
  | cons b s ih =>
    rw [mem_cons, not_or] at h
    rw [cons_append, cut, if_neg (Ne.symm h.1), ih h.2]

/-- A string without the byte, or the two sides of its first occurrence. -/
theorem cut_cases (x : UInt8) (s : GoString) :
  x ∉ s ∧ cut x s = (s, none) ∨ ∃ u v, x ∉ u ∧ s = u ++ x :: v ∧ cut x s = (u, some v)
  := by
  by_cases h : x ∈ s
  · obtain ⟨u, v, rfl, hu⟩ := eq_append_cons_of_mem h
    exact .inr ⟨u, v, hu, rfl, cut_append hu v⟩
  · exact .inl ⟨h, cut_of_not_mem h⟩

theorem cutLast_of_not_mem (h : x ∉ s) :
  cutLast x s = none
  := by
  rw [cutLast, cut_of_not_mem (by simpa using h)]
  rfl

theorem cutLast_append (h : x ∉ t) (s : GoString) :
  cutLast x (s ++ x :: t) = some (s, t)
  := by
  rw [cutLast, reverse_append, reverse_cons, append_assoc, singleton_append,
    cut_append (by simpa using h)]
  simp

/-- A string without the byte, or the two sides of its last occurrence. -/
theorem cutLast_cases (x : UInt8) (s : GoString) :
  x ∉ s ∧ cutLast x s = none ∨ ∃ u v, x ∉ v ∧ s = u ++ x :: v ∧ cutLast x s = some (u, v)
  := by
  rcases cut_cases x s.reverse with ⟨h, -⟩ | ⟨u, v, hu, hs, -⟩
  · rw [mem_reverse] at h
    exact .inl ⟨h, cutLast_of_not_mem h⟩
  · have hs' : s = v.reverse ++ x :: u.reverse := by
      rw [← reverse_reverse s, hs]
      simp
    have hu' : x ∉ u.reverse := by simpa using hu
    refine .inr ⟨v.reverse, u.reverse, hu', hs', ?_⟩
    rw [hs', cutLast_append hu']

variable {U : CaseTable}

/-- Lowering commutes with cutting at the last special byte. -/
theorem cutLast_toLower (hx : Special x) (s : GoString) :
  cutLast x (toLower U s) = (cutLast x s).map (fun p => (toLower U p.1, toLower U p.2))
  := by
  rcases cutLast_cases x s with ⟨h, he⟩ | ⟨u, v, hv, rfl, he⟩
  · rw [he, cutLast_of_not_mem (by rwa [mem_toLower_special hx])]
    rfl
  · rw [he, toLower_append_special hx, cutLast_append (by rwa [mem_toLower_special hx])]
    rfl

/-- Lowering commutes with taking a special byte off the end. -/
theorem trimSuffix_toLower (hx : Special x) (s : GoString) :
  trimSuffix x (toLower U s) = toLower U (trimSuffix x s)
  := by
  unfold trimSuffix
  by_cases h : s.getLast? = some x
  · obtain ⟨t, rfl⟩ := List.getLast?_eq_some_iff.mp h
    rw [if_pos h, if_pos ((getLast?_toLower_special hx _).mpr h), toLower_append_special hx]
    simp
  · rw [if_neg h, if_neg (by rwa [getLast?_toLower_special hx])]

end GoString
