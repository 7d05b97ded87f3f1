import ActivityRelay.GoString.Text

/-!
# White space around a string

Trimming does not see white space that is added around a string (`trimSpace_append_blank`), and so
it changes nothing when it is done twice (`trimSpace_trimSpace`). White space is made of whole
runes, so that it cannot complete a rune that a string ends with.
-/

namespace GoString

open List

/-! ### One rune of white space -/

section TrimStart

variable {two : UInt8 → UInt8 → Bool} {three : UInt8 → UInt8 → UInt8 → Bool} {a b c : UInt8}

theorem trimStart_one (ha : isSpaceByte a = true) (s : GoString) :
  trimStart two three (a :: s) = trimStart two three s
  := by
  rw [trimStart.eq_def]
  dsimp only
  rw [if_pos ha]

theorem trimStart_two (ha : isSpaceByte a = false) (hab : two a b = true) (s : GoString) :
  trimStart two three (a :: b :: s) = trimStart two three s
  := by
  rw [trimStart.eq_def]
  dsimp only
  rw [if_neg (by simp [ha]), if_pos hab]

theorem trimStart_three (ha : isSpaceByte a = false) (hab : two a b = false)
    (habc : three a b c = true) (s : GoString) :
  trimStart two three (a :: b :: c :: s) = trimStart two three s
  := by
  rw [trimStart.eq_def]
  dsimp only
  rw [if_neg (by simp [ha]), if_neg (by simp [hab]), if_pos habc]

/-- Text that cannot complete white space stays after a string that is not all white space. -/
theorem trimStart_append {s v : GoString} (h : trimStart two three s ≠ [])
    (htwo : ∀ c ∈ v.head?, ∀ a, two a c = false)
    (hthree : ∀ c ∈ v.head?, ∀ a b, three a b c = false ∧ three a c b = false) :
  trimStart two three (s ++ v) = trimStart two three s ++ v
  := by
  fun_induction trimStart two three s with
  | case1 => exact absurd rfl h
  | case2 a s ha ih => rw [cons_append, trimStart_one ha, ih h]
  | case3 a ha =>
    rw [trimStart.eq_def]
    rcases v with _ | ⟨c, _ | ⟨d, v⟩⟩
    · simp [ha]
    · simp [ha, htwo c rfl]
    · simp [ha, htwo c rfl, hthree c rfl]
  | case4 a ha b s hab ih =>
    rw [cons_append, cons_append, trimStart_two (by simpa using ha) hab, ih h]
  | case5 a ha b hab =>
    rw [trimStart.eq_def]
    cases v with
    | nil => simp [ha, hab]
    | cons c v => simp [ha, hab, hthree c rfl]
  | case6 a ha b hab c s habc ih =>
    rw [cons_append, cons_append, cons_append,
      trimStart_three (by simpa using ha) (by simpa using hab) habc, ih h]
  | case7 a ha b hab c s habc =>
    rw [cons_append, cons_append, cons_append, trimStart.eq_def]
    simp [ha, hab, habc]

end TrimStart

theorem isSpaceByte_of_isTail {b : UInt8} (h : isTail b = true) :
  isSpaceByte b = false
  := by
  revert h
  apply forall_byte (P := fun b => isTail b = true → isSpaceByte b = false)
  decide +kernel

theorem isSpaceTwo_bytes {a b : UInt8} (h : isSpaceTwo a b = true) :
  isSpaceByte a = false ∧ isTail a = false ∧ isTail b = true
  := by
  simp only [isSpaceTwo, Bool.and_eq_true, Bool.or_eq_true, beq_iff_eq] at h
  obtain ⟨rfl, rfl | rfl⟩ := h
  · decide
  · decide

theorem isSpaceThree_bytes {a b c : UInt8} (h : isSpaceThree a b c = true) :
  isSpaceByte a = false ∧ isSpaceTwo a b = false ∧ isTail b = true ∧ isTail c = true
  := by
  have hthree := (isSpaceThree_spec h).2.1
  simp only [isThree, Bool.and_eq_true, decide_eq_true_eq] at hthree
  simp only [isSpaceThree, Bool.and_eq_true, Bool.or_eq_true, beq_iff_eq] at h
  have ha : a = 0xE1 ∨ a = 0xE2 ∨ a = 0xE3 := by tauto
  refine ⟨?_, ?_, ?_, ?_⟩
  · obtain rfl | rfl | rfl := ha <;> rfl
  · obtain rfl | rfl | rfl := ha <;> rfl
  · tauto
  · tauto

/-! ### White space at the ends -/

theorem trimLeft_blank_append {u : GoString} (hu : Blank u) (s : GoString) :
  trimLeft (u ++ s) = trimLeft s
  := by
  unfold trimLeft
  induction hu with
  | nil => rfl
  | one h _ ih => rw [cons_append, trimStart_one h, ih]
  | two h _ ih =>
    rw [cons_append, cons_append, trimStart_two (isSpaceTwo_bytes h).1 h, ih]
  | three h _ ih =>
    obtain ⟨ha, hab, -⟩ := isSpaceThree_bytes h
    rw [cons_append, cons_append, cons_append, trimStart_three ha hab h, ih]

theorem trimRight_append_blank {v : GoString} (hv : Blank v) (s : GoString) :
  trimRight (s ++ v) = trimRight s
  := by
  -- each rune is taken off behind the ones after it, so the string grows by the runes before them
  induction hv generalizing s with
  | nil => rw [append_nil]
  | @one a v h _ ih =>
    have hone : trimRight (s ++ [a]) = trimRight s := by
      rw [trimRight, reverse_append, reverse_singleton, singleton_append,
        trimStart_one h]
      rfl
    rw [← hone, ← ih (s ++ [a]), append_assoc, singleton_append]
  | @two a b v h _ ih =>
    have htwo : trimRight (s ++ [a, b]) = trimRight s := by
      rw [trimRight, reverse_append]
      change (trimStart _ _ (b :: a :: s.reverse)).reverse = _
      rw [trimStart_two (isSpaceByte_of_isTail (isSpaceTwo_bytes h).2.2) h]
      rfl
    rw [← htwo, ← ih (s ++ [a, b]), append_assoc]
    rfl
  | @three a b c v h _ ih =>
    have hthree : trimRight (s ++ [a, b, c]) = trimRight s := by
      obtain ⟨-, -, hb, hc⟩ := isSpaceThree_bytes h
      have hbc : isSpaceTwo b c = false := by
        by_contra hspace
        rw [(isSpaceTwo_bytes (by simpa using hspace)).2.1] at hb
        cases hb
      rw [trimRight, reverse_append]
      change (trimStart _ _ (c :: b :: a :: s.reverse)).reverse = _
      rw [trimStart_three (isSpaceByte_of_isTail hc) hbc h]
      rfl
    rw [← hthree, ← ih (s ++ [a, b, c]), append_assoc]
    rfl

theorem blank_of_trimLeft_eq_nil {s : GoString} (h : trimLeft s = []) :
  Blank s
  := by
  obtain ⟨u, hu, hblank⟩ := trimStart_spec isSpaceTwo isSpaceThree (P := Blank) .nil
    (fun _ _ => .one) (fun _ _ _ => .two) (fun _ _ _ _ => .three) s
  rw [trimLeft] at h
  rw [h, append_nil] at hu
  rwa [hu]

/-- **White space around a string is not seen by trimming.** -/
theorem trimSpace_append_blank {u v : GoString} (hu : Blank u) (hv : Blank v) (s : GoString) :
  trimSpace (u ++ s ++ v) = trimSpace s
  := by
  unfold trimSpace
  rw [append_assoc, trimLeft_blank_append hu]
  by_cases hs : trimLeft s = []
  · have hleft := trimLeft_blank_append ((blank_of_trimLeft_eq_nil hs).append hv) []
    rw [append_nil] at hleft
    rw [hs, hleft]
    rfl
  · have hleft : trimLeft (s ++ v) = trimLeft s ++ v := by
      have htail : ∀ c ∈ v.head?, isTail c = false := by
        intro c hc
        obtain ⟨t, rfl⟩ := List.head?_eq_some_iff.mp hc
        exact hv.isTail_head
      apply trimStart_append hs
      · intro c hc a
        by_contra hspace
        have hbytes := isSpaceTwo_bytes (a := a) (b := c) (by simpa using hspace)
        rw [htail c hc] at hbytes
        cases hbytes.2.2
      · intro c hc a b
        constructor
        · by_contra hspace
          have hbytes := isSpaceThree_bytes (a := a) (b := b) (c := c) (by simpa using hspace)
          rw [htail c hc] at hbytes
          cases hbytes.2.2.2
        · by_contra hspace
          have hbytes := isSpaceThree_bytes (a := a) (b := c) (c := b) (by simpa using hspace)
          rw [htail c hc] at hbytes
          cases hbytes.2.2.1
    rw [hleft, trimRight_append_blank hv]

theorem trimSpace_trimSpace (s : GoString) :
  trimSpace (trimSpace s) = trimSpace s
  := by
  obtain ⟨u, v, heq, hu, hv⟩ := trimSpace_spec s
  conv_rhs => rw [heq, trimSpace_append_blank hu hv]

end GoString
