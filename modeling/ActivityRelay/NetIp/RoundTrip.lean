import Mathlib.Data.List.TakeWhile
import ActivityRelay.NetIp.Text

/-!
# Reading the text of an IPv6 address back

The text of eight groups of 16 bits is parsed as these groups (`parseAddr_string`). The parser
takes a group at a time, so each lemma says what is left to parse after the groups it is about.
-/

namespace NetIp

open GoString List

/-! ### Groups -/

theorem hexDigits_of_lt {g : ℕ} (h : g < 16) :
  hexDigits g = [(Nat.digitChar g).toNat.toUInt8]
  := by
  rw [hexDigits, Nat.toDigits_of_lt_base h, map_singleton]

theorem hexDigits_of_le {g : ℕ} (h : 16 ≤ g) :
  hexDigits g = hexDigits (g / 16) ++ [(Nat.digitChar (g % 16)).toNat.toUInt8]
  := by
  rw [hexDigits, Nat.toDigits_of_base_le (by omega) h, map_append, map_singleton]
  rfl

variable {d left : ℕ} {gs groups before : List ℕ}

theorem hexValue_digitChar (h : d < 16) :
  hexValue (Nat.digitChar d).toNat.toUInt8 = some d
  := by
  have hall : ∀ d < 16, hexValue (Nat.digitChar d).toNat.toUInt8 = some d := by decide
  exact hall d h

theorem takeHex_digit (h : d < 16) (value count : ℕ) (rest : GoString) :
  takeHex value count ((Nat.digitChar d).toNat.toUInt8 :: rest) =
    takeHex (value * 16 + d) (count + 1) rest
  := by
  rw [takeHex, hexValue_digitChar h]

theorem takeHex_hexDigits (g : ℕ) (rest : GoString) :
  takeHex 0 0 (hexDigits g ++ rest) = takeHex g (hexDigits g).length rest
  := by
  induction g using Nat.strongRecOn generalizing rest with
  | ind g ih =>
    by_cases hg : g < 16
    · rw [hexDigits_of_lt hg, singleton_append, takeHex_digit hg]
      simp
    · rw [hexDigits_of_le (by omega), append_assoc, singleton_append,
        ih (g / 16) (by omega), takeHex_digit (by omega), length_append,
        Nat.div_add_mod']
      rfl

theorem takeHex_stop {rest : GoString} (h : ∀ b ∈ rest.head?, hexValue b = none) (value count : ℕ) :
  takeHex value count rest = (value, count, rest)
  := by
  cases rest with
  | nil => rfl
  | cons b rest => rw [takeHex, h b rfl]

theorem hexDigits_eq_cons (g : ℕ) :
  ∃ b s, hexDigits g = b :: s ∧ b ≠ 0x3A
  := by
  have hdigit : ∀ d < 16, (Nat.digitChar d).toNat.toUInt8 ≠ 0x3A := by decide
  induction g using Nat.strongRecOn with
  | ind g ih =>
    by_cases hg : g < 16
    · exact ⟨_, [], hexDigits_of_lt hg, hdigit g hg⟩
    · obtain ⟨b, s, heq, hb⟩ := ih (g / 16) (by omega)
      rw [hexDigits_of_le (by omega), heq]
      exact ⟨b, s ++ _, rfl, hb⟩

section Groups

variable {g : ℕ} (hg : g < 65536) (left : ℕ) (groups : List ℕ)
include hg

/-- The digits of a group are read when no digit follows them. -/
theorem takeHex_group {rest : GoString} (h : ∀ b ∈ rest.head?, hexValue b = none) :
  ∃ count, takeHex 0 0 (hexDigits g ++ rest) = (g, count, rest) ∧ ¬ (count = 0 ∨ 4 < count)
  := by
  obtain ⟨b, s, heq, -⟩ := hexDigits_eq_cons g
  have hle := length_hexDigits_le hg
  refine ⟨(hexDigits g).length, ?_, ?_⟩
  · rw [takeHex_hexDigits, takeHex_stop h]
  · have hpos : 0 < (hexDigits g).length := by
      rw [heq]
      exact Nat.succ_pos _
    omega

theorem parseIPv6Groups_last (ellipsis : Option ℕ) :
  parseIPv6Groups (left + 1) groups ellipsis (hexDigits g) = some (groups ++ [g], ellipsis)
  := by
  have hstop : ∀ b ∈ ([] : GoString).head?, hexValue b = none := by simp
  obtain ⟨count, htake, hcount⟩ := takeHex_group hg hstop
  rw [append_nil] at htake
  unfold parseIPv6Groups
  rw [htake]
  dsimp only
  rw [if_neg hcount, if_neg (by simp)]

/-- A group is read up to the colon after it, which may be the first one of an ellipsis. -/
theorem parseIPv6Groups_colon (ellipsis : Option ℕ) (b : UInt8) (rest : GoString) :
  parseIPv6Groups (left + 1) groups ellipsis (hexDigits g ++ 0x3A :: b :: rest) =
    if b = 0x3A then
      if ellipsis ≠ none then none
      else if rest = [] then some (groups ++ [g], some (groups ++ [g]).length)
      else parseIPv6Groups left (groups ++ [g]) (some (groups ++ [g]).length) rest
    else parseIPv6Groups left (groups ++ [g]) ellipsis (b :: rest)
  := by
  have hstop : ∀ b' ∈ (0x3A :: b :: rest).head?, hexValue b' = none := by
    rintro b' ⟨⟩
    rfl
  obtain ⟨count, htake, hcount⟩ := takeHex_group hg hstop
  conv_lhs => unfold parseIPv6Groups
  rw [htake]
  dsimp only
  rw [if_neg hcount, if_neg (by simp), if_neg (by simp)]

end Groups

theorem colons_singleton (g : ℕ) :
  colons [g] = hexDigits g
  := by
  simp [colons]

theorem colons_cons_cons (g g' : ℕ) (groups : List ℕ) :
  colons (g :: g' :: groups) = hexDigits g ++ 0x3A :: colons (g' :: groups)
  := by
  simp [colons, intercalate_cons_cons]

theorem colons_eq_cons (g : ℕ) (groups : List ℕ) :
  ∃ b s, colons (g :: groups) = b :: s ∧ b ≠ 0x3A
  := by
  obtain ⟨b, s, heq, hb⟩ := hexDigits_eq_cons g
  cases groups with
  | nil =>
    rw [colons_singleton]
    exact ⟨b, s, heq, hb⟩
  | cons g' groups =>
    rw [colons_cons_cons, heq]
    exact ⟨b, s ++ _, rfl, hb⟩

theorem parseIPv6Groups_colons (hne : gs ≠ []) (h : ∀ g ∈ gs, g < 65536) (hleft : gs.length ≤ left)
    (groups : List ℕ) (ellipsis : Option ℕ) :
  parseIPv6Groups left groups ellipsis (colons gs) = some (groups ++ gs, ellipsis)
  := by
  induction gs generalizing left groups with
  | nil => exact absurd rfl hne
  | cons g gs ih =>
    rw [forall_mem_cons] at h
    obtain ⟨left, rfl⟩ := Nat.exists_eq_add_of_le' (Nat.one_le_of_lt hleft)
    cases gs with
    | nil => rw [colons_singleton, parseIPv6Groups_last h.1]
    | cons g' gs =>
      obtain ⟨b, s, heq, hb⟩ := colons_eq_cons g' gs
      rw [colons_cons_cons, heq, parseIPv6Groups_colon h.1, if_neg hb, ← heq,
        ih (cons_ne_nil _ _) h.2 (Nat.le_of_succ_le_succ hleft), append_assoc]
      rfl

theorem parseIPv6Groups_colons_ellipsis (hne : gs ≠ []) (h : ∀ g ∈ gs, g < 65536)
    (hleft : gs.length ≤ left) (groups : List ℕ) (rest : GoString) :
  parseIPv6Groups left groups none (colons gs ++ 0x3A :: 0x3A :: rest) =
    if rest = [] then some (groups ++ gs, some (groups ++ gs).length)
    else parseIPv6Groups (left - gs.length) (groups ++ gs) (some (groups ++ gs).length) rest
  := by
  induction gs generalizing left groups with
  | nil => exact absurd rfl hne
  | cons g gs ih =>
    rw [forall_mem_cons] at h
    obtain ⟨left, rfl⟩ := Nat.exists_eq_add_of_le' (Nat.one_le_of_lt hleft)
    cases gs with
    | nil => rw [colons_singleton, parseIPv6Groups_colon h.1, if_pos rfl, if_neg (by simp),
        length_singleton, Nat.add_sub_cancel]
    | cons g' gs =>
      obtain ⟨b, s, heq, hb⟩ := colons_eq_cons g' gs
      have ih := ih (cons_ne_nil _ _) h.2 (Nat.le_of_succ_le_succ hleft) (groups ++ [g])
      rw [heq, cons_append] at ih
      rw [colons_cons_cons, heq, append_assoc, cons_append, cons_append,
        parseIPv6Groups_colon h.1, if_neg hb, ih, append_assoc, singleton_append,
        length_cons (a := g), Nat.add_sub_add_right]

/-- The groups after an ellipsis, of which there may be none. -/
theorem parseIPv6Groups_afterEllipsis (h : ∀ g ∈ gs, g < 65536) (hleft : gs.length ≤ left)
    (groups : List ℕ) (ellipsis : Option ℕ) :
  (if colons gs = [] then some (groups, ellipsis)
    else parseIPv6Groups left groups ellipsis (colons gs)) = some (groups ++ gs, ellipsis)
  := by
  cases gs with
  | nil =>
    have hempty : colons [] = [] := rfl
    rw [if_pos hempty, append_nil]
  | cons g gs =>
    obtain ⟨b, s, heq, -⟩ := colons_eq_cons g gs
    rw [if_neg (by rw [heq]; simp), parseIPv6Groups_colons (cons_ne_nil _ _) h hleft]

/-! ### The longest run of zeros -/

/-- The groups from the position `i` on begin with `run` zeros. -/
def IsZeroRun (groups : List ℕ) (i run : ℕ) : Prop :=
  2 ≤ run ∧ ∃ before after, groups = before ++ List.replicate run 0 ++ after ∧ before.length = i

theorem zeroRun_spec (groups : List ℕ) :
  ∃ after, groups = List.replicate (zeroRun groups) 0 ++ after
  := by
  have hzero : groups.takeWhile (· = 0) = List.replicate (zeroRun groups) 0 := by
    apply eq_replicate_of_mem
    intro g hg
    simpa using mem_takeWhile_imp hg
  use groups.dropWhile (· = 0)
  rw [← hzero, takeWhile_append_dropWhile]

/-- The run that is chosen is one of zeros. -/
theorem longestZeroRun_spec {best : Option (ℕ × ℕ)}
    (hbest : ∀ p ∈ best, IsZeroRun (before ++ groups) p.1 p.2) :
  ∀ p ∈ longestZeroRun before.length best groups, IsZeroRun (before ++ groups) p.1 p.2
  := by
  induction groups generalizing before best with
  | nil => exact hbest
  | cons g groups ih =>
    have htext : before ++ g :: groups = (before ++ [g]) ++ groups := by simp
    have hlength : (before ++ [g]).length = before.length + 1 := by simp
    unfold longestZeroRun
    dsimp only
    rw [htext, ← hlength]
    apply ih
    rw [← htext]
    intro p hp
    split_ifs at hp with hrun
    · obtain rfl := Option.mem_some_iff.mp hp
      obtain ⟨after, heq⟩ := zeroRun_spec (g :: groups)
      refine ⟨hrun.1, before, after, ?_, rfl⟩
      rw [append_assoc, ← heq]
    · exact hbest p hp

theorem longestZeroRun_isZeroRun {i run : ℕ} (h : longestZeroRun 0 none groups = some (i, run)) :
  IsZeroRun groups i run
  := by
  have hspec : ∀ p ∈ longestZeroRun ([] : List ℕ).length none groups,
      IsZeroRun ([] ++ groups) p.1 p.2 := longestZeroRun_spec (by simp)
  exact hspec (i, run) h

/-! ### Addresses in dots -/

theorem formatNat_of_lt {n : ℕ} (h : n < 10) :
  formatNat n = [(Nat.digitChar n).toNat.toUInt8]
  := by
  rw [formatNat, Nat.toDigits_of_lt_base h, map_singleton]

theorem formatNat_of_le {n : ℕ} (h : 10 ≤ n) :
  formatNat n = formatNat (n / 10) ++ [(Nat.digitChar (n % 10)).toNat.toUInt8]
  := by
  rw [formatNat, Nat.toDigits_of_base_le (by omega) h, map_append, map_singleton]
  rfl

theorem digitChar_toUInt8 (h : d < 10) :
  (Nat.digitChar d).toNat.toUInt8 ≠ 0x2E ∧ digitValue (Nat.digitChar d).toNat.toUInt8 = some d
  := by
  have hall : ∀ d < 10, (Nat.digitChar d).toNat.toUInt8 ≠ 0x2E ∧
      digitValue (Nat.digitChar d).toNat.toUInt8 = some d := by decide
  exact hall d h

theorem parseIPv4Fields_digit (hd : d < 10) {fields : List ℕ} {digits value : ℕ}
    (h : ¬ (digits = 1 ∧ value = 0 ∨ 255 < value * 10 + d)) (rest : GoString) :
  parseIPv4Fields fields digits value ((Nat.digitChar d).toNat.toUInt8 :: rest) =
    parseIPv4Fields fields (digits + 1) (value * 10 + d) rest
  := by
  obtain ⟨hdot, hvalue⟩ := digitChar_toUInt8 hd
  rw [parseIPv4Fields, if_neg hdot, hvalue]
  dsimp only
  rw [if_neg h]

theorem parseIPv4Fields_formatNat {n : ℕ} (hn : n ≤ 255) (fields : List ℕ) (rest : GoString) :
  parseIPv4Fields fields 0 0 (formatNat n ++ rest) =
    parseIPv4Fields fields (formatNat n).length n rest
  := by
  induction n using Nat.strongRecOn generalizing rest with
  | ind n ih =>
    by_cases hlt : n < 10
    · rw [formatNat_of_lt hlt, singleton_append, parseIPv4Fields_digit hlt (by omega)]
      simp
    · rw [formatNat_of_le (by omega), append_assoc, singleton_append,
        ih (n / 10) (by omega) (by omega), parseIPv4Fields_digit (by omega) (by omega),
        Nat.div_add_mod', length_append]
      rfl

theorem formatNat_length_ne_zero (n : ℕ) :
  (formatNat n).length ≠ 0
  := by
  have hpos := length_pos_of_ne_nil (formatNat_ne_nil n)
  omega

theorem dotted_eq_cons (n : ℕ) (bytes : List ℕ) :
  ∃ b s, dotted (n :: bytes) = b :: s ∧ b ≠ 0x3A
  := by
  obtain ⟨b, s, heq⟩ := exists_cons_of_length_pos (Nat.pos_of_ne_zero (formatNat_length_ne_zero n))
  have hb : b ≠ 0x3A := by
    rintro rfl
    have hrange := mem_formatNat (heq ▸ mem_cons_self : (0x3A : UInt8) ∈ formatNat n)
    exact absurd hrange.2 (by decide)
  cases bytes with
  | nil => exact ⟨b, s, by simpa [dotted] using heq, hb⟩
  | cons m bytes =>
    refine ⟨b, s ++ 0x2E :: dotted (m :: bytes), ?_, hb⟩
    simp [dotted, intercalate_cons_cons, heq]

theorem parseIPv4Fields_dotted {a b c : ℕ} (h : ∀ n ∈ [a, b, c, d], n ≤ 255) :
  parseIPv4Fields [] 0 0 (dotted [a, b, c, d]) = some [a, b, c, d]
  := by
  have htext : dotted [a, b, c, d] =
      formatNat a ++ 0x2E :: (formatNat b ++ 0x2E :: (formatNat c ++ 0x2E :: (formatNat d ++ []))) := by
    simp [dotted, intercalate_cons_cons]
  have hdot : ∀ {fields : List ℕ} {digits value : ℕ} {rest : GoString}, digits ≠ 0 →
      fields.length ≠ 3 → parseIPv4Fields fields digits value (0x2E :: rest) =
        parseIPv4Fields (fields ++ [value]) 0 0 rest := by
    intro fields digits value rest hdigits hlength
    rw [parseIPv4Fields, if_pos rfl, if_neg (by simp [hdigits, hlength])]
  simp only [forall_mem_cons] at h
  obtain ⟨ha, hb, hc, hd, -⟩ := h
  rw [htext, parseIPv4Fields_formatNat ha, hdot (formatNat_length_ne_zero a) (by simp),
    parseIPv4Fields_formatNat hb, hdot (formatNat_length_ne_zero b) (by simp),
    parseIPv4Fields_formatNat hc, hdot (formatNat_length_ne_zero c) (by simp),
    parseIPv4Fields_formatNat hd, parseIPv4Fields, if_pos ⟨formatNat_length_ne_zero d, by simp⟩]
  rfl

/-- Decimal digits are hexadecimal ones. -/
theorem takeHex_formatNat (n value count : ℕ) (rest : GoString) :
  ∃ value', takeHex value count (formatNat n ++ rest) =
    takeHex value' (count + (formatNat n).length) rest
  := by
  induction n using Nat.strongRecOn generalizing value count rest with
  | ind n ih =>
    by_cases hlt : n < 10
    · rw [formatNat_of_lt hlt, singleton_append, takeHex_digit (by omega)]
      exact ⟨_, rfl⟩
    · rw [formatNat_of_le (by omega), append_assoc, singleton_append]
      obtain ⟨value', heq⟩ := ih (n / 10) (by omega) value count
        ((Nat.digitChar (n % 10)).toNat.toUInt8 :: rest)
      rw [heq, takeHex_digit (by omega), length_append]
      exact ⟨_, rfl⟩

theorem parseIPv6Groups_dotted {a b c : ℕ} (h : ∀ n ∈ [a, b, c, d], n ≤ 255) {i : ℕ}
    (hgroups : groups.length ≤ 6) :
  parseIPv6Groups (left + 1) groups (some i) (dotted [a, b, c, d]) =
    some (groups ++ [a * 256 + b, c * 256 + d], some i)
  := by
  have htext : dotted [a, b, c, d] =
      formatNat a ++ 0x2E :: [0x2E].intercalate [formatNat b, formatNat c, formatNat d] := by
    simp [dotted, intercalate_cons_cons]
  have ha := length_formatNat_le (h a (by simp))
  obtain ⟨value, htake⟩ := takeHex_formatNat a 0 0
    (0x2E :: [0x2E].intercalate [formatNat b, formatNat c, formatNat d])
  have hstop : takeHex value (0 + (formatNat a).length)
      (0x2E :: [0x2E].intercalate [formatNat b, formatNat c, formatNat d]) =
      (value, 0 + (formatNat a).length, _) := takeHex_stop (by rintro b' ⟨⟩; rfl) _ _
  have hcount := formatNat_length_ne_zero a
  rw [hstop, ← htext] at htake
  unfold parseIPv6Groups
  rw [htake, parseIPv4Fields_dotted h]
  dsimp only
  rw [if_neg (by omega), List.head?_cons, if_pos rfl, if_neg (by simp; omega)]

/-! ### Addresses -/

variable {s : GoString} {ellipsis : Option ℕ} {groups' : List ℕ}

theorem cutPercent_of_not_mem (h : 0x25 ∉ s) :
  cutPercent s = (s, none)
  := by
  have hdrop : s.dropWhile (· ≠ 0x25) = [] := by
    rw [dropWhile_eq_nil_iff]
    intro b hb
    simpa using ne_of_mem_of_not_mem hb h
  rw [cutPercent, hdrop]

/-- What `parseIPv6` makes of a text without a zone. -/
theorem parseIPv6_of_groups (hzone : 0x25 ∉ s) (hhead : ∀ rest, s ≠ 0x3A :: 0x3A :: rest)
    (h : parseIPv6Groups 8 [] none s = some (groups', ellipsis))
    (hexpand : expandEllipsis groups' ellipsis = some groups) :
  parseIPv6 s = some (.v6 groups [])
  := by
  unfold parseIPv6
  rw [cutPercent_of_not_mem hzone]
  dsimp only
  rw [if_neg (by simp)]
  split
  · rename_i hparsed
    split at hparsed
    · rename_i rest
      exact absurd rfl (hhead rest)
    · cases h.symm.trans hparsed
  · rename_i hparsed
    split at hparsed
    · rename_i rest
      exact absurd rfl (hhead rest)
    · cases h.symm.trans hparsed
      rw [hexpand]
      rfl

theorem parseIPv6_of_ellipsis (hzone : 0x25 ∉ s)
    (h : (if s = [] then some ([], some 0) else parseIPv6Groups 8 [] (some 0) s) =
      some (groups', ellipsis)) (hexpand : expandEllipsis groups' ellipsis = some groups) :
  parseIPv6 (0x3A :: 0x3A :: s) = some (.v6 groups [])
  := by
  unfold parseIPv6
  rw [cutPercent_of_not_mem (by simp [hzone])]
  dsimp only
  rw [if_neg (by simp)]
  split
  · rename_i hparsed
    cases h.symm.trans hparsed
  · rename_i hparsed
    cases h.symm.trans hparsed
    rw [hexpand]
    rfl

theorem parseAddr_of_colon {before after : GoString}
    (h : ∀ b ∈ before, b ≠ 0x2E ∧ b ≠ 0x3A ∧ b ≠ 0x25) :
  parseAddr (before ++ 0x3A :: after) = parseIPv6 (before ++ 0x3A :: after)
  := by
  have hfind : (before ++ 0x3A :: after).find? (fun b => b = 0x2E ∨ b = 0x3A ∨ b = 0x25) =
      some 0x3A := by
    rw [List.find?_append, List.find?_eq_none.mpr (by
      intro b hb
      simpa using h b hb)]
    rfl
  unfold parseAddr
  rw [hfind]
  rfl

theorem expandEllipsis_run {after : List ℕ} {run : ℕ} (hrun : 2 ≤ run)
    (h : (before ++ List.replicate run 0 ++ after).length = 8) :
  expandEllipsis (before ++ after) (some before.length) =
    some (before ++ List.replicate run 0 ++ after)
  := by
  rw [length_append, length_append, length_replicate] at h
  have hlength : (before ++ after).length = _ := length_append
  have hzeros : 8 - (before ++ after).length = run := by omega
  unfold expandEllipsis
  dsimp only
  rw [if_pos (by omega), hzeros, take_left, drop_left]

/-- A byte of the digits of a group is no separator. -/
theorem hexDigits_separator {g : ℕ} {b : UInt8} (h : b ∈ hexDigits g) :
  b ≠ 0x2E ∧ b ≠ 0x3A ∧ b ≠ 0x25
  := by
  have hdigit : ∀ d < 16, ∀ b ∈ [(Nat.digitChar d).toNat.toUInt8],
      b ≠ 0x2E ∧ b ≠ 0x3A ∧ b ≠ 0x25 := by decide +kernel
  induction g using Nat.strongRecOn with
  | ind g ih =>
    by_cases hg : g < 16
    · rw [hexDigits_of_lt hg] at h
      exact hdigit g hg b h
    · rw [hexDigits_of_le (by omega), mem_append] at h
      obtain h | h := h
      · exact ih (g / 16) (by omega) h
      · exact hdigit (g % 16) (by omega) b h

/-- The text of an IPv4 address in an IPv6 one. -/
theorem parseAddr_mapped {g g' : ℕ} (hg : g < 65536) (hg' : g' < 65536) :
  parseAddr (lit "::ffff:" ++ dotted [g / 256, g % 256, g' / 256, g' % 256] ++ []) =
    some (.v6 [0, 0, 0, 0, 0, 0xFFFF, g, g'] [])
  := by
  have hbytes : ∀ n ∈ [g / 256, g % 256, g' / 256, g' % 256], n ≤ 255 := by
    simp only [forall_mem_cons]
    exact ⟨by omega, by omega, by omega, by omega, by simp⟩
  have hdotted : parseIPv6Groups 8 [] (some 0)
      (hexDigits 0xFFFF ++ 0x3A :: dotted [g / 256, g % 256, g' / 256, g' % 256]) =
      some ([] ++ [0xFFFF, g, g'], some 0) := by
    obtain ⟨b, s, heq, hb⟩ := dotted_eq_cons (g / 256) [g % 256, g' / 256, g' % 256]
    rw [heq, parseIPv6Groups_colon (by omega), if_neg hb, ← heq,
      parseIPv6Groups_dotted hbytes (by simp), Nat.div_add_mod', Nat.div_add_mod']
    rfl
  have hzone : 0x25 ∉ hexDigits 0xFFFF ++ 0x3A :: dotted [g / 256, g % 256, g' / 256, g' % 256] := by
    simp only [mem_append, mem_cons, not_or]
    refine ⟨by decide, by decide, fun hmem => ?_⟩
    exact absurd (isAddressByte_dotted hmem) (by decide)
  have htext : lit "::ffff:" ++ dotted [g / 256, g % 256, g' / 256, g' % 256] ++ [] =
      [] ++ 0x3A :: 0x3A ::
        (hexDigits 0xFFFF ++ 0x3A :: dotted [g / 256, g % 256, g' / 256, g' % 256]) := by
    rw [append_nil]
    rfl
  rw [htext, parseAddr_of_colon (by simp), nil_append]
  have hexpand : expandEllipsis ([] ++ [0xFFFF, g, g']) (some ([] : List ℕ).length) =
      some ([] ++ List.replicate 5 0 ++ [0xFFFF, g, g']) := expandEllipsis_run (by omega) rfl
  apply parseIPv6_of_ellipsis hzone _ hexpand
  rw [if_neg (by simp), hdotted]
  rfl

section Text

variable {groups : List ℕ} (hlength : groups.length = 8) (h : ∀ g ∈ groups, g < 65536)
include hlength h

/-- The text of groups without a run of zeros. -/
theorem parseAddr_colons :
  parseAddr (colons groups) = some (.v6 groups [])
  := by
  obtain ⟨g, g', gs, rfl⟩ : ∃ g g' gs, groups = g :: g' :: gs := by
    match groups, hlength with
    | g :: g' :: gs, _ => exact ⟨g, g', gs, rfl⟩
  have hzone : 0x25 ∉ colons (g :: g' :: gs) := by
    intro hmem
    exact absurd (isAddressByte_colons hmem) (by decide)
  obtain ⟨b, s, heq, hb⟩ := colons_eq_cons g (g' :: gs)
  have hhead : ∀ rest, colons (g :: g' :: gs) ≠ 0x3A :: 0x3A :: rest := by
    intro rest hrest
    rw [heq] at hrest
    exact hb (List.cons.inj hrest).1
  have hparse := parseIPv6_of_groups hzone hhead
    (parseIPv6Groups_colons (cons_ne_nil _ _) h (le_of_eq hlength) [] none)
    (by rw [nil_append, expandEllipsis, if_pos hlength])
  rw [← hparse, colons_cons_cons]
  exact parseAddr_of_colon (fun b hb => hexDigits_separator hb)

/-- The text of groups with a run of zeros. -/
theorem parseAddr_ellipsis {after : List ℕ} {run : ℕ} (hrun : 2 ≤ run)
    (hgroups : groups = before ++ List.replicate run 0 ++ after) :
  parseAddr (colons before ++ lit "::" ++ colons after) = some (.v6 groups [])
  := by
  subst hgroups
  have hbefore : ∀ g ∈ before, g < 65536 := fun g hg => h g (by simp [hg])
  have hafter : ∀ g ∈ after, g < 65536 := fun g hg => h g (by simp [hg])
  have hexpand := expandEllipsis_run hrun hlength
  have hlengths : before.length + (run + after.length) = 8 := by
    simpa using hlength
  have hzone : ∀ gs, 0x25 ∉ colons gs := by
    intro gs hmem
    exact absurd (isAddressByte_colons hmem) (by decide)
  have htext : colons before ++ lit "::" ++ colons after =
      colons before ++ 0x3A :: 0x3A :: colons after := by
    rw [append_assoc]
    rfl
  rw [htext]
  cases before with
  | nil =>
    change parseAddr ([] ++ 0x3A :: 0x3A :: colons after) = _
    rw [parseAddr_of_colon (by simp), nil_append]
    apply parseIPv6_of_ellipsis (hzone after) _ hexpand
    exact parseIPv6Groups_afterEllipsis hafter (by omega) [] (some 0)
  | cons g gs =>
    have hgroups : parseIPv6Groups 8 [] none (colons (g :: gs) ++ 0x3A :: 0x3A :: colons after) =
        some (g :: gs ++ after, some (g :: gs).length) := by
      rw [parseIPv6Groups_colons_ellipsis (cons_ne_nil _ _) hbefore (by omega)]
      exact parseIPv6Groups_afterEllipsis hafter (by omega) _ _
    obtain ⟨b, s, heq, hb⟩ := colons_eq_cons g gs
    have hhead : ∀ rest, colons (g :: gs) ++ 0x3A :: 0x3A :: colons after ≠
        0x3A :: 0x3A :: rest := by
      intro rest hrest
      rw [heq] at hrest
      exact hb (List.cons.inj hrest).1
    have hparse := parseIPv6_of_groups (by simp [hzone]) hhead hgroups hexpand
    rw [← hparse]
    cases gs with
    | nil =>
      rw [colons_singleton]
      exact parseAddr_of_colon (fun b hb => hexDigits_separator hb)
    | cons g' gs =>
      rw [colons_cons_cons, append_assoc, cons_append]
      exact parseAddr_of_colon (fun b hb => hexDigits_separator hb)

/-- **The text of an IPv6 address is parsed as the address.** -/
theorem parseAddr_string :
  parseAddr (Addr.string (.v6 groups [])) = some (.v6 groups [])
  := by
  unfold Addr.string zoneString
  dsimp only
  rw [if_pos rfl]
  split
  case h_1 g g' =>
    exact parseAddr_mapped (h g (by simp)) (h g' (by simp))
  case h_2 =>
    rw [append_nil]
    split
    · exact parseAddr_colons hlength h
    case h_2 i run hlongest =>
      obtain ⟨hrun, before, after, heq, rfl⟩ := longestZeroRun_isZeroRun hlongest
      have htake : groups.take before.length = before := by
        rw [heq, append_assoc, take_left]
      have hdrop : groups.drop (before.length + run) = after := by
        rw [heq]
        simp
      rw [htake, hdrop]
      exact parseAddr_ellipsis hlength h hrun heq

end Text

end NetIp
