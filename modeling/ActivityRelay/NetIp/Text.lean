import ActivityRelay.NetIp.Addr

/-!
# The text of an address

An IPv4 address that is read is written as it was read. The text of an address of version 6 has
hexadecimal digits, colons and dots only, apart from a zone, and it is short.
-/

namespace NetIp

open GoString List

/-! ### Texts with separators -/

variable {b sep : UInt8} {ls : List GoString} {n d : ℕ} {s : GoString}
  {bytes groups groups' : List ℕ}

theorem mem_intercalate (h : b ∈ [sep].intercalate ls) :
  b = sep ∨ ∃ l ∈ ls, b ∈ l
  := by
  induction ls with
  | nil => cases h
  | cons l ls ih =>
    cases ls with
    | nil =>
      rw [intercalate_singleton] at h
      exact .inr ⟨l, by simp, h⟩
    | cons l' ls =>
      rw [intercalate_cons_cons, mem_append, mem_append,
        mem_singleton] at h
      obtain (h | h) | h := h
      · exact .inr ⟨l, by simp, h⟩
      · exact .inl h
      · obtain h | ⟨l'', hmem, h⟩ := ih h
        · exact .inl h
        · exact .inr ⟨l'', mem_cons_of_mem _ hmem, h⟩

theorem length_intercalate_le (h : ∀ l ∈ ls, l.length ≤ n) :
  ([sep].intercalate ls).length ≤ ls.length * (n + 1)
  := by
  induction ls with
  | nil => simp
  | cons l ls ih =>
    rw [forall_mem_cons] at h
    cases ls with
    | nil =>
      rw [intercalate_singleton, length_singleton]
      omega
    | cons l' ls =>
      have hle := ih h.2
      rw [intercalate_cons_cons, length_append, length_append,
        length_singleton, length_cons, Nat.add_mul]
      omega

/-! ### IPv4 -/

theorem digitValue_eq_some (h : digitValue b = some d) :
  b = UInt8.ofNat (0x30 + d) ∧ d < 10
  := by
  unfold digitValue at h
  split_ifs at h with hrange
  cases h
  refine ⟨?_, by omega⟩
  rw [Nat.add_sub_cancel' hrange.1, UInt8.ofNat_toNat]

theorem formatNat_digit (hb : digitValue b = some d) :
  formatNat d = [b]
  := by
  obtain ⟨rfl, hd⟩ := digitValue_eq_some hb
  have hall : ∀ d < 10, formatNat d = [UInt8.ofNat (0x30 + d)] := by decide +kernel
  exact hall d hd

/-- A digit that is added to a number. -/
theorem formatNat_add_digit {value : ℕ} (hb : digitValue b = some d) (hvalue : value ≠ 0)
    (hle : value * 10 + d ≤ 255) :
  formatNat (value * 10 + d) = formatNat value ++ [b]
  := by
  obtain ⟨rfl, hd⟩ := digitValue_eq_some hb
  have hall : ∀ v < 26, ∀ d < 10, v ≠ 0 →
      formatNat (v * 10 + d) = formatNat v ++ [UInt8.ofNat (0x30 + d)] := by
    decide +kernel
  exact hall value (by omega) d hd hvalue

/-- What is left of an address after the fields before the current one. A field of several digits
does not start with zero. -/
theorem parseIPv4Fields_spec {fields : List ℕ} {digits value : ℕ}
    (h : parseIPv4Fields fields digits value s = some bytes) (hvalue : value ≤ 255)
    (hzero : digits = 0 → value = 0) (hmore : 2 ≤ digits → value ≠ 0) :
  ∃ rest, bytes = fields ++ rest ∧ bytes.length = 4 ∧ rest ≠ [] ∧ (∀ n ∈ rest, n ≤ 255) ∧
    (if digits = 0 then [] else formatNat value) ++ s = dotted rest
  := by
  induction s generalizing fields digits value with
  | nil =>
    rw [parseIPv4Fields] at h
    split_ifs at h with hend
    cases h
    refine ⟨[value], rfl, ?_, by simp, by simpa using hvalue, ?_⟩
    · simp [hend.2]
    · rw [if_neg hend.1, append_nil, dotted, map_singleton, intercalate_singleton]
  | cons b s ih =>
    rw [parseIPv4Fields] at h
    split_ifs at h with hdot hend
    · obtain ⟨rest, rfl, hlength, hne, hle, htext⟩ := ih h (by omega) (by simp) (by simp)
      obtain ⟨n, rest, rfl⟩ := exists_cons_of_ne_nil hne
      rw [not_or] at hend
      refine ⟨value :: n :: rest, by simp, hlength, by simp, ?_, ?_⟩
      · exact forall_mem_cons.mpr ⟨hvalue, hle⟩
      · rw [if_pos rfl, nil_append] at htext
        rw [if_neg hend.1, dotted, map_cons, map_cons, intercalate_cons_cons, hdot,
          htext, append_assoc]
        rfl
    · cases hb : digitValue b with
      | none => simp [hb] at h
      | some d =>
        simp only [hb] at h
        split_ifs at h with hbad
        rw [not_or] at hbad
        have hnonzero : digits ≠ 0 → value ≠ 0 := by
          intro hdigits hvalue
          exact hbad.1 ⟨by by_contra hne; exact hmore (by omega) hvalue, hvalue⟩
        obtain ⟨rest, hbytes, hlength, hne, hle, htext⟩ := ih h (by omega) (by simp) (by
          omega)
        refine ⟨rest, hbytes, hlength, hne, hle, ?_⟩
        rw [← htext, if_neg (Nat.succ_ne_zero _)]
        by_cases hdigits : digits = 0
        · rw [if_pos hdigits, hzero hdigits, Nat.zero_mul, Nat.zero_add, formatNat_digit hb]
          rfl
        · rw [if_neg hdigits, formatNat_add_digit hb (hnonzero hdigits) (by omega),
            append_assoc]
          rfl

theorem dotted_of_parse (h : parseIPv4Fields [] 0 0 s = some bytes) :
  dotted bytes = s ∧ bytes.length = 4 ∧ ∀ n ∈ bytes, n ≤ 255
  := by
  obtain ⟨rest, rfl, hlength, -, hle, htext⟩ :=
    parseIPv4Fields_spec h (by omega) (by simp) (by simp)
  exact ⟨htext.symm, hlength, hle⟩

theorem mem_formatNat (h : b ∈ formatNat n) :
  0x30 ≤ b.toNat ∧ b.toNat ≤ 0x39
  := by
  obtain ⟨c, hc, rfl⟩ := mem_map.mp h
  have hrange := digit_toNat (Nat.isDigit_of_mem_toDigits (by decide) (by decide) hc)
  rwa [toNat_toUInt8 (by omega)]

theorem length_formatNat_le (h : n ≤ 255) :
  (formatNat n).length ≤ 3
  := by
  rw [formatNat, length_map, Nat.length_toDigits_le_iff (by omega) (by omega)]
  omega

/-! ### IPv6 -/

theorem hexValue_lt (h : hexValue b = some d) :
  d < 16
  := by
  simp only [hexValue, isDigit_iff] at h
  split_ifs at h <;> obtain rfl := Option.some.inj h <;> omega

theorem takeHex_lt {value count : ℕ} (h : value < 16 ^ count) (s : GoString) :
  (takeHex value count s).1 < 16 ^ (takeHex value count s).2.1
  := by
  induction s generalizing value count with
  | nil => exact h
  | cons b s ih =>
    rw [takeHex]
    cases hb : hexValue b with
    | none => exact h
    | some d =>
      have hd := hexValue_lt hb
      refine ih ?_
      omega

theorem parseIPv6Groups_lt {left : ℕ} {ellipsis ellipsis' : Option ℕ}
    (h : parseIPv6Groups left groups ellipsis s = some (groups', ellipsis'))
    (hgroups : ∀ g ∈ groups, g < 65536) :
  ∀ g ∈ groups', g < 65536
  := by
  induction left generalizing groups ellipsis s with
  | zero =>
    rw [parseIPv6Groups] at h
    split_ifs at h
    cases h
    exact hgroups
  | succ left ih =>
    rw [parseIPv6Groups] at h
    have hlt : (takeHex 0 0 s).1 < 16 ^ (takeHex 0 0 s).2.1 := takeHex_lt (by decide) s
    generalize takeHex 0 0 s = hex at h hlt
    obtain ⟨value, count, rest⟩ := hex
    dsimp only at h hlt
    by_cases hcount : count = 0 ∨ 4 < count
    · rw [if_pos hcount] at h
      cases h
    rw [if_neg hcount] at h
    have hvalue : value < 65536 := by
      have hpow : 16 ^ count ≤ 16 ^ 4 := Nat.pow_le_pow_right (by omega) (by omega)
      omega
    have hnext : ∀ g ∈ groups ++ [value], g < 65536 := by
      rw [forall_mem_append]
      exact ⟨hgroups, by simpa using hvalue⟩
    by_cases hdot : rest.head? = some 0x2E
    · -- the last two groups are written as an IPv4 address
      split_ifs at h
      split at h
      case h_1 a b c d hparse =>
        cases h
        have hle := (dotted_of_parse hparse).2.2
        simp only [forall_mem_cons] at hle
        rw [forall_mem_append]
        refine ⟨hgroups, ?_⟩
        simp only [forall_mem_cons]
        refine ⟨by omega, by omega, by simp⟩
      case h_2 => cases h
    · rw [if_neg hdot] at h
      split at h
      case h_1 =>
        cases h
        exact hnext
      case h_2 => cases h
      case h_3 =>
        split_ifs at h
        · cases h
          exact hnext
        · exact ih h hnext
        · exact ih h hnext

theorem expandEllipsis_spec {ellipsis : Option ℕ}
    (h : expandEllipsis groups ellipsis = some groups') (hgroups : ∀ g ∈ groups, g < 65536) :
  groups'.length = 8 ∧ ∀ g ∈ groups', g < 65536
  := by
  cases ellipsis with
  | none =>
    rw [expandEllipsis] at h
    split_ifs at h with hlength
    cases h
    exact ⟨hlength, hgroups⟩
  | some n =>
    rw [expandEllipsis] at h
    split_ifs at h with hlength
    cases h
    constructor
    · simp only [length_append, length_take, length_replicate, length_drop]
      omega
    · intro g hg
      simp only [mem_append, mem_replicate] at hg
      obtain (hg | ⟨-, rfl⟩) | hg := hg
      · exact hgroups g (mem_of_mem_take hg)
      · omega
      · exact hgroups g (mem_of_mem_drop hg)

/-- An address has eight groups of sixteen bits. -/
theorem parseIPv6_spec {zone : GoString} (h : parseIPv6 s = some (.v6 groups zone)) :
  groups.length = 8 ∧ ∀ g ∈ groups, g < 65536
  := by
  unfold parseIPv6 at h
  dsimp only at h
  split_ifs at h
  split at h
  case h_1 => cases h
  case h_2 parsed groups₀ ellipsis hparsed =>
    obtain ⟨groups', hexpand, heq⟩ := Option.map_eq_some_iff.mp h
    cases heq
    refine expandEllipsis_spec hexpand ?_
    split at hparsed
    case h_1 =>
      split_ifs at hparsed
      · cases hparsed
        simp
      · exact parseIPv6Groups_lt hparsed (by simp)
    case h_2 => exact parseIPv6Groups_lt hparsed (by simp)

theorem parseIPv6_eq_v6 {address : Addr} (h : parseIPv6 s = some address) :
  ∃ groups zone, address = .v6 groups zone
  := by
  unfold parseIPv6 at h
  dsimp only at h
  split_ifs at h
  split at h
  · cases h
  · obtain ⟨groups, -, rfl⟩ := Option.map_eq_some_iff.mp h
    exact ⟨groups, _, rfl⟩

theorem parseAddr_v4 (h : parseAddr s = some (.v4 bytes)) :
  parseIPv4Fields [] 0 0 s = some bytes
  := by
  unfold parseAddr at h
  split at h
  · obtain ⟨bytes', hbytes, heq⟩ := Option.map_eq_some_iff.mp h
    rwa [Addr.v4.inj heq] at hbytes
  · obtain ⟨groups, zone, heq⟩ := parseIPv6_eq_v6 h
    cases heq
  · cases h

theorem parseAddr_v6 {zone : GoString} (h : parseAddr s = some (.v6 groups zone)) :
  0x3A ∈ s ∧ parseIPv6 s = some (.v6 groups zone)
  := by
  unfold parseAddr at h
  split at h
  · obtain ⟨bytes, -, heq⟩ := Option.map_eq_some_iff.mp h
    cases heq
  · rename_i hfind
    exact ⟨mem_of_find?_eq_some hfind, h⟩
  · cases h

/-! ### The text of an IPv6 address -/

theorem string_v6 (groups : List ℕ) (zone : GoString) :
  Addr.string (.v6 groups zone) = Addr.string (.v6 groups []) ++ zoneString zone
  := by
  have hnil : zoneString [] = [] := rfl
  unfold Addr.string
  dsimp only
  split
  · rw [hnil, append_nil]
  · rw [hnil, append_nil]

/-- A byte of the text of an address without a zone. -/
def isAddressByte (b : UInt8) : Bool :=
  0x30 ≤ b.toNat && b.toNat ≤ 0x39 || 0x61 ≤ b.toNat && b.toNat ≤ 0x66 || b == 0x3A || b == 0x2E

theorem isAddressByte_formatNat (h : b ∈ formatNat n) :
  isAddressByte b = true
  := by
  have hrange := mem_formatNat h
  simp [isAddressByte, hrange]

theorem isAddressByte_hexDigits (h : b ∈ hexDigits n) :
  isAddressByte b = true
  := by
  have hdigit : ∀ d < 16, isAddressByte (Nat.digitChar d).toNat.toUInt8 = true := by decide
  induction n using Nat.strongRecOn with
  | ind n ih =>
    unfold hexDigits at h
    by_cases hn : n < 16
    · rw [Nat.toDigits_of_lt_base hn, map_singleton, mem_singleton] at h
      rw [h]
      exact hdigit n hn
    · rw [Nat.toDigits_of_base_le (by omega) (by omega), map_append, mem_append,
        map_singleton, mem_singleton] at h
      obtain h | rfl := h
      · exact ih (n / 16) (by omega) h
      · exact hdigit (n % 16) (by omega)

theorem isAddressByte_dotted (h : b ∈ dotted bytes) :
  isAddressByte b = true
  := by
  obtain rfl | ⟨l, hl, hb⟩ := mem_intercalate h
  · rfl
  · obtain ⟨n, -, rfl⟩ := mem_map.mp hl
    exact isAddressByte_formatNat hb

theorem isAddressByte_colons (h : b ∈ colons groups) :
  isAddressByte b = true
  := by
  obtain rfl | ⟨l, hl, hb⟩ := mem_intercalate h
  · rfl
  · obtain ⟨n, -, rfl⟩ := mem_map.mp hl
    exact isAddressByte_hexDigits hb

theorem isAddressByte_string (h : b ∈ Addr.string (.v6 groups [])) :
  isAddressByte b = true
  := by
  have hmapped : ∀ b ∈ lit "::ffff:", isAddressByte b = true := by decide +kernel
  have hellipsis : ∀ b ∈ lit "::", isAddressByte b = true := by decide +kernel
  unfold Addr.string zoneString at h
  dsimp only at h
  rw [if_pos rfl] at h
  split at h
  · rw [append_nil, mem_append] at h
    obtain h | h := h
    · exact hmapped b h
    · exact isAddressByte_dotted h
  · rw [append_nil] at h
    split at h
    · exact isAddressByte_colons h
    · rw [mem_append, mem_append] at h
      obtain (h | h) | h := h
      · exact isAddressByte_colons h
      · exact hellipsis b h
      · exact isAddressByte_colons h

theorem length_hexDigits_le {g : ℕ} (h : g < 65536) :
  (hexDigits g).length ≤ 4
  := by
  rw [hexDigits, length_map, Nat.length_toDigits_le_iff (by omega) (by omega)]
  exact h

theorem length_dotted_le (h : ∀ n ∈ bytes, n ≤ 255) :
  (dotted bytes).length ≤ bytes.length * 4
  := by
  have hpart : ∀ l ∈ bytes.map formatNat, l.length ≤ 3 := by
    intro l hl
    obtain ⟨n, hn, rfl⟩ := mem_map.mp hl
    exact length_formatNat_le (h n hn)
  have hle : (dotted bytes).length ≤ _ := length_intercalate_le hpart
  rwa [length_map] at hle

theorem length_colons_le (h : ∀ g ∈ groups, g < 65536) :
  (colons groups).length ≤ groups.length * 5
  := by
  have hpart : ∀ l ∈ groups.map hexDigits, l.length ≤ 4 := by
    intro l hl
    obtain ⟨g, hg, rfl⟩ := mem_map.mp hl
    exact length_hexDigits_le (h g hg)
  have hle : (colons groups).length ≤ _ := length_intercalate_le hpart
  rwa [length_map] at hle

/-- A bound for the text of an address. -/
theorem length_string_le (hlength : groups.length = 8) (h : ∀ g ∈ groups, g < 65536) :
  (Addr.string (.v6 groups [])).length ≤ 42
  := by
  unfold Addr.string zoneString
  dsimp only
  rw [if_pos rfl]
  split
  case h_1 g g' =>
    simp only [forall_mem_cons] at h
    have hbytes : ∀ n ∈ [g / 256, g % 256, g' / 256, g' % 256], n ≤ 255 := by
      simp only [forall_mem_cons]
      exact ⟨by omega, by omega, by omega, by omega, by simp⟩
    have hdotted := length_dotted_le hbytes
    have hmapped : (lit "::ffff:").length = 7 := by decide
    simp only [length_append, length_nil, length_cons] at hdotted ⊢
    omega
  case h_2 =>
    rw [append_nil]
    split
    · have hcolons := length_colons_le h
      omega
    case h_2 i run _ =>
      have hbefore := length_colons_le (fun g hg => h g (mem_of_mem_take (i := i) hg))
      have hafter := length_colons_le (fun g hg => h g (mem_of_mem_drop (i := i + run) hg))
      have hellipsis : (lit "::").length = 2 := by decide
      simp only [length_append, length_take, length_drop, hellipsis] at *
      omega

end NetIp
