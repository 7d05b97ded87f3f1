import ActivityRelay.Directory.Origin
import ActivityRelay.NetIp.RoundTrip
import ActivityRelay.NetUrl.Authority

/-!
# The form of an origin

The texts without a percent sign that `ParseOrigin` accepts. They are written out here as a
grammar, without the parsers of URLs and addresses: a DNS name or the text of an IPv6 address in
brackets, and a port that is left out or not the default one. An accepted text is the text of the
URL that it is parsed to.
-/

namespace Directory

open GoString NetUrl NetIp List

/-! ### The grammar -/

/-- A letter of lower case, a digit or a hyphen. -/
def IsLabelByte (b : UInt8) : Prop :=
  (0x61 ≤ b.toNat ∧ b.toNat ≤ 0x7A) ∨ (0x30 ≤ b.toNat ∧ b.toNat ≤ 0x39) ∨ b = 0x2D

structure IsLabel (label : GoString) : Prop where
  nonempty : 1 ≤ label.length
  length_le : label.length ≤ 63
  bytes : ∀ b ∈ label, IsLabelByte b
  head : label.head? ≠ some 0x2D
  last : label.getLast? ≠ some 0x2D

/-- A DNS name of two or more labels. -/
structure IsDNSName (name : GoString) : Prop where
  labels : ∃ labels : List GoString, 2 ≤ labels.length ∧ (∀ label ∈ labels, IsLabel label) ∧
    name = [0x2E].intercalate labels
  length_le : name.length ≤ 253

/-- The canonical text of an IPv6 address without a zone. -/
def IsIPv6 (address : GoString) : Prop :=
  ∃ groups : List ℕ, groups.length = 8 ∧ (∀ g ∈ groups, g < 65536) ∧
    address = Addr.string (.v6 groups [])

/-- The decimal text of a port that is not the default one. -/
def IsPort (port : GoString) : Prop :=
  ∃ n, 1 ≤ n ∧ n ≤ 65535 ∧ n ≠ 443 ∧ port = formatNat n

inductive IsHost : GoString → Prop
  | name {name : GoString} : IsDNSName name → IsHost name
  | address {address : GoString} : IsIPv6 address → IsHost (0x5B :: address ++ [0x5D])

/-- The text of an origin: `https://H` or `https://H:P`. -/
def IsOriginText (s : GoString) : Prop :=
  ∃ host, IsHost host ∧
    (s = lit "https://" ++ host ∨ ∃ port, IsPort port ∧ s = lit "https://" ++ host ++ 0x3A :: port)

/-! ### Labels, names and ports -/

theorem validDNSLabel_iff {label : GoString} :
  validDNSLabel label = true ↔ IsLabel label
  := by
  have hnil : label ≠ [] ↔ 1 ≤ label.length := by
    rw [← length_pos_iff]
    rfl
  unfold validDNSLabel
  simp only [Bool.and_eq_true, decide_eq_true_eq, all_eq_true, Bool.or_eq_true, beq_iff_eq,
    isDigit, hnil]
  constructor
  · rintro ⟨⟨⟨⟨hpos, hle⟩, hhead⟩, hlast⟩, hbytes⟩
    refine ⟨hpos, hle, fun b hb => ?_, hhead, hlast⟩
    have hbyte := hbytes b hb
    tauto
  · rintro ⟨hpos, hle, hbytes, hhead, hlast⟩
    refine ⟨⟨⟨⟨hpos, hle⟩, hhead⟩, hlast⟩, fun b hb => ?_⟩
    have hbyte := hbytes b hb
    unfold IsLabelByte at hbyte
    tauto

theorem canonicalPort_iff {port : GoString} :
  canonicalPort port = true ↔ IsPort port
  := by
  unfold canonicalPort IsPort
  constructor
  · intro h
    split at h
    · cases h
    · rename_i n hparse
      simp only [Bool.and_eq_true, decide_eq_true_eq] at h
      obtain ⟨⟨hzero, hdefault⟩, rfl⟩ := h
      rw [parseUint_formatNat] at hparse
      split_ifs at hparse with hlt
      exact ⟨n, by omega, by omega, hdefault, rfl⟩
  · rintro ⟨n, hpos, hle, hdefault, rfl⟩
    rw [parseUint_formatNat, if_pos (by omega)]
    simp [hdefault, Nat.ne_of_gt hpos]

/-- A dot is in no label. -/
theorem IsLabel.dot_not_mem {label : GoString} (h : IsLabel label) :
  0x2E ∉ label
  := by
  intro hmem
  have hbyte := h.bytes 0x2E hmem
  simp [IsLabelByte] at hbyte

/-- The text of a canonical IPv4 address is a DNS name. -/
theorem isDNSName_dotted {bytes : List ℕ} (hlength : bytes.length = 4) (h : ∀ n ∈ bytes, n ≤ 255) :
  IsDNSName (dotted bytes)
  := by
  refine ⟨⟨bytes.map formatNat, by simp [hlength], ?_, rfl⟩, ?_⟩
  · intro label hlabel
    obtain ⟨n, hn, rfl⟩ := mem_map.mp hlabel
    have hle := length_formatNat_le (h n hn)
    have hdigit : ∀ b ∈ formatNat n, b ≠ 0x2D := by
      rintro b hb rfl
      exact absurd (mem_formatNat hb).1 (by decide)
    refine ⟨Nat.pos_of_ne_zero (formatNat_length_ne_zero n), by omega, ?_, ?_, ?_⟩
    · intro b hb
      exact .inr (.inl (mem_formatNat hb))
    · intro hhead
      exact hdigit _ (mem_of_mem_head? hhead) rfl
    · intro hlast
      exact hdigit _ (mem_of_getLast? hlast) rfl
  · have hle := length_dotted_le h
    omega

theorem getLast?_intercalate {sep : UInt8} {ls : List GoString} (hne : ls ≠ [])
    (h : ∀ l ∈ ls, 1 ≤ l.length) :
  ∃ l ∈ ls, ([sep].intercalate ls).getLast? = l.getLast?
  := by
  induction ls with
  | nil => exact absurd rfl hne
  | cons l ls ih =>
    rw [forall_mem_cons] at h
    cases ls with
    | nil => exact ⟨l, mem_cons_self, by rw [intercalate_singleton]⟩
    | cons l' ls =>
      obtain ⟨last, hmem, heq⟩ := ih (cons_ne_nil _ _) h.2
      refine ⟨last, mem_cons_of_mem _ hmem, ?_⟩
      obtain ⟨b, hb⟩ := List.getLast?_isSome.mpr (ne_nil_of_length_pos (h.2 last hmem))
        |> Option.isSome_iff_exists.mp
      rw [intercalate_cons_cons, List.getLast?_append, heq, hb]
      rfl

/-- A byte of the host and the port of an origin. -/
def isOriginByte (b : UInt8) : Bool :=
  0x61 ≤ b.toNat && b.toNat ≤ 0x7A || isDigit b || (lit "-.:[]").contains b

variable {b : UInt8} {name value : GoString} {url : URL} {U : CaseTable}

theorem isOriginByte_spec (h : isOriginByte b = true) :
  b.toNat < runeSelf ∧ isSpaceByte b = false ∧ lowerByte b = b ∧ b ≠ 0x25 ∧
    literalAllowed .host b = true ∧ shouldEscape .host b = false ∧ isHostByte b = true
  := by
  revert h
  apply forall_byte (P := fun b => isOriginByte b = true → b.toNat < runeSelf ∧
    isSpaceByte b = false ∧ lowerByte b = b ∧ b ≠ 0x25 ∧ literalAllowed .host b = true ∧
    shouldEscape .host b = false ∧ isHostByte b = true)
  decide +kernel

theorem isOriginByte_of_isAddressByte (h : isAddressByte b = true) :
  isOriginByte b = true
  := by
  revert h
  apply forall_byte (P := fun b => isAddressByte b = true → isOriginByte b = true)
  decide +kernel

theorem IsDNSName.byte (h : IsDNSName name) :
  ∀ b ∈ name, IsLabelByte b ∨ b = 0x2E
  := by
  obtain ⟨⟨labels, -, hlabels, rfl⟩, -⟩ := h
  intro b hb
  obtain rfl | ⟨label, hlabel, hb⟩ := mem_intercalate hb
  · exact .inr rfl
  · exact .inl ((hlabels label hlabel).bytes b hb)

theorem IsDNSName.isOriginByte (h : IsDNSName name) :
  ∀ b ∈ name, isOriginByte b = true
  := by
  intro b hb
  obtain (hlower | hdigit | rfl) | rfl := h.byte b hb
  · simp [Directory.isOriginByte, hlower]
  · simp [Directory.isOriginByte, isDigit, hdigit]
  · rfl
  · rfl

theorem IsDNSName.colon_not_mem (h : IsDNSName name) :
  0x3A ∉ name
  := by
  intro hmem
  have hbyte := h.byte 0x3A hmem
  simp [IsLabelByte] at hbyte

theorem IsIPv6.parseAddr {address : GoString} (h : IsIPv6 address) :
  ∃ groups, NetIp.parseAddr address = some (.v6 groups []) ∧ address = Addr.string (.v6 groups [])
  := by
  obtain ⟨groups, hlength, hgroups, rfl⟩ := h
  exact ⟨groups, parseAddr_string hlength hgroups, rfl⟩

theorem IsIPv6.colon_mem {address : GoString} (h : IsIPv6 address) :
  0x3A ∈ address
  := by
  obtain ⟨groups, hparse, -⟩ := h.parseAddr
  exact (parseAddr_v6 hparse).1

theorem isHost_iff {host : GoString} :
  IsHost host ↔ ∃ name, host = bracketed name ∧ (IsDNSName name ∨ IsIPv6 name)
  := by
  constructor
  · intro h
    cases h with
    | name h =>
      refine ⟨_, ?_, .inl h⟩
      rw [bracketed, if_neg h.colon_not_mem]
    | address h =>
      refine ⟨_, ?_, .inr h⟩
      rw [bracketed, if_pos h.colon_mem]
  · rintro ⟨name, rfl, h | h⟩
    · rw [bracketed, if_neg h.colon_not_mem]
      exact .name h
    · rw [bracketed, if_pos h.colon_mem]
      exact .address h

/-- The text of an origin in terms of a name and a port, which may be missing. -/
theorem isOriginText_iff :
  IsOriginText value ↔
    ∃ name port, (IsDNSName name ∨ IsIPv6 name) ∧ (port = [] ∨ IsPort port) ∧
      value = lit "https://" ++ (bracketed name ++ colonPort port)
  := by
  constructor
  · rintro ⟨host, hhost, htext⟩
    obtain ⟨name, rfl, hname⟩ := isHost_iff.mp hhost
    obtain rfl | ⟨port, hport, rfl⟩ := htext
    · exact ⟨name, [], hname, .inl rfl, by simp [colonPort]⟩
    · refine ⟨name, port, hname, .inr hport, ?_⟩
      obtain ⟨n, -, -, -, rfl⟩ := hport
      rw [colonPort, if_neg (formatNat_ne_nil n), append_assoc]
  · rintro ⟨name, port, hname, hport, rfl⟩
    refine ⟨bracketed name, isHost_iff.mpr ⟨name, rfl, hname⟩, ?_⟩
    unfold colonPort
    split_ifs with hnil
    · exact .inl (by rw [append_nil])
    · exact .inr ⟨port, hport.resolve_left hnil, by rw [append_assoc]⟩

/-! ### Canonical hosts -/

theorem toLower_of_isDNSName (U : CaseTable) (h : IsDNSName name) :
  toLower U name = name
  := by
  have hspec : ∀ b ∈ name, b.toNat < runeSelf ∧ lowerByte b = b := by
    intro b hb
    obtain ⟨hascii, -, hlower, -⟩ := isOriginByte_spec (h.isOriginByte b hb)
    exact ⟨hascii, hlower⟩
  rw [toLower_ascii (fun b hb => (hspec b hb).1)]
  calc name.map lowerByte = name.map id := map_congr_left (fun b hb => (hspec b hb).2)
    _ = name := map_id name

theorem canonicalHost_of_isDNSName (U : CaseTable) (h : IsDNSName name) :
  canonicalHost U name = some name
  := by
  unfold canonicalHost
  cases hparse : parseAddr name with
  | none =>
    obtain ⟨⟨labels, htwo, hlabels, hname⟩, hlength⟩ := id h
    have hne : labels ≠ [] := by
      rintro rfl
      exact absurd htwo (by decide)
    have hsplit : name.splitOn 0x2E = labels := by
      rw [hname, splitOn_intercalate 0x2E (fun l hl => (hlabels l hl).dot_not_mem) hne]
    rw [if_pos]
    refine ⟨toLower_of_isDNSName U h, ?_, hlength, ?_, ?_⟩
    · intro hlast
      obtain ⟨label, hlabel, heq⟩ := getLast?_intercalate hne (fun l hl => (hlabels l hl).nonempty)
      rw [hname, heq] at hlast
      exact (hlabels label hlabel).dot_not_mem (mem_of_getLast? hlast)
    · match labels, htwo with
      | label :: label' :: labels, _ =>
        rw [hname, intercalate_cons_cons]
        simp
    · rw [hsplit, all_eq_true]
      intro label hlabel
      exact validDNSLabel_iff.mpr (hlabels label hlabel)
  | some address =>
    cases address with
    | v4 bytes =>
      obtain ⟨htext, -, -⟩ := dotted_of_parse (parseAddr_v4 hparse)
      dsimp only
      rw [if_neg (by simp [Addr.string, htext]), if_neg (by simp [Addr.is6])]
    | v6 groups zone => exact absurd (parseAddr_v6 hparse).1 h.colon_not_mem

/-- The hosts of origins are DNS names, and IPv6 addresses in brackets. -/
theorem canonicalHost_eq_some (U : CaseTable) {host : GoString} (hpercent : 0x25 ∉ name) :
  canonicalHost U name = some host ↔ host = bracketed name ∧ (IsDNSName name ∨ IsIPv6 name)
  := by
  constructor
  · intro h
    unfold canonicalHost at h
    cases hparse : parseAddr name with
    | none =>
      rw [hparse] at h
      split_ifs at h with hcanonical
      cases h
      obtain ⟨-, -, hlength, hdot, hlabels⟩ := hcanonical
      have hlabels : ∀ label ∈ name.splitOn 0x2E, IsLabel label := by
        intro label hlabel
        exact validDNSLabel_iff.mp (all_eq_true.mp hlabels label hlabel)
      have hname : [0x2E].intercalate (name.splitOn 0x2E) = name := intercalate_splitOn 0x2E
      have htwo : 2 ≤ (name.splitOn 0x2E).length := by
        rcases hsplit : name.splitOn 0x2E with - | ⟨label, - | ⟨label', labels⟩⟩
        · exact absurd hsplit (splitOn_ne_nil 0x2E name)
        · rw [hsplit, forall_mem_singleton] at hlabels
          rw [hsplit, intercalate_singleton] at hname
          exact absurd (hname ▸ hdot) hlabels.dot_not_mem
        · simp
      have hname : IsDNSName name := ⟨⟨_, htwo, hlabels, hname.symm⟩, hlength⟩
      rw [bracketed, if_neg hname.colon_not_mem]
      exact ⟨rfl, .inl hname⟩
    | some address =>
      rw [hparse] at h
      dsimp only at h
      cases address with
      | v4 bytes =>
        obtain ⟨htext, hlength, hle⟩ := dotted_of_parse (parseAddr_v4 hparse)
        have hname := isDNSName_dotted hlength hle
        rw [htext] at hname
        rw [if_neg (by simp [Addr.string, htext]), if_neg (by simp [Addr.is6])] at h
        refine ⟨?_, .inl hname⟩
        rw [bracketed, if_neg hname.colon_not_mem, Option.some.inj h]
      | v6 groups zone =>
        obtain ⟨hcolon, hparse⟩ := parseAddr_v6 hparse
        split_ifs at h with htext his6
        · rw [not_not] at htext
          refine ⟨?_, .inr ⟨groups, (parseIPv6_spec hparse).1, (parseIPv6_spec hparse).2, ?_⟩⟩
          · rw [bracketed, if_pos hcolon, Option.some.inj h]
          · rw [string_v6] at htext
            obtain rfl : zone = [] := by
              by_contra hzone
              rw [zoneString, if_neg hzone] at htext
              rw [htext] at hpercent
              simp at hpercent
            rw [htext, zoneString, if_pos rfl, append_nil]
        · exact absurd rfl his6
  · rintro ⟨rfl, h | h⟩
    · rw [canonicalHost_of_isDNSName U h, bracketed, if_neg h.colon_not_mem]
    · obtain ⟨groups, hparse, htext⟩ := h.parseAddr
      unfold canonicalHost
      rw [hparse]
      dsimp only
      have his6 : (Addr.v6 groups []).is6 = true := rfl
      rw [if_neg (not_not.mpr htext), if_pos his6, bracketed, if_pos h.colon_mem]

theorem canonicalAuthority_iff (U : CaseTable) (url : URL) :
  canonicalAuthority U url = true ↔
    ∃ host, canonicalHost U url.hostname = some host ∧ url.host = host ++ colonPort url.port ∧
      (url.port = [] ∨ IsPort url.port)
  := by
  unfold canonicalAuthority colonPort
  cases canonicalHost U url.hostname with
  | none => simp
  | some host =>
    split_ifs with hport
    · simp [hport]
    · simp [hport, canonicalPort_iff, and_comm]

/-! ### URLs of an origin -/

theorem trimSpace_https {s : GoString} (hascii : b.toNat < runeSelf)
    (hspace : isSpaceByte b = false) (hlast : s.getLast? = some b) :
  trimSpace (lit "https://" ++ s) = lit "https://" ++ s
  := by
  have hlast : (lit "https://" ++ s).getLast? = some b := by
    rw [List.getLast?_append, hlast, Option.some_or]
  have hleft : trimLeft (lit "https://" ++ s) = lit "https://" ++ s :=
    trimLeft_cons_ascii (c := 0x68) (by decide) rfl _
  rw [trimSpace, hleft, trimRight_eq_self hascii hspace hlast]

/-- A URL that is nothing but a scheme and a host. -/
structure IsBare (url : URL) : Prop where
  scheme : url.scheme = lit "https"
  host : url.host ≠ []
  hostname : url.hostname ≠ []
  user : url.user = none
  path : url.path = []
  rawPath : url.rawPath = []
  rawQuery : url.rawQuery = []
  fragment : url.fragment = []
  forceQuery : url.forceQuery = false
  opaquePart : url.opaquePart = []

/-- The checks of `parseOrigin`, all of which an origin passes. -/
theorem parseOrigin_eq_some :
  parseOrigin U value = some url ↔
    value ≠ [] ∧ trimSpace value = value ∧ parseRequestURI value = some url ∧ IsBare url ∧
      url.string = value ∧ canonicalAuthority U url = true
  := by
  unfold parseOrigin
  constructor
  · intro h
    split_ifs at h with hvalue
    rw [not_or, not_not] at hvalue
    split at h
    · cases h
    · rename_i url' hparse
      split_ifs at h with hparts hcanonical
      cases h
      simp only [not_or, not_not] at hparts
      obtain ⟨hscheme, hhost, hname, huser, hpath, hraw, hquery, hfragment, hforce, hpart, hstring⟩ :=
        hparts
      exact ⟨hvalue.1, hvalue.2, hparse, ⟨hscheme, hhost, hname, huser, hpath, hraw, hquery,
        hfragment, by simpa using hforce, hpart⟩, hstring, hcanonical⟩
  · rintro ⟨hne, htrim, hparse, hbare, hstring, hcanonical⟩
    rw [if_neg (by simp [hne, htrim]), hparse]
    dsimp only
    rw [if_neg, if_pos hcanonical]
    simp [hbare.scheme, hbare.host, hbare.hostname, hbare.user, hbare.path, hbare.rawPath,
      hbare.rawQuery, hbare.fragment, hbare.forceQuery, hbare.opaquePart, hstring]

theorem IsBare.string_eq (h : IsBare url) :
  url.string = lit "https://" ++ escape .host url.host
  := by
  have hpath : url.escapedPath = [] := by
    simp [URL.escapedPath, h.path, h.rawPath, escape]
  have hsuffix : url.suffixString = [] := by
    simp [URL.suffixString, h.forceQuery, h.rawQuery, h.fragment]
  rw [string_authority (by rw [h.scheme]; decide) h.host h.user h.opaquePart (by simp [hpath]) hsuffix,
    h.scheme, hpath, append_nil]
  rfl

/-! ### Accepted texts -/

/-- The host of an accepted text without a percent sign is written as it is in the text. -/
theorem isOriginText_of_parseOrigin (h : parseOrigin U value = some url) (hpercent : 0x25 ∉ value) :
  IsOriginText value
  := by
  obtain ⟨-, -, -, hbare, hstring, hcanonical⟩ := parseOrigin_eq_some.mp h
  rw [hbare.string_eq] at hstring
  have hescape : escape .host url.host = url.host := by
    apply escape_of_not_mem
    intro hmem
    exact hpercent (hstring ▸ mem_append_right _ hmem)
  rw [hescape] at hstring
  obtain ⟨host, hhost, htext, hport⟩ := (canonicalAuthority_iff U url).mp hcanonical
  have hname : 0x25 ∉ url.hostname := by
    intro hmem
    exact hpercent (hstring ▸ mem_append_right _ ((hostname_sublist url).subset hmem))
  obtain ⟨rfl, hkind⟩ := (canonicalHost_eq_some U hname).mp hhost
  refine isOriginText_iff.mpr ⟨url.hostname, url.port, hkind, hport, ?_⟩
  rw [← hstring, htext]

theorem all_isDigit_port {port : GoString} (hport : port = [] ∨ IsPort port) :
  port.all isDigit = true
  := by
  obtain rfl | ⟨n, -, -, -, rfl⟩ := hport
  · rfl
  · rw [all_eq_true]
    intro b hb
    simpa [isDigit] using mem_formatNat hb

section Accepted

variable {name port : GoString} (hname : IsDNSName name ∨ IsIPv6 name)
  (hport : port = [] ∨ IsPort port)
include hname

theorem name_ne_nil :
  name ≠ []
  := by
  rintro rfl
  obtain hname | hname := hname
  · have hhost := canonicalHost_of_isDNSName .identity hname
    exact absurd hhost (by decide)
  · cases hname.colon_mem

theorem isOriginByte_name :
  ∀ b ∈ name, isOriginByte b = true
  := by
  obtain hname | ⟨groups, -, -, rfl⟩ := hname
  · exact hname.isOriginByte
  · exact fun b hb => isOriginByte_of_isAddressByte (isAddressByte_string hb)

/-- A name without a colon does not start with a bracket. -/
theorem head?_name :
  0x3A ∈ name ∨ name.head? ≠ some 0x5B
  := by
  obtain hname | hname := hname
  · right
    intro hhead
    have hbyte := hname.byte 0x5B (mem_of_mem_head? hhead)
    simp [IsLabelByte] at hbyte
  · exact .inl hname.colon_mem

include hport

theorem isOriginByte_authority :
  ∀ b ∈ bracketed name ++ colonPort port, isOriginByte b = true
  := by
  have hbyte := isOriginByte_name hname
  have hhost : ∀ b ∈ bracketed name, isOriginByte b = true := by
    unfold bracketed
    split_ifs
    · rw [forall_mem_append, forall_mem_cons, forall_mem_singleton]
      exact ⟨⟨rfl, hbyte⟩, rfl⟩
    · exact hbyte
  have hdigits : ∀ b ∈ colonPort port, isOriginByte b = true := by
    unfold colonPort
    split_ifs
    · simp
    · rw [forall_mem_cons]
      refine ⟨rfl, fun b hb => ?_⟩
      have hdigit := all_eq_true.mp (all_isDigit_port hport) b hb
      simp [isOriginByte, hdigit]
  rw [forall_mem_append]
  exact ⟨hhost, hdigits⟩

/-- A text of an authority that has the form of an origin, and a path. -/
theorem parseRequestURI_authority {path : GoString} (hpath : ∀ b ∈ path.head?, b = 0x2F)
    (hquery : 0x3F ∉ path) (hctl : containsCTLByte path = false) :
  parseRequestURI (lit "https://" ++ (bracketed name ++ colonPort port ++ path)) =
    URL.setPath { scheme := lit "https", host := bracketed name ++ colonPort port } path
  := by
  have hspec := fun b hb => isOriginByte_spec (isOriginByte_authority hname hport b hb)
  have hscheme : ∀ b ∈ lit "https", isAlpha b = true := by decide +kernel
  have hparse := parseURL_authority true (fun b hb => (hspec b hb).2.2.2.2.2.2) hscheme
    (by decide) hpath hquery hctl
  rw [parseHost_bracketed (all_isDigit_port hport) (head?_name hname)
    (fun b hb => ⟨(hspec b hb).2.2.2.1, (hspec b hb).2.2.2.2.1⟩)] at hparse
  exact hparse

theorem length_authority_le :
  (bracketed name ++ colonPort port).length ≤ 259
  := by
  have hhost : (bracketed name).length ≤ 253 := by
    unfold bracketed
    obtain hname | ⟨groups, hlength, hgroups, rfl⟩ := hname
    · rw [if_neg hname.colon_not_mem]
      exact hname.length_le
    · have hle := length_string_le hlength hgroups
      split_ifs
      · simp only [length_append, length_cons, length_nil]
        omega
      · omega
  have hport : (colonPort port).length ≤ 6 := by
    unfold colonPort
    obtain rfl | ⟨n, -, hn, -, rfl⟩ := hport
    · simp
    · have hle : (formatNat n).length ≤ 5 := by
        rw [formatNat, length_map, Nat.length_toDigits_le_iff (by omega) (by omega)]
        omega
      rw [if_neg (formatNat_ne_nil n), length_cons]
      omega
  rw [length_append]
  omega

/-- **An authority that has the form of an origin is accepted.** -/
theorem parseOrigin_authority (U : CaseTable) :
  parseOrigin U (lit "https://" ++ (bracketed name ++ colonPort port)) =
    some { scheme := lit "https", host := bracketed name ++ colonPort port }
  := by
  have hbytes := isOriginByte_authority hname hport
  have hdigits := all_isDigit_port hport
  have hne : bracketed name ++ colonPort port ≠ [] := by
    unfold bracketed
    split_ifs <;> simp [name_ne_nil hname]
  have hhostname : URL.hostname { scheme := lit "https", host := bracketed name ++ colonPort port } =
      name := by
    apply hostname_bracketed hdigits _ { scheme := lit "https" }
    exact (head?_name hname).imp id (fun hhead hboth => hhead hboth.1)
  have hport' : URL.port { scheme := lit "https", host := bracketed name ++ colonPort port } = port :=
    port_bracketed hdigits { scheme := lit "https" }
  have hbare : IsBare { scheme := lit "https", host := bracketed name ++ colonPort port } :=
    ⟨rfl, hne, by rw [hhostname]; exact name_ne_nil hname, rfl, rfl, rfl, rfl, rfl, rfl, rfl⟩
  have hpath : ∀ b ∈ ([] : GoString).head?, b = 0x2F := by simp
  have hparse := parseRequestURI_authority hname hport hpath (by simp) rfl
  rw [append_nil] at hparse
  rw [parseOrigin_eq_some]
  refine ⟨by simp [hne], ?_, hparse, hbare, ?_, ?_⟩
  · obtain ⟨b, hlast⟩ := Option.isSome_iff_exists.mp (List.getLast?_isSome.mpr hne)
    obtain ⟨hascii, hspace, -⟩ := isOriginByte_spec (hbytes b (mem_of_getLast? hlast))
    exact trimSpace_https hascii hspace hlast
  · rw [hbare.string_eq, escape_eq_self]
    intro b hb
    obtain ⟨-, -, -, -, -, hescape, -⟩ := isOriginByte_spec (hbytes b hb)
    exact hescape
  · rw [canonicalAuthority_iff, hhostname, hport']
    refine ⟨bracketed name, (canonicalHost_eq_some U ?_).mpr ⟨rfl, hname⟩, rfl, hport⟩
    intro hmem
    exact (isOriginByte_spec (isOriginByte_name hname 0x25 hmem)).2.2.2.1 rfl

end Accepted

theorem parseOrigin_of_isOriginText (U : CaseTable) (h : IsOriginText value) :
  (parseOrigin U value).isSome = true
  := by
  obtain ⟨name, port, hname, hport, rfl⟩ := isOriginText_iff.mp h
  rw [parseOrigin_authority hname hport U]
  rfl

/-- **The texts without a percent sign that `ParseOrigin` accepts are those of the form of an
origin, and each is the text of the URL it is parsed to.** Canonical IPv4 addresses are among the
names of this form. -/
theorem parseOrigin_iff_isOriginText (U : CaseTable) {value : GoString} (hpercent : 0x25 ∉ value) :
  ((parseOrigin U value).isSome = true ↔ IsOriginText value) ∧
    (∀ url, parseOrigin U value = some url → url.string = value) ∧
    ∀ bytes : List ℕ, bytes.length = 4 → (∀ n ∈ bytes, n ≤ 255) → IsDNSName (dotted bytes)
  := by
  refine ⟨⟨?_, parseOrigin_of_isOriginText U⟩, ?_, fun bytes => isDNSName_dotted⟩
  · intro h
    obtain ⟨url, hurl⟩ := Option.isSome_iff_exists.mp h
    exact isOriginText_of_parseOrigin hurl hpercent
  · intro url hurl
    obtain ⟨-, -, -, -, hstring, -⟩ := parseOrigin_eq_some.mp hurl
    exact hstring

/-- A name with a port, and an address with a port that is the default one. -/
theorem parseOrigin_iff_isOriginText_port :
  IsOriginText (lit "https://directory.example:8443") ∧
    ¬ IsOriginText (lit "https://[2001:db8::1]:443")
  := by
  have hname : 0x25 ∉ lit "https://directory.example:8443" := by decide
  have haddress : 0x25 ∉ lit "https://[2001:db8::1]:443" := by decide
  rw [← (parseOrigin_iff_isOriginText .identity hname).1,
    ← (parseOrigin_iff_isOriginText .identity haddress).1]
  decide +kernel

end Directory
