import ActivityRelay.HttpSignature.DestinationStore
import ActivityRelay.HttpSignature.Origin
import ActivityRelay.NetUrl.Authority

/-!
# Normalized origins

`DestinationCapability.validate` and `loadDestinationCapability` normalize an origin again and
refuse one that changes. An origin is read as the URL of its scheme and its authority
(`normalize_originText_iff`), and it changes if an escape is left in its host, if a dot is left at
the end, if the host looks like a name in brackets, or if it ends in white space
(`IsOrigin.normalize_iff_settled`).
-/

namespace HttpSignature

open GoString GoTime List NetUrl

variable {U : CaseTable} {url : URL}

/-! ### The text of an origin -/

theorem authorityText_eq (host port : GoString) :
  authorityText host port = bracketed host ++ colonPort port
  := by
  have hlit : lit "]:" = [0x5D, 0x3A] := rfl
  unfold authorityText joinHostPort bracketed colonPort
  by_cases hport : port = [] <;> by_cases hhost : 0x3A ∈ host <;> simp [hport, hhost, hlit]

/-- The text of an origin. -/
def originText (scheme authority : GoString) : GoString := scheme ++ lit "://" ++ authority

/-- The URL that an origin is read as. -/
def originURL (scheme host : GoString) : URL := { scheme := scheme, host := host }

/-- The parts of an origin. -/
structure IsOrigin (U : CaseTable) (scheme host port : GoString) : Prop where
  scheme_eq : scheme = lit "http" ∨ scheme = lit "https"
  host_ne_nil : host ≠ []
  host_byte : ∀ b ∈ host, isHostByte b = true
  host_space : 0x20 ∈ host → 0x25 ∈ host
  host_lower : toLower U host = host
  port_digit : port.all isDigit = true
  port_not_default : ¬ (scheme = lit "http" ∧ port = lit "80" ∨
    scheme = lit "https" ∧ port = lit "443")

theorem isHostByte_of_mem_toLower {s : GoString} (h : ∀ b ∈ s, isHostByte b = true) :
  ∀ b ∈ toLower U s, isHostByte b = true
  := by
  have hother : ∀ b : UInt8, ¬ Special b → isHostByte b = true := by
    apply forall_byte
    decide +kernel
  intro b hb
  by_cases hspecial : Special b
  · exact h b ((mem_toLower_special hspecial s).mp hb)
  · exact hother b hspecial

theorem originPort_all_isDigit (url : URL) :
  (originPort U url).all isDigit = true
  := by
  unfold originPort
  split_ifs
  · rfl
  · apply port_all_isDigit

/-- The origin of an address has the parts of an origin. -/
theorem HasOrigin.isOrigin {address : GoString} (h : HasOrigin U url)
    (hparse : parse address = some url) :
  IsOrigin U (toLower U url.scheme) (originHost U url) (originPort U url)
  := by
  have hsublist : (trimSuffix 0x2E url.hostname).Sublist url.host :=
    (trimSuffix_sublist _ _).trans (hostname_sublist url)
  refine ⟨h.scheme, h.host, ?_, ?_, toLower_toLower _, ?_, ?_⟩
  · apply isHostByte_of_mem_toLower
    intro b hb
    exact isHostByte_of_parse hparse b (hsublist.subset hb)
  · unfold originHost
    rw [mem_toLower_special (by decide), mem_toLower_special (by decide)]
    intro hspace
    obtain ⟨text, htext⟩ := parseHost_of_parse hparse h.host_ne_nil
    have hpercent := percent_mem_of_space htext (hsublist.subset hspace)
    rw [mem_trimSuffix (by decide)]
    exact mem_hostname rfl (by decide) hpercent
  · apply originPort_all_isDigit
  · unfold originPort
    split_ifs with hdefault
    · rintro (⟨-, hport⟩ | ⟨-, hport⟩) <;> exact absurd hport (by decide)
    · exact hdefault

/-! ### Reading an origin -/

section Scheme

variable {scheme authority : GoString} (hscheme : scheme = lit "http" ∨ scheme = lit "https")
include hscheme

theorem trimSpace_originText (authority : GoString) :
  trimSpace (originText scheme authority) = originText scheme (trimRight authority)
  := by
  have hleft : trimLeft (originText scheme authority) = originText scheme authority := by
    obtain rfl | rfl := hscheme
    · exact trimLeft_cons_ascii (c := 0x68) (by decide) rfl _
    · exact trimLeft_cons_ascii (c := 0x68) (by decide) rfl _
  have hslash : ∀ a, originText scheme a = scheme ++ lit ":/" ++ 0x2F :: a := by
    intro a
    rw [originText, append_assoc, append_assoc]
    rfl
  rw [trimSpace, hleft, hslash, hslash, trimRight_append_ascii (by decide) rfl]

theorem toLower_scheme :
  toLower U scheme = scheme
  := by
  obtain rfl | rfl := hscheme
  · rw [toLower_ascii (by decide +kernel)]
    rfl
  · rw [toLower_ascii (by decide +kernel)]
    rfl

theorem parse_originText (h : ∀ b ∈ authority, isHostByte b = true) :
  parse (originText scheme authority) = (parseHost authority).map (originURL scheme)
  := by
  have hlower : scheme.map lowerByte = scheme := by
    obtain rfl | rfl := hscheme <;> rfl
  rw [originText, parse_scheme_authority h, hlower]
  · rfl
  · obtain rfl | rfl := hscheme <;> decide +kernel
  · obtain rfl | rfl := hscheme <;> decide

/-- An origin is normal if it is the origin of the URL it is read as. -/
theorem normalize_originText_iff (h : ∀ b ∈ authority, isHostByte b = true) :
  normalizeDestinationOrigin U (originText scheme authority) = .ok (originText scheme authority) ↔
    ∃ host, parseHost (trimRight authority) = some host ∧
      originHost U (originURL scheme host) ≠ [] ∧
      authorityText (originHost U (originURL scheme host)) (originPort U (originURL scheme host)) =
        authority
  := by
  have hbyte : ∀ b ∈ trimRight authority, isHostByte b = true := by
    obtain ⟨v, hv, -⟩ := trimRight_spec authority
    intro b hb
    apply h
    rw [hv]
    exact mem_append_left _ hb
  have hlower : ∀ host, toLower U (originURL scheme host).scheme = scheme :=
    fun _ => toLower_scheme hscheme
  rw [normalizeDestinationOrigin_eq_ok, trimSpace_originText hscheme, parse_originText hscheme hbyte]
  constructor
  · rintro ⟨url, hparse, horigin, htext⟩
    obtain ⟨host, hhost, rfl⟩ := Option.map_eq_some_iff.mp hparse
    rw [hlower] at htext
    exact ⟨host, hhost, horigin.host, append_cancel_left htext⟩
  · rintro ⟨host, hhost, hne, htext⟩
    refine ⟨originURL scheme host, by rw [hhost]; rfl, ⟨?_, rfl, hne⟩, ?_⟩
    · rw [hlower]
      exact hscheme
    · rw [hlower, htext]
      rfl

end Scheme

/-! ### Origins that do not change -/

/-- The host and the port of an origin that is normal. -/
structure Settled (host port : GoString) : Prop where
  percent : 0x25 ∉ host
  dot : host.getLast? ≠ some 0x2E
  bracket : host.head? = some 0x5B → 0x3A ∈ host
  space : port = [] → 0x3A ∉ host → trimRight host = host

section Reading

variable {scheme name port : GoString}

theorem originHost_originURL (hport : port.all isDigit = true)
    (hname : 0x3A ∈ name ∨ ¬ (name.head? = some 0x5B ∧ name.getLast? = some 0x5D)) :
  originHost U (originURL scheme (authorityText name port)) = toLower U (trimSuffix 0x2E name)
  := by
  rw [authorityText_eq, originHost]
  congr 2
  exact hostname_bracketed hport hname (originURL scheme [])

theorem originPort_originURL (hscheme : scheme = lit "http" ∨ scheme = lit "https")
    (hport : port.all isDigit = true)
    (hdefault : ¬ (scheme = lit "http" ∧ port = lit "80" ∨
      scheme = lit "https" ∧ port = lit "443")) :
  originPort U (originURL scheme (authorityText name port)) = port
  := by
  have hread : (originURL scheme (authorityText name port)).port = port := by
    rw [authorityText_eq]
    exact port_bracketed hport (originURL scheme [])
  have hlower : toLower U (originURL scheme (authorityText name port)).scheme = scheme :=
    toLower_scheme hscheme
  rw [originPort, hread, hlower, if_neg hdefault]

end Reading

/-- A host has the bytes of its origin, apart from letters and the punctuation around a name. -/
theorem countP_authorityText_le {P : UInt8 → Bool} (hspecial : ∀ b, P b = true → Special b)
    (hopen : P 0x5B = false) (hclose : P 0x5D = false) (hcolon : P 0x3A = false) (url : URL) :
  (authorityText (originHost U url) (originPort U url)).countP P ≤ url.host.countP P
  := by
  have hhost : (originHost U url).countP P ≤ url.hostname.countP P := by
    rw [originHost, countP_toLower hspecial]
    exact (trimSuffix_sublist _ _).countP_le
  have hport : (originPort U url).countP P ≤ url.port.countP P := by
    unfold originPort
    split_ifs <;> simp
  have hparts := countP_hostname_add_port P url
  rw [authorityText_eq, countP_bracketed hopen hclose hcolon]
  omega

/-- The origin of a name in brackets has no more opening brackets than the name, if there is no
colon in it. -/
theorem count_bracket_le (scheme : GoString) {name after : GoString}
    (hafter : validOptionalPort after = true) (hcolon : 0x3A ∉ name) :
  (authorityText (originHost U (originURL scheme (0x5B :: name ++ 0x5D :: after)))
      (originPort U (originURL scheme (0x5B :: name ++ 0x5D :: after)))).count 0x5B ≤
    name.count 0x5B
  := by
  have hhost : originHost U (originURL scheme (0x5B :: name ++ 0x5D :: after)) =
      toLower U (trimSuffix 0x2E name) := by
    rw [originHost, hostname_eq, originURL, withoutPort_brackets hafter, withoutBrackets_brackets]
  have hcolon' : 0x3A ∉ toLower U (trimSuffix 0x2E name) := by
    rw [mem_toLower_special (by decide), mem_trimSuffix (by decide)]
    exact hcolon
  have hzero := not_mem_colonPort
    (originPort_all_isDigit (U := U) (originURL scheme (0x5B :: name ++ 0x5D :: after)))
    (x := 0x5B) rfl (by decide)
  rw [authorityText_eq, hhost, bracketed, if_neg hcolon', count_append,
    count_eq_zero.mpr hzero, Nat.add_zero, List.count, countP_toLower (by simp; decide)]
  exact (trimSuffix_sublist _ _).countP_le

section Origin

variable {scheme host port : GoString} (h : IsOrigin U scheme host port)
include h

theorem IsOrigin.authority_byte :
  ∀ b ∈ authorityText host port, isHostByte b = true
  := by
  rw [authorityText_eq]
  simp only [forall_mem_append]
  constructor
  · unfold bracketed
    split_ifs
    · simp only [cons_append, forall_mem_cons, forall_mem_append]
      exact ⟨by decide, h.host_byte, by decide, by simp⟩
    · exact h.host_byte
  · have hdigit : ∀ b, isDigit b = true → isHostByte b = true := by
      apply forall_byte
      decide +kernel
    unfold colonPort
    split_ifs
    · simp
    · rw [forall_mem_cons]
      refine ⟨by decide, fun b hb => ?_⟩
      exact hdigit b (all_eq_true.mp h.port_digit b hb)

/-- White space at the end of an origin is at the end of its host. -/
theorem IsOrigin.trimRight_eq (hspace : port = [] → 0x3A ∉ host → trimRight host = host) :
  trimRight (authorityText host port) = authorityText host port
  := by
  rw [authorityText_eq]
  by_cases hport : port = []
  · rw [colonPort, if_pos hport, append_nil, bracketed]
    split_ifs with hcolon
    · exact trimRight_eq_self (c := 0x5D) (by decide) rfl List.getLast?_concat
    · exact hspace hport hcolon
  · obtain ⟨digits, c, rfl⟩ := (eq_nil_or_concat port).resolve_left hport
    have hdigit : ∀ b, isDigit b = true → b.toNat < runeSelf ∧ isSpaceByte b = false := by
      apply forall_byte
      decide +kernel
    obtain ⟨hascii, hspace'⟩ := hdigit c (all_eq_true.mp h.port_digit c (by simp))
    apply trimRight_eq_self hascii hspace'
    rw [colonPort, if_neg hport, concat_eq_append, ← cons_append, ← append_assoc,
      List.getLast?_concat]

theorem IsOrigin.authority_allowed (hpercent : 0x25 ∉ host) :
  ∀ b ∈ authorityText host port, b ≠ 0x25 ∧ literalAllowed .host b = true
  := by
  intro b hb
  have hbyte := h.authority_byte b hb
  rw [authorityText_eq] at hb
  have hne : b ≠ 0x25 := by
    rintro rfl
    rw [mem_bracketed h.port_digit rfl (by decide)] at hb
    exact hpercent hb
  have hne' : b ≠ 0x20 := by
    rintro rfl
    rw [mem_bracketed h.port_digit rfl (by decide)] at hb
    exact hpercent (h.host_space hb)
  refine ⟨hne, ?_⟩
  simpa [isHostByte, literalAllowed, hne, hne'] using hbyte

/-- A settled origin is normal. -/
theorem IsOrigin.normalize_of_settled (hsettled : Settled host port) :
  normalizeDestinationOrigin U (originText scheme (authorityText host port)) =
    .ok (originText scheme (authorityText host port))
  := by
  have hhost : originHost U (originURL scheme (authorityText host port)) = host := by
    rw [originHost_originURL h.port_digit, trimSuffix, if_neg hsettled.dot, h.host_lower]
    by_cases hcolon : 0x3A ∈ host
    · exact .inl hcolon
    · right
      rintro ⟨hopen, -⟩
      exact hcolon (hsettled.bracket hopen)
  have hport : originPort U (originURL scheme (authorityText host port)) = port :=
    originPort_originURL h.scheme_eq h.port_digit h.port_not_default
  rw [normalize_originText_iff h.scheme_eq h.authority_byte, h.trimRight_eq hsettled.space]
  refine ⟨authorityText host port, ?_, ?_, ?_⟩
  · have hallowed := h.authority_allowed hsettled.percent
    rw [authorityText_eq] at hallowed ⊢
    apply parseHost_bracketed h.port_digit
    · by_cases hcolon : 0x3A ∈ host
      · exact .inl hcolon
      · exact .inr (fun hopen => hcolon (hsettled.bracket hopen))
    · exact hallowed
  · rw [hhost]
    exact h.host_ne_nil
  · rw [hhost, hport]

section Normal

variable {read : GoString} (hread : parseHost (trimRight (authorityText host port)) = some read)
  (htext : authorityText (originHost U (originURL scheme read)) (originPort U (originURL scheme read)) =
    authorityText host port)
include hread htext

/-- There is no escape in a normal origin. -/
theorem IsOrigin.percent_not_mem :
  0x25 ∉ host
  := by
  intro hmem
  obtain ⟨v, hv, hblank⟩ := trimRight_spec (authorityText host port)
  have hmem' : 0x25 ∈ trimRight (authorityText host port) := by
    have hall : 0x25 ∈ authorityText host port := by
      rw [authorityText_eq, mem_bracketed h.port_digit rfl (by decide)]
      exact hmem
    rw [hv, mem_append] at hall
    exact hall.resolve_right (hblank.not_mem (by decide) rfl)
  have hlt := (escapeMarks_parseHost hread).2 hmem'
  have hle : escapeMarks (trimRight (authorityText host port)) ≤
      escapeMarks (authorityText host port) := by
    conv_rhs => rw [hv]
    exact (sublist_append_left _ _).countP_le
  have hmarks : ∀ b, (b == 0x25 || isDigit b) = true → Special b := by
    apply forall_byte
    decide +kernel
  have horigin := countP_authorityText_le (U := U) hmarks rfl rfl rfl (originURL scheme read)
  rw [htext] at horigin
  exact absurd (hlt.trans_le hle) (not_lt.mpr horigin)

/-- A normal origin is read without unescaping. -/
theorem IsOrigin.read_eq :
  read = trimRight (authorityText host port)
  := by
  apply parseHost_of_not_mem hread
  intro hmem
  obtain ⟨v, hv, -⟩ := trimRight_spec (authorityText host port)
  have hall : 0x25 ∈ authorityText host port := by
    rw [hv]
    exact mem_append_left _ hmem
  rw [authorityText_eq, mem_bracketed h.port_digit rfl (by decide)] at hall
  exact h.percent_not_mem hread htext hall

/-- There is no dot at the end of the host of a normal origin. -/
theorem IsOrigin.getLast?_ne_dot :
  host.getLast? ≠ some 0x2E
  := by
  intro hdot
  have hread' := h.read_eq hread htext
  rw [h.trimRight_eq (fun _ _ => trimRight_eq_self (by decide) rfl hdot)] at hread'
  have hname : ¬ (host.head? = some 0x5B ∧ host.getLast? = some 0x5D) := by
    rw [hdot]
    rintro ⟨-, hclose⟩
    exact absurd hclose (by decide)
  rw [hread', originHost_originURL h.port_digit (.inr hname),
    originPort_originURL h.scheme_eq h.port_digit h.port_not_default] at htext
  -- one dot is gone
  have hcount := congrArg (List.countP (· == 0x2E)) htext
  rw [authorityText_eq, authorityText_eq, countP_bracketed rfl rfl rfl,
    countP_bracketed rfl rfl rfl, countP_toLower (by simp; decide)] at hcount
  obtain ⟨t, rfl⟩ := List.getLast?_eq_some_iff.mp hdot
  rw [trimSuffix, if_pos hdot, dropLast_concat, countP_append] at hcount
  simp at hcount

/-- The host of a normal origin does not look like a name in brackets. -/
theorem IsOrigin.colon_mem (hopen : host.head? = some 0x5B) :
  0x3A ∈ host
  := by
  by_contra hcolon
  obtain ⟨v, hv, hblank⟩ := trimRight_spec (authorityText host port)
  have hauthority : authorityText host port = host ++ colonPort port := by
    rw [authorityText_eq, bracketed, if_neg hcolon]
  have hhead : (trimRight (authorityText host port)).head? = some 0x5B := by
    apply head?_trimRight (by decide) rfl
    rw [hauthority, List.head?_append, hopen]
    rfl
  obtain ⟨name, after, hname, hafter⟩ := parseHost_brackets hread hhead
  have hcolon' : 0x3A ∉ name := by
    have hsplit : host ++ colonPort port = 0x5B :: name ++ 0x5D :: (after ++ v) := by
      rw [← hauthority, hv, hname, append_assoc]
      rfl
    exact colon_not_mem_of_brackets h.port_digit hcolon hsplit
  -- one opening bracket is gone
  have hle := count_bracket_le (U := U) scheme hafter hcolon'
  rw [← hname, ← h.read_eq hread htext, htext] at hle
  have hlt : name.count 0x5B < (authorityText host port).count 0x5B := by
    rw [hv, hname]
    simp only [count_append, count_cons_self]
    omega
  omega

/-- The host of a normal origin does not end in white space. -/
theorem IsOrigin.trimRight_host (hport : port = []) (hcolon : 0x3A ∉ host) :
  trimRight host = host
  := by
  by_contra hne
  have hauthority : ∀ s, 0x3A ∉ s → authorityText s port = s := by
    intro s hs
    rw [authorityText_eq, bracketed, if_neg hs, colonPort, if_pos hport, append_nil]
  obtain ⟨v, hv, hblank⟩ := trimRight_spec host
  have hv_ne_nil : v ≠ [] := by
    rintro rfl
    rw [append_nil] at hv
    exact hne hv.symm
  have hread' := h.read_eq hread htext
  have hcolon' : 0x3A ∉ trimRight host := by
    intro hmem
    rw [hv] at hcolon
    exact hcolon (mem_append_left _ hmem)
  have hname : ¬ ((trimRight host).head? = some 0x5B ∧ (trimRight host).getLast? = some 0x5D) := by
    rintro ⟨hopen, -⟩
    apply hcolon
    apply h.colon_mem hread htext
    rw [hv, List.head?_append, hopen]
    rfl
  rw [hauthority host hcolon] at hread' htext
  rw [hread', ← hauthority _ hcolon', originHost_originURL h.port_digit (.inr hname),
    originPort_originURL h.scheme_eq h.port_digit h.port_not_default, hauthority] at htext
  · -- the white space is gone
    have hlength := congrArg (fun s => (decode s).length) htext
    have hle := length_decode_trimSuffix_le (x := 0x2E) (by decide) (trimRight host)
    have hlt := hblank.length_decode_lt (s := trimRight host) hv_ne_nil
    rw [← hv] at hlt
    simp only [length_decode_toLower] at hlength
    omega
  · rw [mem_toLower_special (by decide), mem_trimSuffix (by decide)]
    exact hcolon'

end Normal

/-- An origin is normal if and only if it is settled. -/
theorem IsOrigin.normalize_iff_settled :
  normalizeDestinationOrigin U (originText scheme (authorityText host port)) =
    .ok (originText scheme (authorityText host port)) ↔ Settled host port
  := by
  constructor
  · intro hnormal
    obtain ⟨read, hread, -, htext⟩ :=
      (normalize_originText_iff h.scheme_eq h.authority_byte).mp hnormal
    exact ⟨h.percent_not_mem hread htext, h.getLast?_ne_dot hread htext,
      h.colon_mem hread htext, h.trimRight_host hread htext⟩
  · exact h.normalize_of_settled

end Origin

/-! ### Addresses whose origins do not change -/

/-- The port of a URL is missing, or the one of its scheme. -/
def HasDefaultPort (U : CaseTable) (url : URL) : Prop :=
  url.port = [] ∨ (toLower U url.scheme = lit "http" ∧ url.port = lit "80") ∨
    (toLower U url.scheme = lit "https" ∧ url.port = lit "443")

/-- A URL whose origin is normal: there is no percent sign in the name of its host, the name does
not end in two dots, it begins with a bracket only if it has a colon, and without a colon and
without a port of its own it does not end in white space (before a last dot, in lower case). -/
structure Settles (U : CaseTable) (url : URL) : Prop where
  percent : 0x25 ∉ url.hostname
  dots : (trimSuffix 0x2E url.hostname).getLast? ≠ some 0x2E
  bracket : url.hostname.head? = some 0x5B → 0x3A ∈ url.hostname
  space : HasDefaultPort U url → 0x3A ∉ url.hostname →
    trimRight (toLower U (trimSuffix 0x2E url.hostname)) =
      toLower U (trimSuffix 0x2E url.hostname)

theorem originPort_eq_nil :
  originPort U url = [] ↔ HasDefaultPort U url
  := by
  unfold originPort HasDefaultPort
  split_ifs with hdefault
  · simp [hdefault]
  · simp [hdefault]

theorem settled_iff_settles :
  Settled (originHost U url) (originPort U url) ↔ Settles U url
  := by
  have hhead : (originHost U url).head? = some 0x5B ↔ url.hostname.head? = some 0x5B := by
    rw [originHost, head?_toLower_special (by decide), head?_trimSuffix (by decide)]
  have hmem : ∀ x : UInt8, Special x → x ≠ 0x2E → (x ∈ originHost U url ↔ x ∈ url.hostname) := by
    intro x hx hne
    rw [originHost, mem_toLower_special hx, mem_trimSuffix hne]
  have hlast : (originHost U url).getLast? = some 0x2E ↔
      (trimSuffix 0x2E url.hostname).getLast? = some 0x2E :=
    getLast?_toLower_special (by decide) _
  constructor
  · rintro ⟨hpercent, hdot, hbracket, hspace⟩
    rw [hmem 0x25 (by decide) (by decide)] at hpercent
    rw [hhead, hmem 0x3A (by decide) (by decide)] at hbracket
    rw [originPort_eq_nil, hmem 0x3A (by decide) (by decide)] at hspace
    exact ⟨hpercent, fun hdots => hdot (hlast.mpr hdots), hbracket, hspace⟩
  · rintro ⟨hpercent, hdots, hbracket, hspace⟩
    rw [← hmem 0x25 (by decide) (by decide)] at hpercent
    rw [← hhead, ← hmem 0x3A (by decide) (by decide)] at hbracket
    rw [← originPort_eq_nil, ← hmem 0x3A (by decide) (by decide)] at hspace
    exact ⟨hpercent, fun hdot => hdots (hlast.mp hdot), hbracket, hspace⟩

/-! ### Stores that are not corrupted -/

section Store

variable {sha256 : GoString → GoString} {keyPrefix address origin : GoString}
  {c : DestinationCapability}

/-- The hash of a scope and an origin is that of a valid observation for them. -/
def Uncorrupted (U : CaseTable) (sha256 : GoString → GoString) (keyPrefix : GoString)
    (keys : CapabilityKeys) : Prop :=
  ∀ scope origin e, keys (capabilityKey sha256 keyPrefix scope origin) = some e →
    ∃ o : Observation, o.scope = scope ∧ (o.capability origin).validate U = .ok () ∧
      0 < o.expiresAtMs ∧ e.value = (o.capability origin).hash

/-- The script keeps the hash, deletes it, or replaces it by one that has not expired. -/
theorem saveDestinationCapabilityScript_cases {now : ℤ} {old : Redis.Cell CapabilityHash}
    {cell : Redis.Cell CapabilityHash × ℤ}
    (h : saveDestinationCapabilityScript now c.hash old = some cell) :
  cell.1 = old ∨ cell.1 = none ∨
    now < unixMilli c.expiresAt ∧ cell.1 = some ⟨c.hash, some (unixMilli c.expiresAt)⟩
  := by
  by_cases hnow : now < unixMilli c.expiresAt
  · rw [saveDestinationCapabilityScript_eq hnow h]
    split
    · exact .inr (.inr ⟨hnow, rfl⟩)
    · split_ifs
      · exact .inl rfl
      · exact .inr (.inr ⟨hnow, rfl⟩)
  · have hset : setCapability now c.hash = some (none, 1) := by
      simp only [setCapability, DestinationCapability.hash, parseInt_unixMilli, Option.map_some,
        if_pos (not_lt.mp hnow)]
    unfold saveDestinationCapabilityScript at h
    rw [hset] at h
    split at h
    · cases h
      exact .inr (.inl rfl)
    · split at h
      · split_ifs at h
        · cases h
          exact .inl rfl
        · cases h
          exact .inr (.inl rfl)
      · cases h

theorem uncorrupted_step (hsha : Function.Injective sha256) {s s' : Negotiating}
    {e : NegotiatingEvent} (hs : Uncorrupted U sha256 keyPrefix s.keys)
    (h : observeStep U sha256 keyPrefix s e = some s') :
  Uncorrupted U sha256 keyPrefix s'.keys
  := by
  cases e with
  | tick d =>
    cases h
    exact hs
  | observe o =>
    simp only [observeStep] at h
    split at h
    swap
    · cases h
    rename_i keys r hsave
    cases h
    obtain ⟨origin, -, hvalid, cell, hscript, rfl⟩ := Observation.save_ok hsave
    intro scope origin' e he
    by_cases hkey : capabilityKey sha256 keyPrefix scope origin' =
        capabilityKey sha256 keyPrefix o.scope origin
    · obtain ⟨rfl, rfl⟩ := capabilityKey_injective hsha hkey
      dsimp only at he
      rw [Function.update_self] at he
      obtain hold | hnone | ⟨hnow, hnew⟩ := saveDestinationCapabilityScript_cases hscript
      · rw [hold] at he
        exact hs _ _ _ he
      · rw [hnone] at he
        cases he
      · rw [hnew] at he
        cases he
        exact ⟨o, rfl, hvalid, (Int.natCast_nonneg _).trans_lt hnow, rfl⟩
    · dsimp only at he
      rw [Function.update_of_ne hkey] at he
      exact hs _ _ _ he

/-- What the three functions save does not corrupt a store. -/
theorem uncorrupted_run (hsha : Function.Injective sha256) {s₀ s : Negotiating}
    {es : List NegotiatingEvent} (hkeys : ∀ key, s₀.keys key = none)
    (hrun : Transition.run (observeStep U sha256 keyPrefix) s₀ es = some s) :
  Uncorrupted U sha256 keyPrefix s.keys
  := by
  refine Transition.run_invariant (P := fun s => Uncorrupted U sha256 keyPrefix s.keys) ?_ ?_ hrun
  · intro t e t' ht h
    exact uncorrupted_step hsha ht h
  · intro scope origin e he
    rw [hkeys] at he
    cases he

/-- A destination with a normal origin has a plan. -/
theorem plan_of_uncorrupted {keys : CapabilityKeys} (hkeys : Uncorrupted U sha256 keyPrefix keys)
    (haddress : normalizeDestinationOrigin U address = .ok origin)
    (hnormal : normalizeDestinationOrigin U origin = .ok origin) (scope : DestinationScope)
    (now wall redisNow : ℤ) :
  ∃ p, plan U sha256 keyPrefix .dual scope address now wall redisNow keys = .ok p
  := by
  unfold plan
  rw [haddress]
  dsimp only
  unfold loadDestinationCapability
  rw [hnormal]
  dsimp only
  rw [if_neg (not_not.mpr rfl)]
  cases hget : (keys (capabilityKey sha256 keyPrefix scope origin)).get redisNow with
  | none => exact ⟨_, rfl⟩
  | some hash =>
    obtain ⟨t, hcell, -⟩ := Redis.Cell.get_eq_some.mp hget
    obtain ⟨o, rfl, hvalid, hpos, rfl⟩ := hkeys _ _ _ hcell
    have hnow : ((0 : ℕ) : ℤ) < o.expiresAtMs := hpos
    dsimp only
    rw [Observation.capability_hash hnow hvalid]
    dsimp only [Except.map]
    split_ifs
    · rw [Observation.validate_readBack hnow hvalid]
      exact ⟨_, rfl⟩
    · exact ⟨_, rfl⟩

/-- A capability for an origin that is not normal is refused. -/
theorem validate_of_not_normal {origin' : GoString}
    (hother : normalizeDestinationOrigin U c.origin = .ok origin') (hne : origin' ≠ c.origin) :
  c.validate U = .error .originNotNormalized
  := by
  unfold DestinationCapability.validate
  rw [hother]
  dsimp only
  rw [if_pos hne]

/-- Nothing is planned for a destination whose origin is not normal. -/
theorem plan_of_not_normal {origin' : GoString}
    (haddress : normalizeDestinationOrigin U address = .ok origin)
    (hother : normalizeDestinationOrigin U origin = .ok origin') (hne : origin' ≠ origin)
    (scope : DestinationScope) (now wall redisNow : ℤ) (keys : CapabilityKeys) :
  plan U sha256 keyPrefix .dual scope address now wall redisNow keys = .error .originNotNormalized
  := by
  unfold plan
  rw [haddress]
  dsimp only
  unfold loadDestinationCapability
  rw [hother]
  dsimp only
  rw [if_pos hne]

/-- The origin of an address is normal, what is observed for the address is valid, and the address
has a plan. -/
structure Negotiable (U : CaseTable) (sha256 : GoString → GoString) (keyPrefix : GoString)
    (address origin : GoString) : Prop where
  normal : normalizeDestinationOrigin U origin = .ok origin
  valid : ∀ o : Observation, o.destination = address → o.observedAt ≠ 0 →
    (o.capability origin).validate U = .ok ()
  planned : ∀ scope now wall redisNow keys, Uncorrupted U sha256 keyPrefix keys →
    ∃ p, plan U sha256 keyPrefix .dual scope address now wall redisNow keys = .ok p

/-- An observation for an address with a normal origin is valid. -/
theorem Observation.validate_capability {o : Observation} (hobserved : o.observedAt ≠ 0)
    (hnormal : normalizeDestinationOrigin U origin = .ok origin) :
  (o.capability origin).validate U = .ok ()
  := by
  have hprofile : o.evidence.profile ≠ .dual := by
    cases o.evidence <;> decide
  have hminute := o.ttl_range.1
  rw [validate_eq_ok]
  refine ⟨hnormal, hprofile, rfl, hobserved, ?_⟩
  simp only [capability, minute, second] at hminute ⊢
  omega

/-- An accepted destination can be negotiated with if and only if its URL settles. -/
theorem negotiable_iff {url : URL} (hparse : parse (trimSpace address) = some url)
    (haddress : normalizeDestinationOrigin U address = .ok origin) :
  Negotiable U sha256 keyPrefix address origin ↔ Settles U url
  := by
  obtain ⟨url', hparse', horigin, rfl⟩ := normalizeDestinationOrigin_eq_ok.mp haddress
  obtain rfl : url = url' := by
    rw [hparse] at hparse'
    exact Option.some.inj hparse'
  have hsettled := (horigin.isOrigin hparse).normalize_iff_settled
  rw [settled_iff_settles] at hsettled
  rw [← hsettled]
  constructor
  · intro h
    exact h.normal
  · intro hnormal
    refine ⟨hnormal, ?_, ?_⟩
    · intro o _ hobserved
      exact Observation.validate_capability hobserved hnormal
    · intro scope now wall redisNow keys hkeys
      exact plan_of_uncorrupted hkeys haddress hnormal scope now wall redisNow

end Store

theorem negotiable_example :
  ∃ url, parse (trimSpace (lit " https://[2001:DB8::1]:8443/inbox")) = some url ∧
    normalizeDestinationOrigin .identity (lit " https://[2001:DB8::1]:8443/inbox") =
      .ok (lit "https://[2001:db8::1]:8443") ∧ Settles .identity url ∧
    Negotiable .identity id [] (lit " https://[2001:DB8::1]:8443/inbox")
      (lit "https://[2001:db8::1]:8443")
  := by
  have hparse : parse (trimSpace (lit " https://[2001:DB8::1]:8443/inbox")) =
      some { scheme := lit "https", host := lit "[2001:DB8::1]:8443", path := lit "/inbox" } := by
    decide +kernel
  have haddress : normalizeDestinationOrigin .identity (lit " https://[2001:DB8::1]:8443/inbox") =
      .ok (lit "https://[2001:db8::1]:8443") := by decide +kernel
  have hsettles : Settles .identity
      { scheme := lit "https", host := lit "[2001:DB8::1]:8443", path := lit "/inbox" } :=
    ⟨by decide +kernel, by decide +kernel, by decide +kernel, fun _ hcolon =>
      absurd (by decide +kernel) hcolon⟩
  exact ⟨_, hparse, haddress, hsettles, (negotiable_iff hparse haddress).mpr hsettles⟩

/-- A second dot at the end of a host is kept in the origin and dropped when the origin is
normalized again. -/
theorem twoDots_not_negotiable :
  normalizeDestinationOrigin .identity (lit "https://example.com../inbox") =
      .ok (lit "https://example.com.") ∧
    normalizeDestinationOrigin .identity (lit "https://example.com.") =
      .ok (lit "https://example.com") ∧
    (∀ o : Observation, (o.capability (lit "https://example.com.")).validate .identity =
      .error .originNotNormalized) ∧
    ∀ sha256 keyPrefix, Uncorrupted .identity sha256 keyPrefix (fun _ => none) ∧
      ∀ scope now wall redisNow,
        plan .identity sha256 keyPrefix .dual scope (lit "https://example.com../inbox") now wall
          redisNow (fun _ => none) = .error .originNotNormalized
  := by
  have hfirst : normalizeDestinationOrigin .identity (lit "https://example.com../inbox") =
      .ok (lit "https://example.com.") := by decide +kernel
  have hsecond : normalizeDestinationOrigin .identity (lit "https://example.com.") =
      .ok (lit "https://example.com") := by decide +kernel
  have hne : lit "https://example.com" ≠ lit "https://example.com." := by decide +kernel
  refine ⟨hfirst, hsecond, ?_, ?_⟩
  · intro o
    exact validate_of_not_normal hsecond hne
  · intro sha256 keyPrefix
    constructor
    · intro scope origin e he
      cases he
    · intro scope now wall redisNow
      exact plan_of_not_normal hfirst hsecond hne scope now wall redisNow _

end HttpSignature
