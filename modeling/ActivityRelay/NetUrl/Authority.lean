import ActivityRelay.NetUrl.HostBytes

/-!
# URLs of a scheme and an authority

A text that is a scheme and an authority is parsed as the authority is
(`parse_scheme_authority`). An authority without escapes is its own host, and the name and the
port are read back from an authority they are written in. Unescaping takes digits or percent
signs off a text (`escapeMarks_parseHost`), so that a host with a percent sign cannot be parsed
as itself.
-/

namespace NetUrl

open GoString List

/-! ### Parsing -/

variable {b : UInt8}

theorem isDelimiter_of_isHostByte (h : isHostByte b = true) :
  isDelimiter b = false ∧ b ≠ 0x40 ∧ 0x20 ≤ b.toNat ∧ b.toNat ≠ 0x7F
  := by
  revert h
  apply forall_byte (P := fun b => isHostByte b = true →
    isDelimiter b = false ∧ b ≠ 0x40 ∧ 0x20 ≤ b.toNat ∧ b.toNat ≠ 0x7F)
  decide +kernel

theorem isHostByte_of_isAlpha (h : isAlpha b = true) :
  isHostByte b = true
  := by
  have hescape : shouldEscape .host b = false := by
    simp [shouldEscape, h]
  simp [isHostByte, hescape]

theorem getSchemeFrom_append {scheme : GoString} (h : ∀ b ∈ scheme, isAlpha b = true)
    (whole seen rest : GoString) (hne : seen ++ scheme ≠ []) :
  getSchemeFrom whole seen (scheme ++ 0x3A :: rest) = some (seen ++ scheme, rest)
  := by
  induction scheme generalizing seen with
  | nil =>
    rw [append_nil] at hne
    rw [nil_append, append_nil, getSchemeFrom, if_neg (by decide), if_neg (by decide),
      if_pos rfl, if_neg hne]
  | cons c scheme ih =>
    rw [forall_mem_cons] at h
    rw [cons_append, getSchemeFrom, if_pos h.1, ih h.2 (seen ++ [c]) (by simp),
      append_assoc]
    rfl

section Parsing

variable {scheme authority : GoString}

theorem isHostByte.not_mem (h : ∀ b ∈ authority, isHostByte b = true) {x : UInt8}
    (hx : isHostByte x = false) :
  x ∉ authority
  := by
  intro hmem
  rw [h x hmem] at hx
  cases hx

variable {path : GoString} (viaRequest : Bool)

theorem setHierarchy_authority (h : ∀ b ∈ authority, isHostByte b = true) {url : URL}
    (hscheme : url.scheme ≠ []) (hpath : ∀ b ∈ path.head?, b = 0x2F) :
  url.setHierarchy viaRequest (0x2F :: 0x2F :: (authority ++ path)) =
    (parseHost authority).bind (fun host =>
      URL.setPath { url with user := none, host := host } path)
  := by
  have hslashes : (lit "//").isPrefixOf (0x2F :: 0x2F :: (authority ++ path)) = true := rfl
  have hcut : ∃ after, cut 0x2F (authority ++ path) = (authority, after) ∧
      after.elim [] (fun rest => 0x2F :: rest) = path := by
    cases path with
    | nil =>
      rw [append_nil, cut_of_not_mem (isHostByte.not_mem h (x := 0x2F) rfl)]
      exact ⟨none, rfl, rfl⟩
    | cons b path =>
      obtain rfl := hpath b rfl
      rw [cut_append (isHostByte.not_mem h (x := 0x2F) rfl)]
      exact ⟨some path, rfl, rfl⟩
  obtain ⟨after, hcut, hafter⟩ := hcut
  unfold URL.setHierarchy
  rw [if_pos (by simp [hscheme, hslashes])]
  simp only [drop_succ_cons, drop_zero, hcut, hafter, parseAuthority,
    cutLast_of_not_mem (isHostByte.not_mem h (x := 0x40) rfl)]
  cases parseHost authority with
  | none | some => rfl

theorem parseRest_authority (h : ∀ b ∈ authority, isHostByte b = true) (hscheme : scheme ≠ [])
    (hpath : ∀ b ∈ path.head?, b = 0x2F) (hquery : 0x3F ∉ path) :
  parseRest viaRequest scheme (0x2F :: 0x2F :: (authority ++ path)) =
    (parseHost authority).bind (fun host =>
      URL.setPath { scheme := scheme.map lowerByte, host := host } path)
  := by
  have hquery : 0x3F ∉ 0x2F :: 0x2F :: (authority ++ path) := by
    simp [isHostByte.not_mem h (x := 0x3F) rfl, hquery]
  have hset : URL.setQuery { scheme := scheme.map lowerByte } (0x2F :: 0x2F :: (authority ++ path)) =
      ({ scheme := scheme.map lowerByte }, 0x2F :: 0x2F :: (authority ++ path)) := by
    unfold URL.setQuery
    rw [if_neg, cut_of_not_mem hquery]
    · rfl
    · rintro ⟨hlast, -⟩
      exact hquery (mem_of_getLast? hlast)
  unfold parseRest
  rw [hset]
  dsimp only
  rw [if_pos (by rfl), setHierarchy_authority viaRequest h (by simpa using hscheme) hpath]

/-- A text of a scheme, an authority and a path has the host of the authority. -/
theorem parseURL_authority (h : ∀ b ∈ authority, isHostByte b = true)
    (hscheme : ∀ b ∈ scheme, isAlpha b = true) (hne : scheme ≠ [])
    (hpath : ∀ b ∈ path.head?, b = 0x2F) (hquery : 0x3F ∉ path)
    (hctl : containsCTLByte path = false) :
  parseURL viaRequest (scheme ++ lit "://" ++ (authority ++ path)) =
    (parseHost authority).bind (fun host =>
      URL.setPath { scheme := scheme.map lowerByte, host := host } path)
  := by
  have htext : scheme ++ lit "://" ++ (authority ++ path) =
      scheme ++ 0x3A :: 0x2F :: 0x2F :: (authority ++ path) := by
    rw [append_assoc]
    rfl
  have hcolon : (0x3A : UInt8) ∈ scheme ++ lit "://" ++ (authority ++ path) := by
    rw [htext]
    simp
  have hhost : ∀ s : GoString, (∀ b ∈ s, isHostByte b = true) → containsCTLByte s = false := by
    intro s hs
    rw [containsCTLByte, any_eq_false]
    intro b hb
    obtain ⟨-, -, hctl⟩ := isDelimiter_of_isHostByte (hs b hb)
    simp only [Bool.or_eq_true, decide_eq_true_eq, beq_iff_eq]
    omega
  have hctl : containsCTLByte (scheme ++ lit "://" ++ (authority ++ path)) = false := by
    have hscheme' := hhost scheme (fun b hb => isHostByte_of_isAlpha (hscheme b hb))
    have hauthority := hhost authority h
    have hcolon : containsCTLByte (lit "://") = false := by decide
    unfold containsCTLByte at *
    simp only [any_append, hscheme', hcolon, hauthority, hctl, Bool.or_self]
  unfold parseURL
  rw [hctl, if_neg Bool.false_ne_true, if_neg (fun hnil => ne_nil_of_mem hcolon hnil.1),
    if_neg (fun hstar => absurd (hstar ▸ hcolon) (by decide)), htext, getScheme,
    getSchemeFrom_append hscheme _ [] _ (by simpa using hne)]
  dsimp only [Option.bind_some, nil_append]
  rw [parseRest_authority viaRequest h hne hpath hquery]

/-- A text of a scheme and an authority has the host of the authority. -/
theorem parse_scheme_authority (h : ∀ b ∈ authority, isHostByte b = true)
    (hscheme : ∀ b ∈ scheme, isAlpha b = true) (hne : scheme ≠ []) :
  parse (scheme ++ lit "://" ++ authority) =
    (parseHost authority).map (fun host => { scheme := scheme.map lowerByte, host := host })
  := by
  have hfragment : (0x23 : UInt8) ∉ scheme ++ lit "://" ++ authority := by
    have hhash : isHostByte 0x23 = false := rfl
    simp only [mem_append, not_or]
    refine ⟨⟨?_, by decide⟩, isHostByte.not_mem h hhash⟩
    exact isHostByte.not_mem (fun b hb => isHostByte_of_isAlpha (hscheme b hb)) hhash
  have hpath : ∀ b ∈ ([] : GoString).head?, b = 0x2F := by simp
  have hparse := parseURL_authority false h hscheme hne hpath (by simp) rfl
  rw [append_nil] at hparse
  unfold parse
  rw [cut_of_not_mem hfragment]
  dsimp only
  rw [hparse]
  cases parseHost authority with
  | none | some => rfl

end Parsing

/-! ### Reading a name and a port back -/

/-- A name in an authority: one with a colon stands in brackets. -/
def bracketed (name : GoString) : GoString :=
  if 0x3A ∈ name then 0x5B :: name ++ [0x5D] else name

/-- A port in an authority, which may be missing. -/
def colonPort (port : GoString) : GoString := if port = [] then [] else 0x3A :: port

section Authority

variable {name port : GoString} {x : UInt8}

theorem validOptionalPort_colonPort (hport : port.all isDigit = true) :
  validOptionalPort (colonPort port) = true
  := by
  unfold colonPort
  split
  · rfl
  · simpa [validOptionalPort] using hport

theorem not_mem_of_all_isDigit (hport : port.all isDigit = true) (hx : isDigit x = false) :
  x ∉ port
  := by
  intro hmem
  rw [all_eq_true.mp hport x hmem] at hx
  cases hx

theorem not_mem_colonPort (hport : port.all isDigit = true) (hx : isDigit x = false)
    (hcolon : x ≠ 0x3A) :
  x ∉ colonPort port
  := by
  unfold colonPort
  split
  · simp
  · simp [hcolon, not_mem_of_all_isDigit hport hx]

/-- The last colon of a name in brackets is not before a port. -/
theorem cutLast_bracketed (h : 0x3A ∈ name) :
  ∃ u v, cutLast 0x3A (0x5B :: name ++ [0x5D]) = some (u, v) ∧ v.all isDigit = false
  := by
  rcases cutLast_cases 0x3A name with ⟨hnot, -⟩ | ⟨u, v, hv, rfl, -⟩
  · exact absurd h hnot
  · use 0x5B :: u, v ++ [0x5D]
    constructor
    · have htext : 0x5B :: (u ++ 0x3A :: v) ++ [0x5D] = (0x5B :: u) ++ 0x3A :: (v ++ [0x5D]) := by
        simp
      rw [htext, cutLast_append (by simp [hv])]
    · simp [isDigit]

/-- What follows a name in brackets is a port. -/
theorem withoutPort_brackets {after : GoString} (h : validOptionalPort after = true) :
  withoutPort (0x5B :: name ++ 0x5D :: after) = 0x5B :: name ++ [0x5D]
  := by
  unfold withoutPort
  cases after with
  | nil =>
    by_cases hmem : 0x3A ∈ name
    · obtain ⟨u, v, hcut, hv⟩ := cutLast_bracketed hmem
      rw [hcut]
      simp [hv]
    · rw [cutLast_of_not_mem (by simp [hmem])]
  | cons c port =>
    simp only [validOptionalPort, Bool.and_eq_true, beq_iff_eq] at h
    obtain ⟨rfl, hport⟩ := h
    have htext : 0x5B :: name ++ 0x5D :: 0x3A :: port =
        (0x5B :: name ++ [0x5D]) ++ 0x3A :: port := by simp
    rw [htext, cutLast_append (not_mem_of_all_isDigit hport rfl)]
    simp [hport]

theorem withoutBrackets_brackets (name : GoString) :
  withoutBrackets (0x5B :: name ++ [0x5D]) = name
  := by
  rw [withoutBrackets, if_pos ⟨rfl, List.getLast?_concat⟩]
  simp

theorem withoutPort_bracketed (hport : port.all isDigit = true) :
  withoutPort (bracketed name ++ colonPort port) = bracketed name
  := by
  unfold bracketed
  split_ifs with hmem
  · rw [append_assoc, singleton_append]
    exact withoutPort_brackets (validOptionalPort_colonPort hport)
  · unfold withoutPort colonPort
    split_ifs with hnil
    · rw [append_nil, cutLast_of_not_mem hmem]
    · rw [cutLast_append (not_mem_of_all_isDigit hport rfl)]
      simp [hport]

/-- The port of an authority is read back. -/
theorem port_bracketed (hport : port.all isDigit = true) (url : URL) :
  URL.port { url with host := bracketed name ++ colonPort port } = port
  := by
  have hcolon := not_mem_of_all_isDigit hport (x := 0x3A) rfl
  unfold URL.port colonPort
  split_ifs with hnil
  · rw [append_nil, bracketed]
    split_ifs with hmem
    · obtain ⟨u, v, hcut, hv⟩ := cutLast_bracketed hmem
      rw [hcut]
      simp [hv, hnil]
    · rw [cutLast_of_not_mem hmem, hnil]
  · dsimp only
    rw [cutLast_append hcolon]
    simp [hport]

/-- The name of an authority is read back, unless it looks like a name in brackets. -/
theorem hostname_bracketed (hport : port.all isDigit = true)
    (hname : 0x3A ∈ name ∨ ¬ (name.head? = some 0x5B ∧ name.getLast? = some 0x5D)) (url : URL) :
  URL.hostname { url with host := bracketed name ++ colonPort port } = name
  := by
  rw [hostname_eq, withoutPort_bracketed hport, bracketed]
  split_ifs with hmem
  · apply withoutBrackets_brackets
  · rw [withoutBrackets, if_neg (hname.resolve_left hmem)]

theorem unescape_of_allowed {mode : Encoding} {s : GoString}
    (h : ∀ b ∈ s, b ≠ 0x25 ∧ literalAllowed mode b = true) :
  unescape mode s = some s
  := by
  induction s with
  | nil => rfl
  | cons c s ih =>
    rw [forall_mem_cons] at h
    unfold unescape
    rw [if_neg h.1.1, if_pos h.1.2, ih h.2]
    rfl

theorem cutZone_of_not_mem {s : GoString} (h : 0x25 ∉ s) :
  cutZone s = none
  := by
  rcases hcut : cutZone s with - | ⟨before, zone⟩
  · rfl
  · obtain ⟨rfl, t, rfl⟩ := cutZone_spec hcut
    exact absurd (mem_append_right _ (mem_append_left _ (by decide))) h

/-- An authority without escapes is its own host. -/
theorem parseHost_bracketed (hport : port.all isDigit = true)
    (hname : 0x3A ∈ name ∨ name.head? ≠ some 0x5B)
    (h : ∀ b ∈ bracketed name ++ colonPort port, b ≠ 0x25 ∧ literalAllowed .host b = true) :
  parseHost (bracketed name ++ colonPort port) = some (bracketed name ++ colonPort port)
  := by
  have hself := unescape_of_allowed h
  have hvalid := validOptionalPort_colonPort hport
  unfold parseHost
  by_cases hmem : 0x3A ∈ name
  · have htext : bracketed name ++ colonPort port = (0x5B :: name) ++ 0x5D :: colonPort port := by
      rw [bracketed, if_pos hmem]
      simp
    have hzone : 0x25 ∉ 0x5B :: name := by
      intro hpercent
      rw [htext] at h
      exact (h 0x25 (mem_append_left _ hpercent)).1 rfl
    have hbracket : 0x5D ∉ colonPort port := not_mem_colonPort hport rfl (by decide)
    rw [if_pos (by rw [htext]; rfl)]
    rw [htext] at hself ⊢
    simp only [cutLast_append hbracket, Option.bind_some, hvalid, if_true,
      cutZone_of_not_mem hzone, hself]
  · have htext : bracketed name ++ colonPort port = name ++ colonPort port := by
      rw [bracketed, if_neg hmem]
    have hhead : ¬ (lit "[").isPrefixOf (bracketed name ++ colonPort port) = true := by
      rw [htext, isPrefixOf_iff_prefix]
      rintro ⟨t, ht⟩
      have hfirst : (name ++ colonPort port).head? = some 0x5B := by
        rw [← ht]
        rfl
      cases name with
      | nil =>
        unfold colonPort at hfirst
        split_ifs at hfirst <;> cases hfirst
      | cons c name => exact hname.resolve_left hmem hfirst
    rw [if_neg hhead]
    split
    · rename_i u v hcut
      rw [if_pos, hself]
      rw [htext, colonPort] at hcut
      split_ifs at hcut
      · rw [append_nil, cutLast_of_not_mem hmem] at hcut
        cases hcut
      · rw [cutLast_append (not_mem_of_all_isDigit hport rfl)] at hcut
        simp only [Option.some.injEq, Prod.mk.injEq] at hcut
        rw [← hcut.2]
        exact hport
    · exact hself

/-- A text that begins with a bracket has a name in brackets. -/
theorem parseHost_brackets {text host : GoString} (h : parseHost text = some host)
    (hhead : text.head? = some 0x5B) :
  ∃ name after, text = 0x5B :: name ++ 0x5D :: after ∧ validOptionalPort after = true
  := by
  obtain ⟨t, rfl⟩ := List.head?_eq_some_iff.mp hhead
  obtain ⟨⟨address, after⟩, hcut, h⟩ := Option.bind_eq_some_iff.mp h
  dsimp only at h
  split_ifs at h with hafter
  rcases cutLast_cases 0x5D (0x5B :: t) with ⟨-, hnone⟩ | ⟨u, v, -, htext, hsome⟩
  · rw [hnone] at hcut
    cases hcut
  · rw [hsome] at hcut
    simp only [Option.some.injEq, Prod.mk.injEq] at hcut
    obtain ⟨rfl, rfl⟩ := hcut
    cases u with
    | nil =>
      rw [nil_append, List.cons.injEq] at htext
      exact absurd htext.1 (by decide)
    | cons c name =>
      obtain ⟨rfl, rfl⟩ := htext
      exact ⟨name, v, rfl, hafter⟩

/-- A bracket that follows a colon is not in an authority of a name without a colon. -/
theorem colon_not_mem_of_brackets (hport : port.all isDigit = true) (hname : 0x3A ∉ name)
    {inner tail : GoString} (h : name ++ colonPort port = 0x5B :: inner ++ 0x5D :: tail) :
  0x3A ∉ inner
  := by
  intro hmem
  rcases cut_cases 0x3A inner with ⟨hnot, -⟩ | ⟨x, y, hx, rfl, -⟩
  · exact hnot hmem
  have hcut : cut 0x3A (name ++ colonPort port) = (0x5B :: x, some (y ++ 0x5D :: tail)) := by
    have htext : 0x5B :: (x ++ 0x3A :: y) ++ 0x5D :: tail =
        (0x5B :: x) ++ 0x3A :: (y ++ 0x5D :: tail) := by simp
    rw [h, htext, cut_append (by simp [hx])]
  unfold colonPort at hcut
  split_ifs at hcut
  · rw [append_nil, cut_of_not_mem hname] at hcut
    cases (Prod.mk.inj hcut).2
  · rw [cut_append hname] at hcut
    have hbracket : 0x5D ∈ port := by
      rw [Option.some.inj (Prod.mk.inj hcut).2]
      simp
    exact absurd hbracket (not_mem_of_all_isDigit hport rfl)

theorem countP_bracketed {P : UInt8 → Bool} (hopen : P 0x5B = false) (hclose : P 0x5D = false)
    (hcolon : P 0x3A = false) (name port : GoString) :
  (bracketed name ++ colonPort port).countP P = name.countP P + port.countP P
  := by
  have hname : (bracketed name).countP P = name.countP P := by
    unfold bracketed
    split_ifs <;> simp [hopen, hclose]
  have hport : (colonPort port).countP P = port.countP P := by
    unfold colonPort
    split_ifs with hnil
    · rw [hnil]
    · simp [hcolon]
  rw [countP_append, hname, hport]

theorem mem_bracketed (hport : port.all isDigit = true) (hx : isDigit x = false)
    (hpunctuation : x ≠ 0x3A ∧ x ≠ 0x5B ∧ x ≠ 0x5D) :
  x ∈ bracketed name ++ colonPort port ↔ x ∈ name
  := by
  obtain ⟨hcolon, hopen, hclose⟩ := hpunctuation
  have hname : x ∈ bracketed name ↔ x ∈ name := by
    unfold bracketed
    split_ifs <;> simp [hopen, hclose]
  simp [hname, not_mem_colonPort hport hx hcolon]

end Authority

/-! ### Escapes -/

/-- The number of percent signs and digits in a text. -/
def escapeMarks (s : GoString) : ℕ := s.countP (fun b => b == 0x25 || isDigit b)

theorem unhex_spec {a : UInt8} {m : ℕ} (h : unhex a = some m) :
  m < 16 ∧ (m < 10 → isDigit a = true)
  := by
  unfold unhex hexValue at h
  split_ifs at h with hdigit hlower hupper <;> cases h
  · simp only [isDigit, Bool.and_eq_true, decide_eq_true_eq] at hdigit
    refine ⟨by omega, fun _ => ?_⟩
    simpa [isDigit] using hdigit
  · constructor <;> omega
  · constructor <;> omega

/-- An escape has more marks than the byte it stands for. -/
theorem escapeMarks_escape {a : UInt8} {m n : ℕ} (ha : unhex a = some m) (hb : unhex b = some n) :
  escapeMarks [UInt8.ofNat (16 * m + n)] < escapeMarks [0x25, a, b]
  := by
  obtain ⟨hm, hdigit⟩ := unhex_spec ha
  obtain ⟨hn, -⟩ := unhex_spec hb
  have hbyte : (UInt8.ofNat (16 * m + n)).toNat = 16 * m + n := by
    rw [UInt8.toNat_ofNat']
    omega
  by_cases hmark : UInt8.ofNat (16 * m + n) = 0x25 ∨ isDigit (UInt8.ofNat (16 * m + n)) = true
  · -- the first digit of the escape is 2 or 3
    have hsmall : m < 10 := by
      obtain hpercent | hnumber := hmark
      · rw [hpercent] at hbyte
        change 0x25 = _ at hbyte
        omega
      · simp only [isDigit, Bool.and_eq_true, decide_eq_true_eq, hbyte] at hnumber
        omega
    have hone : escapeMarks [UInt8.ofNat (16 * m + n)] ≤ 1 := countP_le_length
    have htwo : 2 ≤ escapeMarks [0x25, a, b] := by
      simp [escapeMarks, countP_cons, hdigit hsmall]
    omega
  · have hzero : escapeMarks [UInt8.ofNat (16 * m + n)] = 0 := by
      rw [escapeMarks, countP_eq_zero]
      simpa using hmark
    rw [hzero, escapeMarks, countP_pos_iff]
    exact ⟨0x25, by simp, rfl⟩

variable {mode : Encoding} {s : GoString} {url : URL}

/-- A text with an escape has more marks than what it is unescaped to. -/
theorem escapeMarks_unescape {t : GoString} (h : unescape mode s = some t) :
  escapeMarks t ≤ escapeMarks s ∧ (0x25 ∈ s → escapeMarks t < escapeMarks s)
  := by
  apply unescape_induction
    (P := fun s t => escapeMarks t ≤ escapeMarks s ∧ (0x25 ∈ s → escapeMarks t < escapeMarks s))
    _ _ _ h
  · simp
  · intro a b m n s t ha hb _ ih
    have hescape := escapeMarks_escape ha hb
    simp only [escapeMarks, countP_cons, countP_nil] at hescape ih ⊢
    omega
  · intro c s t hc _ ih
    simp only [escapeMarks, countP_cons, mem_cons, hc.symm, false_or] at ih ⊢
    constructor
    · omega
    · intro hmem
      have hlt := ih.2 hmem
      omega

/-- A text with an escape has more marks than its host. -/
theorem escapeMarks_parseHost {text host : GoString} (h : parseHost text = some host) :
  escapeMarks host ≤ escapeMarks text ∧ (0x25 ∈ text → escapeMarks host < escapeMarks text)
  := by
  obtain h | ⟨before, zone, after, host₁, host₂, host₃, rfl, hzone, h₁, h₂, h₃, rfl⟩ :=
    parseHost_cases h
  · exact escapeMarks_unescape h
  · have hmem : 0x25 ∈ zone := hzone.subset (by decide)
    have hbefore := (escapeMarks_unescape h₁).1
    have hlt := (escapeMarks_unescape h₂).2 hmem
    have hafter := (escapeMarks_unescape h₃).1
    simp only [escapeMarks, countP_append] at hbefore hlt hafter ⊢
    omega

/-! ### The bytes of a name and a port -/

theorem parseHost_of_not_mem {text host : GoString} (h : parseHost text = some host)
    (hnot : 0x25 ∉ text) :
  host = text
  := by
  obtain h | ⟨before, zone, after, _, _, _, rfl, hzone, -⟩ := parseHost_cases h
  · exact unescape_of_not_mem h hnot
  · have hmem : 0x25 ∈ zone := hzone.subset (by decide)
    exact absurd (by simp [hmem]) hnot

/-- A space is in a host only after the percent sign of a zone. -/
theorem percent_mem_of_space {text host : GoString} (h : parseHost text = some host)
    (hspace : 0x20 ∈ host) :
  0x25 ∈ host
  := by
  have hhost : ∀ s t, unescape .host s = some t → 0x20 ∉ t := by
    intro s t ht hmem
    exact absurd (unescape_mem ht 0x20 hmem) (by decide)
  obtain h | ⟨_, zone, _, host₁, host₂, host₃, rfl, ⟨z, rfl⟩, h₁, h₂, h₃, rfl⟩ := parseHost_cases h
  · exact absurd hspace (hhost _ _ h)
  · change unescape .zone (0x25 :: 0x32 :: 0x35 :: z) = some host₂ at h₂
    obtain ⟨-, a, b, m, n, s', t', heq, hm, hn, -, -, rfl⟩ | ⟨hne, -⟩ := unescape_cons h₂
    · simp only [List.cons.injEq] at heq
      obtain ⟨rfl, rfl, -⟩ := heq
      obtain rfl : 2 = m := Option.some.inj hm
      obtain rfl : 5 = n := Option.some.inj hn
      simp
    · exact absurd rfl hne

theorem port_all_isDigit (url : URL) :
  url.port.all isDigit = true
  := by
  unfold URL.port
  split
  · split_ifs with hport
    · exact hport
    · rfl
  · rfl

/-- The name and the port are different parts of a host. -/
theorem countP_hostname_add_port (P : UInt8 → Bool) (url : URL) :
  url.hostname.countP P + url.port.countP P ≤ url.host.countP P
  := by
  have hparts : (withoutPort url.host).countP P + url.port.countP P ≤ url.host.countP P := by
    unfold withoutPort URL.port
    rcases cutLast_cases 0x3A url.host with ⟨-, hcut⟩ | ⟨u, v, -, htext, hcut⟩
    · simp [hcut]
    · rw [hcut]
      dsimp only
      split_ifs
      · rw [htext, countP_append, countP_cons]
        omega
      · simp
  have hname := (withoutBrackets_sublist (withoutPort url.host)).countP_le (p := P)
  rw [hostname_eq]
  omega

/-- A byte of a host that is no digit and no punctuation of a host is in the name. -/
theorem mem_hostname {x : UInt8} (hx : isDigit x = false)
    (hpunctuation : x ≠ 0x3A ∧ x ≠ 0x5B ∧ x ≠ 0x5D) (h : x ∈ url.host) :
  x ∈ url.hostname
  := by
  have hwithout : x ∈ withoutPort url.host := by
    unfold withoutPort
    rcases cutLast_cases 0x3A url.host with ⟨-, hcut⟩ | ⟨u, v, -, htext, hcut⟩
    · rwa [hcut]
    · rw [hcut]
      dsimp only
      split_ifs with hport
      · rw [htext, mem_append, mem_cons] at h
        obtain h | rfl | h := h
        · exact h
        · exact absurd rfl hpunctuation.1
        · exact absurd h (not_mem_of_all_isDigit hport hx)
      · exact h
  rw [hostname_eq, withoutBrackets]
  split_ifs with hbrackets
  · obtain ⟨t, ht⟩ := List.getLast?_eq_some_iff.mp hbrackets.2
    rw [ht] at hwithout hbrackets ⊢
    cases t with
    | nil => exact absurd hbrackets.1 (by decide)
    | cons c t =>
      obtain rfl : c = 0x5B := by simpa using hbrackets.1
      simpa [hpunctuation] using hwithout
  · exact hwithout

/-! ### The text of a URL -/

theorem head?_escapedPath_setPath {url' : URL} {p : GoString} (h : url.setPath p = some url')
    (hp : ∀ b ∈ p.head?, b = 0x2F) :
  ∀ b ∈ url'.escapedPath.head?, b = 0x2F
  := by
  obtain ⟨path, hunescape, rfl⟩ := Option.map_eq_some_iff.mp h
  have hpath : ∀ b ∈ path.head?, b = 0x2F := by
    cases p with
    | nil =>
      cases hunescape
      simp
    | cons c p =>
      obtain rfl := hp c rfl
      obtain ⟨hpercent, -⟩ | ⟨-, -, t, -, rfl⟩ := unescape_cons hunescape
      · cases hpercent
      · simp
  have hraw : ∀ b ∈ (if p = escape .path path then [] else p).head?, b = 0x2F := by
    split_ifs
    · simp
    · exact hp
  unfold URL.escapedPath
  dsimp only
  by_cases hused : (if p = escape .path path then [] else p) ≠ [] ∧
      validEncoded .path (if p = escape .path path then [] else p) = true ∧
      unescape .path (if p = escape .path path then [] else p) = some path
  · rw [if_pos hused]
    exact hraw
  · rw [if_neg hused]
    split_ifs with hstar
    · rw [hstar] at hpath
      exact absurd (hpath 0x2A rfl) (by decide)
    · cases path with
      | nil => simp [escape]
      | cons c path =>
        obtain rfl := hpath c rfl
        have hslash : escapeByte .path 0x2F = [0x2F] := by decide
        simp [escape, hslash]

/-- The path of a URL with a host starts with a slash if it is not empty. -/
theorem head?_escapedPath {viaRequest : Bool} {text : GoString}
    (h : parseURL viaRequest text = some url) (hhost : url.host ≠ []) :
  ∀ b ∈ url.escapedPath.head?, b = 0x2F
  := by
  obtain ⟨scheme, rest, query, url₀, -, -, -, -, hhost₀, -, -, hrest⟩ := parseURL_setHierarchy h hhost
  unfold URL.setHierarchy at hrest
  split_ifs at hrest
  · obtain ⟨⟨user, host⟩, -, hrest⟩ := Option.bind_eq_some_iff.mp hrest
    apply head?_escapedPath_setPath hrest
    cases (cut 0x2F (rest.drop 2)).2 with
    | none | some => simp
  · rw [setPath_spec hrest] at hhost
    exact absurd hhost₀ hhost
  · rw [setPath_spec hrest] at hhost
    exact absurd hhost₀ hhost

/-- The text of a URL of a scheme, a host and a path. -/
theorem string_authority (hscheme : url.scheme ≠ []) (hhost : url.host ≠ [])
    (huser : url.user = none) (hpart : url.opaquePart = [])
    (hpath : ∀ b ∈ url.escapedPath.head?, b = 0x2F) (hsuffix : url.suffixString = []) :
  url.string = url.scheme ++ lit "://" ++ (escape .host url.host ++ url.escapedPath)
  := by
  have hauthority : url.authorityString = 0x2F :: 0x2F :: escape .host url.host := by
    simp [URL.authorityString, hscheme, hhost, huser]
    rfl
  have hslash : ¬ (url.escapedPath ≠ [] ∧ url.escapedPath.head? ≠ some 0x2F ∧ url.host ≠ []) := by
    rintro ⟨hne, hhead, -⟩
    obtain ⟨b, path, heq⟩ := exists_cons_of_ne_nil hne
    rw [heq] at hpath hhead
    exact hhead (congrArg some (hpath b rfl))
  have htext : lit "://" = [0x3A, 0x2F, 0x2F] := rfl
  unfold URL.string
  simp [hscheme, hpart, hauthority, hslash, hsuffix, htext]

theorem mem_escape_of_shouldEscape (hb : b ∈ s) (h : shouldEscape mode b = true) :
  0x25 ∈ escape mode s
  := by
  rw [escape, mem_flatMap]
  refine ⟨b, hb, ?_⟩
  rw [escapeByte, if_pos h]
  exact mem_cons_self

theorem escape_eq_self (h : ∀ b ∈ s, shouldEscape mode b = false) :
  escape mode s = s
  := by
  have hbyte : ∀ b ∈ s, escapeByte mode b = [b] := by
    intro b hb
    rw [escapeByte, h b hb, if_neg Bool.false_ne_true]
  rw [escape, flatMap_congr hbyte, flatMap_singleton']

/-- A host is its own escaped text if that has no percent sign. -/
theorem escape_of_not_mem (h : 0x25 ∉ escape mode s) :
  escape mode s = s
  := by
  apply escape_eq_self
  intro b hb
  by_contra hescape
  exact h (mem_escape_of_shouldEscape hb (by simpa using hescape))

end NetUrl
