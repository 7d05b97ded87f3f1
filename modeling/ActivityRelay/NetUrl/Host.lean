import ActivityRelay.NetUrl.Url

/-!
# The host of a URL

Where the host of a parsed URL stands in its text, and in the string of a URL. The authority
ends at the first slash, question mark or number sign, so the texts before and after it do not
matter for the host.

The two parsers read the same host, also if one of them is given the text without the white
space around it (`host_eq_of_trimSpace`). The string of a URL determines the host
(`host_eq_of_string_eq`).
-/

namespace NetUrl

open GoString List

/-! ### The end of the authority -/

/-- The bytes that end the authority of a URL. -/
def isDelimiter (b : UInt8) : Bool := b == 0x2F || b == 0x3F || b == 0x23

/-- What may follow the authority of a URL. -/
def AfterAuthority (s : GoString) : Prop := ∀ b ∈ s.head?, isDelimiter b = true

/-- The authority is determined by its end. -/
theorem authority_unique {p q p' q' : GoString} (h : p ++ q = p' ++ q')
    (hp : ∀ b ∈ p, isDelimiter b = false) (hp' : ∀ b ∈ p', isDelimiter b = false)
    (hq : AfterAuthority q) (hq' : AfterAuthority q') :
  p = p'
  := by
  induction p generalizing p' with
  | nil =>
    cases p' with
    | nil => rfl
    | cons b p' =>
      have hb := hp' b (by simp)
      rw [nil_append, cons_append] at h
      rw [hq b (by rw [h]; rfl)] at hb
      cases hb
  | cons a p ih =>
    cases p' with
    | nil =>
      have ha := hp a (by simp)
      rw [nil_append, cons_append] at h
      rw [hq' a (by rw [← h]; rfl)] at ha
      cases ha
    | cons b p' =>
      rw [cons_append, cons_append, List.cons.injEq] at h
      rw [h.1, ih h.2 (fun x hx => hp x (by simp [hx])) (fun x hx => hp' x (by simp [hx]))]

/-! ### The authority in the text of a URL -/

def isSchemeByte (c : UInt8) : Bool := isAlpha c || isDigit c || (lit "+-.").contains c

variable {scheme rest s rawURL t y : GoString} {url url' : URL} {viaRequest : Bool}
  {mode : Encoding}

theorem getSchemeFrom_spec {whole seen : GoString}
    (h : getSchemeFrom whole seen s = some (scheme, rest)) (hseen : ∀ b ∈ seen, isSchemeByte b = true)
    (hne : scheme ≠ []) :
  seen ++ s = scheme ++ 0x3A :: rest ∧ ∀ b ∈ scheme, isSchemeByte b = true
  := by
  induction s generalizing seen with
  | nil =>
    simp only [getSchemeFrom, Option.some.injEq, Prod.mk.injEq] at h
    exact absurd h.1.symm hne
  | cons c s ih =>
    have hsnoc : isSchemeByte c = true → ∀ b ∈ seen ++ [c], isSchemeByte b = true := by
      intro hc b hb
      rcases mem_append.mp hb with hb | hb
      · exact hseen b hb
      · rw [mem_singleton.mp hb]
        exact hc
    rw [getSchemeFrom] at h
    split_ifs at h with halpha hother hstart hcolon hstart'
    · have := ih h (hsnoc (by simp [isSchemeByte, halpha]))
      simpa using this
    · simp only [Option.some.injEq, Prod.mk.injEq] at h
      exact absurd h.1.symm hne
    · have hc : isSchemeByte c = true := by
        rw [isSchemeByte, Bool.or_assoc, Bool.or_eq_true]
        exact .inr hother
      simpa using ih h (hsnoc hc)
    · cases h
      rw [hcolon]
      exact ⟨rfl, hseen⟩
    · simp only [Option.some.injEq, Prod.mk.injEq] at h
      exact absurd h.1.symm hne

/-- The scheme of a URL is what stands before its first colon. -/
theorem getScheme_spec (h : getScheme rawURL = some (scheme, rest)) (hne : scheme ≠ []) :
  rawURL = scheme ++ 0x3A :: rest ∧ ∀ b ∈ scheme, isSchemeByte b = true
  := by
  have := getSchemeFrom_spec h (by simp) hne
  simpa using this

/-- The query of a URL begins at its first question mark. -/
theorem setQuery_spec (url : URL) (rest : GoString) :
  ∃ tail, rest = (url.setQuery rest).2 ++ tail ∧ 0x3F ∉ (url.setQuery rest).2 ∧
    (∀ b ∈ tail.head?, b = 0x3F) ∧
    (url.setQuery rest).1 = { url with
      forceQuery := (url.setQuery rest).1.forceQuery
      rawQuery := (url.setQuery rest).1.rawQuery }
  := by
  unfold URL.setQuery
  split_ifs with hforce
  · obtain ⟨hlast, hcount⟩ := hforce
    obtain ⟨front, rfl⟩ := List.getLast?_eq_some_iff.mp hlast
    rw [count_append, count_singleton_self] at hcount
    have hzero : front.count 0x3F = 0 := by omega
    simpa using count_eq_zero.mp hzero
  · rcases cut_cases 0x3F rest with ⟨hnot, hcut⟩ | ⟨u, v, hnot, rfl, hcut⟩
    · rw [hcut]
      exact ⟨[], by simp, hnot, by simp, rfl⟩
    · rw [hcut]
      exact ⟨0x3F :: v, rfl, hnot, by simp, rfl⟩

theorem setPath_spec {p : GoString} (h : url.setPath p = some url') :
  url' = { url with path := url'.path, rawPath := url'.rawPath }
  := by
  obtain ⟨path, -, rfl⟩ := Option.map_eq_some_iff.mp h
  rfl

/-- The text of a URL with an authority, up to its query. -/
theorem setHierarchy_spec (h : url.setHierarchy viaRequest rest = some url')
    (hbefore : url.host = []) (hne : url'.host ≠ []) :
  ∃ authority after, rest = 0x2F :: 0x2F :: (authority ++ after) ∧ 0x2F ∉ authority ∧
    (∀ b ∈ after.head?, b = 0x2F) ∧ parseAuthority authority = some (url'.user, url'.host) ∧
    url'.scheme = url.scheme ∧ url'.opaquePart = url.opaquePart ∧ url'.fragment = url.fragment
  := by
  unfold URL.setHierarchy at h
  split_ifs at h with hslashes hslash
  · simp only [Bool.and_eq_true] at hslashes
    obtain ⟨t, rfl⟩ := isPrefixOf_iff_prefix.mp hslashes.2
    have hdrop : (lit "//" ++ t).drop 2 = t := rfl
    rw [hdrop] at h
    obtain ⟨⟨user, host⟩, hauthority, hpath⟩ := Option.bind_eq_some_iff.mp h
    rw [setPath_spec hpath]
    rcases cut_cases 0x2F t with ⟨hnot, hcut⟩ | ⟨u, v, hnot, rfl, hcut⟩
    · rw [hcut] at hauthority
      exact ⟨t, [], by simp; rfl, hnot, by simp, hauthority, rfl, rfl, rfl⟩
    · rw [hcut] at hauthority
      exact ⟨u, 0x2F :: v, rfl, hnot, by simp, hauthority, rfl, rfl, rfl⟩
  · rw [setPath_spec h] at hne
    exact absurd hbefore hne
  · rw [setPath_spec h] at hne
    exact absurd hbefore hne

/-- The text of a URL with a scheme and an authority. -/
structure HasAuthority (rawURL : GoString) (url : URL) (scheme authority tail : GoString) : Prop where
  text : rawURL = scheme ++ 0x3A :: 0x2F :: 0x2F :: (authority ++ tail)
  scheme_byte : ∀ b ∈ scheme, isSchemeByte b = true
  scheme_ne_nil : scheme ≠ []
  scheme_eq : url.scheme = scheme.map lowerByte
  no_slash : 0x2F ∉ authority
  no_query : 0x3F ∉ authority
  tail_head : ∀ b ∈ tail.head?, b = 0x2F ∨ b = 0x3F
  authority_eq : parseAuthority authority = some (url.user, url.host)
  opaquePart_eq : url.opaquePart = []
  no_fragment : url.fragment = []

/-- A URL with a host is read from what stands between its scheme and its query. -/
theorem parseURL_setHierarchy (h : parseURL viaRequest rawURL = some url) (hhost : url.host ≠ []) :
  ∃ (scheme rest query : GoString) (url₀ : URL),
    getScheme rawURL = some (scheme, rest ++ query) ∧ 0x3F ∉ rest ∧
    (∀ b ∈ query.head?, b = 0x3F) ∧ url₀.scheme = scheme.map lowerByte ∧ url₀.host = [] ∧
    url₀.opaquePart = [] ∧ url₀.fragment = [] ∧ url₀.setHierarchy viaRequest rest = some url
  := by
  unfold parseURL at h
  split_ifs at h with hctl hempty hstar
  · cases h
    exact absurd rfl hhost
  · obtain ⟨⟨scheme, rest⟩, hget, hrest⟩ := Option.bind_eq_some_iff.mp h
    unfold parseRest at hrest
    obtain ⟨query, hquery, hnot, hhead, hfields⟩ :=
      setQuery_spec ({ scheme := scheme.map lowerByte } : URL) rest
    rcases hq : URL.setQuery ({ scheme := scheme.map lowerByte } : URL) rest with ⟨url₀, rest₀⟩
    simp only [hq] at hrest hquery hnot hfields
    have hhost₀ : url₀.host = [] := by rw [hfields]
    have hrest : url₀.setHierarchy viaRequest rest₀ = some url := by
      split_ifs at hrest
      · exact hrest
      · cases hrest
        exact absurd hhost₀ hhost
      · exact hrest
    rw [hquery] at hget
    refine ⟨scheme, rest₀, query, url₀, hget, hnot, hhead, ?_, hhost₀, ?_, ?_, hrest⟩
    · rw [hfields]
    · rw [hfields]
    · rw [hfields]

/-- A URL with a scheme and a host is written with an authority. -/
theorem parseURL_hasAuthority (h : parseURL viaRequest rawURL = some url)
    (hscheme : url.scheme ≠ []) (hhost : url.host ≠ []) :
  ∃ scheme authority tail, HasAuthority rawURL url scheme authority tail
  := by
  obtain ⟨scheme, rest, query, url₀, hget, hnot, hhead, hscheme₀, hhost₀, hpart₀, hfragment₀, hrest⟩ :=
    parseURL_setHierarchy h hhost
  obtain ⟨authority, after, htext, hslash, hafter, hauthority, hscheme', hpart, hfragment⟩ :=
    setHierarchy_spec hrest hhost₀ hhost
  rw [hscheme₀] at hscheme'
  have hne : scheme ≠ [] := by
    rintro rfl
    exact hscheme hscheme'
  obtain ⟨hraw, hbytes⟩ := getScheme_spec hget hne
  have hmem : 0x3F ∉ authority ∧ 0x3F ∉ after := by
    rw [htext] at hnot
    simpa [not_or] using hnot
  refine ⟨scheme, authority, after ++ query, ?_, hbytes, hne, hscheme', hslash, hmem.1, ?_,
    hauthority, hpart.trans hpart₀, hfragment.trans hfragment₀⟩
  · rw [hraw, htext]
    simp
  · intro b hb
    cases after with
    | nil => exact .inr (hhead b hb)
    | cons c after => exact .inl (hafter b hb)

/-! ### The bytes of a host -/

/-- A text that can be unescaped begins with an escape for a byte that may be escaped, or with a
byte that may stand there. -/
theorem unescape_cons {c : UInt8} (h : unescape mode (c :: s) = some t) :
  (c = 0x25 ∧ ∃ a b m n s' t', s = a :: b :: s' ∧ unhex a = some m ∧ unhex b = some n ∧
      escapeAllowed mode (UInt8.ofNat (16 * m + n)) = true ∧
      unescape mode s' = some t' ∧ t = UInt8.ofNat (16 * m + n) :: t') ∨
    (c ≠ 0x25 ∧ literalAllowed mode c = true ∧ ∃ t', unescape mode s = some t' ∧ t = c :: t')
  := by
  unfold unescape at h
  split_ifs at h with hc hallowed
  · left
    use hc
    split at h
    · rename_i a b s'
      obtain ⟨m, hm, h⟩ := Option.bind_eq_some_iff.mp h
      obtain ⟨n, hn, h⟩ := Option.bind_eq_some_iff.mp h
      split_ifs at h with hescape
      obtain ⟨t', ht', rfl⟩ := Option.map_eq_some_iff.mp h
      exact ⟨a, b, m, n, s', t', rfl, hm, hn, hescape, ht', rfl⟩
    · cases h
  · right
    refine ⟨hc, hallowed, ?_⟩
    obtain ⟨t', ht', rfl⟩ := Option.map_eq_some_iff.mp h
    exact ⟨t', ht', rfl⟩

/-- What holds for a text and its unescaped form, by the escapes and the other bytes. -/
theorem unescape_induction {mode : Encoding} {P : GoString → GoString → Prop} (nil : P [] [])
    (escape : ∀ a b m n s t, unhex a = some m → unhex b = some n →
      escapeAllowed mode (UInt8.ofNat (16 * m + n)) = true → P s t →
      P (0x25 :: a :: b :: s) (UInt8.ofNat (16 * m + n) :: t))
    (literal : ∀ c s t, c ≠ 0x25 → literalAllowed mode c = true → P s t → P (c :: s) (c :: t))
    {s t : GoString} (h : unescape mode s = some t) :
  P s t
  := by
  match s, h with
  | [], h =>
    cases h
    exact nil
  | c :: s, h =>
    rcases unescape_cons h with ⟨rfl, a, b, m, n, s', t', rfl, hm, hn, hallowed, ht', rfl⟩ |
      ⟨hc, hallowed, t', ht', rfl⟩
    · exact escape a b m n s' t' hm hn hallowed (unescape_induction nil escape literal ht')
    · exact literal c s t' hc hallowed (unescape_induction nil escape literal ht')
  termination_by s.length

/-- A byte of an escaped text is part of an escape, or may stand there. -/
theorem unescape_byte (h : unescape mode s = some t) :
  ∀ b ∈ s, b = 0x25 ∨ (unhex b).isSome = true ∨ literalAllowed mode b = true
  := by
  apply unescape_induction
    (P := fun s _ => ∀ b ∈ s, b = 0x25 ∨ (unhex b).isSome = true ∨ literalAllowed mode b = true) _ _ _ h
  · simp
  · intro a b m n s t hm hn _ ih x hx
    simp only [mem_cons] at hx
    rcases hx with rfl | rfl | rfl | hx
    · exact .inl rfl
    · exact .inr (.inl (by rw [hm]; rfl))
    · exact .inr (.inl (by rw [hn]; rfl))
    · exact ih x hx
  · intro c s t _ hallowed ih x hx
    rcases mem_cons.mp hx with rfl | hx
    · exact .inr (.inr hallowed)
    · exact ih x hx

/-- A byte that is no part of an escape. -/
def Plain (b : UInt8) : Prop := b ≠ 0x25 ∧ unhex b = none

/-- A text without escapes is left as it is. -/
theorem unescape_of_not_mem (h : unescape mode s = some t) :
  0x25 ∉ s → t = s
  := by
  apply unescape_induction (P := fun s t => 0x25 ∉ s → t = s) _ _ _ h
  · intro _
    rfl
  · intro a b m n s t _ _ _ _ hnot
    exact absurd mem_cons_self hnot
  · intro c s t _ _ ih hnot
    rw [mem_cons, not_or] at hnot
    rw [ih hnot.2]

/-- The end of a text that has no escapes in it is left as it is. -/
theorem unescape_append (hy : ∀ b ∈ y, Plain b) (h : unescape mode (s ++ y) = some t) :
  ∃ t', t = t' ++ y
  := by
  induction hn : s.length using Nat.strongRecOn generalizing s t with
  | ind k ih =>
    cases s with
    | nil => exact ⟨[], unescape_of_not_mem h (fun hmem => (hy 0x25 hmem).1 rfl)⟩
    | cons c s =>
      rw [length_cons] at hn
      rw [cons_append] at h
      rcases unescape_cons h with ⟨rfl, a, b, m, n, x, t', hx, ha, hb, -, ht', rfl⟩ |
        ⟨-, -, t', ht', rfl⟩
      · -- the two digits of an escape are not in the end
        match s with
        | [] =>
          rw [nil_append] at hx
          have hplain := (hy a (by rw [hx]; simp)).2
          rw [ha] at hplain
          cases hplain
        | [d] =>
          rw [cons_append, nil_append, List.cons.injEq] at hx
          have hplain := (hy b (by rw [hx.2]; simp)).2
          rw [hb] at hplain
          cases hplain
        | d :: e :: s =>
          simp only [cons_append, List.cons.injEq] at hx
          rw [← hx.2.2] at ht'
          simp only [length_cons] at hn
          obtain ⟨t'', rfl⟩ := ih s.length (by omega) ht' rfl
          exact ⟨_ :: t'', rfl⟩
      · obtain ⟨t'', rfl⟩ := ih s.length (by omega) ht' rfl
        exact ⟨c :: t'', rfl⟩

theorem cutZone_spec {before zone : GoString} (h : cutZone s = some (before, zone)) :
  s = before ++ zone ∧ lit "%25" <+: zone
  := by
  induction s generalizing before with
  | nil => cases h
  | cons c s ih =>
    rw [cutZone] at h
    split_ifs at h with hprefix
    · cases h
      exact ⟨rfl, isPrefixOf_iff_prefix.mp hprefix⟩
    · obtain ⟨⟨p, q⟩, hp, heq⟩ := Option.map_eq_some_iff.mp h
      obtain ⟨rfl, rfl⟩ := heq
      obtain ⟨rfl, hzone⟩ := ih hp
      exact ⟨rfl, hzone⟩

variable {host authority tail : GoString} {b : UInt8}

/-- A host is unescaped as a whole, or as the parts before, of and after its zone. -/
theorem parseHost_cases {text : GoString} (h : parseHost text = some host) :
  unescape .host text = some host ∨
    ∃ before zone after host₁ host₂ host₃, text = before ++ zone ++ after ∧ lit "%25" <+: zone ∧
      unescape .host before = some host₁ ∧ unescape .zone zone = some host₂ ∧
      unescape .host after = some host₃ ∧ host = host₁ ++ host₂ ++ host₃
  := by
  unfold parseHost at h
  split_ifs at h
  · obtain ⟨⟨address, colonPort⟩, hcut, h⟩ := Option.bind_eq_some_iff.mp h
    dsimp only at h
    split_ifs at h
    split at h
    · rename_i before zone hzone
      obtain ⟨host₁, h₁, h⟩ := Option.bind_eq_some_iff.mp h
      obtain ⟨host₂, h₂, h⟩ := Option.bind_eq_some_iff.mp h
      obtain ⟨host₃, h₃, rfl⟩ := Option.map_eq_some_iff.mp h
      obtain ⟨rfl, hprefix⟩ := cutZone_spec hzone
      rcases cutLast_cases 0x5D text with ⟨-, hnone⟩ | ⟨u, v, -, rfl, hsome⟩
      · rw [hnone] at hcut
        cases hcut
      · rw [hsome] at hcut
        cases hcut
        exact .inr ⟨_, _, _, host₁, host₂, host₃, rfl, hprefix, h₁, h₂, h₃, rfl⟩
    · exact .inl h
  · split at h
    · split_ifs at h
      exact .inl h
    · exact .inl h

/-- There is no number sign in a host. -/
theorem parseHost_no_fragment (h : parseHost host = some t) :
  0x23 ∉ host
  := by
  have hunescape : ∀ mode s t, mode = .host ∨ mode = .zone → unescape mode s = some t →
      0x23 ∉ s := by
    intro mode s t hmode hs hmem
    have hbyte := unescape_byte hs 0x23 hmem
    rcases hmode with rfl | rfl <;> exact absurd hbyte (by decide)
  obtain h | ⟨before, zone, after, _, _, _, rfl, -, h₁, h₂, h₃, -⟩ := parseHost_cases h
  · exact hunescape _ _ _ (.inl rfl) h
  · simp only [mem_append, not_or]
    exact ⟨⟨hunescape _ _ _ (.inl rfl) h₁, hunescape _ _ _ (.inr rfl) h₂⟩,
      hunescape _ _ _ (.inl rfl) h₃⟩

/-! ### White space -/

/-- A byte of white space is no part of an escape, of a port or of the punctuation of a URL. -/
theorem blank_byte (h : isSpaceByte b = true ∨ runeSelf ≤ b.toNat) :
  Plain b ∧ isDelimiter b = false ∧ isDigit b = false ∧ isSchemeByte b = false ∧ b ≠ 0x3A ∧
    b ≠ 0x40 ∧ b ≠ 0x5D
  := by
  revert h
  apply forall_byte (P := fun b => isSpaceByte b = true ∨ runeSelf ≤ b.toNat →
    (b ≠ 0x25 ∧ unhex b = none) ∧ isDelimiter b = false ∧ isDigit b = false ∧
      isSchemeByte b = false ∧ b ≠ 0x3A ∧ b ≠ 0x40 ∧ b ≠ 0x5D)
  decide +kernel

theorem blank_not_mem (hy : Blank y) (hb : ∀ x, isSpaceByte x = true ∨ runeSelf ≤ x.toNat → x ≠ b) :
  b ∉ y
  := by
  intro hmem
  exact hb b (hy.byte b hmem) rfl

/-- A port does not end in white space. -/
theorem not_validOptionalPort_append (hy : Blank y) (hne : y ≠ []) :
  validOptionalPort (s ++ y) = false
  := by
  obtain ⟨b, y, rfl⟩ := exists_cons_of_ne_nil hne
  obtain ⟨-, -, hdigit, -, hcolon, -⟩ := blank_byte (hy.byte b (by simp))
  cases s with
  | nil => simp [validOptionalPort, hcolon]
  | cons c s => simp [validOptionalPort, hdigit]

/-- White space at the end of a host is part of it. -/
theorem parseHost_append (hy : Blank y) (h : parseHost (s ++ y) = some t) :
  ∃ t', t = t' ++ y
  := by
  by_cases hne : y = []
  · subst hne
    exact ⟨t, by simp⟩
  have hplain : ∀ b ∈ y, Plain b := fun b hb => (blank_byte (hy.byte b hb)).1
  unfold parseHost at h
  split_ifs at h
  · -- what follows the bracket would be a port
    obtain ⟨⟨address, colonPort⟩, hcut, h⟩ := Option.bind_eq_some_iff.mp h
    dsimp only at h
    have hbracket : 0x5D ∉ y := blank_not_mem hy (fun x hx => (blank_byte hx).2.2.2.2.2.2)
    rcases cutLast_cases 0x5D s with ⟨hnot, -⟩ | ⟨u, v, hv, rfl, -⟩
    · rw [cutLast_of_not_mem (by simp [hnot, hbracket])] at hcut
      cases hcut
    · rw [append_assoc, cons_append, cutLast_append (by simp [hv, hbracket])] at hcut
      simp only [Option.some.injEq, Prod.mk.injEq] at hcut
      rw [← hcut.2, not_validOptionalPort_append hy hne] at h
      cases h
  · split at h
    · rename_i u port hcut
      have hcolon : 0x3A ∉ y := blank_not_mem hy (fun x hx => (blank_byte hx).2.2.2.2.1)
      rcases cutLast_cases 0x3A s with ⟨hnot, -⟩ | ⟨u', v, hv, rfl, -⟩
      · rw [cutLast_of_not_mem (by simp [hnot, hcolon])] at hcut
        cases hcut
      · rw [append_assoc, cons_append, cutLast_append (by simp [hv, hcolon])] at hcut
        simp only [Option.some.injEq, Prod.mk.injEq] at hcut
        rw [← hcut.2, ← cons_append, not_validOptionalPort_append hy hne] at h
        cases h
    · exact unescape_append hplain h

/-! ### The two parsers -/

/-- The text of a URL with a scheme and an authority, with what may follow it also after a
number sign. -/
structure AuthorityText (rawURL scheme authority tail : GoString) : Prop where
  text : rawURL = scheme ++ 0x3A :: 0x2F :: 0x2F :: (authority ++ tail)
  scheme_byte : ∀ b ∈ scheme, isSchemeByte b = true
  scheme_ne_nil : scheme ≠ []
  authority_byte : ∀ b ∈ authority, isDelimiter b = false
  tail_head : AfterAuthority tail

theorem isDelimiter_eq_false :
  isDelimiter b = false ↔ b ≠ 0x2F ∧ b ≠ 0x3F ∧ b ≠ 0x23
  := by
  simp [isDelimiter, and_assoc]

/-- A text up to its first number sign, and the text as a whole. -/
theorem HasAuthority.authorityText {u : GoString} (h : HasAuthority u url scheme authority tail)
    (hfragment : 0x23 ∉ authority) (hrest : ∀ b ∈ rest.head?, b = 0x23) :
  AuthorityText (u ++ rest) scheme authority (tail ++ rest)
  := by
  refine ⟨?_, h.scheme_byte, h.scheme_ne_nil, ?_, ?_⟩
  · rw [h.text]
    simp
  · intro b hb
    rw [isDelimiter_eq_false]
    refine ⟨?_, ?_, ?_⟩
    · rintro rfl
      exact h.no_slash hb
    · rintro rfl
      exact h.no_query hb
    · rintro rfl
      exact hfragment hb
  · intro b hb
    cases tail with
    | nil =>
      rw [hrest b hb]
      rfl
    | cons c tail =>
      rcases h.tail_head b hb with rfl | rfl <;> rfl

/-- The authority of a text that `Parse` accepts. -/
theorem parse_authorityText (h : parse rawURL = some url) (hscheme : url.scheme ≠ [])
    (hhost : url.host ≠ []) :
  ∃ scheme authority tail, AuthorityText rawURL scheme authority tail ∧
    parseAuthority authority = some (url.user, url.host)
  := by
  have hbefore : ∃ u rest url₀, rawURL = u ++ rest ∧ 0x23 ∉ u ∧ (∀ b ∈ rest.head?, b = 0x23) ∧
      parseURL false u = some url₀ ∧ url₀.scheme = url.scheme ∧ url₀.user = url.user ∧
      url₀.host = url.host := by
    obtain ⟨url₀, hparse, h⟩ := Option.bind_eq_some_iff.mp h
    have hfields : url₀.scheme = url.scheme ∧ url₀.user = url.user ∧ url₀.host = url.host := by
      split_ifs at h
      · cases h
        exact ⟨rfl, rfl, rfl⟩
      · obtain ⟨f, -, rfl⟩ := Option.map_eq_some_iff.mp h
        exact ⟨rfl, rfl, rfl⟩
    rcases cut_cases 0x23 rawURL with ⟨hnot, hcut⟩ | ⟨u, v, hnot, rfl, hcut⟩
    · rw [hcut] at hparse
      exact ⟨rawURL, [], url₀, by simp, hnot, by simp, hparse, hfields⟩
    · rw [hcut] at hparse
      exact ⟨u, 0x23 :: v, url₀, rfl, hnot, by simp, hparse, hfields⟩
  obtain ⟨u, rest, url₀, rfl, hnot, hrest, hparse, heq, huser, hhost'⟩ := hbefore
  rw [← heq] at hscheme
  rw [← hhost'] at hhost
  obtain ⟨scheme, authority, tail, hauthority⟩ := parseURL_hasAuthority hparse hscheme hhost
  refine ⟨scheme, authority, tail ++ rest, hauthority.authorityText ?_ hrest, ?_⟩
  · rw [hauthority.text] at hnot
    simp only [mem_append, mem_cons, not_or] at hnot
    exact hnot.2.2.2.2.1
  · rw [← huser, ← hhost', hauthority.authority_eq]

theorem parseAuthority_none (h : parseAuthority authority = some (none, host)) :
  parseHost authority = some host ∧ 0x40 ∉ authority
  := by
  unfold parseAuthority at h
  rcases cutLast_cases 0x40 authority with ⟨hnot, hcut⟩ | ⟨u, v, -, rfl, hcut⟩
  · rw [hcut] at h
    obtain ⟨host', hhost, heq⟩ := Option.map_eq_some_iff.mp h
    rw [← (Prod.mk.inj heq).2]
    exact ⟨hhost, hnot⟩
  · rw [hcut] at h
    obtain ⟨host', -, h⟩ := Option.bind_eq_some_iff.mp h
    obtain ⟨user, -, heq⟩ := Option.map_eq_some_iff.mp h
    cases (Prod.mk.inj heq).1

/-- The authority of a text without a user that `ParseRequestURI` accepts. -/
theorem parseRequestURI_authorityText (h : parseRequestURI rawURL = some url)
    (hscheme : url.scheme ≠ []) (hhost : url.host ≠ []) (huser : url.user = none) :
  ∃ scheme authority tail, AuthorityText rawURL scheme authority tail ∧
    parseAuthority authority = some (none, url.host)
  := by
  obtain ⟨scheme, authority, tail, hauthority⟩ := parseURL_hasAuthority h hscheme hhost
  have heq := hauthority.authority_eq
  rw [huser] at heq
  have hnot := parseHost_no_fragment (parseAuthority_none heq).1
  have hnil : ∀ b ∈ ([] : GoString).head?, b = 0x23 := by simp
  have htext := hauthority.authorityText hnot hnil
  rw [append_nil] at htext
  exact ⟨scheme, authority, _, htext, heq⟩

theorem colon_not_mem_scheme (h : ∀ b ∈ scheme, isSchemeByte b = true) :
  0x3A ∉ scheme
  := by
  intro hmem
  exact absurd (h 0x3A hmem) (by decide)

/-- A text that continues another has the same scheme, and its authority continues there. -/
theorem AuthorityText.append_eq {raw scheme' authority' tail' : GoString}
    (h : AuthorityText (raw ++ y) scheme authority tail)
    (h' : AuthorityText raw scheme' authority' tail') :
  authority ++ tail = authority' ++ (tail' ++ y)
  := by
  have hcut := cut_append (colon_not_mem_scheme h.scheme_byte) (0x2F :: 0x2F :: (authority ++ tail))
  have hcut' := cut_append (colon_not_mem_scheme h'.scheme_byte)
    (0x2F :: 0x2F :: (authority' ++ (tail' ++ y)))
  rw [← h.text, h'.text, append_assoc] at hcut
  simp only [cons_append, append_assoc] at hcut hcut'
  rw [hcut'] at hcut
  simp only [Prod.mk.injEq, Option.some.injEq, List.cons.injEq, true_and] at hcut
  exact hcut.2.symm

/-- There is no white space before a URL with a scheme. -/
theorem AuthorityText.not_blank {x : GoString} (h : AuthorityText (x ++ s) scheme authority tail)
    (hx : Blank x) :
  x = []
  := by
  obtain ⟨c, scheme, rfl⟩ := exists_cons_of_ne_nil h.scheme_ne_nil
  cases x with
  | nil => rfl
  | cons b x =>
    have htext := h.text
    rw [cons_append, cons_append, List.cons.injEq] at htext
    have hb := (blank_byte (hx.byte b (by simp))).2.2.2.1
    rw [htext.1, h.scheme_byte c (by simp)] at hb
    cases hb

/-- If a URL with a host without white space is parsed by `Parse`, and without the white space
around it by `ParseRequestURI`, then the hosts are the same. -/
theorem host_eq_of_trimSpace {address : GoString} (h : parse address = some url)
    (hscheme : url.scheme ≠ []) (hhost : url.host ≠ [])
    (hspace : ∀ r ∈ decode url.host, isSpaceRune r = false)
    (h' : parseRequestURI (trimSpace address) = some url') (hscheme' : url'.scheme ≠ [])
    (hhost' : url'.host ≠ []) (huser' : url'.user = none) :
  url.host = url'.host
  := by
  obtain ⟨scheme, authority, tail, htext, hauthority⟩ := parse_authorityText h hscheme hhost
  obtain ⟨scheme', authority', tail', htext', hauthority'⟩ :=
    parseRequestURI_authorityText h' hscheme' hhost' huser'
  obtain ⟨x, y, haddress, hx, hy⟩ := trimSpace_spec address
  rw [haddress, append_assoc] at htext
  obtain rfl := htext.not_blank hx
  rw [nil_append] at htext
  have heq := htext.append_eq htext'
  have hbyte := htext.authority_byte
  have hbyte' := htext'.authority_byte
  by_cases hend : tail' = [] ∧ y ≠ []
  · -- the white space would be the end of the host
    obtain ⟨rfl, hne⟩ := hend
    obtain ⟨-, hat⟩ := parseAuthority_none hauthority'
    have hdelimiter : ∀ b ∈ authority' ++ y, isDelimiter b = false := by
      intro b hb
      rcases mem_append.mp hb with hb | hb
      · exact hbyte' b hb
      · exact (blank_byte (hy.byte b hb)).2.1
    have hnil : AfterAuthority [] := by simp [AfterAuthority]
    have hwhole : authority ++ tail = authority' ++ y ++ [] := by simp [heq]
    have hunique := authority_unique hwhole hbyte hdelimiter htext.tail_head hnil
    have hat' : 0x40 ∉ authority' ++ y := by
      rw [mem_append, not_or]
      exact ⟨hat, blank_not_mem hy (fun b hb => (blank_byte hb).2.2.2.2.2.1)⟩
    rw [hunique, parseAuthority, cutLast_of_not_mem hat'] at hauthority
    obtain ⟨host, hparse, hpair⟩ := Option.map_eq_some_iff.mp hauthority
    rw [← (Prod.mk.inj hpair).2] at hspace
    obtain ⟨t, rfl⟩ := parseHost_append hy hparse
    obtain ⟨r, hr, hrune⟩ := hy.decode_append (s := t) hne
    rw [hspace r hr] at hrune
    cases hrune
  · have htail : AfterAuthority (tail' ++ y) := by
      intro b hb
      cases tail' with
      | nil =>
        obtain rfl : y = [] := by
          by_contra hne
          exact hend ⟨rfl, hne⟩
        cases hb
      | cons c tail' => exact htext'.tail_head b hb
    rw [authority_unique heq hbyte hbyte' htext.tail_head htail, hauthority'] at hauthority
    exact (Prod.mk.inj (Option.some.inj hauthority)).2.symm

/-! ### The string of a URL -/

theorem unhex_upperhex {n : ℕ} (h : n < 16) :
  unhex (upperhex n) = some n
  := by
  have hall : ∀ n : Fin 16, unhex (upperhex n) = some n.val := by decide
  exact hall ⟨n, h⟩

theorem shouldEscape_percent (mode : Encoding) :
  shouldEscape mode 0x25 = true
  := by
  cases mode <;> decide

/-- What is escaped can be read again. -/
theorem unescape_escape (mode : Encoding) (s : GoString) :
  unescape .path (escape mode s) = some s
  := by
  induction s with
  | nil => rfl
  | cons c s ih =>
    have hcons : escape mode (c :: s) = escapeByte mode c ++ escape mode s := by simp [escape]
    rw [hcons, escapeByte]
    split_ifs with hescape
    · have hlt := c.toNat_lt
      have hbyte : UInt8.ofNat (16 * (c.toNat / 16) + c.toNat % 16) = c := by
        rw [Nat.div_add_mod, UInt8.ofNat_toNat]
      simp only [cons_append, nil_append]
      rw [unescape, if_pos rfl]
      simp only [unhex_upperhex (show c.toNat / 16 < 16 by omega),
        unhex_upperhex (Nat.mod_lt _ (by omega)), Option.bind_some, hbyte]
      rw [if_pos (by rfl), ih]
      rfl
    · have hne : c ≠ 0x25 := by
        rintro rfl
        exact hescape (shouldEscape_percent mode)
      rw [cons_append, nil_append]
      unfold unescape
      rw [if_neg hne, if_pos (by rfl), ih]
      rfl

theorem escape_injective (mode : Encoding) :
  Function.Injective (escape mode)
  := by
  intro s t h
  have hs := unescape_escape mode s
  rw [h, unescape_escape] at hs
  exact (Option.some.inj hs).symm

/-- There is no end of an authority in an escaped host. -/
theorem escape_host_byte :
  ∀ b ∈ escape .host host, isDelimiter b = false
  := by
  have hdigit : ∀ n : Fin 16, isDelimiter (upperhex n) = false := by decide
  intro b hb
  obtain ⟨c, -, hc⟩ := mem_flatMap.mp hb
  unfold escapeByte at hc
  split_ifs at hc with hescape
  · have hlt := c.toNat_lt
    simp only [mem_cons, not_mem_nil, or_false] at hc
    rcases hc with rfl | rfl | rfl
    · rfl
    · exact hdigit ⟨c.toNat / 16, by omega⟩
    · exact hdigit ⟨c.toNat % 16, by omega⟩
  · rw [mem_singleton.mp hc, isDelimiter_eq_false]
    refine ⟨?_, ?_, ?_⟩ <;> rintro rfl <;> exact hescape (by decide)

/-- A URL with a scheme and a host, without a user and a fragment. -/
structure Absolute (url : URL) : Prop where
  scheme_ne_nil : url.scheme ≠ []
  no_colon : 0x3A ∉ url.scheme
  host_ne_nil : url.host ≠ []
  user_eq : url.user = none
  opaquePart_eq : url.opaquePart = []
  fragment_eq : url.fragment = []

theorem Absolute.string_eq (h : Absolute url) :
  ∃ tail, AfterAuthority tail ∧
    url.string = url.scheme ++ 0x3A :: 0x2F :: 0x2F :: (escape .host url.host ++ tail)
  := by
  obtain ⟨hscheme, -, hhost, huser, hpart, hfragment⟩ := h
  have hauthority : url.authorityString = 0x2F :: 0x2F :: escape .host url.host := by
    simp [URL.authorityString, hscheme, hhost, huser]
    rfl
  have hsuffix : AfterAuthority url.suffixString := by
    intro b hb
    simp only [URL.suffixString, hfragment, ne_eq, not_true_eq_false, if_false,
      append_nil] at hb
    split_ifs at hb
    · cases hb
      rfl
    · cases hb
  have hpath : AfterAuthority
      ((if url.escapedPath ≠ [] ∧ url.escapedPath.head? ≠ some 0x2F ∧ url.host ≠ [] then lit "/"
        else []) ++ url.escapedPath ++ url.suffixString) := by
    intro b hb
    split_ifs at hb with hslash
    · cases hb
      rfl
    · cases hpath : url.escapedPath with
      | nil =>
        rw [hpath] at hb
        exact hsuffix b hb
      | cons c path =>
        rw [hpath] at hb hslash
        obtain rfl := Option.some.inj hb
        have hc : c = 0x2F := by
          by_contra hne
          exact hslash ⟨by simp, by simpa using hne, hhost⟩
        rw [hc]
        rfl
  refine ⟨_, hpath, ?_⟩
  simp [URL.string, hscheme, hpart, hauthority]

/-- The string of a URL determines its host. -/
theorem host_eq_of_string_eq (h : url.string = url'.string) (hurl : Absolute url)
    (hurl' : Absolute url') :
  url.host = url'.host
  := by
  obtain ⟨tail, htail, hstring⟩ := hurl.string_eq
  obtain ⟨tail', htail', hstring'⟩ := hurl'.string_eq
  have hcut := cut_append hurl.no_colon (0x2F :: 0x2F :: (escape .host url.host ++ tail))
  rw [← hstring, h, hstring', cut_append hurl'.no_colon] at hcut
  simp only [Prod.mk.injEq, Option.some.injEq, List.cons.injEq, true_and] at hcut
  apply escape_injective .host
  exact (authority_unique hcut.2 escape_host_byte escape_host_byte htail' htail).symm

/-! ### Letter case -/

/-- A URL with a scheme and a host and without a user is parsed without a fragment too. -/
theorem absolute_of_parseURL (h : parseURL viaRequest rawURL = some url) (hscheme : url.scheme ≠ [])
    (hhost : url.host ≠ []) (huser : url.user = none) :
  Absolute url
  := by
  obtain ⟨scheme, authority, tail, hauthority⟩ := parseURL_hasAuthority h hscheme hhost
  refine ⟨hscheme, ?_, hhost, huser, hauthority.opaquePart_eq, hauthority.no_fragment⟩
  rw [hauthority.scheme_eq]
  intro hmem
  obtain ⟨b, hb, hlower⟩ := mem_map.mp hmem
  rw [lowerByte_eq_special (by decide)] at hlower
  exact colon_not_mem_scheme hauthority.scheme_byte (hlower ▸ hb)

variable {U : CaseTable}

theorem Absolute.toLower {url : URL} (h : Absolute url) :
  Absolute { url with scheme := toLower U url.scheme, host := toLower U url.host }
  where
  scheme_ne_nil := by
    rw [ne_eq, toLower_eq_nil]
    exact h.scheme_ne_nil
  no_colon := by
    rw [mem_toLower_special (by decide)]
    exact h.no_colon
  host_ne_nil := by
    rw [ne_eq, toLower_eq_nil]
    exact h.host_ne_nil
  user_eq := h.user_eq
  opaquePart_eq := h.opaquePart_eq
  fragment_eq := h.fragment_eq

/-- The host without its port. -/
def withoutPort (host : GoString) : GoString :=
  match cutLast 0x3A host with
  | some (host', port) => if port.all isDigit then host' else host
  | none => host

/-- A host without the brackets of an address. -/
def withoutBrackets (host : GoString) : GoString :=
  if host.head? = some 0x5B ∧ host.getLast? = some 0x5D then (host.drop 1).dropLast else host

theorem hostname_eq (url : URL) :
  url.hostname = withoutBrackets (withoutPort url.host)
  := rfl

theorem special_of_isDigit (b : UInt8) (h : isDigit b = true) :
  Special b
  := by
  simp only [isDigit, Bool.and_eq_true, decide_eq_true_eq] at h
  unfold Special runeSelf
  omega

theorem withoutPort_toLower (host : GoString) :
  withoutPort (toLower U host) = toLower U (withoutPort host)
  := by
  unfold withoutPort
  rw [cutLast_toLower (by decide)]
  cases cutLast 0x3A host with
  | none => rfl
  | some p =>
    have hport := toLower_all_special (U := U) special_of_isDigit p.2
    simp only [Option.map_some, all_eq_true, hport]
    split_ifs <;> rfl

theorem withoutBrackets_toLower (host : GoString) :
  withoutBrackets (toLower U host) = toLower U (withoutBrackets host)
  := by
  have hiff : ((toLower U host).head? = some 0x5B ∧ (toLower U host).getLast? = some 0x5D) ↔
      host.head? = some 0x5B ∧ host.getLast? = some 0x5D := by
    rw [head?_toLower_special (by decide), getLast?_toLower_special (by decide)]
  unfold withoutBrackets
  by_cases h : host.head? = some 0x5B ∧ host.getLast? = some 0x5D
  · rw [if_pos h, if_pos (hiff.mpr h)]
    obtain ⟨t, rfl⟩ := List.getLast?_eq_some_iff.mp h.2
    cases t with
    | nil => exact absurd h.1 (by decide)
    | cons c t =>
      obtain rfl : c = 0x5B := by simpa using h.1
      rw [toLower_append_special (by decide), cons_append,
        toLower_cons_ascii (by decide)]
      simp
  · rw [if_neg h, if_neg (by rwa [hiff])]

/-- The lower-case `Hostname` depends on the lower-case host only. -/
theorem toLower_hostname (url : URL) :
  toLower U url.hostname = withoutBrackets (withoutPort (toLower U url.host))
  := by
  rw [hostname_eq, withoutPort_toLower, withoutBrackets_toLower]

end NetUrl
