import ActivityRelay.DirectoryClient.Profile

/-!
# Laws of profiles

A check of a field is a partial function to normal forms. The normal form of a value is its own
normal form for every check but that of links: a link whose host has a percent sign after parsing
is written out with that sign unescaped, and the result is not accepted again.
-/

namespace DirectoryClient

open GoString NetUrl GoJson Directory List Option

/-! ### Checks -/

/-- A check gives values that it accepts as they are, and accepts the value of a field left out. -/
structure Settles {α : Type} (check : α → Option α) (zero : α) : Prop where
  zero : check zero = some zero
  again : ∀ {value normalized}, check value = some normalized → check normalized = some normalized

section Keep

variable {α : Type} {zero : α} {field message : GoString}

/-- A field kept from a check that settles is accepted as it is. -/
theorem Settles.keep {check : α → Option α} (h : Settles check zero) (value : α) :
  check (keep zero field message (check value)).1 =
    some (DirectoryClient.keep zero field message (check value)).1
  := by
  cases hcheck : check value with
  | none => exact h.zero
  | some normalized => exact h.again hcheck

theorem keep_warnings_eq_nil {normalized : Option α} :
  (keep zero field message normalized).2 = [] ↔ ∃ value, normalized = some value
  := by
  cases normalized with
  | none | some => simp [DirectoryClient.keep]

end Keep

/-! ### Texts -/

/-- A text with white space added around it. -/
def Padded (value value' : GoString) : Prop :=
  ∃ u v, Blank u ∧ Blank v ∧ value' = u ++ value ++ v

section Padded

variable {value value' : GoString} (h : Padded value value')
include h

theorem Padded.trimSpace :
  GoString.trimSpace value' = GoString.trimSpace value
  := by
  obtain ⟨u, v, hu, hv, rfl⟩ := h
  exact trimSpace_append_blank hu hv value

theorem Padded.text (maximum : ℕ) :
  normalizeProfileText maximum value' = normalizeProfileText maximum value
  := by
  simp only [normalizeProfileText, h.trimSpace]

theorem Padded.participationMode :
  normalizeParticipationMode value' = normalizeParticipationMode value
  := by
  simp only [normalizeParticipationMode, h.text]

theorem Padded.item :
  normalizeProfileItem value' = normalizeProfileItem value
  := by
  simp only [normalizeProfileItem, h.text]

theorem Padded.email (parseAddress : GoString → Option GoString) :
  normalizeProfileEmail parseAddress value' = normalizeProfileEmail parseAddress value
  := by
  simp only [normalizeProfileEmail, h.trimSpace]

theorem Padded.link (U : CaseTable) :
  normalizeProfileURL U value' = normalizeProfileURL U value
  := by
  simp only [normalizeProfileURL, h.trimSpace]

end Padded

theorem settles_text (maximum : ℕ) :
  Settles (normalizeProfileText maximum) []
  := by
  constructor
  · rfl
  · intro value normalized h
    unfold normalizeProfileText at h ⊢
    split_ifs at h with hnil hvalid
    · cases h
      rfl
    · cases h
      rw [trimSpace_trimSpace, if_neg hnil, if_pos hvalid]

/-- A further test of what a check gives. -/
theorem Settles.filter {α : Type} {check : α → Option α} {zero : α} (h : Settles check zero)
    (test : α → Bool) (hzero : test zero = true) :
  Settles (fun value => (check value).filter test) zero
  := by
  constructor
  · rw [h.zero, filter_some, if_pos hzero]
  · intro value normalized hfilter
    obtain ⟨hcheck, htest⟩ := filter_eq_some_iff.mp hfilter
    rw [h.again hcheck, filter_some, if_pos htest]

theorem settles_participationMode :
  Settles normalizeParticipationMode []
  := (settles_text _).filter validParticipationMode rfl

theorem settles_email (parseAddress : GoString → Option GoString) :
  Settles (normalizeProfileEmail parseAddress) []
  := by
  constructor
  · rfl
  · intro value normalized h
    have h' := h
    unfold normalizeProfileEmail at h ⊢
    split_ifs at h with hnil hvalid
    · cases h
      rfl
    · have hnormalized : normalized = trimSpace value := by
        split at h
        · cases h
        · split_ifs at h
          exact (Option.some.inj h).symm
      subst hnormalized
      rwa [trimSpace_trimSpace]

/-! ### Lists -/

variable {value link : GoString} {U : CaseTable} {url : URL}

theorem normalizeProfileItem_again {item : GoString} (h : normalizeProfileItem value = some item) :
  normalizeProfileItem item = some item
  := by
  obtain ⟨htext, hne⟩ := filter_eq_some_iff.mp h
  rw [normalizeProfileItem, (settles_text _).again htext, filter_some, if_pos hne]

theorem mapM_eq_some_iff {α β : Type} {f : α → Option β} {values : List α} {items : List β} :
  values.mapM f = some items ↔ values.map f = items.map some
  := by
  induction values generalizing items with
  | nil =>
    cases items with
    | nil | cons => simp
  | cons value values ih =>
    rw [mapM_cons, map_cons]
    cases hvalue : f value with
    | none => cases items <;> simp
    | some first =>
      cases items with
      | nil => simp [Option.bind_eq_some_iff]
      | cons item items =>
        simp only [Option.pure_def, Option.bind_eq_bind, Option.bind_some,
          Option.bind_eq_some_iff, ih, Option.some.injEq, List.cons.injEq, map_cons]
        constructor
        · rintro ⟨rest, hrest, rfl, rfl⟩
          exact ⟨rfl, hrest⟩
        · rintro ⟨rfl, hrest⟩
          exact ⟨items, hrest, rfl, rfl⟩

theorem mapM_eq_none_iff {α β : Type} {f : α → Option β} {values : List α} :
  values.mapM f = none ↔ none ∈ values.map f
  := by
  induction values with
  | nil => simp
  | cons value values ih =>
    rw [mapM_cons, map_cons, mem_cons, ← ih]
    cases hvalue : f value with
    | none => simp
    | some first => cases values.mapM f <;> simp

/-- Lists with the same normal items have the same normal form, unless one is refused for its
length. -/
theorem normalizeProfileList_congr {values values' : List GoString}
    (hempty : values.length = 0 ↔ values'.length = 0)
    (hlimit : maximumProfileListItems < values.length ↔ maximumProfileListItems < values'.length)
    (h : ∀ item : Option GoString,
      item ∈ values.map normalizeProfileItem ↔ item ∈ values'.map normalizeProfileItem) :
  normalizeProfileList values = normalizeProfileList values'
  := by
  have hitems : (values.mapM normalizeProfileItem).map (fun items => sortStrings items.dedup) =
      (values'.mapM normalizeProfileItem).map (fun items => sortStrings items.dedup) := by
    cases hmap : values.mapM normalizeProfileItem with
    | none =>
      rw [mapM_eq_none_iff, h, ← mapM_eq_none_iff] at hmap
      rw [hmap]
    | some items =>
      cases hmap' : values'.mapM normalizeProfileItem with
      | none =>
        rw [mapM_eq_none_iff, ← h, ← mapM_eq_none_iff, hmap] at hmap'
        cases hmap'
      | some items' =>
        rw [mapM_eq_some_iff] at hmap hmap'
        rw [hmap, hmap'] at h
        rw [map_some, map_some, Option.some.injEq]
        apply sortStrings_eq (nodup_dedup _) (nodup_dedup _)
        intro item
        simpa using h (some item)
  unfold normalizeProfileList
  rw [hitems]
  simp only [hempty, hlimit]

theorem settles_list :
  Settles normalizeProfileList []
  := by
  constructor
  · rfl
  · intro values items h
    unfold normalizeProfileList at h
    split_ifs at h with hempty hlimit
    · cases h
      rfl
    · obtain ⟨normalized, hmap, rfl⟩ := map_eq_some_iff.mp h
      rw [mapM_eq_some_iff] at hmap
      have hlength : values.length = normalized.length := by
        simpa using congrArg List.length hmap
      have hitem : ∀ item ∈ sortStrings normalized.dedup, normalizeProfileItem item = some item := by
        intro item hmem
        rw [mem_sortStrings, mem_dedup] at hmem
        have hmem : some item ∈ values.map normalizeProfileItem := by
          rw [hmap]
          exact mem_map_of_mem hmem
        obtain ⟨value, -, hvalue⟩ := mem_map.mp hmem
        exact normalizeProfileItem_again hvalue
      have hself : (sortStrings normalized.dedup).mapM normalizeProfileItem =
          some (sortStrings normalized.dedup) :=
        mapM_eq_some_iff.mpr (map_congr_left hitem)
      have hle : (sortStrings normalized.dedup).length ≤ normalized.length := by
        rw [(sortStrings_perm _).length_eq]
        exact (dedup_sublist _).length_le
      have hpos : (sortStrings normalized.dedup).length ≠ 0 := by
        rw [(sortStrings_perm _).length_eq]
        intro hzero
        rw [length_eq_zero_iff, dedup_eq_nil] at hzero
        rw [hlength, hzero] at hempty
        exact hempty rfl
      unfold normalizeProfileList
      rw [if_neg hpos, if_neg (by omega), hself, map_some, Option.some.injEq]
      apply sortStrings_eq (nodup_dedup _) (nodup_dedup _)
      intro item
      rw [mem_dedup, mem_sortStrings]

/-! ### Links -/

/-- A trimmed value that is accepted as a link, and what it is parsed to. -/
structure IsLink (U : CaseTable) (value : GoString) (url : URL) : Prop where
  bytes : validProfileBytes maximumProfileURLBytes value = true
  parse : parseRequestURI value = some url
  scheme : url.scheme = lit "https"
  user : url.user = none
  host : url.host ≠ []
  rawQuery : url.rawQuery = []
  fragment : url.fragment = []
  forceQuery : url.forceQuery = false
  opaquePart : url.opaquePart = []
  string : url.string = value
  origin : (parseOrigin U (lit "https://" ++ url.host)).isSome = true
  path : validProfilePath (profilePath url) = true

theorem normalizeProfileURL_eq_some :
  normalizeProfileURL U value = some link ↔
    (trimSpace value = [] ∧ link = []) ∨
    (trimSpace value ≠ [] ∧ ∃ url, IsLink U (trimSpace value) url ∧
      link = lit "https://" ++ url.host ++ profilePath url)
  := by
  unfold normalizeProfileURL
  constructor
  · intro h
    split_ifs at h with hnil hbytes
    · exact .inl ⟨hnil, (Option.some.inj h).symm⟩
    · right
      split at h
      · cases h
      · rename_i url hparse
        split_ifs at h with hparts horigin hpath
        simp only [not_or, not_not] at hparts
        obtain ⟨hscheme, huser, hhost, hquery, hfragment, hforce, hpart, hstring⟩ := hparts
        refine ⟨hnil, url, ?_, (Option.some.inj h).symm⟩
        exact ⟨hbytes, hparse, hscheme, huser, hhost, hquery, hfragment, by simpa using hforce,
          hpart, hstring, horigin, hpath⟩
  · rintro (⟨hnil, rfl⟩ | ⟨hne, url, h, rfl⟩)
    · rw [if_pos hnil]
    · rw [if_neg hne, if_pos h.bytes, h.parse]
      dsimp only
      rw [if_neg, if_pos h.origin, if_pos h.path]
      simp [h.scheme, h.user, h.host, h.rawQuery, h.fragment, h.forceQuery, h.opaquePart, h.string]

/-- The text of a link. -/
theorem IsLink.text (h : IsLink U value url) :
  value = lit "https://" ++ (escape .host url.host ++ url.escapedPath)
  := by
  have hsuffix : url.suffixString = [] := by
    simp [URL.suffixString, h.forceQuery, h.rawQuery, h.fragment]
  have hscheme : url.scheme ≠ [] := by
    rw [h.scheme]
    decide
  have htext := string_authority hscheme h.host h.user h.opaquePart
    (head?_escapedPath h.parse h.host) hsuffix
  rw [h.string, h.scheme] at htext
  exact htext

/-- Neither path of a link has a percent sign. -/
theorem IsLink.percent_not_mem (h : IsLink U value url) :
  0x25 ∉ profilePath url ∧ 0x25 ∉ url.escapedPath
  := by
  have hpath : 0x25 ∉ profilePath url := by
    have hpath := h.path
    simp only [validProfilePath, Bool.and_eq_true, decide_eq_true_eq] at hpath
    exact hpath.1.1.1
  refine ⟨hpath, fun hmem => hpath ?_⟩
  rw [profilePath, if_neg (ne_nil_of_mem hmem)]
  exact hmem

/-- A host without a percent sign has the form of an origin. -/
theorem IsLink.host_form (h : IsLink U value url) (hpercent : 0x25 ∉ url.host) :
  ∃ name port, (IsDNSName name ∨ IsIPv6 name) ∧ (port = [] ∨ IsPort port) ∧
    url.host = bracketed name ++ colonPort port
  := by
  obtain ⟨origin, horigin⟩ := isSome_iff_exists.mp h.origin
  have htext := isOriginText_of_parseOrigin horigin (by
    rw [mem_append, not_or]
    exact ⟨by decide, hpercent⟩)
  obtain ⟨name, port, hname, hport, heq⟩ := isOriginText_iff.mp htext
  exact ⟨name, port, hname, hport, append_cancel_left heq⟩

/-- A link has a percent sign exactly if its host has one after parsing. -/
theorem IsLink.percent_iff (h : IsLink U value url) :
  0x25 ∈ value ↔ 0x25 ∈ url.host
  := by
  rw [h.text, mem_append, mem_append]
  have hpath := h.percent_not_mem.2
  have hscheme : 0x25 ∉ lit "https://" := by decide
  simp only [hscheme, hpath, false_or, or_false]
  constructor
  · intro hmem
    by_contra hhost
    obtain ⟨name, port, hname, hport, heq⟩ := h.host_form hhost
    rw [escape_eq_self] at hmem
    · exact hhost hmem
    · intro b hb
      rw [heq] at hb
      obtain ⟨-, -, -, -, -, hescape, -⟩ :=
        isOriginByte_spec (isOriginByte_authority hname hport b hb)
      exact hescape
  · intro hmem
    exact mem_escape_of_shouldEscape hmem (by decide)

theorem validProfileBytes_slash {maximum : ℕ} (h : validProfileBytes maximum value = true)
    (hlength : value.length + 1 ≤ maximum) :
  validProfileBytes maximum (value ++ [0x2F]) = true
  := by
  have hdecode : decode (value ++ [0x2F]) = decode value ++ [0x2F] := decode_append_ascii (by decide) _ _
  simp only [validProfileBytes, validString, containsProfileControl, Bool.and_eq_true,
    decide_eq_true_eq, Bool.not_eq_true'] at h ⊢
  obtain ⟨⟨hvalid, -⟩, hcontrol⟩ := h
  refine ⟨⟨?_, by simpa using hlength⟩, ?_⟩
  · rw [hdecode, encode, flatMap_append]
    exact congrArg (· ++ [0x2F]) hvalid
  · rw [hdecode, any_append, hcontrol]
    rfl

section Link

variable {U : CaseTable} {value : GoString} {url : URL} (h : IsLink U value url)
include h

/-- The text of a link without a percent sign. -/
theorem IsLink.text_eq (hpercent : 0x25 ∉ value) :
  value = lit "https://" ++ (url.host ++ url.escapedPath)
  := by
  have htext := h.text
  have hescape : escape .host url.host = url.host := by
    apply escape_of_not_mem
    intro hmem
    rw [htext] at hpercent
    exact hpercent (mem_append_right _ (mem_append_left _ hmem))
  rwa [hescape] at htext

/-- A link without a percent sign and without a path is one with the path of a slash, too. -/
theorem IsLink.slash (hpercent : 0x25 ∉ value) (hpath : url.escapedPath = []) :
  IsLink U (lit "https://" ++ (url.host ++ lit "/"))
    { scheme := lit "https", host := url.host, path := lit "/" }
  := by
  obtain ⟨name, port, hname, hport, hhost⟩ := h.host_form (mt h.percent_iff.mpr hpercent)
  have htext := h.text_eq hpercent
  rw [hpath, append_nil] at htext
  have hlength := length_authority_le hname hport
  have hslash : ∀ b ∈ (lit "/").head?, b = 0x2F := by decide +kernel
  have hparse := parseRequestURI_authority hname hport hslash (by decide) (by decide)
  rw [← hhost] at hlength hparse
  have hescape : escape .host url.host = url.host := by
    apply escape_eq_self
    intro b hb
    rw [hhost] at hb
    obtain ⟨-, -, -, -, -, hescape, -⟩ := isOriginByte_spec (isOriginByte_authority hname hport b hb)
    exact hescape
  refine ⟨?_, hparse, rfl, rfl, h.host, rfl, rfl, rfl, rfl, ?_, h.origin, ?_⟩
  · rw [← append_assoc, ← htext]
    apply validProfileBytes_slash h.bytes
    rw [htext, length_append]
    have hscheme : (lit "https://").length = 8 := by decide
    unfold maximumProfileURLBytes
    omega
  · have hscheme : lit "https" ≠ [] := by decide
    have hstring : URL.string { scheme := lit "https", host := url.host, path := lit "/" } =
        lit "https" ++ lit "://" ++ (escape .host url.host ++ lit "/") :=
      string_authority hscheme h.host rfl rfl hslash rfl
    rw [hstring, hescape]
    rfl
  · have hpath : profilePath { scheme := lit "https", host := url.host, path := lit "/" } =
        lit "/" := rfl
    rw [hpath]
    decide

theorem IsLink.again (htrim : trimSpace value = value) (hpercent : 0x25 ∉ value) :
  normalizeProfileURL U (lit "https://" ++ url.host ++ profilePath url) =
    some (lit "https://" ++ url.host ++ profilePath url)
  := by
  have hne : ∀ s, lit "https://" ++ s ≠ [] :=
    fun s => append_ne_nil_of_left_ne_nil (by decide) s
  rw [normalizeProfileURL_eq_some]
  right
  by_cases hpath : url.escapedPath = []
  · have htext : lit "https://" ++ url.host ++ profilePath url =
        lit "https://" ++ (url.host ++ lit "/") := by
      rw [profilePath, if_pos hpath, append_assoc]
    have hself : trimSpace (lit "https://" ++ (url.host ++ lit "/")) =
        lit "https://" ++ (url.host ++ lit "/") := by
      apply trimSpace_https (b := 0x2F) (by decide) rfl
      rw [List.getLast?_append]
      rfl
    rw [htext, hself]
    refine ⟨hne _, _, h.slash hpercent hpath, ?_⟩
    rfl
  · have htext : lit "https://" ++ url.host ++ profilePath url = value := by
      rw [profilePath, if_neg hpath, append_assoc, ← h.text_eq hpercent]
    rw [htext, htrim]
    refine ⟨?_, url, h, htext.symm⟩
    rw [h.text]
    exact hne _

end Link

theorem length_escape (mode : Encoding) (s : GoString) :
  (escape mode s).length = s.length + 2 * s.countP (shouldEscape mode)
  := by
  induction s with
  | nil => rfl
  | cons c s ih =>
    rw [escape, flatMap_cons, length_append]
    change (escapeByte mode c).length + (escape mode s).length = _
    rw [ih, escapeByte, countP_cons, length_cons]
    split_ifs <;> simp <;> omega

/-- A link that is its own normal form has no percent sign: the host would be longer in the text
that is parsed than in the text that is made of it. -/
theorem percent_not_mem_of_again (h : normalizeProfileURL U link = some link) :
  0x25 ∉ link
  := by
  obtain ⟨-, rfl⟩ | ⟨-, url, hlink, htext⟩ := normalizeProfileURL_eq_some.mp h
  · simp
  · intro hmem
    have hhost : 0x25 ∈ url.host := by
      have hscheme : 0x25 ∉ lit "https://" := by decide
      rw [htext, mem_append, mem_append] at hmem
      simpa [hscheme, hlink.percent_not_mem.1] using hmem
    have hcount : 0 < url.host.countP (shouldEscape .host) :=
      countP_pos_iff.mpr ⟨0x25, hhost, by decide⟩
    have hpath : (profilePath url).length ≤ url.escapedPath.length + 1 := by
      unfold profilePath
      split_ifs
      · exact Nat.le_add_left 1 _
      · omega
    have htrim : (trimSpace link).length ≤ link.length := by
      obtain ⟨u, v, heq, -⟩ := trimSpace_spec link
      have hlength := congrArg List.length heq
      simp only [length_append] at hlength
      omega
    rw [hlink.text, htext] at htrim
    simp only [length_append, length_escape] at htrim
    omega

/-- **A link is its own normal form exactly if it is made of one without a percent sign.** -/
theorem normalizeProfileURL_again_iff (h : normalizeProfileURL U value = some link) :
  normalizeProfileURL U link = some link ↔ 0x25 ∉ value
  := by
  have hmem : 0x25 ∈ trimSpace value ↔ 0x25 ∈ value := mem_trimSpace (by decide) rfl value
  obtain ⟨hnil, rfl⟩ | ⟨-, url, hlink, rfl⟩ := normalizeProfileURL_eq_some.mp h
  · rw [hnil] at hmem
    exact ⟨fun _ => by simpa using hmem, fun _ => rfl⟩
  · rw [← hmem]
    constructor
    · intro hagain hpercent
      apply percent_not_mem_of_again hagain
      rw [mem_append, mem_append]
      exact .inl (.inr (hlink.percent_iff.mp hpercent))
    · exact hlink.again (trimSpace_trimSpace value)

/-! ### Profiles -/

/-- One change of a list that keeps its normal form: its items in another order, an item repeated
within the limit, or white space added around an item. -/
inductive ListEdit : List GoString → List GoString → Prop
  | perm {values values' : List GoString} : values.Perm values' → ListEdit values values'
  | again {value : GoString} {values : List GoString} :
      value ∈ values → values.length < maximumProfileListItems → ListEdit values (value :: values)
  | pad {value value' : GoString} (before after : List GoString) :
      Padded value value' → ListEdit (before ++ value :: after) (before ++ value' :: after)

/-- A profile changed in white space, and in the order and the repetition of list items. -/
structure ProfileEdit (profile profile' : RelayProfile) : Prop where
  participationMode : Padded profile.participationMode profile'.participationMode
  availability : Padded profile.availability profile'.availability
  relayType : Padded profile.relayType profile'.relayType
  languages : Relation.ReflTransGen ListEdit profile.languages profile'.languages
  countries : Relation.ReflTransGen ListEdit profile.countries profile'.countries
  regions : Relation.ReflTransGen ListEdit profile.regions profile'.regions
  topics : Relation.ReflTransGen ListEdit profile.topics profile'.topics
  contactFediverse : Padded profile.contactFediverse profile'.contactFediverse
  contactEmail : Padded profile.contactEmail profile'.contactEmail
  contactURL : Padded profile.contactURL profile'.contactURL
  participationURL : Padded profile.participationURL profile'.participationURL
  notes : Padded profile.notes profile'.notes

theorem normalizeProfileList_edit {values values' : List GoString} (h : ListEdit values values') :
  normalizeProfileList values' = normalizeProfileList values
  := by
  cases h with
  | perm hperm =>
    rw [normalizeProfileList_congr (by rw [hperm.length_eq]) (by rw [hperm.length_eq])]
    intro item
    rw [(hperm.map normalizeProfileItem).mem_iff]
  | @again value _ hmem hlimit =>
    have hpos := length_pos_of_mem hmem
    apply normalizeProfileList_congr
    · rw [length_cons]
      omega
    · rw [length_cons]
      omega
    · intro item
      rw [map_cons, mem_cons, or_iff_right_of_imp]
      rintro rfl
      exact mem_map_of_mem hmem
  | pad before after hpad =>
    apply normalizeProfileList_congr
    · simp
    · simp
    · intro item
      rw [map_append, map_append, map_cons, map_cons, hpad.item]

theorem normalizeProfileList_edits {values values' : List GoString}
    (h : Relation.ReflTransGen ListEdit values values') :
  normalizeProfileList values' = normalizeProfileList values
  := by
  induction h with
  | refl => rfl
  | tail _ hedit ih => rw [normalizeProfileList_edit hedit, ih]

section Profiles

variable (U : CaseTable) (parseAddress : GoString → Option GoString)

/-- The two traversals agree. -/
theorem normalizeRelayProfile_eq_sanitize (profile : RelayProfile) :
  normalizeRelayProfile U parseAddress profile =
    if (sanitizeRelayProfile U parseAddress profile).2 = [] then
      some (sanitizeRelayProfile U parseAddress profile).1
    else none
  := by
  split_ifs with hwarnings
  · simp only [sanitizeRelayProfile, setText, setList, append_eq_nil_iff, keep_warnings_eq_nil,
      and_assoc] at hwarnings
    obtain ⟨⟨_, h₁⟩, ⟨_, h₂⟩, ⟨_, h₃⟩, ⟨_, h₄⟩, ⟨_, h₅⟩, ⟨_, h₆⟩, ⟨_, h₇⟩, ⟨_, h₈⟩, ⟨_, h₉⟩, ⟨_, h₁₀⟩,
      ⟨_, h₁₁⟩, ⟨_, h₁₂⟩⟩ := hwarnings
    simp only [normalizeRelayProfile, sanitizeRelayProfile, setText, setList, h₁, h₂, h₃, h₄, h₅, h₆,
      h₇, h₈, h₉, h₁₀, h₁₁, h₁₂]
    rfl
  · cases hprofile : normalizeRelayProfile U parseAddress profile with
    | none => rfl
    | some normalized =>
      unfold normalizeRelayProfile at hprofile
      simp only [bind_eq_bind, bind_eq_some_iff] at hprofile
      obtain ⟨_, h₁, _, h₂, _, h₃, _, h₄, _, h₅, _, h₆, _, h₇, _, h₈, _, h₉, _, h₁₀, _, h₁₁, _, h₁₂,
        -⟩ := hprofile
      refine absurd ?_ hwarnings
      simp only [sanitizeRelayProfile, setText, setList, append_eq_nil_iff,
        keep_warnings_eq_nil, and_assoc]
      exact ⟨⟨_, h₁⟩, ⟨_, h₂⟩, ⟨_, h₃⟩, ⟨_, h₄⟩, ⟨_, h₅⟩, ⟨_, h₆⟩, ⟨_, h₇⟩, ⟨_, h₈⟩, ⟨_, h₉⟩, ⟨_, h₁₀⟩,
        ⟨_, h₁₁⟩, ⟨_, h₁₂⟩⟩

theorem profile_edit {profile profile' : RelayProfile} (h : ProfileEdit profile profile') :
  normalizeRelayProfile U parseAddress profile' = normalizeRelayProfile U parseAddress profile ∧
    sanitizeRelayProfile U parseAddress profile' = sanitizeRelayProfile U parseAddress profile
  := by
  simp only [normalizeRelayProfile, sanitizeRelayProfile, setText, setList,
    h.participationMode.participationMode, h.availability.text, h.relayType.text,
    normalizeProfileList_edits h.languages, normalizeProfileList_edits h.countries,
    normalizeProfileList_edits h.regions, normalizeProfileList_edits h.topics,
    h.contactFediverse.text, h.contactEmail.email, h.contactURL.link, h.participationURL.link,
    h.notes.text, and_self]

/-- A profile is its own normal form if each of its fields is. -/
theorem normalizeRelayProfile_eq_self_iff {profile : RelayProfile}
    (hmode : normalizeParticipationMode profile.participationMode = some profile.participationMode)
    (havailability : normalizeProfileText maximumProfileScalarBytes profile.availability =
      some profile.availability)
    (htype : normalizeProfileText maximumProfileScalarBytes profile.relayType =
      some profile.relayType)
    (hlanguages : normalizeProfileList profile.languages = some profile.languages)
    (hcountries : normalizeProfileList profile.countries = some profile.countries)
    (hregions : normalizeProfileList profile.regions = some profile.regions)
    (htopics : normalizeProfileList profile.topics = some profile.topics)
    (hfediverse : normalizeProfileText maximumProfileFediverseIDBytes profile.contactFediverse =
      some profile.contactFediverse)
    (hemail : normalizeProfileEmail parseAddress profile.contactEmail = some profile.contactEmail)
    (hnotes : normalizeProfileText maximumProfileNoteBytes profile.notes = some profile.notes) :
  normalizeRelayProfile U parseAddress profile = some profile ↔
    normalizeProfileURL U profile.contactURL = some profile.contactURL ∧
      normalizeProfileURL U profile.participationURL = some profile.participationURL
  := by
  simp only [normalizeRelayProfile, hmode, havailability, htype, hlanguages, hcountries, hregions,
    htopics, hfediverse, hemail, hnotes, Option.bind_eq_bind, Option.bind_some,
    Option.bind_eq_some_iff, Option.pure_def, Option.some.injEq]
  constructor
  · rintro ⟨contact, hcontact, participation, hparticipation, heq⟩
    obtain rfl : contact = profile.contactURL := congrArg RelayProfile.contactURL heq
    obtain rfl : participation = profile.participationURL :=
      congrArg RelayProfile.participationURL heq
    exact ⟨hcontact, hparticipation⟩
  · rintro ⟨hcontact, hparticipation⟩
    exact ⟨_, hcontact, _, hparticipation, rfl⟩

/-- A link field that is accepted has no percent sign. -/
def LinkSettles (value : GoString) : Prop :=
  normalizeProfileURL U value ≠ none → 0x25 ∉ value

theorem linkSettles_iff (value field message : GoString) :
  normalizeProfileURL U (keep [] field message (normalizeProfileURL U value)).1 =
      some (keep [] field message (normalizeProfileURL U value)).1 ↔ LinkSettles U value
  := by
  unfold LinkSettles
  cases hlink : normalizeProfileURL U value with
  | none => exact ⟨fun _ hne => absurd rfl hne, fun _ => rfl⟩
  | some link =>
    rw [forall_prop_of_true (by simp)]
    exact normalizeProfileURL_again_iff hlink

theorem normalizeRelayProfile_sanitized_iff (profile : RelayProfile) :
  normalizeRelayProfile U parseAddress (sanitizeRelayProfile U parseAddress profile).1 =
      some (sanitizeRelayProfile U parseAddress profile).1 ↔
    LinkSettles U profile.contactURL ∧ LinkSettles U profile.participationURL
  := by
  rw [normalizeRelayProfile_eq_self_iff U parseAddress (settles_participationMode.keep _)
    ((settles_text _).keep _) ((settles_text _).keep _) (settles_list.keep _) (settles_list.keep _)
    (settles_list.keep _) (settles_list.keep _) ((settles_text _).keep _)
    ((settles_email parseAddress).keep _) ((settles_text _).keep _)]
  exact and_congr (linkSettles_iff U _ _ _) (linkSettles_iff U _ _ _)

/-- What is asked of the two traversals at a profile: the sanitized profile is its own normal form,
the profile has a normal form exactly if there is no warning, which is then the sanitized profile,
and neither depends on white space or on the order and the repetition of list items. -/
structure ProfileLaws (sha256 : GoString → GoString) (profile : RelayProfile) : Prop where
  sanitized : normalizeRelayProfile U parseAddress (sanitizeRelayProfile U parseAddress profile).1 =
    some (sanitizeRelayProfile U parseAddress profile).1
  accepted : normalizeRelayProfile U parseAddress profile ≠ none ↔
    (sanitizeRelayProfile U parseAddress profile).2 = []
  same : ∀ normalized, normalizeRelayProfile U parseAddress profile = some normalized →
    normalized = (sanitizeRelayProfile U parseAddress profile).1
  edited : ∀ profile', ProfileEdit profile profile' →
    normalizeRelayProfile U parseAddress profile' = normalizeRelayProfile U parseAddress profile ∧
    sanitizeRelayProfile U parseAddress profile' = sanitizeRelayProfile U parseAddress profile ∧
    clientDigest U parseAddress sha256 profile' = clientDigest U parseAddress sha256 profile

/-- **The laws hold at a profile exactly if no link of it is accepted with a percent sign.** -/
theorem profileLaws_iff (sha256 : GoString → GoString) (profile : RelayProfile) :
  ProfileLaws U parseAddress sha256 profile ↔
    LinkSettles U profile.contactURL ∧ LinkSettles U profile.participationURL
  := by
  rw [← normalizeRelayProfile_sanitized_iff U parseAddress]
  refine ⟨ProfileLaws.sanitized, fun hsanitized => ⟨hsanitized, ?_, ?_, ?_⟩⟩
  · rw [normalizeRelayProfile_eq_sanitize]
    simp
  · intro normalized hnormalized
    rw [normalizeRelayProfile_eq_sanitize] at hnormalized
    split_ifs at hnormalized
    exact (Option.some.inj hnormalized).symm
  · intro profile' hedit
    obtain ⟨hnormalize, hsanitize⟩ := profile_edit U parseAddress hedit
    refine ⟨hnormalize, hsanitize, ?_⟩
    rw [clientDigest, clientDigest, hnormalize]

end Profiles

/-- A link to an IPv6 address with a zone, whose percent sign is escaped twice. -/
def zoneProfile : RelayProfile := { contactURL := lit "https://[fe80::1%2525a]/" }

/-- The link is accepted without a warning and unescaped, and is refused then. -/
theorem zoneProfile_not_settled :
  (sanitizeRelayProfile .identity (fun _ => none) zoneProfile).1.contactURL =
      lit "https://[fe80::1%25a]/" ∧
    (sanitizeRelayProfile .identity (fun _ => none) zoneProfile).2 = [] ∧
    normalizeRelayProfile .identity (fun _ => none)
      (sanitizeRelayProfile .identity (fun _ => none) zoneProfile).1 = none ∧
    ¬ ProfileLaws .identity (fun _ => none) id zoneProfile
  := by
  have hrefused : normalizeRelayProfile .identity (fun _ => none)
      (sanitizeRelayProfile .identity (fun _ => none) zoneProfile).1 = none := by decide +kernel
  refine ⟨by decide +kernel, by decide +kernel, hrefused, fun hlaws => ?_⟩
  have hsanitized := hlaws.sanitized
  cases hsanitized

end DirectoryClient
