import ActivityRelay.NetUrl.Host

/-!
# The bytes of a host

Which bytes the host of a parsed URL can have. Most punctuation cannot be escaped in a host, so
that it is there only where it stood in the text; in particular there is no slash in a host
(`slash_not_mem_host`).
-/

namespace NetUrl

open GoString

/-- A byte that a host can have: one that may stand there, or one that may be escaped in a host or
in a zone. -/
def isHostByte (b : UInt8) : Bool :=
  runeSelf ≤ b.toNat || !shouldEscape .host b || b == 0x25 || b == 0x20

theorem unescape_mem {mode : Encoding} {s t : GoString} (h : unescape mode s = some t) :
  ∀ b ∈ t, escapeAllowed mode b = true ∨ literalAllowed mode b = true
  := by
  apply unescape_induction
    (P := fun _ t => ∀ b ∈ t, escapeAllowed mode b = true ∨ literalAllowed mode b = true) _ _ _ h
  · simp
  · intro a b m n s t _ _ hallowed ih
    rw [List.forall_mem_cons]
    exact ⟨.inl hallowed, ih⟩
  · intro c s t _ hallowed ih
    rw [List.forall_mem_cons]
    exact ⟨.inr hallowed, ih⟩

theorem shouldEscape_zone (b : UInt8) :
  shouldEscape .zone b = shouldEscape .host b
  := by
  rfl

theorem isHostByte_of_unescape {mode : Encoding} (hmode : mode = .host ∨ mode = .zone)
    {s t : GoString} (h : unescape mode s = some t) :
  ∀ b ∈ t, isHostByte b = true
  := by
  intro b hb
  have hallowed := unescape_mem h b hb
  unfold isHostByte
  obtain rfl | rfl := hmode
  · simp only [escapeAllowed, literalAllowed, Bool.or_eq_true] at hallowed ⊢
    tauto
  · simp only [escapeAllowed, literalAllowed, shouldEscape_zone, Bool.or_eq_true] at hallowed ⊢
    tauto

theorem isHostByte_of_parseHost {text host : GoString} (h : parseHost text = some host) :
  ∀ b ∈ host, isHostByte b = true
  := by
  obtain h | ⟨_, _, _, host₁, host₂, host₃, -, -, h₁, h₂, h₃, rfl⟩ := parseHost_cases h
  · exact isHostByte_of_unescape (.inl rfl) h
  · simp only [List.forall_mem_append]
    exact ⟨⟨isHostByte_of_unescape (.inl rfl) h₁, isHostByte_of_unescape (.inr rfl) h₂⟩,
      isHostByte_of_unescape (.inl rfl) h₃⟩

theorem parseHost_of_parseAuthority {authority host : GoString} {user : Option Userinfo}
    (h : parseAuthority authority = some (user, host)) :
  ∃ text, parseHost text = some host
  := by
  unfold parseAuthority at h
  split at h
  · obtain ⟨host', hhost, heq⟩ := Option.map_eq_some_iff.mp h
    obtain ⟨-, rfl⟩ := Prod.mk.inj heq
    exact ⟨_, hhost⟩
  · obtain ⟨host', hhost, h⟩ := Option.bind_eq_some_iff.mp h
    obtain ⟨user', -, heq⟩ := Option.map_eq_some_iff.mp h
    obtain ⟨-, rfl⟩ := Prod.mk.inj heq
    exact ⟨_, hhost⟩

variable {rawURL : GoString} {url : URL}

section

variable (h : parse rawURL = some url)
include h

/-- The URL is read from the text before the fragment. -/
theorem parse_parseURL :
  ∃ text url₀, parseURL false text = some url₀ ∧ url₀.host = url.host
  := by
  obtain ⟨url₀, hparse, h⟩ := Option.bind_eq_some_iff.mp h
  refine ⟨_, url₀, hparse, ?_⟩
  split_ifs at h
  · cases h
    rfl
  · obtain ⟨fragment, -, rfl⟩ := Option.map_eq_some_iff.mp h
    rfl

/-- The host of a parsed URL is parsed from some part of its text. -/
theorem parseHost_of_parse (hne : url.host ≠ []) :
  ∃ text, parseHost text = some url.host
  := by
  obtain ⟨text, url₀, hparse, hhost⟩ := parse_parseURL h
  rw [← hhost] at hne ⊢
  obtain ⟨scheme, rest, query, url₁, -, -, -, -, hhost₁, -, -, hrest⟩ :=
    parseURL_setHierarchy hparse hne
  obtain ⟨authority, after, -, -, -, hauthority, -, -, -⟩ := setHierarchy_spec hrest hhost₁ hne
  exact parseHost_of_parseAuthority hauthority

/-- The bytes of the host of a parsed URL. -/
theorem isHostByte_of_parse :
  ∀ b ∈ url.host, isHostByte b = true
  := by
  by_cases hne : url.host = []
  · rw [hne]
    intro b hb
    cases hb
  · obtain ⟨text, htext⟩ := parseHost_of_parse h hne
    exact isHostByte_of_parseHost htext

theorem slash_not_mem_host :
  0x2F ∉ url.host
  := by
  intro hmem
  exact absurd (isHostByte_of_parse h 0x2F hmem) (by decide)

end

theorem withoutPort_sublist (host : GoString) :
  (withoutPort host).Sublist host
  := by
  unfold withoutPort
  rcases cutLast_cases 0x3A host with ⟨-, hcut⟩ | ⟨u, v, -, rfl, hcut⟩
  · rw [hcut]
  · rw [hcut]
    dsimp only
    split
    · apply List.sublist_append_left
    · apply List.Sublist.refl

theorem withoutBrackets_sublist (host : GoString) :
  (withoutBrackets host).Sublist host
  := by
  unfold withoutBrackets
  split
  · exact (List.dropLast_sublist _).trans (List.drop_sublist _ _)
  · apply List.Sublist.refl

/-- The name of a host is part of the host. -/
theorem hostname_sublist (url : URL) :
  url.hostname.Sublist url.host
  := by
  exact (withoutBrackets_sublist _).trans (withoutPort_sublist _)

end NetUrl
