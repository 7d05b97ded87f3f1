import ActivityRelay.HttpSignature.Destination
import ActivityRelay.NetUrl.HostBytes

/-!
# Origins of destinations

`NormalizeDestinationOrigin` makes an origin of the scheme, the host and the port of an address.
-/

namespace HttpSignature

open GoString NetUrl

/-! ### The parts of an origin -/

section Parts

variable (U : CaseTable) (url : URL)

/-- The host of an origin. -/
def originHost : GoString := toLower U (trimSuffix 0x2E url.hostname)

/-- The port of an origin, which is left out if it is that of the scheme. -/
def originPort : GoString :=
  if (toLower U url.scheme = lit "http" ∧ url.port = lit "80") ∨
      (toLower U url.scheme = lit "https" ∧ url.port = lit "443") then []
  else url.port

/-- The host and the port in the text of an origin. -/
def authorityText (host port : GoString) : GoString :=
  if port ≠ [] then joinHostPort host port
  else if 0x3A ∈ host then 0x5B :: host ++ [0x5D]
  else host

/-- An address that has an origin. -/
structure HasOrigin : Prop where
  scheme : toLower U url.scheme = lit "http" ∨ toLower U url.scheme = lit "https"
  user : url.user = none
  host : originHost U url ≠ []

variable {U url} {address origin : GoString}

theorem normalizeDestinationOrigin_eq_ok :
  normalizeDestinationOrigin U address = .ok origin ↔
    ∃ url, parse (trimSpace address) = some url ∧ HasOrigin U url ∧
      toLower U url.scheme ++ lit "://" ++ authorityText (originHost U url) (originPort U url) =
        origin
  := by
  unfold normalizeDestinationOrigin
  cases hparse : parse (trimSpace address) with
  | none => simp
  | some url =>
    simp only [Option.some.injEq, exists_eq_left']
    by_cases hscheme : toLower U url.scheme = lit "http" ∨ toLower U url.scheme = lit "https"
    · rw [if_neg (by tauto)]
      by_cases huser : url.user = none
      · rw [if_neg (not_not.mpr huser)]
        change (if originHost U url = [] then Except.error OriginError.noHost
          else Except.ok (toLower U url.scheme ++ lit "://" ++
            authorityText (originHost U url) (originPort U url))) = .ok origin ↔ _
        by_cases hhost : originHost U url = []
        · rw [if_pos hhost]
          constructor
          · rintro ⟨⟩
          · rintro ⟨h, -⟩
            exact absurd hhost h.host
        · rw [if_neg hhost, Except.ok.injEq]
          constructor
          · rintro rfl
            exact ⟨⟨hscheme, huser, hhost⟩, rfl⟩
          · rintro ⟨-, rfl⟩
            rfl
      · rw [if_pos huser]
        constructor
        · rintro ⟨⟩
        · rintro ⟨h, -⟩
          exact absurd h.user huser
    · rw [if_pos (by tauto)]
      constructor
      · rintro ⟨⟩
      · rintro ⟨h, -⟩
        exact absurd h.scheme hscheme

theorem HasOrigin.scheme_ne_nil (h : HasOrigin U url) :
  url.scheme ≠ []
  := by
  intro hnil
  obtain hscheme | hscheme := h.scheme
  · rw [hnil, toLower_nil] at hscheme
    cases hscheme
  · rw [hnil, toLower_nil] at hscheme
    cases hscheme

theorem HasOrigin.host_ne_nil (h : HasOrigin U url) :
  url.host ≠ []
  := by
  intro hnil
  have hsub := hostname_sublist url
  rw [hnil, List.sublist_nil] at hsub
  apply h.host
  rw [originHost, hsub]
  rfl

end Parts

end HttpSignature
