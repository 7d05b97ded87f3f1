import ActivityRelay.HttpSignature.Verify
import ActivityRelay.NetUrl.Host

/-!
# The identity of the signing actor

`BindActivityActor` compares the owner of the key and the actor of the key document with the
actor of an activity, as URLs in a canonical form.
-/

namespace HttpSignature

open GoString NetUrl

/-- The errors of `canonicalRFC9421ActorIdentity`. -/
inductive IdentityError
  | parse
  | notAbsolute
  | userInformation
  | fragment
  deriving DecidableEq, Repr

/-- The errors of `BindActivityActor`. -/
inductive BindError
  | activityActor (error : IdentityError)
  | keyOwner (error : IdentityError)
  | keyOwnerMismatch
  | keyActor (error : IdentityError)
  | keyActorMismatch
  deriving DecidableEq, Repr

variable (U : CaseTable)

def canonicalRFC9421ActorIdentity (value : GoString) : Except IdentityError GoString :=
  match parseRequestURI (trimSpace value) with
  | none => .error .parse
  | some url =>
      if url.scheme = [] ∨ url.host = [] then .error .notAbsolute
      else if url.user ≠ none then .error .userInformation
      else if url.fragment ≠ [] then .error .fragment
      else .ok (URL.string { url with scheme := toLower U url.scheme, host := toLower U url.host })

def RFC9421Verification.bindActivityActor (v : RFC9421Verification) (activityActor : GoString) :
    Except BindError Unit :=
  match canonicalRFC9421ActorIdentity U activityActor with
  | .error e => .error (.activityActor e)
  | .ok activityIdentity =>
      match canonicalRFC9421ActorIdentity U v.keyOwner with
      | .error e => .error (.keyOwner e)
      | .ok ownerIdentity =>
          if ownerIdentity ≠ activityIdentity then .error .keyOwnerMismatch
          else if trimSpace v.keyActor = [] then .ok ()
          else
            match canonicalRFC9421ActorIdentity U v.keyActor with
            | .error e => .error (.keyActor e)
            | .ok keyActorIdentity =>
                if keyActorIdentity ≠ activityIdentity then .error .keyActorMismatch else .ok ()

variable {U}

/-- An activity is bound to the owner of the key. -/
theorem canonical_eq_of_bind {v : RFC9421Verification} {activityActor : GoString}
    (h : v.bindActivityActor U activityActor = .ok ()) :
  ∃ identity, canonicalRFC9421ActorIdentity U activityActor = .ok identity ∧
    canonicalRFC9421ActorIdentity U v.keyOwner = .ok identity
  := by
  unfold RFC9421Verification.bindActivityActor at h
  split at h
  · cases h
  · rename_i activityIdentity hactivity
    split at h
    · cases h
    · rename_i ownerIdentity howner
      by_cases hne : ownerIdentity ≠ activityIdentity
      · rw [if_pos hne] at h
        cases h
      · rw [not_not] at hne
        subst hne
        exact ⟨_, hactivity, howner⟩

/-- The identity of an actor is the string of an absolute URL in lower case. -/
theorem canonical_ok {value identity : GoString}
    (h : canonicalRFC9421ActorIdentity U value = .ok identity) :
  ∃ url, parseRequestURI (trimSpace value) = some url ∧ Absolute url ∧
    identity = URL.string { url with scheme := toLower U url.scheme, host := toLower U url.host }
  := by
  unfold canonicalRFC9421ActorIdentity at h
  split at h
  · cases h
  · rename_i url hparse
    split_ifs at h with hmissing huser
    rw [not_or] at hmissing
    exact ⟨url, hparse, absolute_of_parseURL hparse hmissing.1 hmissing.2 (not_not.mp huser),
      (Except.ok.inj h).symm⟩

/-- Actors with the same identity have the same host, up to letter case. -/
theorem host_eq_of_canonical_eq {value value' identity : GoString} {url url' : URL}
    (h : canonicalRFC9421ActorIdentity U value = .ok identity)
    (h' : canonicalRFC9421ActorIdentity U value' = .ok identity)
    (hurl : parseRequestURI (trimSpace value) = some url)
    (hurl' : parseRequestURI (trimSpace value') = some url') :
  toLower U url.host = toLower U url'.host
  := by
  obtain ⟨u, hu, habsolute, rfl⟩ := canonical_ok h
  obtain ⟨u', hu', habsolute', hstring⟩ := canonical_ok h'
  cases hurl.symm.trans hu
  cases hurl'.symm.trans hu'
  exact host_eq_of_string_eq hstring habsolute.toLower habsolute'.toLower

end HttpSignature
