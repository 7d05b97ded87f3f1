import ActivityRelay.GoString.Text

/-!
# Signature profiles

The HTTP-signature profiles and the two parsers of their names. `dual` is a policy for
choosing a profile and never the profile of a request, so the parser of wire profiles
rejects it.
-/

namespace HttpSignature

open GoString

/-- An HTTP-signature policy. -/
inductive Profile
  | legacy
  | dual
  | rfc9421
  deriving DecidableEq, Repr

/-- The errors of the two parsers. -/
inductive ProfileError
  | unsupported (name : GoString)
  | dualProfileRequiresDeliveryPolicy
  deriving DecidableEq, Repr

/-- The name of a profile, as configuration files and queued tasks hold it. -/
def Profile.string : Profile → GoString
  | legacy => lit "legacy"
  | dual => lit "dual"
  | rfc9421 => lit "rfc9421"

/-- A supported profile name. -/
def Profile.validate (name : GoString) : Except ProfileError Profile :=
  if name = Profile.legacy.string then .ok .legacy
  else if name = Profile.dual.string then .ok .dual
  else if name = Profile.rfc9421.string then .ok .rfc9421
  else .error (.unsupported name)

variable (U : CaseTable)

/-- The profile a name stands for; the empty name is the legacy profile. -/
def parseProfile (value : GoString) : Except ProfileError Profile :=
  let name := toLower U (trimSpace value)
  if name = [] then .ok .legacy else Profile.validate name

/-- The profile of a single request a name stands for. -/
def parseWireProfile (value : GoString) : Except ProfileError Profile :=
  match parseProfile U value with
  | .error e => .error e
  | .ok .dual => .error .dualProfileRequiresDeliveryPolicy
  | .ok profile => .ok profile

/-- The name of a profile is a wire profile exactly if the profile is not `dual`. -/
theorem parseWireProfile_string {p : Profile} (h : p ≠ .dual) :
  parseWireProfile U p.string = .ok p
  := by
  cases p with
  | dual => exact absurd rfl h
  | legacy | rfc9421 => rfl

end HttpSignature
