import ActivityRelay.HttpSignature.AcceptSignature

/-!
# Signing of fetches

The signature of a GET request in one of the two profiles. A signed request carries one signature
grammar, and it is the libraries' signature of the very request without it (`SignedAlone`). The
libraries and the private key are parameters.
-/

namespace HttpSignature

open GoString HttpMessage NetUrl

/-- A GET request that is to be sent. -/
structure Outgoing where
  url : URL
  host : GoString
  header : Header

/-- The libraries of the signer, with its private key: `SignRequest` of the legacy one over the
request target, `Host` and `Date`, with the value that it adds as `Signature`; `Sign` and `Include`
of the RFC 9421 one, with the values of `Signature-Input` and `Signature`; and the parser of
structured fields. -/
structure SigningLibrary where
  signRequest : (keyID : GoString) → Outgoing → Option GoString
  signMessage : (keyID : GoString) → Outgoing → Option (GoString × GoString)
  unmarshalDictionary : List GoString → Option (List (GoString × Member))

/-- The errors of the signing functions. -/
inductive SignError
  | noURLHost
  | library
  | profile (e : ProfileError)
  deriving DecidableEq, Repr

/-! ### Requests -/

variable (request : Outgoing)

def clearSignatureFields : Outgoing :=
  { request with
    header := ((((request.header.del (lit "Date")).del (lit "Digest")).del
      (lit "Content-Digest")).del (lit "Signature-Input")).del (lit "Signature") }

/-- The request without a fragment. -/
def Outgoing.withoutFragment : Outgoing :=
  { request with url := { request.url with fragment := [], rawFragment := [] } }

/-- The request with the host of its URL and with a date, where `date` is the time of the clock. -/
def Outgoing.addressed (date : GoString) : Outgoing :=
  let header := request.header.set (lit "Host") request.url.host
  { request with
    host := request.url.host
    header := if header.get (lit "Date") = [] then header.set (lit "Date") date else header }

/-- The request without a signature. -/
def Outgoing.unsigned : Outgoing :=
  { request with
    header := (request.header.del (lit "Signature")).del (lit "Signature-Input") }

/-! ### The signers -/

/-- The string after `skip` bytes, with every `old` replaced by `new`. -/
def replaceFrom (old new : GoString) : (skip : ℕ) → GoString → GoString
  | _, [] => []
  | skip + 1, _ :: s => replaceFrom old new skip s
  | 0, b :: s =>
      if old.isPrefixOf (b :: s) then new ++ replaceFrom old new (old.length - 1) s
      else b :: replaceFrom old new 0 s

/-- The algorithm token that some implementations reject is replaced. -/
def replaceHS2019 (signature : GoString) : GoString :=
  replaceFrom (lit "algorithm=\"hs2019\"") (lit "algorithm=\"rsa-sha256\"") 0 signature

example : replaceHS2019 (lit "keyId=\"k\",algorithm=\"hs2019\",signature=\"s\"") =
    lit "keyId=\"k\",algorithm=\"rsa-sha256\",signature=\"s\"" := by
  decide +kernel

variable (lib : SigningLibrary) (keyID : GoString)

/-- `sign` for a request without a body. -/
def sign (date : GoString) (request : Outgoing) : Except SignError Outgoing :=
  if request.url.host = [] then .error .noURLHost
  else
    let request := request.addressed date
    match lib.signRequest keyID request with
    | none => .error .library
    | some value =>
        let header := request.header.add (lit "Signature") value
        .ok { request with
          header := header.set (lit "Signature") (replaceHS2019 (header.get (lit "Signature"))) }

/-- `signRFC9421` for a request without a body. -/
def signRFC9421 (date : GoString) (request : Outgoing) : Except SignError Outgoing :=
  if request.url.host = [] then .error .noURLHost
  else
    let request := request.withoutFragment.addressed date
    let request := { request with
      header := (((request.header.del (lit "Signature")).del (lit "Signature-Input")).del
        (lit "Digest")).del (lit "Content-Digest") }
    match lib.signMessage keyID request with
    | none => .error .library
    | some (input, signature) =>
        .ok { request with
          header := (request.header.set (lit "Signature-Input") input).set (lit "Signature")
            signature }

def signGETWithProfile (date : GoString) (request : Outgoing) :
    Profile → Except SignError Outgoing
  | .legacy => sign lib keyID date request
  | .rfc9421 => signRFC9421 lib keyID date request
  | .dual => .error (.profile .dualProfileRequiresDeliveryPolicy)

/-! ### What is signed -/

/-- The request carries exactly one signature grammar, that of the profile, and the signature is the
one of this request, which is addressed to the host of its URL. -/
def SignedAlone (request : Outgoing) : Profile → Prop
  | .legacy =>
      request.host = request.url.host ∧ request.header (lit "Signature-Input") = [] ∧
        ∃ value, lib.signRequest keyID request.unsigned = some value ∧
          request.header (lit "Signature") = [replaceHS2019 value]
  | .rfc9421 =>
      request.host = request.url.host ∧
        ∃ input signature, lib.signMessage keyID request.unsigned = some (input, signature) ∧
          request.header (lit "Signature-Input") = [input] ∧
          request.header (lit "Signature") = [signature]
  | .dual => False

variable {lib keyID} {date : GoString}

/-- Nothing is left of the signature of another request. -/
theorem clearSignatureFields_header (request : Outgoing) :
  (clearSignatureFields request).header (lit "Signature") = [] ∧
    (clearSignatureFields request).header (lit "Signature-Input") = []
  := by
  dsimp only [clearSignatureFields]
  constructor
  · apply Header.del_self
  · rw [Header.del_of_ne _ (by decide), Header.del_self]

/-- Addressing a request does not touch its signature. -/
theorem Outgoing.addressed_header (request : Outgoing) (date : GoString) {name : GoString}
    (hhost : name ≠ lit "Host") (hdate : name ≠ lit "Date") :
  (request.addressed date).header name = request.header name
  := by
  simp only [Outgoing.addressed]
  split
  · rw [Header.set_of_ne _ _ hdate, Header.set_of_ne _ _ hhost]
  · rw [Header.set_of_ne _ _ hhost]

theorem Header.del_eq_self {h : Header} {name : GoString} (hname : h name = []) :
  h.del name = h
  := by
  rw [Header.del, ← hname, Function.update_eq_self]

theorem sign_signedAlone {request signed : Outgoing}
    (hsignature : request.header (lit "Signature") = [])
    (hinput : request.header (lit "Signature-Input") = [])
    (h : sign lib keyID date request = .ok signed) :
  SignedAlone lib keyID signed .legacy ∧ signed.withoutFragment.url = request.withoutFragment.url
  := by
  rw [← request.addressed_header date (by decide) (by decide)] at hsignature hinput
  simp only [sign] at h
  split at h
  · cases h
  · split at h
    · cases h
    · rename_i value hvalue
      cases h
      refine ⟨⟨rfl, ?_, value, ?_, ?_⟩, rfl⟩
      · dsimp only
        rw [Header.set_of_ne _ _ (by decide), Header.add, Function.update_of_ne (by decide), hinput]
      · rw [← hvalue]
        dsimp only [Outgoing.unsigned, Header.add]
        rw [Header.set, Function.update_idem, ← Header.set, Header.del_set _ _ hsignature,
          Header.del_eq_self hinput]
      · dsimp only
        rw [Header.set_self, Header.get, Header.add, Function.update_self, hsignature]
        rfl

theorem signRFC9421_signedAlone {request signed : Outgoing}
    (h : signRFC9421 lib keyID date request = .ok signed) :
  SignedAlone lib keyID signed .rfc9421 ∧ signed.withoutFragment.url = request.withoutFragment.url
  := by
  simp only [signRFC9421] at h
  split at h
  · cases h
  · split at h
    · cases h
    · rename_i input signature hvalue
      cases h
      refine ⟨⟨rfl, input, signature, ?_, ?_, ?_⟩, rfl⟩
      · rw [← hvalue]
        dsimp only [Outgoing.unsigned]
        rw [Header.del_set, Header.del_set]
        · rw [Header.del_of_ne _ (by decide), Header.del_of_ne _ (by decide), Header.del_self]
        · rw [Header.set_of_ne _ _ (by decide), Header.del_of_ne _ (by decide),
            Header.del_of_ne _ (by decide), Header.del_of_ne _ (by decide), Header.del_self]
      · dsimp only
        rw [Header.set_of_ne _ _ (by decide), Header.set_self]
      · dsimp only
        rw [Header.set_self]

/-- A request that is signed when its signature fields have been cleared. -/
theorem signGETWithProfile_signedAlone {request signed : Outgoing} {profile : Profile}
    (h : signGETWithProfile lib keyID date (clearSignatureFields request) profile = .ok signed) :
  SignedAlone lib keyID signed profile ∧ signed.withoutFragment.url = request.withoutFragment.url
  := by
  have hurl : (clearSignatureFields request).withoutFragment.url = request.withoutFragment.url := rfl
  obtain ⟨hsignature, hinput⟩ := clearSignatureFields_header request
  rw [← hurl]
  cases profile with
  | legacy => exact sign_signedAlone hsignature hinput h
  | rfc9421 => exact signRFC9421_signedAlone h
  | dual => cases h

end HttpSignature
