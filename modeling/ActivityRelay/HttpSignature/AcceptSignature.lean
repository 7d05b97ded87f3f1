import ActivityRelay.HttpMessage.Request
import ActivityRelay.HttpSignature.Destination

/-!
# Evidence in responses

What a response says of the signatures that its origin understands: an `Accept-Signature` field that
asks for exactly the RFC 9421 signature that the relay makes, and a challenge for the legacy
`Signature` scheme. The parser of structured fields is a parameter.
-/

namespace HttpSignature

open GoString HttpMessage

def rfc9421SignatureLabel : GoString := lit "activitypub"
def rfc9421RSAAlgorithm : GoString := lit "rsa-v1_5-sha256"

def rfc9421GETComponents : List GoString :=
  [lit "@method", lit "@authority", lit "@target-uri", lit "date"]

def expectedAcceptSignatureComponents : DestinationScope → List GoString
  | .fetch => rfc9421GETComponents
  | .delivery => rfc9421POSTComponents

/-! ### Accept-Signature -/

/-- The values of structured fields, as far as they are looked at. -/
inductive BareItem
  | boolean (b : Bool)
  | string (s : GoString)
  | other
  deriving DecidableEq, Repr

/-- The parameters of an item or an inner list, in order. -/
abbrev Params := List (GoString × BareItem)

/-- A member of a dictionary. -/
inductive Member
  | item
  | innerList (items : List (BareItem × Params)) (params : Params)

/-- A parameter that the relay can comply with. -/
def acceptableParameter (keyID : GoString) (parameter : GoString × BareItem) : Bool :=
  if parameter.1 = lit "created" then parameter.2 = .boolean true
  else if parameter.1 = lit "alg" then parameter.2 = .string rfc9421RSAAlgorithm
  else if parameter.1 = lit "keyid" then parameter.2 = .string keyID
  else if parameter.1 = lit "tag" then parameter.2 = .string rfc9421SignatureTag
  else false

def compatibleAcceptSignature
    (unmarshalDictionary : List GoString → Option (List (GoString × Member)))
    (values : List GoString) (scope : DestinationScope) (keyID : GoString) : Bool :=
  if values = [] ∨ trimSpace keyID = [] then false
  else
    match unmarshalDictionary values with
    | some [(name, .innerList items params)] =>
        name = rfc9421SignatureLabel &&
        items = (expectedAcceptSignatureComponents scope).map (fun c => (.string c, [])) &&
        params.all (acceptableParameter keyID)
    | _ => false

/-! ### Challenges -/

/-- The rest of a field value, cut at the commas outside of quoted strings. All characters that
matter are ASCII, so that the bytes may be looked at one by one. -/
def splitChallenges (quoted escaped : Bool) (current : GoString) : GoString → List GoString
  | [] => [current]
  | b :: s =>
      if escaped then splitChallenges quoted false (current ++ [b]) s
      else if quoted && b == 0x5C then splitChallenges quoted true (current ++ [b]) s
      else if b == 0x22 then splitChallenges (!quoted) false (current ++ [b]) s
      else if b == 0x2C && !quoted then current :: splitChallenges quoted false [] s
      else splitChallenges quoted false (current ++ [b]) s

def splitAuthenticationChallenges (value : GoString) : List GoString :=
  splitChallenges false false [] value

/-- The first of the `strings.Fields`, as runes; empty if there is none. -/
def firstField (s : GoString) : List ℕ :=
  ((decode s).dropWhile isSpaceRune).takeWhile (fun r => !isSpaceRune r)

/-- A rune that is equal to an ASCII letter under simple case folding. The long s and the Kelvin
sign are the only ones outside of ASCII. -/
def foldsTo (r : ℕ) (c : UInt8) : Bool :=
  let lower := (lowerByte c).toNat
  r == lower || r + 0x20 == lower && 0x61 ≤ lower && lower ≤ 0x7A ||
    r == 0x17F && lower == 0x73 || r == 0x212A && lower == 0x6B

/-- `strings.EqualFold` with a text of ASCII letters. -/
def equalFold : List ℕ → GoString → Bool
  | [], [] => true
  | r :: rs, c :: s => foldsTo r c && equalFold rs s
  | _, _ => false

/-- The first field of a challenge is the legacy scheme. -/
def isSignatureChallenge (challenge : GoString) : Bool :=
  equalFold (firstField (trimSpace challenge)) (lit "Signature")

def explicitLegacySignatureRejection (statusCode : ℤ) (header : Header) : Bool :=
  (statusCode = 401 || statusCode = 403) &&
    (header (lit "Www-Authenticate")).any (fun value =>
      (splitAuthenticationChallenges value).any isSignatureChallenge)

end HttpSignature
