import ActivityRelay.Fallible.Result
import ActivityRelay.GoTime.Time
import ActivityRelay.HttpMessage.Request
import ActivityRelay.Interaction.Program

/-!
# The RFC 9421 verifier

`RFC9421Verifier.VerifyPOST` as a program that calls its surroundings: the clock, the resolver
of keys, and the store of nonces. The libraries for signature fields, structured fields and
RSA are given by a `SignatureLibrary`.

The nonce is reserved last, after every other check, with the arguments that have been
checked (`verifyPOST_follows`).
-/

namespace HttpSignature

open Fallible GoString GoTime HttpMessage NetUrl Interaction

/-! ### The verifier -/

/-- `time.Second` as a duration of 64 bits. -/
def secondDuration : Int64 := 1000000000

def defaultRFC9421MaximumAge : Int64 := 5 * 60 * secondDuration
def defaultRFC9421FutureSkew : Int64 := 30 * secondDuration
def defaultRFC9421ReplayTTL : Int64 := 10 * 60 * secondDuration
def maxRFC9421NonceBytes : ℕ := 256

/-- The options of a verifier, with zero for the default of a duration. Of the key resolver and
the nonce store it is told whether they are given. -/
structure RFC9421VerifierOptions where
  scheme : GoString
  authority : GoString
  keyResolver : Bool
  nonceStore : Bool
  maximumAge : Int64 := 0
  futureSkew : Int64 := 0
  replayTTL : Int64 := 0

/-- The reasons for which options are refused. -/
inductive OptionsError
  | scheme (scheme : GoString)
  | authority
  | keyResolver
  | nonceStore
  | maximumAge
  | futureSkew
  | replayTTL
  deriving DecidableEq, Repr

/-- A verifier. The sum of the two windows is one of 64 bits, as the check of the constructor
is. -/
structure RFC9421Verifier where
  scheme : GoString
  authority : GoString
  maximumAge : Int64
  futureSkew : Int64
  replayTTL : Int64
  scheme_supported : scheme = lit "http" ∨ scheme = lit "https"
  authority_ne_nil : authority ≠ []
  second_le_maximumAge : secondDuration ≤ maximumAge
  futureSkew_nonneg : 0 ≤ futureSkew
  windows_le_replayTTL : maximumAge + futureSkew ≤ replayTTL

/-- A duration, or the default in its place. -/
def orDefault (duration default : Int64) : Int64 := if duration = 0 then default else duration

def newRFC9421Verifier (U : CaseTable) (options : RFC9421VerifierOptions) :
    Except OptionsError RFC9421Verifier :=
  let scheme := toLower U (trimSpace options.scheme)
  let authority := trimSpace options.authority
  let maximumAge := orDefault options.maximumAge defaultRFC9421MaximumAge
  let futureSkew := orDefault options.futureSkew defaultRFC9421FutureSkew
  let replayTTL := orDefault options.replayTTL defaultRFC9421ReplayTTL
  if hscheme : scheme ≠ lit "http" ∧ scheme ≠ lit "https" then .error (.scheme scheme)
  else if hauthority : authority = [] then .error .authority
  else if options.keyResolver = false then .error .keyResolver
  else if options.nonceStore = false then .error .nonceStore
  else if hage : maximumAge < secondDuration then .error .maximumAge
  else if hskew : futureSkew < 0 then .error .futureSkew
  else if httl : replayTTL < maximumAge + futureSkew then .error .replayTTL
  else .ok {
    scheme := scheme
    authority := authority
    maximumAge := maximumAge
    futureSkew := futureSkew
    replayTTL := replayTTL
    scheme_supported := by
      by_contra h
      exact hscheme (not_or.mp h)
    authority_ne_nil := hauthority
    second_le_maximumAge := Int64.not_lt.mp hage
    futureSkew_nonneg := Int64.not_lt.mp hskew
    windows_le_replayTTL := Int64.not_lt.mp httl }

/-! ### Signatures -/

/-- The parameters of a signature. The zero instant stands for a time that is not given. -/
structure SignatureInput where
  coveredComponents : List GoString
  keyID : GoString
  alg : GoString
  nonce : GoString
  created : ℤ
  expires : ℤ
  deriving DecidableEq, Repr

structure Message where
  input : SignatureInput
  signature : GoString
  deriving DecidableEq, Repr

/-- A member of a structured field dictionary. -/
inductive DictionaryMember
  | bytes (value : GoString)
  | item
  | innerList
  deriving DecidableEq, Repr

/-- The libraries of the verifier, for public keys of the type `K`: `sigset.Unmarshal` with the
`Find` of its result, `sigbase.Derive` with the `CanonicalString` of its result, the RSA
verification, `httpsfv.UnmarshalDictionary` with the `Get` of its result, and SHA-256. -/
structure SignatureLibrary (K : Type) where
  unmarshal : Request → Except GoString (GoString → Except GoString Message)
  signatureBase : SignatureInput → Request → Except GoString (SignatureInput → Except GoString GoString)
  verify : K → GoString → GoString → Except GoString Unit
  unmarshalDictionary : List GoString → Except GoString (GoString → Option DictionaryMember)
  sha256 : GoString → GoString

/-- What a key resolver returns. -/
structure RFC9421ResolvedKey (K : Type) where
  keyID : GoString
  owner : GoString
  actorID : GoString
  publicKey : Option K

structure RFC9421Verification where
  keyID : GoString
  keyOwner : GoString
  keyActor : GoString
  nonce : GoString
  created : ℤ
  expires : ℤ
  coveredComponents : List GoString
  signatureAlgorithm : GoString
  deriving DecidableEq, Repr

/-- The errors of `validateRFC9421POSTParameters`. -/
inductive ParameterError
  | keyID
  | algorithm (alg : GoString)
  | nonce
  | nonceTooLong
  | created
  | tooOld
  | tooFarInFuture
  | expiresPrecedesCreated
  | expired
  | componentEmpty
  | componentDuplicated (component : GoString)
  | componentMissing (component : GoString)
  deriving DecidableEq, Repr

/-- The errors of `VerifyRFC9530ContentDigestSHA256`. -/
inductive ContentDigestError
  | missing
  | parse (error : GoString)
  | noMember
  | notItem
  | notBytes
  | mismatch
  deriving DecidableEq, Repr

/-- The errors of `VerifyPOST`, with errors of the type `E` from the key resolver. -/
inductive VerifyError (E : Type)
  | url
  | method (method : GoString)
  | authority (wire expected : GoString)
  | parse (error : GoString)
  | find (error : GoString)
  | parameters (error : ParameterError)
  | contentDigest (error : ContentDigestError)
  | resolve (error : E)
  | keyID
  | publicKey
  | signatureBase (error : GoString)
  | signingString (error : GoString)
  | signature (error : GoString)
  | reserve (error : GoString)
  | replay
  deriving DecidableEq, Repr

/-- The rejection is a replay, or a failure of the store of nonces. -/
def VerifyError.FromStore {E : Type} : VerifyError E → Prop
  | .replay | .reserve _ => True
  | _ => False

/-! ### Checks -/

def rfc9421SignatureTag : GoString := lit "activitypub"

def rsaPKCS1SHA256 : GoString := lit "rsa-v1_5-sha256"

def rfc9421POSTComponents : List GoString :=
  [lit "@method", lit "@authority", lit "@target-uri", lit "content-digest", lit "content-type",
    lit "date"]

/-- The loop over the covered components: the required ones that are not among them, in
order. -/
def checkCovered : (required seen covered : List GoString) → Except ParameterError (List GoString)
  | required, _, [] => .ok required
  | required, seen, component :: covered =>
      if component = [] then .error .componentEmpty
      else if component ∈ seen then .error (.componentDuplicated component)
      else checkCovered (required.filter (· ≠ component)) (component :: seen) covered

def validateRFC9421POSTParameters (input : SignatureInput) (now : ℤ)
    (maximumAge futureSkew : Int64) : Except ParameterError Unit :=
  if trimSpace input.keyID = [] then .error .keyID
  else if input.alg ≠ rsaPKCS1SHA256 then .error (.algorithm input.alg)
  else if input.nonce = [] then .error .nonce
  else if maxRFC9421NonceBytes < input.nonce.length then .error .nonceTooLong
  else if input.created = 0 then .error .created
  else if input.created < now + (-maximumAge).toInt then .error .tooOld
  else if now + futureSkew.toInt < input.created then .error .tooFarInFuture
  else if input.expires ≠ 0 ∧ input.expires < input.created then .error .expiresPrecedesCreated
  else if input.expires ≠ 0 ∧ input.expires < now then .error .expired
  else
    match checkCovered rfc9421POSTComponents [] input.coveredComponents with
    | .error e => .error e
    | .ok [] => .ok ()
    | .ok (component :: _) => .error (.componentMissing component)

section Verify

variable {E K : Type} (lib : SignatureLibrary K) (verifier : RFC9421Verifier)

def verifyRFC9530ContentDigestSHA256 (values : List GoString) (body : GoString) :
    Except ContentDigestError Unit :=
  if values = [] then .error .missing
  else
    match lib.unmarshalDictionary values with
    | .error e => .error (.parse e)
    | .ok dictionary =>
        match dictionary (lit "sha-256") with
        | none => .error .noMember
        | some .innerList => .error .notItem
        | some .item => .error .notBytes
        | some (.bytes presented) =>
            if presented = lib.sha256 body then .ok () else .error .mismatch

def cloneRFC9421Request (request : Request) (body scheme authority : GoString) : Request :=
  { request with
    url := request.url.map (fun url => { url with scheme := scheme, host := authority })
    host := authority
    body := some body }

/-- The authority a request is addressed to. -/
def wireAuthority (request : Request) (url : URL) : GoString :=
  if request.host = [] then url.host else request.host

/-- The checks of `VerifyPOST` before it reads the clock, and the signature they find. -/
def signedMessage (request : Request) : Except (VerifyError E) Message :=
  match request.url with
  | none => .error .url
  | some url =>
      if request.method ≠ lit "POST" then .error (.method request.method)
      else if wireAuthority request url ≠ verifier.authority then
        .error (.authority (wireAuthority request url) verifier.authority)
      else
        match lib.unmarshal request with
        | .error e => .error (.parse e)
        | .ok find => (find rfc9421SignatureTag).mapError .find

/-- The checks of `VerifyPOST` at the time `now`, before it resolves the key. -/
def checkMessage (request : Request) (body : GoString) (message : Message) (now : ℤ) :
    Except (VerifyError E) Unit :=
  match validateRFC9421POSTParameters message.input now verifier.maximumAge verifier.futureSkew with
  | .error e => .error (.parameters e)
  | .ok () =>
      (verifyRFC9530ContentDigestSHA256 lib (request.header (lit "Content-Digest")) body).mapError
        .contentDigest

/-- The checks of `VerifyPOST` with the resolved key, up to the verification of the signature. -/
def checkSignature (request : Request) (body : GoString) (message : Message)
    (resolved : Except E (RFC9421ResolvedKey K)) :
    Except (VerifyError E) (RFC9421ResolvedKey K) :=
  match resolved with
  | .error e => .error (.resolve e)
  | .ok resolved =>
      if resolved.keyID ≠ message.input.keyID then .error .keyID
      else
        match resolved.publicKey with
        | none => .error .publicKey
        | some publicKey =>
            match lib.signatureBase message.input
                (cloneRFC9421Request request body verifier.scheme verifier.authority) with
            | .error e => .error (.signatureBase e)
            | .ok canonicalString =>
                match canonicalString message.input with
                | .error e => .error (.signingString e)
                | .ok signingString =>
                    match lib.verify publicKey signingString message.signature with
                    | .error e => .error (.signature e)
                    | .ok () => .ok resolved

def Message.verification (message : Message) (resolved : RFC9421ResolvedKey K) :
    RFC9421Verification where
  keyID := message.input.keyID
  keyOwner := resolved.owner
  keyActor := resolved.actorID
  nonce := message.input.nonce
  created := message.input.created
  expires := message.input.expires
  coveredComponents := message.input.coveredComponents
  signatureAlgorithm := message.input.alg

/-! ### The program -/

/-- The calls of `VerifyPOST`. -/
inductive VerifyOp
  | now
  | resolveRFC9421Key (keyID : GoString)
  | reserveRFC9421Nonce (keyID nonce : GoString) (ttl : Int64)
  deriving DecidableEq

/-- The replies to the calls. -/
abbrev VerifyOp.Reply (E K : Type) : VerifyOp → Type
  | now => ℤ
  | resolveRFC9421Key _ => Except E (RFC9421ResolvedKey K)
  | reserveRFC9421Nonce _ _ _ => Except GoString Bool

abbrev VerifyM (E K : Type) := Prog VerifyOp (VerifyOp.Reply E K)

/-- The nonce is reserved last, for a signature that has been verified. -/
def verifyPOST (request : Request) (body : GoString) :
    VerifyM E K (Except (VerifyError E) RFC9421Verification) :=
  match signedMessage lib verifier request with
  | .error e => return .error e
  | .ok message => do
      let now ← Prog.op (R := VerifyOp.Reply E K) .now
      match checkMessage lib verifier request body message now with
      | .error e => return .error e
      | .ok () => do
          let resolved ← Prog.op (R := VerifyOp.Reply E K) (.resolveRFC9421Key message.input.keyID)
          match checkSignature lib verifier request body message resolved with
          | .error e => return .error e
          | .ok resolved => do
              let reserved ← Prog.op (R := VerifyOp.Reply E K)
                (.reserveRFC9421Nonce message.input.keyID message.input.nonce verifier.replayTTL)
              match reserved with
              | .error e => return .error (.reserve e)
              | .ok false => return .error .replay
              | .ok true => return .ok (message.verification resolved)

/-! ### The protocol of the program -/

/-- The phases of a call: it has been started, it has read the clock, or it has the reply of the
store. -/
inductive VerifyPhase
  | started
  | timed (reading : ℤ)
  | reserved (reading : ℤ) (reply : Except GoString Bool)

/-- The signature was created in the window of the verifier around the time `now`. -/
def RFC9421Verifier.InWindow (created now : ℤ) : Prop :=
  now - verifier.maximumAge.toInt ≤ created ∧ created ≤ now + verifier.futureSkew.toInt

/-- The protocol of a call for a signature: its nonce is reserved after the clock was read, when
the signature is in the window. -/
def verifyProtocol (input : SignatureInput) : Protocol VerifyOp (VerifyOp.Reply E K) VerifyPhase where
  allows
    | .started, .now => True
    | .timed _, .resolveRFC9421Key _ => True
    | .timed reading, .reserveRFC9421Nonce keyID nonce ttl =>
        keyID = input.keyID ∧ nonce = input.nonce ∧ ttl = verifier.replayTTL ∧
          verifier.InWindow input.created reading
    | _, _ => False
  next
    | .started, .now, reading => .timed reading
    | .timed reading, .reserveRFC9421Nonce _ _ _, reply => .reserved reading reply
    | φ, _, _ => φ

/-- A call is accepted if and only if the nonce of its signature was reserved. It is rejected
for a reason of the store if and only if the store has been asked. -/
def Verified (input : SignatureInput) : VerifyPhase → Except (VerifyError E) RFC9421Verification → Prop
  | .reserved _ (.ok true), result => ∃ v, result = .ok v ∧ v.keyID = input.keyID ∧
      v.nonce = input.nonce ∧ v.created = input.created
  | .reserved _ _, result => ∃ e, result = .error e ∧ e.FromStore
  | _, result => ∃ e, result = .error e ∧ ¬ e.FromStore

end Verify

variable {E K : Type} {lib : SignatureLibrary K} {verifier : RFC9421Verifier} {request : Request}
  {e : VerifyError E} {body : GoString} {message : Message}
  {resolved : Except E (RFC9421ResolvedKey K)}

theorem neg_maximumAge :
  (-verifier.maximumAge).toInt = -verifier.maximumAge.toInt
  := by
  have hle := Int64.le_iff_toInt_le.mp verifier.second_le_maximumAge
  have hlt := verifier.maximumAge.toInt_lt
  have hsecond : secondDuration.toInt = 1000000000 := rfl
  rw [Int64.toInt_neg]
  apply Int.bmod_eq_of_le <;> omega

/-- Parameters that are accepted are in the window. -/
theorem inWindow_of_validate {input : SignatureInput} {now : ℤ}
    (h : validateRFC9421POSTParameters input now verifier.maximumAge verifier.futureSkew = .ok ()) :
  verifier.InWindow input.created now
  := by
  -- The two checks of the window come after those of the other parameters.
  obtain ⟨-, h⟩ := check_eq_ok h
  obtain ⟨-, h⟩ := check_eq_ok h
  obtain ⟨-, h⟩ := check_eq_ok h
  obtain ⟨-, h⟩ := check_eq_ok h
  obtain ⟨-, h⟩ := check_eq_ok h
  obtain ⟨hold, h⟩ := check_eq_ok h
  obtain ⟨hfuture, -⟩ := check_eq_ok h
  rw [neg_maximumAge] at hold
  constructor <;> omega

theorem signedMessage_not_fromStore (h : signedMessage lib verifier request = .error e) :
  ¬ e.FromStore
  := by
  unfold signedMessage at h
  repeat' split at h
  all_goals
    first
    | cases h
      exact id
    | obtain ⟨e', rfl⟩ := mapError_eq_error h
      exact id

theorem checkMessage_not_fromStore {now : ℤ}
    (h : checkMessage lib verifier request body message now = .error e) :
  ¬ e.FromStore
  := by
  unfold checkMessage at h
  split at h
  · cases h
    exact id
  · obtain ⟨e', rfl⟩ := mapError_eq_error h
    exact id

theorem checkSignature_not_fromStore
    (h : checkSignature lib verifier request body message resolved = .error e) :
  ¬ e.FromStore
  := by
  unfold checkSignature at h
  repeat' split at h
  all_goals
    cases h
    try exact id

/-- `VerifyPOST` follows the protocol of the signature of its request. -/
theorem verifyPOST_follows (request : Request) (body : GoString) :
  ∃ input, (verifyProtocol (E := E) (K := K) verifier input).Follows (Verified input) .started
    (verifyPOST lib verifier request body)
  := by
  unfold verifyPOST
  cases hmessage : signedMessage lib verifier request with
  | error e => exact ⟨⟨[], [], [], [], 0, 0⟩, e, rfl, signedMessage_not_fromStore hmessage⟩
  | ok message =>
    use message.input
    rw [Protocol.follows_op]
    use trivial
    intro now
    cases hcheck : checkMessage lib verifier request body message now with
    | error e => exact ⟨e, rfl, checkMessage_not_fromStore hcheck⟩
    | ok u =>
      rw [Protocol.follows_op]
      use trivial
      intro resolved
      cases hsignature : checkSignature lib verifier request body message resolved with
      | error e => exact ⟨e, rfl, checkSignature_not_fromStore hsignature⟩
      | ok resolved =>
        constructor
        · refine ⟨rfl, rfl, rfl, inWindow_of_validate ?_⟩
          unfold checkMessage at hcheck
          split at hcheck
          · cases hcheck
          · assumption
        · rintro (e | _ | _)
          · exact ⟨.reserve e, rfl, trivial⟩
          · exact ⟨.replay, rfl, trivial⟩
          · exact ⟨_, rfl, rfl, rfl, rfl⟩

/-! ### Accepted requests -/

/-- A signature that is accepted was verified with the key of its key ID. -/
theorem checkSignature_ok {key : RFC9421ResolvedKey K}
    (h : checkSignature lib verifier request body message resolved = .ok key) :
  resolved = .ok key ∧ key.keyID = message.input.keyID
  := by
  cases resolved with
  | error e => cases h
  | ok resolved =>
    obtain ⟨hkeyID, h⟩ := check_eq_ok h
    repeat' split at h
    all_goals cases h
    exact ⟨rfl, not_not.mp hkeyID⟩

/-- What `VerifyPOST` has checked if it accepts a request. -/
theorem verifyPOST_eval_ok {reply : (o : VerifyOp) → o.Reply E K} {v : RFC9421Verification}
    (h : (verifyPOST lib verifier request body).eval reply = .ok v) :
  ∃ message key, signedMessage (E := E) lib verifier request = .ok message ∧
    reply (.resolveRFC9421Key message.input.keyID) = .ok key ∧
    key.keyID = message.input.keyID ∧ v = message.verification key
  := by
  unfold verifyPOST at h
  cases hmessage : signedMessage (E := E) lib verifier request with
  | error e =>
    rw [hmessage] at h
    cases h
  | ok message =>
    rw [hmessage] at h
    simp only [Prog.op_bind, Prog.eval] at h
    cases hcheck : checkMessage (E := E) lib verifier request body message (reply .now) with
    | error e =>
      rw [hcheck] at h
      cases h
    | ok u =>
      rw [hcheck] at h
      simp only [Prog.eval] at h
      cases hkey : checkSignature lib verifier request body message
          (reply (.resolveRFC9421Key message.input.keyID)) with
      | error e =>
        rw [hkey] at h
        cases h
      | ok key =>
        rw [hkey] at h
        simp only [Prog.eval] at h
        obtain ⟨hresolved, hkeyID⟩ := checkSignature_ok hkey
        cases hreserve : reply (.reserveRFC9421Nonce message.input.keyID message.input.nonce
            verifier.replayTTL) with
        | error e =>
          rw [hreserve] at h
          cases h
        | ok reserved =>
          rw [hreserve] at h
          cases reserved with
          | false => cases h
          | true => exact ⟨message, key, rfl, hresolved, hkeyID, (Except.ok.inj h).symm⟩

end HttpSignature
