import ActivityRelay.Inbound.Binding

/-!
# What a legacy signature says about the body

`decodeLegacyActivity` verifies the signature of a request, and compares the `Digest` header of
the request with its body. The two are connected only if the signature covers the header, and
the names of the headers that a signature covers are chosen by the signer. So an accepted
signature authenticates the body if and only if it covers the `Digest` header; otherwise
somebody who has seen the request can replace the body and the header.
-/

namespace Inbound

open GoString GoJson NetUrl HttpMessage HttpSignature Models List

/-! ### The library -/

/-- The headers that `go-fed/httpsig` looks for a signature in are the same. -/
structure SameSignature (request request' : Request) : Prop where
  signature_eq : request'.header (lit "Signature") = request.header (lit "Signature")
  authorization_eq : request'.header (lit "Authorization") = request.header (lit "Authorization")

/-- A request as it arrives: each of its parts that can be signed was read from one line. -/
structure OnWire (request : Request) : Prop where
  header_line : ∀ name, ∀ value ∈ request.header name, 0x0A ∉ value
  host_line : 0x0A ∉ request.host
  method_line : 0x0A ∉ request.method
  url_line : ∀ url ∈ request.url, 0x0A ∉ url.path ∧ 0x0A ∉ url.rawQuery

/-- The canonical name of the header that a signature lists under a name. -/
def listedHeader (U : CaseTable) (name : GoString) : GoString :=
  canonicalMIMEHeaderKey (toLower U name)

/-- The values of a header as they are signed. -/
def signedValue (values : List GoString) : GoString :=
  (lit ", ").intercalate (values.map trimSpace)

/-- What is assumed of `go-fed/httpsig`. A signature is read from two headers, and the clock
decides only whether it is too old. What is signed are the listed headers, and nothing else of
the request but its method and its URL; and the values of the listed headers can be read off
what is signed. -/
structure LegacyLibrary.Lawful {K : Type} (legacy : LegacyLibrary K) (U : CaseTable) : Prop where
  reads_signature : ∀ now request request', SameSignature request request' →
    legacy.newVerifier now request' = legacy.newVerifier now request
  clock_refuses : ∀ now now' request signature signature',
    legacy.newVerifier now request = .ok signature →
    legacy.newVerifier now' request = .ok signature' → signature' = signature
  only_listed : ∀ request request' signature, request'.method = request.method →
    request'.url = request.url →
    (∀ name ∈ signature.headers,
      request'.header (listedHeader U name) = request.header (listedHeader U name)) →
    legacy.signingString request' signature = legacy.signingString request signature
  all_listed : ∀ request request' signature text, OnWire request → OnWire request' →
    legacy.signingString request signature = .ok text →
    legacy.signingString request' signature = .ok text →
    ∀ name ∈ signature.headers, (listedHeader U name).all validHeaderFieldByte = true →
      signedValue (request'.header (listedHeader U name)) =
        signedValue (request.header (listedHeader U name))

section Statement

variable {K : Type} (relay : Relay K) (env : Surroundings)

/-- The public key that the key ID of a request is resolved to. -/
def legacyPublicKey (request : Request) : Option K :=
  (relay.legacy.newVerifier env.now (withHost request)).toOption.bind (fun signature =>
    (resolveLegacyKey relay env signature.keyID).toOption.map Prod.snd)

/-- The signature of a request covers its `Digest` header. -/
def CoversDigest (request : Request) : Prop :=
  ∃ signature, relay.legacy.newVerifier env.now (withHost request) = .ok signature ∧
    ∃ name ∈ signature.headers, listedHeader relay.caseTable name = lit "Digest"

/-- No other body is accepted with the signature and the key of a request. -/
def AuthenticatesBody (request : Request) (body : GoString) : Prop :=
  ∀ env' request' body' result', OnWire request' → SameSignature request request' →
    legacyPublicKey relay env' request' = legacyPublicKey relay env request →
    decodeLegacyActivity relay env' request' body' = .ok result' → body' = body

end Statement

/-! ### Digests -/

/-- The bytes of a digest are printed, and none of them is a comma. -/
theorem legacyDigest_byte {K : Type} (relay : Relay K) {body : GoString} :
  ∀ b ∈ legacyDigest relay body,
    isSpaceByte b = false ∧ b.toNat < runeSelf ∧ b ≠ 0x2C ∧ b ≠ 0x0A
  := by
  have hstart : (lit "SHA-256=").all (fun b =>
      isSpaceByte b = false ∧ b.toNat < runeSelf ∧ b ≠ 0x2C ∧ b ≠ 0x0A) = true := by decide
  have hchar : ∀ n : Fin 64, isSpaceByte (base64Char n) = false ∧
      (base64Char n).toNat < runeSelf ∧ base64Char n ≠ 0x2C ∧ base64Char n ≠ 0x0A := by decide
  intro b hb
  rcases mem_append.mp hb with hb | hb
  · exact of_decide_eq_true (all_eq_true.mp hstart b hb)
  · rcases base64Encode_mem hb with rfl | ⟨n, hn, rfl⟩
    · decide
    · exact hchar ⟨n, hn⟩

variable {name : GoString} {K : Type} {relay : Relay K} {env env' : Surroundings}
  {request : Request}

/-- The first value of a signed header is the digest, if it is in the header. -/
theorem cut_signedValue {K : Type} {relay : Relay K} {body : GoString} {header : Header}
    (h : header.get name = legacyDigest relay body) :
  (cut 0x2C (signedValue (header name))).1 = legacyDigest relay body
  := by
  have htrim : trimSpace (legacyDigest relay body) = legacyDigest relay body :=
    trimSpace_eq_self (fun b hb => ⟨(legacyDigest_byte relay b hb).2.1, (legacyDigest_byte relay b hb).1⟩)
  have hcomma : 0x2C ∉ legacyDigest relay body :=
    fun hmem => (legacyDigest_byte relay _ hmem).2.2.1 rfl
  unfold Header.get at h
  cases hvalues : header name with
  | nil =>
    rw [hvalues] at h
    cases h
  | cons value values =>
    rw [hvalues, headD_cons] at h
    subst h
    cases values with
    | nil =>
      rw [signedValue, map_singleton, intercalate_singleton, htrim,
        cut_of_not_mem hcomma]
    | cons value' values =>
      have hjoin : signedValue (legacyDigest relay body :: value' :: values) =
          legacyDigest relay body ++ 0x2C :: (0x20 :: signedValue (value' :: values)) := by
        simp only [signedValue, map_cons, intercalate_cons_cons, htrim]
        simp
        rfl
      rw [hjoin, cut_append hcomma]

theorem legacyDigest_injective {K : Type} {relay : Relay K}
    (hsha : Function.Injective relay.library.sha256) :
  Function.Injective (legacyDigest relay)
  := by
  intro body body' h
  exact hsha (base64Encode_injective (append_cancel_left h))

/-! ### A signature that covers the digest -/

theorem verifyLegacy_ok {publicKey : K} {signature : LegacySignature}
    (h : verifyLegacy relay publicKey request signature = .ok ()) :
  ∃ text, relay.legacy.signingString request signature = .ok text ∧
    relay.legacy.recover publicKey signature.signature = some (relay.library.sha256 text)
  := by
  unfold verifyLegacy at h
  split at h
  · cases h
  · rename_i text htext
    split_ifs at h with hrecover
    exact ⟨text, htext, hrecover⟩

/-- Setting another header does not change the signature. -/
theorem sameSignature_setHeader (request : Request) (value : GoString)
    (hsignature : lit "Signature" ≠ name) (hauthorization : lit "Authorization" ≠ name) :
  SameSignature request (request.setHeader name value)
  where
  signature_eq := request.header_setHeader_of_ne value hsignature
  authorization_eq := request.header_setHeader_of_ne value hauthorization

theorem sameSignature_withHost (request : Request) :
  SameSignature request (withHost request)
  := sameSignature_setHeader request _ (by decide) (by decide)

theorem SameSignature.withHost {request request' : Request} (h : SameSignature request request') :
  SameSignature (withHost request) (withHost request')
  where
  signature_eq := by
    rw [(sameSignature_withHost request').signature_eq, h.signature_eq,
      (sameSignature_withHost request).signature_eq]
  authorization_eq := by
    rw [(sameSignature_withHost request').authorization_eq, h.authorization_eq,
      (sameSignature_withHost request).authorization_eq]

theorem OnWire.setHeader (h : OnWire request) (name : GoString) {value : GoString}
    (hvalue : 0x0A ∉ value) :
  OnWire (request.setHeader name value)
  where
  header_line := by
    intro other v hv
    by_cases hname : other = name
    · subst hname
      rw [Request.header_setHeader_self, mem_singleton] at hv
      rwa [hv]
    · rw [request.header_setHeader_of_ne value hname] at hv
      exact h.header_line other v hv
  host_line := h.host_line
  method_line := h.method_line
  url_line := h.url_line

theorem OnWire.withHost {request : Request} (h : OnWire request) :
  OnWire (withHost request)
  := h.setHeader _ h.host_line

section Accepted

variable {request request' : Request} {body body' : GoString} {activity activity' : Activity}
  {actor actor' : Actor} {signature signature' : LegacySignature} {document document' : Actor}
  {publicKey publicKey' : K}

theorem AcceptedLegacy.legacyPublicKey_eq
    (h : AcceptedLegacy relay env request body activity actor signature document publicKey) :
  legacyPublicKey relay env request = some publicKey
  := by
  simp only [legacyPublicKey, h.signature_eq, Except.toOption, Option.bind_some, h.key_eq]
  rfl

theorem AcceptedLegacy.signature_unique (hlawful : relay.legacy.Lawful relay.caseTable)
    (h : AcceptedLegacy relay env request body activity actor signature document publicKey)
    (h' : AcceptedLegacy relay env' request' body' activity' actor' signature' document' publicKey')
    (hsame : SameSignature request request') :
  signature' = signature
  := by
  have hread := h'.signature_eq
  rw [hlawful.reads_signature _ _ _ hsame.withHost] at hread
  exact hlawful.clock_refuses _ _ _ _ _ h.signature_eq hread

/-- If the digest is covered, then requests with the same signature and key have the same
body. -/
theorem AcceptedLegacy.body_unique (hlawful : relay.legacy.Lawful relay.caseTable)
    (hsha : Function.Injective relay.library.sha256)
    (h : AcceptedLegacy relay env request body activity actor signature document publicKey)
    (h' : AcceptedLegacy relay env' request' body' activity' actor' signature' document' publicKey)
    (hwire : OnWire request) (hwire' : OnWire request') (hsame : SameSignature request request')
    (hmem : name ∈ signature.headers) (hname : listedHeader relay.caseTable name = lit "Digest") :
  body' = body
  := by
  obtain rfl := h.signature_unique hlawful h' hsame
  obtain ⟨text, htext, hrecover⟩ := verifyLegacy_ok h.verified
  obtain ⟨text', htext', hrecover'⟩ := verifyLegacy_ok h'.verified
  obtain rfl := hsha (Option.some.inj (hrecover.symm.trans hrecover'))
  have hvalue := hlawful.all_listed _ _ _ _ hwire.withHost hwire'.withHost htext htext' name hmem
    (by rw [hname]; decide)
  rw [hname] at hvalue
  apply legacyDigest_injective hsha
  rw [← cut_signedValue h.digest_eq, ← cut_signedValue h'.digest_eq, hvalue]

/-! ### A signature that does not cover the digest -/

variable (relay) in
/-- The request with the digest of another body. -/
def withDigest (request : Request) (body : GoString) : Request :=
  request.setHeader (lit "Digest") (legacyDigest relay body)

theorem sameSignature_withDigest (request : Request) (body : GoString) :
  SameSignature request (withDigest relay request body)
  := sameSignature_setHeader request _ (by decide) (by decide)

theorem OnWire.withDigest (h : OnWire request) (body : GoString) :
  OnWire (withDigest relay request body)
  := h.setHeader _ (fun hmem => (legacyDigest_byte relay _ hmem).2.2.2 rfl)

/-- The other headers are left as they are. -/
theorem withHost_withDigest_of_ne (request : Request) (body : GoString) (h : name ≠ lit "Digest") :
  (withHost (withDigest relay request body)).header name = (withHost request).header name
  := by
  unfold withHost
  by_cases hname : name = lit "Host"
  · subst hname
    rfl
  · rw [Request.header_setHeader_of_ne _ _ hname, Request.header_setHeader_of_ne _ _ hname]
    exact request.header_setHeader_of_ne _ h

/-- A space before the body, with its digest, is accepted if the digest is not covered. -/
theorem AcceptedLegacy.space_body (hlawful : relay.legacy.Lawful relay.caseTable)
    (h : AcceptedLegacy relay env request body activity actor signature document publicKey)
    (hnot : ∀ name ∈ signature.headers, listedHeader relay.caseTable name ≠ lit "Digest") :
  AcceptedLegacy relay env (withDigest relay request (0x20 :: body)) (0x20 :: body) activity actor
    signature document publicKey
  where
  signature_eq := by
    rw [hlawful.reads_signature _ _ _ (sameSignature_withDigest request _).withHost]
    exact h.signature_eq
  key_eq := h.key_eq
  verified := by
    have htext : relay.legacy.signingString (withHost (withDigest relay request (0x20 :: body)))
        signature = relay.legacy.signingString (withHost request) signature := by
      apply hlawful.only_listed (withHost request) (withHost (withDigest relay request _)) _ rfl rfl
      intro name hname
      exact withHost_withDigest_of_ne request _ (hnot name hname)
    have hverified := h.verified
    unfold verifyLegacy at hverified ⊢
    rwa [htext]
  digest_eq := by
    have hne : lit "Digest" ≠ lit "Host" := by decide
    rw [Header.get, withHost, Request.header_setHeader_of_ne _ _ hne, withDigest,
      Request.header_setHeader_self, headD_cons]
  activity_eq := by
    have hactivity := h.activity_eq
    unfold parseInboundActivity at hactivity ⊢
    rwa [unmarshal_space _ (by decide)]
  key_bound := h.key_bound
  actor_eq := h.actor_eq
  actor_bound := h.actor_bound

end Accepted

/-- An accepted legacy signature authenticates the body if and only if it covers the `Digest`
header. -/
theorem authenticatesBody_iff_coversDigest (relay : Relay K)
    (hlawful : relay.legacy.Lawful relay.caseTable) (hsha : Function.Injective relay.library.sha256)
    (env : Surroundings) (request : Request) (hwire : OnWire request) (body : GoString)
    (result : Activity × Actor)
    (haccepted : decodeLegacyActivity relay env request body = .ok result) :
  AuthenticatesBody relay env request body ↔ CoversDigest relay env request
  := by
  obtain ⟨activity, actor⟩ := result
  obtain ⟨signature, document, publicKey, h⟩ := decodeLegacyActivity_eq_ok.mp haccepted
  constructor
  · intro hauthenticates
    by_contra hcovers
    have hnot : ∀ name ∈ signature.headers, listedHeader relay.caseTable name ≠ lit "Digest" :=
      fun name hname heq => hcovers ⟨signature, h.signature_eq, name, hname, heq⟩
    have hspace := h.space_body hlawful hnot
    have hbody := hauthenticates env _ _ (activity, actor) (hwire.withDigest _)
      (sameSignature_withDigest request _)
      (by rw [hspace.legacyPublicKey_eq, h.legacyPublicKey_eq])
      (decodeLegacyActivity_eq_ok.mpr ⟨signature, document, publicKey, hspace⟩)
    exact absurd hbody (by simp)
  · rintro ⟨signature', hsignature, name, hmem, hname⟩ env' request' body' ⟨activity', actor'⟩ hwire'
      hsame hkey haccepted'
    cases h.signature_eq.symm.trans hsignature
    obtain ⟨signature', document', publicKey', h'⟩ := decodeLegacyActivity_eq_ok.mp haccepted'
    rw [h.legacyPublicKey_eq, h'.legacyPublicKey_eq] at hkey
    cases hkey
    exact h.body_unique hlawful hsha h' hwire hwire' hsame hmem hname

/-! ### Requests with two bodies -/

/-- A line of what is signed. -/
def signedLine (U : CaseTable) (request : Request) (name : GoString) : GoString :=
  toLower U name ++ lit ": " ++ signedValue (request.header (listedHeader U name))

/-- What is signed: one line for each listed header. -/
def signedLines (U : CaseTable) (request : Request) (names : List GoString) : GoString :=
  [0x0A].intercalate (names.map (signedLine U request))

theorem newline_not_mem_signedValue {values : List GoString} (h : ∀ value ∈ values, 0x0A ∉ value) :
  0x0A ∉ signedValue values
  := by
  induction values with
  | nil => simp [signedValue]
  | cons value values ih =>
    have hvalue : 0x0A ∉ trimSpace value := fun hmem => h value (by simp) (mem_of_mem_trimSpace hmem)
    have hvalues := ih (fun v hv => h v (by simp [hv]))
    cases values with
    | nil => simpa [signedValue] using hvalue
    | cons value' values =>
      have hcomma : 0x0A ∉ lit ", " := by decide
      simp only [signedValue, map_cons, intercalate_cons_cons, mem_append,
        not_or] at hvalues ⊢
      exact ⟨⟨hvalue, hcomma⟩, hvalues⟩

/-- The values of the listed headers can be read off the lines. -/
theorem signedValue_of_lines {U : CaseTable} {request' : Request} (hwire : OnWire request)
    (hwire' : OnWire request') {names : List GoString}
    (h : signedLines U request names = signedLines U request' names) :
  ∀ name ∈ names,
    signedValue (request'.header (listedHeader U name)) =
      signedValue (request.header (listedHeader U name))
  := by
  induction names with
  | nil => simp
  | cons name names ih =>
    have hline := newline_not_mem_signedValue (hwire.header_line (listedHeader U name))
    have hline' := newline_not_mem_signedValue (hwire'.header_line (listedHeader U name))
    cases names with
    | nil =>
      simp only [signedLines, map_cons, map_nil, intercalate_singleton, signedLine] at h
      simpa using (append_cancel_left h).symm
    | cons next names =>
      simp only [signedLines, map_cons, intercalate_cons_cons, signedLine, append_assoc,
        singleton_append] at h
      -- The first line ends at the first line feed.
      have hcut := cut_append hline (signedLines U request (next :: names))
      have hcut' := cut_append hline' (signedLines U request' (next :: names))
      simp only [signedLines, map_cons, signedLine, append_assoc] at hcut hcut'
      rw [append_cancel_left (append_cancel_left h), hcut', Prod.mk.injEq,
        Option.some.injEq] at hcut
      intro other hother
      rcases mem_cons.mp hother with rfl | hother
      · exact hcut.1
      · apply ih _ other hother
        simpa only [signedLines, map_cons, signedLine, append_assoc] using hcut.2.symm

/-- The header of a signature, as `go-fed/httpsig` writes it. -/
def signatureField (signature : LegacySignature) : GoString :=
  lit "keyId=\"" ++ signature.keyID ++ lit "\",algorithm=\"rsa-sha256\",headers=\"" ++
    [0x20].intercalate signature.headers ++ lit "\",signature=\"" ++
    base64Encode signature.signature ++ lit "\""

/-- The answers of the library for one signature, from which RSA recovers the digest. -/
def lineLibrary (signature : LegacySignature) (digest : GoString) : LegacyLibrary GoString where
  newVerifier _ request :=
    if request.header.get (lit "Signature") = signatureField signature then .ok signature
    else .error (lit "malformed signature")
  signingString request signature := .ok (signedLines .identity request signature.headers)
  recover _ s := if s = signature.signature then some digest else none

theorem lineLibrary_lawful (signature : LegacySignature) (digest : GoString) :
  (lineLibrary signature digest).Lawful .identity
  where
  reads_signature := by
    intro now request request' h
    have hsame : request'.header.get (lit "Signature") = request.header.get (lit "Signature") := by
      rw [Header.get, h.signature_eq, Header.get]
    simp only [lineLibrary]
    rw [hsame]
  clock_refuses := by
    intro now now' request signature signature' h h'
    exact Except.ok.inj (h'.symm.trans h)
  only_listed := by
    intro request request' signature _ _ h
    simp only [lineLibrary, signedLines, Except.ok.injEq]
    congr 1
    apply map_congr_left
    intro name hname
    rw [signedLine, signedLine, h name hname]
  all_listed := by
    intro request request' signature text hwire hwire' h h' name hname _
    exact signedValue_of_lines hwire hwire' (Except.ok.inj (h.trans h'.symm)) name hname

def lineSurroundings : Surroundings := twoHostsSurroundings (lit "https://victim.example/key")

/-- A body with an activity of the type. -/
def typedBody (type : GoString) : GoString :=
  lit "\x7b\"actor\":\"https://victim.example/a\",\"type\":\"" ++ type ++ lit "\"\x7d"

/-- A request to follow the public collection. -/
def followBody : GoString :=
  lit "\x7b\"actor\":\"https://victim.example/a\",\"type\":\"Follow\"," ++
    lit "\"object\":\"https://www.w3.org/ns/activitystreams#Public\"\x7d"

/-- The line that is signed for a date. -/
def dateLine : GoString := lit "date: Tue, 14 Nov 2023 22:13:20 GMT"

/-- The line that is signed for the digest of an activity of the type `Like`. -/
def likeLine : GoString := lit "digest: SHA-256=t+EZW6T78YqtvMSlu48rAd3NR0ExYiitz01UAkSOVqc="

/-- A digest with the values of SHA-256 on the bodies and lines. Each of them is exchanged with its
digest, and other texts are left as they are. -/
def lineDigest : Equiv.Perm GoString :=
  [(typedBody (lit "Like"), "t+EZW6T78YqtvMSlu48rAd3NR0ExYiitz01UAkSOVqc="),
    (typedBody (lit "Undo"), "N91Dk5hF0iXV35F2bVqNQQmhVM9zyWykpjsFz8v2GfI="),
    (followBody, "c/fbWC6DaAOehJrQKQ5SEXR8CNPNzpUM0QDXVpEe0EY="),
    (dateLine, "1d2BoLibABEJROoyefb3pJ1wRvQu2BHMbCZiR8WERYw="),
    (likeLine, "/ECvLntSEHevfcbhXBzTxt94B8PpQ1rfbIMbhOEeo8I=")].foldr
    (fun e digest => (Equiv.swap e.1 (base64Decode (lit e.2))).trans digest) (Equiv.refl _)

/-- A signature of `dateLine`, with a key of 512 bits. -/
def dateSignature : LegacySignature where
  keyID := lit "https://victim.example/key"
  headers := [lit "date"]
  created := 0
  expires := 0
  signature := base64Decode
    (lit "rtn5C/Ye4dydJpksFzGm6pxB4qtd0e+2fGLRAOL/kCfbvjbgVGmQB114kRbhDYMZKgrpXzB/d9CPW701rzGtSg==")

/-- A signature of `likeLine` with this key. -/
def likeSignature : LegacySignature :=
  { dateSignature with
    headers := [lit "digest"]
    signature := base64Decode
      (lit "X/KWDEGfhj5Emo0USYHzpJXuZpkzimFGhMckNnyQv5Egwe8ntakZeaU3QzvTcew2y87q/mxbIk5qFqEJ2CA0lQ==") }

/-- A relay whose libraries know one signature of a line. -/
def lineRelay (signature : LegacySignature) (line : GoString) : Relay GoString :=
  { keyRelay [] with
    library := { idealLibrary (keyMessage []) with sha256 := lineDigest }
    legacy := lineLibrary signature (lineDigest line) }

/-- A request with the signature and the body. -/
def lineRequest (signature : LegacySignature) (body : GoString) : Request where
  method := lit "POST"
  url := some { path := lit "/inbox" }
  host := lit "relay.example"
  header name :=
    if name = lit "Signature" then [signatureField signature]
    else if name = lit "Date" then [lit "Tue, 14 Nov 2023 22:13:20 GMT"]
    else if name = lit "Digest" then [lit "SHA-256=" ++ base64Encode (lineDigest body)]
    else []
  body := some body

theorem lineRequest_onWire {signature : LegacySignature} (h : 0x0A ∉ signatureField signature)
    (body : GoString) :
  OnWire (lineRequest signature body)
  where
  header_line := by
    intro name value hvalue
    simp only [lineRequest] at hvalue
    split_ifs at hvalue
    · rwa [mem_singleton.mp hvalue]
    · rw [mem_singleton.mp hvalue]
      decide
    · rw [mem_singleton.mp hvalue]
      exact fun hmem => (legacyDigest_byte (lineRelay signature []) _ hmem).2.2.2 rfl
    · cases hvalue
  host_line := (by decide : 0x0A ∉ lit "relay.example")
  method_line := (by decide : 0x0A ∉ lit "POST")
  url_line := by
    intro url hurl
    cases hurl
    exact ⟨by decide, by decide⟩

set_option maxRecDepth 20000 in
/-- The signature of a request covers the date only, and it is accepted with another body. -/
theorem legacy_body_replaced :
  let relay := lineRelay dateSignature dateLine
  let request := fun type => lineRequest dateSignature (typedBody type)
  relay.legacy.Lawful relay.caseTable ∧ Function.Injective relay.library.sha256 ∧
    decodeLegacyActivity relay lineSurroundings (request (lit "Like")) (typedBody (lit "Like")) =
      .ok ({ actor := victimActor, type := lit "Like" }, { id := victimActor }) ∧
    decodeLegacyActivity relay lineSurroundings (request (lit "Undo")) (typedBody (lit "Undo")) =
      .ok ({ actor := victimActor, type := lit "Undo" }, { id := victimActor }) ∧
    SameSignature (request (lit "Like")) (request (lit "Undo")) ∧
    legacyPublicKey relay lineSurroundings (request (lit "Like")) =
      legacyPublicKey relay lineSurroundings (request (lit "Undo")) ∧
    typedBody (lit "Like") ≠ typedBody (lit "Undo")
  := by
  refine ⟨lineLibrary_lawful _ _, lineDigest.injective, rfl, rfl, ⟨rfl, rfl⟩, rfl, by decide⟩

set_option maxRecDepth 20000 in
theorem authenticatesBody_iff_coversDigest_like :
  AuthenticatesBody (lineRelay likeSignature likeLine) lineSurroundings
    (lineRequest likeSignature (typedBody (lit "Like"))) (typedBody (lit "Like"))
  := by
  have hiff := authenticatesBody_iff_coversDigest (lineRelay likeSignature likeLine)
    (lineLibrary_lawful _ _) lineDigest.injective lineSurroundings
    (lineRequest likeSignature (typedBody (lit "Like"))) (lineRequest_onWire (by decide) _)
    (typedBody (lit "Like")) ({ actor := victimActor, type := lit "Like" }, { id := victimActor }) rfl
  exact hiff.mpr ⟨_, rfl, lit "digest", by simp [likeSignature], by decide⟩

end Inbound
