import ActivityRelay.DirectoryClient.Http

/-!
# Heartbeats with a registration

`HeartbeatWithRegisterReconciliationNegotiated` against any directory, whatever the replies to its
requests are. The requests of a run are a status request, a heartbeat, a registration and a second
heartbeat, of which the later ones may be missing, all in the version that the status document
leads to. The directory is registered at exactly if the first heartbeat has been answered with the
error that the relay is not registered.
-/

namespace DirectoryClient

open GoString GoTime GoJson NetUrl Directory HttpMessage Interaction List

variable {U : CaseTable} {client : Client U} {version : ProtocolVersion} {operation : Operation}
  {response : Response} {e : ClientError}

/-! ### Targets -/

theorem isHostByte_escape (s : GoString) :
  ∀ b ∈ escape .host s, isHostByte b = true
  := by
  have hdigit : ∀ n < 16, isHostByte (upperhex n) = true := by decide
  intro b hb
  obtain ⟨c, -, hb⟩ := mem_flatMap.mp hb
  unfold escapeByte at hb
  split_ifs at hb with hescape
  · have hlt := c.toNat_lt
    simp only [mem_cons, not_mem_nil, or_false] at hb
    obtain rfl | rfl | rfl := hb
    · rfl
    · exact hdigit _ (by omega)
    · exact hdigit _ (by omega)
  · obtain rfl := mem_singleton.mp hb
    simp [isHostByte, hescape]

variable (client) in
theorem Client.isBare :
  IsBare client.origin
  := by
  obtain ⟨value, haccepted⟩ := client.accepted
  obtain ⟨-, -, -, hbare, -, -⟩ := parseOrigin_eq_some.mp haccepted
  exact hbare

variable (client) in
/-- The host of the directory is read back from its escaped text. -/
theorem Client.parseHost_escape :
  parseHost (escape .host client.origin.host) = some client.origin.host
  := by
  obtain ⟨value, haccepted⟩ := client.accepted
  obtain ⟨-, -, hparse, hbare, hstring, -⟩ := parseOrigin_eq_some.mp haccepted
  have hpath : ∀ b ∈ ([] : GoString).head?, b = 0x2F := by simp
  have hscheme : ∀ b ∈ lit "https", isAlpha b = true := by decide +kernel
  have hauthority := parseURL_authority true (isHostByte_escape client.origin.host) hscheme
    (by decide) hpath (by simp) rfl
  have htext : lit "https" ++ lit "://" ++ (escape .host client.origin.host ++ []) = value := by
    rw [append_nil, ← hstring, hbare.string_eq]
    rfl
  rw [htext] at hauthority
  obtain ⟨host, hhost, hset⟩ := Option.bind_eq_some_iff.mp (hauthority.symm.trans hparse)
  rw [hhost, setPath_spec hset]

/-- A path that is written as it is. -/
structure PlainPath (path : GoString) : Prop where
  head : path.head? = some 0x2F
  escape : escape .path path = path
  unescape : unescape .path path = some path
  query : 0x3F ∉ path
  fragment : 0x23 ∉ path
  ctl : containsCTLByte path = false

theorem plainPath_statusPath :
  PlainPath statusPath
  := ⟨by decide, by decide, by decide, by decide, by decide, by decide⟩

theorem plainPath_operationPath (version : ProtocolVersion) (operation : Operation) :
  PlainPath (operationPath version operation)
  := by
  cases version <;> cases operation <;>
    exact ⟨by decide, by decide, by decide, by decide, by decide, by decide⟩

variable (client) in
theorem Client.target_eq {path : GoString} (h : PlainPath path) :
  client.target path = lit "https://" ++ (escape .host client.origin.host ++ path)
  := by
  have hbare := client.isBare
  have hpath : URL.escapedPath { client.origin with path := path } = path := by
    have hstar : path ≠ lit "*" := by
      rintro rfl
      exact absurd h.head (by decide)
    simp [URL.escapedPath, hbare.rawPath, hstar, h.escape]
  have hscheme : client.origin.scheme ≠ [] := by
    rw [hbare.scheme]
    decide
  have hsuffix : URL.suffixString { client.origin with path := path } = [] := by
    simp [URL.suffixString, hbare.forceQuery, hbare.rawQuery, hbare.fragment]
  have hstring : client.target path = client.origin.scheme ++ lit "://" ++
      (escape .host client.origin.host ++ URL.escapedPath { client.origin with path := path }) :=
    string_authority hscheme hbare.host hbare.user hbare.opaquePart (by simp [hpath, h.head]) hsuffix
  rw [hstring, hpath, hbare.scheme]
  rfl

variable (client) in
/-- The targets are URLs, so that every request can be built. -/
theorem Client.parse_target {path : GoString} (h : PlainPath path) :
  ∃ url, parse (client.target path) = some url
  := by
  have hscheme : ∀ b ∈ lit "https", isAlpha b = true := by decide +kernel
  have hslash : ∀ b ∈ path.head?, b = 0x2F := by simp [h.head]
  have hparse := parseURL_authority false (isHostByte_escape client.origin.host) hscheme
    (by decide) hslash h.query h.ctl
  rw [client.parseHost_escape, Option.bind_some, URL.setPath, h.unescape, Option.map_some] at hparse
  have hfragment : 0x23 ∉ client.target path := by
    rw [client.target_eq h]
    simp only [mem_append, not_or]
    exact ⟨by decide, isHostByte.not_mem (isHostByte_escape client.origin.host) rfl, h.fragment⟩
  unfold parse
  rw [cut_of_not_mem hfragment]
  dsimp only
  rw [client.target_eq h]
  exact ⟨_, congrArg (Option.bind · _) hparse⟩

/-! ### Replies -/

/-- A reply that is a valid success of an operation, for the relay of the client. -/
structure IsSuccess (client : Client U) (version : ProtocolVersion) (operation : Operation)
    (reply : HttpClient.Reply) (response : Response) : Prop where
  received : ∃ received, receive U (lit "POST") reply = .ok received ∧
    (received.status = 200 ∨ operation = .register ∧ received.status = 201) ∧
    decodeResponse received.body = some response
  protocolVersion : response.protocolVersion = version.number
  sameOperation : response.operation = operationText operation
  outcome : validFor response.outcome operation = true
  relayActor : response.relayActor = client.relayActor

/-- A reply that is a valid `409` error that the relay is not registered. -/
def IsNotRegistered (U : CaseTable) (version : ProtocolVersion) (reply : HttpClient.Reply) : Prop :=
  ∃ received, receive U (lit "POST") reply = .ok received ∧ received.status = 409 ∧
    IsError version .relayNotRegistered 409 received.body

/-- A reply that is a valid status document of the directory of the client. -/
structure IsStatus (client : Client U) (reply : HttpClient.Reply) (status : Status) : Prop where
  received : ∃ received, receive U HttpClient.methodGet reply = .ok received ∧
    received.status = 200 ∧ decodeStatus received.body = some status
  versions : validStatusLifecycleVersions status = true
  service : status.service = lit "activity-relay-directory"
  version : validDirectoryVersionToken status.version = true
  publicBaseURL : status.publicBaseURL = client.origin.string

/-- The version that a status document leads to: the highest one that it advertises in schema 4,
and the first one in the schemas before. -/
def IsNegotiated (status : Status) (version : ProtocolVersion) : Prop :=
  status.schemaVersion = 4 ∧ version.number ∈ status.lifecycleProtocolVersions.elements ∧
      (∀ other : ProtocolVersion, other.number ∈ status.lifecycleProtocolVersions.elements →
        other.number ≤ version.number) ∨
    (status.schemaVersion = 2 ∨ status.schemaVersion = 3) ∧ version = .v1

theorem decodeSuccessVersion_eq_ok {status : ℕ} {relayActor body : GoString}
    (h : decodeSuccessVersion status operation relayActor version body = .ok response) :
  (status = 200 ∨ operation = .register ∧ status = 201) ∧ decodeResponse body = some response ∧
    response.protocolVersion = version.number ∧ response.operation = operationText operation ∧
    validFor response.outcome operation = true ∧ response.relayActor = relayActor
  := by
  unfold decodeSuccessVersion at h
  split_ifs at h with hstatus
  split at h
  · cases h
  · rename_i response' hdecode
    split_ifs at h with hfields
    cases h
    simp only [not_or, not_not, Bool.not_eq_true', Bool.not_eq_false] at hfields
    tauto

/-- Whatever is wrong with a success, the error is the same. -/
theorem decodeSuccessVersion_eq_error {status : ℕ} {relayActor body : GoString}
    (h : decodeSuccessVersion status operation relayActor version body = .error e) :
  e = .response
  := by
  unfold decodeSuccessVersion at h
  split_ifs at h
  · cases h
    rfl
  · split at h
    · cases h
      rfl
    · split_ifs at h
      cases h
      rfl

/-- The error that the relay is not registered has no delay, and comes with one status. -/
theorem decode_relayNotRegistered_iff {zones : GoString → ℤ → ℤ} {status : ℕ} {header : Header}
    {body : GoString} {now : ℤ} :
  (∃ retryAfter, decodeProtocolErrorAtVersion zones status header version body now =
      .protocol .relayNotRegistered retryAfter) ↔
    status = 409 ∧ IsError version .relayNotRegistered 409 body
  := by
  constructor
  · rintro ⟨retryAfter, h⟩
    obtain ⟨herror, -⟩ := isError_of_decode h
    obtain rfl : status = 409 := by simpa [errorStatusMatches] using herror.status
    exact ⟨rfl, herror⟩
  · rintro ⟨rfl, herror⟩
    refine ⟨0, ?_⟩
    rw [herror.decode]
    rfl

/-! ### The requests of a run -/

abbrev ClientTrace := List ((o : ClientOp) × ClientOp.Reply o)

def exchangeOf : (o : ClientOp) × ClientOp.Reply o → Option (ClientRequest × HttpClient.Reply)
  | ⟨.exchange request, reply⟩ => some (request, reply)
  | _ => none

/-- The requests that have been sent in a run, with the replies. -/
def exchanges (τ : ClientTrace) : List (ClientRequest × HttpClient.Reply) := τ.filterMap exchangeOf

def signingOf : (o : ClientOp) × ClientOp.Reply o → Option (ClientRequest × Option SignError)
  | ⟨.sign request, e⟩ => some (request, e)
  | _ => none

/-- The requests that have been handed to the signer in a run, with its errors. -/
def signings (τ : ClientTrace) : List (ClientRequest × Option SignError) := τ.filterMap signingOf

theorem exchanges_append (τ₁ τ₂ : ClientTrace) :
  exchanges (τ₁ ++ τ₂) = exchanges τ₁ ++ exchanges τ₂
  := filterMap_append

theorem signings_append (τ₁ τ₂ : ClientTrace) :
  signings (τ₁ ++ τ₂) = signings τ₁ ++ signings τ₂
  := filterMap_append

/-! ### One operation -/

/-- The document of an operation, with the telemetry that the third version has. -/
def Client.document (client : Client U) (telemetry : Option ℤ) :
    ProtocolVersion → Operation → Json
  | .v1, .register => client.registerRequest
  | .v2, .register => client.v2RegisterRequest
  | .v3, .register => client.v3RegisterRequest telemetry
  | .v3, .heartbeat => client.v3HeartbeatRequest telemetry
  | version, operation => client.identityRequest version operation

/-- A request of an operation in a version: its path, its signature and its document are those of
the version. -/
def IsLifecycle (client : Client U) (version : ProtocolVersion) (operation : Operation)
    (request : ClientRequest) : Prop :=
  ∃ telemetry, request =
    client.lifecycleRequest version operation (client.document telemetry version operation)

/-- A request belongs to one operation. -/
theorem IsLifecycle.unique {operation' : Operation} {request : ClientRequest}
    (h : IsLifecycle client version operation request)
    (h' : IsLifecycle client version operation' request) :
  operation = operation'
  := by
  obtain ⟨telemetry, rfl⟩ := h
  obtain ⟨telemetry', heq⟩ := h'
  have htarget := (ClientRequest.post.inj heq).1
  rw [client.target_eq (plainPath_operationPath version operation),
    client.target_eq (plainPath_operationPath version operation')] at htarget
  have hpath := append_cancel_left (append_cancel_left htarget)
  revert hpath
  cases version <;> cases operation <;> cases operation' <;> decide

/-- What the result of an operation says about the reply to its request. -/
structure Answers (client : Client U) (version : ProtocolVersion) (operation : Operation)
    (reply : HttpClient.Reply) (result : Except Failure Response) : Prop where
  success : ∀ response, result = .ok response → IsSuccess client version operation reply response
  notRegistered : (∃ retryAfter, result = .error (.client (.protocol .relayNotRegistered retryAfter))) ↔
    IsNotRegistered U version reply

/-- A run of an operation: its request is not signed, or it is sent. -/
def Attempt (client : Client U) (version : ProtocolVersion) (operation : Operation)
    (τ : ClientTrace) (result : Except Failure Response) : Prop :=
  ∃ request, IsLifecycle client version operation request ∧
    ((∃ e : SignError, exchanges τ = [] ∧ signings τ = [(request, some e)] ∧
        result = .error e.failure) ∨
      ∃ reply, exchanges τ = [(request, reply)] ∧ signings τ = [(request, none)] ∧
        Answers client version operation reply result)

section Runs

variable {zones : GoString → ℤ → ℤ} {τ : ClientTrace} {result : Except Failure Response}
  {reply : HttpClient.Reply} {received : Received}

theorem receive_ne_protocol {method : GoString} {code : ErrorCode} {retryAfter : ℤ} :
  receive U method reply ≠ .error (.protocol code retryAfter)
  := by
  unfold receive
  intro h
  split at h
  · cases h
  · split at h
    · rename_i hread
      unfold readResponseBody at hread
      split_ifs at hread <;> cases hread <;> cases h
    · split_ifs at h
      cases h

theorem isNotRegistered_iff (h : receive U (lit "POST") reply = .ok received) :
  IsNotRegistered U version reply ↔
    received.status = 409 ∧ IsError version .relayNotRegistered 409 received.body
  := by
  simp [IsNotRegistered, h]

theorem answers_of_receive_error (h : receive U (lit "POST") reply = .error e) :
  Answers client version operation reply (.error (.client e))
  := by
  refine ⟨nofun, ?_, ?_⟩
  · rintro ⟨retryAfter, heq⟩
    cases heq
    exact absurd h receive_ne_protocol
  · rintro ⟨received, hreceived, -⟩
    rw [h] at hreceived
    cases hreceived

section

variable (h : receive U (lit "POST") reply = .ok received)
include h

theorem answers_of_decodeSuccess
    (hdecode : decodeSuccessVersion received.status operation client.relayActor version
      received.body = .ok response) :
  Answers client version operation reply (.ok response)
  := by
  obtain ⟨hstatus, hresponse, hversion, hoperation, houtcome, hactor⟩ :=
    decodeSuccessVersion_eq_ok hdecode
  constructor
  · rintro response' ⟨⟩
    exact ⟨⟨received, h, hstatus, hresponse⟩, hversion, hoperation, houtcome, hactor⟩
  · have hconflict : received.status ≠ 409 := by omega
    simp [isNotRegistered_iff h, hconflict]

theorem answers_of_malformed
    (hstatus : received.status < 300)
    (hdecode : decodeSuccessVersion received.status operation client.relayActor version
      received.body = .error e) :
  Answers client version operation reply (.error (.client e))
  := by
  obtain rfl := decodeSuccessVersion_eq_error hdecode
  have hconflict : received.status ≠ 409 := by omega
  refine ⟨nofun, ?_⟩
  simp [isNotRegistered_iff h, hconflict]

theorem answers_of_decodeProtocolError (now : ℤ) :
  Answers client version operation reply (.error (.client
    (decodeProtocolErrorAtVersion zones received.status received.header version received.body now)))
  := by
  refine ⟨nofun, ?_⟩
  simp only [Except.error.injEq, Failure.client.injEq, decode_relayNotRegistered_iff,
    isNotRegistered_iff h]

end

/-- The runs of the senders. -/
theorem attempt_sendAs (telemetry : Option ℤ)
    (h : Prog.Runs (sendAs zones client version operation
      (client.document telemetry version operation)) τ result) :
  Attempt client version operation τ result
  := by
  obtain ⟨url, hparse⟩ := client.parse_target (plainPath_operationPath version operation)
  refine ⟨client.lifecycleRequest version operation (client.document telemetry version operation),
    ⟨telemetry, rfl⟩, ?_⟩
  unfold sendAs at h
  rw [hparse] at h
  obtain ⟨signed, τ₁, rfl, h₁⟩ := Prog.runs_op.mp h
  cases signed with
  | some e =>
    cases h₁
    exact .inl ⟨e, rfl, rfl, rfl⟩
  | none =>
    obtain ⟨reply, τ₂, rfl, h₂⟩ := Prog.runs_op.mp h₁
    suffices hend : exchanges τ₂ = [] ∧ signings τ₂ = [] ∧
        Answers client version operation reply result from
      .inr ⟨reply, congrArg (_ :: ·) hend.1, congrArg (_ :: ·) hend.2.1, hend.2.2⟩
    cases hreceive : receive U (lit "POST") reply with
    | error e =>
      rw [hreceive] at h₂
      cases h₂
      exact ⟨rfl, rfl, answers_of_receive_error hreceive⟩
    | ok received =>
      rw [hreceive] at h₂
      dsimp only at h₂
      split_ifs at h₂ with hstatus
      · split at h₂
        · rename_i e hdecode
          cases h₂
          exact ⟨rfl, rfl, answers_of_malformed hreceive hstatus.2 hdecode⟩
        · rename_i response hdecode
          cases h₂
          exact ⟨rfl, rfl, answers_of_decodeSuccess hreceive hdecode⟩
      · obtain ⟨now, τ₃, rfl, h₃⟩ := Prog.runs_op.mp h₂
        cases h₃
        exact ⟨rfl, rfl, answers_of_decodeProtocolError hreceive now⟩

/-- The calls for the telemetry of a request. -/
theorem runs_currentV3Telemetry {telemetry : Option ℤ}
    (h : Prog.Runs (currentV3Telemetry client) τ telemetry) :
  exchanges τ = [] ∧ signings τ = []
  := by
  unfold currentV3Telemetry at h
  split_ifs at h
  · obtain ⟨count, τ₁, rfl, h₁⟩ := Prog.runs_op.mp h
    have hnil : τ₁ = [] := by
      split at h₁
      · cases h₁
        rfl
      · split_ifs at h₁ <;> cases h₁ <;> rfl
    rw [hnil]
    exact ⟨rfl, rfl⟩
  · cases h
    exact ⟨rfl, rfl⟩

/-- An operation that asks for the telemetry first. -/
theorem attempt_withTelemetry
    (h : Prog.Runs (currentV3Telemetry client >>= fun telemetry =>
      sendAs zones client version operation (client.document telemetry version operation)) τ result) :
  Attempt client version operation τ result
  := by
  obtain ⟨τ₁, τ₂, telemetry, rfl, h₁, h₂⟩ := (Prog.runs_bind _ _).mp h
  obtain ⟨hexchanges, hsignings⟩ := runs_currentV3Telemetry h₁
  unfold Attempt
  rw [exchanges_append, signings_append, hexchanges, hsignings]
  exact attempt_sendAs telemetry h₂

theorem attempt_registerVersion (h : Prog.Runs (registerVersion zones client version) τ result) :
  Attempt client version .register τ result
  := by
  cases version with
  | v1 | v2 => exact attempt_sendAs none h
  | v3 => exact attempt_withTelemetry h

theorem attempt_heartbeatVersion (h : Prog.Runs (heartbeatVersion zones client version) τ result) :
  Attempt client version .heartbeat τ result
  := by
  cases version with
  | v1 | v2 => exact attempt_sendAs none h
  | v3 => exact attempt_withTelemetry h

theorem attempt_unregisterVersion (h : Prog.Runs (unregisterVersion zones client version) τ result) :
  Attempt client version .unregister τ result
  := by
  cases version with
  | v1 | v2 | v3 => exact attempt_sendAs none h

/-! ### Negotiation -/

theorem increasingFrom_spec {previous : ℤ} {versions : List ℤ}
    (h : increasingFrom previous versions = true) :
  (∀ version ∈ versions, previous < version) ∧ versions.Pairwise (· < ·)
  := by
  induction versions generalizing previous with
  | nil => simp
  | cons version versions ih =>
    rw [increasingFrom, Bool.and_eq_true, decide_eq_true_eq] at h
    obtain ⟨hlater, hpairwise⟩ := ih h.2
    rw [forall_mem_cons, pairwise_cons]
    exact ⟨⟨h.1, fun later hmem => h.1.trans (hlater later hmem)⟩, hlater, hpairwise⟩

/-- The first version of the protocol in a decreasing list is the highest one. -/
theorem newestVersion_spec {versions : List ℤ} (h : versions.Pairwise (· > ·))
    (hsome : ∃ version : ProtocolVersion, version.number ∈ versions) :
  (newestVersion versions).number ∈ versions ∧
    ∀ other : ProtocolVersion, other.number ∈ versions → other.number ≤ (newestVersion versions).number
  := by
  induction versions with
  | nil =>
    obtain ⟨version, hmem⟩ := hsome
    cases hmem
  | cons first versions ih =>
    rw [pairwise_cons] at h
    by_cases hfirst : ∃ version : ProtocolVersion, version.number = first
    · obtain ⟨version, rfl⟩ := hfirst
      have hnewest : newestVersion (version.number :: versions) = version := by
        cases version <;> rfl
      rw [hnewest]
      refine ⟨mem_cons_self, fun other hother => ?_⟩
      obtain hother | hother := mem_cons.mp hother
      · exact le_of_eq hother
      · exact le_of_lt (h.1 _ hother)
    · have hskip : newestVersion (first :: versions) = newestVersion versions := by
        rw [not_exists] at hfirst
        rw [newestVersion, if_neg (Ne.symm (hfirst .v3)), if_neg (Ne.symm (hfirst .v2)),
          if_neg (Ne.symm (hfirst .v1))]
      have hrest : ∀ version : ProtocolVersion,
          version.number ∈ first :: versions ↔ version.number ∈ versions := by
        intro version
        rw [mem_cons, or_iff_right]
        exact fun heq => hfirst ⟨version, heq⟩
      rw [hskip]
      simp only [hrest] at hsome ⊢
      exact ih h.2 hsome

/-- A valid status document leads to a version. -/
theorem isNegotiated_of_valid {status : Status} (h : validStatusLifecycleVersions status = true) :
  IsNegotiated status (if 4 ≤ status.schemaVersion then
    newestVersion status.lifecycleProtocolVersions.elements.reverse else .v1)
  := by
  unfold validStatusLifecycleVersions at h
  split_ifs at h with hold hnew
  · right
    rw [if_neg (by omega)]
    exact ⟨hold, rfl⟩
  · left
    simp only [Bool.and_eq_true, contains_iff_mem] at h
    obtain ⟨⟨-, hincreasing⟩, hfirst⟩ := h
    have hdecreasing : status.lifecycleProtocolVersions.elements.reverse.Pairwise (· > ·) :=
      pairwise_reverse.mpr (increasingFrom_spec hincreasing).2
    have hspec := newestVersion_spec hdecreasing ⟨.v1, mem_reverse.mpr hfirst⟩
    simp only [mem_reverse] at hspec
    rw [if_pos (by omega)]
    exact ⟨hnew, hspec⟩

/-- A reply with a valid status document that leads to the version. -/
def Negotiates (client : Client U) (reply : HttpClient.Reply) (version : ProtocolVersion) : Prop :=
  ∃ status, IsStatus client reply status ∧ IsNegotiated status version

theorem isStatus_iff {document : Status} (h : receive U HttpClient.methodGet reply = .ok received) :
  IsStatus client reply document ↔ received.status = 200 ∧ decodeStatus received.body = some document ∧
    validStatusLifecycleVersions document = true ∧
    document.service = lit "activity-relay-directory" ∧
    validDirectoryVersionToken document.version = true ∧
    document.publicBaseURL = client.origin.string
  := by
  constructor
  · rintro ⟨⟨received', hreceived, hok, hdecode⟩, hversions, hservice, hversion, hbase⟩
    cases h.symm.trans hreceived
    exact ⟨hok, hdecode, hversions, hservice, hversion, hbase⟩
  · rintro ⟨hok, hdecode, hversions, hservice, hversion, hbase⟩
    exact ⟨⟨received, h, hok, hdecode⟩, hversions, hservice, hversion, hbase⟩

/-- `Status` sends one request, and succeeds with exactly the valid documents. -/
theorem runs_status {result : Except ClientError Status}
    (h : Prog.Runs (status zones client) τ result) :
  ∃ reply, exchanges τ = [(.get (client.target statusPath), reply)] ∧ signings τ = [] ∧
    ∀ status, result = .ok status ↔ IsStatus client reply status
  := by
  obtain ⟨url, hparse⟩ := client.parse_target plainPath_statusPath
  unfold status at h
  rw [hparse] at h
  obtain ⟨reply, τ₁, rfl, h₁⟩ := Prog.runs_op.mp h
  use reply
  cases hreceive : receive U HttpClient.methodGet reply with
  | error e =>
    rw [hreceive] at h₁
    cases h₁
    refine ⟨rfl, rfl, fun status => ⟨nofun, fun hstatus => ?_⟩⟩
    obtain ⟨received, hreceived, -⟩ := hstatus.received
    cases hreceive.symm.trans hreceived
  | ok received =>
    rw [hreceive] at h₁
    dsimp only at h₁
    simp only [isStatus_iff hreceive]
    split_ifs at h₁ with hok
    · obtain ⟨now, τ₂, rfl, h₂⟩ := Prog.runs_op.mp h₁
      cases h₂
      exact ⟨rfl, rfl, by simp [hok]⟩
    · cases hdecode : decodeStatus received.body with
      | none =>
        rw [hdecode] at h₁
        cases h₁
        exact ⟨rfl, rfl, by simp⟩
      | some document =>
        rw [hdecode] at h₁
        dsimp only at h₁
        rw [not_not] at hok
        split_ifs at h₁ with hvalid
        · cases h₁
          refine ⟨rfl, rfl, fun status => ⟨?_, ?_⟩⟩
          · rintro ⟨⟩
            exact ⟨hok, rfl, hvalid⟩
          · rintro ⟨-, ⟨⟩, -⟩
            rfl
        · cases h₁
          refine ⟨rfl, rfl, fun status => ⟨nofun, ?_⟩⟩
          rintro ⟨-, ⟨⟩, hstatus⟩
          exact absurd hstatus hvalid

/-- A version is negotiated if and only if the reply has a valid document. -/
theorem runs_negotiatedProtocolVersion {result : Except ClientError ProtocolVersion}
    (h : Prog.Runs (negotiatedProtocolVersion zones client) τ result) :
  ∃ reply, exchanges τ = [(.get (client.target statusPath), reply)] ∧ signings τ = [] ∧
    (∀ version, result = .ok version → Negotiates client reply version) ∧
    (∀ e, result = .error e → ∀ version, ¬ Negotiates client reply version)
  := by
  obtain ⟨τ₁, τ₂, document, rfl, h₁, h₂⟩ := (Prog.runs_bind _ _).mp h
  obtain ⟨reply, hexchanges, hsignings, hstatus⟩ := runs_status h₁
  cases document with
  | error e =>
    cases h₂
    rw [append_nil]
    refine ⟨reply, hexchanges, hsignings, nofun, ?_⟩
    rintro e' - version ⟨status, hvalid, -⟩
    cases (hstatus status).mpr hvalid
  | ok status =>
    have hvalid := (hstatus status).mp rfl
    have hend : τ₂ = [] ∧ result = .ok (if 4 ≤ status.schemaVersion then
        newestVersion status.lifecycleProtocolVersions.elements.reverse else .v1) := by
      dsimp only at h₂
      split_ifs at h₂ ⊢ <;> cases h₂ <;> exact ⟨rfl, rfl⟩
    obtain ⟨rfl, rfl⟩ := hend
    rw [append_nil]
    refine ⟨reply, hexchanges, hsignings, ?_, nofun⟩
    rintro version ⟨⟩
    exact ⟨status, hvalid, isNegotiated_of_valid hvalid.versions⟩

end Runs

/-- What a run does after it has negotiated a version: the requests that it sends, in order, with
their replies, the requests that it hands to the signer, and its result. -/
structure ReconciledAt (client : Client U) (version : ProtocolVersion)
    (lifecycle : List (ClientRequest × HttpClient.Reply))
    (signed : List (ClientRequest × Option SignError)) (result : Except Failure Response) : Prop where
  order : ∃ operations, operations <+: [.heartbeat, .register, .heartbeat] ∧
    List.Forall₂ (fun operation exchange => IsLifecycle client version operation exchange.1)
      operations lifecycle
  register : (∃ signing ∈ signed, IsLifecycle client version .register signing.1) ↔
    ∃ exchange ∈ lifecycle.head?, IsNotRegistered U version exchange.2
  sent : (∃ exchange ∈ lifecycle, IsLifecycle client version .register exchange.1) ↔
    (∃ exchange ∈ lifecycle.head?, IsNotRegistered U version exchange.2) ∧
      ∀ signing ∈ signed, IsLifecycle client version .register signing.1 → signing.2 = none
  success : ∀ response, result = .ok response → ∃ request reply,
    lifecycle.getLast? = some (request, reply) ∧ IsLifecycle client version .heartbeat request ∧
    IsSuccess client version .heartbeat reply response

section Reconciled

variable {heartbeat register : ClientRequest}
  (hheartbeat : IsLifecycle client version .heartbeat heartbeat) {result : Except Failure Response}
include hheartbeat

theorem not_isLifecycle_register :
  ¬ IsLifecycle client version .register heartbeat
  := by
  intro hregister
  cases hheartbeat.unique hregister

/-- Nothing is sent if the heartbeat cannot be signed. -/
theorem reconciledAt_unsigned (e : SignError) :
  ReconciledAt client version [] [(heartbeat, some e)] (.error e.failure)
  := by
  have hnot := not_isLifecycle_register hheartbeat
  refine ⟨⟨[], by simp, .nil⟩, ?_, ?_, nofun⟩
  · simp [hnot]
  · simp

theorem reconciledAt_heartbeat {reply : HttpClient.Reply}
    (hanswer : Answers client version .heartbeat reply result)
    (hreply : ¬ IsNotRegistered U version reply) :
  ReconciledAt client version [(heartbeat, reply)] [(heartbeat, none)] result
  := by
  have hnot := not_isLifecycle_register hheartbeat
  refine ⟨⟨[.heartbeat], by simp, .cons hheartbeat .nil⟩, ?_, ?_, ?_⟩
  · simp [hnot, hreply]
  · simp [hnot, hreply]
  · intro response hresult
    exact ⟨heartbeat, reply, rfl, hheartbeat, hanswer.success response hresult⟩

variable (hregister : IsLifecycle client version .register register) {reply : HttpClient.Reply}
  (hreply : IsNotRegistered U version reply)
include hregister hreply

theorem reconciledAt_registerUnsigned (e : SignError) :
  ReconciledAt client version [(heartbeat, reply)] [(heartbeat, none), (register, some e)]
    (.error e.failure)
  := by
  have hnot := not_isLifecycle_register hheartbeat
  refine ⟨⟨[.heartbeat], by simp, .cons hheartbeat .nil⟩, ?_, ?_, nofun⟩
  · simp [hregister, hreply]
  · simp [hnot, hregister]

/-- The requests after the registration has been sent. -/
theorem reconciledAt_registered {reply' : HttpClient.Reply}
    {lifecycle : List (ClientRequest × HttpClient.Reply)}
    {signed : List (ClientRequest × Option SignError)}
    (horder : ∃ operations, operations <+: [.heartbeat] ∧
      List.Forall₂ (fun operation exchange => IsLifecycle client version operation exchange.1)
        operations lifecycle)
    (hsigned : ∀ signing ∈ signed, IsLifecycle client version .heartbeat signing.1)
    (hsuccess : ∀ response, result = .ok response → ∃ request reply,
      lifecycle.getLast? = some (request, reply) ∧ IsLifecycle client version .heartbeat request ∧
      IsSuccess client version .heartbeat reply response) :
  ReconciledAt client version ((heartbeat, reply) :: (register, reply') :: lifecycle)
    ((heartbeat, none) :: (register, none) :: signed) result
  := by
  obtain ⟨operations, ⟨rest, hoperations⟩, hlifecycle⟩ := horder
  refine ⟨⟨.heartbeat :: .register :: operations, ⟨rest, ?_⟩,
    .cons hheartbeat (.cons hregister hlifecycle)⟩, ?_, ?_, ?_⟩
  · rw [cons_append, cons_append, hoperations]
  · simp [hregister, hreply]
  · have hlater : ∀ signing ∈ signed, ¬ IsLifecycle client version .register signing.1 :=
      fun signing hmem => not_isLifecycle_register (hsigned signing hmem)
    simp only [mem_cons, exists_eq_or_imp, hregister, true_or, or_true, List.head?_cons,
      Option.mem_def, Option.some.injEq, exists_eq_left', hreply, true_and, true_iff]
    rintro signing (rfl | rfl | hmem) hlifecycle
    · rfl
    · rfl
    · exact absurd hlifecycle (hlater signing hmem)
  · intro response hresult
    obtain ⟨request, reply'', hlast, hrequest, hsuccess⟩ := hsuccess response hresult
    refine ⟨request, reply'', ?_, hrequest, hsuccess⟩
    rw [List.getLast?_cons, List.getLast?_cons, hlast]
    rfl

end Reconciled

section Main

variable {zones : GoString → ℤ → ℤ} {τ : ClientTrace} {result : Except Failure Response}

/-- A run after the first heartbeat has been answered with the error that the relay is not
registered. -/
theorem reconciledAt_register {heartbeat : ClientRequest}
    (hheartbeat : IsLifecycle client version .heartbeat heartbeat) {reply : HttpClient.Reply}
    (hreply : IsNotRegistered U version reply)
    (h : Prog.Runs (registerVersion zones client version >>= fun registered =>
      match registered with
      | .error e => pure (.error e)
      | .ok _ => heartbeatVersion zones client version) τ result) :
  ReconciledAt client version ((heartbeat, reply) :: exchanges τ) ((heartbeat, none) :: signings τ)
    result
  := by
  obtain ⟨τ₁, τ₂, registered, rfl, h₁, h₂⟩ := (Prog.runs_bind _ _).mp h
  obtain ⟨register, hregister, ⟨e, hexchanges, hsignings, rfl⟩ | ⟨reply', hexchanges, hsignings, -⟩⟩ :=
    (attempt_registerVersion h₁)
  · cases h₂
    rw [append_nil, hexchanges, hsignings]
    exact reconciledAt_registerUnsigned hheartbeat hregister hreply e
  · rw [exchanges_append, signings_append, hexchanges, hsignings]
    cases registered with
    | error e =>
      cases h₂
      exact reconciledAt_registered hheartbeat hregister hreply ⟨[], by simp, .nil⟩ (by simp [signings])
        (nofun)
    | ok response =>
      obtain ⟨heartbeat', hheartbeat', ⟨e, hexchanges, hsignings, rfl⟩ |
        ⟨reply'', hexchanges, hsignings, hanswer⟩⟩ := attempt_heartbeatVersion h₂
      · rw [hexchanges, hsignings]
        exact reconciledAt_registered hheartbeat hregister hreply ⟨[], by simp, .nil⟩
          (by simpa using hheartbeat') (nofun)
      · rw [hexchanges, hsignings]
        refine reconciledAt_registered hheartbeat hregister hreply
          ⟨[.heartbeat], by simp, .cons hheartbeat' .nil⟩ (by simpa using hheartbeat') ?_
        intro response hresult
        exact ⟨heartbeat', reply'', rfl, hheartbeat', hanswer.success response hresult⟩

/-- A run after a version has been negotiated. -/
theorem reconciledAt_version
    (h : Prog.Runs (heartbeatVersion zones client version >>= fun first =>
      match first with
      | .ok response => pure (.ok response)
      | .error (.client (.protocol .relayNotRegistered _)) =>
          registerVersion zones client version >>= fun registered =>
            match registered with
            | .error e => pure (.error e)
            | .ok _ => heartbeatVersion zones client version
      | .error e => pure (.error e)) τ result) :
  ReconciledAt client version (exchanges τ) (signings τ) result
  := by
  obtain ⟨τ₁, τ₂, first, rfl, h₁, h₂⟩ := (Prog.runs_bind _ _).mp h
  obtain ⟨heartbeat, hheartbeat, ⟨e, hexchanges, hsignings, rfl⟩ |
    ⟨reply, hexchanges, hsignings, hanswer⟩⟩ := (attempt_heartbeatVersion h₁)
  · have hend : τ₂ = [] ∧ result = .error e.failure := by
      cases e <;> cases h₂ <;> exact ⟨rfl, rfl⟩
    obtain ⟨rfl, rfl⟩ := hend
    rw [append_nil, hexchanges, hsignings]
    exact reconciledAt_unsigned hheartbeat e
  · rw [exchanges_append, signings_append, hexchanges, hsignings]
    split at h₂
    case h_1 response =>
      cases h₂
      apply reconciledAt_heartbeat hheartbeat hanswer
      intro hreply
      obtain ⟨retryAfter, ⟨⟩⟩ := hanswer.notRegistered.mpr hreply
    case h_2 retryAfter =>
      have hreply := hanswer.notRegistered.mp ⟨retryAfter, rfl⟩
      exact reconciledAt_register hheartbeat hreply h₂
    case h_3 e hother =>
      cases h₂
      apply reconciledAt_heartbeat hheartbeat hanswer
      intro hreply
      obtain ⟨retryAfter, heq⟩ := hanswer.notRegistered.mpr hreply
      exact hother retryAfter (Except.error.inj heq)

/-- **The requests of a heartbeat with a registration.** A run sends a status request first. If the
reply is no valid status document, it sends nothing else and fails. Otherwise it goes on in the
version that the document leads to. -/
theorem runs_heartbeatWithRegisterReconciliation
    (h : Prog.Runs (heartbeatWithRegisterReconciliationNegotiated zones client) τ result) :
  ∃ reply lifecycle, exchanges τ = (.get (client.target statusPath), reply) :: lifecycle ∧
    ((∃ version, Negotiates client reply version ∧
        ReconciledAt client version lifecycle (signings τ) result) ∨
      (∀ version, ¬ Negotiates client reply version) ∧ lifecycle = [] ∧ signings τ = [] ∧
        ∃ e, result = .error e)
  := by
  obtain ⟨τ₁, τ₂, negotiated, rfl, h₁, h₂⟩ := (Prog.runs_bind _ _).mp h
  obtain ⟨reply, hexchanges, hsignings, hok, herror⟩ := runs_negotiatedProtocolVersion h₁
  rw [exchanges_append, signings_append, hexchanges, hsignings]
  refine ⟨reply, exchanges τ₂, rfl, ?_⟩
  cases negotiated with
  | error e =>
    cases h₂
    exact .inr ⟨herror e rfl, rfl, rfl, _, rfl⟩
  | ok version =>
    exact .inl ⟨version, hok version rfl, reconciledAt_version h₂⟩

/-! ### A directory that does not know the relay -/

theorem parseOrigin_directory :
  parseOrigin .identity (lit "https://directory.example") =
    some { scheme := lit "https", host := lit "directory.example" }
  := by decide +kernel

def directoryClient : Client .identity where
  origin := { scheme := lit "https", host := lit "directory.example" }
  relayActor := lit "https://relay.example/actor"
  publicBaseURL := lit "https://relay.example"
  profile := {}
  telemetry := false
  accepted := ⟨_, parseOrigin_directory⟩

def jsonReply (statusCode : ℕ) (body : GoString) : HttpClient.Reply :=
  .response ⟨statusCode, [],
    fun name => if name = lit "Content-Type" then [lit "application/json"] else [], body, none⟩

def directoryStatus : GoString :=
  lit "\x7b\"schema_version\":4,\"lifecycle_protocol_versions\":[1,3]," ++
    lit "\"service\":\"activity-relay-directory\",\"version\":\"1.0\"," ++
    lit "\"public_base_url\":\"https://directory.example\",\"lifecycle_enabled\":true," ++
    lit "\"lifecycle_available\":true,\"enrollment_open\":true," ++
    lit "\"public_listing_enabled\":true,\"public_listing_available\":true\x7d"

def notRegistered : GoString :=
  lit "\x7b\"protocol_version\":3,\"error\":\x7b\"code\":\"relay_not_registered\"," ++
    lit "\"message\":\"unknown\"\x7d\x7d"

def successDocument (operation outcome : GoString) : GoString :=
  lit "\x7b\"protocol_version\":3,\"operation\":\"" ++ operation ++ lit "\",\"outcome\":\"" ++
    outcome ++ lit "\",\"relay_actor\":\"https://relay.example/actor\"\x7d"

/-- The replies of a directory that does not know the relay at first, by the number of the call. -/
def directoryReply (n : ℕ) : HttpClient.Reply :=
  if n = 0 then jsonReply 200 directoryStatus
  else if n = 2 then jsonReply 409 notRegistered
  else if n = 5 then jsonReply 201 (successDocument (lit "register") (lit "created"))
  else jsonReply 200 (successDocument (lit "heartbeat") (lit "recorded"))

def directoryEnvironment (n : ℕ) : (o : ClientOp) → ClientOp.Reply o
  | .exchange _ => directoryReply n
  | .sign _ => none
  | .telemetry => none
  | .now => 0

def directoryRun : ClientTrace × Except Failure Response :=
  (heartbeatWithRegisterReconciliationNegotiated (fun _ _ => 0) directoryClient).exec
    directoryEnvironment

theorem length_exchanges_directoryRun :
  (exchanges directoryRun.1).length = 4 ∧
    directoryRun.2 = .ok ⟨3, lit "heartbeat", lit "recorded", lit "https://relay.example/actor"⟩
  := by decide +kernel

/-- A run of all four requests, which succeeds. -/
theorem directoryRun_reconciledAt :
  directoryRun.2 = .ok ⟨3, lit "heartbeat", lit "recorded", lit "https://relay.example/actor"⟩ ∧
    ∃ version reply lifecycle, lifecycle.length = 3 ∧
      exchanges directoryRun.1 = (.get (lit "https://directory.example/v1/status"), reply) :: lifecycle ∧
      ReconciledAt directoryClient version lifecycle (signings directoryRun.1) directoryRun.2
  := by
  obtain ⟨hlength, hresult⟩ := length_exchanges_directoryRun
  refine ⟨hresult, ?_⟩
  obtain ⟨reply, lifecycle, hexchanges, ⟨version, -, hreconciled⟩ | ⟨-, rfl, -, -⟩⟩ :=
    runs_heartbeatWithRegisterReconciliation (Prog.runs_exec directoryEnvironment
      (heartbeatWithRegisterReconciliationNegotiated (fun _ _ => 0) directoryClient))
  · refine ⟨version, reply, lifecycle, ?_, hexchanges, hreconciled⟩
    have hfour := (congrArg List.length hexchanges).symm.trans hlength
    exact Nat.succ.inj hfour
  · have hfour := (congrArg List.length hexchanges).symm.trans hlength
    cases hfour

end Main

/-! ### The client of the scheduler -/

/-- The error that the scheduler sees. It takes an error of the signature for one of the
configuration. -/
def Failure.clientError : Failure → ClientError
  | .client e => e
  | .signature => .configuration

/-- The result that the scheduler sees of an operation. -/
def seen (operation : Operation) (version : ProtocolVersion) :
    Except Failure Response → Except ClientError Directory.Response
  | .ok _ => .ok ⟨operation, version⟩
  | .error e => .error e.clientError

/-- A result, and what the scheduler sees of it. -/
inductive Abstracts : Except Failure Response → Except ClientError Directory.Response → Prop
  | ok {response : Response} {operation : Operation} {version : ProtocolVersion}
      (hoperation : response.operation = operationText operation)
      (hversion : response.protocolVersion = version.number) :
      Abstracts (.ok response) (.ok ⟨operation, version⟩)
  | error (e : Failure) : Abstracts (.error e) (.error e.clientError)

/-- Whatever a run of the client gives, the scheduler sees what a run of its own client gives. -/
def Refines (p : ClientM (Except Failure Response))
    (q : DirectoryM (Except ClientError Directory.Response)) : Prop :=
  ∀ {τ : ClientTrace} {result : Except Failure Response}, Prog.Runs p τ result →
    ∃ result', Abstracts result result' ∧ ∃ σ, Prog.Runs q σ result'

section Abstract

variable {zones : GoString → ℤ → ℤ} {τ : ClientTrace} {result : Except Failure Response}

theorem Attempt.abstracts (h : Attempt client version operation τ result) :
  Abstracts result (seen operation version result)
  := by
  cases result with
  | error e => exact .error e
  | ok response =>
    obtain ⟨request, -, ⟨e, -, -, ⟨⟩⟩ | ⟨reply, -, -, hanswer⟩⟩ := h
    have hsuccess := hanswer.success response rfl
    exact .ok hsuccess.sameOperation hsuccess.protocolVersion

/-- Every result of an operation is one that the client of the scheduler can have. -/
theorem runs_sendVersion_seen (operation : Operation) (version : ProtocolVersion)
    (result : Except Failure Response) :
  ∃ σ, Prog.Runs (Directory.sendVersion operation version) σ (seen operation version result)
  := by
  cases result with
  | error e => exact Prog.exists_runs_op (.error e.clientError) ⟨[], .pure _⟩
  | ok response => exact Prog.exists_runs_op (.ok ()) ⟨[], .pure _⟩

theorem refines_sendVersion {p : ClientM (Except Failure Response)}
    (hp : ∀ {τ result}, Prog.Runs p τ result → Attempt client version operation τ result) :
  Refines p (Directory.sendVersion operation version)
  := by
  intro τ result h
  exact ⟨_, (hp h).abstracts, runs_sendVersion_seen operation version result⟩

/-- **Refinement of the operations.** Both clients negotiate a version first, so it is enough to
compare what they do with it. -/
theorem refines_negotiated {p : ProtocolVersion → ClientM (Except Failure Response)}
    {q : ProtocolVersion → DirectoryM (Except ClientError Directory.Response)}
    (hversion : ∀ version, Refines (p version) (q version)) :
  Refines
    (negotiatedProtocolVersion zones client >>= fun negotiated =>
      match negotiated with
      | .error e => pure (.error (.client e))
      | .ok version => p version)
    (Directory.negotiatedProtocolVersion >>= fun negotiated =>
      match negotiated with
      | .error e => pure (.error e)
      | .ok version => q version)
  := by
  intro τ result h
  obtain ⟨τ₁, τ₂, negotiated, rfl, h₁, h₂⟩ := (Prog.runs_bind _ _).mp h
  cases negotiated with
  | error e =>
    cases h₂
    exact ⟨.error e, .error (.client e), Prog.exists_runs_op (.error e) ⟨[], .pure _⟩⟩
  | ok version =>
    obtain ⟨result', habstracts, hruns⟩ := hversion version h₂
    exact ⟨result', habstracts, Prog.exists_runs_op (.ok version) hruns⟩

theorem registerNegotiated_refines :
  Refines (registerNegotiated zones client) Directory.registerNegotiated
  := refines_negotiated (fun _ => refines_sendVersion attempt_registerVersion)

theorem heartbeatNegotiated_refines :
  Refines (heartbeatNegotiated zones client) Directory.heartbeatNegotiated
  := refines_negotiated (fun _ => refines_sendVersion attempt_heartbeatVersion)

theorem unregisterNegotiated_refines :
  Refines (unregisterNegotiated zones client) Directory.unregisterNegotiated
  := refines_negotiated (fun _ => refines_sendVersion attempt_unregisterVersion)

/-- **Refinement of a heartbeat with a registration.** -/
theorem heartbeatWithRegisterReconciliation_refines :
  Refines (heartbeatWithRegisterReconciliationNegotiated zones client)
    Directory.heartbeatWithRegisterReconciliationNegotiated
  := by
  refine refines_negotiated (fun version τ result h => ?_)
  obtain ⟨τ₁, τ₂, first, rfl, h₁, h₂⟩ := (Prog.runs_bind _ _).mp h
  have hfirst := runs_sendVersion_seen .heartbeat version first
  have habstracts := (attempt_heartbeatVersion h₁).abstracts
  split at h₂
  case h_1 response =>
    cases h₂
    exact ⟨_, habstracts, Prog.exists_runs_bind hfirst ⟨[], .pure _⟩⟩
  case h_2 retryAfter =>
    obtain ⟨τ₂, τ₃, registered, rfl, h₂, h₃⟩ := (Prog.runs_bind _ _).mp h₂
    have hregistered := runs_sendVersion_seen .register version registered
    cases registered with
    | error e =>
      cases h₃
      refine ⟨_, .error e, Prog.exists_runs_bind hfirst ?_⟩
      exact Prog.exists_runs_bind hregistered ⟨[], .pure _⟩
    | ok response =>
      refine ⟨_, (attempt_heartbeatVersion h₃).abstracts, Prog.exists_runs_bind hfirst ?_⟩
      exact Prog.exists_runs_bind hregistered (runs_sendVersion_seen .heartbeat version result)
  case h_3 e hother =>
    cases h₂
    refine ⟨_, .error e, Prog.exists_runs_bind hfirst ⟨[], ?_⟩⟩
    cases e with
    | signature => exact .pure _
    | client e =>
      split
      case h_1 response heq => cases heq
      case h_2 retryAfter heq =>
        cases heq
        exact absurd rfl (hother retryAfter)
      case h_3 e' _ heq =>
        cases heq
        exact .pure _

end Abstract

end DirectoryClient
