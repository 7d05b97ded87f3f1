import ActivityRelay.DirectoryClient.Profile
import ActivityRelay.DirectoryClient.RetryAfter
import ActivityRelay.HttpClient.Redirect
import ActivityRelay.Interaction.Trace
import ActivityRelay.Mime.MediaType

/-!
# The requests of a directory client

The client at the level of its HTTP requests. It signs a request and sends it, reads a bounded
response, and decodes the response or the error in it. Redirects are not followed. There are three
versions of the protocol, which differ in the paths, the tag of the signature, and the documents;
the version is negotiated from the status document of the directory.
-/

namespace DirectoryClient

open GoString GoTime GoJson NetUrl Directory HttpMessage Interaction

/-! ### Responses -/

def maximumResponseBytes : ℕ := 16 * 1024

/-- `Do` of an HTTP client that uses the last response instead of a redirect. A `Location` that
does not parse is an error. -/
def lastResponse (method : GoString) : HttpClient.Reply → Option HttpClient.Response
  | .failed _ => none
  | .response response =>
      let location := response.header.get (lit "Location")
      if (HttpClient.redirectBehavior method response.statusCode).isSome ∧ location ≠ [] ∧
          parse location = none then none
      else some response

/-- `readResponseBody`. One byte more than the limit is read, so that an error after that is not
seen. -/
def readResponseBody (response : HttpClient.Response) : Except ClientError GoString :=
  if maximumResponseBytes < response.body.length then .error .responseTooLarge
  else if response.readError.isSome then .error .response
  else .ok response.body

/-- The media type of JSON, without parameters. -/
def validJSONMediaType (U : CaseTable) (value : GoString) : Bool :=
  match Mime.parseMediaType U value with
  | none => false
  | some (mediaType, parameters) => mediaType = lit "application/json" && parameters.isEmpty

/-- A response whose body has been read and is of the media type of JSON. -/
structure Received where
  status : ℕ
  header : Header
  body : GoString

/-- What `Status` and the senders do with a reply before they look at its status. -/
def receive (U : CaseTable) (method : GoString) (reply : HttpClient.Reply) :
    Except ClientError Received :=
  match lastResponse method reply with
  | none => .error .transport
  | some response =>
      match readResponseBody response with
      | .error e => .error e
      | .ok body =>
          if validJSONMediaType U (response.header.get (lit "Content-Type")) then
            .ok ⟨response.statusCode, response.header, body⟩
          else .error .response

/-- A success names the version, the operation with one of its outcomes, and the relay. -/
def decodeSuccessVersion (status : ℕ) (operation : Operation) (relayActor : GoString)
    (version : ProtocolVersion) (body : GoString) : Except ClientError Response :=
  if operation = .register ∧ status ≠ 200 ∧ status ≠ 201 ∨ operation ≠ .register ∧ status ≠ 200 then
    .error .response
  else
    match decodeResponse body with
    | none => .error .response
    | some response =>
        if response.protocolVersion ≠ version.number ∨
            response.operation ≠ operationText operation ∨
            !validFor response.outcome operation ∨ response.relayActor ≠ relayActor then
          .error .response
        else .ok response

def decodeSuccess (status : ℕ) (operation : Operation) (relayActor body : GoString) :
    Except ClientError Response :=
  decodeSuccessVersion status operation relayActor .v1 body

/-! ### The status document -/

/-- The versions are increasing, and greater than `previous`. -/
def increasingFrom (previous : ℤ) : List ℤ → Bool
  | [] => true
  | version :: versions => decide (previous < version) && increasingFrom version versions

def maximumLifecycleProtocolVersions : ℕ := 8

/-- The fourth schema lists versions, in order and with the first one among them. -/
def validStatusLifecycleVersions (status : Status) : Bool :=
  let versions := status.lifecycleProtocolVersions.elements
  if status.schemaVersion = 2 ∨ status.schemaVersion = 3 then versions.length = 0
  else if status.schemaVersion = 4 then
    versions.length ≠ 0 && versions.length ≤ maximumLifecycleProtocolVersions &&
      increasingFrom 0 versions && versions.contains ProtocolVersion.v1.number
  else false

def validDirectoryVersionToken (value : GoString) : Bool :=
  value ≠ [] && value.length ≤ 64 &&
    (decode value).all (fun r => 0x61 ≤ r && r ≤ 0x7A || 0x41 ≤ r && r ≤ 0x5A ||
      0x30 ≤ r && r ≤ 0x39 || [0x2E, 0x5F, 0x2B, 0x7E, 0x2D].contains r)

/-- The newest version of the protocol in a list that begins with the last version. -/
def newestVersion : List ℤ → ProtocolVersion
  | [] => .v1
  | version :: versions =>
      if version = ProtocolVersion.v3.number then .v3
      else if version = ProtocolVersion.v2.number then .v2
      else if version = ProtocolVersion.v1.number then .v1
      else newestVersion versions

/-! ### Clients -/

/-- `Client`. Its origin has been accepted by `ParseOrigin`, and it may have a provider of
telemetry. -/
structure Client (U : CaseTable) where
  origin : URL
  relayActor : GoString
  publicBaseURL : GoString
  profile : RelayProfile
  telemetry : Bool
  accepted : ∃ value, parseOrigin U value = some origin

/-- A request; one with a body has the tag of its signature. -/
inductive ClientRequest
  | get (target : GoString)
  | post (target body tag : GoString)
  deriving DecidableEq

/-- The errors of `signWithTag`: `ErrDirectoryConfiguration`, and those of the signature itself. -/
inductive SignError
  | configuration
  | signature
  deriving DecidableEq, Repr

/-- The errors of an operation. -/
inductive Failure
  | client (e : ClientError)
  | signature
  deriving DecidableEq, Repr

def SignError.failure : SignError → Failure
  | configuration => .client .configuration
  | signature => .signature

/-- The calls of a client: an exchange over HTTP, `signWithTag` for a request, the telemetry
provider, and the clock. -/
inductive ClientOp
  | exchange (request : ClientRequest)
  | sign (request : ClientRequest)
  | telemetry
  | now
  deriving DecidableEq

/-- The replies to the calls. The signer gives its error, and the provider `none` for one. -/
abbrev ClientOp.Reply : ClientOp → Type
  | exchange _ => HttpClient.Reply
  | sign _ => Option SignError
  | telemetry => Option ℤ
  | now => ℤ

/-- A computation of a client. -/
abbrev ClientM := Prog ClientOp ClientOp.Reply

def exchange (request : ClientRequest) : ClientM HttpClient.Reply :=
  .op (ClientOp.exchange request)
def signRequest (request : ClientRequest) : ClientM (Option SignError) :=
  .op (ClientOp.sign request)
def telemetryCount : ClientM (Option ℤ) := .op ClientOp.telemetry
def clientNow : ClientM ℤ := .op ClientOp.now

def statusPath : GoString := lit "/v1/status"

/-- `operationPath`, and the paths of `sendV2` and `sendV3`. -/
def operationPath : ProtocolVersion → Operation → GoString
  | .v1, .register => lit "/v1/relays/register"
  | .v1, .heartbeat => lit "/v1/relays/heartbeat"
  | .v1, .unregister => lit "/v1/relays/unregister"
  | .v2, .register => lit "/v2/relays/register"
  | .v2, .heartbeat => lit "/v2/relays/heartbeat"
  | .v2, .unregister => lit "/v2/relays/unregister"
  | .v3, .register => lit "/v3/relays/register"
  | .v3, .heartbeat => lit "/v3/relays/heartbeat"
  | .v3, .unregister => lit "/v3/relays/unregister"

def signatureTag : ProtocolVersion → GoString
  | .v1 => lit "activity-relay-directory-v1"
  | .v2 => lit "activity-relay-directory-v2"
  | .v3 => lit "activity-relay-directory-v3"

def maximumParticipatingInstanceCount : ℤ := 10000000

section Client

variable {U : CaseTable} (zones : GoString → ℤ → ℤ) (client : Client U)

/-- The target of a request to a path of the directory. -/
def Client.target (path : GoString) : GoString := URL.string { client.origin with path := path }

/-! ### Documents -/

variable (version : ProtocolVersion) (operation : Operation)

/-- The members that all requests begin with. -/
def Client.identity : List (GoString × Json) :=
  [(lit "protocol_version", .number (formatInt version.number)),
    (lit "operation", .string (operationText operation)),
    (lit "relay_actor", .string client.relayActor)]

/-- The telemetry of a request, which is left out if there is none. -/
def telemetryMember : Option ℤ → List (GoString × Json)
  | none => []
  | some count =>
      [(lit "telemetry", .object [(lit "participating_instance_count", .number (formatInt count))])]

def Client.identityRequest : Json :=
  .object (client.identity version operation)

def Client.registerRequest : Json :=
  .object (client.identity .v1 .register ++ [(lit "public_base_url", .string client.publicBaseURL)])

def Client.v2RegisterRequest : Json :=
  .object (client.identity .v2 .register ++ [(lit "public_base_url", .string client.publicBaseURL),
    (lit "profile", profileWire client.profile)])

def Client.v3RegisterRequest (telemetry : Option ℤ) : Json :=
  .object (client.identity .v3 .register ++ [(lit "public_base_url", .string client.publicBaseURL),
    (lit "profile", profileWire client.profile)] ++ telemetryMember telemetry)

def Client.v3HeartbeatRequest (telemetry : Option ℤ) : Json :=
  .object (client.identity .v3 .heartbeat ++ telemetryMember telemetry)

/-! ### Requests -/

/-- `Status`. The document has to be one of this directory. -/
def status : ClientM (Except ClientError Status) := do
  match parse (client.target statusPath) with
  | none => return .error .configuration
  | some _ =>
      let reply ← exchange (.get (client.target statusPath))
      match receive U HttpClient.methodGet reply with
      | .error e => return .error e
      | .ok received =>
          if received.status ≠ 200 then
            let now ← clientNow
            return .error (decodeProtocolErrorAt zones received.status received.header received.body now)
          else
            match decodeStatus received.body with
            | none => return .error .response
            | some status =>
                if validStatusLifecycleVersions status ∧
                    status.service = lit "activity-relay-directory" ∧
                    validDirectoryVersionToken status.version ∧
                    status.publicBaseURL = client.origin.string then return .ok status
                else return .error .response

variable (document : Json)

/-- The signed request of an operation. -/
def Client.lifecycleRequest :
    ClientRequest :=
  .post (client.target (operationPath version operation)) (marshal document) (signatureTag version)

/-- The body of `send`, `sendV2` and `sendV3`. -/
def sendAs :
    ClientM (Except Failure Response) := do
  let request := client.lifecycleRequest version operation document
  match parse (client.target (operationPath version operation)) with
  | none => return .error (.client .configuration)
  | some _ =>
      match ← signRequest request with
      | some e => return .error e.failure
      | none =>
          let reply ← exchange request
          match receive U (lit "POST") reply with
          | .error e => return .error (.client e)
          | .ok received =>
              if 200 ≤ received.status ∧ received.status < 300 then
                match decodeSuccessVersion received.status operation client.relayActor version
                    received.body with
                | .error e => return .error (.client e)
                | .ok response => return .ok response
              else
                let now ← clientNow
                return .error (.client (decodeProtocolErrorAtVersion zones received.status
                  received.header version received.body now))

def send : ClientM (Except Failure Response) :=
  sendAs zones client .v1 operation document

def sendV2 : ClientM (Except Failure Response) :=
  sendAs zones client .v2 operation document

def sendV3 : ClientM (Except Failure Response) :=
  sendAs zones client .v3 operation document

/-- A count that is out of range is left out. -/
def currentV3Telemetry : ClientM (Option ℤ) :=
  if client.telemetry then do
    match ← telemetryCount with
    | none => return none
    | some count =>
        if count < 0 ∨ maximumParticipatingInstanceCount < count then return none
        else return some count
  else return none

/-- The profile is sent from the second version on, and telemetry in the third. -/
def registerVersion : ProtocolVersion → ClientM (Except Failure Response)
  | .v1 => send zones client .register client.registerRequest
  | .v2 => sendV2 zones client .register client.v2RegisterRequest
  | .v3 => do
      let telemetry ← currentV3Telemetry client
      sendV3 zones client .register (client.v3RegisterRequest telemetry)

def heartbeatVersion : ProtocolVersion → ClientM (Except Failure Response)
  | .v1 => send zones client .heartbeat (client.identityRequest .v1 .heartbeat)
  | .v2 => sendV2 zones client .heartbeat (client.identityRequest .v2 .heartbeat)
  | .v3 => do
      let telemetry ← currentV3Telemetry client
      sendV3 zones client .heartbeat (client.v3HeartbeatRequest telemetry)

def unregisterVersion : ProtocolVersion → ClientM (Except Failure Response)
  | .v1 => send zones client .unregister (client.identityRequest .v1 .unregister)
  | .v2 => sendV2 zones client .unregister (client.identityRequest .v2 .unregister)
  | .v3 => sendV3 zones client .unregister (client.identityRequest .v3 .unregister)

/-! ### Negotiated operations -/

/-- The newest version of the status document, or the first one before the fourth schema. -/
def negotiatedProtocolVersion : ClientM (Except ClientError ProtocolVersion) := do
  match ← status zones client with
  | .error e => return .error e
  | .ok status =>
      if 4 ≤ status.schemaVersion then
        return .ok (newestVersion status.lifecycleProtocolVersions.elements.reverse)
      else return .ok .v1

def registerNegotiated : ClientM (Except Failure Response) := do
  match ← negotiatedProtocolVersion zones client with
  | .error e => return .error (.client e)
  | .ok version => registerVersion zones client version

def heartbeatNegotiated : ClientM (Except Failure Response) := do
  match ← negotiatedProtocolVersion zones client with
  | .error e => return .error (.client e)
  | .ok version => heartbeatVersion zones client version

def unregisterNegotiated : ClientM (Except Failure Response) := do
  match ← negotiatedProtocolVersion zones client with
  | .error e => return .error (.client e)
  | .ok version => unregisterVersion zones client version

/-- If the directory does not know the relay, it is registered and the heartbeat repeated once. -/
def heartbeatWithRegisterReconciliationNegotiated : ClientM (Except Failure Response) := do
  match ← negotiatedProtocolVersion zones client with
  | .error e => return .error (.client e)
  | .ok version =>
      match ← heartbeatVersion zones client version with
      | .ok response => return .ok response
      | .error (.client (.protocol .relayNotRegistered _)) =>
          match ← registerVersion zones client version with
          | .error e => return .error e
          | .ok _ => heartbeatVersion zones client version
      | .error e => return .error e

end Client

end DirectoryClient
