import ActivityRelay.Directory.Client
import ActivityRelay.DirectoryClient.StrictJson

/-!
# The documents of a directory

The texts of the vocabulary of the protocol, and the documents that a directory sends: the response
to a lifecycle request, the error response, and the status document.
-/

namespace DirectoryClient

open GoString GoJson Directory

/-! ### Texts -/

def operationText : Operation → GoString
  | .register => lit "register"
  | .heartbeat => lit "heartbeat"
  | .unregister => lit "unregister"

def outcomeCreated : GoString := lit "created"
def outcomeUpdated : GoString := lit "updated"
def outcomeUnchanged : GoString := lit "unchanged"
def outcomeRecorded : GoString := lit "recorded"
def outcomeRemoved : GoString := lit "removed"
def outcomeAbsent : GoString := lit "absent"

def validFor (outcome : GoString) : Operation → Bool
  | .register => outcome = outcomeCreated ∨ outcome = outcomeUpdated ∨ outcome = outcomeUnchanged
  | .heartbeat => outcome = outcomeRecorded
  | .unregister => outcome = outcomeRemoved ∨ outcome = outcomeAbsent

def errorText : ErrorCode → GoString
  | .invalidRequest => lit "invalid_request"
  | .unsupportedProtocolVersion => lit "unsupported_protocol_version"
  | .authenticationFailed => lit "authentication_failed"
  | .replayDetected => lit "replay_detected"
  | .lifecycleUnavailable => lit "lifecycle_unavailable"
  | .enrollmentClosed => lit "enrollment_closed"
  | .relayNotRegistered => lit "relay_not_registered"
  | .relaySuspended => lit "relay_suspended"
  | .rateLimited => lit "rate_limited"
  | .internal => lit "internal_error"

def errorCodes : List ErrorCode :=
  [.invalidRequest, .unsupportedProtocolVersion, .authenticationFailed, .replayDetected,
    .lifecycleUnavailable, .enrollmentClosed, .relayNotRegistered, .relaySuspended, .rateLimited,
    .internal]

/-- The error code of a text that is `valid`. -/
def errorCode? (text : GoString) : Option ErrorCode :=
  errorCodes.find? (fun code => errorText code = text)

theorem errorCode?_errorText (code : ErrorCode) :
  errorCode? (errorText code) = some code
  := by
  cases code <;> decide

theorem errorCode?_eq_some {text : GoString} {code : ErrorCode} :
  errorCode? text = some code ↔ text = errorText code
  := by
  constructor
  · intro h
    have hfound := List.find?_some h
    exact (of_decide_eq_true hfound).symm
  · rintro rfl
    exact errorCode?_errorText code

/-! ### Responses -/

structure Response where
  protocolVersion : ℤ
  operation : GoString
  outcome : GoString
  relayActor : GoString
  deriving DecidableEq

def Response.zero : Response := ⟨0, [], [], []⟩

def responseFields : List (GoJson.Field Response) := [
  field "protocol_version" decodeInt (·.protocolVersion) (fun r n => { r with protocolVersion := n }),
  field "operation" decodeString (·.operation) (fun r s => { r with operation := s }),
  field "outcome" decodeString (·.outcome) (fun r s => { r with outcome := s }),
  field "relay_actor" decodeString (·.relayActor) (fun r s => { r with relayActor := s })]

def decodeResponse : GoString → Option Response :=
  decodeStrictJSON (decodeKnownStruct responseFields) .zero

structure ErrorDocument where
  code : GoString
  message : GoString
  deriving DecidableEq

def errorDocumentFields : List (GoJson.Field ErrorDocument) := [
  field "code" decodeString (·.code) (fun r s => { r with code := s }),
  field "message" decodeString (·.message) (fun r s => { r with message := s })]

structure ErrorResponse where
  protocolVersion : ℤ
  error : ErrorDocument
  deriving DecidableEq

def ErrorResponse.zero : ErrorResponse := ⟨0, ⟨[], []⟩⟩

def errorResponseFields : List (GoJson.Field ErrorResponse) := [
  field "protocol_version" decodeInt (·.protocolVersion) (fun r n => { r with protocolVersion := n }),
  field "error" (decodeKnownStruct errorDocumentFields) (·.error) (fun r e => { r with error := e })]

def decodeErrorResponse : GoString → Option ErrorResponse :=
  decodeStrictJSON (decodeKnownStruct errorResponseFields) .zero

/-! ### The status document -/

structure Status where
  schemaVersion : ℤ
  lifecycleProtocolVersions : Slice ℤ
  service : GoString
  version : GoString
  publicBaseURL : GoString
  lifecycleEnabled : Bool
  lifecycleAvailable : Bool
  enrollmentOpen : Bool
  publicListingEnabled : Bool
  publicListingAvailable : Bool
  deriving DecidableEq

def Status.zero : Status := ⟨0, ⟨[], []⟩, [], [], [], false, false, false, false, false⟩

def statusFields : List (GoJson.Field Status) := [
  field "schema_version" decodeInt (·.schemaVersion) (fun r n => { r with schemaVersion := n }),
  field "lifecycle_protocol_versions" (decodeSlice 0 decodeInt) (·.lifecycleProtocolVersions)
    (fun r l => { r with lifecycleProtocolVersions := l }),
  field "service" decodeString (·.service) (fun r s => { r with service := s }),
  field "version" decodeString (·.version) (fun r s => { r with version := s }),
  field "public_base_url" decodeString (·.publicBaseURL) (fun r s => { r with publicBaseURL := s }),
  field "lifecycle_enabled" decodeBool (·.lifecycleEnabled)
    (fun r b => { r with lifecycleEnabled := b }),
  field "lifecycle_available" decodeBool (·.lifecycleAvailable)
    (fun r b => { r with lifecycleAvailable := b }),
  field "enrollment_open" decodeBool (·.enrollmentOpen) (fun r b => { r with enrollmentOpen := b }),
  field "public_listing_enabled" decodeBool (·.publicListingEnabled)
    (fun r b => { r with publicListingEnabled := b }),
  field "public_listing_available" decodeBool (·.publicListingAvailable)
    (fun r b => { r with publicListingAvailable := b })]

def decodeStatus : GoString → Option Status :=
  decodeStrictJSON (decodeKnownStruct statusFields) .zero

end DirectoryClient
