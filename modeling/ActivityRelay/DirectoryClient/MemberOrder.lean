import ActivityRelay.DirectoryClient.Vocabulary

/-!
# The order of the members of a response

Whether the result of decoding a response depends on the order of its members. It does for a
document that is accepted and has two different values for one field, under names that differ in
case only, and it does for no other.
-/

namespace DirectoryClient

open GoString GoJson

/-- The value of a leaf. -/
abbrev LeafValue := ℤ ⊕ GoString

/-! ### The leaves of a response -/

inductive ResponseLeaf
  | protocolVersion
  | operation
  | outcome
  | relayActor
  deriving DecidableEq

def Response.get (r : Response) : ResponseLeaf → LeafValue
  | .protocolVersion => .inl r.protocolVersion
  | .operation => .inr r.operation
  | .outcome => .inr r.outcome
  | .relayActor => .inr r.relayActor

theorem Response.get_injective :
  Function.Injective Response.get
  := by
  intro r r' h
  have hversion := Sum.inl.inj (congrFun h .protocolVersion)
  have hoperation := Sum.inr.inj (congrFun h .operation)
  have houtcome := Sum.inr.inj (congrFun h .outcome)
  have hactor := Sum.inr.inj (congrFun h .relayActor)
  cases r
  cases r'
  simp_all

theorem Response.get_update (r : Response) (l : ResponseLeaf) :
  (∀ n, l ≠ .protocolVersion → Response.get { r with protocolVersion := n } l = r.get l) ∧
    (∀ s, l ≠ .operation → Response.get { r with operation := s } l = r.get l) ∧
    (∀ s, l ≠ .outcome → Response.get { r with outcome := s } l = r.get l) ∧
    ∀ s, l ≠ .relayActor → Response.get { r with relayActor := s } l = r.get l
  := by
  cases l <;> simp [Response.get]

/-- The fields of a response with their leaves. -/
def responseLeafFields : List (LeafField Response.get) := [
  (Part.single .protocolVersion (·.protocolVersion) (fun r n => { r with protocolVersion := n })
    (fun _ _ => rfl) (fun _ => rfl) (fun r n l => (r.get_update l).1 n)).leafField
      (Scalar.int.leafwise .inl) "protocol_version",
  (Part.single .operation (·.operation) (fun r s => { r with operation := s })
    (fun _ _ => rfl) (fun _ => rfl) (fun r s l => (r.get_update l).2.1 s)).leafField
      (Scalar.string.leafwise .inr) "operation",
  (Part.single .outcome (·.outcome) (fun r s => { r with outcome := s })
    (fun _ _ => rfl) (fun _ => rfl) (fun r s l => (r.get_update l).2.2.1 s)).leafField
      (Scalar.string.leafwise .inr) "outcome",
  (Part.single .relayActor (·.relayActor) (fun r s => { r with relayActor := s })
    (fun _ _ => rfl) (fun _ => rfl) (fun r s l => (r.get_update l).2.2.2 s)).leafField
      (Scalar.string.leafwise .inr) "relay_actor"]

/-- What decoding writes to the leaves of a response. -/
def responseLeafwise : Leafwise Response.get (decodeKnownStruct responseFields) :=
  Leafwise.struct responseLeafFields

/-! ### The leaves of an error response -/

inductive ErrorDocumentLeaf
  | code
  | message
  deriving DecidableEq

def ErrorDocument.get (e : ErrorDocument) : ErrorDocumentLeaf → LeafValue
  | .code => .inr e.code
  | .message => .inr e.message

theorem ErrorDocument.get_injective :
  Function.Injective ErrorDocument.get
  := by
  intro e e' h
  have hcode := Sum.inr.inj (congrFun h .code)
  have hmessage := Sum.inr.inj (congrFun h .message)
  cases e
  cases e'
  simp_all

theorem ErrorDocument.get_update (e : ErrorDocument) (l : ErrorDocumentLeaf) :
  (∀ s, l ≠ .code → ErrorDocument.get { e with code := s } l = e.get l) ∧
    ∀ s, l ≠ .message → ErrorDocument.get { e with message := s } l = e.get l
  := by
  cases l <;> simp [ErrorDocument.get]

def errorDocumentLeafFields : List (LeafField ErrorDocument.get) := [
  (Part.single .code (·.code) (fun e s => { e with code := s })
    (fun _ _ => rfl) (fun _ => rfl) (fun e s l => (e.get_update l).1 s)).leafField
      (Scalar.string.leafwise .inr) "code",
  (Part.single .message (·.message) (fun e s => { e with message := s })
    (fun _ _ => rfl) (fun _ => rfl) (fun e s l => (e.get_update l).2 s)).leafField
      (Scalar.string.leafwise .inr) "message"]

def errorDocumentLeafwise : Leafwise ErrorDocument.get (decodeKnownStruct errorDocumentFields) :=
  Leafwise.struct errorDocumentLeafFields

inductive ErrorResponseLeaf
  | protocolVersion
  | error (leaf : ErrorDocumentLeaf)
  deriving DecidableEq

def ErrorResponse.get (r : ErrorResponse) : ErrorResponseLeaf → LeafValue
  | .protocolVersion => .inl r.protocolVersion
  | .error leaf => r.error.get leaf

theorem ErrorResponse.get_injective :
  Function.Injective ErrorResponse.get
  := by
  intro r r' h
  have hversion := Sum.inl.inj (congrFun h .protocolVersion)
  have herror : r.error = r'.error :=
    ErrorDocument.get_injective (funext (fun leaf => congrFun h (.error leaf)))
  cases r
  cases r'
  simp_all

theorem ErrorResponse.get_protocolVersion (r : ErrorResponse) (n : ℤ) (l : ErrorResponseLeaf)
    (h : l ≠ .protocolVersion) :
  ErrorResponse.get { r with protocolVersion := n } l = r.get l
  := by
  cases l with
  | protocolVersion => exact absurd rfl h
  | error leaf => rfl

def ErrorResponseLeaf.inError : ErrorResponseLeaf → Option ErrorDocumentLeaf
  | .protocolVersion => none
  | .error leaf => some leaf

theorem ErrorResponse.get_inError (r : ErrorResponse) {l : ErrorResponseLeaf}
    {leaf : ErrorDocumentLeaf} (h : l.inError = some leaf) :
  r.get l = r.error.get leaf
  := by
  cases l with
  | protocolVersion => cases h
  | error leaf =>
    cases h
    rfl

theorem ErrorResponse.get_error (r : ErrorResponse) (e : ErrorDocument) {l : ErrorResponseLeaf}
    (h : l.inError = none) :
  ErrorResponse.get { r with error := e } l = r.get l
  := by
  cases l with
  | protocolVersion => rfl
  | error leaf => cases h

/-- The error document of an error response. -/
def errorPart : Part ErrorResponse.get ErrorDocument.get where
  view := (·.error)
  update r e := { r with error := e }
  leaf := ErrorResponseLeaf.inError
  view_update _ _ := rfl
  get_some := ErrorResponse.get_inError
  get_none := ErrorResponse.get_error

def errorResponseLeafFields : List (LeafField ErrorResponse.get) := [
  (Part.single .protocolVersion (·.protocolVersion) (fun r n => { r with protocolVersion := n })
    (fun _ _ => rfl) (fun _ => rfl) ErrorResponse.get_protocolVersion).leafField
      (Scalar.int.leafwise .inl) "protocol_version",
  errorPart.leafField errorDocumentLeafwise "error"]

/-- What decoding writes to the leaves of an error response. -/
def errorResponseLeafwise : Leafwise ErrorResponse.get (decodeKnownStruct errorResponseFields) :=
  Leafwise.struct errorResponseLeafFields

/-! ### Documents -/

/-- Every text that has the members of the document in some order is decoded like the document. -/
def OrderIrrelevant {σ : Type} (decode : GoString → Option σ) (body : GoString) (v : Json) : Prop :=
  ∀ body' v', parseText body' = some v' → Reorder v v' → decode body' = decode body

/-- If nothing else is wrong with the document, all values that it has for one field are the
same. -/
def Unambiguous {σ L V : Type} {get : σ → L → V} {decoder : Decoder σ} (d : Leafwise get decoder)
    (v : Json) : Prop :=
  distinctNames v = true → floatsInRange v = true → d.accepts v = true → d.Agrees v

theorem orderIrrelevant_iff {σ L V : Type} {get : σ → L → V} {decoder : Decoder σ}
    (d : Leafwise get decoder) (hget : Function.Injective get) (zero : σ) {body : GoString} {v : Json}
    (h : parseText body = some v) :
  OrderIrrelevant (decodeStrictJSON decoder zero) body v ↔ Unambiguous d v
  := by
  constructor
  · intro horder hdistinct hfloats
    rw [← d.reorder_iff hget zero]
    intro w hw
    obtain ⟨body', hbody⟩ := hw.exists_parseText h
    have heq := horder body' w hbody hw
    rwa [decodeStrictJSON_eq _ _ hbody, decodeStrictJSON_eq _ _ h,
      ← hw.distinctNames_eq, ← hw.floatsInRange_eq, hdistinct, hfloats] at heq
  · intro hvalues body' w hw hreorder
    rw [decodeStrictJSON_eq _ _ hw, decodeStrictJSON_eq _ _ h, ← hreorder.distinctNames_eq,
      ← hreorder.floatsInRange_eq]
    split_ifs with hstrict
    · rw [Bool.and_eq_true] at hstrict
      exact (d.reorder_iff hget zero v).mpr (hvalues hstrict.1 hstrict.2) w hreorder
    · rfl

/-- For every document: the order of its members is irrelevant if and only if it has no two values
for one field. -/
theorem memberOrder_iff {body : GoString} {v : Json} (h : parseText body = some v) :
  (OrderIrrelevant decodeResponse body v ↔ Unambiguous responseLeafwise v) ∧
    (OrderIrrelevant decodeErrorResponse body v ↔ Unambiguous errorResponseLeafwise v)
  := by
  constructor
  · exact orderIrrelevant_iff responseLeafwise Response.get_injective .zero h
  · exact orderIrrelevant_iff errorResponseLeafwise ErrorResponse.get_injective .zero h

/-- The members of the response to a heartbeat, up to the relay actor. -/
def heartbeatMembers : List (GoString × Json) :=
  [(lit "protocol_version", .number (lit "1")), (lit "operation", .string (lit "heartbeat")),
    (lit "outcome", .string (lit "recorded"))]

/-- A response with one relay actor. -/
def oneActor : GoString :=
  lit "\x7b\"protocol_version\":1,\"operation\":\"heartbeat\",\"outcome\":\"recorded\",\"relay_actor\":\"https://a.example/actor\"\x7d"

def oneActorValue : Json :=
  .object (heartbeatMembers ++ [(lit "relay_actor", .string (lit "https://a.example/actor"))])

set_option maxRecDepth 4000 in
theorem memberOrder_oneActor :
  parseText oneActor = some oneActorValue ∧
    OrderIrrelevant decodeResponse oneActor oneActorValue
  := by
  have hparse : parseText oneActor = some oneActorValue := rfl
  refine ⟨hparse, (memberOrder_iff hparse).1.mpr ?_⟩
  intro _ _ _ l
  cases l <;> decide +kernel

/-- A response with two relay actors. -/
def twoActors : GoString :=
  lit "\x7b\"protocol_version\":1,\"operation\":\"heartbeat\",\"outcome\":\"recorded\",\"relay_actor\":\"https://a.example/actor\",\"Relay_Actor\":\"https://b.example/actor\"\x7d"

/-- The same members, the last two of them in the other order. -/
def twoActorsSwapped : GoString :=
  lit "\x7b\"protocol_version\":1,\"operation\":\"heartbeat\",\"outcome\":\"recorded\",\"Relay_Actor\":\"https://b.example/actor\",\"relay_actor\":\"https://a.example/actor\"\x7d"

set_option maxRecDepth 4000 in
/-- Both documents are accepted, and the relay actor is the one that comes last. -/
theorem twoActors_order :
  ∃ v w, parseText twoActors = some v ∧ parseText twoActorsSwapped = some w ∧ Reorder v w ∧
    decodeResponse twoActors =
      some ⟨1, lit "heartbeat", lit "recorded", lit "https://b.example/actor"⟩ ∧
    decodeResponse twoActorsSwapped =
      some ⟨1, lit "heartbeat", lit "recorded", lit "https://a.example/actor"⟩
  := by
  refine ⟨.object (heartbeatMembers ++ [(lit "relay_actor", .string (lit "https://a.example/actor")),
    (lit "Relay_Actor", .string (lit "https://b.example/actor"))]), .object (heartbeatMembers ++
    [(lit "Relay_Actor", .string (lit "https://b.example/actor")),
      (lit "relay_actor", .string (lit "https://a.example/actor"))]), rfl, rfl, ?_, ?_, ?_⟩
  · exact .members ((List.Perm.swap _ _ _).append_left _)
  · decide +kernel
  · decide +kernel

end DirectoryClient
