import ActivityRelay.Deliver.Task
import ActivityRelay.HttpClient.Redirect
import ActivityRelay.Interaction.Trace

/-!
# Sending an activity

`sendActivityWithResponseProfile` posts the body of an activity to an inbox, with a client that
follows redirects. It reports no error if the last response has a status of the form `2xx`, and
`relayActivityV2` then counts the target as delivered. After a `301`, `302` or `303` the last
response is the answer to a `GET` without the body, so a success does not mean that the activity has
been accepted.
-/

namespace Deliver

open GoString HttpClient HttpMessage HttpSignature Interaction NetUrl Prog

/-! ### The sender -/

def maxDeliveryResponseBodyBytes : ℕ := 4096

structure DeliveryResponse where
  statusCode : ℕ := 0
  status : GoString := []
  header : Header := fun _ => []
  body : GoString := []
  bodyTruncated : Bool := false

/-- What sending depends on: how references are resolved, and the text of the error of
`appendSignatureWithProfile`, which adds headers and leaves the method and the body as they are. -/
structure Sender where
  resolveReference : URL → URL → URL
  sign : HttpClient.Request → Profile → Option GoString

/-- The part of the result that is set for any response. -/
def deliveryResponse (r : HttpClient.Response) : DeliveryResponse where
  statusCode := r.statusCode
  status := r.status
  header := r.header
  body := (lit " ").intercalate (fields (r.body.take maxDeliveryResponseBodyBytes))
  bodyTruncated := maxDeliveryResponseBodyBytes < r.body.length

/-- The error of reading the body, which is not read further than the first byte that is cut. -/
def responseReadError (r : HttpClient.Response) : Option GoString :=
  if maxDeliveryResponseBodyBytes < r.body.length then none else r.readError

/-- The result and the error for a response. -/
def deliveryResult (inboxURL : GoString) (r : HttpClient.Response) :
    DeliveryResponse × Option GoString :=
  let result := deliveryResponse r
  if r.statusCode / 100 ≠ 2 then
    match responseReadError r with
    | some e =>
        (result, some (inboxURL ++ lit ": " ++ r.status ++ lit ": unable to read response body: " ++ e))
    | none =>
        let result :=
          if result.bodyTruncated && result.body ≠ [] then
            { result with body := result.body ++ lit " [truncated]" }
          else result
        if result.body ≠ [] then
          (result, some (inboxURL ++ lit ": " ++ r.status ++ lit ": " ++ result.body))
        else (result, some (inboxURL ++ lit ": " ++ r.status))
  else (result, none)

/-- The text for an error of the client. -/
def clientErrorText (e : ClientError) : GoString :=
  if e.timeout then lit "Client.Timeout exceeded while awaiting headers" else e.text

def methodPost : GoString := lit "POST"

/-- `http.NewRequest`. An empty port is removed from the address. -/
def newDeliveryRequest (url : URL) (body : GoString) : HttpClient.Request where
  method := methodPost
  url := { url with host := trimSuffix 0x3A url.host }
  body := body

/-- `sendActivityWithResponseProfile`: the response, the error, and the requests that were made. The
text for an inbox that does not parse ends with the error of the parser, which is not modelled. -/
def Sender.sendActivityWithResponseProfile (sender : Sender) (replies : ℕ → Reply)
    (inboxURL body : GoString) (profile : Profile) :
    (DeliveryResponse × Option GoString) × List HttpClient.Exchange :=
  match parse inboxURL with
  | none => (({}, some (lit "create delivery request: ")), [])
  | some url =>
      let request := newDeliveryRequest url body
      match sender.sign request profile with
      | some e => (({}, some (lit "sign delivery request: " ++ e)), [])
      | none =>
          let done := perform sender.resolveReference request replies
          match done.1 with
          | .error e => (({}, some (inboxURL ++ lit ": " ++ clientErrorText e)), done.2)
          | .ok r => (deliveryResult inboxURL r, done.2)

/-- The reply that a worker takes it for. -/
def sendReply (result : DeliveryResponse × Option GoString) : SendReply :=
  if result.2 = none then .delivered else .failed

/-! ### What a success means -/

section Runs

variable {U : CaseTable} {configured : Option Profile} {τ : List ((o : RelayOp) × o.Reply)}

theorem runs_failAttempt {attempt : DeliveryAttempt} {activityID : GoString} {e : RelayError}
    {result : Except RelayError Unit} (h : (failAttempt attempt activityID e).Runs τ result) :
  result = .error e
  := by
  unfold failAttempt at h
  split at h
  · exact (runs_pure.mp h).2.symm
  · obtain ⟨_, _, -, hrest⟩ := runs_op.mp h
    exact (runs_pure.mp hrest).2.symm

/-- An attempt that succeeds has sent the activity without an error. -/
theorem delivered_of_runs {signature : Option Signature} {args : List GoString}
    (h : (relayActivityV2 U configured signature args).Runs τ (.ok ())) {inboxURL body : GoString}
    {profile : Profile} {reply : SendReply} (hsend : ⟨.send inboxURL body profile, reply⟩ ∈ τ) :
  reply = .delivered
  := by
  unfold relayActivityV2 at h
  split at h
  · split at h
    · cases h
    · obtain ⟨loaded, τ₁, rfl, hloaded⟩ := runs_op.mp h
      cases loaded with
      | absent | failed => cases runs_failAttempt hloaded
      | body b =>
        obtain ⟨sent, τ₂, rfl, hsent⟩ := runs_op.mp hloaded
        cases sent with
        | failed => cases runs_failAttempt hsent
        | delivered =>
          obtain ⟨_, τ₃, rfl, hfinished⟩ := runs_op.mp hsent
          cases hfinished
          simp only [List.mem_cons, List.not_mem_nil, or_false] at hsend
          obtain heq | heq | heq := hsend
          · cases heq
          · cases heq
            rfl
          · cases heq
  · cases h

end Runs

section Posted

variable (sender : Sender) (replies : ℕ → Reply) (inboxURL body : GoString) (profile : Profile)

/-- An activity that is sent without an error, and so is counted as delivered, has been posted: a
request with the method `POST` and the body of the activity was answered with `2xx`. -/
structure DeliveredIsPosted : Prop where
  sent : (sender.sendActivityWithResponseProfile replies inboxURL body profile).1.2 = none →
    Sends methodPost body (sender.sendActivityWithResponseProfile replies inboxURL body profile).2
  counted : ∀ (U : CaseTable) (configured : Option Profile) (signature : Option Signature)
    (args : List GoString) (τ : List ((o : RelayOp) × o.Reply)),
    (relayActivityV2 U configured signature args).Runs τ (.ok ()) →
    ⟨.send inboxURL body profile,
      sendReply (sender.sendActivityWithResponseProfile replies inboxURL body profile).1⟩ ∈ τ →
    Sends methodPost body (sender.sendActivityWithResponseProfile replies inboxURL body profile).2

theorem deliveryResult_eq_none_iff (r : HttpClient.Response) :
  (deliveryResult inboxURL r).2 = none ↔ r.statusCode / 100 = 2
  := by
  unfold deliveryResult
  by_cases hstatus : r.statusCode / 100 = 2
  · simp [hstatus]
  · simp only [ne_eq, hstatus, not_false_eq_true, if_true, iff_false]
    cases responseReadError r with
    | some e => simp
    | none =>
      dsimp only
      split <;> split <;> rintro ⟨⟩

/-- The error and the requests, if there is a request. -/
theorem sendActivity_of_request {url : URL} (hparse : parse inboxURL = some url)
    (hsign : sender.sign (newDeliveryRequest url body) profile = none) :
  ((sender.sendActivityWithResponseProfile replies inboxURL body profile).1.2 = none ↔
      Succeeds (perform sender.resolveReference (newDeliveryRequest url body) replies).1) ∧
    (sender.sendActivityWithResponseProfile replies inboxURL body profile).2 =
      (perform sender.resolveReference (newDeliveryRequest url body) replies).2
  := by
  simp only [Sender.sendActivityWithResponseProfile, hparse, hsign]
  cases (perform sender.resolveReference (newDeliveryRequest url body) replies).1 with
  | error e => simp [Succeeds]
  | ok r => simp [Succeeds, deliveryResult_eq_none_iff]

/-- Without a request there is an error. -/
theorem sendActivity_of_no_request
    (h : ¬ ∃ url, parse inboxURL = some url ∧
      sender.sign (newDeliveryRequest url body) profile = none) :
  (sender.sendActivityWithResponseProfile replies inboxURL body profile).1.2 ≠ none
  := by
  unfold Sender.sendActivityWithResponseProfile
  cases hparse : parse inboxURL with
  | none => simp
  | some url =>
    cases hsign : sender.sign (newDeliveryRequest url body) profile with
    | some e => simp [hsign]
    | none => exact absurd ⟨url, hparse, hsign⟩ h

/-- A success means a delivery of the body exactly if no redirect on the way drops it. -/
theorem sent_iff :
  ((sender.sendActivityWithResponseProfile replies inboxURL body profile).1.2 = none →
      Sends methodPost body
        (sender.sendActivityWithResponseProfile replies inboxURL body profile).2) ↔
    ((∃ url, parse inboxURL = some url ∧
        sender.sign (newDeliveryRequest url body) profile = none) →
      KeepsRequest maximumRedirects replies)
  := by
  by_cases hrequest : ∃ url, parse inboxURL = some url ∧
      sender.sign (newDeliveryRequest url body) profile = none
  · obtain ⟨url, hparse, hsign⟩ := id hrequest
    obtain ⟨hnone, hexchanges⟩ :=
      sendActivity_of_request sender replies inboxURL body profile hparse hsign
    have hmethod : (newDeliveryRequest url body).method = methodPost := rfl
    have hsends := perform_sends_iff sender.resolveReference (newDeliveryRequest url body) replies
      (hmethod ▸ by decide) (hmethod ▸ by decide)
    rw [hnone, hexchanges, imp_iff_right hrequest]
    exact hsends
  · have herror := sendActivity_of_no_request sender replies inboxURL body profile hrequest
    exact iff_of_true (fun hnone => absurd hnone herror) (fun h => absurd h hrequest)

/-- An activity that is sent without an error has been posted if and only if no request is made, or
every redirect before a success is one that keeps the request. -/
theorem deliveredIsPosted_iff :
  DeliveredIsPosted sender replies inboxURL body profile ↔
    ((∃ url, parse inboxURL = some url ∧
        sender.sign (newDeliveryRequest url body) profile = none) →
      KeepsRequest maximumRedirects replies)
  := by
  rw [← sent_iff]
  constructor
  · exact DeliveredIsPosted.sent
  · intro hsent
    refine ⟨hsent, fun U configured signature args τ hruns hsend => hsent ?_⟩
    have hdelivered := delivered_of_runs hruns hsend
    unfold sendReply at hdelivered
    by_contra hne
    rw [if_neg hne] at hdelivered
    cases hdelivered

end Posted

def exampleSender : Sender where
  resolveReference := fun _ reference => reference
  sign := fun _ _ => none

/-- A redirect to another page, and then a success. -/
def movedReplies : ℕ → Reply
  | 0 => .response
      { statusCode := 302
        status := lit "302 Found"
        header := Header.set (fun _ => []) (lit "Location") (lit "https://b/other")
        body := []
        readError := none }
  | _ => .response
      { statusCode := 200
        status := lit "200 OK"
        header := fun _ => []
        body := []
        readError := none }

/-- The activity counts as delivered, while the only success is that of a `GET`. -/
theorem get_counted_as_delivered :
  let sent := exampleSender.sendActivityWithResponseProfile movedReplies (lit "https://b/inbox")
    (lit "\x7b\x7d") .legacy
  sent.1.2 = none ∧ sendReply sent.1 = .delivered ∧
    sent.2.map (fun x => (x.1.method, x.1.body, x.2.successful)) =
      [(methodPost, lit "\x7b\x7d", false), (methodGet, [], true)]
  := by
  decide +kernel

end Deliver
