import ActivityRelay.HttpMessage.Request

/-!
# A client that follows redirects

`Do` of Go's `http.Client` without a `CheckRedirect` function. The servers are given by the replies
to the requests of a call, in order: a response, or an error of the transport. A response with one
of five statuses and a `Location` is followed. After a `301`, `302` or `303` the next request is a
`GET` without a body, and after a `307` or `308` it has the method of the last one, and the body
unless an earlier redirect has dropped it. There are at most ten requests.

A call that ends with a success ends with a success for a request with the method and the body of
the first one if and only if every redirect on the way was a `307` or `308` (`sends_iff`).
-/

namespace HttpClient

open GoString HttpMessage NetUrl Option

/-! ### Messages -/

/-- A request, without its headers. The body can be sent again. -/
structure Request where
  method : GoString
  url : URL
  body : GoString
  deriving DecidableEq

/-- A response, with the part of its body that can be read and the error after it. -/
structure Response where
  statusCode : ℕ
  status : GoString
  header : Header
  body : GoString
  readError : Option GoString

/-- The reference in the `Location`, if there is one that parses. -/
def Response.reference? (r : Response) : Option URL :=
  let location := r.header.get (lit "Location")
  if location = [] then none else parse location

/-- An error of the transport. -/
structure TransportError where
  timeout : Bool
  text : GoString
  deriving DecidableEq, Repr

/-- What becomes of a request. -/
inductive Reply
  | failed (e : TransportError)
  | response (r : Response)

/-- The errors of the client. -/
inductive ClientError
  | transport (e : TransportError)
  | location (value : GoString)
  | tooManyRedirects
  deriving DecidableEq, Repr

/-- The text of an error. That of a `Location` that does not parse ends with the error of the
parser, which is not modelled. -/
def ClientError.text : ClientError → GoString
  | transport e => e.text
  | location value => lit "failed to parse Location header \"" ++ value ++ lit "\": "
  | tooManyRedirects => lit "stopped after 10 redirects"

/-- `Timeout` of an error. -/
def ClientError.timeout : ClientError → Bool
  | transport e => e.timeout
  | _ => false

/-- A request and its reply. -/
abbrev Exchange := Request × Reply

/-! ### Redirects -/

def methodGet : GoString := lit "GET"

def methodHead : GoString := lit "HEAD"

/-- `redirectBehavior`: the method of the next request and whether it has the body, for a status
that is a redirect. -/
def redirectBehavior (method : GoString) (statusCode : ℕ) : Option (GoString × Bool) :=
  if statusCode = 301 ∨ statusCode = 302 ∨ statusCode = 303 then
    some (if method ≠ methodGet ∧ method ≠ methodHead then methodGet else method, false)
  else if statusCode = 307 ∨ statusCode = 308 then some (method, true)
  else none

namespace Reply

/-- The redirect of a reply: the method of the next request, whether it has the body, and the
reference of the `Location`. -/
def redirect? (method : GoString) : Reply → Option (GoString × Bool × URL)
  | failed _ => none
  | response r => do
      let behavior ← redirectBehavior method r.statusCode
      let reference ← r.reference?
      return (behavior.1, behavior.2, reference)

/-- The result of a call whose last reply is not followed. A `Location` that does not parse is an
error. -/
def answer (method : GoString) : Reply → Except ClientError Response
  | failed e => .error (.transport e)
  | response r =>
      let location := r.header.get (lit "Location")
      if (redirectBehavior method r.statusCode).isSome ∧ location ≠ [] then
        .error (.location location)
      else .ok r

/-- A response with a status of the form `2xx`. -/
def successful : Reply → Bool
  | failed _ => false
  | response r => r.statusCode / 100 = 2

/-- A redirect after which the method and the body are the same. -/
def keepsRequest : Reply → Bool
  | failed _ => false
  | response r => r.statusCode = 307 ∨ r.statusCode = 308

/-- A redirect that is followed. The method has no influence on that. -/
def redirects (reply : Reply) : Bool := (reply.redirect? methodGet).isSome

end Reply

section Client

variable (resolveReference : URL → URL → URL)

/-- The request after a redirect. -/
def nextRequest (body : GoString) (includeBody : Bool) (request : Request) (method : GoString)
    (reference : URL) : Request where
  method := method
  url := resolveReference request.url reference
  body := if includeBody then body else []

/-- The loop of `Do`, with the redirects that may still be followed and whether the body is still
sent. -/
def follow (body : GoString) : (redirects : ℕ) → (includeBody : Bool) → Request → (ℕ → Reply) →
    Except ClientError Response × List Exchange
  | redirects, includeBody, request, replies =>
      match (replies 0).redirect? request.method with
      | none => ((replies 0).answer request.method, [(request, replies 0)])
      | some (method, includeBodyOnHop, reference) =>
          match redirects with
          | 0 => (.error .tooManyRedirects, [(request, replies 0)])
          | redirects + 1 =>
              let includeBody := includeBody && includeBodyOnHop
              let next := nextRequest resolveReference body includeBody request method reference
              let rest := follow body redirects includeBody next (fun i => replies (i + 1))
              (rest.1, (request, replies 0) :: rest.2)

/-- The number of redirects that are followed. The next one stops after ten requests. -/
def maximumRedirects : ℕ := 9

/-- `Do`: the result, and the requests that were made with their replies. -/
def perform (request : Request) (replies : ℕ → Reply) :
    Except ClientError Response × List Exchange :=
  follow resolveReference request.body maximumRedirects true request replies

end Client

/-! ### Replies -/

/-- The three kinds of statuses. -/
theorem redirectBehavior_cases (method : GoString) (statusCode : ℕ) :
  ((statusCode = 301 ∨ statusCode = 302 ∨ statusCode = 303) ∧ redirectBehavior method statusCode =
      some (if method ≠ methodGet ∧ method ≠ methodHead then methodGet else method, false)) ∨
    ((statusCode = 307 ∨ statusCode = 308) ∧
      redirectBehavior method statusCode = some (method, true)) ∨
    ((statusCode ≠ 307 ∧ statusCode ≠ 308) ∧ redirectBehavior method statusCode = none)
  := by
  unfold redirectBehavior
  by_cases hdrop : statusCode = 301 ∨ statusCode = 302 ∨ statusCode = 303
  · exact .inl ⟨hdrop, if_pos hdrop⟩
  · rw [if_neg hdrop]
    by_cases hkeep : statusCode = 307 ∨ statusCode = 308
    · exact .inr (.inl ⟨hkeep, if_pos hkeep⟩)
    · exact .inr (.inr ⟨not_or.mp hkeep, if_neg hkeep⟩)

theorem isSome_redirectBehavior (method method' : GoString) (statusCode : ℕ) :
  (redirectBehavior method statusCode).isSome = (redirectBehavior method' statusCode).isSome
  := by
  unfold redirectBehavior
  split_ifs <;> rfl

theorem not_successful_of_redirectBehavior {method : GoString} {statusCode : ℕ}
    (h : (redirectBehavior method statusCode).isSome) :
  statusCode / 100 ≠ 2
  := by
  obtain ⟨hstatus, -⟩ | ⟨hstatus, -⟩ | ⟨-, hnone⟩ := redirectBehavior_cases method statusCode
  · omega
  · omega
  · rw [hnone] at h
    cases h

namespace Reply

variable {method : GoString} {reply : Reply}

theorem isSome_redirect?_response (method : GoString) (r : Response) :
  ((response r).redirect? method).isSome =
    ((redirectBehavior method r.statusCode).isSome && r.reference?.isSome)
  := by
  change (do
    let behavior ← redirectBehavior method r.statusCode
    let reference ← r.reference?
    return (behavior.1, behavior.2, reference)).isSome = _
  cases redirectBehavior method r.statusCode with
  | none => rfl
  | some behavior => cases r.reference? <;> rfl

theorem isSome_redirect? (method : GoString) (reply : Reply) :
  (reply.redirect? method).isSome = reply.redirects
  := by
  cases reply with
  | failed e => rfl
  | response r =>
    rw [redirects, isSome_redirect?_response, isSome_redirect?_response,
      isSome_redirectBehavior method methodGet]

/-- The method and the body of the next request. -/
theorem redirect?_eq_some {next : GoString} {includeBody : Bool} {reference : URL}
    (h : reply.redirect? method = some (next, includeBody, reference)) :
  includeBody = reply.keepsRequest ∧
    next = if reply.keepsRequest ∨ method = methodGet ∨ method = methodHead then method
      else methodGet
  := by
  cases reply with
  | failed e => cases h
  | response r =>
    obtain ⟨behavior, hbehavior, hreference⟩ := bind_eq_some_iff.mp h
    obtain ⟨reference', -, heq⟩ := bind_eq_some_iff.mp hreference
    cases heq
    obtain ⟨hstatus, hcase⟩ | ⟨hstatus, hcase⟩ | ⟨-, hcase⟩ :=
      redirectBehavior_cases method r.statusCode
    · cases hbehavior.symm.trans hcase
      have hkeeps : (response r).keepsRequest = false := by
        simp only [keepsRequest, decide_eq_false_iff_not]
        omega
      rw [hkeeps]
      by_cases hget : method = methodGet
      · simp [hget]
      · simp [hget]
    · cases hbehavior.symm.trans hcase
      simp [keepsRequest, hstatus]
    · rw [hcase] at hbehavior
      cases hbehavior

theorem not_successful (h : reply.redirects = true) :
  reply.successful = false
  := by
  cases reply with
  | failed e => rfl
  | response r =>
    obtain ⟨redirect, hredirect⟩ := isSome_iff_exists.mp h
    obtain ⟨behavior, hbehavior, -⟩ := bind_eq_some_iff.mp hredirect
    exact decide_eq_false (not_successful_of_redirectBehavior (by rw [hbehavior]; rfl))

/-- A reply that is not followed is answered with a success if it is one. -/
theorem successful_answer_iff (method : GoString) (reply : Reply) :
  (∃ r, reply.answer method = .ok r ∧ r.statusCode / 100 = 2) ↔ reply.successful = true
  := by
  cases reply with
  | failed e => simp [answer, successful]
  | response r =>
    by_cases hbehavior : (redirectBehavior method r.statusCode).isSome
    · have hstatus := not_successful_of_redirectBehavior hbehavior
      simp only [answer, successful, hbehavior, hstatus, decide_false]
      split <;> simp [hstatus]
    · simp [answer, successful, hbehavior]

end Reply

/-! ### Calls -/

/-- A call ends with a success. -/
def Succeeds (result : Except ClientError Response) : Prop :=
  ∃ r, result = .ok r ∧ r.statusCode / 100 = 2

/-- One of the requests has the method and the body, and was answered with a success. -/
def Sends (method body : GoString) (exchanges : List Exchange) : Prop :=
  ∃ x ∈ exchanges, x.1.method = method ∧ x.1.body = body ∧ x.2.successful = true

section Calls

variable {resolveReference : URL → URL → URL} {body : GoString} {redirects : ℕ}
  {includeBody : Bool} {request : Request} {replies : ℕ → Reply}

theorem follow_last (h : (replies 0).redirects = false) :
  follow resolveReference body redirects includeBody request replies =
    ((replies 0).answer request.method, [(request, replies 0)])
  := by
  rw [← Reply.isSome_redirect? request.method, isSome_eq_false_iff,
    isNone_iff_eq_none] at h
  unfold follow
  rw [h]

theorem follow_stop (h : (replies 0).redirects = true) :
  follow resolveReference body 0 includeBody request replies =
    (.error .tooManyRedirects, [(request, replies 0)])
  := by
  rw [← Reply.isSome_redirect? request.method] at h
  obtain ⟨redirect, hredirect⟩ := isSome_iff_exists.mp h
  unfold follow
  rw [hredirect]

theorem follow_next (h : (replies 0).redirects = true) :
  ∃ next : Request,
    (next.method = if (replies 0).keepsRequest ∨ request.method = methodGet ∨
      request.method = methodHead then request.method else methodGet) ∧
    (next.body = if includeBody && (replies 0).keepsRequest then body else []) ∧
    follow resolveReference body (redirects + 1) includeBody request replies =
      ((follow resolveReference body redirects (includeBody && (replies 0).keepsRequest) next
          (fun i => replies (i + 1))).1,
        (request, replies 0) :: (follow resolveReference body redirects
          (includeBody && (replies 0).keepsRequest) next (fun i => replies (i + 1))).2)
  := by
  rw [← Reply.isSome_redirect? request.method] at h
  obtain ⟨⟨method, includeBodyOnHop, reference⟩, hredirect⟩ := isSome_iff_exists.mp h
  obtain ⟨rfl, hmethod⟩ := Reply.redirect?_eq_some hredirect
  refine ⟨nextRequest resolveReference body (includeBody && (replies 0).keepsRequest) request
    method reference, hmethod, rfl, ?_⟩
  rw [follow, hredirect]

/-- A reply is reached: those before it are redirects that are followed. -/
def Reached (replies : ℕ → Reply) (n : ℕ) : Prop := ∀ i < n, (replies i).redirects = true

theorem reached_zero :
  Reached replies 0
  := fun i hi => absurd hi i.not_lt_zero

theorem reached_succ_iff {n : ℕ} :
  Reached replies (n + 1) ↔
    (replies 0).redirects = true ∧ Reached (fun i => replies (i + 1)) n
  := by
  constructor
  · intro h
    exact ⟨h 0 n.succ_pos, fun i hi => h (i + 1) (Nat.succ_lt_succ hi)⟩
  · rintro ⟨hfirst, hrest⟩ i hi
    cases i with
    | zero => exact hfirst
    | succ i => exact hrest i (Nat.lt_of_succ_lt_succ hi)

/-- A call ends with a success if there is one after redirects that are followed. -/
theorem succeeds_follow_iff :
  Succeeds (follow resolveReference body redirects includeBody request replies).1 ↔
    ∃ n ≤ redirects, Reached replies n ∧ (replies n).successful = true
  := by
  induction redirects generalizing includeBody request replies with
  | zero =>
    by_cases h : (replies 0).redirects = true
    · rw [follow_stop h]
      simp [Succeeds, Reply.not_successful h]
    · rw [follow_last (eq_false_of_ne_true h), Succeeds, Reply.successful_answer_iff]
      simp [reached_zero]
  | succ redirects ih =>
    by_cases h : (replies 0).redirects = true
    · obtain ⟨next, -, -, hfollow⟩ := follow_next h
      rw [hfollow, ih]
      constructor
      · rintro ⟨n, hn, hreached, hsuccess⟩
        exact ⟨n + 1, Nat.succ_le_succ hn, reached_succ_iff.mpr ⟨h, hreached⟩, hsuccess⟩
      · rintro ⟨n, hn, hreached, hsuccess⟩
        cases n with
        | zero =>
          rw [Reply.not_successful h] at hsuccess
          cases hsuccess
        | succ n =>
          exact ⟨n, Nat.le_of_succ_le_succ hn, (reached_succ_iff.mp hreached).2, hsuccess⟩
    · rw [follow_last (eq_false_of_ne_true h), Succeeds, Reply.successful_answer_iff]
      constructor
      · intro hsuccess
        exact ⟨0, Nat.zero_le _, reached_zero, hsuccess⟩
      · rintro ⟨n, -, hreached, hsuccess⟩
        cases n with
        | zero => exact hsuccess
        | succ n => exact absurd (reached_succ_iff.mp hreached).1 h

/-- A `GET` stays one. -/
theorem method_follow (hmethod : request.method = methodGet) :
  ∀ x ∈ (follow resolveReference body redirects includeBody request replies).2,
    x.1.method = methodGet
  := by
  induction redirects generalizing includeBody request replies with
  | zero =>
    by_cases h : (replies 0).redirects = true
    · simp [follow_stop h, hmethod]
    · simp [follow_last (eq_false_of_ne_true h), hmethod]
  | succ redirects ih =>
    by_cases h : (replies 0).redirects = true
    · obtain ⟨next, hnext, -, hfollow⟩ := follow_next h
      rw [hfollow, List.forall_mem_cons]
      refine ⟨hmethod, ih ?_⟩
      rw [hnext, hmethod]
      simp
    · simp [follow_last (eq_false_of_ne_true h), hmethod]

/-- The successes that are reached come after redirects that keep the request. -/
def KeepsRequest (redirects : ℕ) (replies : ℕ → Reply) : Prop :=
  ∀ n ≤ redirects, Reached replies n → (replies n).successful = true →
    ∀ i < n, (replies i).keepsRequest = true

theorem keepsRequest_of_last (h : (replies 0).redirects = false) :
  KeepsRequest redirects replies
  := by
  intro n hn hreached hsuccess i hi
  cases n with
  | zero => exact absurd hi i.not_lt_zero
  | succ n =>
    rw [(reached_succ_iff.mp hreached).1] at h
    cases h

theorem keepsRequest_succ_iff (h : (replies 0).redirects = true) :
  KeepsRequest (redirects + 1) replies ↔
    ∀ n ≤ redirects, Reached (fun i => replies (i + 1)) n → (replies (n + 1)).successful = true →
      (replies 0).keepsRequest = true ∧ ∀ i < n, (replies (i + 1)).keepsRequest = true
  := by
  constructor
  · intro hkeeps n hn hreached hsuccess
    have hall := hkeeps (n + 1) (Nat.succ_le_succ hn) (reached_succ_iff.mpr ⟨h, hreached⟩) hsuccess
    exact ⟨hall 0 n.succ_pos, fun i hi => hall (i + 1) (Nat.succ_lt_succ hi)⟩
  · intro hrest n hn hreached hsuccess i hi
    cases n with
    | zero => exact absurd hi i.not_lt_zero
    | succ n =>
      obtain ⟨hfirst, hall⟩ :=
        hrest n (Nat.le_of_succ_le_succ hn) (reached_succ_iff.mp hreached).2 hsuccess
      cases i with
      | zero => exact hfirst
      | succ i => exact hall i (Nat.lt_of_succ_lt_succ hi)

theorem sends_cons_iff {method : GoString} {x : Exchange} {exchanges : List Exchange}
    (h : x.2.redirects = true) :
  Sends method body (x :: exchanges) ↔ Sends method body exchanges
  := by
  simp [Sends, Reply.not_successful h]

/-- A call that is answered at once has sent its request, if it ends with a success. -/
theorem sends_last (h : (replies 0).redirects = false) (hbody : request.body = body)
    (hsuccess : Succeeds (follow resolveReference body redirects true request replies).1) :
  Sends request.method body (follow resolveReference body redirects true request replies).2
  := by
  rw [follow_last h] at hsuccess ⊢
  exact ⟨_, List.mem_singleton_self _, rfl, hbody, (Reply.successful_answer_iff _ _).mp hsuccess⟩

/-- A call for a method other than `GET` and `HEAD` that ends with a success has sent its request
with success if and only if all redirects before it keep the request. -/
theorem sends_iff (hget : request.method ≠ methodGet) (hhead : request.method ≠ methodHead)
    (hbody : request.body = body) :
  (Succeeds (follow resolveReference body redirects true request replies).1 →
      Sends request.method body
        (follow resolveReference body redirects true request replies).2) ↔
    KeepsRequest redirects replies
  := by
  induction redirects generalizing request replies with
  | zero =>
    have hkeeps : KeepsRequest 0 replies := by
      intro n hn _ _ i hi
      omega
    simp only [hkeeps, iff_true]
    intro hsuccess
    by_cases h : (replies 0).redirects = true
    · rw [follow_stop h] at hsuccess
      obtain ⟨r, hr, -⟩ := hsuccess
      cases hr
    · exact sends_last (eq_false_of_ne_true h) hbody hsuccess
  | succ redirects ih =>
    by_cases h : (replies 0).redirects = true
    · obtain ⟨next, hmethod, hnext, hfollow⟩ := follow_next h
      rw [hfollow, keepsRequest_succ_iff h, sends_cons_iff h]
      cases hkeeps : (replies 0).keepsRequest with
      | true =>
        -- The next request is the same one, with another address.
        rw [hkeeps] at hmethod hnext
        have hsame : next.method = request.method := by rw [hmethod, if_pos (.inl rfl)]
        rw [Bool.and_true, ← hsame, ih (hsame ▸ hget) (hsame ▸ hhead) hnext, KeepsRequest]
        simp only [true_and]
      | false =>
        -- From now on there are only `GET` requests.
        have hother : next.method = methodGet := by simp [hmethod, hkeeps, hget, hhead]
        have hsends : ¬ Sends request.method body (follow resolveReference body redirects
            false next (fun i => replies (i + 1))).2 := by
          rintro ⟨x, hx, hmethod, -⟩
          exact hget (hmethod.symm.trans (method_follow hother x hx))
        rw [succeeds_follow_iff]
        simp [hsends]
    · refine iff_of_true (sends_last (eq_false_of_ne_true h) hbody) ?_
      exact keepsRequest_of_last (eq_false_of_ne_true h)

theorem perform_sends_iff (resolveReference : URL → URL → URL) (request : Request)
    (replies : ℕ → Reply) (hget : request.method ≠ methodGet)
    (hhead : request.method ≠ methodHead) :
  (Succeeds (perform resolveReference request replies).1 →
      Sends request.method request.body (perform resolveReference request replies).2) ↔
    KeepsRequest maximumRedirects replies
  := sends_iff hget hhead rfl

end Calls

end HttpClient
