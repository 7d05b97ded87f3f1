import ActivityRelay.Directory.Scheduler
import ActivityRelay.DirectoryClient.Vocabulary
import ActivityRelay.GoTime.HttpDate
import ActivityRelay.HttpMessage.Request

/-!
# Error responses

An error response of a directory is decoded to a protocol error, which carries the delay of a
`Retry-After` header up to a day. What is wrong with the response, or with the header, makes the
error one of a malformed response, which the scheduler does not retry.

A delay in seconds is read as a number of 64 bits. A longer number is read as a date, which it is
not: it is no delay of a day, but a malformed response.
-/

namespace DirectoryClient

open GoString GoTime Directory HttpMessage

/-! ### Errors -/

def maximumErrorMessage : ℕ := 256

def errorStatusMatches (code : ErrorCode) (status : ℕ) : Bool :=
  match code with
  | .invalidRequest => status = 400 ∨ status = 413
  | .unsupportedProtocolVersion => status = 400
  | .authenticationFailed => status = 401
  | .replayDetected | .relayNotRegistered => status = 409
  | .lifecycleUnavailable => status = 503
  | .enrollmentClosed | .relaySuspended => status = 403
  | .rateLimited => status = 429
  | .internal => status = 500 ∨ status = 503

/-- The errors for which `boundedRetryAfter` looks at the header. -/
def retryable (code : ErrorCode) (status : ℕ) : Bool :=
  code = .rateLimited ∨ code = .internal ∧ status = 503

section Zones

variable (zones : GoString → ℤ → ℤ)

/-- The delay that the value of a header stands for. -/
def retryAfterDelay (value : GoString) (now : ℤ) : Option ℤ :=
  match parseUint 64 value with
  | some seconds =>
      some (if maximumRetryAfter / second < seconds then maximumRetryAfter else seconds * second)
  | none =>
      match parseTime zones value with
      | none => none
      | some date => if date - now < 0 then none else some (date - now)

/-- `boundedRetryAfter`, with `none` for an error. -/
def boundedRetryAfter (code : ErrorCode) (status : ℕ) (header : Header) (now : ℤ) : Option ℤ :=
  if !retryable code status then some 0
  else
    let value := trimSpace (header.get (lit "Retry-After"))
    if value = [] then some 0
    else (retryAfterDelay zones value now).map (min · maximumRetryAfter)

def decodeProtocolErrorAtVersion (status : ℕ) (header : Header) (version : ProtocolVersion)
    (body : GoString) (now : ℤ) : ClientError :=
  match decodeErrorResponse body with
  | none => .response
  | some response =>
      match errorCode? response.error.code with
      | none => .response
      | some code =>
          if response.protocolVersion ≠ version.number ∨ response.error.message = [] ∨
              maximumErrorMessage < response.error.message.length ∨
              !errorStatusMatches code status then .response
          else
            match boundedRetryAfter zones code status header now with
            | none => .response
            | some retryAfter => .protocol code retryAfter

def decodeProtocolErrorAt (status : ℕ) (header : Header) (body : GoString) (now : ℤ) : ClientError :=
  decodeProtocolErrorAtVersion zones status header .v1 body now

end Zones

/-- A response with the status and the body of an error of the given version. -/
structure IsError (version : ProtocolVersion) (code : ErrorCode) (status : ℕ) (body : GoString) :
    Prop where
  document : ∃ message, decodeErrorResponse body = some ⟨version.number, errorText code, message⟩ ∧
    message ≠ [] ∧ message.length ≤ maximumErrorMessage
  status : errorStatusMatches code status = true

variable {version : ProtocolVersion} {code : ErrorCode} {body : GoString} {status : ℕ}

/-- What the body of an error is decoded to. -/
theorem IsError.decode (h : IsError version code status body) (zones : GoString → ℤ → ℤ)
    (header : Header) (now : ℤ) :
  decodeProtocolErrorAtVersion zones status header version body now =
    match boundedRetryAfter zones code status header now with
    | none => .response
    | some retryAfter => .protocol code retryAfter
  := by
  obtain ⟨message, hdecode, hne, hlength⟩ := h.document
  unfold decodeProtocolErrorAtVersion
  simp only [hdecode, errorCode?_errorText]
  simp [hne, hlength, h.status]

/-- Only errors are decoded to protocol errors. -/
theorem isError_of_decode {zones : GoString → ℤ → ℤ} {header : Header} {now : ℤ} {retryAfter : ℤ}
    (h : decodeProtocolErrorAtVersion zones status header version body now =
      .protocol code retryAfter) :
  IsError version code status body ∧
    boundedRetryAfter zones code status header now = some retryAfter
  := by
  unfold decodeProtocolErrorAtVersion at h
  split at h
  case h_1 => cases h
  case h_2 response hdecode =>
    split at h
    case h_1 => cases h
    case h_2 code' hcode =>
      split_ifs at h with hbad
      rw [errorCode?_eq_some] at hcode
      simp only [not_or, not_not, Bool.not_eq_true', Bool.not_eq_false, not_lt] at hbad
      obtain ⟨hversion, hmessage, hlength, hstatus⟩ := hbad
      split at h
      case h_1 => cases h
      case h_2 hretry =>
        cases h
        refine ⟨⟨⟨response.error.message, ?_, hmessage, hlength⟩, hstatus⟩, hretry⟩
        rw [hdecode, ← hversion, ← hcode]

/-! ### Delays in seconds -/

/-- The number that decimal digits stand for. -/
def decimalValue (digits : GoString) : ℕ := (parseDigits 0 digits).getD 0

theorem parseDigits_isSome {s : GoString} (h : ∀ b ∈ s, isDigit b = true) (n : ℕ) :
  (parseDigits n s).isSome
  := by
  induction s generalizing n with
  | nil => rfl
  | cons b s ih =>
    rw [List.forall_mem_cons] at h
    obtain ⟨d, hd⟩ := Option.isSome_iff_exists.mp (isSome_digitValue h.1)
    rw [parseDigits, hd, Option.bind_some]
    exact ih h.2 _

theorem isSpaceByte_digit {b : UInt8} (h : isDigit b = true) :
  b.toNat < runeSelf ∧ isSpaceByte b = false
  := by
  rw [isDigit_iff] at h
  constructor
  · unfold runeSelf
    omega
  · rw [← Bool.not_eq_true, isSpaceByte_iff]
    omega

/-- Digits are a delay if their number has 64 bits. -/
theorem retryAfterDelay_digits (zones : GoString → ℤ → ℤ) {digits : GoString} (hne : digits ≠ [])
    (h : ∀ b ∈ digits, isDigit b = true) (now : ℤ) :
  (retryAfterDelay zones digits now).map (min · maximumRetryAfter) =
    if decimalValue digits < 2 ^ 64 then some (min (decimalValue digits * second) maximumRetryAfter)
    else none
  := by
  obtain ⟨n, hn⟩ := Option.isSome_iff_exists.mp (parseDigits_isSome h 0)
  have hvalue : decimalValue digits = n := by rw [decimalValue, hn, Option.getD_some]
  rw [hvalue]
  unfold retryAfterDelay parseUint
  rw [if_neg hne, hn]
  split_ifs with hfits
  · rw [Option.filter_some_pos (by simpa using hfits)]
    have hmaximum : maximumRetryAfter = 86400 * 1000000000 := rfl
    have hsecond : second = 1000000000 := rfl
    simp only [Option.map_some, Option.some.injEq, hmaximum, hsecond]
    split_ifs
    · omega
    · omega
  · obtain ⟨b, s, rfl⟩ := List.exists_cons_of_ne_nil hne
    rw [Option.filter_some_neg (by simpa using hfits),
      parseTime_digit zones (h b List.mem_cons_self)]
    rfl

/-- For every number of seconds in the header of an error that is retried: it is taken as a delay
of at most a day, and the error is retried, if and only if it is a number of 64 bits. -/
theorem retryAfter_digits_iff (zones : GoString → ℤ → ℤ) {version : ProtocolVersion}
    {code : ErrorCode} {status : ℕ} {header : Header} {body : GoString}
    (herror : IsError version code status body) (hretryable : retryable code status = true)
    (hne : header.get (lit "Retry-After") ≠ [])
    (hdigits : ∀ b ∈ header.get (lit "Retry-After"), isDigit b = true) (now : ℤ) :
  (boundedRetryAfter zones code status header now =
      some (min (decimalValue (header.get (lit "Retry-After")) * second) (24 * hour)) ∧
    (classifyFailure
      (decodeProtocolErrorAtVersion zones status header version body now)).1 = .retrying) ↔
    decimalValue (header.get (lit "Retry-After")) < 2 ^ 64
  := by
  have hbounded : boundedRetryAfter zones code status header now =
      if decimalValue (header.get (lit "Retry-After")) < 2 ^ 64 then
        some (min (decimalValue (header.get (lit "Retry-After")) * second) maximumRetryAfter)
      else none := by
    unfold boundedRetryAfter
    simp only [hretryable, trimSpace_eq_self (fun b hb => isSpaceByte_digit (hdigits b hb)), hne,
      retryAfterDelay_digits zones hne hdigits now]
    rfl
  rw [herror.decode, hbounded]
  constructor
  · rintro ⟨hdelay, -⟩
    by_contra hfits
    rw [if_neg hfits] at hdelay
    cases hdelay
  · intro hfits
    rw [if_pos hfits]
    refine ⟨rfl, ?_⟩
    simp only [retryable, decide_eq_true_eq] at hretryable
    obtain rfl | ⟨rfl, -⟩ := hretryable
    · rfl
    · rfl

/-- The body of an error response. -/
def rateLimitedBody : GoString :=
  lit "\x7b\"protocol_version\":1,\"error\":\x7b\"code\":\"rate_limited\",\"message\":\"bounded\"\x7d\x7d"

theorem isError_rateLimitedBody :
  IsError .v1 .rateLimited 429 rateLimitedBody
  := by
  refine ⟨⟨lit "bounded", ?_, ?_, ?_⟩, rfl⟩
  · decide +kernel
  · decide
  · decide

/-- The header of a response with a delay. -/
def retryAfterHeader (value : GoString) : Header :=
  Header.set (fun _ => []) (lit "Retry-After") value

theorem retryAfter_twoHours :
  IsError .v1 .rateLimited 429 rateLimitedBody ∧
    boundedRetryAfter (fun _ _ => 0) .rateLimited 429 (retryAfterHeader (lit "7200")) 0 =
      some (2 * hour)
  := by
  refine ⟨isError_rateLimitedBody, ?_⟩
  have hvalue : (retryAfterHeader (lit "7200")).get (lit "Retry-After") = lit "7200" :=
    Header.get_set _ _ _
  have hne : (retryAfterHeader (lit "7200")).get (lit "Retry-After") ≠ [] := by
    decide
  have hdigits : ∀ b ∈ (retryAfterHeader (lit "7200")).get (lit "Retry-After"),
      isDigit b = true := by
    decide +kernel
  have hfits : decimalValue ((retryAfterHeader (lit "7200")).get (lit "Retry-After")) < 2 ^ 64 := by
    decide +kernel
  have h := (retryAfter_digits_iff (fun _ _ => 0) isError_rateLimitedBody rfl hne hdigits 0).mpr
    hfits
  have hdelay : min ((decimalValue (lit "7200") : ℤ) * second) (24 * hour) = 2 * hour := by
    decide +kernel
  rw [hvalue, hdelay] at h
  exact h.1

/-- A number of seconds that is one too large for 64 bits is no delay, and makes the response a
malformed one. -/
theorem retryAfter_tooLong :
  boundedRetryAfter (fun _ _ => 0) .rateLimited 429
      (retryAfterHeader (lit "18446744073709551616")) 0 = none ∧
    classifyFailure (decodeProtocolErrorAt (fun _ _ => 0) 429
      (retryAfterHeader (lit "18446744073709551616")) rateLimitedBody 0) = (.malformed, .malformed)
  := by
  constructor
  · decide +kernel
  · decide +kernel

end DirectoryClient
