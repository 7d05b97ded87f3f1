import ActivityRelay.GoString.Number
import ActivityRelay.GoTime.Time

/-!
# The persisted scheduler state

The state of one directory, as the scheduler and the commands use it and as the Redis hash
holds it: nine fields of text. `load` is the reading of the hash, which rejects a field that
is malformed, and `stateArguments` its writing. Instants are written in whole seconds, and
both the zero instant and the Unix epoch are written as `0`, which is read as the zero
instant (`parseTime_unixString`).
-/

namespace Directory

open GoString GoTime

/-- The last outcome of an operation; `unset` is the empty text. -/
inductive LastOutcome
  | unset
  | registered
  | heartbeat
  | retrying
  | authentication
  | policy
  | suspended
  | malformed
  | disabled
  deriving DecidableEq, Repr

namespace LastOutcome

def string : LastOutcome → GoString
  | unset => []
  | registered => lit "registered"
  | heartbeat => lit "heartbeat"
  | retrying => lit "retrying"
  | authentication => lit "authentication"
  | policy => lit "policy"
  | suspended => lit "suspended"
  | malformed => lit "malformed"
  | disabled => lit "disabled"

/-- The outcome a text stands for (`validOutcome`). -/
def parse (s : GoString) : Option LastOutcome :=
  [unset, registered, heartbeat, retrying, authentication, policy, suspended, malformed,
    disabled].find? (fun o => o.string = s)

theorem parse_string :
  ∀ o : LastOutcome, parse o.string = some o
  := by
  intro o
  cases o <;> rfl

end LastOutcome

/-- The diagnostic of an operation; `unset` is the empty text. -/
inductive Diagnostic
  | unset
  | none
  | transport
  | internal
  | rateLimited
  | authentication
  | enrollment
  | suspended
  | lifecycle
  | malformed
  | leaseLost
  | disabled
  deriving DecidableEq, Repr

namespace Diagnostic

def string : Diagnostic → GoString
  | unset => []
  | none => lit "none"
  | transport => lit "transport"
  | internal => lit "internal"
  | rateLimited => lit "rate_limited"
  | authentication => lit "authentication"
  | enrollment => lit "enrollment"
  | suspended => lit "suspended"
  | lifecycle => lit "lifecycle"
  | malformed => lit "malformed"
  | leaseLost => lit "lease_lost"
  | disabled => lit "disabled"

/-- The diagnostic a text stands for (`validDiagnostic`). -/
def parse (s : GoString) : Option Diagnostic :=
  [unset, none, transport, internal, rateLimited, authentication, enrollment, suspended,
    lifecycle, malformed, leaseLost, disabled].find? (fun d => d.string = s)

theorem parse_string :
  ∀ d : Diagnostic, parse d.string = some d
  := by
  intro d
  cases d <;> rfl

end Diagnostic

/-- The state of a directory. -/
structure State where
  registered : Bool
  lastSuccess : ℤ
  nextAttempt : ℤ
  lastOutcome : LastOutcome
  diagnostic : Diagnostic
  attempt : ℤ
  lastObserved : ℤ
  profileDigest : GoString
  profileProtocolVersion : ℤ
  deriving DecidableEq, Repr

/-- The state of a directory that has none. -/
def State.zero : State where
  registered := false
  lastSuccess := 0
  nextAttempt := 0
  lastOutcome := .unset
  diagnostic := .unset
  attempt := 0
  lastObserved := 0
  profileDigest := []
  profileProtocolVersion := 0

/-- The hash of a directory. A field that is missing is read as the empty text. -/
structure StateHash where
  registered : GoString
  lastSuccessUnix : GoString
  nextAttemptUnix : GoString
  lastOutcome : GoString
  diagnostic : GoString
  attempt : GoString
  lastObservedUnix : GoString
  profileDigest : GoString
  profileProtocolVersion : GoString
  deriving DecidableEq, Repr

def maximumAttempt : ℤ := 16

/-! ### Reading and writing -/

def parseTime (value : GoString) : Option ℤ :=
  if value = [] ∨ value = lit "0" then some 0
  else (parseInt value).bind (fun seconds => if seconds < 0 then none else some (ofUnix seconds))

def unixString (value : ℤ) : GoString :=
  if value = 0 then lit "0" else formatInt (unix value)

def isLowerHex (b : UInt8) : Bool :=
  0x30 ≤ b.toNat && b.toNat ≤ 0x39 || 0x61 ≤ b.toNat && b.toNat ≤ 0x66

/-- A digest is the lower-case hexadecimal form of 32 bytes, and only a digest has a
protocol version. -/
def validProfileState (digest : GoString) (protocolVersion : ℤ) : Bool :=
  if digest = [] then protocolVersion = 0
  else
    (protocolVersion = 1 || protocolVersion = 2 || protocolVersion = 3) &&
      digest.length = 64 && digest.all isLowerHex

def validateState (state : State) : Bool :=
  0 ≤ state.attempt && state.attempt ≤ maximumAttempt &&
    validProfileState state.profileDigest state.profileProtocolVersion

/-- A number of at most eight bits with an upper bound; the empty text is zero. -/
def parseSmall (bound : ℕ) (value : GoString) : Option ℤ :=
  if value = [] then some 0
  else ((parseUint 8 value).filter (fun n => n ≤ bound)).map (fun n : ℕ => (n : ℤ))

/-- `Load`: the state in the hash of a directory, the zero state if there is no hash, and
`none` for `ErrStore`. -/
def load : Option StateHash → Option State
  | none => some State.zero
  | some values =>
      if values.registered ≠ lit "0" ∧ values.registered ≠ lit "1" then none
      else do
        let lastSuccess ← parseTime values.lastSuccessUnix
        let nextAttempt ← parseTime values.nextAttemptUnix
        let lastObserved ← parseTime values.lastObservedUnix
        let attempt ← parseSmall 16 values.attempt
        let profileProtocolVersion ← parseSmall 3 values.profileProtocolVersion
        let lastOutcome ← LastOutcome.parse values.lastOutcome
        let diagnostic ← Diagnostic.parse values.diagnostic
        if validProfileState values.profileDigest profileProtocolVersion then
          some
            { registered := values.registered = lit "1"
              lastSuccess := lastSuccess
              nextAttempt := nextAttempt
              lastOutcome := lastOutcome
              diagnostic := diagnostic
              attempt := attempt
              lastObserved := lastObserved
              profileDigest := values.profileDigest
              profileProtocolVersion := profileProtocolVersion }
        else none

/-- The hash a state is written as. -/
def stateArguments (state : State) : StateHash where
  registered := if state.registered then lit "1" else lit "0"
  lastSuccessUnix := unixString state.lastSuccess
  nextAttemptUnix := unixString state.nextAttempt
  lastOutcome := state.lastOutcome.string
  diagnostic := state.diagnostic.string
  attempt := formatInt state.attempt
  lastObservedUnix := unixString state.lastObserved
  profileDigest := state.profileDigest
  profileProtocolVersion := formatInt state.profileProtocolVersion

/-! ### Reading what was written -/

theorem formatInt_ne_zero {n : ℤ} (hn : n ≠ 0) :
  formatInt n ≠ [] ∧ formatInt n ≠ lit "0"
  := by
  have hread : n < 0 ∨ 0 ≤ n := by omega
  rcases hread with hneg | hpos
  · rw [formatInt, if_pos hneg]
    constructor
    · apply List.cons_ne_nil
    · intro h
      have hhead : some (0x2D : UInt8) = some 0x30 := congrArg List.head? h
      exact absurd hhead (by decide)
  · constructor
    · rw [formatInt, if_neg (by omega)]
      apply formatNat_ne_nil
    · intro h
      have hdigits := parseDigits_formatNat n.natAbs
      rw [formatInt, if_neg (by omega)] at h
      rw [h] at hdigits
      have : n.natAbs = 0 := (Option.some.inj hdigits).symm
      omega

/-- An instant after the epoch is read back in whole seconds; the zero instant and the
epoch are read as the zero instant. -/
theorem parseTime_unixString {t u : ℤ} (h : parseTime (unixString t) = some u) :
  (t = 0 ∨ unix t = 0) ∧ u = 0 ∨ 0 < unix t ∧ u = truncate t
  := by
  by_cases ht : t = 0
  · subst ht
    left
    exact ⟨.inl rfl, (Option.some.inj h).symm⟩
  rw [unixString, if_neg ht] at h
  by_cases hzero : unix t = 0
  · left
    rw [hzero] at h
    exact ⟨.inr hzero, (Option.some.inj h).symm⟩
  obtain ⟨hne, hne'⟩ := formatInt_ne_zero hzero
  rw [parseTime, if_neg (by simp [hne, hne'])] at h
  obtain ⟨n, hn, hu⟩ := Option.bind_eq_some_iff.mp h
  by_cases hneg : unix t < 0
  · rw [if_pos (parseInt_formatInt_neg hneg hn)] at hu
    cases hu
  · right
    rw [parseInt_formatInt (by omega)] at hn
    split at hn
    · cases hn
      rw [if_neg hneg, ofUnix_unix] at hu
      exact ⟨by omega, (Option.some.inj hu).symm⟩
    · cases hn

/-- What is kept of a state that is written and read back: the instants in whole seconds,
and the other fields the scheduler decides by. -/
theorem load_stateArguments {state state' : State}
    (h : load (some (stateArguments state)) = some state') :
  state'.registered = state.registered ∧ state'.lastOutcome = state.lastOutcome ∧
    state'.profileDigest = state.profileDigest ∧
    parseTime (unixString state.nextAttempt) = some state'.nextAttempt ∧
    parseTime (unixString state.lastObserved) = some state'.lastObserved
  := by
  simp only [load] at h
  split at h
  · cases h
  simp only [Option.bind_eq_bind, Option.bind_eq_some_iff] at h
  obtain ⟨_, _, n, hn, o, ho, _, _, _, _, outcome, houtcome, _, _, h⟩ := h
  split at h
  · cases h
    simp only [stateArguments, LastOutcome.parse_string, Option.some.injEq] at houtcome
    have hreg : ∀ b : Bool, decide ((if b then lit "1" else lit "0") = lit "1") = b := by decide
    exact ⟨hreg state.registered, houtcome.symm, rfl, hn, ho⟩
  · cases h

end Directory
