import Mathlib.Algebra.BigOperators.Group.List.Basic
import Mathlib.Algebra.Order.BigOperators.Group.List
import Mathlib.Algebra.Order.Group.Nat
import ActivityRelay.Redis.Cell
import ActivityRelay.Transition.Run

/-!
# Admission to the queue

A request reserves room for its jobs before it pushes them to the queue, and releases the
reservation afterwards. All reservations are one integer in Redis, which expires a minute after
the last reservation and is deleted when it is used up. It has no record of who reserved what.

The system below has any number of requests and workers. A reservation is *current* as long as
the counter has been there ever since it was made. The counter is the sum of the current
reservations (`Sound`) as long as nobody takes off a reservation that is not current. If
reservations are released in time then all of them are current, and the queue has room for all
jobs that are not pushed yet (`Bounded`).
-/

namespace Queue

open List Redis Transition

/-! ### The scripts -/

/-- The lifetime of the counter, in milliseconds. -/
def reservationTTL : ℤ := 60 * 1000

/-- What the counter `relay:queue:reservations` holds. -/
abbrev Counter := Cell ℤ

/-- The number of reserved jobs; an absent counter stands for zero. -/
def reserved (now : ℤ) (c : Counter) : ℤ := (c.get now).getD 0

/-- The script of `reserveQueueCapacityWithReason`, for a queue with `queued` jobs. -/
def reserveScript (now : ℤ) (queued : ℕ) (maximum additional : ℤ) (c : Counter) : Counter × ℤ :=
  if maximum < queued + reserved now c + additional then (c, 0)
  else (((c.update now 0 (· + additional)).pexpire now reservationTTL).1, 1)

/-- The script of `releaseQueueCapacity`. -/
def releaseScript (now additional : ℤ) (c : Counter) : Counter × ℤ :=
  let c := c.update now 0 (· - additional)
  let remaining := reserved now c
  if remaining ≤ 0 then (none, remaining) else (c, remaining)

/-- Why room in the queue is given or not. -/
inductive Reason
  | accepted
  | redis
  | capacity
  deriving DecidableEq, Repr

def reserveQueueCapacityWithReason (outcome : Outcome) (now : ℤ) (queued : ℕ)
    (maximum additional : ℤ) (c : Counter) : Counter × Bool × Reason :=
  if additional < 1 then (c, true, .accepted)
  else
    let r := reserveScript now queued maximum additional c
    match outcome with
    | .answered => (r.1, if r.2 ≠ 1 then (false, .capacity) else (true, .accepted))
    | .failed effect => (if effect then r.1 else c, false, .redis)

def releaseQueueCapacity (outcome : Outcome) (now additional : ℤ) (c : Counter) : Counter :=
  if additional < 1 then c
  else
    match outcome with
    | .answered | .failed true => (releaseScript now additional c).1
    | .failed false => c

variable {outcome : Redis.Outcome} {additional now : ℤ}

/-- Room is given to a request for jobs if Redis answers and the queue has it. -/
theorem accepted_iff {queued : ℕ} {maximum : ℤ} {c : Counter} (h : 1 ≤ additional) :
  (reserveQueueCapacityWithReason outcome now queued maximum additional c).2.1 = true ↔
    outcome = .answered ∧ queued + reserved now c + additional ≤ maximum
  := by
  rw [reserveQueueCapacityWithReason, if_neg (not_lt.mpr h)]
  cases outcome with
  | failed effect => simp
  | answered =>
    by_cases hroom : queued + reserved now c + additional ≤ maximum
    · simp [reserveScript, hroom, not_lt.mpr hroom]
    · simp [reserveScript, hroom, not_le.mp hroom]

/-! ### Requests and workers -/

/-- A reservation that is outstanding, with the number of its jobs that have been pushed. It is
`current` if the counter has been there since the reservation was made, and `held` as long as
the request that made it can still push and release. -/
structure Reservation where
  amount : ℕ
  pushed : ℕ
  reservedAt : ℤ
  current : Bool
  held : Bool
  amount_pos : 0 < amount
  pushed_le : pushed ≤ amount
  deriving DecidableEq

namespace Reservation

/-- The number of jobs that are reserved and not pushed. -/
def unpushed (r : Reservation) : ℕ := r.amount - r.pushed

/-- The amount of a current reservation. -/
def currentAmount (r : Reservation) : ℕ := if r.current then r.amount else 0

theorem currentAmount_of_current {r : Reservation} (h : r.current = true) :
  r.currentAmount = r.amount
  := if_pos h

end Reservation

/-- The queue, the counter, and the outstanding reservations. -/
structure State where
  now : ℤ
  queued : ℕ
  counter : Counter
  reservations : List Reservation

/-- The sum of a quantity over reservations. -/
def total (f : Reservation → ℕ) (rs : List Reservation) : ℕ := (rs.map f).sum

/-- Time passes, a request asks for room, pushes a job of a reservation, or releases a
reservation, and a worker takes a job. -/
inductive Event
  | tick (milliseconds : ℕ)
  | reserve (outcome : Outcome) (additional : ℤ)
  | push (i : ℕ)
  | release (outcome : Outcome) (i : ℕ)
  | pop
  deriving DecidableEq

/-- If the counter is absent, then no reservation is current. -/
def State.refresh (s : State) : State :=
  if (s.counter.get s.now).isNone then
    { s with reservations := s.reservations.map (fun r => { r with current := false }) }
  else s

/-- The reservation that is made when the counter becomes `counter`. A request that is not told
so does not hold it. -/
def State.made (s : State) (counter : Counter) (accepted : Bool) (additional : ℤ) :
    List Reservation :=
  if h : 0 < additional.toNat ∧
      reserved s.now counter = reserved s.now s.counter + additional then
    [⟨additional.toNat, 0, s.now, true, accepted, h.1, Nat.zero_le _⟩]
  else []

/-- One step, with at most `maximum` jobs in the queue. -/
def step (maximum : ℤ) (s : State) : Event → Option State
  | .tick d => some (State.refresh { s with now := s.now + d })
  | .reserve outcome additional =>
      let r := reserveQueueCapacityWithReason outcome s.now s.queued maximum additional s.counter
      some { s with
        counter := r.1
        reservations := s.reservations ++ s.made r.1 r.2.1 additional }
  | .push i =>
      match s.reservations[i]? with
      | some r =>
          if h : r.held ∧ r.pushed < r.amount then
            some { s with
              queued := s.queued + 1
              reservations := s.reservations.set i { r with pushed := r.pushed + 1, pushed_le := h.2 } }
          else none
      | none => none
  | .release outcome i =>
      match s.reservations[i]? with
      | some r =>
          if r.held then
            some (State.refresh { s with
              counter := releaseQueueCapacity outcome s.now r.amount s.counter
              -- After a release that had no effect the reservation is nobody's.
              reservations :=
                if outcome = .failed false then s.reservations.set i { r with held := false }
                else s.reservations.eraseIdx i })
          else none
      | none => none
  | .pop => if 0 < s.queued then some { s with queued := s.queued - 1 } else none

/-! ### Sums over reservations -/

theorem total_append (f : Reservation → ℕ) (rs rs' : List Reservation) :
  total f (rs ++ rs') = total f rs + total f rs'
  := by
  simp [total]

variable {r : Reservation} {i : ℕ} {rs : List Reservation} {f : Reservation → ℕ}

theorem total_eraseIdx (h : rs[i]? = some r) :
  f r + total f (rs.eraseIdx i) = total f rs
  := by
  obtain ⟨hi, rfl⟩ := List.getElem?_eq_some_iff.mp h
  have := List.CommMonoid.add_sum_eraseIdx (l := rs.map f) (i := i) (by simpa using hi)
  simpa [total, eraseIdx_map] using this

/-- If one reservation is replaced by another, then the sum changes by their difference. -/
theorem total_set (r' : Reservation) (h : rs[i]? = some r) :
  total f (rs.set i r') + f r = total f rs + f r'
  := by
  induction rs generalizing i with
  | nil => simp at h
  | cons a rs ih =>
    cases i with
    | zero =>
      obtain rfl : a = r := by simpa using h
      simp only [total, set_cons_zero, map_cons, sum_cons]
      omega
    | succ i =>
      have := ih (i := i) (by simpa using h)
      simp only [total, set_cons_succ, map_cons, sum_cons] at this ⊢
      omega

theorem total_mono {g : Reservation → ℕ} (h : ∀ r ∈ rs, f r ≤ g r) :
  total f rs ≤ total g rs
  := sum_le_sum h

theorem le_total (h : r ∈ rs) :
  f r ≤ total f rs
  := single_le_sum (by simp) _ (mem_map_of_mem h)

/-! ### What the scripts do to the counter -/

section Scripts

variable {now additional maximum : ℤ} {queued : ℕ} {c : Counter} {outcome : Redis.Outcome}

theorem reserved_set (v : ℤ) :
  reserved now (Cell.set now reservationTTL v) = v
  := by
  rw [reserved, Cell.get_set (by unfold reservationTTL; omega)]
  rfl

theorem reserveScript_of_room (h : queued + reserved now c + additional ≤ maximum) :
  reserveScript now queued maximum additional c
    = (Cell.set now reservationTTL (reserved now c + additional), 1)
  := by
  rw [reserveScript, if_neg (by omega), Cell.pexpire_update]
  rfl

/-- A call of the reservation script leaves the counter as it is, or there is room and it adds
to the counter, which then has its full lifetime. -/
theorem reserveQueueCapacity_cases (outcome : Outcome) (now : ℤ) (queued : ℕ)
    (maximum additional : ℤ) (c : Counter) :
  (reserveQueueCapacityWithReason outcome now queued maximum additional c).1 = c
    ∨ (0 < additional ∧ queued + reserved now c + additional ≤ maximum ∧
        (reserveQueueCapacityWithReason outcome now queued maximum additional c).1
          = Cell.set now reservationTTL (reserved now c + additional))
  := by
  unfold reserveQueueCapacityWithReason
  by_cases hadd : additional < 1
  · simp [hadd]
  by_cases hroom : queued + reserved now c + additional ≤ maximum
  · have hpos : 0 < additional := by omega
    rw [reserveScript_of_room hroom]
    rcases outcome with _ | _ | _ <;> simp [hadd, hroom, hpos]
  · have : reserveScript now queued maximum additional c = (c, 0) := if_pos (by omega)
    rw [this]
    rcases outcome with _ | _ | _ <;> simp [hadd]

theorem releaseQueueCapacity_failed :
  releaseQueueCapacity (.failed false) now additional c = c
  := by
  simp [releaseQueueCapacity]

/-- A release takes its amount off the counter, down to zero. -/
theorem reserved_releaseQueueCapacity (hadd : 0 < additional) (h : outcome ≠ .failed false) :
  reserved now (releaseQueueCapacity outcome now additional c)
    = max 0 (reserved now c - additional)
  := by
  have hscript : releaseQueueCapacity outcome now additional c = (releaseScript now additional c).1
    := by
    have hone : ¬ additional < 1 := by omega
    rcases outcome with _ | _ | _
    · simp [releaseQueueCapacity, hone]
    · exact absurd rfl h
    · simp [releaseQueueCapacity, hone]
  have hupdate : reserved now (Cell.update now 0 (· - additional) c)
      = reserved now c - additional := by
    rw [reserved, Cell.get_update]
    rfl
  rw [hscript, releaseScript, hupdate]
  split
  · rw [max_eq_left (by omega)]
    rfl
  · rw [hupdate, max_eq_right (by omega)]

end Scripts

/-! ### What a step can do -/

section Steps

variable {maximum : ℤ} {s s' : State} {outcome : Redis.Outcome}

theorem made_self (accepted : Bool) (additional : ℤ) :
  s.made s.counter accepted additional = []
  := by
  rw [State.made, dif_neg]
  omega

/-- A reservation leaves everything as it is, or there is room for it and it is added to the
counter and to the outstanding reservations. -/
theorem step_reserve (h : step maximum s (.reserve outcome additional) = some s') :
  s' = s ∨ ∃ r : Reservation,
    r.pushed = 0 ∧ r.reservedAt = s.now ∧ r.current = true ∧
    s.queued + reserved s.now s.counter + r.amount ≤ maximum ∧
    s' = { s with
      counter := Cell.set s.now reservationTTL (reserved s.now s.counter + r.amount)
      reservations := s.reservations ++ [r] }
  := by
  simp only [step, Option.some.injEq] at h
  subst h
  rcases reserveQueueCapacity_cases outcome s.now s.queued maximum additional s.counter
    with hsame | ⟨hpos, hroom, hset⟩
  · left
    rw [hsame, made_self, append_nil]
  · right
    have hcast : (additional.toNat : ℤ) = additional := by omega
    have hnat : 0 < additional.toNat := by omega
    generalize reserveQueueCapacityWithReason _ _ _ _ _ _ = r at hset ⊢
    rw [hset, State.made, dif_pos ⟨hnat, reserved_set _⟩]
    use ⟨additional.toNat, 0, s.now, true, r.2.1, hnat, Nat.zero_le _⟩
    simp only [hcast, hroom, true_and]

/-- A push moves one job from a reservation to the queue. -/
theorem step_push (h : step maximum s (.push i) = some s') :
  ∃ r r' : Reservation, s.reservations[i]? = some r ∧
    r'.amount = r.amount ∧ r'.reservedAt = r.reservedAt ∧ r'.current = r.current ∧
    r'.unpushed + 1 = r.unpushed ∧
    s' = { s with queued := s.queued + 1, reservations := s.reservations.set i r' }
  := by
  simp only [step] at h
  split at h
  · rename_i r hr
    split at h
    · rename_i hpush
      cases h
      use r, { r with pushed := r.pushed + 1, pushed_le := hpush.2 }, hr
      refine ⟨rfl, rfl, rfl, ?_, rfl⟩
      simp only [Reservation.unpushed]
      omega
    · cases h
  · cases h

/-- A release that has an effect takes the amount off the counter, and one that has none leaves
the reservation to nobody. -/
theorem step_release (h : step maximum s (.release outcome i) = some s') :
  ∃ r, s.reservations[i]? = some r ∧
    (outcome = .failed false ∧ s' = State.refresh { s with
        reservations := s.reservations.set i { r with held := false } }
      ∨ outcome ≠ .failed false ∧ s' = State.refresh { s with
        counter := releaseQueueCapacity outcome s.now r.amount s.counter
        reservations := s.reservations.eraseIdx i })
  := by
  simp only [step] at h
  split at h
  · rename_i r hr
    split at h
    · cases h
      use r, hr
      by_cases hout : outcome = .failed false
      · subst hout
        simp [releaseQueueCapacity_failed]
      · simp [hout]
    · cases h
  · cases h

theorem step_pop (h : step maximum s .pop = some s') :
  0 < s.queued ∧ s' = { s with queued := s.queued - 1 }
  := by
  simp only [step] at h
  split at h
  · rename_i hpos
    use hpos
    exact (Option.some.inj h).symm
  · cases h

end Steps

/-! ### The counter and the current reservations -/

/-- The counter is the sum of the current reservations. -/
def Sound (s : State) : Prop :=
  reserved s.now s.counter = total Reservation.currentAmount s.reservations

/-- The sum of the current reservations, without the one at `i`. -/
def others (s : State) (i : ℕ) : ℕ := total Reservation.currentAmount (s.reservations.eraseIdx i)

/-- The release of a reservation that is current, or that has no current reservation beside it. -/
def OwnRelease (s : State) : Event → Prop
  | .release outcome i =>
      outcome = .failed false ∨ (s.reservations[i]?.any (·.current)) = true ∨ others s i = 0
  | _ => True

instance decidableOwnRelease (s : State) (e : Event) : Decidable (OwnRelease s e) := by
  cases e <;> dsimp only [OwnRelease] <;> infer_instance

section Sound

variable {maximum : ℤ} {s s' : State}

/-- Without a counter there are no current reservations. -/
theorem sound_refresh (h : (s.counter.get s.now).isSome → Sound s) :
  Sound s.refresh
  := by
  unfold State.refresh
  split
  · rename_i hnone
    simp [Sound, reserved, Option.isNone_iff_eq_none.mp hnone, total, Function.comp_def,
      Reservation.currentAmount]
  · rename_i hsome
    apply h
    simpa [Option.isSome_iff_ne_none] using hsome

theorem sound_tick {d : ℕ} (hs : Sound s) (h : step maximum s (.tick d) = some s') :
  Sound s'
  := by
  cases h
  apply sound_refresh
  intro hsome
  obtain ⟨v, hv⟩ := Option.isSome_iff_exists.mp hsome
  have hbefore : s.counter.get s.now = some v := Cell.get_of_later (by simp) hv
  rw [Sound, reserved, hbefore] at hs
  rw [Sound, reserved, hv]
  apply hs

theorem sound_reserve (hs : Sound s) (h : step maximum s (.reserve outcome additional) = some s') :
  Sound s'
  := by
  obtain rfl | ⟨r, -, -, hcurrent, -, rfl⟩ := step_reserve h
  · apply hs
  · rw [Sound, reserved_set, total_append, hs]
    simp [total, Reservation.currentAmount_of_current hcurrent]

theorem sound_push (hs : Sound s) (h : step maximum s (.push i) = some s') :
  Sound s'
  := by
  obtain ⟨r, r', hr, hamount, -, hcurrent, -, rfl⟩ := step_push h
  have hsame : r'.currentAmount = r.currentAmount := by
    rw [Reservation.currentAmount, hcurrent, hamount]
    rfl
  have := total_set (f := Reservation.currentAmount) r' hr
  rw [Sound] at hs ⊢
  dsimp only
  omega

/-- What is left of the counter after a release that has an effect. -/
theorem reserved_release (hs : Sound s) (hr : s.reservations[i]? = some r)
    (hout : outcome ≠ .failed false) :
  reserved s.now (releaseQueueCapacity outcome s.now r.amount s.counter)
    = max 0 ((others s i : ℤ) + r.currentAmount - r.amount)
  := by
  have hpos := r.amount_pos
  have hsum := total_eraseIdx (f := Reservation.currentAmount) hr
  rw [reserved_releaseQueueCapacity (by omega) hout, hs, others]
  omega

/-- A release takes its own amount off the counter, or finds the counter used up. -/
theorem sound_release (hs : Sound s) (hown : OwnRelease s (.release outcome i))
    (h : step maximum s (.release outcome i) = some s') :
  Sound s'
  := by
  obtain ⟨r, hr, ⟨-, rfl⟩ | ⟨hout, rfl⟩⟩ := step_release h
  · apply sound_refresh
    have := total_set (f := Reservation.currentAmount) { r with held := false } hr
    have hsame : Reservation.currentAmount { r with held := false } = r.currentAmount := rfl
    rw [Sound] at hs ⊢
    dsimp only
    omega
  · apply sound_refresh
    intro _
    rw [Sound, reserved_release hs hr hout]
    change max 0 ((others s i : ℤ) + r.currentAmount - r.amount) = others s i
    rcases hown with hfail | hcurrent | hothers
    · exact absurd hfail hout
    · rw [hr] at hcurrent
      rw [Reservation.currentAmount_of_current hcurrent]
      omega
    · have : r.currentAmount ≤ r.amount := by
        unfold Reservation.currentAmount
        split <;> omega
      omega

/-- The counter stays the sum of the current reservations if every release is of the kind of
`OwnRelease`. -/
theorem sound_step {e : Event} (hs : Sound s) (hown : OwnRelease s e)
    (h : step maximum s e = some s') :
  Sound s'
  := by
  cases e with
  | tick d => exact sound_tick hs h
  | reserve outcome additional => exact sound_reserve hs h
  | push i => exact sound_push hs h
  | release outcome i => exact sound_release hs hown h
  | pop =>
    obtain ⟨-, rfl⟩ := step_pop h
    exact hs

theorem refresh_now : s.refresh.now = s.now := by
  unfold State.refresh
  split <;> rfl

theorem refresh_counter : s.refresh.counter = s.counter := by
  unfold State.refresh
  split <;> rfl

/-- After a run whose releases are all of the kind of `OwnRelease`, a release leaves the counter
at no less than the sum of the other current reservations if and only if it is of that kind. -/
theorem release_keeps_others_iff {s₀ : State} {es : List Event} {outcome : Outcome} {i : ℕ}
    (hcounter : s₀.counter.get s₀.now = none) (hreservations : s₀.reservations = [])
    (hown : Meets (step maximum) OwnRelease s₀ es) (hrun : run (step maximum) s₀ es = some s)
    (hstep : step maximum s (.release outcome i) = some s') :
  (others s i : ℤ) ≤ reserved s'.now s'.counter ↔ OwnRelease s (.release outcome i)
  := by
  have hstart : Sound s₀ := by
    simp [Sound, reserved, hcounter, hreservations, total]
  have hs : Sound s :=
    run_invariant_of_meets (fun _ _ _ => sound_step) hstart hown hrun
  obtain ⟨r, hr, ⟨hout, rfl⟩ | ⟨hout, rfl⟩⟩ := step_release hstep
  · have hsum := total_eraseIdx (f := Reservation.currentAmount) hr
    have hle : (others s i : ℤ) ≤ reserved s.now s.counter := by
      rw [hs, others]
      omega
    rw [refresh_now, refresh_counter]
    exact ⟨fun _ => .inl hout, fun _ => hle⟩
  · rw [refresh_now, refresh_counter, reserved_release hs hr hout, OwnRelease, hr]
    have hpos := r.amount_pos
    cases hcurrent : r.current with
    | true =>
      rw [Reservation.currentAmount_of_current hcurrent]
      simp [hcurrent]
    | false =>
      -- An amount that is not in the counter is taken from the other reservations.
      have hzero : r.currentAmount = 0 := by simp [Reservation.currentAmount, hcurrent]
      simp only [hzero, hout, Option.any_some, hcurrent, Bool.false_eq_true, false_or]
      omega

end Sound

/-- A request reserves five jobs and stalls. When the counter is gone, another one reserves three,
and then the first one releases. -/
def lateRelease : List Event :=
  [.reserve .answered 5, .tick 60001, .reserve .answered 3]

/-- No reservations, and an empty queue. -/
def idle : State := ⟨0, 0, none, []⟩

def beforeLateRelease : State := (run (step 10) idle lateRelease).get rfl

/-- The late release deletes the counter, and with it the reservation of the other request. -/
theorem late_release_deletes_counter :
  ∃ s', step 10 beforeLateRelease (.release .answered 0) = some s' ∧
    others beforeLateRelease 0 = 3 ∧ s'.counter = none ∧
    ¬ (others beforeLateRelease 0 : ℤ) ≤ reserved s'.now s'.counter
  := ⟨_, rfl, rfl, rfl, by decide⟩

theorem release_keeps_others_iff_late :
  ¬ OwnRelease beforeLateRelease (.release .answered 0)
  := by
  have hrun : run (step 10) idle lateRelease = some beforeLateRelease :=
    (Option.some_get (x := run (step 10) idle lateRelease) rfl).symm
  obtain ⟨s', hstep, -, -, hlost⟩ : ∃ s', step 10 beforeLateRelease (.release .answered 0) = some s' ∧
      others beforeLateRelease 0 = 3 ∧ s'.counter = none ∧
      ¬ (others beforeLateRelease 0 : ℤ) ≤ reserved s'.now s'.counter := ⟨_, rfl, rfl, rfl, by decide⟩
  rw [← release_keeps_others_iff rfl rfl (by decide) hrun hstep]
  apply hlost

/-! ### Releases in time -/

/-- A reservation that is released in time: no time passes that makes it older than the lifetime
of the counter. -/
def Timely (s : State) : Event → Prop
  | .tick d => ∀ r ∈ s.reservations, s.now + d < r.reservedAt + reservationTTL
  | _ => True

instance decidableTimely (s : State) (e : Event) : Decidable (Timely s e) := by
  cases e <;> dsimp only [Timely] <;> infer_instance

/-- A reservation that is current and stays so until it is too old. -/
structure Kept (s : State) (r : Reservation) : Prop where
  current : r.current = true
  reservedAt_le : r.reservedAt ≤ s.now
  counter : ∃ v t, s.counter = some ⟨v, some t⟩ ∧ s.now ≤ t ∧ r.reservedAt + reservationTTL ≤ t

/-- All reservations are kept, the counter is their sum, and the queue has room for their jobs. -/
structure Bounded (maximum : ℤ) (s : State) : Prop where
  sound : Sound s
  kept : ∀ r ∈ s.reservations, Kept s r
  room : s.queued + total Reservation.unpushed s.reservations ≤ maximum

section Bounded

variable {maximum : ℤ} {s s' : State}

theorem refresh_of_visible (h : s.reservations ≠ [] → (s.counter.get s.now).isSome) :
  s.refresh = s
  := by
  unfold State.refresh
  split
  · rename_i hnone
    have hnil : s.reservations = [] := by
      simp_all
    obtain ⟨now, queued, counter, reservations⟩ := s
    obtain rfl : reservations = [] := hnil
    rfl
  · rfl

theorem Kept.visible (h : Kept s r) :
  (s.counter.get s.now).isSome
  := by
  obtain ⟨v, t, hcounter, ht, -⟩ := h.counter
  have : s.counter.get s.now = some v := by
    rw [Cell.get_eq_some]
    use some t, hcounter
    rintro x ⟨⟩
    apply ht
  simp [this]

/-- If all reservations are kept, then there is nothing to refresh. -/
theorem refresh_of_kept (h : ∀ r ∈ s.reservations, Kept s r) :
  s.refresh = s
  := by
  apply refresh_of_visible
  intro hne
  obtain ⟨r, hr⟩ := exists_mem_of_ne_nil _ hne
  apply (h r hr).visible

/-- If all reservations are current, then the counter is the sum of all of them. -/
theorem Bounded.reserved_eq (hs : Bounded maximum s) :
  reserved s.now s.counter = total Reservation.amount s.reservations
  := by
  rw [hs.sound, total, total]
  congr 2
  apply map_congr_left
  intro r hr
  apply Reservation.currentAmount_of_current (hs.kept r hr).current

theorem bounded_tick {d : ℕ} (hs : Bounded maximum s) (htimely : Timely s (.tick d))
    (h : step maximum s (.tick d) = some s') :
  Bounded maximum s'
  := by
  have hsound := sound_tick hs.sound h
  cases h
  have hkept : ∀ r ∈ s.reservations, Kept { s with now := s.now + d } r := by
    intro r hr
    obtain ⟨hcurrent, hle, v, t, hcounter, -, ht⟩ := hs.kept r hr
    have hyoung := htimely r hr
    refine ⟨hcurrent, ?_, v, t, hcounter, ?_, ht⟩
    · dsimp only
      omega
    · dsimp only
      omega
  rw [refresh_of_kept hkept] at hsound ⊢
  exact ⟨hsound, hkept, hs.room⟩

/-- A reservation is granted only if there is room for it. -/
theorem bounded_reserve (hs : Bounded maximum s)
    (h : step maximum s (.reserve outcome additional) = some s') :
  Bounded maximum s'
  := by
  have hsound := sound_reserve hs.sound h
  obtain rfl | ⟨r, hpushed, hat, hcurrent, hroom, rfl⟩ := step_reserve h
  · exact hs
  refine ⟨hsound, ?_, ?_⟩
  · -- The new lifetime of the counter is at least as long as that of every reservation.
    intro r' hr'
    have hold : r'.current = true ∧ r'.reservedAt ≤ s.now := by
      rcases mem_append.mp hr' with hr' | hr'
      · exact ⟨(hs.kept r' hr').current, (hs.kept r' hr').reservedAt_le⟩
      · obtain rfl := mem_singleton.mp hr'
        exact ⟨hcurrent, hat.le⟩
    refine ⟨hold.1, hold.2, _, _, rfl, ?_, ?_⟩
    · simp [reservationTTL]
    · have := hold.2
      omega
  · have hle : total Reservation.unpushed s.reservations ≤ total Reservation.amount s.reservations :=
      total_mono (fun r _ => Nat.sub_le _ _)
    rw [hs.reserved_eq] at hroom
    have hnew : total Reservation.unpushed [r] = r.amount := by
      simp [total, Reservation.unpushed, hpushed]
    dsimp only
    rw [total_append, hnew]
    omega

theorem bounded_push (hs : Bounded maximum s) (h : step maximum s (.push i) = some s') :
  Bounded maximum s'
  := by
  have hsound := sound_push hs.sound h
  obtain ⟨r, r', hr, -, hat, hcurrent, hunpushed, rfl⟩ := step_push h
  refine ⟨hsound, ?_, ?_⟩
  · intro r'' hr''
    rcases mem_or_eq_of_mem_set hr'' with hr'' | rfl
    · obtain ⟨hcur, hle, hcounter⟩ := hs.kept r'' hr''
      exact ⟨hcur, hle, hcounter⟩
    · obtain ⟨hcur, hle, hcounter⟩ := hs.kept r (mem_of_getElem? hr)
      exact ⟨hcurrent.trans hcur, hat.trans_le hle, by rw [hat]; exact hcounter⟩
  · have := total_set (f := Reservation.unpushed) r' hr
    have := hs.room
    dsimp only
    omega

/-- A release that leaves something of a counter leaves it its lifetime. -/
theorem releaseQueueCapacity_lifetime {v t : ℤ} (ht : now ≤ t)
    (hpos : 0 < reserved now (releaseQueueCapacity outcome now additional (some ⟨v, some t⟩))) :
  ∃ w, releaseQueueCapacity outcome now additional (some ⟨v, some t⟩) = some ⟨w, some t⟩
  := by
  have hget : Cell.get now (some ⟨v, some t⟩) = some v := by
    rw [Cell.get_eq_some]
    use some t, rfl
    rintro x ⟨⟩
    apply ht
  have hscript : 0 < reserved now (releaseScript now additional (some ⟨v, some t⟩)).1 →
      ∃ w, (releaseScript now additional (some ⟨v, some t⟩)).1 = some ⟨w, some t⟩ := by
    unfold releaseScript
    rw [Cell.update_of_visible hget]
    dsimp only
    split
    · intro h
      simp [reserved] at h
    · intro _
      exact ⟨_, rfl⟩
  unfold releaseQueueCapacity at hpos ⊢
  split at hpos
  · rename_i hadd
    simp [hadd]
  · rename_i hadd
    rw [if_neg hadd]
    rcases outcome with _ | _ | _
    · exact hscript hpos
    · exact ⟨v, rfl⟩
    · exact hscript hpos

/-- A reservation that is kept may be released. -/
theorem Bounded.ownRelease (hs : Bounded maximum s) (hr : s.reservations[i]? = some r) :
  OwnRelease s (.release outcome i)
  := by
  right
  left
  rw [hr]
  exact (hs.kept r (mem_of_getElem? hr)).current

/-- A reservation that is released needs no room any more. -/
theorem bounded_release (hs : Bounded maximum s)
    (h : step maximum s (.release outcome i) = some s') :
  Bounded maximum s'
  := by
  obtain ⟨r, hr, hcases⟩ := step_release h
  have hsound := sound_release hs.sound (hs.ownRelease hr) h
  have hmem : r ∈ s.reservations := mem_of_getElem? hr
  have hroom := hs.room
  rcases hcases with ⟨-, rfl⟩ | ⟨hout, rfl⟩
  · have hkept : ∀ r' ∈ s.reservations.set i { r with held := false },
        Kept { s with reservations := s.reservations.set i { r with held := false } } r' := by
      intro r' hr'
      rcases mem_or_eq_of_mem_set hr' with hr' | rfl
      · obtain ⟨hcur, hle, hcounter⟩ := hs.kept r' hr'
        exact ⟨hcur, hle, hcounter⟩
      · obtain ⟨hcur, hle, hcounter⟩ := hs.kept r hmem
        exact ⟨hcur, hle, hcounter⟩
    rw [refresh_of_kept hkept] at hsound ⊢
    refine ⟨hsound, hkept, ?_⟩
    have hset := total_set (f := Reservation.unpushed) { r with held := false } hr
    have hsame : Reservation.unpushed { r with held := false } = r.unpushed := rfl
    dsimp only
    omega
  · have hleft : reserved s.now (releaseQueueCapacity outcome s.now r.amount s.counter)
        = others s i := by
      rw [reserved_release hs.sound hr hout,
        Reservation.currentAmount_of_current (hs.kept r hmem).current]
      omega
    have hkept : ∀ r' ∈ s.reservations.eraseIdx i,
        Kept { s with
          counter := releaseQueueCapacity outcome s.now r.amount s.counter
          reservations := s.reservations.eraseIdx i } r' := by
      intro r' hr'
      obtain ⟨hcur, hle, v, t, hcounter, hvisible, ht⟩ := hs.kept r' (mem_of_mem_eraseIdx hr')
      -- The counter is not deleted, since it still has the amount of `r'`.
      have hpos : 0 < others s i := by
        have hamount := r'.amount_pos
        have hle' : r'.currentAmount ≤ others s i := le_total hr'
        rw [Reservation.currentAmount_of_current hcur] at hle'
        omega
      rw [hcounter] at hleft
      obtain ⟨w, hw⟩ := releaseQueueCapacity_lifetime hvisible (by rw [hleft]; omega)
      refine ⟨hcur, hle, w, t, ?_, hvisible, ht⟩
      rw [hcounter, hw]
    rw [refresh_of_kept hkept] at hsound ⊢
    refine ⟨hsound, hkept, ?_⟩
    have := total_eraseIdx (f := Reservation.unpushed) hr
    dsimp only
    omega

theorem bounded_step {e : Event} (hs : Bounded maximum s) (htimely : Timely s e)
    (h : step maximum s e = some s') :
  Bounded maximum s'
  := by
  cases e with
  | tick d => exact bounded_tick hs htimely h
  | reserve outcome additional => exact bounded_reserve hs h
  | push i => exact bounded_push hs h
  | release outcome i => exact bounded_release hs h
  | pop =>
    obtain ⟨hpos, rfl⟩ := step_pop h
    obtain ⟨hsound, hkept, hroom⟩ := hs
    refine ⟨hsound, ?_, ?_⟩
    · intro r hr
      obtain ⟨hcur, hle, hcounter⟩ := hkept r hr
      exact ⟨hcur, hle, hcounter⟩
    · dsimp only
      omega

/-- If every reservation is released in time, then the jobs in the queue and those that are
reserved and not pushed are at most `maximum`, and the counter is the sum of the reservations. -/
theorem queue_never_exceeds_maximum {s₀ : State} {es : List Event}
    (hcounter : s₀.counter.get s₀.now = none) (hreservations : s₀.reservations = [])
    (hqueued : s₀.queued ≤ maximum) (htimely : Meets (step maximum) Timely s₀ es)
    (hrun : run (step maximum) s₀ es = some s) :
  s.queued + total Reservation.unpushed s.reservations ≤ maximum ∧
    reserved s.now s.counter = total Reservation.amount s.reservations ∧
    0 ≤ reserved s.now s.counter
  := by
  have hstart : Bounded maximum s₀ := by
    refine ⟨?_, ?_, ?_⟩
    · simp [Sound, reserved, hcounter, hreservations, total]
    · simp [hreservations]
    · simpa [hreservations, total] using hqueued
  have hs : Bounded maximum s :=
    run_invariant_of_meets (fun _ _ _ => bounded_step) hstart htimely hrun
  refine ⟨hs.room, hs.reserved_eq, ?_⟩
  rw [hs.reserved_eq]
  omega

end Bounded

/-- Two requests, of which one is refused at first, and a worker. -/
def twoRequests : List Event :=
  [.reserve .answered 3, .reserve .answered 3, .push 0, .push 0, .tick 59999, .pop,
    .reserve .answered 1, .push 1, .release .answered 0]

def afterTwoRequests : State := (run (step 5) idle twoRequests).get rfl

theorem queue_never_exceeds_maximum_twoRequests :
  afterTwoRequests.queued = 2 ∧ afterTwoRequests.reservations.length = 1 ∧
    reserved afterTwoRequests.now afterTwoRequests.counter
      = total Reservation.amount afterTwoRequests.reservations
  := by
  have hrun : run (step 5) idle twoRequests = some afterTwoRequests :=
    (Option.some_get (x := run (step 5) idle twoRequests) rfl).symm
  refine ⟨rfl, rfl, ?_⟩
  exact (queue_never_exceeds_maximum rfl rfl (by decide) (by decide) hrun).2.1

end Queue
