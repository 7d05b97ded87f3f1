import Mathlib.Algebra.Order.Ring.Int
import Mathlib.Data.Fintype.Basic
import Mathlib.Data.Int.Notation
import Mathlib.Data.Option.Basic
import Mathlib.Tactic.Common

/-!
# Keys with a lifetime

What one key of a Redis database holds: a value and, if the key is volatile, the last
moment at which it is visible. Time is an integer, in the unit of the caller. A key whose
moment has passed is absent for every command, whether or not the server has reclaimed it.

The commands are those that a compare-and-set discipline is made of: reading, `SET` with
and without `NX`, `DEL`, `PEXPIRE`, and the update of a value that keeps the lifetime.
-/

namespace Redis

/-- How the call of a command or a script ends: with its reply, or with an error, which may come
after the server has executed it. -/
inductive Outcome
  | answered
  | failed (effect : Bool)
  deriving DecidableEq, Repr

/-- A value and the last moment at which it is visible, if there is one. -/
structure Entry (V : Type*) where
  value : V
  expireAt : Option ℤ
  deriving DecidableEq, Repr

/-- What a key holds. -/
abbrev Cell (V : Type*) := Option (Entry V)

namespace Cell

variable {V : Type*} {c : Cell V} {now later ttl : ℤ} {v empty : V} {f : V → V}

/-- The entry of a key as the commands at the time `now` see it. -/
def entry (now : ℤ) (c : Cell V) : Cell V :=
  c.filter (fun e => e.expireAt.all (fun t => now ≤ t))

/-- `GET`: the value of a key. -/
def get (now : ℤ) (c : Cell V) : Option V := (entry now c).map Entry.value

/-- `SET key value PX ttl`. -/
def set (now ttl : ℤ) (v : V) : Cell V := some ⟨v, some (now + ttl)⟩

/-- `SET key value NX PX ttl`: sets an absent key, and tells whether it did. -/
def setNX (now ttl : ℤ) (v : V) (c : Cell V) : Cell V × Bool :=
  if (get now c).isNone then (set now ttl v, true) else (c, false)

/-- `PEXPIRE`: gives a key that exists a new lifetime, and tells whether it did. -/
def pexpire (now ttl : ℤ) (c : Cell V) : Cell V × Bool :=
  match entry now c with
  | some e => (some ⟨e.value, some (now + ttl)⟩, true)
  | none => (c, false)

/-- The update of a value that keeps the lifetime of its key (`HSET`, `HINCRBY`); a key
that is absent is made from `empty`, without a lifetime. -/
def update (now : ℤ) (empty : V) (f : V → V) (c : Cell V) : Cell V :=
  match entry now c with
  | some e => some ⟨f e.value, e.expireAt⟩
  | none => some ⟨f empty, none⟩

@[simp]
theorem get_none (now : ℤ) :
  get now (none : Cell V) = none
  := rfl

theorem get_eq_some :
  get now c = some v ↔ ∃ t, c = some ⟨v, t⟩ ∧ ∀ x, t = some x → now ≤ x
  := by
  rcases c with _ | ⟨w, _ | x⟩
  · simp [get, entry]
  · simp [get, entry]
  · by_cases h : now ≤ x <;> simp [get, entry, Option.filter, h]

/-- A value that is visible was visible before. -/
theorem get_of_later (h : now ≤ later) (hv : get later c = some v) :
  get now c = some v
  := by
  obtain ⟨t, rfl, ht⟩ := get_eq_some.mp hv
  rw [get_eq_some]
  use t, rfl
  intro x hx
  have := ht x hx
  omega

/-- A key that is absent stays absent as time passes. -/
theorem get_none_of_later (h : now ≤ later) (hc : get now c = none) :
  get later c = none
  := by
  rw [Option.eq_none_iff_forall_ne_some] at hc ⊢
  intro v hv
  apply hc v (get_of_later h hv)

/-- A key that has been set is visible up to and including its last moment. -/
theorem get_set (h : later ≤ now + ttl) :
  get later (set now ttl v) = some v
  := by
  rw [get_eq_some]
  use some (now + ttl), rfl
  rintro x ⟨⟩
  apply h

/-- An update is seen at once. -/
theorem get_update (c : Cell V) :
  get now (update now empty f c) = some (f ((get now c).getD empty))
  := by
  rw [get_eq_some]
  unfold update get
  cases h : entry now c with
  | none => exact ⟨none, rfl, by simp⟩
  | some e =>
    use e.expireAt, rfl
    intro x hx
    have hall := (Option.filter_eq_some_iff.mp h).2
    simpa [hx] using hall

/-- An update keeps the lifetime of a key that is visible. -/
theorem update_of_visible {t : Option ℤ} (h : get now (some ⟨v, t⟩) = some v) :
  update now empty f (some ⟨v, t⟩) = some ⟨f v, t⟩
  := by
  obtain ⟨e, he, -⟩ := Option.map_eq_some_iff.mp h
  obtain rfl := Option.some.inj (Option.filter_eq_some_iff.mp he).1
  simp only [update, he]

/-- An update followed by `PEXPIRE` sets the key. -/
theorem pexpire_update (c : Cell V) :
  pexpire now ttl (update now empty f c) = (set now ttl (f ((get now c).getD empty)), true)
  := by
  have hget : get now (update now empty f c) = some (f ((get now c).getD empty)) := get_update c
  obtain ⟨e, he, hvalue⟩ := Option.map_eq_some_iff.mp hget
  simp only [pexpire, he, hvalue, set, get]

/-! ### Leases

A lease is a volatile key that holds the token of its owner. It is taken with `SET NX`, and
its owner prolongs it and gives it up by scripts that compare the token first. -/

variable [DecidableEq V]

/-- `PEXPIRE` if the key holds the token `v`. -/
def compareExpire (now ttl : ℤ) (v : V) (c : Cell V) : Cell V × Bool :=
  if get now c = some v then pexpire now ttl c else (c, false)

/-- `DEL` if the key holds the token `v`. -/
def compareDel (now : ℤ) (v : V) (c : Cell V) : Cell V × Bool :=
  if get now c = some v then (none, true) else (c, false)

omit [DecidableEq V] in
theorem setNX_of_some {now ttl : ℤ} {v w : V} {c : Cell V} (h : get now c = some w) :
  setNX now ttl v c = (c, false)
  := by
  simp [setNX, h]

omit [DecidableEq V] in
theorem setNX_of_none {now ttl : ℤ} {v : V} {c : Cell V} (h : get now c = none) :
  setNX now ttl v c = (set now ttl v, true)
  := by
  simp [setNX, h]

theorem compareExpire_of_ne (h : get now c ≠ some v) :
  compareExpire now ttl v c = (c, false)
  := if_neg h

theorem compareExpire_of_eq (h : get now c = some v) :
  compareExpire now ttl v c = (set now ttl v, true)
  := by
  rw [compareExpire, if_pos h, pexpire]
  rw [get, Option.map_eq_some_iff] at h
  obtain ⟨e, he, rfl⟩ := h
  simp only [he, set]

theorem compareDel_of_ne (h : get now c ≠ some v) :
  compareDel now v c = (c, false)
  := if_neg h

theorem compareDel_of_eq (h : get now c = some v) :
  compareDel now v c = (none, true)
  := if_pos h

/-- Of the entries whose lifetime is not over, the one in the key has been granted and no other. -/
def Agrees (now : ℤ) (c : Cell V) (granted : List (Entry V)) : Prop :=
  ∀ g v, get now (some g) = some v → (g ∈ granted ↔ c = some g)

section Agrees

variable {granted : List (Entry V)} (hs : Agrees now c granted)
include hs

omit [DecidableEq V] in
/-- A token is granted only while the key is absent, so that all others are over. -/
theorem Agrees.grant (hfree : get now c = none) :
  Agrees now (set now ttl v) (⟨v, some (now + ttl)⟩ :: granted)
  := by
  intro g w hg
  have hother : g ∉ granted := by
    intro hmem
    rw [(hs g w hg).mp hmem, hg] at hfree
    cases hfree
  simp only [List.mem_cons, hother, or_false, set, Option.some.injEq]
  exact eq_comm

/-- The owner of the key has a longer lifetime. -/
theorem Agrees.prolong (hown : get now c = some v) :
  Agrees now (set now ttl v)
    (granted.map (fun g => if g.value = v then ⟨g.value, some (now + ttl)⟩ else g))
  := by
  obtain ⟨x, rfl, -⟩ := get_eq_some.mp hown
  intro g w hg
  rw [List.mem_map]
  constructor
  · rintro ⟨g', hmem, rfl⟩
    split at hg
    · rename_i hvalue
      rw [if_pos hvalue, hvalue, set]
    · rename_i hvalue
      cases (hs g' w hg).mp hmem
      exact absurd rfl hvalue
  · rintro ⟨⟩
    exact ⟨⟨v, x⟩, (hs _ v hown).mpr rfl, if_pos rfl⟩

/-- The owner of the key gives it up. -/
theorem Agrees.giveUp (v : V) :
  Agrees now (c.compareDel now v).1 (granted.filter (fun g => g.value ≠ v))
  := by
  intro g w hg
  simp only [List.mem_filter, decide_eq_true_eq, hs g w hg]
  by_cases hown : get now c = some v
  · obtain ⟨x, rfl, -⟩ := get_eq_some.mp hown
    rw [compareDel_of_eq hown]
    constructor
    · rintro ⟨⟨⟩, hother⟩
      exact absurd rfl hother
    · rintro ⟨⟩
  · rw [compareDel_of_ne hown]
    refine and_iff_left_of_imp ?_
    rintro rfl rfl
    obtain ⟨x, ⟨⟩, -⟩ := get_eq_some.mp hg
    exact hown hg

end Agrees

end Cell

end Redis
