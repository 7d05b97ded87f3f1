import ActivityRelay.Directory.Deadline

/-!
# One scheduler and its directories

A scheduler process visits its configured directories one after another, again and again. The
directories have nothing in common but the order of the visits and the latch `lastNow` of the
process, which is the latest of all clock readings and persisted times so far, whatever directory
they were read for.

So two runs of the process treat a directory in the same way as long as the latch is not ahead of
the directory's own times when the clock is read for it.
-/

namespace Directory

open GoString GoTime Interaction List

def schedulerPollInterval : ℤ := minute
def minimumSchedulerSleep : ℤ := second

/-! ### Calls for one directory -/

/-- What happens to the store and the file of a directory before a call, be it by the passage of
time or by other processes, and what the environment chooses at the call. -/
structure Turn where
  before : World → World := id
  choice : Choice := {}

/-- The result of a program: its value, what it leaves, its calls, and for each reading of the clock
the later of the reading, to the second, and the persisted time. -/
structure Executed (α : Type) where
  value : α
  world : World
  lastNow : ℤ
  calls : List DirectoryOp
  times : List ℤ

/-- The times that a call reads. -/
def DirectoryOp.times (c : Choice) : DirectoryOp → List ℤ
  | .monotonicNow persisted => [max (truncate c.reading) persisted]
  | _ => []

/-- A program is executed, call by call. There is no result if a token is drawn twice. -/
def execute {α : Type} (subject : Subject) :
    (ℕ → Turn) → DirectoryM α → World → Proc → Option (Executed α)
  | _, .pure a, w, p => some ⟨a, w, p.lastNow, [], []⟩
  | turns, .call o k, w, p =>
      match perform subject (turns 0).choice ((turns 0).before w) p o with
      | none => none
      | some (w', p', r) =>
          (execute subject (fun j => turns (j + 1)) (k r) w' p').map (fun e =>
            { e with calls := o :: e.calls, times := o.times (turns 0).choice ++ e.times })

section Execute

variable {subject : Subject} {α : Type}

/-- The latch of a process goes through the times that are read. -/
theorem perform_lastNow {c : Choice} {w w' : World} {p p' : Proc} {o : DirectoryOp} {r : o.Reply}
    (h : perform subject c w p o = some (w', p', r)) :
  p'.lastNow = (o.times c).foldl max p.lastNow
  := by
  cases performs_of_perform h with
  | monotonicNow persisted r hr =>
    change r = max p.lastNow (max (truncate c.reading) persisted)
    omega
  | _ => rfl

/-- Effect and reply of a call do not depend on the process, apart from its latch. -/
theorem perform_agree {c : Choice} {w w₁ w₂ : World} {p p₁ q q₂ : Proc} {o : DirectoryOp}
    {r₁ r₂ : o.Reply} (h : perform subject c w p o = some (w₁, p₁, r₁))
    (h' : perform subject c w q o = some (w₂, q₂, r₂))
    (htimes : ∀ t ∈ o.times c, max p.lastNow t = max q.lastNow t) :
  w₁ = w₂ ∧ r₁ = r₂
  := by
  cases o with
  | monotonicNow persisted =>
    obtain ⟨⟩ := h
    obtain ⟨⟩ := h'
    have := htimes _ (mem_singleton.mpr rfl)
    refine ⟨rfl, ?_⟩
    change max (max (truncate c.reading) p.lastNow) persisted =
      max (max (truncate c.reading) q.lastNow) persisted
    omega
  | acquire =>
    simp only [perform] at h h'
    split at h
    · cases h
    · rename_i hfresh
      rw [if_neg hfresh] at h'
      obtain ⟨⟩ := h
      obtain ⟨⟩ := h'
      exact ⟨rfl, rfl⟩
  | _ =>
    obtain ⟨⟩ := h
    obtain ⟨⟩ := h'
    exact ⟨rfl, rfl⟩

theorem execute_lastNow {turns : ℕ → Turn} {prog : DirectoryM α} {w : World} {p : Proc}
    {e : Executed α} (h : execute subject turns prog w p = some e) :
  e.lastNow = e.times.foldl max p.lastNow
  := by
  induction prog generalizing turns w p e with
  | pure a =>
    obtain ⟨⟩ := h
    rfl
  | call o k ih =>
    unfold execute at h
    split at h
    · cases h
    · rename_i w' p' r hperform
      obtain ⟨e', he', rfl⟩ := Option.map_eq_some_iff.mp h
      rw [ih r he', perform_lastNow hperform, foldl_append]

end Execute

/-! ### The scheduler -/

/-- A scheduler process: its latch, the instant it was started at, and for each directory the store
and the file. -/
structure Scheduler (ι : Type) where
  lastNow : ℤ
  startupBoundary : ℤ
  world : ι → World

/-- The configured directories, in order, and whether their entries are enabled. -/
structure Directories (ι : Type) where
  subject : ι → Subject
  enabled : ι → Bool
  entries : List ι

variable {ι : Type}

/-- The process when its clock reads `reading` at the start of `Run`. -/
def Scheduler.boot (reading : ℤ) (world : ι → World) : Scheduler ι where
  lastNow := 0
  startupBoundary := truncate reading
  world := world

variable (s : Scheduler ι)

/-- The process at the beginning of a visit. -/
def Scheduler.proc : Proc :=
  { Proc.boot 0 with lastNow := s.lastNow, startupBoundary := s.startupBoundary }

def Scheduler.monotonicNow (reading persisted : ℤ) : ℤ :=
  max (max (truncate reading) s.lastNow) persisted

/-- A visit to a directory, with the result of `runDirectory`. -/
structure Visit (ι : Type) where
  directory : ι
  result : Option ℤ
  calls : List DirectoryOp
  times : List ℤ

/-- The next deadline of a visit, the zero instant if there is none. -/
def Visit.nextAttempt (v : Visit ι) : ℤ := v.result.getD 0

/-- The earliest deadline of a cycle. -/
def earliest (vs : List (Visit ι)) : ℤ :=
  vs.foldl (fun earliest v =>
    if v.nextAttempt ≠ 0 ∧ (earliest = 0 ∨ v.nextAttempt < earliest) then v.nextAttempt
    else earliest) 0

/-- The times that `nextWakeDelay` reads. -/
def wakeTimes (reading nextAttempt : ℤ) : List ℤ :=
  if nextAttempt ≠ 0 then [max (truncate reading) 0] else []

/-- How long the process sleeps. -/
def nextWakeDelay (reading nextAttempt : ℤ) : Scheduler ι × ℤ :=
  if nextAttempt ≠ 0 then
    let now := s.monotonicNow reading 0
    ({ s with lastNow := now },
      max (min schedulerPollInterval (nextAttempt - now)) minimumSchedulerSleep)
  else (s, max schedulerPollInterval minimumSchedulerSleep)

/-- The latch after a reading before the sleep. -/
theorem nextWakeDelay_latch (reading nextAttempt : ℤ) :
  (nextWakeDelay s reading nextAttempt).1 =
    { s with lastNow := (wakeTimes reading nextAttempt).foldl max s.lastNow }
  := by
  unfold nextWakeDelay wakeTimes
  split
  · have hnow : s.monotonicNow reading 0 = max s.lastNow (max (truncate reading) 0) := by
      unfold Scheduler.monotonicNow
      omega
    simp only [hnow]
    rfl
  · rfl

variable [DecidableEq ι]

/-- The process after a visit. -/
def Scheduler.visited (s : Scheduler ι) (d : ι) (e : Executed (Option ℤ)) : Scheduler ι :=
  { s with lastNow := e.lastNow, world := Function.update s.world d e.world }

/-- The loop of `runCycle` over the directories. -/
def visits (ds : Directories ι) (turns : ι → ℕ → Turn) :
    List ι → Scheduler ι → Option (Scheduler ι × List (Visit ι))
  | [], s => some (s, [])
  | d :: entries, s =>
      if ds.enabled d then
        match execute (ds.subject d) (turns d) (runDirectory (ds.subject d) s.startupBoundary)
            (s.world d) s.proc with
        | none => none
        | some e =>
            (visits ds turns entries (s.visited d e)).map
              (fun r => (r.1, ⟨d, e.value, e.calls, e.times⟩ :: r.2))
      else visits ds turns entries s

/-- What the environment does in a cycle: the turns of the calls for each directory, and the reading
of the clock before the process goes to sleep. -/
structure Round (ι : Type) where
  turns : ι → ℕ → Turn
  wake : ℤ

/-- A cycle with the sleep after it, and the times that were read for the sleep. -/
structure Cycle (ι : Type) where
  visits : List (Visit ι)
  wake : List ℤ
  delay : ℤ

/-- `Run`, for as many cycles as there are rounds. -/
def cycles (ds : Directories ι) : List (Round ι) → Scheduler ι → Option (List (Cycle ι))
  | [], _ => some []
  | round :: rounds, s =>
      match visits ds round.turns ds.entries s with
      | none => none
      | some (s', vs) =>
          let wake := nextWakeDelay s' round.wake (earliest vs)
          (cycles ds rounds wake.1).map
            (fun cs => ⟨vs, wakeTimes round.wake (earliest vs), wake.2⟩ :: cs)

/-- The calls for a directory. -/
def callsFor (b : ι) (vs : List (Visit ι)) : List DirectoryOp :=
  vs.flatMap (fun v => if v.directory = b then v.calls else [])

/-- A request is among the calls. -/
def requestsIn (calls : List DirectoryOp) : Bool :=
  calls.any (fun o => match o with
    | .status | .send _ _ => true
    | _ => false)

/-- The states that the calls save. -/
def savedIn (calls : List DirectoryOp) : List State :=
  calls.filterMap (fun o => match o with
    | .saveOwned _ state => some state
    | _ => none)

def Cycle.requests (b : ι) (c : Cycle ι) : Bool := requestsIn (callsFor b c.visits)
def Cycle.saved (b : ι) (c : Cycle ι) : List State := savedIn (callsFor b c.visits)

/-- The times that are read, with the directory they are read for. -/
def visitTimes (vs : List (Visit ι)) : List (Option ι × ℤ) :=
  vs.flatMap (fun v => v.times.map (some v.directory, ·))

def Cycle.times (c : Cycle ι) : List (Option ι × ℤ) := visitTimes c.visits ++ c.wake.map (none, ·)

/-! ### Independence -/

/-- Whenever the clock is read for the directory `b`, nothing that was read otherwise is later than
what is read now and was read before for `b`. The first argument is the latest time that was read
otherwise, and the second one the latest that was read for `b`. -/
def NotAhead (b : ι) : ℤ → ℤ → List (Option ι × ℤ) → Prop
  | _, _, [] => True
  | others, own, (d, t) :: times =>
      if d = some b then others ≤ max own t ∧ NotAhead b others (max own t) times
      else NotAhead b (max others t) own times

instance decidableNotAhead (b : ι) :
    (others own : ℤ) → (times : List (Option ι × ℤ)) → Decidable (NotAhead b others own times)
  | _, _, [] => .isTrue trivial
  | others, own, (d, t) :: times =>
      haveI := decidableNotAhead b others (max own t) times
      haveI := decidableNotAhead b (max others t) own times
      inferInstanceAs (Decidable (if d = some b then
        others ≤ max own t ∧ NotAhead b others (max own t) times
      else NotAhead b (max others t) own times))

section NotAhead

variable {b : ι} {others own : ℤ} {rest : List (Option ι × ℤ)}

/-- Times that are read for the directory. -/
theorem NotAhead.after_own {ts : List ℤ} (h : NotAhead b others own (ts.map (some b, ·) ++ rest)) :
  NotAhead b others (ts.foldl max own) rest
  := by
  induction ts generalizing own with
  | nil => exact h
  | cons t ts ih =>
    simp only [map_cons, cons_append, NotAhead, if_true] at h
    apply ih h.2

/-- Times that are read otherwise. -/
theorem NotAhead.after_other {d : Option ι} (hd : d ≠ some b) {ts : List ℤ}
    (h : NotAhead b others own (ts.map (d, ·) ++ rest)) :
  NotAhead b (ts.foldl max others) own rest
  := by
  induction ts generalizing others with
  | nil => exact h
  | cons t ts ih =>
    simp only [map_cons, cons_append, NotAhead, if_neg hd] at h
    apply ih h

/-- The first part of the times. -/
theorem NotAhead.left {times : List (Option ι × ℤ)} (h : NotAhead b others own (times ++ rest)) :
  NotAhead b others own times
  := by
  induction times generalizing others own with
  | nil => trivial
  | cons x times ih =>
    simp only [cons_append, NotAhead] at h ⊢
    split at h
    · rename_i hd
      rw [if_pos hd]
      exact ⟨h.1, ih h.2⟩
    · rename_i hd
      rw [if_neg hd]
      exact ih h

end NotAhead

theorem foldl_max_max (ts : List ℤ) (x y : ℤ) :
  ts.foldl max (max x y) = max x (ts.foldl max y)
  := by
  induction ts generalizing y with
  | nil => rfl
  | cons t ts ih => rw [foldl_cons, foldl_cons, max_assoc, ih]

/-- Two executions of a program for the directory, in processes whose latches are not ahead of the
directory's own times. -/
theorem execute_agree {α : Type} {subject : Subject} {turns : ℕ → Turn} {prog : DirectoryM α}
    {w : World} {p q : Proc} {e e' : Executed α} {b : ι} {others others' own : ℤ}
    (hp : p.lastNow = max others own) (hq : q.lastNow = max others' own)
    (he : execute subject turns prog w p = some e) (he' : execute subject turns prog w q = some e')
    (hahead : NotAhead b others own (e.times.map (some b, ·)))
    (hahead' : NotAhead b others' own (e'.times.map (some b, ·))) :
  e.value = e'.value ∧ e.world = e'.world ∧ e.calls = e'.calls ∧ e.times = e'.times
  := by
  induction prog generalizing turns w p q e e' own with
  | pure a =>
    obtain ⟨⟩ := he
    obtain ⟨⟩ := he'
    exact ⟨rfl, rfl, rfl, rfl⟩
  | call o k ih =>
    unfold execute at he he'
    split at he
    · cases he
    · rename_i w₁ p₁ r₁ hperform
      split at he'
      · cases he'
      · rename_i w₂ q₂ r₂ hperform'
        obtain ⟨e₁, he₁, rfl⟩ := Option.map_eq_some_iff.mp he
        obtain ⟨e₂, he₂, rfl⟩ := Option.map_eq_some_iff.mp he'
        simp only [map_append] at hahead hahead'
        -- the latch is the same after a reading for the directory
        have htimes : ∀ t ∈ o.times (turns 0).choice, max p.lastNow t = max q.lastNow t := by
          intro t ht
          have h := hahead.left
          have h' := hahead'.left
          cases o with
          | monotonicNow persisted =>
            obtain rfl := mem_singleton.mp ht
            simp only [DirectoryOp.times, map_cons, map_nil, NotAhead, if_true] at h h'
            omega
          | _ => cases ht
        obtain ⟨rfl, rfl⟩ := perform_agree hperform hperform' htimes
        have hp₁ := perform_lastNow hperform
        have hq₂ := perform_lastNow hperform'
        rw [hp, foldl_max_max] at hp₁
        rw [hq, foldl_max_max] at hq₂
        obtain ⟨hvalue, hworld, hcalls, hrest⟩ := ih r₁ hp₁ hq₂ he₁ he₂ hahead.after_own hahead'.after_own
        refine ⟨hvalue, hworld, ?_, ?_⟩
        · dsimp only
          rw [hcalls]
        · dsimp only
          rw [hrest]

/-- Two processes agree on a directory, up to what their latches have from elsewhere. -/
structure Agree (b : ι) (others others' own : ℤ) (s s' : Scheduler ι) : Prop where
  world : s.world b = s'.world b
  boundary : s.startupBoundary = s'.startupBoundary
  latch : s.lastNow = max others own
  latch' : s'.lastNow = max others' own

section Agree

variable {b : ι} {ds : Directories ι} {others others' own : ℤ} {s s' t t' : Scheduler ι}
  {rest rest' : List (Option ι × ℤ)}

/-- A visit to the directory. -/
theorem Agree.visited_own {e e' : Executed (Option ℤ)} (h : Agree b others others' own s s')
    (hworld : e.world = e'.world) (hlatch : e.lastNow = e.times.foldl max s.lastNow)
    (hlatch' : e'.lastNow = e.times.foldl max s'.lastNow) :
  Agree b others others' (e.times.foldl max own) (s.visited b e) (s'.visited b e')
  := by
  refine ⟨?_, h.boundary, ?_, ?_⟩
  · simp only [Scheduler.visited, Function.update_self, hworld]
  · rw [Scheduler.visited, hlatch, h.latch, foldl_max_max]
  · rw [Scheduler.visited, hlatch', h.latch', foldl_max_max]

/-- A visit to another directory. -/
theorem Agree.visited_other {d : ι} (hd : d ≠ b) {e e' : Executed (Option ℤ)}
    (h : Agree b others others' own s s') (hlatch : e.lastNow = e.times.foldl max s.lastNow)
    (hlatch' : e'.lastNow = e'.times.foldl max s'.lastNow) :
  Agree b (e.times.foldl max others) (e'.times.foldl max others') own (s.visited d e)
    (s'.visited d e')
  := by
  refine ⟨?_, h.boundary, ?_, ?_⟩
  · simp only [Scheduler.visited, Function.update_of_ne (Ne.symm hd), h.world]
  · rw [Scheduler.visited, hlatch, h.latch, max_comm, foldl_max_max, max_comm]
  · rw [Scheduler.visited, hlatch', h.latch', max_comm, foldl_max_max, max_comm]

/-- The visits of a cycle. -/
theorem Agree.visits {turns turns' : ι → ℕ → Turn} (hturns : turns b = turns' b) {entries : List ι}
    {vs vs' : List (Visit ι)} (h : Agree b others others' own s s')
    (hvs : visits ds turns entries s = some (t, vs))
    (hvs' : Directory.visits ds turns' entries s' = some (t', vs'))
    (hahead : NotAhead b others own (visitTimes vs ++ rest))
    (hahead' : NotAhead b others' own (visitTimes vs' ++ rest')) :
  callsFor b vs = callsFor b vs' ∧ ∃ others₁ others₁' own₁, Agree b others₁ others₁' own₁ t t' ∧
    NotAhead b others₁ own₁ rest ∧ NotAhead b others₁' own₁ rest'
  := by
  induction entries generalizing others others' own s s' vs vs' with
  | nil =>
    obtain ⟨⟩ := hvs
    obtain ⟨⟩ := hvs'
    exact ⟨rfl, others, others', own, h, hahead, hahead'⟩
  | cons d entries ih =>
    unfold Directory.visits at hvs hvs'
    split at hvs
    · rename_i henabled
      rw [if_pos henabled] at hvs'
      split at hvs
      · cases hvs
      · rename_i e he
        split at hvs'
        · cases hvs'
        · rename_i e' he'
          obtain ⟨⟨t₁, vs₁⟩, hrest, heq⟩ := Option.map_eq_some_iff.mp hvs
          obtain ⟨rfl, rfl⟩ := heq
          obtain ⟨⟨t₂, vs₂⟩, hrest', heq'⟩ := Option.map_eq_some_iff.mp hvs'
          obtain ⟨rfl, rfl⟩ := heq'
          simp only [visitTimes, flatMap_cons, append_assoc] at hahead hahead'
          have hlatch := execute_lastNow he
          have hlatch' := execute_lastNow he'
          by_cases hd : d = b
          · subst hd
            rw [← hturns, ← h.world, ← h.boundary] at he'
            obtain ⟨-, hworld, hcalls, htimes⟩ := execute_agree h.latch h.latch' he he'
              hahead.left hahead'.left
            rw [← htimes] at hlatch' hahead'
            obtain ⟨hlater, hnext⟩ := ih (h.visited_own hworld hlatch hlatch') hrest hrest'
              hahead.after_own hahead'.after_own
            refine ⟨?_, hnext⟩
            simp only [callsFor, flatMap_cons, if_true, hcalls]
            exact congrArg _ hlater
          · have hother : some d ≠ some b := fun heq => hd (Option.some.inj heq)
            obtain ⟨hlater, hnext⟩ := ih (h.visited_other hd hlatch hlatch') hrest hrest'
              (hahead.after_other hother) (hahead'.after_other hother)
            refine ⟨?_, hnext⟩
            simp only [callsFor, flatMap_cons, if_neg hd]
            exact hlater
    · rename_i henabled
      rw [if_neg henabled] at hvs'
      exact ih h hvs hvs' hahead hahead'

/-- The cycles of two processes. -/
theorem Agree.cycles {rounds rounds' : List (Round ι)} {cs cs' : List (Cycle ι)}
    (hrounds : List.Forall₂ (fun round round' => round.turns b = round'.turns b) rounds rounds')
    (h : Agree b others others' own s s') (hcs : cycles ds rounds s = some cs)
    (hcs' : Directory.cycles ds rounds' s' = some cs')
    (hahead : NotAhead b others own (cs.flatMap Cycle.times))
    (hahead' : NotAhead b others' own (cs'.flatMap Cycle.times)) :
  cs.map (fun c => callsFor b c.visits) = cs'.map (fun c => callsFor b c.visits)
  := by
  induction hrounds generalizing others others' own s s' cs cs' with
  | nil =>
    obtain ⟨⟩ := hcs
    obtain ⟨⟩ := hcs'
    rfl
  | @cons round round' rounds rounds' hturns _ ih =>
    unfold Directory.cycles at hcs hcs'
    split at hcs
    · cases hcs
    · rename_i t vs hvs
      split at hcs'
      · cases hcs'
      · rename_i t' vs' hvs'
        obtain ⟨cs₁, hrest, rfl⟩ := Option.map_eq_some_iff.mp hcs
        obtain ⟨cs₁', hrest', rfl⟩ := Option.map_eq_some_iff.mp hcs'
        simp only [flatMap_cons, Cycle.times, append_assoc] at hahead hahead'
        obtain ⟨hcalls, others₁, others₁', own₁, hagree, hnext, hnext'⟩ :=
          h.visits hturns hvs hvs' hahead hahead'
        rw [nextWakeDelay_latch] at hrest hrest'
        have hwake : Agree b ((wakeTimes round.wake (earliest vs)).foldl max others₁)
            ((wakeTimes round'.wake (earliest vs')).foldl max others₁') own₁
            { t with lastNow := (wakeTimes round.wake (earliest vs)).foldl max t.lastNow }
            { t' with lastNow := (wakeTimes round'.wake (earliest vs')).foldl max t'.lastNow } := by
          refine ⟨hagree.world, hagree.boundary, ?_, ?_⟩
          · rw [hagree.latch, max_comm, foldl_max_max, max_comm]
          · rw [hagree.latch', max_comm, foldl_max_max, max_comm]
        simp only [map_cons, hcalls]
        have hother : none ≠ some b := (Option.some_ne_none b).symm
        rw [ih hwake hrest hrest' (hnext.after_other hother) (hnext'.after_other hother)]

end Agree

/-- Two runs of a scheduler process whose directories are the same, and in which the store, the
file, the clock and the answers are the same for the directory `b`. If no time that is read for
another directory or for the sleep is later than those of `b` when the clock is read for `b`, then
requests are sent to `b` in the same cycles and the same states are saved for it. -/
theorem directory_independent (ds : Directories ι) (b : ι) (reading : ℤ) {world world' : ι → World}
    {rounds rounds' : List (Round ι)} {cs cs' : List (Cycle ι)} (hworld : world b = world' b)
    (hrounds : List.Forall₂ (fun round round' => round.turns b = round'.turns b) rounds rounds')
    (hcs : cycles ds rounds (.boot reading world) = some cs)
    (hcs' : cycles ds rounds' (.boot reading world') = some cs')
    (hahead : NotAhead b 0 0 (cs.flatMap Cycle.times))
    (hahead' : NotAhead b 0 0 (cs'.flatMap Cycle.times)) :
  cs.map (Cycle.requests b) = cs'.map (Cycle.requests b) ∧
    cs.map (Cycle.saved b) = cs'.map (Cycle.saved b)
  := by
  have hstart : Agree b 0 0 0 (.boot reading world) (.boot reading world') :=
    ⟨hworld, rfl, rfl, rfl⟩
  have hcalls := hstart.cycles hrounds hcs hcs' hahead hahead'
  constructor
  · have hrequests := congrArg (List.map requestsIn) hcalls
    rw [map_map, map_map] at hrequests
    exact hrequests
  · have hsaved := congrArg (List.map savedIn) hcalls
    rw [map_map, map_map] at hsaved
    exact hsaved

/-- A relay with two directories. -/
def twoDirectories : Directories Bool where
  subject := fun d => if d then relaySubject else { relaySubject with
    origin := lit "https://other.example", nonempty := by decide }
  enabled := fun _ => true
  entries := [false, true]

/-- A directory that has had a heartbeat at the given second. -/
def heartbeatAt (seconds : ℤ) : World where
  now := 0
  keys := ⟨Redis.Cell.set 0 stateRetention (stateArguments
    { staleState with
      lastSuccess := ofUnix seconds
      nextAttempt := ofUnix (seconds + 86400)
      lastObserved := ofUnix seconds
      profileDigest := configuredDigest }), none⟩
  issued := []
  file := some enabledConfig

/-- The second directory has had a heartbeat when the process is started, and the first one at the
given second. -/
def otherAt (seconds : ℤ) (d : Bool) : World := heartbeatAt (if d then 1700000000 else seconds)

/-- A cycle a minute later. The first directory answers as given. -/
def minuteLater (reply : Except ClientError Unit) : Round Bool where
  turns := fun d _ =>
    { choice := {
        reading := ofUnix 1700000060
        token := lit "lease"
        reply := if d then .ok () else reply } }
  wake := ofUnix 1700000060

def cyclesOf (seconds : ℤ) (reply : Except ClientError Unit) : Option (List (Cycle Bool)) :=
  cycles twoDirectories [minuteLater reply] (.boot (ofUnix 1700000000) (otherAt seconds))

/-- In one of the runs the first directory is due and answers with an error. -/
theorem directory_independent_of_failure :
  ∃ cs cs', cyclesOf 1700000000 (.ok ()) = some cs ∧
    cyclesOf 1600000000 (.error .transport) = some cs' ∧
    cs.map (Cycle.requests false) ≠ cs'.map (Cycle.requests false) ∧
    cs.map (Cycle.requests true) = cs'.map (Cycle.requests true)
  := by
  have hcs := (Option.some_get (x := cyclesOf 1700000000 (.ok ())) rfl).symm
  have hcs' := (Option.some_get (x := cyclesOf 1600000000 (.error .transport)) rfl).symm
  have hworld : otherAt 1700000000 true = otherAt 1600000000 true := rfl
  have hrounds : List.Forall₂ (fun round round' => round.turns true = round'.turns true)
      [minuteLater (.ok ())] [minuteLater (.error .transport)] := .cons rfl .nil
  refine ⟨_, _, hcs, hcs', by decide +kernel, ?_⟩
  exact (directory_independent twoDirectories true _ hworld hrounds hcs hcs' (by decide +kernel)
    (by decide +kernel)).1

/-- In one of the runs the persisted time of the first directory is two days ahead, and the second
directory gets its next heartbeat a day early. -/
theorem directory_depends_on_other :
  ∃ cs cs', otherAt 1700000000 true = otherAt 1700172800 true ∧
    cyclesOf 1700000000 (.ok ()) = some cs ∧ cyclesOf 1700172800 (.ok ()) = some cs' ∧
    cs.map (Cycle.requests true) = [false] ∧ cs'.map (Cycle.requests true) = [true]
  := by
  have hcs := (Option.some_get (x := cyclesOf 1700000000 (.ok ())) rfl).symm
  have hcs' := (Option.some_get (x := cyclesOf 1700172800 (.ok ())) rfl).symm
  exact ⟨_, _, rfl, hcs, hcs', by decide +kernel, by decide +kernel⟩

end Directory
