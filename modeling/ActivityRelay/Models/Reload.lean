import ActivityRelay.Models.PublisherRecords

/-!
# Reloading publishers

`Load` reads the records of the publishers without the lock and publishes them much later. What
calls of `RecordPublisherActivity` have merged meanwhile is lost. If nothing is merged and nothing
else is published between the start of the scan and the publication, then no count in memory goes
down.

The argument rests on what memory, the calls and the reloads have in common: they never have a
count above that of Redis (`Grounded`). A reload that is undisturbed reads, for every record that
was in memory at its start, a count that is at least as large (`GroundedLoad`).
-/

namespace Models

open Function GoString List Transition

/-! ### What a reload can rely on -/

/-- `SCAN` returns every key that is there from its start to its end, and only keys that are there
at some time. It may return a key more than once. -/
def CompleteScan (s : Recording) : RecordEvent → Prop
  | .scanned j keys =>
      ∀ config present version, s.loads[j]? = some (.scanning config present version) →
        (∀ domain, (present domain).isSome → domain ∈ keys) ∧
          ∀ domain ∈ keys, (s.redis domain).isSome
  | _ => True

/-- A reload publishes only if nothing was merged and nothing else was published since the start
of its scan. -/
def Undisturbed (s : Recording) : RecordEvent → Prop
  | .publish j => ∀ l ∈ s.loads[j]?, l.version = s.version
  | _ => True

/-- A record that is not ahead of Redis. -/
def NotAhead (redis : GoString → Option Hash) (p : Publisher) : Prop :=
  (redis p.domain).isSome ∧ p.activityCount ≤ countIn redis p.domain

/-- What is known of a reload. -/
inductive GroundedLoad (s : Recording) : LoadCall → Prop
  | scanning {config : RelayState} {present : GoString → Option Hash} {version : ℕ}
      (version_le : version ≤ s.version)
      (found : version = s.version → ∀ p ∈ s.memory.publishers, (present p.domain).isSome) :
      GroundedLoad s (.scanning config present version)
  | reading {config : RelayState} {version : ℕ} {read : List Publisher} {left : List GoString}
      (version_le : version ≤ s.version)
      (sorted : (read.map Publisher.domain ++ left).Pairwise (· ≤ ·))
      (notAhead : ∀ p ∈ read, NotAhead s.redis p)
      (exist : ∀ domain ∈ left, (s.redis domain).isSome)
      -- A domain that is read twice has grown in between.
      (grown : read.Pairwise (fun p q => p.domain = q.domain → p.activityCount ≤ q.activityCount))
      (found : version = s.version → ∀ p ∈ s.memory.publishers, p.domain ∈ left ∨
        ∃ q ∈ read, q.domain = p.domain ∧ p.activityCount ≤ q.activityCount) :
      GroundedLoad s (.reading config version read left)

/-- Nothing is ahead of Redis, and the map has the largest count of each domain. -/
structure Grounded (s : Recording) : Prop where
  sorted : s.memory.publishers.Pairwise (fun p q => p.domain ≤ q.domain)
  notAhead : ∀ p ∈ s.memory.publishers, NotAhead s.redis p
  map_mem : ∀ domain p, s.memory.publishersByDomain domain = some p →
    p ∈ s.memory.publishers ∧ p.domain = domain
  map_max : ∀ p ∈ s.memory.publishers, ∃ q, s.memory.publishersByDomain p.domain = some q ∧
    p.activityCount ≤ q.activityCount
  records : ∀ c ∈ s.records, NotAhead s.redis c.publisher
  loads : ∀ l ∈ s.loads, GroundedLoad s l

/-! ### Redis only grows -/

/-- No key goes away, and no count goes down. -/
def Grows (redis redis' : GoString → Option Hash) : Prop :=
  ∀ domain, ((redis domain).isSome → (redis' domain).isSome) ∧
    countIn redis domain ≤ countIn redis' domain

theorem grows_refl (redis : GoString → Option Hash) :
  Grows redis redis
  := fun _ => ⟨id, le_refl _⟩

variable {domain : GoString}

theorem grows_update {redis : GoString → Option Hash} {h : Hash}
    (hcount : countIn redis domain ≤ activityCount h) :
  Grows redis (update redis domain (some h))
  := by
  intro d
  by_cases hd : d = domain
  · subst hd
    simp only [countIn, update_self] at hcount ⊢
    exact ⟨fun _ => rfl, hcount⟩
  · rw [countIn, countIn, update_of_ne hd]
    exact ⟨id, le_refl _⟩

theorem NotAhead.grows {redis redis' : GoString → Option Hash} {p : Publisher}
    (hp : NotAhead redis p) (hgrows : Grows redis redis') :
  NotAhead redis' p
  := ⟨(hgrows p.domain).1 hp.1, le_trans hp.2 (hgrows p.domain).2⟩

/-- What is known of a reload stays known as Redis grows. -/
theorem GroundedLoad.grows {s s' : Recording} {l : LoadCall} (hl : GroundedLoad s l)
    (hgrows : Grows s.redis s'.redis) (hversion : s'.version = s.version)
    (hmemory : s'.memory = s.memory) :
  GroundedLoad s' l
  := by
  cases hl with
  | scanning hle hfound =>
    rw [← hversion] at hle hfound
    rw [← hmemory] at hfound
    exact .scanning hle hfound
  | reading hle hsorted hnot hexist hgrown hfound =>
    rw [← hversion] at hle hfound
    rw [← hmemory] at hfound
    refine .reading hle hsorted ?_ ?_ hgrown hfound
    · intro p hp
      exact (hnot p hp).grows hgrows
    · intro d hd
      exact (hgrows d).1 (hexist d hd)

/-- A reload that has started before memory changes does not rely on memory any more. -/
theorem GroundedLoad.changed {s s' : Recording} {l : LoadCall} (hl : GroundedLoad s l)
    (hredis : s'.redis = s.redis) (hversion : s'.version = s.version + 1) :
  GroundedLoad s' l
  := by
  cases hl with
  | scanning hle hfound => exact .scanning (by omega) (by omega)
  | reading hle hsorted hnot hexist hgrown hfound =>
    rw [← hredis] at hnot hexist
    exact .reading (by omega) hsorted hnot hexist hgrown (by omega)

/-- Memory stays grounded as Redis grows. -/
theorem Grounded.grows {s s' : Recording} (hs : Grounded s) (hgrows : Grows s.redis s'.redis)
    (hmemory : s'.memory = s.memory) (hversion : s'.version = s.version)
    (hrecords : ∀ c ∈ s'.records, NotAhead s'.redis c.publisher)
    (hloads : ∀ l ∈ s'.loads, l ∈ s.loads) :
  Grounded s'
  := by
  have hnot := hs.notAhead
  refine ⟨hmemory ▸ hs.sorted, ?_, hmemory ▸ hs.map_mem, hmemory ▸ hs.map_max, hrecords, ?_⟩
  · intro p hp
    rw [hmemory] at hp
    exact (hnot p hp).grows hgrows
  · intro l hl
    exact (hs.loads l (hloads l hl)).grows hgrows hversion hmemory

/-! ### What the steps can do -/

section Steps

variable {U : CaseTable} {s s' : Recording} {j : ℕ}

/-- The start of a call lets Redis grow, and the call is not ahead of it. -/
theorem transact_spec (outcome : Redis.Outcome) (p : Publisher) (now : GoString) :
  Grows s.redis (s.transact U outcome p now).redis ∧
    (s.transact U outcome p now).version = s.version ∧
    (s.transact U outcome p now).loads = s.loads ∧
    ∀ c ∈ (s.transact U outcome p now).records, c ∈ s.records ∨
      NotAhead (s.transact U outcome p now).redis c.publisher
  := by
  have hsame := grows_refl s.redis
  unfold Recording.transact
  generalize normalizeStateDomain U p.domain = domain
  by_cases hempty : domain = []
  · rw [if_pos hempty]
    exact ⟨hsame, rfl, rfl, fun c hc => .inl hc⟩
  rw [if_neg hempty]
  dsimp only
  generalize (if p.lastSeen = [] then now else p.lastSeen) = seenAt
  have hle : countIn s.redis domain
      ≤ activityCount (recordTransaction p seenAt ((s.redis domain).getD (fun _ => none))).1 := by
    rw [countIn_eq]
    exact activityCount_le_recordTransaction
  rcases hr : recordTransaction p seenAt ((s.redis domain).getD (fun _ => none)) with ⟨h, n⟩
  rw [hr] at hle
  have hgrows := grows_update hle
  rcases outcome with _ | _ | _
  · cases n with
    | none => exact ⟨hgrows, rfl, rfl, fun c hc => .inl hc⟩
    | some n =>
      refine ⟨hgrows, rfl, rfl, ?_⟩
      intro c hc
      rcases mem_append.mp hc with hc | hc
      · exact .inl hc
      · right
        obtain rfl := mem_singleton.mp hc
        simp only [NotAhead, countIn, update_self, Option.isSome_some, Option.map_some,
          Option.getD_some, true_and]
        exact (activityCount_recordTransaction hr).ge
  · exact ⟨hsame, rfl, rfl, fun c hc => .inl hc⟩
  · cases n <;> exact ⟨hgrows, rfl, rfl, fun c hc => .inl hc⟩

theorem step_other {hash : Hash} (h : recordStep U s (.other domain hash) = some s') :
  countIn s.redis domain ≤ activityCount hash ∧
    s' = { s with redis := update s.redis domain (some hash) }
  := by
  simp only [recordStep] at h
  split at h
  · rename_i hle
    exact ⟨hle, (Option.some.inj h).symm⟩
  · cases h

theorem step_scanned {keys : List GoString} (h : recordStep U s (.scanned j keys) = some s') :
  ∃ config present version, s.loads[j]? = some (.scanning config present version) ∧
    s' = { s with loads := s.loads.set j (.reading config version [] (sortStrings keys)) }
  := by
  simp only [recordStep] at h
  split at h
  · rename_i config present version hj
    exact ⟨config, present, version, hj, (Option.some.inj h).symm⟩
  · cases h

theorem step_read (h : recordStep U s (.read j) = some s') :
  ∃ config version read domain left,
    s.loads[j]? = some (.reading config version read (domain :: left)) ∧
    s' = { s with
      loads := s.loads.set j (.reading config version
        (read ++ [loadPublisher domain ((s.redis domain).getD (fun _ => none))]) left) }
  := by
  simp only [recordStep] at h
  split at h
  · rename_i config version read domain left hj
    exact ⟨config, version, read, domain, left, hj, (Option.some.inj h).symm⟩
  · cases h

theorem step_publish (h : recordStep U s (.publish j) = some s') :
  ∃ config version read, s.loads[j]? = some (.reading config version read []) ∧
    s' = { s with
      memory := config.withPublishers read
      loads := s.loads.eraseIdx j
      version := s.version + 1 }
  := by
  simp only [recordStep] at h
  split at h
  · rename_i config version read hj
    exact ⟨config, version, read, hj, (Option.some.inj h).symm⟩
  · cases h

theorem step_abort (h : recordStep U s (.abort j) = some s') :
  s' = { s with loads := s.loads.eraseIdx j }
  := by
  simp only [recordStep] at h
  split at h
  · exact (Option.some.inj h).symm
  · cases h

end Steps

/-! ### Nothing gets ahead of Redis -/

section Grounded

variable {U : CaseTable} {s s' : Recording} {j : ℕ}

/-- A record that replaces another one of its domain has a count that is as large as any. -/
theorem Grounded.le_of_replaced {p q : Publisher} (hs : Grounded s) (hp : p ∈ s.memory.publishers)
    (hdomain : p.domain = q.domain)
    (hq : ∀ r, s.memory.publishersByDomain q.domain = some r → r.activityCount ≤ q.activityCount) :
  p.activityCount ≤ q.activityCount
  := by
  obtain ⟨r, hr, hle⟩ := hs.map_max p hp
  rw [hdomain] at hr
  exact le_trans hle (hq r hr)

/-- A record that is merged keeps memory grounded. -/
theorem grounded_merge {i : ℕ} (hs : Grounded s) (h : recordStep U s (.merge i) = some s') :
  Grounded s'
  := by
  obtain ⟨c, hc, -, rfl⟩ := step_merge h
  have hnew := hs.records c (mem_of_getElem? hc)
  have hrecords : ∀ c' ∈ s.records.eraseIdx i, NotAhead s.redis c'.publisher :=
    fun c' hc' => hs.records c' (mem_of_mem_eraseIdx hc')
  have hloads : ∀ l ∈ s.loads, GroundedLoad { s with
      memory := s.memory.merge c.publisher
      records := s.records.eraseIdx i
      version := s.version + 1 } l := fun l hl => (hs.loads l hl).changed rfl rfl
  rcases s.memory.merge_cases c.publisher with heq | ⟨heq, hlargest⟩
  · rw [heq] at hloads ⊢
    exact ⟨hs.sorted, hs.notAhead, hs.map_mem, hs.map_max, hrecords, hloads⟩
  · rw [heq] at hloads ⊢
    refine ⟨GoSort.upsert_sorted hs.sorted _, ?_, ?_, ?_, hrecords, hloads⟩
    · intro p hp
      rcases GoSort.eq_or_mem_of_mem_upsert hs.sorted hp with rfl | hp
      · exact hnew
      · exact hs.notAhead p hp
    · intro domain p hp
      dsimp only at hp
      rw [update_apply] at hp
      split at hp
      · rename_i hdomain
        cases hp
        exact ⟨GoSort.mem_upsert_self hs.sorted _, hdomain.symm⟩
      · rename_i hdomain
        obtain ⟨hmem, rfl⟩ := hs.map_mem domain p hp
        exact ⟨GoSort.mem_upsert_of_ne hs.sorted hmem hdomain, rfl⟩
    · intro p hp
      dsimp only
      by_cases hdomain : p.domain = c.publisher.domain
      · refine ⟨c.publisher, by rw [hdomain, update_self], ?_⟩
        rcases GoSort.eq_or_mem_of_mem_upsert hs.sorted hp with rfl | hp
        · exact le_refl _
        · exact hs.le_of_replaced hp hdomain hlargest
      · rw [update_of_ne hdomain]
        rcases GoSort.eq_or_mem_of_mem_upsert hs.sorted hp with rfl | hp
        · exact absurd rfl hdomain
        · exact hs.map_max p hp

/-- The map that is made of records in the order in which they were read has the largest count of
each domain. -/
theorem publisherSet_max {ps : List Publisher}
    (hps : ps.Pairwise (fun p q => p.domain = q.domain → p.activityCount ≤ q.activityCount))
    {p : Publisher} (hp : p ∈ ps) :
  ∃ q, publisherSet ps p.domain = some q ∧ p.activityCount ≤ q.activityCount
  := by
  unfold publisherSet
  cases hfind : ps.reverse.find? (fun q => q.domain = p.domain) with
  | none =>
    have := List.find?_eq_none.mp hfind p (by simpa using hp)
    simp at this
  | some q =>
    use q, rfl
    obtain ⟨hq, as, bs, hsplit, has⟩ := List.find?_eq_some_iff_append.mp hfind
    have hparts : ps = bs.reverse ++ q :: as.reverse := by
      have := congrArg List.reverse hsplit
      simpa using this
    rw [hparts] at hp hps
    simp only [mem_append, mem_reverse, mem_cons] at hp
    simp only [decide_eq_true_eq] at hq
    rcases hp with hp | rfl | hp
    · exact (pairwise_append.mp hps).2.2 p (by simpa using hp) q (by simp) hq.symm
    · exact le_refl _
    · have := has p hp
      simp at this

/-- What a reload publishes is grounded. -/
theorem grounded_publish (hs : Grounded s) (h : recordStep U s (.publish j) = some s') :
  Grounded s'
  := by
  obtain ⟨config, version, read, hj, rfl⟩ := step_publish h
  have hload := hs.loads _ (mem_of_getElem? hj)
  cases hload with
  | reading hle hsorted hnot hexist hgrown hfound =>
    refine ⟨?_, hnot, ?_, ?_, hs.records, ?_⟩
    · rw [append_nil, pairwise_map] at hsorted
      exact hsorted
    · intro domain p hp
      exact publisherSet_mem hp
    · intro p hp
      exact publisherSet_max hgrown hp
    · intro l hl
      exact (hs.loads l (mem_of_mem_eraseIdx hl)).changed rfl rfl

theorem grounded_scanned {keys : List GoString} (hs : Grounded s)
    (hscan : CompleteScan s (.scanned j keys)) (h : recordStep U s (.scanned j keys) = some s') :
  Grounded s'
  := by
  obtain ⟨config, present, version, hj, rfl⟩ := step_scanned h
  obtain ⟨hcomplete, hexist⟩ := hscan config present version hj
  refine ⟨hs.sorted, hs.notAhead, hs.map_mem, hs.map_max, hs.records, ?_⟩
  intro l hl
  rcases mem_or_eq_of_mem_set hl with hl | rfl
  · exact (hs.loads l hl).grows (grows_refl _) rfl rfl
  · cases hs.loads _ (mem_of_getElem? hj) with
    | scanning hle hfound =>
      refine .reading hle ?_ (by simp) ?_ List.Pairwise.nil ?_
      · exact sortStrings_sorted keys
      · intro domain hdomain
        exact hexist domain (mem_sortStrings.mp hdomain)
      · intro hversion p hp
        left
        exact mem_sortStrings.mpr (hcomplete _ (hfound hversion p hp))

theorem grounded_read (hs : Grounded s) (h : recordStep U s (.read j) = some s') :
  Grounded s'
  := by
  obtain ⟨config, version, read, domain, left, hj, rfl⟩ := step_read h
  refine ⟨hs.sorted, hs.notAhead, hs.map_mem, hs.map_max, hs.records, ?_⟩
  intro l hl
  rcases mem_or_eq_of_mem_set hl with hl | rfl
  · exact (hs.loads l hl).grows (grows_refl _) rfl rfl
  cases hs.loads _ (mem_of_getElem? hj) with
  | reading hle hsorted hnot hexist hgrown hfound =>
    have hthere := hexist domain (by simp)
    have hcount : activityCount ((s.redis domain).getD (fun _ => none)) = countIn s.redis domain :=
      (countIn_eq s.redis domain).symm
    refine .reading hle ?_ ?_ ?_ ?_ ?_
    · simpa [loadPublisher] using hsorted
    · intro p hp
      rcases mem_append.mp hp with hp | hp
      · exact hnot p hp
      · obtain rfl := mem_singleton.mp hp
        exact ⟨hthere, hcount.le⟩
    · intro d hd
      exact hexist d (mem_cons_of_mem _ hd)
    · rw [pairwise_append]
      refine ⟨hgrown, pairwise_singleton _ _, ?_⟩
      intro p hp q hq hdomain
      obtain rfl := mem_singleton.mp hq
      have := (hnot p hp).2
      rw [hdomain] at this
      exact le_trans this hcount.ge
    · intro hversion p hp
      rcases hfound hversion p hp with hleft | ⟨q, hq, hmatch⟩
      · rcases mem_cons.mp hleft with hdomain | hleft
        · right
          refine ⟨_, mem_append_right _ (mem_singleton_self _), hdomain.symm, ?_⟩
          have := (hs.notAhead p hp).2
          rw [hdomain] at this
          exact le_trans this hcount.ge
        · exact .inl hleft
      · exact .inr ⟨q, mem_append_left _ hq, hmatch⟩

theorem grounded_step {e : RecordEvent} (hs : Grounded s) (hscan : CompleteScan s e)
    (h : recordStep U s e = some s') :
  Grounded s'
  := by
  cases e with
  | transact outcome p now =>
    cases h
    obtain ⟨hgrows, hversion, hloads, hrecords⟩ := transact_spec (U := U) (s := s) outcome p now
    refine hs.grows hgrows (transact_memory outcome p now) hversion ?_ (by simp [hloads])
    intro c hc
    rcases hrecords c hc with hold | hnew
    · exact (hs.records c hold).grows hgrows
    · exact hnew
  | readFirstSeen i ok =>
    obtain ⟨c, hc, rfl | ⟨hash, v, -, -, rfl⟩⟩ := step_readFirstSeen h
    · refine hs.grows (grows_refl _) rfl rfl ?_ (fun l hl => hl)
      exact fun c' hc' => hs.records c' (mem_of_mem_eraseIdx hc')
    · refine hs.grows (grows_refl _) rfl rfl ?_ (fun l hl => hl)
      intro c' hc'
      rcases mem_or_eq_of_mem_set hc' with hc' | rfl
      · exact hs.records c' hc'
      · exact hs.records c (mem_of_getElem? hc)
  | merge i => exact grounded_merge hs h
  | other domain hash =>
    obtain ⟨hle, rfl⟩ := step_other h
    have hgrows := grows_update hle
    exact hs.grows hgrows rfl rfl (fun c hc => (hs.records c hc).grows hgrows) (fun l hl => hl)
  | load config =>
    cases h
    refine ⟨hs.sorted, hs.notAhead, hs.map_mem, hs.map_max, hs.records, ?_⟩
    intro l hl
    rcases mem_append.mp hl with hl | hl
    · exact (hs.loads l hl).grows (grows_refl _) rfl rfl
    · obtain rfl := mem_singleton.mp hl
      exact .scanning (le_refl _) (fun _ p hp => (hs.notAhead p hp).1)
  | scanned j keys => exact grounded_scanned hs hscan h
  | read j => exact grounded_read hs h
  | publish j => exact grounded_publish hs h
  | abort j =>
    obtain rfl := step_abort h
    exact hs.grows (grows_refl _) rfl rfl hs.records (fun l hl => mem_of_mem_eraseIdx hl)

/-- A snapshot has a domain with at least the count `n`. -/
def Visible (s : Recording) (domain : GoString) (n : ℤ) : Prop :=
  ∃ p ∈ s.memory.publishers, p.domain = domain ∧ n ≤ p.activityCount

/-- A merge lowers no count. -/
theorem visible_merge {i : ℕ} {n : ℤ} (hs : Grounded s) (hvisible : Visible s domain n)
    (h : recordStep U s (.merge i) = some s') :
  Visible s' domain n
  := by
  obtain ⟨c, -, -, rfl⟩ := step_merge h
  obtain ⟨p, hp, rfl, hle⟩ := hvisible
  rcases s.memory.merge_cases c.publisher with heq | ⟨heq, hlargest⟩
  · rw [Visible, heq]
    exact ⟨p, hp, rfl, hle⟩
  · rw [Visible, heq]
    by_cases hdomain : p.domain = c.publisher.domain
    · refine ⟨c.publisher, GoSort.mem_upsert_self hs.sorted _, hdomain.symm, ?_⟩
      exact le_trans hle (hs.le_of_replaced hp hdomain hlargest)
    · exact ⟨p, GoSort.mem_upsert_of_ne hs.sorted hp hdomain, rfl, hle⟩

/-- A reload that is undisturbed lowers no count. -/
theorem visible_publish {n : ℤ} (hs : Grounded s) (hquiet : Undisturbed s (.publish j))
    (hvisible : Visible s domain n) (h : recordStep U s (.publish j) = some s') :
  Visible s' domain n
  := by
  obtain ⟨config, version, read, hj, rfl⟩ := step_publish h
  obtain ⟨p, hp, rfl, hle⟩ := hvisible
  have hversion : version = s.version := hquiet (.reading config version read []) (by rw [hj]; rfl)
  cases hs.loads _ (mem_of_getElem? hj) with
  | reading _ _ _ _ _ hfound =>
    rcases hfound hversion p hp with hleft | ⟨q, hq, hdomain, hcount⟩
    · cases hleft
    · exact ⟨q, hq, hdomain, by omega⟩

/-- No step takes back a count that memory shows, if the reloads are undisturbed. -/
theorem visible_step {e : RecordEvent} {n : ℤ} (hs : Grounded s) (hquiet : Undisturbed s e)
    (hvisible : Visible s domain n) (h : recordStep U s e = some s') :
  Visible s' domain n
  := by
  cases e with
  | transact outcome p now =>
    cases h
    rw [Visible, transact_memory]
    exact hvisible
  | readFirstSeen i ok =>
    obtain ⟨c, -, rfl | ⟨hash, v, -, -, rfl⟩⟩ := step_readFirstSeen h <;> exact hvisible
  | merge i => exact visible_merge hs hvisible h
  | other domain hash =>
    obtain ⟨-, rfl⟩ := step_other h
    exact hvisible
  | load config =>
    cases h
    exact hvisible
  | scanned j keys =>
    obtain ⟨config, present, version, -, rfl⟩ := step_scanned h
    exact hvisible
  | read j =>
    obtain ⟨config, version, read, domain, left, -, rfl⟩ := step_read h
    exact hvisible
  | publish j => exact visible_publish hs hquiet hvisible h
  | abort j =>
    obtain rfl := step_abort h
    exact hvisible

/-- A process before its first `Load`. -/
structure Unloaded (s : Recording) : Prop where
  publishers : s.memory.publishers = []
  publishersByDomain : ∀ domain, s.memory.publishersByDomain domain = none
  records : s.records = []
  loads : s.loads = []

theorem Unloaded.grounded (hs : Unloaded s) :
  Grounded s
  := by
  refine ⟨?_, ?_, ?_, ?_, ?_, ?_⟩
  · simp [hs.publishers]
  · simp [hs.publishers]
  · simp [hs.publishersByDomain]
  · simp [hs.publishers]
  · simp [hs.records]
  · simp [hs.loads]

/-- From any state of a process on, no count that a snapshot has had goes down, as long as every
reload that publishes is undisturbed. -/
theorem count_visible_from_then_on {s₀ : Recording} {es es' : List RecordEvent} {p : Publisher}
    (hstart : Unloaded s₀) (hscan : Meets (recordStep U) CompleteScan s₀ (es ++ es'))
    (hrun : run (recordStep U) s₀ es = some s) (hquiet : Meets (recordStep U) Undisturbed s es')
    (hrun' : run (recordStep U) s es' = some s') (hp : p ∈ s.memory.publishers) :
  ∃ q ∈ s'.memory.publishers, q.domain = p.domain ∧ p.activityCount ≤ q.activityCount
  := by
  have hs : Grounded s :=
    run_invariant_of_meets (fun _ _ _ => grounded_step) hstart.grounded hscan.left hrun
  have hboth : Meets (recordStep U) (fun s e => CompleteScan s e ∧ Undisturbed s e) s es' :=
    (hscan.right hrun).and hquiet
  have hend : Grounded s' ∧ Visible s' p.domain p.activityCount := by
    refine run_invariant_of_meets (P := fun s => Grounded s ∧ Visible s p.domain p.activityCount) ?_
      ⟨hs, p, hp, rfl, le_refl _⟩ hboth hrun'
    rintro t e t' ⟨ht, hvisible⟩ ⟨hscan, hquiet⟩ h
    exact ⟨grounded_step ht hscan h, visible_step ht hquiet hvisible h⟩
  exact hend.2

end Grounded

/-! ### A reload that is disturbed -/

/-- A publisher is recorded, and a reload starts. -/
def reloadStarts : List RecordEvent :=
  [.transact .answered (examplePublisher "b" "1") [], .readFirstSeen 0 true, .merge 0,
    .load emptyState]

/-- The reload reads the publisher. -/
def reloadReads : List RecordEvent := [.scanned 0 [lit "b"], .read 0]

/-- The publisher is recorded again. -/
def recordedAgain : List RecordEvent :=
  [.transact .answered (examplePublisher "b" "2") [], .readFirstSeen 0 true, .merge 0]

set_option maxRecDepth 20000 in
def afterReloadStarts : Recording :=
  (run (recordStep CaseTable.identity) nothingRecorded reloadStarts).get rfl

theorem run_reloadStarts :
  run (recordStep CaseTable.identity) nothingRecorded reloadStarts = some afterReloadStarts
  := (Option.some_get _).symm

/-- The scan returns the one key that is there. -/
theorem completeScan_reloadReads :
  CompleteScan afterReloadStarts (.scanned 0 [lit "b"])
  := by
  intro config present version h
  have hload : afterReloadStarts.loads[0]? = some (.scanning emptyState afterReloadStarts.redis 1) :=
    rfl
  rw [hload] at h
  injection h with h
  injection h with hconfig hpresent hversion
  subst hpresent
  constructor
  · intro domain hdomain
    by_contra hne
    have hother : domain ≠ lit "b" := by simpa using hne
    have hnone : afterReloadStarts.redis domain = none := update_of_ne hother ..
    rw [hnone] at hdomain
    cases hdomain
  · rintro domain hdomain
    obtain rfl := mem_singleton.mp hdomain
    rfl

/-- The scan of the reload is complete, whatever happens after it. -/
theorem completeScan_reload (es : List RecordEvent) (hes : ∀ e ∈ es, ∀ s, CompleteScan s e) :
  Meets (recordStep CaseTable.identity) CompleteScan nothingRecorded
    (reloadStarts ++ (reloadReads ++ es))
  := by
  have hfree : ∀ {es : List RecordEvent}, (∀ e ∈ es, ∀ s, CompleteScan s e) → ∀ s,
      Meets (recordStep CaseTable.identity) CompleteScan s es := by
    intro es hes s
    refine (meets_of_forall_mem (D := fun e => ∀ s, CompleteScan s e) hes s).mono ?_
    intro s e he
    exact he s
  apply Meets.append
  · apply hfree
    simp [reloadStarts, CompleteScan]
  · intro s hs
    cases hs
    refine ⟨completeScan_reloadReads, fun s _ => ⟨trivial, fun s _ => hfree hes s⟩⟩

set_option maxRecDepth 20000 in
/-- What was merged while the reload was reading is lost when it publishes. -/
theorem reload_loses_count :
  ∃ s s', run (recordStep CaseTable.identity) nothingRecorded
        (reloadStarts ++ (reloadReads ++ recordedAgain)) = some s ∧
    Meets (recordStep CaseTable.identity) CompleteScan nothingRecorded
      (reloadStarts ++ (reloadReads ++ (recordedAgain ++ [.publish 0]))) ∧
    recordStep CaseTable.identity s (.publish 0) = some s' ∧
    s.memory.publishers.map (fun p => (p.domain, p.activityCount)) = [(lit "b", 2)] ∧
    s'.memory.publishers.map (fun p => (p.domain, p.activityCount)) = [(lit "b", 1)]
  := by
  refine ⟨_, _, rfl, completeScan_reload _ ?_, rfl, rfl, rfl⟩
  simp [recordedAgain, CompleteScan]

set_option maxRecDepth 20000 in
/-- A reload during which nothing is merged keeps the count. -/
theorem count_visible_from_then_on_reload :
  ∃ s', run (recordStep CaseTable.identity) afterReloadStarts (reloadReads ++ [.publish 0])
      = some s' ∧ ∃ q ∈ s'.memory.publishers, q.domain = lit "b" ∧ 1 ≤ q.activityCount
  := by
  refine ⟨_, rfl, ?_⟩
  have hquiet : Meets (recordStep CaseTable.identity) Undisturbed afterReloadStarts
      (reloadReads ++ [.publish 0]) := by
    refine ⟨trivial, fun s₁ h₁ => ⟨trivial, fun s₂ h₂ => ⟨?_, fun _ _ => trivial⟩⟩⟩
    cases h₁
    cases h₂
    rintro l ⟨⟩
    rfl
  exact count_visible_from_then_on
    (p := (afterReloadStarts.memory.publishers.head?).get rfl)
    ⟨rfl, fun _ => rfl, rfl, rfl⟩ (completeScan_reload [.publish 0] (by simp [CompleteScan]))
    run_reloadStarts hquiet rfl (by decide)

end Models
