import Mathlib.Data.List.Chain
import ActivityRelay.HttpSignature.ConfiguredSigner
import ActivityRelay.HttpSignature.DestinationStore

/-!
# Runs of a fetch

What the calls of a run of `DoGET` are, whatever the destinations answer and whatever is in the
store. The requests form at most two chains of redirects, and each of them carries a signature of
its own (`SignedAlone`).
-/

namespace HttpSignature

open Fallible GoString HttpMessage NetUrl Interaction List Prog

/-- The calls of a run, with their replies. -/
abbrev SignerTrace := List ((o : SignerOp) × o.Reply)

/-- A request that was sent, with its response. -/
abbrev Exchange := Planned × Option Response

/-- The exchanges of a run. -/
def exchanges (τ : SignerTrace) : List Exchange :=
  τ.filterMap (fun call =>
    match call with
    | ⟨.send request, response⟩ => some (request, response)
    | _ => none)

/-- The capabilities that are saved in a run. -/
def saves (τ : SignerTrace) : List DestinationCapability :=
  τ.filterMap (fun call =>
    match call with
    | ⟨.save capability, _⟩ => some capability
    | _ => none)

@[simp]
theorem exchanges_append (τ τ' : SignerTrace) :
  exchanges (τ ++ τ') = exchanges τ ++ exchanges τ'
  := filterMap_append

@[simp]
theorem saves_append (τ τ' : SignerTrace) :
  saves (τ ++ τ') = saves τ ++ saves τ'
  := filterMap_append

@[simp]
theorem exchanges_send (request : Planned) (response : Option Response) (τ : SignerTrace) :
  exchanges (⟨.send request, response⟩ :: τ) = (request, response) :: exchanges τ
  := rfl

/-- Nothing is sent or saved. -/
def Silent (τ : SignerTrace) : Prop := exchanges τ = [] ∧ saves τ = []

/-- The request was planned for a destination that nothing was known of. -/
def Planned.Probe (planned : Planned) : Prop :=
  planned.plan.primary = .rfc9421 ∧ planned.plan.reason = .unknownFetchProbe

/-- The response refuses the signature of an unknown destination. -/
def Response.Refuses (response : Response) : Prop :=
  response.status = 400 ∨ explicitLegacySignatureRejection response.status response.header = true

namespace ConfiguredSigner

variable {signer : ConfiguredSigner} {τ : SignerTrace} {destination : GoString} {request : Outgoing}
  {profile : Profile} {count : ℕ} {l : List Exchange}
  {result : Except GetError (Planned × Response)} {planned : Planned} {reply : Option Response}

/-! ### Signing -/

/-- A request that is ready to be sent: it is signed with the profile of its plan, and there is a
fallback only for a destination that nothing is known of. -/
structure Ready (signer : ConfiguredSigner) (planned : Planned) : Prop where
  signed : SignedAlone signer.library signer.keyID planned.request planned.plan.primary
  probe : planned.plan.fallback ≠ none → planned.plan.reason = .unknownFetchProbe

/-- A plan of `plan` with a fallback is for a destination that nothing is known of. -/
theorem plan_probe {U : CaseTable} {sha256 : GoString → GoString} {keyPrefix : GoString}
    {configured : Profile} {now wall redisNow : ℤ} {keys : CapabilityKeys} {p : NegotiationPlan}
    (h : plan U sha256 keyPrefix configured .fetch destination now wall redisNow keys = .ok p) :
  p.fallback ≠ none → p.reason = .unknownFetchProbe
  := by
  unfold plan at h
  split at h
  · cases h
  · split at h
    · cases h
      exact fun hne => absurd rfl hne
    · cases h
      exact fun hne => absurd rfl hne
    · split at h
      · cases h
      · cases h
        exact fun _ => rfl
      · split at h
        · rename_i capability _ _
          cases hvalid : capability.validate U with
          | error e =>
            rw [hvalid] at h
            cases h
          | ok =>
            rw [hvalid] at h
            cases h
            exact fun hne => absurd rfl hne
        · cases h
          exact fun _ => rfl

theorem planFetch_runs {result : Option NegotiationPlan}
    (h : (signer.planFetch destination).Runs τ result) :
  Silent τ ∧ ∀ p ∈ result, p.fallback ≠ none → p.reason = .unknownFetchProbe
  := by
  unfold planFetch at h
  split at h
  · cases h
    exact ⟨⟨rfl, rfl⟩, nofun⟩
  · split at h
    · cases h
      refine ⟨⟨rfl, rfl⟩, ?_⟩
      rintro p ⟨⟩ hne
      exact absurd rfl hne
    · cases h
      refine ⟨⟨rfl, rfl⟩, ?_⟩
      rintro p ⟨⟩ hne
      exact absurd rfl hne
    · obtain ⟨store, τ', rfl, hrest⟩ := runs_op.mp h
      cases store with
      | none =>
        cases hrest
        exact ⟨⟨rfl, rfl⟩, nofun⟩
      | some store =>
        cases hrest
        refine ⟨⟨rfl, rfl⟩, ?_⟩
        intro p hp
        apply plan_probe (eq_ok_of_toOption hp)

/-- A request that is signed for its own address. -/
theorem signGET_signedAlone {date : GoString} {signed : Outgoing}
    (h : signer.signGET date (clearSignatureFields request) profile = .ok signed) :
  SignedAlone signer.library signer.keyID signed profile ∧
    signed.withoutFragment.url = request.withoutFragment.url
  := by
  unfold signGET at h
  by_cases hdual : profile = .dual
  · subst hdual
    cases h
  · rw [parseWireProfile_string signer.cases hdual] at h
    exact signGETWithProfile_signedAlone h

theorem signPlannedGET_runs {result : Option Planned}
    (h : (signer.signPlannedGET request).Runs τ result) :
  Silent τ ∧ ∀ planned ∈ result, signer.Ready planned ∧
    planned.request.withoutFragment.url = request.withoutFragment.url
  := by
  obtain ⟨τ₁, τ₂, p, rfl, hplan, hrest⟩ := (runs_bind _ _).mp h
  obtain ⟨⟨hsent, hsaved⟩, hprobe⟩ := planFetch_runs hplan
  cases p with
  | none =>
    cases hrest
    rw [append_nil]
    exact ⟨⟨hsent, hsaved⟩, nofun⟩
  | some p =>
    obtain ⟨date, τ', rfl, hsign⟩ := runs_op.mp hrest
    split at hsign
    · cases hsign
      refine ⟨⟨?_, ?_⟩, nofun⟩
      · rw [exchanges_append, hsent]
        rfl
      · rw [saves_append, hsaved]
        rfl
    · rename_i signed hsigned
      cases hsign
      refine ⟨⟨?_, ?_⟩, ?_⟩
      · rw [exchanges_append, hsent]
        rfl
      · rw [saves_append, hsaved]
        rfl
      · rintro planned ⟨⟩
        obtain ⟨halone, hurl⟩ := signGET_signedAlone hsigned
        exact ⟨⟨halone, hprobe p rfl⟩, hurl⟩

/-! ### Chains of redirects -/

/-- The second request is sent to the address that the response to the first one redirects to. -/
def Redirected (x y : Exchange) : Prop :=
  ∃ response redirect, x.2 = some response ∧ redirectStatus response.status = true ∧
    response.redirect = .next redirect ∧
    y.1.request.withoutFragment.url = redirect.withoutFragment.url

/-- A chain of at most `count` requests, each of them signed for its own address. -/
structure Chain (signer : ConfiguredSigner) (count : ℕ) (l : List Exchange) : Prop where
  length : l.length ≤ count
  ready : ∀ x ∈ l, signer.Ready x.1
  linked : l.IsChain Redirected

/-- No request is a chain. -/
theorem Chain.nil (count : ℕ) :
  signer.Chain count []
  := ⟨Nat.zero_le _, by simp only [not_mem_nil, false_imp_iff, implies_true], .nil⟩

/-- One request is a chain. -/
theorem Chain.singleton {x : Exchange} (hx : signer.Ready x.1) (count : ℕ) :
  signer.Chain (count + 1) [x]
  := by
  refine ⟨Nat.le_add_left 1 count, ?_, .singleton x⟩
  intro y hy
  rw [mem_singleton.mp hy]
  exact hx

/-- A request before a chain. -/
theorem Chain.cons {x : Exchange} (hx : signer.Ready x.1) (hl : signer.Chain count l)
    (hlink : ∀ y ∈ l.head?, Redirected x y) :
  signer.Chain (count + 1) (x :: l)
  := by
  refine ⟨Nat.succ_le_succ hl.length, ?_, isChain_cons.mpr ⟨hlink, hl.linked⟩⟩
  intro y hy
  rcases mem_cons.mp hy with rfl | hy
  · exact hx
  · exact hl.ready y hy

/-- What a run of `Do` sends, for a chain of at most `count` requests: the requests of a chain that
starts with the given one, and, if there is a response, the last of them with it. -/
structure ChainRun (signer : ConfiguredSigner) (count : ℕ) (planned : Planned) (τ : SignerTrace)
    (result : Except GetError (Planned × Response)) : Prop where
  chain : signer.Chain count (exchanges τ)
  start : (exchanges τ).head?.map Prod.fst = some planned
  unsaved : saves τ = []
  last : ∀ last response, result = .ok (last, response) →
    (exchanges τ).getLast? = some (last, some response)

/-- A run that sends one request. -/
theorem ChainRun.single {τ' : SignerTrace} (hready : signer.Ready planned) (hsilent : Silent τ')
    (hresult : ∀ last response, result = .ok (last, response) →
      last = planned ∧ reply = some response) :
  signer.ChainRun (count + 1) planned (⟨.send planned, reply⟩ :: τ') result
  := by
  have hsent : exchanges (⟨.send planned, reply⟩ :: τ') = [(planned, reply)] := by
    rw [exchanges_send, hsilent.1]
  refine ⟨?_, ?_, hsilent.2, ?_⟩
  · rw [hsent]
    exact .singleton hready count
  · rw [hsent]
    rfl
  · intro last response h
    obtain ⟨rfl, rfl⟩ := hresult last response h
    rw [hsent]
    rfl

/-- A request before a run. -/
theorem ChainRun.cons {next : Planned} {τ₁ τ₂ : SignerTrace}
    (h : signer.ChainRun count next τ₂ result) (hready : signer.Ready planned) (hsilent : Silent τ₁)
    (hlink : ∀ reply', Redirected (planned, reply) (next, reply')) :
  signer.ChainRun (count + 1) planned (⟨.send planned, reply⟩ :: τ₁ ++ τ₂) result
  := by
  have hsent : exchanges (⟨.send planned, reply⟩ :: τ₁ ++ τ₂) =
      (planned, reply) :: exchanges τ₂ := by
    rw [exchanges_append, exchanges_send, hsilent.1]
    rfl
  obtain ⟨x, hx, hxnext⟩ := Option.map_eq_some_iff.mp h.start
  refine ⟨?_, ?_, ?_, ?_⟩
  · rw [hsent]
    apply h.chain.cons hready
    intro y hy
    obtain rfl := Option.mem_unique hx hy
    rw [← hxnext] at hlink
    exact hlink x.2
  · rw [hsent]
    rfl
  · change saves (τ₁ ++ τ₂) = []
    rw [saves_append, hsilent.2, h.unsaved]
    rfl
  · intro last response hresult
    rw [hsent, List.getLast?_cons, h.last last response hresult]
    rfl

/-- One hop, if what follows it makes chains of at most `count` requests. -/
theorem doHop_runs {follow : Option (Planned → SignerM (Except GetError (Planned × Response)))}
    (hfollow : ∀ f ∈ follow, ∀ planned τ result, signer.Ready planned →
      (f planned).Runs τ result → signer.ChainRun count planned τ result)
    (hready : signer.Ready planned) (h : (signer.doHop follow planned).Runs τ result) :
  signer.ChainRun (count + 1) planned τ result
  := by
  obtain ⟨reply, τ', rfl, hreply⟩ := runs_op.mp h
  have hnil : Silent [] := ⟨rfl, rfl⟩
  cases reply with
  | none =>
    cases hreply
    apply ChainRun.single hready hnil
    rintro last response ⟨⟩
  | some response =>
    dsimp only at hreply
    split at hreply
    · rename_i hstatus
      split at hreply
      · cases hreply
        apply ChainRun.single hready hnil
        rintro last response' ⟨⟩
        exact ⟨rfl, rfl⟩
      · cases hreply
        apply ChainRun.single hready hnil
        rintro last response' ⟨⟩
      · rename_i redirect hredirect
        split at hreply
        · cases hreply
          apply ChainRun.single hready hnil
          rintro last response' ⟨⟩
        · rename_i follow f
          obtain ⟨verdict, τ'', rfl, hverdict⟩ := runs_op.mp hreply
          cases verdict with
          | useLastResponse =>
            cases hverdict
            apply ChainRun.single hready ⟨rfl, rfl⟩
            rintro last response' ⟨⟩
            exact ⟨rfl, rfl⟩
          | refuse =>
            cases hverdict
            apply ChainRun.single hready ⟨rfl, rfl⟩
            rintro last response' ⟨⟩
          | proceed =>
            obtain ⟨τ₁, τ₂, signed, rfl, hsigned, hrest⟩ := (runs_bind _ _).mp hverdict
            obtain ⟨⟨hsent, hsaved⟩, hnext⟩ := signPlannedGET_runs hsigned
            have hsilent : Silent (⟨.checkRedirect redirect, .proceed⟩ :: τ₁) := ⟨hsent, hsaved⟩
            cases signed with
            | none =>
              cases hrest
              rw [append_nil]
              apply ChainRun.single hready hsilent
              rintro last response' ⟨⟩
            | some next =>
              obtain ⟨hnextReady, hurl⟩ := hnext next rfl
              apply (hfollow f rfl next τ₂ result hnextReady hrest).cons hready hsilent
              intro reply'
              exact ⟨response, redirect, rfl, hstatus, hredirect, hurl⟩
    · cases hreply
      apply ChainRun.single hready hnil
      rintro last response' ⟨⟩
      exact ⟨rfl, rfl⟩

theorem doChain_runs {redirects : ℕ} (hready : signer.Ready planned)
    (h : (signer.doChain redirects planned).Runs τ result) :
  signer.ChainRun (redirects + 1) planned τ result
  := by
  induction redirects generalizing planned τ result with
  | zero =>
    apply doHop_runs _ hready h
    rintro f ⟨⟩
  | succ redirects ih =>
    apply doHop_runs _ hready h
    rintro f ⟨⟩ planned τ result
    exact ih

/-! ### Observations -/

variable {u : Unit} {response : Response} {outcome : NegotiationOutcome}

/-- An observation sends nothing, and what it saves is for its destination. -/
theorem observe_runs (evidence : CapabilityEvidence) {ttl : ℤ}
    (h : (signer.observe destination evidence.profile evidence ttl).Runs τ u) :
  exchanges τ = [] ∧ ∀ c ∈ saves τ, c.evidence = evidence ∧
    normalizeDestinationOrigin signer.cases destination = .ok c.origin
  := by
  obtain ⟨observedAt, τ', rfl, hrest⟩ := runs_op.mp h
  split at hrest
  · cases hrest
    exact ⟨rfl, nofun⟩
  · rename_i capability hcapability
    obtain ⟨r, τ'', rfl, hend⟩ := runs_call.mp hrest
    cases hend with
    | pure r =>
      refine ⟨rfl, ?_⟩
      intro c hc
      obtain rfl := mem_singleton.mp hc
      obtain ⟨origin, horigin, -, rfl⟩ := observedCapability_ok hcapability
      exact ⟨rfl, horigin⟩

/-- The observation of a response is not that of a fallback. -/
theorem observeResponse_runs (h : (signer.observeResponse destination profile response).Runs τ u) :
  exchanges τ = [] ∧ ∀ c ∈ saves τ, c.evidence ≠ .successfulLegacyFallback
  := by
  have hsilent : exchanges [] = [] ∧ ∀ c ∈ saves [], c.evidence ≠ .successfulLegacyFallback :=
    ⟨rfl, nofun⟩
  have hobserved : ∀ evidence : CapabilityEvidence, evidence ≠ .successfulLegacyFallback →
      ∀ ttl, (signer.observe destination evidence.profile evidence ttl).Runs τ u →
        exchanges τ = [] ∧ ∀ c ∈ saves τ, c.evidence ≠ .successfulLegacyFallback := by
    intro evidence hne ttl hrun
    obtain ⟨hsent, hsaved⟩ := observe_runs evidence hrun
    refine ⟨hsent, ?_⟩
    intro c hc
    rw [(hsaved c hc).1]
    exact hne
  unfold observeResponse at h
  split at h
  · cases h
    exact hsilent
  · split at h
    · split at h
      · exact hobserved .successfulRFC9421 (by decide) _ h
      · split at h
        · exact hobserved .acceptSignature (by decide) _ h
        · cases h
          exact hsilent
    · split at h
      · exact hobserved .explicitRFC9421Rejection (by decide) _ h
      · cases h
        exact hsilent

/-- The observation of a fallback is for its destination. -/
theorem observeLegacyFallback_runs (h : (signer.observeLegacyFallback destination).Runs τ u) :
  exchanges τ = [] ∧
    ∀ c ∈ saves τ, normalizeDestinationOrigin signer.cases destination = .ok c.origin
  := by
  unfold observeLegacyFallback at h
  split at h
  · cases h
    exact ⟨rfl, nofun⟩
  · obtain ⟨hsent, hsaved⟩ := observe_runs .successfulLegacyFallback h
    exact ⟨hsent, fun c hc => (hsaved c hc).2⟩

/-! ### The fetch -/

theorem status_of_ambiguous (h : classifyNegotiationOutcome response = .ambiguousClientRejection) :
  response.status = 400
  := by
  unfold classifyNegotiationOutcome at h
  split at h
  · cases h
  · split at h
    · cases h
    · split at h
      · assumption
      · split at h <;> cases h

theorem rejection_of_explicit
    (h : classifyNegotiationOutcome response = .explicitSignatureRejection) :
  explicitLegacySignatureRejection response.status response.header = true
  := by
  unfold classifyNegotiationOutcome at h
  split at h
  · cases h
  · split at h
    · assumption
    · split at h
      · cases h
      · split at h <;> cases h

theorem shouldFallback_eq_true {plan : NegotiationPlan} (h : plan.shouldFallback outcome = true) :
  plan.primary = .rfc9421 ∧ plan.fallback = some .legacy ∧
    (outcome = .explicitSignatureRejection ∨ outcome = .ambiguousClientRejection)
  := by
  unfold NegotiationPlan.shouldFallback at h
  split at h
  · cases h
  · rename_i hplan
    simp only [ne_eq, not_or, not_not] at hplan
    simp only [Bool.or_eq_true, decide_eq_true_eq] at h
    exact ⟨hplan.2.1, hplan.2.2, h⟩

/-- A fallback that is saved was answered with success, after the first chain with 400. -/
theorem observeFallback_runs {applied : Planned}
    (h : (signer.observeFallback applied response outcome).Runs τ u) :
  exchanges τ = [] ∧ ∀ c ∈ saves τ, c.evidence = .successfulLegacyFallback →
    outcome = .ambiguousClientRejection ∧ applied.plan.primary = .legacy ∧
      response.status / 100 = 2 ∧
      normalizeDestinationOrigin signer.cases applied.request.url.string = .ok c.origin
  := by
  obtain ⟨τ₁, τ₂, u', rfl, hobserved, hend⟩ := (runs_bind _ _).mp h
  obtain ⟨hsent, hother⟩ := observeResponse_runs hobserved
  rw [exchanges_append, saves_append, hsent]
  split at hend
  · rename_i hcond
    obtain ⟨hsent', horigin⟩ := observeLegacyFallback_runs hend
    refine ⟨by rw [hsent']; rfl, ?_⟩
    intro c hc hevidence
    rcases mem_append.mp hc with hc | hc
    · exact absurd hevidence (hother c hc)
    · exact ⟨hcond.1, hcond.2.1, hcond.2.2, horigin c hc⟩
  · cases hend
    refine ⟨rfl, ?_⟩
    intro c hc hevidence
    rcases mem_append.mp hc with hc | hc
    · exact absurd hevidence (hother c hc)
    · cases hc

/-- The second chain of a fetch: it is for the address of the last request of the first chain, and
a fallback is saved at the end of it only. -/
structure FallbackRun (signer : ConfiguredSigner) (last : Planned) (outcome : NegotiationOutcome)
    (τ : SignerTrace) : Prop where
  chain : signer.Chain (maximumRedirects + 1) (exchanges τ)
  start : ∀ x ∈ (exchanges τ).head?,
    x.1.request.withoutFragment.url = last.request.withoutFragment.url
  saved : ∀ c ∈ saves τ, c.evidence = .successfulLegacyFallback →
    outcome = .ambiguousClientRejection ∧ ∃ applied response,
      (exchanges τ).getLast? = some (applied, some response) ∧ applied.plan.primary = .legacy ∧
        response.status / 100 = 2 ∧
        normalizeDestinationOrigin signer.cases applied.request.url.string = .ok c.origin

/-- A fallback is one more chain, signed in the profile of the fallback. -/
theorem doFallback_runs {last : Planned} (h : (signer.doFallback last outcome).Runs τ result) :
  signer.FallbackRun last outcome τ
  := by
  obtain ⟨date, τ', rfl, hdate⟩ := runs_op.mp h
  dsimp only at hdate
  split at hdate
  · cases hdate
    exact ⟨.nil _, by rintro x ⟨⟩, by rintro c ⟨⟩⟩
  · rename_i signed hsigned
    obtain ⟨halone, hurl⟩ := signGET_signedAlone hsigned
    obtain ⟨τ₁, τ₂, chained, rfl, hchained, hrest⟩ := (runs_bind _ _).mp hdate
    have hchain := doChain_runs ⟨halone, fun hne => absurd rfl hne⟩ hchained
    have hstart : ∀ x ∈ (exchanges τ₁).head?,
        x.1.request.withoutFragment.url = last.request.withoutFragment.url := by
      intro x hx
      have hfirst := hchain.start
      rw [Option.mem_def.mp hx] at hfirst
      rw [← hurl, Option.some.inj hfirst]
    cases chained with
    | error e =>
      cases hrest
      rw [append_nil]
      refine ⟨hchain.chain, hstart, ?_⟩
      intro c hc
      change c ∈ saves τ₁ at hc
      rw [hchain.unsaved] at hc
      cases hc
    | ok final =>
      obtain ⟨applied, response⟩ := final
      obtain ⟨τ₃, τ₄, u, rfl, hobserved, hend⟩ := (runs_bind _ _).mp hrest
      cases hend
      obtain ⟨hsent, hsaved⟩ := observeFallback_runs hobserved
      have hexchanges : exchanges (⟨.date, date⟩ :: (τ₁ ++ (τ₃ ++ []))) = exchanges τ₁ := by
        change exchanges (τ₁ ++ (τ₃ ++ [])) = _
        rw [append_nil, exchanges_append, hsent, append_nil]
      have hsaves : saves (⟨.date, date⟩ :: (τ₁ ++ (τ₃ ++ []))) = saves τ₃ := by
        change saves (τ₁ ++ (τ₃ ++ [])) = _
        rw [append_nil, saves_append, hchain.unsaved, nil_append]
      refine ⟨by rw [hexchanges]; exact hchain.chain, by rw [hexchanges]; exact hstart, ?_⟩
      intro c hc hevidence
      rw [hsaves] at hc
      obtain ⟨houtcome, hlegacy, hsuccess, horigin⟩ := hsaved c hc hevidence
      rw [hexchanges]
      exact ⟨houtcome, applied, response, hchain.last applied response rfl, hlegacy, hsuccess,
        horigin⟩

/-- A run of `DoGET` sends the requests of two chains. There is a second one only after a refusal,
and a fallback is saved only for the origin at the end of the second chain. -/
structure FetchRun (signer : ConfiguredSigner) (τ : SignerTrace) (first second : List Exchange) :
    Prop where
  sent : exchanges τ = first ++ second
  chain : signer.Chain (maximumRedirects + 1) first
  retry : signer.Chain (maximumRedirects + 1) second
  refused : second ≠ [] → ∃ last response, first.getLast? = some (last, some response) ∧
    last.Probe ∧ response.Refuses
  saved : ∀ c ∈ saves τ, c.evidence = .successfulLegacyFallback →
    ∃ last response applied response', first.getLast? = some (last, some response) ∧ last.Probe ∧
      response.status = 400 ∧ second.getLast? = some (applied, some response') ∧
      applied.plan.primary = .legacy ∧ response'.status / 100 = 2 ∧
      normalizeDestinationOrigin signer.cases applied.request.url.string = .ok c.origin

/-- A run with one chain. -/
theorem FetchRun.single {first : List Exchange} (hsent : exchanges τ = first)
    (hfirst : signer.Chain (maximumRedirects + 1) first)
    (hsaved : ∀ c ∈ saves τ, c.evidence ≠ .successfulLegacyFallback) :
  signer.FetchRun τ first []
  := by
  refine ⟨?_, hfirst, .nil _, fun hne => absurd rfl hne, ?_⟩
  · rw [hsent, append_nil]
  · intro c hc hevidence
    exact absurd hevidence (hsaved c hc)

/-- A fetch is one chain of requests, or two. -/
theorem doGET_runs (h : (signer.doGET request).Runs τ result) :
  ∃ first second, signer.FetchRun τ first second
  := by
  obtain ⟨τ₁, τ₂, signed, rfl, hsigned, hrest⟩ := (runs_bind _ _).mp h
  obtain ⟨hsilent, hready⟩ := signPlannedGET_runs hsigned
  cases signed with
  | none =>
    cases hrest
    rw [append_nil]
    refine ⟨[], [], .single hsilent.1 (.nil _) ?_⟩
    rw [hsilent.2]
    rintro c ⟨⟩
  | some planned =>
    obtain ⟨τ₃, τ₄, chained, rfl, hchained, hobserve⟩ := (runs_bind _ _).mp hrest
    have hchain := doChain_runs (hready planned rfl).1 hchained
    cases chained with
    | error e =>
      cases hobserve
      refine ⟨exchanges τ₃, [], .single ?_ hchain.chain ?_⟩
      · rw [append_nil, exchanges_append, hsilent.1, nil_append]
      · rw [append_nil, saves_append, hsilent.2, hchain.unsaved]
        rintro c ⟨⟩
    | ok final =>
      obtain ⟨last, response⟩ := final
      obtain ⟨τ₅, τ₆, u, rfl, hobserved, hend⟩ := (runs_bind _ _).mp hobserve
      obtain ⟨hsent, hother⟩ := observeResponse_runs hobserved
      have hlast := hchain.last last response rfl
      have hexchanges : exchanges (τ₁ ++ (τ₃ ++ (τ₅ ++ τ₆))) = exchanges τ₃ ++ exchanges τ₆ := by
        rw [exchanges_append, exchanges_append, exchanges_append, hsilent.1, hsent,
          nil_append, nil_append]
      have hsaves : saves (τ₁ ++ (τ₃ ++ (τ₅ ++ τ₆))) = saves τ₅ ++ saves τ₆ := by
        rw [saves_append, saves_append, saves_append, hsilent.2, hchain.unsaved,
          nil_append, nil_append]
      dsimp only at hend
      split at hend
      · rename_i hfallback
        obtain ⟨hprimary, hlegacy, houtcome⟩ := shouldFallback_eq_true hfallback
        have hrun := doFallback_runs hend
        have hlastReady := hchain.chain.ready _ (mem_of_getLast? hlast)
        have hprobe : last.Probe := ⟨hprimary, hlastReady.probe (by rw [hlegacy]; nofun)⟩
        refine ⟨exchanges τ₃, exchanges τ₆, hexchanges, hchain.chain, hrun.chain, ?_, ?_⟩
        · intro _
          refine ⟨last, response, hlast, hprobe, ?_⟩
          rcases houtcome with hexplicit | hambiguous
          · exact .inr (rejection_of_explicit hexplicit)
          · exact .inl (status_of_ambiguous hambiguous)
        · intro c hc hevidence
          rw [hsaves] at hc
          rcases mem_append.mp hc with hc | hc
          · exact absurd hevidence (hother c hc)
          · obtain ⟨hambiguous, applied, response', happlied⟩ := hrun.saved c hc hevidence
            exact ⟨last, response, applied, response', hlast, hprobe,
              status_of_ambiguous hambiguous, happlied⟩
      · cases hend
        refine ⟨exchanges τ₃, [], .single ?_ hchain.chain ?_⟩
        · rw [hexchanges]
          exact append_nil _
        · intro c hc
          rw [hsaves] at hc
          rcases mem_append.mp hc with hc | hc
          · exact hother c hc
          · cases hc

/-- For every profile, every content of the store, every redirect and every answer, a fetch sends
at most two chains of at most ten requests each. Every request carries one signature grammar, made
for this very request; and the second chain starts only if the last request of the first one was
planned for an unknown destination and was refused. -/
theorem doGET_signs_each_request (signer : ConfiguredSigner) (request : Outgoing) {τ : SignerTrace}
    {result : Except GetError (Planned × Response)} (h : (signer.doGET request).Runs τ result) :
  ∃ first second, exchanges τ = first ++ second ∧ first.length ≤ 10 ∧ second.length ≤ 10 ∧
    first.IsChain Redirected ∧ second.IsChain Redirected ∧
    (∀ x ∈ exchanges τ,
      SignedAlone signer.library signer.keyID x.1.request x.1.plan.primary) ∧
    (second ≠ [] → ∃ last response, first.getLast? = some (last, some response) ∧
      last.plan.reason = .unknownFetchProbe ∧
      (response.status = 400 ∨
        explicitLegacySignatureRejection response.status response.header = true))
  := by
  obtain ⟨first, second, hrun⟩ := doGET_runs h
  refine ⟨first, second, hrun.sent, hrun.chain.length, hrun.retry.length, hrun.chain.linked,
    hrun.retry.linked, ?_, ?_⟩
  · intro x hx
    rw [hrun.sent] at hx
    rcases mem_append.mp hx with hx | hx
    · exact (hrun.chain.ready x hx).signed
    · exact (hrun.retry.ready x hx).signed
  · intro hne
    obtain ⟨last, response, hlast, hprobe, hrefuses⟩ := hrun.refused hne
    exact ⟨last, response, hlast, hprobe.2, hrefuses⟩

/-- A signer that negotiates, with libraries that sign everything in the same way. -/
def exampleSigner : ConfiguredSigner where
  cases := .identity
  sha256 := id
  keyPrefix := defaultDestinationCapabilityPrefix
  library := {
    signRequest := fun _ _ => some (lit "keyId=\"k\",algorithm=\"hs2019\",signature=\"s\"")
    signMessage := fun _ _ => some (lit "activitypub=()", lit "activitypub=:s:")
    unmarshalDictionary := fun _ => none }
  keyID := lit "https://relay.example/actor#main-key"
  profile := .dual
  negotiator := newDestinationNegotiator 0 0
  negotiated := by decide

/-- The request that the client builds for an address. -/
def exampleRequest (host : String) : Outgoing where
  url := { scheme := lit "https", host := lit host, path := lit "/actor" }
  host := []
  header := fun _ => []

/-- The other origin is known to want the legacy signature. -/
def otherIsLegacy : DestinationCapability where
  origin := lit "https://other.example"
  scope := .fetch
  profile := .legacy
  evidence := .explicitRFC9421Rejection
  observedAt := GoTime.ofUnix 1700000000
  expiresAt := GoTime.ofUnix 1700080000

/-- The store has only what is known of the other origin. -/
def exampleStore : Snapshot where
  keys := Function.update (fun _ => none)
    (capabilityKey id defaultDestinationCapabilityPrefix .fetch otherIsLegacy.origin)
    (some ⟨otherIsLegacy.hash, some 1700080000000⟩)
  now := GoTime.ofUnix 1700000060
  wall := GoTime.ofUnix 1700000060
  redisNow := 1700000060000

/-- An origin that refuses RFC 9421 signatures with 400. To others it answers as given, and the
other origin answers with success. -/
def exampleReply (answer : Response) : ℕ → (o : SignerOp) → o.Reply
  | _, .readStore => some exampleStore
  | _, .now => GoTime.ofUnix 1700000060
  | _, .date => lit "Tue, 14 Nov 2023 22:14:20 GMT"
  | _, .send planned =>
      if planned.request.url.host ≠ lit "origin.example" then some ⟨200, fun _ => [], .absent⟩
      else if planned.plan.primary = .rfc9421 then some ⟨400, fun _ => [], .absent⟩
      else some answer
  | _, .checkRedirect _ => .proceed
  | _, .save _ => ()

/-- The legacy request is answered with success. -/
def accepted : Response := ⟨200, fun _ => [], .absent⟩

/-- The legacy request is redirected to the other origin. -/
def redirected : Response := ⟨302, fun _ => [], .next (exampleRequest "other.example")⟩

/-- The run of the fetch. -/
def exampleTrace (answer : Response) : SignerTrace :=
  ((exampleSigner.doGET (exampleRequest "origin.example")).exec (exampleReply answer)).1

/-- The hosts, profiles and statuses of the exchanges. -/
def summary (τ : SignerTrace) : List (GoString × Profile × Option ℤ) :=
  (exchanges τ).map (fun x => (x.1.request.url.host, x.1.plan.primary, x.2.map Response.status))

/-- A fetch with a fallback that is redirected. -/
theorem doGET_signs_each_request_redirected :
  summary (exampleTrace redirected) =
      [(lit "origin.example", .rfc9421, some 400), (lit "origin.example", .legacy, some 302),
        (lit "other.example", .legacy, some 200)] ∧
    ∀ x ∈ exchanges (exampleTrace redirected),
      SignedAlone exampleSigner.library exampleSigner.keyID x.1.request x.1.plan.primary
  := by
  obtain ⟨first, second, -, -, -, -, -, hsigned, -⟩ :=
    doGET_signs_each_request exampleSigner (exampleRequest "origin.example") (runs_exec _ _)
  exact ⟨by decide +kernel, hsigned⟩

/-! ### Fallbacks -/

/-- The normalized origin that a request is sent to. -/
def originOf (signer : ConfiguredSigner) (planned : Planned) : Except OriginError GoString :=
  normalizeDestinationOrigin signer.cases planned.request.url.string

/-- The origin has answered 400 to a request for an unknown destination and then, with success, a
request with the legacy signature. -/
def Evidenced (signer : ConfiguredSigner) (τ : SignerTrace) (origin : GoString) : Prop :=
  ∃ before x response between y response' after,
    exchanges τ = before ++ (x, some response) :: (between ++ (y, some response') :: after) ∧
    signer.originOf x = .ok origin ∧ x.Probe ∧ response.status = 400 ∧
    signer.originOf y = .ok origin ∧ y.plan.primary = .legacy ∧ response'.status / 100 = 2

/-- The last request goes to the origin that has answered 400. -/
def RetryKeepsOrigin (signer : ConfiguredSigner) (τ : SignerTrace) : Prop :=
  ∀ x response y, (x, some response) ∈ exchanges τ → response.status = 400 →
    y ∈ (exchanges τ).getLast? → signer.originOf x = signer.originOf y.1

/-- A chain ends with a response that does not redirect. -/
theorem getLast?_of_isChain (hl : l.IsChain Redirected) {x : Planned} (hx : (x, some response) ∈ l)
    (hstatus : redirectStatus response.status = false) :
  l.getLast? = some (x, some response)
  := by
  induction l with
  | nil => cases hx
  | cons y l ih =>
    obtain ⟨hlink, hl⟩ := isChain_cons.mp hl
    rcases mem_cons.mp hx with rfl | hx
    · cases l with
      | nil => rfl
      | cons z l =>
        obtain ⟨response', redirect, hresponse, hredirect, -⟩ := hlink z rfl
        cases hresponse
        rw [hstatus] at hredirect
        cases hredirect
    · rw [List.getLast?_cons, ih hl hx]
      rfl

/-- The responses of status 400 in a run that saves a fallback are that of the last request of the
first chain. -/
theorem FetchRun.eq_of_status {first second : List Exchange} (h : signer.FetchRun τ first second)
    {last x applied : Planned} {response' final : Response}
    (hlast : first.getLast? = some (last, some response))
    (happlied : second.getLast? = some (applied, some final)) (hfinal : final.status / 100 = 2)
    (hx : (x, some response') ∈ exchanges τ) (hstatus : response'.status = 400) :
  x = last
  := by
  have hredirect : redirectStatus response'.status = false := by
    rw [hstatus]
    decide
  rw [h.sent] at hx
  rcases mem_append.mp hx with hx | hx
  · have hend := getLast?_of_isChain h.chain.linked hx hredirect
    rw [hlast] at hend
    exact (congrArg Prod.fst (Option.some.inj hend)).symm
  · have hend := getLast?_of_isChain h.retry.linked hx hredirect
    rw [happlied] at hend
    obtain ⟨-, hresponse⟩ := Prod.mk.inj (Option.some.inj hend)
    cases hresponse
    omega

/-- A fetch that saves the success of a legacy fallback for an origin has seen the evidence for this
origin exactly if its last request went to the origin that had answered 400. -/
theorem fallback_evidenced_iff (signer : ConfiguredSigner) (request : Outgoing) {τ : SignerTrace}
    {result : Except GetError (Planned × Response)} (h : (signer.doGET request).Runs τ result)
    {c : DestinationCapability} (hc : c ∈ saves τ)
    (hevidence : c.evidence = .successfulLegacyFallback) :
  signer.Evidenced τ c.origin ↔ signer.RetryKeepsOrigin τ
  := by
  obtain ⟨first, second, hrun⟩ := doGET_runs h
  obtain ⟨last, response, applied, final, hlast, hprobe, hstatus, happlied, hlegacy, hfinal,
    horigin⟩ := hrun.saved c hc hevidence
  have hend : (exchanges τ).getLast? = some (applied, some final) := by
    rw [hrun.sent, List.getLast?_append, happlied]
    rfl
  constructor
  · rintro ⟨before, x, response₁, between, y, response₂, after, hsent, hx, -, hrefused, -⟩
    intro x' response' y' hx' hstatus' hy'
    obtain rfl := Option.mem_unique hend hy'
    have hmem : (x, some response₁) ∈ exchanges τ := by
      rw [hsent]
      apply mem_append_right before
      exact mem_cons_self
    rw [hrun.eq_of_status hlast happlied hfinal hx' hstatus',
      ← hrun.eq_of_status hlast happlied hfinal hmem hrefused, hx]
    exact horigin.symm
  · intro hkeeps
    obtain ⟨before, hbefore⟩ := List.getLast?_eq_some_iff.mp hlast
    obtain ⟨between, hbetween⟩ := List.getLast?_eq_some_iff.mp happlied
    have hmem : (last, some response) ∈ exchanges τ := by
      rw [hrun.sent]
      exact mem_append_left _ (mem_of_getLast? hlast)
    have hsame := hkeeps last response _ hmem hstatus hend
    refine ⟨before, last, response, between, applied, final, [], ?_, ?_, hprobe, hstatus, horigin,
      hlegacy, hfinal⟩
    · rw [hrun.sent, hbefore, hbetween, append_assoc]
      rfl
    · rw [hsame]
      exact horigin

/-- The capabilities of a fallback that a run saves. -/
def savedFallbacks (τ : SignerTrace) : List DestinationCapability :=
  (saves τ).filter (fun c => c.evidence = .successfulLegacyFallback)

/-- The fallback is answered by the origin that has answered 400. -/
theorem fallback_evidenced_accepted :
  ∃ c ∈ saves (exampleTrace accepted), c.evidence = .successfulLegacyFallback ∧
    exampleSigner.Evidenced (exampleTrace accepted) c.origin
  := by
  have hsaved : (savedFallbacks (exampleTrace accepted)).head?.isSome := by decide +kernel
  obtain ⟨c, hc⟩ := Option.isSome_iff_exists.mp hsaved
  obtain ⟨hmem, hevidence⟩ := mem_filter.mp (mem_of_mem_head? hc)
  have hevidence := of_decide_eq_true hevidence
  refine ⟨c, hmem, hevidence, ?_⟩
  apply (fallback_evidenced_iff exampleSigner (exampleRequest "origin.example")
    (runs_exec _ _) hmem hevidence).mpr
  have hsame : ∀ x ∈ exchanges (exampleTrace accepted),
      exampleSigner.originOf x.1 = .ok (lit "https://origin.example") := by
    decide +kernel
  intro x response y hx _ hy
  rw [hsame _ hx, hsame _ (mem_of_getLast? hy)]

/-- The fallback is redirected to another origin, which is known to want the legacy signature and
has never been sent an RFC 9421 request. Its success is saved as that of a fallback. -/
theorem fallback_saved_for_other_origin :
  ∃ τ result, (exampleSigner.doGET (exampleRequest "origin.example")).Runs τ result ∧
    ∃ c ∈ saves τ, c.evidence = .successfulLegacyFallback ∧
      c.origin = lit "https://other.example" ∧ ¬ exampleSigner.Evidenced τ c.origin
  := by
  refine ⟨exampleTrace redirected, _, runs_exec _ _, ?_⟩
  have hsaved : (savedFallbacks (exampleTrace redirected)).map DestinationCapability.origin =
      [lit "https://other.example"] := by
    decide +kernel
  obtain ⟨c, hc, horigin⟩ := mem_map.mp (hsaved ▸ mem_singleton_self _)
  obtain ⟨hmem, hevidence⟩ := mem_filter.mp hc
  refine ⟨c, hmem, of_decide_eq_true hevidence, horigin, ?_⟩
  rintro ⟨before, x, response, between, y, response', after, hsent, hx, -, hstatus, -⟩
  have hanswers : ∀ x ∈ exchanges (exampleTrace redirected),
      exampleSigner.originOf x.1 = .ok (lit "https://other.example") →
        x.2.map Response.status ≠ some 400 := by
    decide +kernel
  have hin : (x, some response) ∈ exchanges (exampleTrace redirected) := by
    rw [hsent]
    exact mem_append_right before mem_cons_self
  apply hanswers _ hin
  · rw [hx, horigin]
  · rw [Option.map_some, hstatus]

end ConfiguredSigner

end HttpSignature
