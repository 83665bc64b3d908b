import RenderMesh.Cdn.Invalidation
import RenderMesh.Refresh.Stops

/-!
# What a refresh reports of its purge

A refresh makes its one purge call after everything else (`purge_in_refresh`). When the call
fails part of the way, the origin's snapshot has the error, with the ids that were accepted or,
when there are none, with the CDN results of an earlier refresh (`refresh_reports_failure`).
-/
namespace RenderMesh.Refresh

open RenderMesh.Core RenderMesh.Mirror RenderMesh.Server RenderMesh.Cdn

variable {deps : Deps} {env : Env}

def isPurge : Op → Bool
  | .purge _ => true
  | _ => false

/-- What a snapshot says of the last CDN refresh: its status, ids and number of items. -/
def cdnReport (snapshot : Option OriginSnapshotDebug) : Option Str × List Str × Option Nat :=
  (snapshot.bind (·.lastCdnStatus), (snapshot.map (·.lastCdnRequestIds)).getD [],
    snapshot.bind (·.lastCdnSubmittedItems))

theorem within_not_purge {dir : List Name} {o : Op} (h : o.Within dir) : isPurge o = false := by
  cases o with
  | purge request => exact h.elim
  | _ => rfl

/-- A new snapshot keeps what was reported before. -/
theorem setSnapshot_report (snapshots : Snapshots) (snapshot : OriginSnapshotDebug)
    (hnew : cdnReport (some snapshot) = cdnReport none) :
    ∃ stored, setSnapshot snapshots snapshot snapshot.originId = some stored ∧
      cdnReport (some stored) = cdnReport (snapshots snapshot.originId) := by
  rw [setSnapshot, Function.update_self]
  cases snapshots snapshot.originId with
  | none => exact ⟨_, rfl, hnew⟩
  | some previous => exact ⟨_, rfl, rfl⟩

/-- A purge call and what is made of its result. -/
theorem refreshAfterActivation_run {cdn : OriginCdnRefresh} {id : Str} {generation : Nat}
    {diff : OriginFreshnessDiff} {request : CdnPurgeRequest} {w wp : World} {f : CdnFailure}
    (hpurge : (.purge request, wp) ∈
      trace (step deps env) (refreshAfterActivation cdn id generation diff) w)
    (hfail : env.purge wp.clock request = .err (.failure f)) :
    run (step deps env) (refreshAfterActivation cdn id generation diff) w =
      (.err (translatePurgeError (.failure f)), (step deps env (.purge request) w).2) := by
  unfold refreshAfterActivation at hpurge ⊢
  cases hplan : buildCdnRefreshPlan cdn.strategy diff cdn.urlPrefixes with
  | none =>
    rw [hplan] at hpurge
    cases hpurge
  | some plan =>
    rw [hplan] at hpurge
    have hcall := mem_trace_of_bind_of_uses (P := fun o => isPurge o = false) (fun r => by cases r <;> trivial)
      hpurge (by simp [isPurge])
    rw [call, trace_perform, List.mem_singleton] at hcall
    cases hcall
    have hstep : run (step deps env) (call (.purge ⟨id, generation, plan.mode⟩)) w =
        (.ok (Except.error (.failure f)), (step deps env (.purge ⟨id, generation, plan.mode⟩) w).2) := by
      rw [call, run_perform, step, hfail]
      rfl
    simp only [run_bind, hstep]
    rfl

/-- The CDN phase when its purge fails. -/
theorem refreshCdn_failure {id : Str} {generation : Nat} {diff : OriginFreshnessDiff}
    {cdn : OriginCdnRefresh} {request : CdnPurgeRequest} {w wp : World} {f : CdnFailure}
    {stored : OriginSnapshotDebug} (hstored : w.originRuntime id = some stored)
    (hpurge : (.purge request, wp) ∈ trace (step deps env) (refreshCdn id generation diff (some cdn)) w)
    (hfail : env.purge wp.clock request = .err (.failure f)) :
    ∃ w' snapshot, run (step deps env) (refreshCdn id generation diff (some cdn)) w = (.ok none, w') ∧
      w'.originRuntime id = some snapshot ∧ snapshot.lastCdnError = some (showPurgeFailure f) ∧
      cdnReport (some snapshot) = if f.requestIds = [] then cdnReport (some stored)
        else (some "partial_failure".toList, f.requestIds, some f.submittedItems) := by
  have hphase : (.purge request, wp) ∈ trace (step deps env) (refreshAfterActivation cdn id generation diff) w := by
    rw [refreshCdn] at hpurge
    have hattempt := mem_trace_of_bind_of_uses (P := fun o => isPurge o = false) ?_ hpurge (by simp [isPurge])
    · rwa [trace_attempt] at hattempt
    · rintro (e | _ | outcome)
      · refine Prog.uses_bind ?_ fun _ => Prog.uses_bind (uses_call rfl) fun _ => trivial
        cases e.cdn with
        | none => trivial
        | some failure =>
          simp only
          split
          · trivial
          · exact uses_call rfl
      · trivial
      · exact Prog.uses_bind (uses_call rfl) fun _ => trivial
  have hrun := refreshAfterActivation_run hphase hfail
  rw [refreshCdn, run_bind, run_attempt, hrun]
  simp only [translatePurgeError]
  -- the purge call leaves the snapshots as they were
  have hkept : (step deps env (.purge request) w).2.originRuntime id = some stored := hstored
  generalize (step deps env (.purge request) w).2 = w1 at hkept
  by_cases hids : f.requestIds = []
  · refine ⟨(step deps env (.setCdnError id (showPurgeFailure f)) w1).2,
      { stored with lastCdnError := some (showPurgeFailure f) }, ?_⟩
    simp only [hids, if_true]
    refine ⟨rfl, ?_, trivial, rfl⟩
    simp [step, setCdnError, hkept]
  · let w2 := (step deps env (.setCdnResult id f.provider "partial_failure".toList f.requestIds.head?
      f.requestIds f.submittedItems) w1).2
    refine ⟨(step deps env (.setCdnError id (showPurgeFailure f)) w2).2,
      { stored with
        lastCdnProvider := some f.provider
        lastCdnStatus := some "partial_failure".toList
        lastCdnRequestId := f.requestIds.head?
        lastCdnRequestIds := f.requestIds
        lastCdnRefreshedAt := some (deps.rfc3339 (env.nanos w1.clock))
        lastCdnSubmittedItems := some f.submittedItems
        lastCdnError := some (showPurgeFailure f) }, ?_⟩
    simp only [hids, if_false]
    refine ⟨rfl, ?_, trivial, rfl⟩
    simp [w2, step, setCdnError, setCdnResult, hkept]

/-- The activation proper keeps what was reported before, when it returns. -/
theorem activate_stored {id : Str} {staged : StagedOriginSync} {config : EdgeConfig} {registry : Registry}
    {snapshot : OriginSnapshotDebug} (hid : snapshot.originId = id)
    (hnew : cdnReport (some snapshot) = cdnReport none) {w w' : World}
    (h : run (step deps env) (activate deps id staged config registry snapshot) w = (.ok (), w')) :
    ∃ stored, w'.originRuntime id = some stored ∧
      cdnReport (some stored) = cdnReport (w.originRuntime id) := by
  obtain ⟨_, w1, h1, k1⟩ := run_bind_ok _ |>.mp h
  obtain ⟨_, w2, h2, k2⟩ := run_bind_ok _ |>.mp k1
  obtain ⟨_, w3, h3, k3⟩ := run_bind_ok _ |>.mp k2
  obtain ⟨_, w4, h4, h5⟩ := run_bind_ok _ |>.mp k3
  cases h2
  cases h3
  cases h4
  cases h5
  have hstores : w1.originRuntime = w.originRuntime := by
    have hswap : SameStores w (run (step deps env) (activateStagedOrigin deps staged) w).2 :=
      stores_of_files (activateStagedOrigin_files staged) w
    rw [h1] at hswap
    exact hswap.originRuntime
  subst hid
  rw [← hstores]
  exact setSnapshot_report w1.originRuntime snapshot hnew

/-- The purge call of a refresh is the last thing it does but for the report: the refresh
returns, and the snapshot says how the purge failed. -/
theorem refresh_reports_failure {id : Str} {cdn : OriginCdnRefresh} {barrier : Option Str}
    {request : CdnPurgeRequest} {w wp : World} {f : CdnFailure}
    (hpurge : (.purge request, wp) ∈
      trace (step deps env) (refreshOriginSnapshot deps id (some cdn) barrier) w)
    (hfail : env.purge wp.clock request = .err (.failure f)) :
    ∃ response w' snapshot,
      run (step deps env) (refreshOriginSnapshot deps id (some cdn) barrier) w = (.ok response, w') ∧
      w'.originRuntime id = some snapshot ∧ snapshot.lastCdnError = some (showPurgeFailure f) ∧
      cdnReport (some snapshot) = if f.requestIds = [] then cdnReport (w.originRuntime id)
        else (some "partial_failure".toList, f.requestIds, some f.submittedItems) := by
  have hnot : ¬ isPurge (.purge request) = false := by simp [isPurge]
  have hreads : ∀ o : Op, o.Reads → isPurge o = false := fun o ho => within_not_purge (ho.within [])
  rw [refreshOriginSnapshot] at hpurge ⊢
  obtain ⟨previous, w0, hprevious, hpurge, hrun⟩ :=
    mem_trace_bind_of_uses (P := fun o => isPurge o = false) (uses_call rfl) hpurge hnot
  rw [hrun]
  cases hprevious
  obtain ⟨staged, w1, hstage, hpurge, hrun⟩ := mem_trace_bind_of_uses
    ((stageOriginSync_within deps id _).mono fun _ => within_not_purge) hpurge hnot
  rw [hrun]
  obtain ⟨preparation, w2, hprepare, hpurge, hrun⟩ := mem_trace_bind_of_uses
    (Prog.uses_attempt ((prepareActivation_reads deps id _ staged barrier).mono hreads)) hpurge hnot
  rw [hrun]
  have hquiet : w2.originRuntime = w.originRuntime := by
    have h1 := (@quiet_of_staged deps env _ _ (stageOriginSync_within deps id (w.freshnessIndexes id)) w.tick).stores
    rw [hstage] at h1
    have h2 := (@quiet_of_reads deps env _ _ (Prog.uses_attempt
      (prepareActivation_reads deps id (w.freshnessIndexes id) staged barrier)) w1).stores
    rw [hprepare] at h2
    exact (h1.trans h2).originRuntime
  cases preparation with
  | error e =>
    -- a refresh whose checks failed asks for no purge
    have hdiscard : Prog.Uses (fun o => isPurge o = false) (discardStagedOrigin deps staged) := by
      refine uses_ioUnlessNotFound ?_ _
      rfl
    obtain ⟨cleanup, w3, -, hrest, -⟩ :=
      mem_trace_bind_of_uses (Prog.uses_attempt hdiscard) hpurge hnot
    cases cleanup <;> cases hrest
  | ok prepared =>
    obtain ⟨config, registry⟩ := prepared
    simp only [activateSnapshot] at hpurge ⊢
    obtain ⟨current, w3, hcurrent, hpurge, hrun⟩ :=
      mem_trace_bind_of_uses (P := fun o => isPurge o = false) (uses_call rfl) hpurge hnot
    rw [hrun]
    cases hcurrent
    obtain ⟨now, w4, hnow, hpurge, hrun⟩ :=
      mem_trace_bind_of_uses (P := fun o => isPurge o = false) (uses_call rfl) hpurge hnot
    rw [hrun]
    cases hnow
    have hactivate : ∀ snapshot, Prog.Uses (fun o => isPurge o = false)
        (activate deps id staged config registry snapshot) := by
      intro snapshot
      refine Prog.uses_bind ((activateStagedOrigin_files staged).mono
        fun o ho => within_not_purge ho.within) fun _ => ?_
      refine Prog.uses_bind (uses_call rfl) fun _ => Prog.uses_bind (uses_call rfl) fun _ => ?_
      exact Prog.uses_bind (uses_call rfl) fun _ => uses_call rfl
    obtain ⟨⟨⟩, w5, hactivated, hpurge, hrun⟩ := mem_trace_bind_of_uses (hactivate _) hpurge hnot
    rw [hrun]
    obtain ⟨stored, hstored, hkept⟩ := @activate_stored deps env id _ _ _ _ rfl rfl _ _ hactivated
    have hphase := mem_trace_of_bind_of_uses (fun _ => Prog.uses_pure (fun o => isPurge o = false) _) hpurge hnot
    obtain ⟨w6, snapshot, hrun6, hsnapshot, herror, hreport⟩ := refreshCdn_failure hstored hphase hfail
    rw [run_bind, hrun6]
    refine ⟨_, w6, snapshot, rfl, hsnapshot, herror, ?_⟩
    rw [hreport, hkept]
    exact congrArg (fun snapshots : Snapshots => if f.requestIds = [] then cdnReport (snapshots id) else _)
      hquiet

/-! ## CloudFront SaaS -/

section
variable {self : CloudFrontSaasCdnRepository} {senv : SaasEnv} {request : CdnPurgeRequest}
  {paths : List Str}

theorem showPurgeFailure_ne_nil {f : CdnFailure} (h : f.message ≠ []) : showPurgeFailure f ≠ [] := by
  rw [showPurgeFailure]
  split
  · exact h
  · simp [h]

/-- A purge asks for one invalidation of each purged tenant on the listed pages, in the order of
their ids, up to the first call that fails; and the refresh that asked for the purge reports such
a failure with the ids accepted before it. -/
theorem purge_fans_out {turns : Nat} {c c1 : Cloud} {tenants : List DistributionTenant}
    (hpaths : CloudFrontSaasCdnRepository.ensurePathsMode request.mode "CloudFront SaaS".toList = .ok paths)
    (hlisting : run (saasStep senv) (Prog.iterate self.listPage turns ⟨none, ∅, []⟩) c =
      (.ok (some tenants), c1)) :
    tenants = pagesOf senv (Prog.iterate self.listPage turns ⟨none, ∅, []⟩) c ∧
    (self.purgeOrder tenants).Perm (tenants.filter self.purged) ∧
    (self.purgeOrder tenants).Pairwise (fun left right => (compare left.id right.id).isLE) ∧
    (∀ tenant, self.purged tenant = true ↔ tenant.enabled ≠ some false ∧
      tenant.distributionId = self.config.distributionId ∧
      ∃ domain ∈ tenant.domains, domain ∈ self.exactHosts) ∧
    CloudFrontSaasCdnRepository.Submits deps self request paths (self.purgeOrder tenants)
      (submitted senv (self.purge deps turns request) c) (accepted senv (self.purge deps turns request) c)
      (run (saasStep senv) (self.purge deps turns request) c).1 ∧
    ∀ f, (run (saasStep senv) (self.purge deps turns request) c).1 = .err (.failure f) →
      ∀ (env : Env) (id : Str) (cdn : OriginCdnRefresh) (barrier : Option Str) (w wp : World),
        (.purge request, wp) ∈ trace (step deps env) (refreshOriginSnapshot deps id (some cdn) barrier) w →
        env.purge wp.clock request = .err (.failure f) →
        ∃ response w' snapshot message,
          run (step deps env) (refreshOriginSnapshot deps id (some cdn) barrier) w = (.ok response, w') ∧
          w'.originRuntime id = some snapshot ∧
          snapshot.lastCdnError = some message ∧ message ≠ [] ∧
          cdnReport (some snapshot) = if f.requestIds = [] then cdnReport (w.originRuntime id)
            else (some "partial_failure".toList, f.requestIds, some f.submittedItems) := by
  have hsubmits := @CloudFrontSaasCdnRepository.purge_submits deps self request paths senv turns c c1 tenants
    hpaths hlisting
  refine ⟨(self.listing_pages hlisting).1, self.purgeOrder_perm tenants, self.purgeOrder_sorted tenants,
    self.purged_iff, hsubmits, ?_⟩
  intro f hf env id cdn barrier w wp hpurge hfail
  rw [hf] at hsubmits
  obtain ⟨tenant, error, he, -⟩ := hsubmits
  have hmessage : f.message ≠ [] := by
    rw [CdnPurgeError.failure.inj he]
    exact CloudFrontSaasCdnRepository.invalidationFailure_message_ne_nil _
  obtain ⟨response, w', snapshot, hrun, hsnapshot, herror, hreport⟩ := refresh_reports_failure hpurge hfail
  exact ⟨response, w', snapshot, _, hrun, hsnapshot, herror, showPurgeFailure_ne_nil hmessage, hreport⟩

/-- A page with three tenants to purge, one that is disabled and one of another distribution. -/
def mixedPage : Option Str → DistributionTenantPage := fun _ =>
  ⟨[siteTenant "dt_5" (some true), disabledTenant, siteTenant "dt_2" none,
    { siteTenant "dt_4" none with distributionId := "EOTHER".toList }, siteTenant "dt_3" none], none⟩

/-- A service that refuses the invalidation of one of them. -/
def refusingService : SaasEnv :=
  { quietService mixedPage with
    invalidate := fun _ request =>
      if request.tenantId = "dt_3".toList then .error (anyhow "throttled".toList)
      else .ok ("I".toList ++ request.tenantId) }

/-- The purge of that page: by the order of ids, up to the tenant that is refused. -/
theorem purge_mixed_page :
    let listing := Prog.iterate smallRepository.listPage 1 ⟨none, ∅, []⟩
    let request : CdnPurgeRequest := ⟨"site".toList, 2, .paths ["/a".toList]⟩
    let purge := smallRepository.purge smallDeps 1 request
    let tenants := (mixedPage none).tenants
    (smallRepository.purgeOrder tenants).map (·.id) = ["dt_2".toList, "dt_3".toList, "dt_5".toList] ∧
    (submitted refusingService purge Cloud.empty).map (·.tenantId) = ["dt_2".toList, "dt_3".toList] ∧
    accepted refusingService purge Cloud.empty = ["Idt_2".toList] ∧
    tenants = pagesOf refusingService listing Cloud.empty ∧
    CloudFrontSaasCdnRepository.Submits smallDeps smallRepository request ["/a".toList]
      (smallRepository.purgeOrder tenants) (submitted refusingService purge Cloud.empty)
      (accepted refusingService purge Cloud.empty)
      (run (saasStep refusingService) purge Cloud.empty).1 := by
  have h := @purge_fans_out smallDeps smallRepository refusingService
    ⟨"site".toList, 2, .paths ["/a".toList]⟩ ["/a".toList] 1 Cloud.empty _ (mixedPage none).tenants rfl rfl
  exact ⟨by decide, by decide +kernel, by decide +kernel, h.1, h.2.2.2.2.1⟩

end

end RenderMesh.Refresh
