import RenderMesh.Cdn.Distribution
import RenderMesh.Cdn.Zone
import RenderMesh.Startup.Runtime

/-!
# The domains of all origins at their providers

`sync_origins_at_startup` (`src/src/services/startup/initial_sync.rs`) reconciles the domains of one
origin after the other. Each origin has a client for a Cloudflare zone or a CloudFront
distribution (`src/src/services/cdn_domains.rs`), and several may have one for the same.

* `reconcileAt_ok`: what a reconciliation that succeeds leaves at its provider.
* `reconciled_in_run`: in a run that succeeds, each origin that has domains has its reconciliation.
-/
namespace RenderMesh.Startup

open RenderMesh.Core RenderMesh.Mirror RenderMesh.Domains RenderMesh.Refresh RenderMesh.Cdn

/-- What the domain client of an origin was built for. -/
inductive Repository where
  | cloudflare (zoneId : Str)
  | cloudFront (distributionId : Str)
  deriving DecidableEq

/-- The zones, the distributions and, for `reconcile_tenants`, whatever the tenants are. -/
structure Providers (τ ω β γ : Type) where
  zones : Str → Zone
  distributions : Str → Distribution ω β γ
  tenants : τ

structure ProvidersEnv (ω β γ : Type) where
  /-- the client of an origin -/
  repository : Str → Repository
  zone : Str → ZoneEnv
  distribution : Str → DistributionEnv ω β γ

/-- The result of code that runs to its end. -/
def resultOf {α : Type} : Outcome Error α → Except Error α
  | .ok a => .ok a
  | .err e => .error e
  | .dropped => .error (anyhow "task was cancelled".toList)

section
variable {τ ω β γ : Type}

/-- mirrors src/src/repositories/cdn.rs:140-151 -/
def reconcileAt (providers : ProvidersEnv ω β γ) (request : CdnDomainReconcileRequest)
    (p : Providers τ ω β γ) : Except Error CdnDomainReconcileResult × Providers τ ω β γ :=
  match providers.repository request.originId with
  | .cloudflare id =>
    let r := run (zoneStep (providers.zone id)) (reconcileDomains request) (p.zones id)
    (resultOf r.1, { p with zones := Function.update p.zones id r.2 })
  | .cloudFront id =>
    let r := run (distributionStep (providers.distribution id)) (reconcileDistribution request)
      (p.distributions id)
    (resultOf r.1, { p with distributions := Function.update p.distributions id r.2 })

/-- A startup that reconciles the domains at these providers. -/
def StartupEnv.at (env : StartupEnv τ) (providers : ProvidersEnv ω β γ) :
    StartupEnv (Providers τ ω β γ) where
  server := env.server
  manifestFile := env.manifestFile
  originStorage := env.originStorage
  cdnRepository := env.cdnRepository
  reconcileDomains := reconcileAt providers
  reconcileTenants := fun request p =>
    let r := env.reconcileTenants request p.tenants
    (r.1, { p with tenants := r.2 })

/-- What the client of `originId` works on after a reconciliation that succeeded. -/
inductive Reconciled (providers : ProvidersEnv ω β γ) (request : CdnDomainReconcileRequest)
    (p p' : Providers τ ω β γ) : Prop
  | zone (id : Str) (repository : providers.repository request.originId = .cloudflare id)
      (after : ZoneAfter request (p.zones id) (p'.zones id))
      (zones : ∀ id', id' ≠ id → p'.zones id' = p.zones id')
      (distributions : p'.distributions = p.distributions)
  | distribution (id : Str) (repository : providers.repository request.originId = .cloudFront id)
      (after : (p'.distributions id).config.aliasNames =
        (finalAliases (p.distributions id).config request).toList)
      (distributions : ∀ id', id' ≠ id → p'.distributions id' = p.distributions id')
      (zones : p'.zones = p.zones)

theorem resultOf_ok {α : Type} {out : Outcome Error α} {a : α} (h : resultOf out = .ok a) : out = .ok a := by
  cases out with
  | ok a' =>
    cases h
    rfl
  | err e => cases h
  | dropped => cases h

theorem reconcileAt_ok {providers : ProvidersEnv ω β γ} {request : CdnDomainReconcileRequest}
    {p : Providers τ ω β γ} {result : CdnDomainReconcileResult}
    (h : (reconcileAt providers request p).1 = .ok result) :
    Reconciled providers request p (reconcileAt providers request p).2 := by
  rw [reconcileAt] at h ⊢
  cases hrepository : providers.repository request.originId with
  | cloudflare id =>
    simp only [hrepository] at h ⊢
    refine .zone id hrepository ?_ (fun id' hne => Function.update_of_ne hne _ _) rfl
    simp only [Function.update_self]
    exact reconcileDomains_ok (Prod.ext (resultOf_ok h) rfl)
  | cloudFront id =>
    simp only [hrepository] at h ⊢
    refine .distribution id hrepository ?_ (fun id' hne => Function.update_of_ne hne _ _) rfl
    simp only [Function.update_self]
    exact aliasNames_of_reconciled (reconcileDistribution_ok (Prod.ext (resultOf_ok h) rfl))

end

/-! ## A run -/

/-- What the domains of an origin are reconciled with. -/
def domainsRequest (manifest : RenderMeshManifest) (originId : Str) (domains : OriginCdnDomains) :
    CdnDomainReconcileRequest where
  originId := originId
  desiredDomains := desiredDomainsForOrigin manifest originId domains.config
  originDomain := domains.originDomain
  certificateArn := domains.certificateArn
  proxied := domains.config.proxied
  removeExtraDomains := domains.config.removeExtraDomains

section
variable {P : Type} {deps : Deps} {env : StartupEnv P} {manifest : RenderMeshManifest}
  {service : OriginRefreshService} {cdn : StartupCdn} {originId : Str} {domains : OriginCdnDomains}
  {Q : StartupOp → StartupWorld P → Prop} {I : P → Prop}

/-- After its turn an origin has what its reconciliation brings, if the other steps keep it. -/
theorem reconciled_in_turn (hdomains : cdn.domainsByOrigin[originId]? = some domains)
    (hkeep : ∀ o s, Q o s → I s.providers → I (startupStep deps env o s).2.providers)
    (hbrings : ∀ s, Q (.reconcileDomains (domainsRequest manifest originId domains)) s →
      I (env.reconcileDomains (domainsRequest manifest originId domains) s.providers).2)
    {s s' : StartupWorld P}
    (hrun : run (startupStep deps env) (syncOriginAtStartup manifest service cdn originId) s = (.ok (), s'))
    (hsteps : ∀ e ∈ trace (startupStep deps env) (syncOriginAtStartup manifest service cdn originId) s,
      Q e.1 e.2) : I s'.providers := by
  rw [syncOriginAtStartup] at hrun hsteps
  obtain ⟨report, s1, hrefresh, hrun⟩ := run_bind_ok _ |>.mp hrun
  rw [trace_bind, hrefresh, List.forall_mem_append] at hsteps
  cases report with
  | error e => cases hrun
  | ok response =>
    simp only [hdomains] at hrun hsteps
    obtain ⟨-, hsteps⟩ := hsteps
    obtain ⟨_, s2, hreconcile, hrun⟩ := run_bind_ok _ |>.mp hrun
    rw [trace_bind, hreconcile, List.forall_mem_append] at hsteps
    obtain ⟨hfirst, hrest⟩ := hsteps
    rw [reconcileOriginCdnDomains] at hreconcile hfirst
    obtain ⟨result, s3, hcall, hrecord⟩ := run_bind_ok _ |>.mp hreconcile
    rw [trace_bind, hcall, List.forall_mem_append] at hfirst
    obtain ⟨hcalled, hrecorded⟩ := hfirst
    have hthere : I s3.providers := by
      rw [start, trace_perform] at hcalled
      cases hcall
      exact hbrings s1 (hcalled _ (List.mem_singleton_self _))
    have hthere2 := keeps_of_steps (I := fun s => I s.providers) hkeep hrecorded hthere
    rw [hrecord] at hthere2
    have hthere' := keeps_of_steps (I := fun s => I s.providers) hkeep hrest hthere2
    rwa [hrun] at hthere'

/-- After a run every origin has what its reconciliation brings, if the other steps keep it. -/
theorem reconciled_in_run (horigin : originId ∈ manifest.origins)
    (hdomains : cdn.domainsByOrigin[originId]? = some domains)
    (hkeep : ∀ o s, Q o s → I s.providers → I (startupStep deps env o s).2.providers)
    (hbrings : ∀ s, Q (.reconcileDomains (domainsRequest manifest originId domains)) s →
      I (env.reconcileDomains (domainsRequest manifest originId domains) s.providers).2)
    {s s' : StartupWorld P}
    (hrun : run (startupStep deps env) (syncOriginsAtStartup manifest service cdn) s = (.ok (), s'))
    (hsteps : ∀ e ∈ trace (startupStep deps env) (syncOriginsAtStartup manifest service cdn) s,
      Q e.1 e.2) : I s'.providers := by
  have hmem : originId ∈ manifest.origins.toList.map (·.1) := by
    rw [Std.TreeMap.map_fst_toList_eq_keys]
    exact Std.TreeMap.mem_keys.mpr horigin
  rw [syncOriginsAtStartup] at hrun hsteps
  generalize manifest.origins.toList.map (·.1) = ids at *
  induction ids generalizing s with
  | nil => cases hmem
  | cons id ids ih =>
    rw [Prog.each, run_fold_cons] at hrun hsteps
    obtain ⟨_, s1, hturn, hrest⟩ := run_bind_ok _ |>.mp hrun
    rw [trace_bind, hturn, List.forall_mem_append] at hsteps
    by_cases hid : originId = id
    · subst hid
      have hthere := reconciled_in_turn hdomains hkeep hbrings hturn hsteps.1
      have hthere' := keeps_of_steps (I := fun s => I s.providers) hkeep hsteps.2 hthere
      rwa [show run _ _ s1 = _ from hrest] at hthere'
    · exact ih hrest hsteps.2 ((List.mem_cons.mp hmem).resolve_left hid)

end

end RenderMesh.Startup
