import RenderMesh.Bugs.SpelledRecords
import RenderMesh.Startup.Providers

/-!
# Hosts that another origin's reconciliation removes

Behaviour (`src/src/services/cdn_domains.rs:93-133`, `src/src/repositories/cloudflare_cdn.rs:154-162`,
`src/src/repositories/cloudfront_cdn.rs:135-142`): with `remove_extra_domains` a reconciliation of
one origin removes what the provider has for the public origin domain, or as aliases, and is not
one of this origin's own desired domains. The hosts of the other origins are not looked at, nor
are the origin's own wildcards where they are not included.

Documented (`docs/configuration.md`): it removes "provider domains that point to this origin but are
no longer in RenderMesh `hosts`".

Counterexample: two origins share a zone and a public origin domain. The first creates the record of
its host, and the second removes it (`shared_zone_loses_host`).

Condition: `keeps_domains_iff`. Whenever an origin with `remove_extra_domains` has its turn, the
hosts of the manifest that its provider has for the origin domain, or as aliases, are desired
domains of that origin in that spelling.
-/
namespace RenderMesh.Bugs.SharedDomains

open RenderMesh.Core RenderMesh.Mirror RenderMesh.Server RenderMesh.Domains RenderMesh.Refresh
open RenderMesh.Cdn RenderMesh.Startup

/-! ## What is claimed -/

/-- The name is a host key of the manifest; DNS compares names without case. -/
def NamesHost (manifest : RenderMeshManifest) (name : Str) : Prop :=
  ∃ rule originId, HasRule manifest rule originId ∧ toAsciiLower name = rule.pattern

section
variable {τ ω β γ : Type}

/-- No record and no alias of a host is removed. -/
structure KeepsHosts (manifest : RenderMeshManifest) (p p' : Providers τ ω β γ) : Prop where
  records : ∀ id, ∀ record ∈ (p.zones id).records, NamesHost manifest record.name →
    ∃ record' ∈ (p'.zones id).records, record'.id = record.id ∧
      record'.recordType = record.recordType ∧ record'.name = record.name
  aliases : ∀ id, ∀ name ∈ (p.distributions id).config.aliasNames, NamesHost manifest name →
    name ∈ (p'.distributions id).config.aliasNames

/-- The domain exists at the provider of the origin. -/
def Present (providers : ProvidersEnv ω β γ) (originId domain : Str) (p : Providers τ ω β γ) : Prop :=
  match providers.repository originId with
  | .cloudflare id => ∃ record ∈ (p.zones id).records, record.recordType = "CNAME".toList ∧
      eqIgnoreAsciiCase record.name domain = true
  | .cloudFront id => domain ∈ (p.distributions id).config.aliasNames

/-- What a reconciliation with `remove_extra_domains` finds of the manifest's hosts is desired. -/
def Spares (manifest : RenderMeshManifest) (providers : ProvidersEnv ω β γ)
    (request : CdnDomainReconcileRequest) (p : Providers τ ω β γ) : Prop :=
  request.removeExtraDomains = true →
    match providers.repository request.originId with
    | .cloudflare id => ∀ record ∈ (p.zones id).records, record.recordType = "CNAME".toList →
        record.content = request.originDomain → NamesHost manifest record.name →
        record.name ∈ request.desiredDomains
    | .cloudFront id => ∀ name ∈ (p.distributions id).config.aliasNames, NamesHost manifest name →
        name ∈ request.desiredDomains

section
variable (deps : Deps) (env : StartupEnv τ) (providers : ProvidersEnv ω β γ)
  (manifest : RenderMeshManifest) (service : OriginRefreshService) (cdn : StartupCdn)

/-- The steps of `sync_origins_at_startup`, each with the state it finds. -/
abbrev steps (s : StartupWorld (Providers τ ω β γ)) :
    List (StartupOp × StartupWorld (Providers τ ω β γ)) :=
  trace (startupStep deps (env.at providers)) (syncOriginsAtStartup manifest service cdn) s

/-- No reconciliation fails. -/
def NoProviderError (s : StartupWorld (Providers τ ω β γ)) : Prop :=
  ∀ request s1, (.reconcileDomains request, s1) ∈ steps deps env providers manifest service cdn s →
    ∃ result, (reconcileAt providers request s1.providers).1 = .ok result

structure KeepsDomains (s s' : StartupWorld (Providers τ ω β γ)) : Prop where
  present : ∀ originId domains, originId ∈ manifest.origins →
    cdn.domainsByOrigin[originId]? = some domains →
    ∀ domain ∈ desiredDomainsForOrigin manifest originId domains.config,
      Present providers originId domain s'.providers
  kept : ∀ e ∈ steps deps env providers manifest service cdn s,
    KeepsHosts manifest e.2.providers (startupStep deps (env.at providers) e.1 e.2).2.providers

end

/-! ## One reconciliation -/

section
variable {manifest : RenderMeshManifest} {providers : ProvidersEnv ω β γ}
  {request : CdnDomainReconcileRequest} {p p' : Providers τ ω β γ}

theorem keepsHosts_refl (p : Providers τ ω β γ) : KeepsHosts manifest p p :=
  ⟨fun _ record hr _ => ⟨record, hr, rfl, rfl, rfl⟩, fun _ _ hname _ => hname⟩

/-- A record that is kept is only revised. -/
theorem revised_type {z : Zone} {domains : List Str} {record : CloudflareDnsRecord} :
    (revised request z.listed domains record).recordType = record.recordType := by
  rw [revised]
  split
  · rename_i h
    obtain ⟨domain, -, hfirst⟩ := List.any_eq_true.mp h
    exact (firstNamed_mem (by simpa using hfirst)).2.1.symm
  · rfl

/-- A record is still there exactly if the second loop keeps it. -/
theorem zone_keeps_iff {z z' : Zone} (h : ZoneAfter request z z') {record : CloudflareDnsRecord}
    (hr : record ∈ z.records) : (∃ record' ∈ z'.records, record'.id = record.id ∧
      record'.recordType = record.recordType ∧ record'.name = record.name) ↔
        kept request record = true := by
  obtain ⟨created, hcreated, hrecords⟩ := h
  constructor
  · rintro ⟨record', hmem, hid, -, -⟩
    rw [hrecords, List.mem_append] at hmem
    rcases hmem with hmem | hmem
    · obtain ⟨r, hfilter, rfl⟩ := List.mem_map.mp hmem
      obtain ⟨hr', hkept⟩ := List.mem_filter.mp hfilter
      rw [revised_id] at hid
      rwa [← z.eq_of_id hr' hr hid]
    · exact absurd (List.mem_map.mpr ⟨record, hr, hid.symm⟩) (hcreated.fresh record' hmem)
  · intro hkept
    refine ⟨revised request z.listed request.desiredDomains.toList record, ?_, revised_id _ _ _,
      revised_type, revised_name _ _ _⟩
    rw [hrecords]
    exact List.mem_append_left _ (List.mem_map_of_mem (List.mem_filter.mpr ⟨hr, hkept⟩))

theorem kept_of_type {record : CloudflareDnsRecord} (h : record.recordType ≠ "CNAME".toList) :
    kept request record = true := by
  have hextra : isExtra request record = false := by
    rw [isExtra, decide_eq_false h]
    rfl
  rw [kept, hextra, Bool.and_false]
  rfl

/-- A reconciliation keeps the hosts exactly if it spares them. -/
theorem reconciled_keeps_iff (h : Reconciled providers request p p') :
    KeepsHosts manifest p p' ↔ Spares manifest providers request p := by
  cases h with
  | zone id repository after zones distributions =>
    rw [Spares, repository]
    constructor
    · intro hkeeps hremove record hr htype hcontent hhost
      have hkept := (zone_keeps_iff after hr).mp (hkeeps.records id record hr hhost)
      by_contra hextra
      have hnot := (not_kept_iff htype).mpr ⟨hremove, hcontent, hextra⟩
      rw [hnot] at hkept
      cases hkept
    · intro hspares
      refine ⟨fun id' record hr hhost => ?_, fun id' name hname _ => by rwa [distributions]⟩
      by_cases hid : id' = id
      · subst hid
        refine (zone_keeps_iff after hr).mpr ?_
        by_cases htype : record.recordType = "CNAME".toList
        · rw [← Bool.not_eq_false, not_kept_iff htype]
          rintro ⟨hremove, hcontent, hextra⟩
          exact hextra (hspares hremove record hr htype hcontent hhost)
        · exact kept_of_type htype
      · rw [zones id' hid]
        exact ⟨record, hr, rfl, rfl, rfl⟩
  | distribution id repository after distributions zones =>
    rw [Spares, repository]
    constructor
    · intro hkeeps hremove name hname hhost
      have hkept := hkeeps.aliases id name hname hhost
      rw [after, Std.ExtTreeSet.mem_toList, mem_finalAliases, hremove] at hkept
      simpa using hkept
    · intro hspares
      refine ⟨fun id' record hr _ => ⟨record, by rwa [zones], rfl, rfl, rfl⟩,
        fun id' name hname hhost => ?_⟩
      by_cases hid : id' = id
      · subst hid
        rw [after, Std.ExtTreeSet.mem_toList, mem_finalAliases]
        by_cases hremove : request.removeExtraDomains = true
        · exact Or.inl (hspares hremove name hname hhost)
        · exact Or.inr ⟨Bool.not_eq_true _ ▸ hremove, hname⟩
      · rwa [distributions id' hid]

/-- A reconciliation that keeps the hosts leaves the desired domains at the provider. -/
theorem reconciled_present (h : Reconciled providers request p p') (hkeeps : KeepsHosts manifest p p')
    {domain : Str} (hdomain : domain ∈ request.desiredDomains) (hhost : NamesHost manifest domain) : Present providers request.originId domain p' := by
  cases h with
  | zone id repository after zones distributions =>
    rw [Present, repository]
    cases hfirst : firstNamed (p.zones id).listed domain with
    | some record =>
      obtain ⟨hr, htype, hname⟩ := firstNamed_mem hfirst
      have hrecord : NamesHost manifest record.name := by
        obtain ⟨rule, originId, hrule, hpattern⟩ := hhost
        exact ⟨rule, originId, hrule, (eqIgnoreAsciiCase_iff.mp hname).trans hpattern⟩
      obtain ⟨record', hr', -, htype', hname'⟩ := hkeeps.records id record hr hrecord
      exact ⟨record', hr', htype'.trans htype, hname' ▸ hname⟩
    | none =>
      obtain ⟨created, hcreated, hrecords⟩ := after
      have hnew : domain ∈ created.map (·.name) := by
        rw [hcreated.names]
        simp [hdomain, hfirst]
      obtain ⟨record, hr, rfl⟩ := List.mem_map.mp hnew
      have hdate := hcreated.upToDate record hr
      simp only [upToDate, Bool.and_eq_true, decide_eq_true_eq] at hdate
      exact ⟨record, by rw [hrecords]; exact List.mem_append_right _ hr, hdate.1.1, by
        simp [eqIgnoreAsciiCase]⟩
  | distribution id repository after distributions zones =>
    rw [Present, repository]
    show domain ∈ (p'.distributions id).config.aliasNames
    rw [after, Std.ExtTreeSet.mem_toList, mem_finalAliases]
    exact Or.inl hdomain

/-- A domain of a host that is present stays so. -/
theorem present_of_keeps {originId domain : Str} (hkeeps : KeepsHosts manifest p p')
    (hhost : NamesHost manifest domain) (h : Present providers originId domain p) : Present providers originId domain p' := by
  rw [Present] at h ⊢
  split at h
  · rename_i id hid
    obtain ⟨record, hr, htype, hname⟩ := h
    have hrecord : NamesHost manifest record.name := by
      obtain ⟨rule, originId, hrule, hpattern⟩ := hhost
      exact ⟨rule, originId, hrule, (eqIgnoreAsciiCase_iff.mp hname).trans hpattern⟩
    obtain ⟨record', hr', -, htype', hname'⟩ := hkeeps.records id record hr hrecord
    exact ⟨record', hr', htype'.trans htype, hname' ▸ hname⟩
  · rename_i id hid
    exact hkeeps.aliases id domain h hhost

/-- A desired domain is one of the manifest's hosts. -/
theorem desired_namesHost {resolver : HostResolver} (hnew : HostResolver.new manifest = .ok resolver)
    {originId domain : Str} {config : CdnDomainConfig}
    (h : domain ∈ desiredDomainsForOrigin manifest originId config) : NamesHost manifest domain := by
  have hlower := desiredDomains_lower h
  rw [desiredDomainsForOrigin, Std.ExtTreeSet.mem_ofList, List.contains_iff_mem] at h
  obtain ⟨entry, hentry, hdomain⟩ := List.mem_filterMap.mp h
  have hmem := List.mem_of_mem_filter hentry
  obtain ⟨rule, hrule⟩ := Option.isSome_iff_exists.mp ((HostResolver.new_ok_iff.mp hnew).1 entry hmem)
  rw [normalizeCdnHost_eq hrule] at hdomain
  split at hdomain
  · cases hdomain
  · cases hdomain
    exact ⟨rule, entry.2.origin, ⟨entry, hmem, hrule, rfl⟩, hlower⟩

/-! ## Runs -/

variable {deps : Deps} {env : StartupEnv τ} {service : OriginRefreshService} {cdn : StartupCdn}

/-- Only the reconciliations of domains touch the zones and the distributions. -/
theorem step_keepsHosts {o : StartupOp} {s : StartupWorld (Providers τ ω β γ)}
    (ho : ∀ request, o ≠ .reconcileDomains request) :
    KeepsHosts manifest s.providers (startupStep deps (env.at providers) o s).2.providers := by
  cases o with
  | reconcileDomains request => exact absurd rfl (ho request)
  | reconcileTenants request =>
    exact ⟨fun _ record hr _ => ⟨record, hr, rfl, rfl, rfl⟩, fun _ _ hname _ => hname⟩
  | _ => exact keepsHosts_refl s.providers

theorem reconcile_keeps_iff {s s1 : StartupWorld (Providers τ ω β γ)}
    (hproviders : NoProviderError deps env providers manifest service cdn s)
    (he : (.reconcileDomains request, s1) ∈ steps deps env providers manifest service cdn s) :
    KeepsHosts manifest s1.providers
        (startupStep deps (env.at providers) (.reconcileDomains request) s1).2.providers ↔
      Spares manifest providers request s1.providers := by
  obtain ⟨result, hresult⟩ := hproviders request s1 he
  exact reconciled_keeps_iff (reconcileAt_ok hresult)

end

end

/-- A startup that comes through its reconciliations keeps the domains in use exactly if each
reconciliation that removes extra domains spares them. -/
theorem keeps_domains_iff {τ ω β γ : Type} (deps : Deps) (env : StartupEnv τ)
    (providers : ProvidersEnv ω β γ) {manifest : RenderMeshManifest} {resolver : HostResolver}
    (hnew : HostResolver.new manifest = .ok resolver) (service : OriginRefreshService)
    (cdn : StartupCdn) {s s' : StartupWorld (Providers τ ω β γ)}
    (hrun : run (startupStep deps (env.at providers)) (syncOriginsAtStartup manifest service cdn) s =
      (.ok (), s'))
    (hproviders : NoProviderError deps env providers manifest service cdn s) :
    KeepsDomains deps env providers manifest service cdn s s' ↔
      ∀ request s1, (.reconcileDomains request, s1) ∈ steps deps env providers manifest service cdn s →
        Spares manifest providers request s1.providers := by
  constructor
  · intro h request s1 he
    exact (reconcile_keeps_iff hproviders he).mp (h.kept _ he)
  · intro hspares
    have hkept : ∀ e ∈ steps deps env providers manifest service cdn s, KeepsHosts manifest
        e.2.providers (startupStep deps (env.at providers) e.1 e.2).2.providers := by
      rintro ⟨o, s1⟩ he
      by_cases ho : ∃ request, o = .reconcileDomains request
      · obtain ⟨request, rfl⟩ := ho
        exact (reconcile_keeps_iff hproviders he).mpr (hspares request s1 he)
      · exact step_keepsHosts fun request h => ho ⟨request, h⟩
    refine ⟨fun originId domains horigin hdomains domain hdomain => ?_, hkept⟩
    have hhost := desired_namesHost hnew hdomain
    refine reconciled_in_run horigin hdomains
      (Q := fun o s1 => (o, s1) ∈ steps deps env providers manifest service cdn s)
      (fun o s1 he h => present_of_keeps (hkept _ he) hhost h) (fun s1 he => ?_) hrun fun e he => he
    obtain ⟨result, hresult⟩ := hproviders _ s1 he
    exact reconciled_present (reconcileAt_ok hresult) (hkept _ he) hdomain hhost

/-! ## Two origins at one load balancer -/

/-- Domains at a Cloudflare zone, for the origin domain `lb.com`. -/
def zoneCdn (removeExtraDomains : Bool) : CdnConfig :=
  .cloudflare ⟨"ZONE_ID".toList, "API_TOKEN".toList, .all, [], some ⟨true, .dnsRecords,
    "RENDERMESH_PUBLIC_ORIGIN".toList, none, true, false, removeExtraDomains⟩⟩

/-- `a.com` is for `web`, which removes extra domains, and `b.com` for `api`. -/
def twoOrigins : RenderMeshManifest :=
  { smallManifest [("a.com", "web"), ("b.com", "api")] with
    origins := .ofList [("api".toList, OriginConfig.local_ ⟨"api".toList, none, none, some (zoneCdn false)⟩),
      ("web".toList, OriginConfig.local_ ⟨"web".toList, none, none, some (zoneCdn true)⟩)] }

def lbDeps : StartupDeps :=
  { smallDeps with
    yaml := fun _ => .ok twoOrigins
    json := fun _ => .ok twoOrigins
    envVar := fun _ => some "lb.com".toList
    originEdgeContexts := fun _ => ∅ }

/-- Storages that are empty. -/
def lbEnv : StartupEnv Unit where
  server := calmEnv
  manifestFile := fun _ => .ok []
  originStorage := fun _ _ => .ok ()
  cdnRepository := fun _ _ => .ok ()
  reconcileDomains := fun _ p => (.error (anyhow "no provider".toList), p)
  reconcileTenants := fun _ p => (.error (anyhow "no provider".toList), p)

/-- The zone that each origin is for. -/
def zonesOf (zone : Str → Str) : ProvidersEnv Unit Unit Unit where
  repository := fun originId => .cloudflare (zone originId)
  zone := fun _ => SpelledRecords.quietZone
  distribution := fun _ => ⟨fun _ => [], fun _ => true, fun _ => true, fun _ _ => .none⟩

/-- Nothing is mirrored, and each zone has a record for `old.com`, which is no host any more. -/
def beforeStartup : StartupWorld (Providers Unit Unit Unit Unit) where
  server := World.start FileTree.empty
  providers := ⟨fun _ => ⟨[⟨"r".toList, "CNAME".toList, "old.com".toList, "lb.com".toList, true⟩],
    List.nodup_singleton _, 0⟩, fun _ => ⟨⟨none, none, none, none, ()⟩, [], 0⟩, ()⟩
  spawned := []

theorem noProviderError_zones {deps : Deps} {env : StartupEnv Unit} {zone : Str → Str}
    {manifest : RenderMeshManifest} {service : OriginRefreshService} {cdn : StartupCdn}
    (s : StartupWorld (Providers Unit Unit Unit Unit)) :
    NoProviderError deps env (zonesOf zone) manifest service cdn s := by
  intro request s1 _
  obtain ⟨result, z', hrun⟩ := reconcileDomains_returns SpelledRecords.quietZone_healthy request
    (s1.providers.zones (zone request.originId))
  refine ⟨result, ?_⟩
  rw [reconcileAt]
  show resultOf (run _ _ _).1 = _
  rw [show run (zoneStep ((zonesOf zone).zone (zone request.originId))) (reconcileDomains request)
    (s1.providers.zones (zone request.originId)) = _ from hrun]
  rfl

/-- What a startup of the two origins comes to, as `f` of its CDN and of its end. -/
def lbStartup {α : Type} (zone : Str → Str)
    (f : StartupCdn → Outcome Error Unit × StartupWorld (Providers Unit Unit Unit Unit) → α) :
    Option α :=
  (run (startupStep lbDeps.toDeps (lbEnv.at (zonesOf zone))) (buildStartupCdn lbDeps twoOrigins)
    beforeStartup).1.ok?.map fun cdn => f cdn (run (startupStep lbDeps.toDeps (lbEnv.at (zonesOf zone)))
      (syncOriginsAtStartup twoOrigins plainService cdn) beforeStartup)

/-- The turn finds no record to remove but the one of `old.com`. -/
def onlyOld (zone : Str → Str) (e : StartupOp × StartupWorld (Providers Unit Unit Unit Unit)) : Bool :=
  match e.1 with
  | .reconcileDomains request => (e.2.providers.zones (zone request.originId)).records.all
      fun record => !isExtra request record || record.name = "old.com".toList
  | _ => true

theorem old_not_host : ¬ NamesHost twoOrigins "old.com".toList := by
  rintro ⟨rule, originId, ⟨entry, hentry, hrule, -⟩, hpattern⟩
  have hentries : ∀ entry ∈ twoOrigins.hosts.toList, (hostRule? entry.1).map (·.pattern) ≠
      some "old.com".toList := by decide +kernel
  refine hentries entry hentry ?_
  rw [hrule, Option.map_some, ← hpattern]
  decide

theorem spares_of_onlyOld {zone : Str → Str} {request : CdnDomainReconcileRequest}
    {s : StartupWorld (Providers Unit Unit Unit Unit)}
    (h : onlyOld zone (.reconcileDomains request, s) = true) :
    Spares twoOrigins (zonesOf zone) request s.providers := by
  intro _ record hr htype hcontent hhost
  have hold := List.all_eq_true.mp h record hr
  by_contra hname
  have hextra : isExtra request record = true := by
    rw [isExtra, htype, hcontent, Bool.and_eq_true, Bool.not_eq_true', ← Bool.not_eq_true,
      Std.ExtTreeSet.contains_iff_mem]
    exact ⟨by simp, hname⟩
  rw [hextra, Bool.not_true, Bool.false_or, decide_eq_true_eq] at hold
  exact old_not_host (hold ▸ hhost)

/-- Each origin in a zone of its own. -/
theorem keeps_domains_apart : ∃ resolver cdn s', HostResolver.new twoOrigins = .ok resolver ∧
    run (startupStep lbDeps.toDeps (lbEnv.at (zonesOf id)))
      (syncOriginsAtStartup twoOrigins plainService cdn) beforeStartup = (.ok (), s') ∧
    cdn.domainsByOrigin.size = 2 ∧
    KeepsDomains lbDeps.toDeps lbEnv (zonesOf id) twoOrigins plainService cdn beforeStartup s' := by
  obtain ⟨resolver, hnew⟩ : ∃ resolver, HostResolver.new twoOrigins = .ok resolver := ⟨_, rfl⟩
  have hall : lbStartup id (fun cdn r => (r.1.ok?, cdn.domainsByOrigin.size,
      (steps lbDeps.toDeps lbEnv (zonesOf id) twoOrigins plainService cdn beforeStartup).all
        (onlyOld id))) = some (some (), 2, true) := by decide +kernel
  rw [lbStartup] at hall
  obtain ⟨cdn, -, hcdn⟩ := Option.map_eq_some_iff.mp hall
  simp only [Prod.mk.injEq, Outcome.ok?_eq_some] at hcdn
  obtain ⟨hok, hsize, hold⟩ := hcdn
  generalize beforeStartup = s at *
  refine ⟨resolver, cdn, _, hnew, Prod.ext hok rfl, hsize, ?_⟩
  refine (keeps_domains_iff lbDeps.toDeps lbEnv (zonesOf id) hnew plainService cdn (Prod.ext hok rfl)
    (noProviderError_zones s)).mpr fun request s1 he => ?_
  exact spares_of_onlyOld (List.all_eq_true.mp hold _ he)

/-- **Counterexample**: in one zone the reconciliation of `web` removes the record of `api`. -/
theorem shared_zone_loses_host : ∃ resolver cdn s', validateManifest twoOrigins = .ok () ∧
    HostResolver.new twoOrigins = .ok resolver ∧
    (run (startupStep lbDeps.toDeps (lbEnv.at (zonesOf fun _ => "z".toList)))
      (buildStartupCdn lbDeps twoOrigins) beforeStartup).1 = .ok cdn ∧
    run (startupStep lbDeps.toDeps (lbEnv.at (zonesOf fun _ => "z".toList)))
      (syncOriginsAtStartup twoOrigins plainService cdn) beforeStartup = (.ok (), s') ∧
    NoProviderError lbDeps.toDeps lbEnv (zonesOf fun _ => "z".toList) twoOrigins plainService cdn
      beforeStartup ∧
    ¬ KeepsDomains lbDeps.toDeps lbEnv (zonesOf fun _ => "z".toList) twoOrigins plainService cdn
      beforeStartup s' := by
  have hvalid : validateManifest twoOrigins = .ok () := by decide +kernel
  obtain ⟨resolver, hnew⟩ : ∃ resolver, HostResolver.new twoOrigins = .ok resolver := ⟨_, rfl⟩
  have hall : lbStartup (fun _ => "z".toList) (fun cdn r => (r.1.ok?,
      (r.2.providers.zones "z".toList).records.map (·.name),
      (cdn.domainsByOrigin["api".toList]?.map fun domains =>
        (desiredDomainsForOrigin twoOrigins "api".toList domains.config).contains "b.com".toList))) =
      some (some (), ["a.com".toList], some true) := by decide +kernel
  rw [lbStartup] at hall
  obtain ⟨cdn, hbuilt, hcdn⟩ := Option.map_eq_some_iff.mp hall
  simp only [Prod.mk.injEq, Outcome.ok?_eq_some] at hcdn
  obtain ⟨hok, hnames, hdesired⟩ := hcdn
  obtain ⟨domains, hdomains, hmem⟩ := Option.map_eq_some_iff.mp hdesired
  have horigin : "api".toList ∈ twoOrigins.origins := by decide +kernel
  generalize beforeStartup = s at *
  refine ⟨resolver, cdn, _, hvalid, hnew, Outcome.ok?_eq_some.mp hbuilt, Prod.ext hok rfl,
    noProviderError_zones s, fun hkeeps => ?_⟩
  obtain ⟨record, hr, -, hname⟩ := hkeeps.present _ domains horigin hdomains "b.com".toList
    (Std.ExtTreeSet.contains_iff_mem.mp hmem)
  have hrecord := List.mem_map_of_mem (f := (·.name)) hr
  rw [hnames, List.mem_singleton] at hrecord
  rw [hrecord] at hname
  revert hname
  decide

end RenderMesh.Bugs.SharedDomains
