import RenderMesh.Cdn.Cloudflare
import RenderMesh.Domains.Derived
import RenderMesh.Gateway.Service
import RenderMesh.Refresh.Snapshot

/-!
# Startup

`build_render_runtime` (`src/src/services/startup.rs`, `src/src/services/startup/`): the manifest
is read and validated, the storages and the CDN clients of its origins are built, every origin is
refreshed and its domains and tenants are reconciled, the background refreshes are started, and
last the hosts of the manifest are compiled into the resolver of the gateway.

A refresh is one step here, `refreshOrigin`; so is a reconciliation, on the providers' state,
whatever that is. The storages and the clients are known by the origin they are for.
-/
namespace RenderMesh.Startup

open RenderMesh.Core RenderMesh.Mirror RenderMesh.Server RenderMesh.Domains RenderMesh.Refresh
open RenderMesh.Cdn RenderMesh.Gateway

/-! ## Steps -/

inductive StartupOp where
  /-- `ManifestRepository::load_content` -/
  | loadContent (path : PathBuf)
  /-- `OriginStorageRepository::from_origin_config` -/
  | originStorage (origin : OriginConfig) (manifestDir : PathBuf)
  /-- the repository of a provider, from its configuration and the exact hosts of the origin -/
  | cdnRepository (config : CdnConfig) (exactHosts : Std.TreeSet Str)
  | refreshOrigin (service : OriginRefreshService) (originId : Str)
  | reconcileDomains (request : CdnDomainReconcileRequest)
  | reconcileTenants (request : CdnTenantReconcileRequest)
  | setCdnDomainResult (originId : Str) (result : CdnDomainReconcileResult)
  | setCdnDomainError (originId error : Str)
  /-- `tokio::spawn` of the background refreshes of an origin -/
  | spawn (originId : Str) (intervalSeconds : Nat)

abbrev StartupOp.Res : StartupOp → Type
  | .loadContent _ => Except Error Str
  | .originStorage _ _ | .cdnRepository _ _ => Except Error Unit
  | .refreshOrigin _ _ => Except OriginRefreshError OriginSyncResponse
  | .reconcileDomains _ | .reconcileTenants _ => Except Error CdnDomainReconcileResult
  | _ => Unit

/-- Code that runs at startup. -/
abbrev Starting := Prog StartupOp StartupOp.Res Error

def start (o : StartupOp) : Starting o.Res := Prog.perform o

/-- `call.await?` -/
def startTry {α : Type} (r : Starting (Except Error α)) : Starting α := do
  let r ← r
  .ofExcept r

/-- Third-party code and the process environment. The edge contexts are a part of the manifest
that its record leaves out. -/
structure StartupDeps extends Deps where
  yaml : Str → Except Str RenderMeshManifest
  json : Str → Except Str RenderMeshManifest
  envVar : Str → Option Str
  originEdgeContexts : RenderMeshManifest → Std.TreeMap Str Value

/-- The server, what the providers hold, and the background refreshes that were started. -/
structure StartupWorld (P : Type) where
  server : World
  providers : P
  spawned : List (Str × Nat)

structure StartupEnv (P : Type) where
  server : Env
  manifestFile : PathBuf → Except Error Str
  originStorage : OriginConfig → PathBuf → Except Error Unit
  cdnRepository : CdnConfig → Std.TreeSet Str → Except Error Unit
  reconcileDomains : CdnDomainReconcileRequest → P → Except Error CdnDomainReconcileResult × P
  reconcileTenants : CdnTenantReconcileRequest → P → Except Error CdnDomainReconcileResult × P

/-- mirrors src/src/services/origin_runtime.rs:153-178 -/
def setCdnDomainResult (snapshots : Snapshots) (originId : Str) (result : CdnDomainReconcileResult)
    (reconciledAt : Str) : Snapshots :=
  Function.update snapshots originId ((snapshots originId).map fun snapshot =>
    { snapshot with
      lastCdnDomainProvider := some result.provider
      lastCdnDomainStatus := some result.status
      lastCdnDomainReconciledAt := some reconciledAt
      lastCdnDomainAdded := some result.added
      lastCdnDomainUpdated := some result.updated
      lastCdnDomainRemoved := some result.removed
      lastCdnDomainUnchanged := some result.unchanged
      lastCdnDomainError := none })

/-- mirrors src/src/services/origin_runtime.rs:180-189 -/
def setCdnDomainError (snapshots : Snapshots) (originId error : Str) : Snapshots :=
  Function.update snapshots originId ((snapshots originId).map fun snapshot =>
    { snapshot with lastCdnDomainError := some error })

/-- The answer to a refresh, `none` when the caller went away. -/
def refreshReply : Outcome OriginRefreshError OriginSyncResponse →
    Option (Except OriginRefreshError OriginSyncResponse)
  | .ok response => some (.ok response)
  | .err e => some (.error e)
  | .dropped => none

/-- One step of a startup. -/
def startupStep {P : Type} (deps : Deps) (env : StartupEnv P) :
    Handler StartupOp StartupOp.Res (StartupWorld P)
  | .loadContent path, s => (some (env.manifestFile path), s)
  | .originStorage origin manifestDir, s => (some (env.originStorage origin manifestDir), s)
  | .cdnRepository config exactHosts, s => (some (env.cdnRepository config exactHosts), s)
  | .refreshOrigin service originId, s =>
    let r := refreshOrigin deps env.server service originId s.server
    (refreshReply r.1, { s with server := r.2 })
  | .reconcileDomains request, s =>
    let r := env.reconcileDomains request s.providers
    (some r.1, { s with providers := r.2 })
  | .reconcileTenants request, s =>
    let r := env.reconcileTenants request s.providers
    (some r.1, { s with providers := r.2 })
  | .setCdnDomainResult originId result, s =>
    let reconciledAt := deps.rfc3339 (env.server.nanos s.server.clock)
    (some (), { s with server := { s.server.tick with
      originRuntime := setCdnDomainResult s.server.originRuntime originId result reconciledAt } })
  | .setCdnDomainError originId error, s =>
    (some (), { s with server := { s.server.tick with
      originRuntime := setCdnDomainError s.server.originRuntime originId error } })
  | .spawn originId intervalSeconds, s =>
    (some (), { s with spawned := s.spawned ++ [(originId, intervalSeconds)] })

/-! ## Origins -/

structure StartupOrigins where
  /-- the origins that have a storage -/
  storageByOrigin : Std.TreeSet Str
  activationBarrierByOrigin : Std.TreeMap Str Str
  originBuckets : Std.TreeMap Str Str
  originEdgeContexts : Std.TreeMap Str Value

/-- mirrors src/src/dto/manifest.rs:35-40 -/
def edgeContextBucket (originId : Str) : OriginConfig → Str
  | .s3 origin => origin.bucket
  | .local_ _ => originId

/-- mirrors src/src/services/startup/origins.rs:43-49 -/
def originBuckets (manifest : RenderMeshManifest) : Std.TreeMap Str Str :=
  .ofList (manifest.origins.toList.map fun entry => (entry.1, edgeContextBucket entry.1 entry.2))

/-- The turn of the loop of `build_startup_origins`. -/
def buildStartupOrigin (manifestDir : PathBuf) (built : Std.TreeSet Str × Std.TreeMap Str Str)
    (entry : Str × OriginConfig) : Starting (Std.TreeSet Str × Std.TreeMap Str Str) := do
  startTry (start (.originStorage entry.2 manifestDir))
  pure (built.1.insert entry.1,
    match entry.2.activationBarrierPath with
    | some path => built.2.insert entry.1 path
    | none => built.2)

/-- mirrors src/src/services/startup/origins.rs:16-41 -/
def buildStartupOrigins (deps : StartupDeps) (manifest : RenderMeshManifest)
    (manifestPath : PathBuf) : Starting StartupOrigins := do
  let manifestDir := ((parent? manifestPath).filter fun path => path ≠ []).getD ".".toList
  let built ← Prog.fold (buildStartupOrigin manifestDir) (∅, ∅) manifest.origins.toList
  pure ⟨built.1, built.2, originBuckets manifest, deps.originEdgeContexts manifest⟩

/-! ## The CDN -/

/-- mirrors src/src/dto/manifest.rs:42-47 -/
def cdnOf : OriginConfig → Option CdnConfig
  | .s3 origin => origin.cdn
  | .local_ origin => origin.cdn

/-- mirrors src/src/dto/manifest.rs:65-71 -/
def cdnDomains : CdnConfig → Option CdnDomainConfig
  | .cloudFront config => config.domains
  | .cloudflare config => config.domains
  | .cloudFrontSaas _ => none

/-- `{error:#}` -/
def showChain (error : Error) : Str := ": ".toList.intercalate (error.message :: error.causes)

/-- mirrors src/src/services/cdn_refresh.rs:85-121 -/
def originCdnRefreshFromConfig (derivedUrlPrefixes : List Str) :
    CdnConfig → Starting OriginCdnRefresh
  | .cloudFront config => do
    startTry (start (.cdnRepository (.cloudFront config) ∅))
    pure ⟨config.strategy, []⟩
  | .cloudflare config =>
    let urlPrefixes := if config.urlPrefixes = [] then derivedUrlPrefixes else config.urlPrefixes
    if config.strategy = .changedPaths ∧ urlPrefixes = [] then
      .fail (anyhow ("Cloudflare changed_paths CDN refresh requires url_prefixes or at least one " ++
        "exact host for the origin").toList)
    else do
      startTry (start (.cdnRepository (.cloudflare config) ∅))
      pure ⟨config.strategy, urlPrefixes⟩
  | .cloudFrontSaas _ => .fail (anyhow "CloudFront SaaS CDN refresh is not implemented".toList)

/-- The turn of the loop of `build_origin_cdns`. -/
def buildOriginCdn (manifest : RenderMeshManifest)
    (built : Std.TreeMap Str OriginCdnRefresh × Std.TreeSet Str) (entry : Str × OriginConfig) :
    Starting (Std.TreeMap Str OriginCdnRefresh × Std.TreeSet Str) :=
  match cdnOf entry.2 with
  | none => pure built
  | some (.cloudFrontSaas config) => do
    let repository ← start (.cdnRepository (.cloudFrontSaas config)
      (exactHostsForOrigin manifest entry.1))
    match repository with
    | .error error => .fail (anyhow ("build CloudFront SaaS CDN services for origin ".toList ++
        entry.1 ++ ": ".toList ++ showChain error))
    | .ok _ => pure (built.1.insert entry.1 ⟨config.strategy, []⟩, built.2.insert entry.1)
  | some config => do
    let refresh ← originCdnRefreshFromConfig (exactUrlPrefixesForOrigin manifest entry.1) config
    pure (built.1.insert entry.1 refresh, built.2)

structure OriginCdnDomains where
  config : CdnDomainConfig
  originDomain : Str
  certificateArn : Option Str

/-- `std::env::var` with a context -/
def readEnv (deps : StartupDeps) (key context : Str) : Except Error Str :=
  match deps.envVar key with
  | some value => .ok value
  | none => .error ((anyhow "environment variable not found".toList).context (context ++ key))

/-- mirrors src/src/services/cdn_domains.rs:35-90 -/
def originCdnDomainsFromConfig (deps : StartupDeps) (config : CdnConfig) :
    Starting (Option OriginCdnDomains) :=
  match cdnDomains config with
  | none => pure none
  | some domains =>
    if !domains.enabled then pure none
    else do
      let originDomain ← .ofExcept
        (readEnv deps domains.originDomainEnv "read CDN origin domain env ".toList)
      let certificateArn ← .ofExcept (match domains.certificateArnEnv with
        | some key => (readEnv deps key "read CDN certificate ARN env ".toList).map some
        | none => .ok none)
      (match config with
        | .cloudFront _ =>
          if certificateArn.isNone then
            .fail (anyhow "CloudFront domain reconciliation requires certificate_arn_env".toList)
          else startTry (start (.cdnRepository config ∅))
        | .cloudflare _ =>
          match domains.mode with
          | .dnsRecords => startTry (start (.cdnRepository config ∅))
          | .customHostnames => .fail (anyhow
            "Cloudflare custom_hostnames domain reconciliation is not implemented".toList)
        | .cloudFrontSaas _ =>
          .fail (anyhow "CloudFront SaaS domain reconciliation is not implemented".toList))
      pure (some ⟨domains, originDomain, certificateArn⟩)

/-- The turn of the loop of `build_origin_cdn_domains`. -/
def buildOriginCdnDomains (deps : StartupDeps) (built : Std.TreeMap Str OriginCdnDomains)
    (entry : Str × OriginConfig) : Starting (Std.TreeMap Str OriginCdnDomains) :=
  match cdnOf entry.2 with
  | none => pure built
  | some config => do
    let domains ← originCdnDomainsFromConfig deps config
    match domains with
    | none => pure built
    | some domains => pure (built.insert entry.1 domains)

structure StartupCdn where
  refreshByOrigin : Std.TreeMap Str OriginCdnRefresh
  domainsByOrigin : Std.TreeMap Str OriginCdnDomains
  tenantsByOrigin : Std.TreeSet Str

/-- mirrors src/src/services/startup/cdn.rs:23-30 -/
def buildStartupCdn (deps : StartupDeps) (manifest : RenderMeshManifest) : Starting StartupCdn := do
  let cdns ← Prog.fold (buildOriginCdn manifest) (∅, ∅) manifest.origins.toList
  let domains ← Prog.fold (buildOriginCdnDomains deps) ∅ manifest.origins.toList
  pure ⟨cdns.1, domains, cdns.2⟩

/-! ## The first refreshes -/

/-- What is recorded of a reconciliation. -/
def recordReconciliation (originId : Str) : Except Error CdnDomainReconcileResult → Starting Unit
  | .ok result => start (.setCdnDomainResult originId result)
  | .error error => start (.setCdnDomainError originId error.message)

/-- mirrors src/src/services/startup/cdn.rs:104-137 -/
def reconcileOriginCdnDomains (manifest : RenderMeshManifest) (originId : Str)
    (domains : OriginCdnDomains) : Starting Unit := do
  let result ← start (.reconcileDomains ⟨originId,
    desiredDomainsForOrigin manifest originId domains.config, domains.originDomain,
    domains.certificateArn, domains.config.proxied, domains.config.removeExtraDomains⟩)
  recordReconciliation originId result

/-- mirrors src/src/services/startup/cdn.rs:139-172 -/
def reconcileOriginCdnTenants (manifest : RenderMeshManifest) (originId : Str) : Starting Unit := do
  let result ← start (.reconcileTenants
    ⟨originId, .ofList (exactHostsForOrigin manifest originId).toList⟩)
  recordReconciliation originId result

/-- mirrors src/src/services/startup/initial_sync.rs:45-53 -/
def originRefreshErrorToAnyhow : OriginRefreshError → Error
  | .notFound => anyhow "origin not found during startup sync".toList
  | .alreadyRunning => anyhow "origin sync already running during startup".toList
  | .failed error => error

/-- The turn of the loop of `sync_origins_at_startup`. -/
def syncOriginAtStartup (manifest : RenderMeshManifest) (service : OriginRefreshService)
    (cdn : StartupCdn) (originId : Str) : Starting Unit := do
  let report ← start (.refreshOrigin service originId)
  match report with
  | .error error => .fail (originRefreshErrorToAnyhow error)
  | .ok _ => do
    (match cdn.domainsByOrigin[originId]? with
      | some domains => reconcileOriginCdnDomains manifest originId domains
      | none => pure ())
    if cdn.tenantsByOrigin.contains originId then reconcileOriginCdnTenants manifest originId
    else pure ()

/-- mirrors src/src/services/startup/initial_sync.rs:17-43 -/
def syncOriginsAtStartup (manifest : RenderMeshManifest) (service : OriginRefreshService)
    (cdn : StartupCdn) : Starting Unit :=
  Prog.each (syncOriginAtStartup manifest service cdn) (manifest.origins.toList.map (·.1))

/-- mirrors src/src/services/startup/background.rs:8-33; an interval of an origin is its own, or
that of the runtime. -/
def spawnBackgroundSync (manifest : RenderMeshManifest) : Starting Unit :=
  Prog.each (fun entry : Str × OriginConfig => start (.spawn entry.1
    (entry.2.syncIntervalSeconds.getD manifest.runtime.syncIntervalSeconds))) manifest.origins.toList

/-! ## The runtime -/

structure RenderRuntime where
  renderGateway : RenderGatewayService
  originRefresh : OriginRefreshService

/-- The service of the origins that were built. -/
def originRefreshService (origins : StartupOrigins) (cdn : StartupCdn) : OriginRefreshService where
  hasOrigin := origins.storageByOrigin.contains
  activationBarrier := fun originId => origins.activationBarrierByOrigin[originId]?
  cdn := fun originId => cdn.refreshByOrigin[originId]?

/-- What follows the construction of the origins and the CDN. -/
def launch (manifest : RenderMeshManifest) (origins : StartupOrigins) (cdn : StartupCdn) :
    Starting RenderRuntime := do
  let originRefresh := originRefreshService origins cdn
  syncOriginsAtStartup manifest originRefresh cdn
  spawnBackgroundSync manifest
  let resolver ← .ofExcept (HostResolver.new manifest)
  pure ⟨⟨resolver, CorsPolicy.fromManifest manifest, origins.originBuckets,
    origins.originEdgeContexts⟩, originRefresh⟩

/-- mirrors src/src/services/startup.rs:35-83 -/
def buildRenderRuntime (deps : StartupDeps) (manifestPath : PathBuf) : Starting RenderRuntime := do
  let content ← startTry (start (.loadContent manifestPath))
  let manifest ← .ofExcept (parseManifestConfig deps.yaml deps.json content)
  let origins ← buildStartupOrigins deps manifest manifestPath
  let cdn ← buildStartupCdn deps manifest
  launch manifest origins cdn

end RenderMesh.Startup
