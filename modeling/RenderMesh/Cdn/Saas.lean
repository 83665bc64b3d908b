import Mathlib.Data.List.Sort
import Std.Data.ExtTreeMap
import Std.Data.ExtTreeSet
import RenderMesh.Core.Loop
import RenderMesh.Mirror.Keys

/-!
# CloudFront SaaS

The repository that gives every host of an origin a CloudFront distribution tenant of its own
(`src/src/repositories/cloudfront_saas_cdn.rs`, with the types of
`src/src/repositories/cdn.rs` and of its `aws_client.rs`): `reconcile_tenants`, which creates
and updates tenants for the desired hosts, and `purge`, which lists the tenants page by page
and asks for one invalidation of each.

The calls of the client are the operations of a program. AWS request ids are only traced, and
left out.
-/
namespace RenderMesh.Cdn

open RenderMesh.Core RenderMesh.Mirror

/-! ## Tenants -/

structure TenantGeoRestrictionCustomization where
  restrictionType : Str
  locations : Option (List Str)
  deriving DecidableEq

structure TenantWebAclCustomization where
  action : Str
  arn : Option Str
  deriving DecidableEq

structure TenantCustomizations where
  certificateArn : Option Str
  geoRestrictions : Option TenantGeoRestrictionCustomization
  webAcl : Option TenantWebAclCustomization
  deriving DecidableEq

/-- `BTreeMap<String, String>`, with its equality. -/
abbrev Parameters := Std.ExtTreeMap Str Str

/-- `BTreeSet<String>`, with its equality. -/
abbrev Hosts := Std.ExtTreeSet Str

structure DistributionTenant where
  id : Str
  name : Str
  distributionId : Str
  domains : Hosts
  connectionGroupId : Option Str
  parameters : Parameters
  customizations : Option TenantCustomizations
  enabled : Option Bool
  deriving DecidableEq

structure VersionedDistributionTenant where
  tenant : DistributionTenant
  etag : Str

structure DistributionTenantPage where
  tenants : List DistributionTenant
  nextMarker : Option Str

inductive ManagedCertificateLookup where
  | found (validationTokenHost : Option Str)
  | notFound
  deriving DecidableEq

structure ManagedCertificateRequest where
  validationTokenHost : Str
  deriving DecidableEq

structure CreateDistributionTenantRequest where
  distributionId : Str
  name : Str
  domains : Hosts
  connectionGroupId : Option Str
  parameters : Parameters
  managedCertificate : Option ManagedCertificateRequest
  enabled : Bool

structure UpdateDistributionTenantRequest where
  id : Str
  ifMatch : Str
  tenant : DistributionTenant
  managedCertificate : Option ManagedCertificateRequest

structure TenantInvalidationRequest where
  tenantId : Str
  callerReference : Str
  paths : List Str
  deriving DecidableEq

/-! ## The client -/

/-- The calls of `CloudFrontSaasClient`. -/
inductive SaasOp where
  | getDistributionTenantByDomain (domain : Str)
  | getDistributionTenant (tenantId : Str)
  | getManagedCertificate (tenantId : Str)
  | listDistributionTenants (distributionId : Str) (marker : Option Str)
  | createDistributionTenant (request : CreateDistributionTenantRequest)
  | updateDistributionTenant (request : UpdateDistributionTenantRequest)
  | createInvalidation (request : TenantInvalidationRequest)

/-- What a call returns when it succeeds. -/
abbrev SaasOp.Val : SaasOp → Type
  | .getDistributionTenantByDomain _ => Option DistributionTenant
  | .getDistributionTenant _ => VersionedDistributionTenant
  | .getManagedCertificate _ => ManagedCertificateLookup
  | .listDistributionTenants _ _ => DistributionTenantPage
  | .createDistributionTenant _ => DistributionTenant
  | .updateDistributionTenant _ => DistributionTenant
  | .createInvalidation _ => Str

abbrev SaasOp.Res (o : SaasOp) : Type := Except Error o.Val

/-- Code that calls the client. -/
abbrev Saas (ε : Type) := Prog SaasOp SaasOp.Res ε

/-- A call of the client, and what its error becomes. -/
def clientTry {ε : Type} (o : SaasOp) (f : Error → ε) : Saas ε o.Val := do
  let r ← Prog.perform o
  match r with
  | .ok v => pure v
  | .error e => .fail (f e)

section
variable {ε σ : Type} {h : Handler SaasOp SaasOp.Res σ} (o : SaasOp) (f : Error → ε) (s : σ)

theorem run_clientTry : run h (clientTry o f) s =
    match h o s with
    | (some (.ok v), s') => (.ok v, s')
    | (some (.error e), s') => (.err (f e), s')
    | (none, s') => (.dropped, s') := by
  rw [clientTry, run_bind, run_perform]
  rcases h o s with ⟨_ | e | v, s'⟩ <;> rfl

theorem trace_clientTry : trace h (clientTry o f) s = [(o, s)] := by
  rw [clientTry, trace_bind, trace_perform, run_perform]
  rcases h o s with ⟨_ | e | v, s'⟩ <;> rfl

end

/-! ## The repository -/

structure CdnTenantConfig where
  distributionId : Str
  connectionGroupId : Option Str
  parameters : Parameters
  managedCertificate : Option ManagedCertificateRequest

structure CloudFrontSaasCdnRepository where
  config : CdnTenantConfig
  exactHosts : Hosts
  callerReferenceNamespace : Bytes

/-- mirrors src/src/repositories/cloudfront_saas_cdn.rs:402-417 -/
def deterministicTenantName (deps : Deps) (distributionId host : Str) : Str :=
  let hash := encodeHex (deps.sha256 (utf8 (distributionId ++ '\x00' :: host))).bytes
  let hostPrefix := (host.map fun character =>
    if character.isAlphanum || character = '-' || character = '.' then character else '-').take 100
  "rendermesh-".toList ++ hostPrefix ++ '-' :: hash.take 16

/-- `u64::to_be_bytes`. -/
def toBeBytes (n : Nat) : Bytes :=
  (List.range 8).map fun i => UInt8.ofNat (n / 256 ^ (7 - i))

/-- mirrors src/src/repositories/cloudfront_saas_cdn.rs:397-400 -/
def hashComponent (value : Bytes) : Bytes := toBeBytes value.length ++ value

/-- mirrors src/src/repositories/cloudfront_saas_cdn.rs:377-395 -/
def invalidationCallerReference (deps : Deps) (namespace_ : Bytes) (originId : Str)
    (generation : Nat) (tenantId : Str) (paths : List Str) : Str :=
  "rendermesh-".toList ++ encodeHex (deps.sha256 (hashComponent namespace_ ++
    hashComponent (utf8 originId) ++ toBeBytes generation ++ hashComponent (utf8 tenantId) ++
    toBeBytes paths.length ++ paths.flatMap fun path => hashComponent (utf8 path))).bytes

namespace CloudFrontSaasCdnRepository

variable (self : CloudFrontSaasCdnRepository)

/-- mirrors src/src/repositories/cloudfront_saas_cdn.rs:72-90 -/
def mergedTenant (existing : DistributionTenant) (domain : Str) : DistributionTenant where
  id := existing.id
  name := existing.name
  distributionId := self.config.distributionId
  domains := {domain}
  connectionGroupId := self.config.connectionGroupId.or existing.connectionGroupId
  parameters := existing.parameters ∪ self.config.parameters
  customizations := existing.customizations
  enabled := existing.enabled.map fun _ => true

/-- mirrors src/src/repositories/cloudfront_saas_cdn.rs:102-118 -/
def managedCertificateMatches (managedCertificate : Option ManagedCertificateLookup) : Bool :=
  match self.config.managedCertificate with
  | none => true
  | some request =>
    match managedCertificate with
    | some (.found (some existing)) => existing = request.validationTokenHost
    | some (.found none) => true
    | some .notFound => false
    | none => false

/-- mirrors src/src/repositories/cloudfront_saas_cdn.rs:92-100 -/
def tenantMatches (existing : DistributionTenant) (domain : Str)
    (managedCertificate : Option ManagedCertificateLookup) : Bool :=
  let desired := self.mergedTenant existing domain
  existing = desired && self.managedCertificateMatches managedCertificate

/-- mirrors src/src/repositories/cloudfront_saas_cdn.rs:120-130 -/
def verifyDistribution (tenant : DistributionTenant) (domain : Str) : Except Error Unit :=
  if tenant.distributionId ≠ self.config.distributionId then
    .error (anyhow ("CloudFront SaaS tenant ".toList ++ tenant.id ++ " for domain ".toList ++ domain ++
      " belongs to distribution ".toList ++ tenant.distributionId ++ ", not ".toList ++
      self.config.distributionId))
  else .ok ()

/-- mirrors src/src/repositories/cloudfront_saas_cdn.rs:132-140 -/
def verifyExactHost (tenant : DistributionTenant) (domain : Str) : Except Error Unit :=
  if tenant.domains ≠ {domain} then
    .error (anyhow ("CloudFront SaaS tenant ".toList ++ tenant.id ++
      " found for desired exact host ".toList ++ domain ++
      " also owns other domains; refusing adoption".toList))
  else .ok ()

end CloudFrontSaasCdnRepository

/-! ## Tenant reconciliation -/

/-- The counters of `reconcile_tenants`. -/
structure TenantCounts where
  added : Nat
  updated : Nat
  unchanged : Nat
  deriving DecidableEq

structure CdnTenantReconcileRequest where
  originId : Str
  desiredDomains : Hosts

structure CdnDomainReconcileResult where
  provider : Str
  status : Str
  added : Nat
  updated : Nat
  removed : Nat
  unchanged : Nat
  deriving DecidableEq

namespace CloudFrontSaasCdnRepository

section
variable (deps : Deps) (self : CloudFrontSaasCdnRepository)

def createRequest (domain : Str) : CreateDistributionTenantRequest where
  distributionId := self.config.distributionId
  name := deterministicTenantName deps self.config.distributionId domain
  domains := {domain}
  connectionGroupId := self.config.connectionGroupId
  parameters := self.config.parameters
  managedCertificate := self.config.managedCertificate
  enabled := true

/-- The certificate of a tenant, when one is configured;
mirrors src/src/repositories/cloudfront_saas_cdn.rs:189-204 -/
def observeCertificate (existing : DistributionTenant) :
    Saas Error (Option ManagedCertificateLookup) :=
  if self.config.managedCertificate.isSome then do
    let certificate ← clientTry (.getManagedCertificate existing.id)
      (·.context ("get managed certificate details for CloudFront SaaS tenant ".toList ++ existing.id))
    pure (some certificate)
  else pure none

/-- The write of an existing tenant, from its state under `If-Match`;
mirrors src/src/repositories/cloudfront_saas_cdn.rs:217-269 -/
def updateTenant (counts : TenantCounts) (domain : Str) (existing : DistributionTenant)
    (managedCertificate : Option ManagedCertificateLookup) : Saas Error TenantCounts := do
  let current ← clientTry (.getDistributionTenant existing.id)
    (·.context ("get current CloudFront SaaS tenant ".toList ++ existing.id ++
      " for exact domain ".toList ++ domain))
  Prog.ofExcept (self.verifyDistribution current.tenant domain)
  Prog.ofExcept (verifyExactHost current.tenant domain)
  if self.tenantMatches current.tenant domain managedCertificate then
    pure { counts with unchanged := counts.unchanged + 1 }
  else do
    let managedCertificate :=
      if self.managedCertificateMatches managedCertificate then none
      else self.config.managedCertificate
    let _ ← clientTry (.updateDistributionTenant
        ⟨current.tenant.id, current.etag, self.mergedTenant current.tenant domain, managedCertificate⟩)
      (·.context ("update CloudFront SaaS tenant ".toList ++ current.tenant.id ++
        " for exact domain ".toList ++ domain))
    pure { counts with updated := counts.updated + 1 }

/-- A turn of the loop of `reconcile_tenants`;
mirrors src/src/repositories/cloudfront_saas_cdn.rs:154-269 -/
def reconcileTenant (counts : TenantCounts) (domain : Str) : Saas Error TenantCounts := do
  let lookup ← clientTry (.getDistributionTenantByDomain domain)
    (·.context ("get CloudFront SaaS tenant for exact domain ".toList ++ domain))
  match lookup with
  | none => do
    let _ ← clientTry (.createDistributionTenant (self.createRequest deps domain))
      (·.context ("create CloudFront SaaS tenant for exact domain ".toList ++ domain))
    pure { counts with added := counts.added + 1 }
  | some existing => do
    Prog.ofExcept (self.verifyDistribution existing domain)
    Prog.ofExcept (verifyExactHost existing domain)
    let managedCertificate ← self.observeCertificate existing
    if self.tenantMatches existing domain managedCertificate then
      pure { counts with unchanged := counts.unchanged + 1 }
    else self.updateTenant counts domain existing managedCertificate

/-- mirrors src/src/repositories/cloudfront_saas_cdn.rs:145-280 -/
def reconcileTenants (request : CdnTenantReconcileRequest) : Saas Error CdnDomainReconcileResult := do
  let counts ← Prog.fold (self.reconcileTenant deps) ⟨0, 0, 0⟩ request.desiredDomains.toList
  pure ⟨"cloudfront_saas".toList, "submitted".toList, counts.added, counts.updated, 0, counts.unchanged⟩

/-! ## Purges -/

/-- mirrors src/src/repositories/cdn.rs:154-160 -/
def ensurePathsMode (mode : CdnPurgeMode) (provider : Str) : Except Error (List Str) :=
  match mode with
  | .all => .ok ["/*".toList]
  | .paths paths => .ok paths
  | .urls _ => .error (anyhow (provider ++ " CDN purge requires paths".toList))

/-- The variables of the pagination loop. -/
structure Pagination where
  marker : Option Str
  seenMarkers : Hosts
  tenants : List DistributionTenant

/-- A turn of the pagination loop; mirrors src/src/repositories/cloudfront_saas_cdn.rs:291-313 -/
def listPage (p : Pagination) : Saas CdnPurgeError (Pagination ⊕ List DistributionTenant) := do
  let page ← clientTry (.listDistributionTenants self.config.distributionId p.marker) fun e =>
    .other (e.context ("list CloudFront SaaS tenants for distribution ".toList ++
      self.config.distributionId))
  let tenants := p.tenants ++ page.tenants
  match page.nextMarker with
  | none => pure (.inr tenants)
  | some nextMarker =>
    if nextMarker ∈ p.seenMarkers then
      .fail (.other (anyhow ("CloudFront SaaS tenant pagination for distribution ".toList ++
        self.config.distributionId ++ " returned a repeated marker".toList)))
    else pure (.inl ⟨some nextMarker, p.seenMarkers.insert nextMarker, tenants⟩)

/-- The tenants that a purge is for; mirrors src/src/repositories/cloudfront_saas_cdn.rs:315-322 -/
def purged (tenant : DistributionTenant) : Bool :=
  tenant.enabled ≠ some false && tenant.distributionId = self.config.distributionId &&
    tenant.domains.toList.any fun domain => domain ∈ self.exactHosts

/-- `{error:#}` -/
def showChain (e : Error) : Str := ": ".toList.intercalate (e.message :: e.causes)

def invalidationRequest (request : CdnPurgeRequest) (paths : List Str) (tenant : DistributionTenant) :
    TenantInvalidationRequest where
  tenantId := tenant.id
  callerReference := invalidationCallerReference deps self.callerReferenceNamespace request.originId
    request.generation tenant.id paths
  paths := paths

/-- A turn of the invalidation loop; mirrors src/src/repositories/cloudfront_saas_cdn.rs:336-366 -/
def invalidateTenant (request : CdnPurgeRequest) (paths : List Str) (requestIds : List Str)
    (tenant : DistributionTenant) : Saas CdnPurgeError (List Str) := do
  let invalidation ← clientTry (.createInvalidation (self.invalidationRequest deps request paths tenant))
    fun error => .failure
      { provider := "cloudfront_saas".toList
        requestIds := requestIds
        submittedItems := paths.length * requestIds.length
        message := "invalidate CloudFront SaaS tenant ".toList ++ tenant.id ++ ": ".toList ++
          showChain error }
  pure (requestIds ++ [invalidation])

/-- The tenants of a purge in their order; mirrors src/src/repositories/cloudfront_saas_cdn.rs:315-323 -/
def purgeOrder (tenants : List DistributionTenant) : List DistributionTenant :=
  (tenants.filter self.purged).insertionSort fun left right => (compare left.id right.id).isLE

/-- `purge` after the listing; mirrors src/src/repositories/cloudfront_saas_cdn.rs:315-374 -/
def invalidateTenants (request : CdnPurgeRequest) (paths : List Str)
    (tenants : List DistributionTenant) : Saas CdnPurgeError CdnPurgeResult :=
  let tenants := self.purgeOrder tenants
  if tenants = [] then
    pure ⟨"cloudfront_saas".toList, [], "skipped_no_tenants".toList, 0⟩
  else do
    let submittedItems := paths.length * tenants.length
    let requestIds ← Prog.fold (self.invalidateTenant deps request paths) [] tenants
    pure ⟨"cloudfront_saas".toList, requestIds, "submitted".toList, submittedItems⟩

/-- mirrors src/src/repositories/cloudfront_saas_cdn.rs:285-374; `none` when the listing was not
over after `turns` pages. -/
def purge (turns : Nat) (request : CdnPurgeRequest) : Saas CdnPurgeError (Option CdnPurgeResult) := do
  let paths ← .ofExcept ((ensurePathsMode request.mode "CloudFront SaaS".toList).mapError .other)
  let tenants ← Prog.iterate self.listPage turns ⟨none, ∅, []⟩
  match tenants with
  | none => pure none
  | some tenants => do
    let result ← self.invalidateTenants deps request paths tenants
    pure (some result)

end

end CloudFrontSaasCdnRepository

end RenderMesh.Cdn
