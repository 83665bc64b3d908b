import RenderMesh.Mirror.Keys
import RenderMesh.Server.EdgeConfig

/-!
# The manifest

The records of `src/src/dto/manifest.rs` and what a manifest has to satisfy
(`validate_manifest`, `src/src/services/manifest.rs`). Origins and hosts are
ordered maps; a host key is any text, and what it means is decided elsewhere.

Fields that only the environment variables of an origin or the context of its
edge hooks are read from are left out.
-/
namespace RenderMesh.Domains

open RenderMesh.Core RenderMesh.Mirror RenderMesh.Server

inductive DomainReconcileMode where
  | dnsRecords
  | customHostnames
  deriving DecidableEq, Repr

structure CdnDomainConfig where
  enabled : Bool
  mode : DomainReconcileMode
  originDomainEnv : Str
  certificateArnEnv : Option Str
  proxied : Bool
  includeWildcards : Bool
  removeExtraDomains : Bool
  deriving DecidableEq, Repr

structure CloudFrontCdnConfig where
  distributionIdEnv : Str
  strategy : CdnRefreshStrategy
  domains : Option CdnDomainConfig
  deriving DecidableEq, Repr

structure CloudflareCdnConfig where
  zoneIdEnv : Str
  apiTokenEnv : Str
  strategy : CdnRefreshStrategy
  urlPrefixes : List Str
  domains : Option CdnDomainConfig
  deriving DecidableEq, Repr

/-- `parameters_env` is an ordered map from parameter names to variables. -/
structure CloudFrontSaasCdnConfig where
  distributionIdEnv : Str
  connectionGroupIdEnv : Option Str
  strategy : CdnRefreshStrategy
  parametersEnv : Std.TreeMap Str Str

inductive CdnConfig where
  | cloudFront (config : CloudFrontCdnConfig)
  | cloudFrontSaas (config : CloudFrontSaasCdnConfig)
  | cloudflare (config : CloudflareCdnConfig)

structure S3OriginConfig where
  bucket : Str
  syncIntervalSeconds : Option Nat
  activationBarrierPath : Option Str
  cdn : Option CdnConfig

structure LocalOriginConfig where
  path : Str
  syncIntervalSeconds : Option Nat
  activationBarrierPath : Option Str
  cdn : Option CdnConfig

inductive OriginConfig where
  | s3 (origin : S3OriginConfig)
  | local_ (origin : LocalOriginConfig)

def OriginConfig.syncIntervalSeconds : OriginConfig → Option Nat
  | .s3 origin => origin.syncIntervalSeconds
  | .local_ origin => origin.syncIntervalSeconds

def OriginConfig.activationBarrierPath : OriginConfig → Option Str
  | .s3 origin => origin.activationBarrierPath
  | .local_ origin => origin.activationBarrierPath

structure HostConfig where
  origin : Str
  deriving DecidableEq, Repr

structure RuntimeConfig where
  localStoreDir : Str
  syncIntervalSeconds : Nat
  deriving DecidableEq, Repr

structure RenderMeshManifest where
  version : Nat
  runtime : RuntimeConfig
  origins : Std.TreeMap Str OriginConfig
  hosts : Std.TreeMap Str HostConfig

/-! ## Validation -/

/-- `if bad { return Err(anyhow!(message)) }`. -/
def reject (bad : Prop) [Decidable bad] (message : Str) : Except Error Unit :=
  if bad then .error (anyhow message) else .ok ()

/-- `origin {origin_id} {rest}`. -/
def originMessage (originId : Str) (rest : String) : Str :=
  "origin ".toList ++ originId ++ ' ' :: rest.toList

/-- mirrors src/src/services/manifest.rs:281-315 -/
def validateCdnDomainConfig (originId : Str) (domains : Option CdnDomainConfig)
    (cloudfront : Bool) : Except Error Unit :=
  match domains with
  | none => .ok ()
  | some domains =>
    if !domains.enabled then .ok ()
    else do
      reject (trim domains.originDomainEnv = [])
        (originMessage originId "cdn.domains.origin_domain_env is required")
      reject (cloudfront = true ∧ trim (domains.certificateArnEnv.getD []) = [])
        (originMessage originId "cdn.domains.certificate_arn_env is required for CloudFront")
      reject (cloudfront = false ∧ domains.mode = .customHostnames)
        (originMessage originId "cdn.domains.mode custom_hostnames is not implemented")

/-- mirrors src/src/services/manifest.rs:250-279 -/
def validateCloudfrontSaasCdnConfig (originId : Str) (config : CloudFrontSaasCdnConfig) :
    Except Error Unit := do
  reject (trim config.distributionIdEnv = [])
    (originMessage originId "cdn.distribution_id_env is required")
  reject (config.connectionGroupIdEnv.any fun env => trim env = [])
    (originMessage originId "cdn.connection_group_id_env is required")
  config.parametersEnv.toList.forM fun parameter => do
    reject (trim parameter.1 = [])
      (originMessage originId "cdn.parameters_env contains an empty parameter name")
    reject (trim parameter.2 = [])
      (originMessage originId "cdn.parameters_env." ++ parameter.1 ++ " is required".toList)

/-- mirrors src/src/services/manifest.rs:215-248 -/
def validateCdnConfig (originId : Str) : Option CdnConfig → Except Error Unit
  | some (.cloudFront config) => do
    reject (trim config.distributionIdEnv = [])
      (originMessage originId "cdn.distribution_id_env is required")
    validateCdnDomainConfig originId config.domains true
  | some (.cloudflare config) => do
    reject (trim config.zoneIdEnv = []) (originMessage originId "cdn.zone_id_env is required")
    reject (trim config.apiTokenEnv = []) (originMessage originId "cdn.api_token_env is required")
    config.urlPrefixes.forM fun urlPrefix =>
      reject (¬ "https://".toList <+: urlPrefix ∧ ¬ "http://".toList <+: urlPrefix)
        (originMessage originId "cdn.url_prefixes must use http or https URLs")
    validateCdnDomainConfig originId config.domains false
  | some (.cloudFrontSaas config) => validateCloudfrontSaasCdnConfig originId config
  | none => .ok ()

/-- The turn of the loop over the origins. -/
def validateOrigin (originId : Str) (origin : OriginConfig) : Except Error Unit := do
  validateOriginId originId
  match origin with
  | .s3 origin => do
    reject (trim origin.bucket = []) (originMessage originId "bucket is required")
    validateCdnConfig originId origin.cdn
  | .local_ origin => do
    reject (trim origin.path = []) (originMessage originId "path is required")
    validateCdnConfig originId origin.cdn
  reject (origin.syncIntervalSeconds = some 0)
    (originMessage originId "sync_interval_seconds must be positive")
  match origin.activationBarrierPath with
  | none => .ok ()
  | some path =>
    match normalizeRemoteKey path with
    | .ok _ => .ok ()
    | .error error =>
      .error (anyhow (originMessage originId "activation_barrier_path is invalid: " ++
        error.message))

/-- The turn of the loop over the hosts. -/
def validateHost (manifest : RenderMeshManifest) (host : Str) (config : HostConfig) :
    Except Error Unit := do
  reject (trim host = []) "host entry cannot be empty".toList
  reject (manifest.origins.contains config.origin = false)
    ("host ".toList ++ host ++ " references unknown origin ".toList ++ config.origin)

/-- mirrors src/src/services/manifest.rs:161-213 -/
def validateManifest (manifest : RenderMeshManifest) : Except Error Unit := do
  reject (manifest.version ≠ 1)
    ("unsupported manifest version ".toList ++ showNat manifest.version)
  reject (trim manifest.runtime.localStoreDir = []) "runtime.local_store_dir is required".toList
  reject (manifest.runtime.syncIntervalSeconds = 0)
    "runtime.sync_interval_seconds must be positive".toList
  manifest.origins.toList.forM fun entry => validateOrigin entry.1 entry.2
  manifest.hosts.toList.forM fun entry => validateHost manifest entry.1 entry.2

/-- `parse_manifest_config` over the two deserializers; mirrors
src/src/services/manifest.rs:155-159 -/
def parseManifestConfig (yaml json : Str → Except Str RenderMeshManifest) (input : Str) :
    Except Error RenderMeshManifest := do
  let manifest ← parseConfig yaml json "manifest".toList input
  validateManifest manifest
  .ok manifest

/-! ## A small manifest -/

/-- Two origins in directories, and the given hosts. -/
def smallManifest (hosts : List (String × String)) : RenderMeshManifest where
  version := 1
  runtime := ⟨"./var/origins".toList, 60⟩
  origins := Std.TreeMap.ofList (["web", "api"].map fun origin =>
    (origin.toList, OriginConfig.local_ ⟨origin.toList, none, none, none⟩))
  hosts := Std.TreeMap.ofList (hosts.map fun host => (host.1.toList, HostConfig.mk host.2.toList))

end RenderMesh.Domains
