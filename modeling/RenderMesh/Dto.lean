import RenderMesh.Core.UnixPath
import Std.Data.TreeMap
import Std.Data.TreeSet

/-!
# Data

The records that the services pass to each other (`src/src/dto/edge.rs`,
`src/src/dto/origin_sync.rs`, the structs of `sync.rs`, `freshness.rs`,
`cdn.rs`, `cdn_refresh.rs` and `origin_runtime.rs`), errors, and `Deps`: the
functions of third-party crates that the code calls.

`u16`, `u64` and `usize` fields are `Nat`: each is a length, a counter that
starts at 0, or a number that was parsed.
-/
namespace RenderMesh

open RenderMesh.Core

/-- The CDN part of a refresh error (`CdnPurgeFailure`, `CdnRefreshFailure`):
what had been submitted before the failing call. -/
structure CdnFailure where
  provider : Str
  requestIds : List Str
  submittedItems : Nat
  message : Str
  deriving DecidableEq, Repr

/-- `anyhow::Error`: what `Display` prints, the causes below it, and the
payload that `downcast_ref` finds. -/
structure Error where
  message : Str
  causes : List Str
  cdn : Option CdnFailure
  deriving DecidableEq, Repr

/-- `anyhow!(..)`. -/
def anyhow (message : Str) : Error := ⟨message, [], none⟩

/-- `Error::context`. -/
def Error.context (e : Error) (message : Str) : Error := ⟨message, e.message :: e.causes, e.cdn⟩

/-! ## Remote objects (`src/src/repositories/sync.rs:21-30`) -/

structure RemoteObjectSummary where
  key : Str
  createdAt : Option Str
  etag : Option Str
  lastModified : Option Str
  size : Nat
  contentType : Option Str
  cacheControl : Option Str
  deriving DecidableEq, Repr

structure RemoteObject where
  key : Str
  body : Bytes
  etag : Option Str
  lastModified : Option Str
  contentType : Option Str
  cacheControl : Option Str
  deriving DecidableEq, Repr

/-- mirrors src/src/repositories/local_mirror.rs:15-21 -/
structure ObjectMetadata where
  contentType : Option Str
  etag : Option Str
  lastModified : Option Str
  cacheControl : Option Str
  deriving DecidableEq, Repr

/-- `ObjectMetadata::default`. -/
def ObjectMetadata.empty : ObjectMetadata := ⟨none, none, none, none⟩

/-- mirrors src/src/repositories/local_mirror.rs:23-27 -/
structure LocalObject where
  body : Bytes
  metadata : ObjectMetadata
  deriving DecidableEq, Repr

/-! ## Edge configuration (`src/src/dto/edge.rs`) -/

structure EdgeDefaults where
  rootObject : Str
  autoRewriteIndex : Bool
  deriving DecidableEq, Repr

inductive MissingAction where
  | notFound
  | serve
  | redirect
  deriving DecidableEq, Repr

structure MissingConfig where
  action : MissingAction
  page : Option Str
  path : Option Str
  to_ : Option Str
  status : Option Nat
  deriving DecidableEq, Repr

structure RedirectRule where
  from_ : Str
  to_ : Str
  status : Nat
  deriving DecidableEq, Repr

structure RewriteRule where
  from_ : Str
  to_ : Str
  deriving DecidableEq, Repr

structure EdgeHookConfig where
  name : Str
  url : Str
  timeoutMs : Nat
  deriving DecidableEq, Repr

structure EdgeConfig where
  version : Nat
  edge : EdgeDefaults
  missing : MissingConfig
  redirects : List RedirectRule
  rewrites : List RewriteRule
  edges : List EdgeHookConfig
  deriving DecidableEq, Repr

/-! ## CDN refresh (`src/src/repositories/cdn.rs`, `src/src/services/cdn_refresh.rs`) -/

inductive CdnRefreshStrategy where
  | all
  | changedPaths
  deriving DecidableEq, Repr

/-- `CdnRefreshMode` and `CdnPurgeMode`, which have the same three variants. -/
inductive CdnPurgeMode where
  | all
  | paths (paths : List Str)
  | urls (urls : List Str)
  deriving DecidableEq, Repr

structure CdnPurgeRequest where
  originId : Str
  generation : Nat
  mode : CdnPurgeMode
  deriving DecidableEq, Repr

structure CdnPurgeResult where
  provider : Str
  requestIds : List Str
  status : Str
  submittedItems : Nat
  deriving DecidableEq, Repr

/-- What `CdnPurge::purge` fails with: a `CdnPurgeFailure` or any other error. -/
inductive CdnPurgeError where
  | failure (f : CdnFailure)
  | other (e : Error)
  deriving DecidableEq, Repr

structure CdnRefreshPlan where
  mode : CdnPurgeMode
  changedCount : Nat
  deriving DecidableEq, Repr

/-- `OriginCdnRefresh`, whose repository is the `purge` operation. -/
structure OriginCdnRefresh where
  strategy : CdnRefreshStrategy
  urlPrefixes : List Str
  deriving DecidableEq, Repr

structure CdnRefreshOutcome where
  provider : Str
  requestIds : List Str
  status : Str
  submittedItems : Nat
  changedCount : Nat
  deriving DecidableEq, Repr

structure OriginSyncCdnResponse where
  provider : Str
  status : Str
  requestId : Option Str
  requestIds : List Str
  submittedItems : Nat
  deriving DecidableEq, Repr

/-- mirrors src/src/dto/origin_sync.rs:3-16. The generation, a `u64` there, is a `Nat` here and in
the snapshot: the two agree below 2^64 turns (`Refresh.generation_le_turns`). -/
structure OriginSyncResponse where
  originId : Str
  generation : Nat
  activatedAt : Str
  capturedAt : Str
  knownFiles : Nat
  addedFiles : Nat
  modifiedFiles : Nat
  removedFiles : Nat
  unchangedFiles : Nat
  downloadedFiles : Nat
  cdn : Option OriginSyncCdnResponse
  deriving DecidableEq, Repr

/-- mirrors src/src/services/origin_runtime.rs:13-41 -/
structure OriginSnapshotDebug where
  originId : Str
  generation : Nat
  activatedAt : Str
  capturedAt : Str
  knownFiles : Nat
  addedFiles : Nat
  modifiedFiles : Nat
  removedFiles : Nat
  unchangedFiles : Nat
  downloadedFiles : Nat
  lastError : Option Str
  lastCdnProvider : Option Str
  lastCdnStatus : Option Str
  lastCdnRequestId : Option Str
  lastCdnRequestIds : List Str
  lastCdnRefreshedAt : Option Str
  lastCdnSubmittedItems : Option Nat
  lastCdnError : Option Str
  lastCdnDomainProvider : Option Str
  lastCdnDomainStatus : Option Str
  lastCdnDomainReconciledAt : Option Str
  lastCdnDomainAdded : Option Nat
  lastCdnDomainUpdated : Option Nat
  lastCdnDomainRemoved : Option Nat
  lastCdnDomainUnchanged : Option Nat
  lastCdnDomainError : Option Str
  deriving DecidableEq, Repr

/-! ## Code outside the repository -/

/-- A SHA-256 digest. -/
structure Digest where
  bytes : Bytes
  length : bytes.length = 32
  deriving DecidableEq, Repr

/-- What the process was started with (its local store directory, its pid) and
the third-party functions that the services call: `sha2`, `serde_json`,
`serde_norway`, `url`, `handlebars` and `chrono`. Errors are their messages. -/
structure Deps where
  localStoreDir : Str
  pid : Nat
  sha256 : Bytes → Digest
  metadataToJson : ObjectMetadata → Bytes
  metadataOfJson : Str → Except Str ObjectMetadata
  edgeConfigOfYaml : Str → Except Str EdgeConfig
  edgeConfigOfJson : Str → Except Str EdgeConfig
  urlScheme : Str → Except Str Str
  compileTemplate : Str → Except Str Unit
  rfc3339 : Nat → Str
  /-- what `FromUtf8Error` prints for bytes that are not UTF-8 -/
  utf8ErrorText : Bytes → Str

/-- `Path::display` of a path below the local store directory. -/
def Deps.display (deps : Deps) (p : PathBuf) : Str :=
  if p = [] then deps.localStoreDir else join deps.localStoreDir p

end RenderMesh
