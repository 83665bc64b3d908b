import RenderMesh.Refresh.Sync
import RenderMesh.Refresh.Templates
import RenderMesh.Server.EdgeConfig
import RenderMesh.Cdn.Plan

/-!
# Refreshing an origin

`refresh_origin_snapshot` and the service around it
(`src/src/services/origin_refresh.rs`). A refresh stages the origin, checks the
activation barrier, reads the staged edge configuration and compiles the staged
templates; then it swaps the mirror, replaces the origin's entries in the
in-memory stores, and asks the CDN for a purge.
-/
namespace RenderMesh.Refresh

open RenderMesh.Core RenderMesh.Mirror RenderMesh.Server RenderMesh.Cdn

/-- mirrors src/src/services/origin_refresh.rs:32-57; a flag marks the deprecated ones,
for which the source logs a warning. -/
def EDGE_CONFIG_PATHS : List (Str × Bool) :=
  [("/.rendermesh/edge.yaml".toList, false),
   ("/.rendermesh/edge.yml".toList, false),
   ("/.rendermesh/edge.json".toList, false),
   ("/_rendermesh/edge.yaml".toList, true),
   ("/_rendermesh/edge.yml".toList, true),
   ("/_rendermesh/edge.json".toList, true)]

/-- mirrors src/src/services/origin_refresh.rs:440-472 -/
def validateActivationBarrier (originId : Str) (previousIndex : Option OriginFreshnessIndex)
    (nextIndex : OriginFreshnessIndex) (diff : OriginFreshnessDiff)
    (activationBarrierPath : Option Str) : Except Error Unit :=
  match activationBarrierPath with
  | none => .ok ()
  | some path =>
    let hasChanges := !diff.added.isEmpty || !diff.modified.isEmpty || !diff.removed.isEmpty
    if !hasChanges then .ok ()
    else
      let previousHasBarrier := (previousIndex.map fun index => index.files.contains path).getD false
      let nextHasBarrier := nextIndex.files.contains path
      let barrierChanged := diff.added.contains path || diff.modified.contains path
      if !nextHasBarrier then
        .error (anyhow ("origin ".toList ++ originId ++ " activation barrier ".toList ++ path ++
          " is missing".toList))
      else if previousHasBarrier && !barrierChanged then
        .error (anyhow ("origin ".toList ++ originId ++ " activation barrier ".toList ++ path ++
          " did not change with the deployment".toList))
      else .ok ()

/-- mirrors src/src/services/origin_refresh.rs:671-680 -/
def stagedOriginMirror (stagingDir : PathBuf) : Except Error (PathBuf × Str) :=
  match parent? stagingDir with
  | none => .error (anyhow "staging dir has no parent".toList)
  | some root =>
    match (names stagingDir).getLast? with
    | none => .error (anyhow "staging dir has invalid origin id".toList)
    | some name => .ok (root, name.text)

section
variable (deps : Deps)

/-- The loop of `load_origin_edge_config`. -/
def loadEdgeConfigFrom (root : PathBuf) (originId : Str) : List (Str × Bool) → Async EdgeConfig
  | [] => pure defaultEdgeConfig
  | candidate :: rest => do
    let object ← readObject deps root originId candidate.1
    match object with
    | some object =>
      match fromUtf8 object.body with
      | none => .fail (anyhow (deps.utf8ErrorText object.body))
      | some content => .ofExcept (parseEdgeConfig deps content)
    | none => loadEdgeConfigFrom root originId rest

/-- mirrors src/src/services/origin_refresh.rs:682-705 -/
def loadOriginEdgeConfig (root : PathBuf) (originId : Str) : Async EdgeConfig :=
  loadEdgeConfigFrom deps root originId EDGE_CONFIG_PATHS

/-- The checks before an activation; mirrors src/src/services/origin_refresh.rs:266-286 -/
def prepareActivation (originId : Str) (previousIndex : Option OriginFreshnessIndex)
    (staged : StagedOriginSync) (activationBarrierPath : Option Str) :
    Async (EdgeConfig × Registry) := do
  Prog.ofExcept (validateActivationBarrier originId previousIndex staged.index staged.diff
    activationBarrierPath)
  let (stageMirror, stageOriginId) ← .ofExcept (stagedOriginMirror staged.stagingDir)
  let edgeConfig ← loadOriginEdgeConfig deps stageMirror stageOriginId
  let templateRegistry ←
    compileTemplateUpdateFromMirror deps originId stageMirror stageOriginId staged.diff
  pure (edgeConfig, templateRegistry)

/-- The snapshot of a new generation; mirrors src/src/services/origin_refresh.rs:307-334 -/
def newSnapshot (originId : Str) (generation : Nat) (activatedAt : Str)
    (staged : StagedOriginSync) : OriginSnapshotDebug :=
  { OriginSnapshotDebug.blank originId with
    generation := generation
    activatedAt := activatedAt
    capturedAt := deps.rfc3339 staged.index.capturedAt
    knownFiles := staged.index.files.size
    addedFiles := staged.diff.added.size
    modifiedFiles := staged.diff.modified.size
    removedFiles := staged.diff.removed.size
    unchangedFiles := staged.diff.unchanged.size
    downloadedFiles := staged.downloaded }

/-- The CDN phase; mirrors src/src/services/origin_refresh.rs:355-422 -/
def refreshCdn (originId : Str) (generation : Nat) (diff : OriginFreshnessDiff) :
    Option OriginCdnRefresh → Async (Option OriginSyncCdnResponse)
  | none => pure none
  | some cdn => do
    let result ← (refreshAfterActivation cdn originId generation diff).attempt
    match result with
    | .ok (some outcome) => do
      call (.setCdnResult originId outcome.provider outcome.status outcome.requestIds.head?
        outcome.requestIds outcome.submittedItems)
      pure (some ⟨outcome.provider, outcome.status, outcome.requestIds.head?, outcome.requestIds,
        outcome.submittedItems⟩)
    | .ok none => pure none
    | .error error => do
      (match error.cdn with
        | some failure =>
          if failure.requestIds = [] then pure ()
          else call (.setCdnResult originId failure.provider "partial_failure".toList
            failure.requestIds.head? failure.requestIds failure.submittedItems)
        | none => pure ())
      call (.setCdnError originId error.message)
      pure none

/-- The activation proper, after which nothing can fail but the CDN phase; mirrors
src/src/services/origin_refresh.rs:347-354 -/
def activate (originId : Str) (staged : StagedOriginSync) (edgeConfig : EdgeConfig)
    (registry : Registry) (snapshot : OriginSnapshotDebug) : Async Unit := do
  activateStagedOrigin deps staged
  call (.setValid originId edgeConfig)
  call (.setOriginRegistry originId registry)
  call (.insertIndex originId staged.index)
  call (.setSnapshot snapshot)

def syncResponse (snapshot : OriginSnapshotDebug) (cdn : Option OriginSyncCdnResponse) :
    OriginSyncResponse where
  originId := snapshot.originId
  generation := snapshot.generation
  activatedAt := snapshot.activatedAt
  capturedAt := snapshot.capturedAt
  knownFiles := snapshot.knownFiles
  addedFiles := snapshot.addedFiles
  modifiedFiles := snapshot.modifiedFiles
  removedFiles := snapshot.removedFiles
  unchangedFiles := snapshot.unchangedFiles
  downloadedFiles := snapshot.downloadedFiles
  cdn := cdn

/-- What follows a successful preparation; mirrors src/src/services/origin_refresh.rs:297-438 -/
def activateSnapshot (originId : Str) (cdnRefresh : Option OriginCdnRefresh)
    (staged : StagedOriginSync) (edgeConfig : EdgeConfig) (registry : Registry) :
    Async OriginSyncResponse := do
  let current ← call (.originSnapshot originId)
  let nextGeneration := (current.map fun snapshot => snapshot.generation + 1).getD 1
  let now ← call .now
  let snapshot := newSnapshot deps originId nextGeneration (deps.rfc3339 now) staged
  activate deps originId staged edgeConfig registry snapshot
  let cdn ← refreshCdn originId nextGeneration staged.diff cdnRefresh
  pure (syncResponse snapshot cdn)

/-- mirrors src/src/services/origin_refresh.rs:244-438 -/
def refreshOriginSnapshot (originId : Str) (cdnRefresh : Option OriginCdnRefresh)
    (activationBarrierPath : Option Str) : Async OriginSyncResponse := do
  let previousIndex ← call (.freshnessIndex originId)
  let staged ← stageOriginSync deps originId previousIndex
  let preparation ←
    (prepareActivation deps originId previousIndex staged activationBarrierPath).attempt
  match preparation with
  | .error error => do
    let cleanup ← (discardStagedOrigin deps staged).attempt
    match cleanup with
    | .error cleanupError =>
      .fail (error.context ("failed to discard rejected staged origin: ".toList ++
        cleanupError.message))
    | .ok _ => .fail error
  | .ok (edgeConfig, registry) =>
    activateSnapshot deps originId cdnRefresh staged edgeConfig registry

end

/-! ## The service -/

/-- mirrors src/src/services/origin_refresh.rs:82-86 -/
inductive OriginRefreshError where
  | notFound
  | alreadyRunning
  | failed (e : Error)
  deriving DecidableEq, Repr

/-- What `OriginRefreshService` knows of its origins. -/
structure OriginRefreshService where
  hasOrigin : Str → Bool
  activationBarrier : Str → Option Str
  cdn : Str → Option OriginCdnRefresh

/-- mirrors src/src/services/origin_refresh.rs:174-241; the guard's `Drop` releases the
lock however the refresh ends. -/
def refreshOrigin (deps : Deps) (env : Env) (service : OriginRefreshService) (originId : Str)
    (w : World) : Outcome OriginRefreshError OriginSyncResponse × World :=
  if service.hasOrigin originId = false then (.err .notFound, w)
  else if w.locks originId then (.err .alreadyRunning, w)
  else
    match run (step deps env) (refreshOriginSnapshot deps originId (service.cdn originId)
        (service.activationBarrier originId)) (w.lock originId) with
    | (.ok response, w') => (.ok response, w'.unlock originId)
    | (.err e, w') =>
      (.err (.failed e),
        { w'.unlock originId with originRuntime := setError w'.originRuntime originId e.message })
    | (.dropped, w') => (.dropped, w'.unlock originId)

/-! ## A small server

`smallDeps` stands in for the third-party functions where a run is computed: it
has the digests of a few keys, and reads and writes the JSON of metadata whose
texts need no escapes. -/

def nibble (c : Char) : Nat := if c.isDigit then c.toNat - 48 else c.toNat - 87

def unhex : Str → Bytes
  | a :: b :: r => UInt8.ofNat (16 * nibble a + nibble b) :: unhex r
  | _ => []

/-- The first 32 bytes, filled up with zeros. -/
def digestOf (b : Bytes) : Digest where
  bytes := (b ++ List.replicate 32 0).take 32
  length := by simp

def knownDigests : List (Str × Str) :=
  [("a".toList, "ca978112ca1bbdcafac231b39a23dc4da786eff8147c4e72b9807785afee48bb".toList),
   ("b".toList, "3e23e8160039594a33894f6564e1b1348bbd7a0088d42c4acb73eeaed59c009d".toList),
   (".rendermesh/edge.yaml".toList,
    "ffaab295d8fa1d3d94ed92eae21032469ec75d77f244ef2b88a43e22bc245007".toList)]

def jsonField (name : String) (value : Option Str) : Str :=
  ['"'] ++ name.toList ++ ['"', ':'] ++
    match value with
    | none => "null".toList
    | some v => ['"'] ++ v ++ ['"']

def metadataJson (m : ObjectMetadata) : Str :=
  ['\x7b'] ++ jsonField "content_type" m.contentType ++ [','] ++ jsonField "etag" m.etag ++ [','] ++
    jsonField "last_modified" m.lastModified ++ [','] ++
    jsonField "cache_control" m.cacheControl ++ ['\x7d']

/-- One field and the separator after it. -/
def readJsonField (name : String) (s : Str) : Option (Option Str × Str) := do
  let r ← stripPrefix? (['"'] ++ name.toList ++ ['"', ':']) s
  match stripPrefix? "null".toList r with
  | some r => some (none, r.drop 1)
  | none =>
    let v := (r.drop 1).takeWhile (· != '"')
    some (some v, r.drop (v.length + 3))

def readMetadataJson (s : Str) : Option ObjectMetadata := do
  let (contentType, s) ← readJsonField "content_type" (s.drop 1)
  let (etag, s) ← readJsonField "etag" s
  let (lastModified, s) ← readJsonField "last_modified" s
  let (cacheControl, _) ← readJsonField "cache_control" s
  some ⟨contentType, etag, lastModified, cacheControl⟩

def smallDeps : Deps where
  localStoreDir := "/var/lib/rendermesh".toList
  pid := 7
  sha256 := fun b => digestOf (match knownDigests.find? fun e => utf8 e.1 = b with
    | some e => unhex e.2
    | none => b)
  metadataToJson := fun m => utf8 (metadataJson m)
  metadataOfJson := fun s => (readMetadataJson s).elim (.error "expected value".toList) .ok
  edgeConfigOfYaml := fun _ => .error "invalid type".toList
  edgeConfigOfJson := fun _ => .error "expected value at line 1 column 1".toList
  urlScheme := fun s => .ok (s.takeWhile (· != ':'))
  compileTemplate := fun _ => .ok ()
  rfc3339 := fun _ => "1970-01-01T00:00:00+00:00".toList
  utf8ErrorText := fun _ => "invalid utf-8 sequence of 1 bytes from index 0".toList

/-- The same with the digests of more texts. -/
def knowing (deps : Deps) (digests : List (Str × Str)) : Deps :=
  { deps with
    sha256 := fun b => match digests.find? fun e => utf8 e.1 = b with
      | some e => digestOf (unhex e.2)
      | none => deps.sha256 b }

/-- A healthy disk, a clock that stands still, and a storage without objects. -/
def calmEnv : Env where
  long := fun n => decide (255 < (utf8 n.text).length)
  nanos := fun _ => 0
  fault := fun _ _ => .none
  listObjects := fun _ _ => .ok []
  getObject := fun _ _ _ => .err (anyhow "no such key".toList)
  purge := fun _ _ => .ok ⟨"cloudfront".toList, ["I1".toList], "submitted".toList, 1⟩

/-- One origin's service without barrier and CDN. -/
def plainService : OriginRefreshService where
  hasOrigin := fun _ => true
  activationBarrier := fun _ => none
  cdn := fun _ => none

example : readMetadataJson (metadataJson ⟨some "text/html".toList, none, none, some [] ⟩) =
    some ⟨some "text/html".toList, none, none, some []⟩ := by decide

end RenderMesh.Refresh
