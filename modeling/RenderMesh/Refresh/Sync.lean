import RenderMesh.Server.Async

/-!
# Staging and swapping a mirror

`MirrorSyncService` (`src/src/repositories/sync.rs`): a refresh copies the active
mirror of its origin into a staging directory, downloads what changed into it,
removes what is no longer listed, and at activation renames the old mirror away
and the staging directory into its place.
-/
namespace RenderMesh.Refresh

open RenderMesh.Core RenderMesh.Mirror RenderMesh.Server

/-- mirrors src/src/repositories/sync.rs:59-65; the report is its one number. -/
structure StagedOriginSync where
  originId : Str
  stagingDir : PathBuf
  index : OriginFreshnessIndex
  diff : OriginFreshnessDiff
  downloaded : Nat

section
variable (deps : Deps)

/-- mirrors src/src/repositories/sync.rs:325-331 -/
def removeDirIfExists (path : PathBuf) : Async Unit :=
  ioUnlessNotFound (.removeDirAll path) ("remove dir ".toList ++ deps.display path)

/-- One event of the loop in `copy_dir_contents`. -/
def copyEntry (source target : PathBuf) : WalkEvent Name → Async Unit
  | .readDir rel =>
    ioContext (.readDir (joinNames source rel))
      ("read mirror dir ".toList ++ deps.display (joinNames source rel))
  | .entry rel isDir => do
    ioTry (.visit (joinNames source rel))
    let targetPath := joinNames target rel
    if isDir then
      ioContext (.createDirAll targetPath) ("create staging dir ".toList ++ deps.display targetPath)
    else
      ioContext (.copy (joinNames source rel) targetPath)
        ("copy staging file ".toList ++ deps.display targetPath)

/-- mirrors src/src/repositories/sync.rs:259-288 -/
def copyDirContents (source target : PathBuf) : Async Unit := do
  ioContext (.createDirAll target) ("create staging mirror ".toList ++ deps.display target)
  let events ← call (.walk source fun _ => false)
  Prog.each (copyEntry deps source target) events

/-- mirrors src/src/repositories/sync.rs:248-257 -/
def prepareStagingDir (originDir stagingDir : PathBuf) : Async Unit := do
  removeDirIfExists deps stagingDir
  let r ← io (.metadata originDir)
  match r with
  | .ok _ => copyDirContents deps originDir stagingDir
  | .error _ =>
    ioContext (.createDirAll stagingDir)
      ("create staging mirror ".toList ++ deps.display stagingDir)

/-- mirrors src/src/repositories/sync.rs:189-216 -/
def validateDownloadedObject (key : Str) (summary : OriginFileState) (object : RemoteObject) :
    Except Error Unit := do
  let downloadedKey ← normalizeRemoteKey object.key
  if downloadedKey ≠ key then
    .error (anyhow ("downloaded object key ".toList ++ downloadedKey ++
      " does not match listed key ".toList ++ key))
  else if object.body.length ≠ summary.size then
    .error (anyhow ("downloaded object ".toList ++ key ++
      " changed size after it was listed".toList))
  else if summary.etag.isSome ∧ object.etag ≠ summary.etag then
    .error (anyhow ("downloaded object ".toList ++ key ++
      " changed etag after it was listed".toList))
  else if summary.lastModified.isSome ∧ object.lastModified ≠ summary.lastModified then
    .error (anyhow ("downloaded object ".toList ++ key ++
      " changed last-modified after it was listed".toList))
  else .ok ()

/-- The metadata that `write_object` puts in the sidecar. -/
def objectMetadata (object : RemoteObject) : ObjectMetadata where
  contentType := object.contentType
  etag := object.etag
  lastModified := object.lastModified
  cacheControl := object.cacheControl

/-- mirrors src/src/repositories/sync.rs:367-398 -/
def writeObject (originDir : PathBuf) (object : RemoteObject) : Async Unit := do
  let key ← .ofExcept (normalizeRemoteKey object.key)
  let path ← .ofExcept (remoteObjectPath originDir key)
  withParent path fun parent =>
    ioContext (.createDirAll parent) ("create object parent ".toList ++ deps.display parent)
  ioContext (.write path object.body) ("write local object ".toList ++ deps.display path)
  let sidecarPath ← .ofExcept (metadataSidecarPath deps originDir key)
  withParent sidecarPath fun parent =>
    ioContext (.createDirAll parent) ("create metadata parent ".toList ++ deps.display parent)
  ioContext (.write sidecarPath (deps.metadataToJson (objectMetadata object)))
    ("write local object metadata ".toList ++ deps.display sidecarPath)

/-- One event of the loop in `remove_deleted_objects`. -/
def removeDeletedEntry (originDir : PathBuf) (remoteKeys : Std.TreeSet Str) :
    WalkEvent Name → Async Unit
  | .readDir rel =>
    ioUnlessNotFound (.readDir (joinNames originDir rel))
      ("read mirror dir ".toList ++ deps.display (joinNames originDir rel))
  | .entry rel isDir => do
    let path := joinNames originDir rel
    ioTry (.visit path)
    if isDir then pure ()
    else do
      let key ← .ofExcept (relativeKey deps originDir path)
      if key ∈ remoteKeys then pure ()
      else do
        ioContext (.removeFile path) ("remove deleted local object ".toList ++ deps.display path)
        let sidecarPath ← .ofExcept (metadataSidecarPath deps originDir key)
        ioUnlessNotFound (.removeFile sidecarPath)
          ("remove deleted local object metadata ".toList ++ deps.display sidecarPath)

/-- mirrors src/src/repositories/sync.rs:400-454; the walk does not enter the
metadata directory. -/
def removeDeletedObjects (originDir : PathBuf) (remoteKeys : Std.TreeSet Str) : Async Unit := do
  let events ← call (.walk originDir fun rel => rel = [metaName])
  Prog.each (removeDeletedEntry deps originDir remoteKeys) events

/-- One event of the loop in `remove_orphan_metadata_sidecars`. -/
def removeOrphanEntry (metadataDir : PathBuf) (expectedPaths : List PathBuf) :
    WalkEvent Name → Async Unit
  | .readDir rel =>
    ioUnlessNotFound (.readDir (joinNames metadataDir rel))
      ("read metadata mirror dir ".toList ++ deps.display (joinNames metadataDir rel))
  | .entry rel isDir => do
    let path := joinNames metadataDir rel
    ioTry (.visit path)
    if isDir then pure ()
    else if components path ∈ expectedPaths.map components then pure ()
    else
      ioContext (.removeFile path) ("remove orphan metadata sidecar ".toList ++ deps.display path)

/-- mirrors src/src/repositories/sync.rs:456-498 -/
def removeOrphanMetadataSidecars (originDir : PathBuf) (remoteKeys : Std.TreeSet Str) :
    Async Unit := do
  let metadataDir := join originDir METADATA_DIR_NAME
  let expectedPaths ← .ofExcept (remoteKeys.toList.mapM (metadataSidecarPath deps originDir))
  let events ← call (.walk metadataDir fun _ => false)
  Prog.each (removeOrphanEntry deps metadataDir expectedPaths) events

/-- One turn of the download loop of `stage_origin_dir`. -/
def downloadObject (originId : Str) (originDir : PathBuf) (index : OriginFreshnessIndex)
    (downloaded : Nat) (key : Str) : Async Nat := do
  let r ← call (.getObject originId key)
  let object ← .ofExcept r
  let summary ← .ofExcept (match index.files[key]? with
    | some summary => .ok summary
    | none => .error (anyhow ("listed object ".toList ++ key ++
        " is missing from the freshness index".toList)))
  Prog.ofExcept (validateDownloadedObject key summary object)
  writeObject deps originDir object
  pure (downloaded + 1)

/-- mirrors src/src/repositories/sync.rs:153-187 -/
def stageOriginDir (originId : Str) (originDir : PathBuf)
    (previousIndex : Option OriginFreshnessIndex) :
    Async (OriginFreshnessIndex × OriginFreshnessDiff × Nat) := do
  ioContext (.createDirAll originDir) ("create origin mirror ".toList ++ deps.display originDir)
  let r ← call (.listObjects originId)
  let summaries ← .ofExcept r
  let now ← call .now
  let index ← .ofExcept (buildOriginIndex originId summaries now)
  let diff := diffOriginIndexes previousIndex index
  let remoteKeys : Std.TreeSet Str := .ofList index.files.keys
  let downloaded ← Prog.fold (downloadObject deps originId originDir index) 0 diff.changedPaths
  removeDeletedObjects deps originDir remoteKeys
  removeOrphanMetadataSidecars deps originDir remoteKeys
  pure (index, diff, downloaded)

def stagingRoot : PathBuf := ".rendermesh-sync".toList

def stagingName (originId : Str) (timestamp : Nat) : Str :=
  originId ++ '-' :: showNat deps.pid ++ '-' :: showNat timestamp

/-- mirrors src/src/repositories/sync.rs:140-150 -/
def stagingDir (originId : Str) : Async PathBuf := do
  let _ ← Prog.ofExcept (originDir storeRoot originId)
  let timestamp ← call .now
  pure (join stagingRoot (stagingName deps originId timestamp))

/-- mirrors src/src/repositories/sync.rs:97-124 -/
def stageOriginSync (originId : Str) (previousIndex : Option OriginFreshnessIndex) :
    Async StagedOriginSync := do
  let dir ← .ofExcept (originDir storeRoot originId)
  let staging ← stagingDir deps originId
  prepareStagingDir deps dir staging
  let result ← (stageOriginDir deps originId staging previousIndex).attempt
  match result with
  | .ok (index, diff, downloaded) => pure ⟨originId, staging, index, diff, downloaded⟩
  | .error error => do
    removeDirIfExists deps staging
    .fail error

def backupPath (originDir : PathBuf) (now : Nat) : PathBuf :=
  withExtension originDir ("rendermesh-backup-".toList ++ showNat now)

/-- mirrors src/src/repositories/sync.rs:290-323 -/
def swapOriginDir (originDir stagingDir : PathBuf) : Async Unit := do
  withParent originDir fun parent =>
    ioContext (.createDirAll parent) ("create mirror root ".toList ++ deps.display parent)
  let now ← call .now
  let backupDir := backupPath originDir now
  let r ← io (.metadata originDir)
  let hadOrigin := r.isOk
  onlyIf hadOrigin <|
    ioContext (.rename originDir backupDir) ("move old mirror to ".toList ++ deps.display backupDir)
  let r ← io (.rename stagingDir originDir)
  match r with
  | .error error => do
    onlyIf hadOrigin <|
      ioContext (.rename backupDir originDir)
        ("restore old mirror ".toList ++ deps.display originDir)
    .fail ((ioError error).context ("activate mirror ".toList ++ deps.display originDir))
  | .ok _ => removeDirIfExists deps backupDir

/-- mirrors src/src/repositories/sync.rs:126-134 -/
def activateStagedOrigin (staged : StagedOriginSync) : Async Unit := do
  let dir ← .ofExcept (originDir storeRoot staged.originId)
  let result ← (swapOriginDir deps dir staged.stagingDir).attempt
  match result with
  | .ok _ => pure ()
  | .error error => do
    removeDirIfExists deps staged.stagingDir
    .fail error

/-- mirrors src/src/repositories/sync.rs:136-138 -/
def discardStagedOrigin (staged : StagedOriginSync) : Async Unit :=
  removeDirIfExists deps staged.stagingDir

end

end RenderMesh.Refresh
