import RenderMesh.Core.Prog
import RenderMesh.Core.FileOps
import RenderMesh.Core.Walk
import RenderMesh.Refresh.Freshness
import Mathlib.Logic.Function.Basic

/-!
# The server's state and its surroundings

`World` is what a refresh reads and writes: the file system below the local
store directory and the in-memory stores that the server shares between
requests and refreshes. `Op` are the steps a refresh takes on it, in which
`await` points and locks fall; `step` says what each does.

The surroundings of a run are an `Env`, read by the number of steps taken so
far: the replies of the remote storage and of the CDN, the system clock, and for
each file-system call a `Fault`. A file-system call fails on its own account as
`FileOps` says (a name clash, a name that is too long); a fault is everything
else, a disk that is full or broken and a caller that drops the future at that
`await`. A call that fails or is dropped half way may leave `Debris` at its own
target. A rename and the removal of one file happen or do not happen.

* `run_spares`: code changes nothing outside the paths its file-system calls write
  (`FsOp.Writes`), whatever their faults.
* `run_within`: code that only touches files in one directory leaves the rest of
  the tree and every in-memory store as it was, however it ends.
-/
namespace RenderMesh.Server

open RenderMesh.Core RenderMesh.Refresh

abbrev Tree := FileTree Name Bytes

/-! ## File-system calls -/

inductive FsOp where
  | metadata (p : PathBuf)
  | createDirAll (p : PathBuf)
  | readDir (p : PathBuf)
  /-- `next_entry` and `file_type`, which find the entry `p`. -/
  | visit (p : PathBuf)
  | copy (a b : PathBuf)
  | read (p : PathBuf)
  | write (p : PathBuf) (body : Bytes)
  | removeFile (p : PathBuf)
  | removeDirAll (p : PathBuf)
  | rename (a b : PathBuf)
  deriving DecidableEq, Repr

/-- What a call returns when it succeeds. -/
abbrev FsOp.Val : FsOp → Type
  | .metadata _ => Bool
  | .read _ => Bytes
  | _ => Unit

/-- What a failed or dropped call had done by then. -/
structure Debris where
  /-- entries that `remove_dir_all` had removed, below its target -/
  removed : List (List Name)
  /-- the body a write or a copy had got to -/
  written : Option Bytes
  /-- directories of the path that `create_dir_all` had made -/
  made : Nat
  deriving DecidableEq, Repr

def Debris.none : Debris := ⟨[], .none, 0⟩

inductive Fault where
  | none
  | fail (left : Debris)
  /-- The caller dropped the future; `ran` when the call itself still ran to its end. -/
  | drop (ran : Bool) (left : Debris)
  deriving DecidableEq, Repr

section
variable (long : Name → Bool)

/-- The call on a healthy disk. -/
def FsOp.exec (t : Tree) : (o : FsOp) → Except IoErr o.Val × Tree
  | .metadata p => (t.metadata long (names p) (asDir p), t)
  | .createDirAll p => t.createDirAll long (names p)
  | .readDir p =>
    (match t.stat long (names p) with
      | .ok .dir => .ok ()
      | .ok (.file _) => .error .notADirectory
      | .error e => .error e, t)
  | .visit _ => (.ok (), t)
  | .copy a b => t.copyFile long (names a) (names b)
  | .read p => (t.readFile long (names p) (asDir p), t)
  | .write p body => t.writeFile long (names p) (asDir p) body
  | .removeFile p => t.removeFile long (names p)
  | .removeDirAll p => t.removeDirAll long (names p)
  | .rename a b => t.rename long (names a) (names b)

def FsOp.debris (left : Debris) (t : Tree) : FsOp → Tree
  | .createDirAll p => (t.createDirAll long ((names p).take left.made)).2
  | .copy _ b =>
    match left.written with
    | some body => (t.writeFile long (names b) false body).2
    | .none => t
  | .write p _ =>
    match left.written with
    | some body => (t.writeFile long (names p) (asDir p) body).2
    | .none => t
  | .removeDirAll p =>
    if t.lookup (names p) = some .dir then
      left.removed.foldl (fun t r => t.prune (names p ++ r)) t
    else t
  | _ => t

def FsOp.step (fault : Fault) (t : Tree) (o : FsOp) : Option (Except IoErr o.Val) × Tree :=
  match fault with
  | .none => (some (o.exec long t).1, (o.exec long t).2)
  | .fail left => (some (.error .other), o.debris long left t)
  | .drop true _ => (none, (o.exec long t).2)
  | .drop false left => (none, o.debris long left t)

/-- The paths at which a call can change the tree. `create_dir_all` adds
directories along its path, the others act at their target or below it. -/
def FsOp.Writes : FsOp → List Name → Prop
  | .createDirAll p, q => q <+: names p
  | .copy _ b, q => q = names b
  | .write p _, q => q = names p
  | .removeFile p, q => q = names p
  | .removeDirAll p, q => names p <+: q
  | .rename a b, q => names a <+: q ∨ names b <+: q
  | _, _ => False

theorem FsOp.exec_frame (t : Tree) (o : FsOp) {q : List Name} (hq : ¬ o.Writes q) :
    (o.exec long t).2.lookup q = t.lookup q := by
  cases o with
  | metadata p => rfl
  | readDir p => rfl
  | visit p => rfl
  | read p => rfl
  | createDirAll p => exact t.createDirAll_frame long hq
  | copy a b => exact t.copyFile_frame long _ _ hq
  | write p body => exact t.writeFile_frame long _ _ _ hq
  | removeFile p => exact t.removeFile_frame long hq
  | removeDirAll p => exact t.removeDirAll_frame long hq
  | rename a b =>
    simp only [FsOp.Writes, not_or] at hq
    exact t.rename_frame long hq.1 hq.2

theorem prune_all_frame (p : List Name) (l : List (List Name)) {q : List Name} (hq : ¬ p <+: q)
    (t : Tree) : (l.foldl (fun t r => t.prune (p ++ r)) t).lookup q = t.lookup q := by
  induction l generalizing t with
  | nil => rfl
  | cons r l ih =>
    rw [List.foldl_cons, ih]
    exact t.lookup_prune_of_not_prefix fun h => hq ((List.prefix_append _ _).trans h)

theorem FsOp.debris_frame (left : Debris) (t : Tree) (o : FsOp) {q : List Name}
    (hq : ¬ o.Writes q) : (o.debris long left t).lookup q = t.lookup q := by
  cases o with
  | createDirAll p =>
    exact t.createDirAll_frame long fun h => hq (h.trans (List.take_prefix _ _))
  | copy a b =>
    simp only [FsOp.debris]
    split
    · exact t.writeFile_frame long _ _ _ hq
    · rfl
  | write p body =>
    simp only [FsOp.debris]
    split
    · exact t.writeFile_frame long _ _ _ hq
    · rfl
  | removeDirAll p =>
    simp only [FsOp.debris]
    split
    · exact prune_all_frame _ _ hq t
    · rfl
  | _ => rfl

theorem FsOp.step_frame (fault : Fault) (t : Tree) (o : FsOp) {q : List Name}
    (hq : ¬ o.Writes q) : (o.step long fault t).2.lookup q = t.lookup q := by
  unfold FsOp.step
  split
  · exact o.exec_frame long t hq
  · exact o.debris_frame long _ t hq
  · exact o.exec_frame long t hq
  · exact o.debris_frame long _ t hq

end

/-! ## Stores -/

/-- mirrors src/src/services/edge_config_store.rs:13-17 -/
inductive EdgeConfigEntry where
  | valid (config : EdgeConfig)
  | invalid (error : Str)
  deriving DecidableEq, Repr

/-- A Handlebars registry: the source of each template it holds compiled. -/
abbrev Registry := Str → Option Str

/-- A snapshot before anything was recorded in it. -/
def OriginSnapshotDebug.blank (originId : Str) : OriginSnapshotDebug where
  originId := originId
  generation := 0
  activatedAt := []
  capturedAt := []
  knownFiles := 0
  addedFiles := 0
  modifiedFiles := 0
  removedFiles := 0
  unchangedFiles := 0
  downloadedFiles := 0
  lastError := none
  lastCdnProvider := none
  lastCdnStatus := none
  lastCdnRequestId := none
  lastCdnRequestIds := []
  lastCdnRefreshedAt := none
  lastCdnSubmittedItems := none
  lastCdnError := none
  lastCdnDomainProvider := none
  lastCdnDomainStatus := none
  lastCdnDomainReconciledAt := none
  lastCdnDomainAdded := none
  lastCdnDomainUpdated := none
  lastCdnDomainRemoved := none
  lastCdnDomainUnchanged := none
  lastCdnDomainError := none

/-- `snapshot` with the CDN history of `previous`. -/
def withCdnHistory (previous snapshot : OriginSnapshotDebug) : OriginSnapshotDebug :=
  { snapshot with
    lastCdnProvider := previous.lastCdnProvider
    lastCdnStatus := previous.lastCdnStatus
    lastCdnRequestId := previous.lastCdnRequestId
    lastCdnRequestIds := previous.lastCdnRequestIds
    lastCdnRefreshedAt := previous.lastCdnRefreshedAt
    lastCdnSubmittedItems := previous.lastCdnSubmittedItems
    lastCdnError := previous.lastCdnError
    lastCdnDomainProvider := previous.lastCdnDomainProvider
    lastCdnDomainStatus := previous.lastCdnDomainStatus
    lastCdnDomainReconciledAt := previous.lastCdnDomainReconciledAt
    lastCdnDomainAdded := previous.lastCdnDomainAdded
    lastCdnDomainUpdated := previous.lastCdnDomainUpdated
    lastCdnDomainRemoved := previous.lastCdnDomainRemoved
    lastCdnDomainUnchanged := previous.lastCdnDomainUnchanged
    lastCdnDomainError := previous.lastCdnDomainError }

abbrev Snapshots := Str → Option OriginSnapshotDebug

/-- mirrors src/src/services/origin_runtime.rs:49-73 -/
def setSnapshot (snapshots : Snapshots) (snapshot : OriginSnapshotDebug) : Snapshots :=
  Function.update snapshots snapshot.originId
    (match snapshots snapshot.originId with
      | some previous => some (withCdnHistory previous snapshot)
      | none => some snapshot)

/-- mirrors src/src/services/origin_runtime.rs:75-115 -/
def setError (snapshots : Snapshots) (originId error : Str) : Snapshots :=
  Function.update snapshots originId
    (match snapshots originId with
      | some snapshot => some { snapshot with lastError := some error }
      | none => some { OriginSnapshotDebug.blank originId with lastError := some error })

/-- mirrors src/src/services/origin_runtime.rs:117-140 -/
def setCdnResult (snapshots : Snapshots) (originId provider status : Str)
    (requestId : Option Str) (requestIds : List Str) (submittedItems : Nat) (refreshedAt : Str) :
    Snapshots :=
  Function.update snapshots originId ((snapshots originId).map fun snapshot =>
    { snapshot with
      lastCdnProvider := some provider
      lastCdnStatus := some status
      lastCdnRequestId := requestId
      lastCdnRequestIds := requestIds
      lastCdnRefreshedAt := some refreshedAt
      lastCdnSubmittedItems := some submittedItems
      lastCdnError := none })

/-- mirrors src/src/services/origin_runtime.rs:142-151 -/
def setCdnError (snapshots : Snapshots) (originId error : Str) : Snapshots :=
  Function.update snapshots originId ((snapshots originId).map fun snapshot =>
    { snapshot with lastCdnError := some error })

/-! ## State and steps -/

structure World where
  fs : Tree
  /-- steps taken so far -/
  clock : Nat
  edgeConfigs : Str → Option EdgeConfigEntry
  templates : Str → Option Registry
  freshnessIndexes : Str → Option OriginFreshnessIndex
  originRuntime : Snapshots
  /-- the origins being refreshed (`OriginRefreshLocks`) -/
  locks : Str → Bool
  /-- the purge calls made so far, each with whether the provider accepted it in full -/
  purged : List (CdnPurgeRequest × Bool)

structure Env where
  /-- names the file system refuses as too long -/
  long : Name → Bool
  nanos : Nat → Nat
  fault : Nat → FsOp → Fault
  listObjects : Nat → Str → Outcome Error (List RemoteObjectSummary)
  getObject : Nat → Str → Str → Outcome Error RemoteObject
  purge : Nat → CdnPurgeRequest → Outcome CdnPurgeError CdnPurgeResult

inductive Op where
  | fs (o : FsOp)
  /-- the places a directory loop from `p` will visit; not an event of its own -/
  | walk (p : PathBuf) (skip : List Name → Bool)
  | listObjects (originId : Str)
  | getObject (originId key : Str)
  | purge (request : CdnPurgeRequest)
  /-- the system clock, in nanoseconds -/
  | now
  | freshnessIndex (originId : Str)
  | originTemplates (originId : Str)
  | originSnapshot (originId : Str)
  | setValid (originId : Str) (config : EdgeConfig)
  | setOriginRegistry (originId : Str) (registry : Registry)
  | insertIndex (originId : Str) (index : OriginFreshnessIndex)
  | setSnapshot (snapshot : OriginSnapshotDebug)
  | setCdnResult (originId provider status : Str) (requestId : Option Str)
      (requestIds : List Str) (submittedItems : Nat)
  | setCdnError (originId error : Str)

abbrev Op.Res : Op → Type
  | .fs o => Except IoErr o.Val
  | .walk _ _ => List (WalkEvent Name)
  | .listObjects _ => Except Error (List RemoteObjectSummary)
  | .getObject _ _ => Except Error RemoteObject
  | .purge _ => Except CdnPurgeError CdnPurgeResult
  | .now => Nat
  | .freshnessIndex _ => Option OriginFreshnessIndex
  | .originTemplates _ => Option Registry
  | .originSnapshot _ => Option OriginSnapshotDebug
  | _ => Unit

/-- The answer to a call of another party, `none` when the caller went away. -/
def reply {ε α : Type} : Outcome ε α → Option (Except ε α)
  | .ok a => some (.ok a)
  | .err e => some (.error e)
  | .dropped => none

/-- The server at the start of its process: files of an earlier one, empty stores. -/
def World.start (fs : Tree) : World where
  fs := fs
  clock := 0
  edgeConfigs := fun _ => none
  templates := fun _ => none
  freshnessIndexes := fun _ => none
  originRuntime := fun _ => none
  locks := fun _ => false
  purged := []

def World.lock (w : World) (originId : Str) : World :=
  { w with locks := Function.update w.locks originId true }

def World.unlock (w : World) (originId : Str) : World :=
  { w with locks := Function.update w.locks originId false }

def World.tick (w : World) : World := { w with clock := w.clock + 1 }

section
variable (deps : Deps) (env : Env)

/-- One step of the server. -/
def step : Handler Op Op.Res World
  | .fs o, w =>
    let r := o.step env.long (env.fault w.clock o) w.fs
    (r.1, { w.tick with fs := r.2 })
  | .walk p skip, w => (some (w.fs.itinerary skip (names p)), w)
  | .listObjects id, w => (reply (env.listObjects w.clock id), w.tick)
  | .getObject id key, w => (reply (env.getObject w.clock id key), w.tick)
  | .purge request, w =>
    let r := env.purge w.clock request
    (reply r, { w.tick with purged := w.purged ++ [(request, (reply r).any Except.isOk)] })
  | .now, w => (some (env.nanos w.clock), w.tick)
  | .freshnessIndex id, w => (some (w.freshnessIndexes id), w.tick)
  | .originTemplates id, w => (some (w.templates id), w.tick)
  | .originSnapshot id, w => (some (w.originRuntime id), w.tick)
  | .setValid id config, w =>
    (some (), { w.tick with edgeConfigs := Function.update w.edgeConfigs id (some (.valid config)) })
  | .setOriginRegistry id registry, w =>
    (some (), { w.tick with templates := Function.update w.templates id (some registry) })
  | .insertIndex id index, w =>
    (some (), { w.tick with freshnessIndexes := Function.update w.freshnessIndexes id (some index) })
  | .setSnapshot snapshot, w =>
    (some (), { w.tick with originRuntime := setSnapshot w.originRuntime snapshot })
  | .setCdnResult id provider status requestId requestIds submittedItems, w =>
    let refreshedAt := deps.rfc3339 (env.nanos w.clock)
    (some (), { w.tick with
      originRuntime := (setCdnResult w.originRuntime id provider status requestId requestIds
        submittedItems refreshedAt) })
  | .setCdnError id error, w =>
    (some (), { w.tick with originRuntime := setCdnError w.originRuntime id error })

/-- The in-memory stores and the purge record are as they were. -/
structure SameStores (w w' : World) : Prop where
  edgeConfigs : w'.edgeConfigs = w.edgeConfigs
  templates : w'.templates = w.templates
  freshnessIndexes : w'.freshnessIndexes = w.freshnessIndexes
  originRuntime : w'.originRuntime = w.originRuntime
  locks : w'.locks = w.locks
  purged : w'.purged = w.purged

theorem SameStores.refl (w : World) : SameStores w w := ⟨rfl, rfl, rfl, rfl, rfl, rfl⟩

theorem SameStores.trans {a b c : World} (h1 : SameStores a b) (h2 : SameStores b c) :
    SameStores a c :=
  ⟨h2.1.trans h1.1, h2.2.trans h1.2, h2.3.trans h1.3, h2.4.trans h1.4, h2.5.trans h1.5,
    h2.6.trans h1.6⟩

/-- The operations that touch files only in `dir` (or make directories on the
way to it) and leave the stores alone. -/
def Op.Within (dir : List Name) : Op → Prop
  | .fs o => ∀ q, o.Writes q → dir <+: q ∨ q <+: dir
  | .walk _ _ | .listObjects _ | .getObject _ _ | .now | .freshnessIndex _ | .originTemplates _
  | .originSnapshot _ => True
  | _ => False

theorem step_within {dir : List Name} {o : Op} (ho : o.Within dir) (w : World) :
    SameStores w (step deps env o w).2 ∧
      ∀ q, ¬ dir <+: q → ¬ q <+: dir → (step deps env o w).2.fs.lookup q = w.fs.lookup q := by
  cases o with
  | fs o =>
    refine ⟨⟨rfl, rfl, rfl, rfl, rfl, rfl⟩, fun q h1 h2 => o.step_frame env.long _ w.fs fun hw => ?_⟩
    exact (ho q hw).elim h1 h2
  | walk p skip => exact ⟨⟨rfl, rfl, rfl, rfl, rfl, rfl⟩, fun _ _ _ => rfl⟩
  | listObjects id => exact ⟨⟨rfl, rfl, rfl, rfl, rfl, rfl⟩, fun _ _ _ => rfl⟩
  | getObject id key => exact ⟨⟨rfl, rfl, rfl, rfl, rfl, rfl⟩, fun _ _ _ => rfl⟩
  | now => exact ⟨⟨rfl, rfl, rfl, rfl, rfl, rfl⟩, fun _ _ _ => rfl⟩
  | freshnessIndex id => exact ⟨⟨rfl, rfl, rfl, rfl, rfl, rfl⟩, fun _ _ _ => rfl⟩
  | originTemplates id => exact ⟨⟨rfl, rfl, rfl, rfl, rfl, rfl⟩, fun _ _ _ => rfl⟩
  | originSnapshot id => exact ⟨⟨rfl, rfl, rfl, rfl, rfl, rfl⟩, fun _ _ _ => rfl⟩
  | _ => exact absurd ho id

/-- Code that stays within `dir` changes nothing elsewhere, however it ends. -/
theorem run_within {dir : List Name} {ε α : Type} {m : Prog Op Op.Res ε α}
    (hm : m.Uses (Op.Within dir)) (w : World) :
    SameStores w (run (step deps env) m w).2 ∧
      ∀ q, ¬ dir <+: q → ¬ q <+: dir →
        (run (step deps env) m w).2.fs.lookup q = w.fs.lookup q := by
  refine keeps_of_uses (step deps env) (P := Op.Within dir)
    (I := fun w' => SameStores w w' ∧
      ∀ q, ¬ dir <+: q → ¬ q <+: dir → w'.fs.lookup q = w.fs.lookup q) ?_ hm w
    ⟨SameStores.refl w, fun _ _ _ => rfl⟩
  intro o ho w' hw'
  have h := step_within deps env ho w'
  exact ⟨hw'.1.trans h.1, fun q h1 h2 => (h.2 q h1 h2).trans (hw'.2 q h1 h2)⟩

/-- The operations that only look. -/
def Op.Reads : Op → Prop
  | .fs o => ∀ q, ¬ o.Writes q
  | .walk _ _ | .listObjects _ | .getObject _ _ | .now | .freshnessIndex _ | .originTemplates _
  | .originSnapshot _ => True
  | _ => False

theorem Op.Reads.within {o : Op} (ho : o.Reads) (dir : List Name) : o.Within dir := by
  cases o with
  | fs o => exact fun q hq => absurd hq (ho q)
  | _ => exact ho

/-- Code that only looks changes nothing, however it ends. -/
theorem run_reads {ε α : Type} {m : Prog Op Op.Res ε α} (hm : m.Uses Op.Reads) (w : World) :
    SameStores w (run (step deps env) m w).2 ∧
      ∀ q, (run (step deps env) m w).2.fs.lookup q = w.fs.lookup q := by
  refine keeps_of_uses (step deps env) (P := Op.Reads)
    (I := fun w' => SameStores w w' ∧ ∀ q, w'.fs.lookup q = w.fs.lookup q) ?_ hm w
    ⟨SameStores.refl w, fun _ => rfl⟩
  intro o ho w' hw'
  refine ⟨hw'.1.trans (step_within deps env (ho.within []) w').1, fun q => ?_⟩
  cases o with
  | fs o => exact (o.step_frame env.long _ w'.fs (ho q)).trans (hw'.2 q)
  | _ => exact hw'.2 q

/-- The operations on files, and on the clock. -/
def Op.OnFiles : Op → Prop
  | .fs _ | .now => True
  | _ => False

theorem Op.OnFiles.within {o : Op} (ho : o.OnFiles) : o.Within [] := by
  cases o with
  | fs o => exact fun q _ => Or.inl List.nil_prefix
  | now => trivial
  | _ => exact False.elim ho

/-- The operations that write at none of the paths in `S`. -/
def Op.Spares (S : List Name → Prop) : Op → Prop
  | .fs o => ∀ q, S q → ¬ o.Writes q
  | _ => True

theorem step_spares {S : List Name → Prop} {o : Op} (ho : o.Spares S) (w : World) {q : List Name}
    (hq : S q) : (step deps env o w).2.fs.lookup q = w.fs.lookup q := by
  cases o with
  | fs o => exact o.step_frame env.long _ w.fs (ho q hq)
  | _ => rfl

/-- Code that spares a path changes nothing there, however it ends. -/
theorem run_spares {S : List Name → Prop} {ε α : Type} {m : Prog Op Op.Res ε α}
    (hm : m.Uses (Op.Spares S)) (w : World) {q : List Name} (hq : S q) :
    (run (step deps env) m w).2.fs.lookup q = w.fs.lookup q := by
  refine keeps_of_uses (step deps env) (P := Op.Spares S)
    (I := fun w' => w'.fs.lookup q = w.fs.lookup q) ?_ hm w rfl
  exact fun o ho w' hw' => (step_spares deps env ho w' hq).trans hw'

/-- Steps are only counted up. -/
theorem run_clock {ε α : Type} {m : Prog Op Op.Res ε α} {out : Outcome ε α} {w w' : World}
    (h : run (step deps env) m w = (out, w')) : w.clock ≤ w'.clock := by
  have hrun := keeps_of_uses (step deps env) (P := fun _ => True)
    (I := fun w' => w.clock ≤ w'.clock) ?_ (Prog.uses_all (fun _ => trivial) m) w (Nat.le_refl _)
  · rwa [h] at hrun
  · intro o _ w' hw'
    have : w'.clock ≤ (step deps env o w').2.clock := by
      cases o <;> simp [step, World.tick]
    omega

end

end RenderMesh.Server
