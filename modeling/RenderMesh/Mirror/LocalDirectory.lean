import RenderMesh.Core.StackWalk
import RenderMesh.Mirror.Keys
import RenderMesh.Server.Async

/-!
# Local origins

An origin that is a directory of the server's own disk (`LocalDirectoryStorageRepository`,
`src/src/repositories/local_directory_storage.rs`): its listing is a walk with a stack, its
objects are the files.

`Directory` is a disk that stands still. Each call on it may fail for a reason of its own
(`fault`), and then so must the listing.
-/
namespace RenderMesh.Mirror

open RenderMesh.Core RenderMesh.Server

/-- `std::fs::FileType`; `other` is neither a directory nor a regular file. -/
inductive FileType where
  | dir
  | file
  | other
  deriving DecidableEq, Repr

/-- `std::fs::Metadata`; the times in nanoseconds. -/
structure Metadata where
  fileType : FileType
  len : Nat
  modified : Option Nat
  created : Option Nat
  deriving DecidableEq, Repr

/-- Calls on the disk of a local origin; paths are absolute. -/
inductive LocalOp where
  | canonicalize (p : PathBuf)
  | metadata (p : PathBuf)
  | read (p : PathBuf)
  | readDir (p : PathBuf)
  /-- `next_entry` and `file_type`, which find the entry `p` -/
  | visit (p : PathBuf)

abbrev LocalOp.Val : LocalOp → Type
  | .canonicalize _ => PathBuf
  | .metadata _ => Metadata
  | .read _ => Bytes
  | .readDir _ => List Name
  | .visit _ => FileType

abbrev LocalOp.Res (o : LocalOp) : Type := Except IoErr o.Val

abbrev LocalProg := Prog LocalOp LocalOp.Res Error

/-- `call.await?`. -/
def localTry (o : LocalOp) : LocalProg o.Val := do
  let r ← Prog.perform o
  match r with
  | .ok v => pure v
  | .error e => .fail (ioError e)

/-- `call.await.with_context(..)?`. -/
def localContext (o : LocalOp) (context : Str) : LocalProg o.Val :=
  (localTry o).mapErr (·.context context)

/-- `Path::join` of a path that is not empty with a relative one. -/
def push (p : PathBuf) (k : Str) : PathBuf := if p.getLast? = some '/' then p ++ k else join p k

/-- The canonical path of a place. -/
def absolute (ns : List Name) : PathBuf := '/' :: keyOf ns

/-- `Component::as_os_str`. -/
def componentText : Component → Str
  | .rootDir => ['/']
  | .curDir => ['.']
  | .parentDir => ['.', '.']
  | .normal part => part

/-- mirrors src/src/repositories/local_directory_storage.rs:16-19; `new` canonicalizes the path. -/
structure LocalDirectoryStorageRepository where
  root : PathBuf
  canonical : root = absolute (names root)

namespace LocalDirectoryStorageRepository

/-- mirrors src/src/repositories/local_directory_storage.rs:141-155 -/
def relativeKey (root path : PathBuf) : Except Error Str :=
  if components root <+: components path then
    let relative := (components path).drop (components root).length
    .ok (unsegments (relative.map componentText))
  else .error ((anyhow "prefix not found".toList).context ("local origin path ".toList ++ path ++
    " is outside root ".toList ++ root))

/-- mirrors src/src/repositories/local_directory_storage.rs:157-162 -/
def reservedMetadataKey (key : Str) : Bool :=
  key = METADATA_DIR_NAME ||
    (METADATA_DIR_NAME.isPrefixOf key && (key.drop METADATA_DIR_NAME.length).head? = some '/')

section
variable (deps : Deps) (mimeGuess : Str → Option Str) (self : LocalDirectoryStorageRepository)

/-- The tag of a file with this body. -/
def etagOf (body : Bytes) : Str := "sha256:".toList ++ encodeHex (deps.sha256 body).bytes

/-- mirrors src/src/repositories/local_directory_storage.rs:133-139 -/
def contentEtag (path : PathBuf) : LocalProg Str := do
  let body ← localContext (.read path) ("hash local origin object ".toList ++ path)
  pure (etagOf deps body)

/-- mirrors src/src/repositories/local_directory_storage.rs:115-131 -/
def summaryForPath (path : PathBuf) (key : Str) (metadata : Metadata) :
    LocalProg RemoteObjectSummary := do
  let etag ← contentEtag deps path
  pure { key := key
         createdAt := metadata.created.map deps.rfc3339
         etag := some etag
         lastModified := metadata.modified.map deps.rfc3339
         size := metadata.len
         contentType := mimeGuess key
         cacheControl := none }

/-- The variables of the loop of `list_objects`; the top of the stack comes first. -/
structure Listing where
  output : List RemoteObjectSummary
  stack : List PathBuf

/-- One entry of a directory. -/
def listEntry (dir : PathBuf) (l : Listing) (entry : Name) : LocalProg Listing := do
  let path := push dir entry.text
  let fileType ← localTry (.visit path)
  let key ← .ofExcept (relativeKey self.root path)
  if reservedMetadataKey key then pure l
  else match fileType with
    | .dir => pure { l with stack := path :: l.stack }
    | .file => do
      let metadata ← localTry (.metadata path)
      let summary ← summaryForPath deps mimeGuess path key metadata
      pure { l with output := l.output ++ [summary] }
    | .other => pure l

/-- `left.key.cmp(&right.key)` is not `Greater`. -/
def keyLe (left right : RemoteObjectSummary) : Bool := (compare left.key right.key).isLE

/-- A turn of the loop of `list_objects`, which sorts what it has when it is over. -/
def listDirectory (l : Listing) : LocalProg (Listing ⊕ List RemoteObjectSummary) :=
  match l.stack with
  | [] => pure (.inr (l.output.mergeSort keyLe))
  | dir :: stack => do
    let entries ← localContext (.readDir dir) ("read local origin directory ".toList ++ dir)
    let l ← Prog.fold (listEntry deps mimeGuess self dir) { l with stack := stack } entries
    pure (.inl l)

/-- mirrors src/src/repositories/local_directory_storage.rs:54-83; `none` when the loop was not
over after `turns` directories. -/
def listObjects (turns : Nat) : LocalProg (Option (List RemoteObjectSummary)) :=
  Prog.iterate (listDirectory deps mimeGuess self) turns ⟨[], [self.root]⟩

/-- mirrors src/src/repositories/local_directory_storage.rs:38-49 -/
def objectPath (key : Str) : LocalProg PathBuf := do
  let key ← .ofExcept (normalizeRemoteKey key)
  let path := push self.root key
  let canonical ← localContext (.canonicalize path)
    ("canonicalize local origin object ".toList ++ path)
  if startsWith canonical self.root then pure canonical
  else .fail (anyhow "object path escapes local origin directory".toList)

/-- mirrors src/src/repositories/local_directory_storage.rs:85-112 -/
def getObject (key : Str) : LocalProg RemoteObject := do
  let normalizedKey ← .ofExcept (normalizeRemoteKey key)
  let path ← objectPath self normalizedKey
  let metadata ← localContext (.metadata path)
    ("read local origin object metadata ".toList ++ path)
  if metadata.fileType ≠ .file then
    .fail (anyhow ("local origin object ".toList ++ normalizedKey ++ " is not a file".toList))
  else do
    let body ← localContext (.read path) ("read local origin object ".toList ++ path)
    let etag ← contentEtag deps path
    pure { key := normalizedKey
           body := body
           etag := some etag
           lastModified := metadata.modified.map deps.rfc3339
           contentType := mimeGuess normalizedKey
           cacheControl := none }

end

end LocalDirectoryStorageRepository

/-! ## A disk that stands still -/

/-- What is on the disk; it has only names that it can hold. -/
structure Directory where
  tree : Tree
  long : Name → Bool
  modified : List Name → Option Nat
  created : List Name → Option Nat
  short : ∀ q, (tree.lookup q).isSome → ∀ x ∈ q, long x = false

namespace Directory

variable (dir : Directory)

def metadataAt (q : List Name) : Node Bytes → Metadata
  | .dir => ⟨.dir, 0, dir.modified q, dir.created q⟩
  | .file b => ⟨.file, b.length, dir.modified q, dir.created q⟩

/-- What is at a path that may end in `/`. -/
def resolve (p : PathBuf) : Except IoErr (Node Bytes) :=
  match dir.tree.stat dir.long (names p) with
  | .ok (.file b) => if asDir p then .error .notADirectory else .ok (.file b)
  | r => r

def exec : (o : LocalOp) → Except IoErr o.Val
  | .canonicalize p => (dir.resolve p).map fun _ => absolute (names p)
  | .metadata p => (dir.resolve p).map (dir.metadataAt (names p))
  | .read p => dir.tree.readFile dir.long (names p) (asDir p)
  | .readDir p =>
    match dir.resolve p with
    | .ok .dir => .ok (dir.tree.names (names p))
    | .ok (.file _) => .error .notADirectory
    | .error e => .error e
  | .visit p => (dir.resolve p).map fun node => (dir.metadataAt (names p) node).fileType

/-- The disk's answers; the state counts the calls. -/
def step (fault : Nat → Option IoErr) : Handler LocalOp LocalOp.Res Nat
  | o, calls =>
    (some (match fault calls with
      | some e => .error e
      | none => dir.exec o), calls + 1)

/-- Some call fails for a reason of its own. -/
def Faulty (fault : Nat → Option IoErr) : Prop := ∃ calls, fault calls ≠ none

end Directory

/-! ## Paths -/

theorem keyOf_snoc {ns : List Name} (h : ns ≠ []) (x : Name) :
    keyOf (ns ++ [x]) = keyOf ns ++ '/' :: x.text := by
  induction ns with
  | nil => exact absurd rfl h
  | cons y ns ih =>
    cases ns with
    | nil => simp [keyOf, unsegments_cons_cons]
    | cons z ns =>
      have hrest : keyOf (z :: ns ++ [x]) = keyOf (z :: ns) ++ '/' :: x.text := ih (by simp)
      simp only [keyOf, List.cons_append, List.map_cons, unsegments_cons_cons] at hrest ⊢
      rw [hrest, List.append_assoc, List.cons_append]

theorem names_absolute (ns : List Name) : names (absolute ns) = ns := by
  have h : absolute ns = join [] (keyOf ns) := rfl
  rw [h, names_join, names_keyOf]
  rfl

theorem keyOf_ne_nil {ns : List Name} (h : ns ≠ []) : keyOf ns ≠ [] := by
  intro hk
  have hnames := names_keyOf ns
  rw [hk] at hnames
  exact h hnames.symm

theorem asDir_absolute {ns : List Name} (h : ns ≠ []) : asDir (absolute ns) = false := by
  have h' : absolute ns = join [] (keyOf ns) := rfl
  rw [h', asDir_join]
  exact asDir_of_plain ((keyOf_names_iff (keyOf_ne_nil h)).mp (by rw [names_keyOf]))

theorem getLast?_absolute {ns : List Name} (h : ns ≠ []) : (absolute ns).getLast? ≠ some '/' := by
  obtain ⟨init, x, rfl⟩ : ∃ init x, ns = init ++ [x] :=
    ⟨_, _, (List.dropLast_append_getLast h).symm⟩
  have hlast : ∃ pre, absolute (init ++ [x]) = pre ++ x.text := by
    by_cases hinit : init = []
    · subst hinit
      exact ⟨['/'], by simp [absolute, keyOf]⟩
    · exact ⟨absolute init ++ ['/'], by simp [absolute, keyOf_snoc hinit]⟩
  obtain ⟨pre, hpre⟩ := hlast
  rw [hpre, List.getLast?_append_of_ne_nil _ x.valid.1]
  exact fun h => x.valid.2.2.2.1 (List.mem_of_getLast? h)

theorem push_absolute (ns : List Name) (x : Name) : push (absolute ns) x.text = absolute (ns ++ [x]) := by
  by_cases h : ns = []
  · subst h
    simp [push, absolute, keyOf]
  · rw [push, if_neg (getLast?_absolute h), join, absolute, absolute, keyOf_snoc h]
    rfl

theorem components_absolute (ns : List Name) :
    components (absolute ns) = .rootDir :: ns.map fun n => .normal n.text := by
  have hsegments : segments (absolute ns) = [] :: segments (keyOf ns) := segments_join [] (keyOf ns)
  have hname : ∀ n : Name, segComponent? n.text = some (.normal n.text) := fun n => by
    simp [segComponent?, n.valid.1, n.valid.2.1, n.valid.2.2.1]
  have hroot : (absolute ns).head? = some '/' := rfl
  rw [components, if_pos hroot, hsegments]
  by_cases h : ns = []
  · subst h
    rfl
  · rw [segments_keyOf h, List.filterMap_cons_none (by rfl), List.filterMap_map]
    simp [hname]

theorem startsWith_absolute (ns rel : List Name) : startsWith (absolute (ns ++ rel)) (absolute ns) = true := by
  simp [startsWith, components_absolute]

theorem relativeKey_absolute (ns rel : List Name) :
    LocalDirectoryStorageRepository.relativeKey (absolute ns) (absolute (ns ++ rel)) = .ok (keyOf rel) := by
  have hpre : components (absolute ns) <+: components (absolute (ns ++ rel)) := by
    simp [components_absolute]
  rw [LocalDirectoryStorageRepository.relativeKey, if_pos hpre]
  simp [components_absolute, keyOf, Function.comp_def, componentText]

/-! ## Calls on the disk -/

section
variable {dir : Directory} {fault : Nat → Option IoErr}

theorem localTry_yields {o : LocalOp} {v : o.Val} (h : dir.exec o = .ok v) :
    Yields (dir.step fault) (Directory.Faulty fault) (localTry o) v := by
  intro calls
  rw [localTry, run_bind, run_perform]
  simp only [Directory.step]
  cases hf : fault calls with
  | none =>
    rw [h]
    exact Or.inl ⟨_, rfl⟩
  | some e => exact Or.inr ⟨⟨calls, by rw [hf]; exact Option.some_ne_none e⟩, _, _, rfl⟩

theorem localContext_yields {o : LocalOp} {v : o.Val} (h : dir.exec o = .ok v) (context : Str) :
    Yields (dir.step fault) (Directory.Faulty fault) (localContext o context) v :=
  (localTry_yields h).mapErr

theorem localContext_ok {o : LocalOp} {v : o.Val} {context : Str} {calls calls' : Nat}
    (h : run (dir.step fault) (localContext o context) calls = (.ok v, calls')) :
    dir.exec o = .ok v := by
  have htry := (run_mapErr_ok _).mp h
  rw [localTry, run_bind, run_perform] at htry
  simp only [Directory.step] at htry
  cases hf : fault calls with
  | none =>
    rw [hf] at htry
    cases hexec : dir.exec o with
    | error e =>
      rw [hexec] at htry
      cases htry
    | ok v' =>
      rw [hexec] at htry
      cases htry
      rfl
  | some e =>
    rw [hf] at htry
    cases htry

namespace Directory

theorem resolve_absolute {q : List Name} {node : Node Bytes} (h : dir.tree.lookup q = some node) :
    dir.resolve (absolute q) = .ok node := by
  have hshort := dir.short q (by rw [h]; rfl)
  rw [resolve, names_absolute, FileTree.stat_succeeds dir.long h hshort]
  cases node with
  | dir => rfl
  | file b =>
    have hq : q ≠ [] := fun hq => by subst hq; cases h
    simp only [asDir_absolute hq]
    rfl

theorem exec_read {q : List Name} {b : Bytes} (h : dir.tree.lookup q = some (.file b)) :
    dir.exec (.read (absolute q)) = .ok b := by
  have hq : q ≠ [] := fun hq => by subst hq; cases h
  rw [exec, names_absolute, asDir_absolute hq]
  exact FileTree.readFile_succeeds dir.long h (dir.short q (by rw [h]; rfl))

theorem exec_metadata {q : List Name} {node : Node Bytes} (h : dir.tree.lookup q = some node) :
    dir.exec (.metadata (absolute q)) = .ok (dir.metadataAt q node) := by
  rw [exec, resolve_absolute h, names_absolute]
  rfl

theorem exec_visit {q : List Name} {node : Node Bytes} (h : dir.tree.lookup q = some node) :
    dir.exec (.visit (absolute q)) = .ok (dir.metadataAt q node).fileType := by
  rw [exec, resolve_absolute h, names_absolute]
  rfl

theorem exec_readDir {q : List Name} (h : dir.tree.lookup q = some .dir) :
    dir.exec (.readDir (absolute q)) = .ok (dir.tree.names q) := by
  rw [exec, resolve_absolute h, names_absolute]

end Directory

end

end RenderMesh.Mirror
