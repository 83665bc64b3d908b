import RenderMesh.Mirror.Confined
import RenderMesh.Server.Async

/-!
# Reading a mirror

`LocalMirrorRepository::read_object` (`src/src/repositories/local_mirror.rs`): an
object's file, then the sidecar with its metadata. The path is normalized once
for the sidecar and once more for the file.
-/
namespace RenderMesh.Mirror

open RenderMesh.Core RenderMesh.Server

section
variable (deps : Deps)

/-- mirrors src/src/repositories/local_mirror.rs:79-92 -/
def readMetadata (originDir : PathBuf) (objectKey : Str) : Async ObjectMetadata := do
  let metadataPath ← .ofExcept (metadataSidecarPath deps originDir objectKey)
  let context := "read local object metadata ".toList ++ deps.display metadataPath
  let r ← io (.read metadataPath)
  match r with
  | .ok body =>
    match fromUtf8 body with
    | none =>
      .fail ((anyhow "stream did not contain valid UTF-8".toList).context context)
    | some content =>
      match deps.metadataOfJson content with
      | .ok metadata => pure metadata
      | .error error =>
        .fail ((anyhow error).context
          ("parse local object metadata ".toList ++ deps.display metadataPath))
  | .error .notFound => pure ObjectMetadata.empty
  | .error error => .fail ((ioError error).context context)

/-- mirrors src/src/repositories/local_mirror.rs:55-77 -/
def readObject (root : PathBuf) (originId path : Str) : Async (Option LocalObject) := do
  let dir ← .ofExcept (originDir root originId)
  let normalized ← .ofExcept (normalizeObjectPath path)
  let path ← .ofExcept (objectPath root originId normalized)
  let r ← io (.read path)
  match r with
  | .ok body => do
    let metadata ← readMetadata deps dir normalized
    pure (some ⟨body, metadata⟩)
  | .error .notFound => pure none
  | .error error => .fail ((ioError error).context ("read local object ".toList ++ deps.display path))

end

/-! ## Which calls it makes -/

section
variable (deps : Deps) {P : Op → Prop}

theorem readMetadata_uses {originDir : PathBuf} (hdir : originDir ≠ []) (key : Str)
    (hread : ∀ p, names originDir <+: names p → Inside originDir p → P (.fs (.read p))) :
    (readMetadata deps originDir key).Uses P := by
  refine Prog.uses_ofExcept_bind fun path hpath => ?_
  have hinside := metadataSidecarPath_inside hdir hpath
  obtain ⟨n, -, rfl⟩ := metadataSidecarPath_ok_iff.mp hpath
  have hbelow : names originDir <+: names (joinNames originDir (sidecarNames deps n)) := by
    rw [names_joinNames]
    exact List.prefix_append _ _
  refine Prog.uses_bind (uses_io (hread _ hbelow hinside)) fun r => ?_
  cases r with
  | error e => cases e <;> trivial
  | ok body =>
    simp only
    split
    · trivial
    · split <;> trivial

/-- It reads in the origin's directory only. -/
theorem readObject_uses {root : PathBuf} {originId : Str} (path : Str)
    (hread : validateOriginId originId = .ok () →
      ∀ p, names (child root originId) <+: names p → Inside (child root originId) p →
        P (.fs (.read p))) :
    (readObject deps root originId path).Uses P := by
  refine Prog.uses_ofExcept_bind fun d hd => ?_
  obtain ⟨rfl, hvalid⟩ := originDir_ok_iff.mp hd
  refine Prog.uses_bind (Prog.uses_ofExcept _ _) fun n => ?_
  refine Prog.uses_ofExcept_bind fun p hp => ?_
  have hinside := (objectPath_inside hp).1
  obtain ⟨-, k, -, rfl⟩ := objectPath_ok_iff.mp hp
  have hbelow : names (child root originId) <+: names (join (child root originId) k) := by
    rw [names_join]
    exact List.prefix_append _ _
  refine Prog.uses_bind (uses_io (hread hvalid _ hbelow hinside)) fun r => ?_
  cases r with
  | ok body =>
    exact Prog.uses_bind (readMetadata_uses deps (child_ne_nil hvalid) n (hread hvalid)) fun _ => trivial
  | error e => cases e <;> trivial

end

/-! ## What was read -/

/-- The metadata that a sidecar gives, when it is there and when it is not. -/
def MetadataAt (deps : Deps) (sidecar : Option (Node Bytes)) (metadata : ObjectMetadata) : Prop :=
  sidecar = none ∧ metadata = ObjectMetadata.empty ∨
    ∃ body content, sidecar = some (.file body) ∧ fromUtf8 body = some content ∧
      deps.metadataOfJson content = .ok metadata

theorem MetadataAt.unique {deps : Deps} {sidecar : Option (Node Bytes)} {m m' : ObjectMetadata}
    (h : MetadataAt deps sidecar m) (h' : MetadataAt deps sidecar m') : m = m' := by
  rcases h with ⟨hn, rfl⟩ | ⟨body, content, hs, hu, hm⟩ <;>
    rcases h' with ⟨hn', rfl⟩ | ⟨body', content', hs', hu', hm'⟩
  · rfl
  · rw [hn] at hs'; cases hs'
  · rw [hs] at hn'; cases hn'
  · rw [hs] at hs'
    cases hs'
    rw [hu] at hu'
    cases hu'
    rw [hm] at hm'
    exact Except.ok.inj hm'

/-- No regular file of the mirror stands on the way to `p`. -/
def ClearWay (mirror : List Name → Option (Node Bytes)) (p : List Name) : Prop :=
  ∀ s b, s ≠ [] → s <+: p → s ≠ p → mirror s ≠ some (.file b)

variable {deps : Deps} {env : Env}

theorem readFile_notFound {t : Tree} {p : List Name} {long : Name → Bool} {asDir : Bool}
    (h : t.readFile long p asDir = .error .notFound) :
    t.lookup p = none ∧ ∀ s b, s <+: p → t.lookup s ≠ some (.file b) := by
  unfold FileTree.readFile at h
  split at h
  · cases h
  · split at h <;> cases h
  · rename_i e he
    cases h
    exact ⟨t.stat_notFound long he, fun s b hs => t.stat_notFound_clear long he hs⟩

theorem io_read_ok {p : PathBuf} {r : Except IoErr Bytes} {w w' : World}
    (h : run (step deps env) (io (.read p)) w = (.ok r, w')) :
    w'.fs = w.fs ∧ (∀ body, r = .ok body → w.fs.lookup (names p) = some (.file body)) ∧
      (r = .error .notFound → w.fs.lookup (names p) = none ∧
        ∀ s b, s <+: names p → w.fs.lookup s ≠ some (.file b)) := by
  rcases io_ok h with ⟨-, rfl, rfl⟩ | ⟨left, -, rfl, rfl⟩
  · exact ⟨rfl, fun body hb => (w.fs.readFile_ok env.long hb).1, readFile_notFound⟩
  · exact ⟨rfl, (by simp), (by simp)⟩

/-- What is above something is a directory. -/
theorem dir_above {w : World} {d : PathBuf} {s p : List Name} (h : (w.under d p).isSome)
    (hs : s <+: p) (hne : s ≠ p) : w.under d s = some .dir := by
  obtain ⟨r, rfl⟩ := hs
  refine w.fs.above_dir (p := names d ++ s) (r := r) ?_ (by rw [List.append_assoc]; exact h)
  rintro rfl
  simp at hne

/-- The way to a file is clear. -/
theorem clearWay_of_file {w : World} {d : PathBuf} {p : List Name} {body : Bytes}
    (h : w.under d p = some (.file body)) : ClearWay (w.under d) p := by
  intro s b _ hs hne hb
  have hdir := dir_above (by rw [h]; rfl) hs hne
  cases hdir.symm.trans hb

theorem readMetadata_ok {dir : PathBuf} {key : Str} {metadata : ObjectMetadata} {w w' : World}
    (h : run (step deps env) (readMetadata deps dir key) w = (.ok metadata, w')) :
    ∃ n, normalizeObjectPath key = .ok n ∧
      MetadataAt deps (w.under dir (sidecarNames deps n)) metadata ∧
      ClearWay (w.under dir) (sidecarNames deps n) := by
  obtain ⟨path, w1, h1, h2⟩ := run_bind_ok _ |>.mp h
  cases hp : metadataSidecarPath deps dir key with
  | error e => rw [hp] at h1; cases h1
  | ok p =>
    rw [hp] at h1
    cases h1
    obtain ⟨n, hn, rfl⟩ := metadataSidecarPath_ok_iff.mp hp
    obtain ⟨r, w2, h3, h4⟩ := run_bind_ok _ |>.mp h2
    obtain ⟨-, hfile, hnone⟩ := io_read_ok h3
    rw [names_joinNames] at hfile hnone
    refine ⟨n, hn, ?_⟩
    cases r with
    | error e =>
      cases e <;> first
        | (cases h4
           exact ⟨Or.inl ⟨(hnone rfl).1, rfl⟩, fun s b _ hs _ =>
             (hnone rfl).2 _ b ((List.prefix_append_right_inj _).mpr hs)⟩)
        | cases h4
    | ok body =>
      simp only at h4
      cases hu : fromUtf8 body with
      | none => rw [hu] at h4; cases h4
      | some content =>
        rw [hu] at h4
        simp only at h4
        cases hj : deps.metadataOfJson content with
        | error e => rw [hj] at h4; cases h4
        | ok m =>
          rw [hj] at h4
          cases h4
          exact ⟨Or.inr ⟨body, content, hfile body rfl, hu, hj⟩, clearWay_of_file (hfile body rfl)⟩

/-- The path is normalized twice on the way to the file. -/
theorem readObject_ok {root : PathBuf} {id path : Str} {object : Option LocalObject} {w w' : World}
    (h : run (step deps env) (readObject deps root id path) w = (.ok object, w')) :
    ∃ n m, normalizeObjectPath path = .ok n ∧ normalizeObjectPath n = .ok m ∧
      match object with
      | none => w.under (child root id) (names m) = none ∧ ClearWay (w.under (child root id)) (names m)
      | some object => w.under (child root id) (names m) = some (.file object.body) ∧
          MetadataAt deps (w.under (child root id) (sidecarNames deps m)) object.metadata ∧
          ClearWay (w.under (child root id)) (sidecarNames deps m) := by
  obtain ⟨dir, w1, h1, k1⟩ := run_bind_ok _ |>.mp h
  obtain ⟨n, w2, h2, k2⟩ := run_bind_ok _ |>.mp k1
  obtain ⟨p, w3, h3, k3⟩ := run_bind_ok _ |>.mp k2
  obtain ⟨r, w4, h4, k4⟩ := run_bind_ok _ |>.mp k3
  have hdir : dir = child root id ∧ w1 = w := by
    cases hd : originDir root id with
    | error e => rw [hd] at h1; cases h1
    | ok d => rw [hd] at h1; cases h1; exact ⟨(originDir_ok_iff.mp hd).1, rfl⟩
  obtain ⟨rfl, rfl⟩ := hdir
  have hn : normalizeObjectPath path = .ok n ∧ w2 = w1 := by
    cases hn : normalizeObjectPath path with
    | error e => rw [hn] at h2; cases h2
    | ok m => rw [hn] at h2; cases h2; exact ⟨rfl, rfl⟩
  obtain ⟨hn, rfl⟩ := hn
  have hp : objectPath root id n = .ok p ∧ w3 = w2 := by
    cases hp : objectPath root id n with
    | error e => rw [hp] at h3; cases h3
    | ok q => rw [hp] at h3; cases h3; exact ⟨rfl, rfl⟩
  obtain ⟨hp, rfl⟩ := hp
  obtain ⟨-, m, hm, rfl⟩ := objectPath_ok_iff.mp hp
  obtain ⟨hfs, hfile, hnone⟩ := io_read_ok h4
  rw [names_join] at hfile hnone
  refine ⟨n, m, hn, hm, ?_⟩
  cases r with
  | error e =>
    cases e <;> first
      | (cases k4
         exact ⟨(hnone rfl).1, fun s b _ hs _ =>
           (hnone rfl).2 _ b ((List.prefix_append_right_inj _).mpr hs)⟩)
      | cases k4
  | ok body =>
    obtain ⟨metadata, w5, h5, h6⟩ := run_bind_ok _ |>.mp k4
    cases h6
    obtain ⟨m', hm', hmeta⟩ := readMetadata_ok h5
    rw [hm] at hm'
    cases hm'
    have hunder : w4.under (child root id) = w3.under (child root id) := by
      funext r
      rw [World.under, World.under, hfs]
    rw [hunder] at hmeta
    exact ⟨hfile body rfl, hmeta⟩

end RenderMesh.Mirror
