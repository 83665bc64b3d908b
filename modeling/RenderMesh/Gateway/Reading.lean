import RenderMesh.Gateway.Scene

/-!
# What can be read at a path

For each path that the gateway reads there are three cases (`readObject_cases`): an
object is there (`Holds`), none is, or reading fails (`Fails`). Both are stated on the
path and the tree. Reading fails where something stands that is not a readable object:
the way is barred, a directory is at the place that the second normalization leads to,
the sidecar cannot be read or says nothing; or the second normalization refuses what
the first one returned.
-/
namespace RenderMesh.Gateway

open RenderMesh.Core RenderMesh.Mirror RenderMesh.Server

/-- A public request for an internal path. -/
def Denied (access : ObjectReadAccess) (path : Str) : Prop :=
  access = .pub ∧ isReservedRendermeshPath path = true

/-- The texts under which `path` is looked up: `text` for the template, and what a second
normalization makes of it for the file and the sidecar. -/
structure ReadsAs (path text fileText : Str) : Prop where
  once : normalizeObjectPath path = .ok text
  twice : normalizeObjectPath text = .ok fileText

/-- The file of the object that `normalize_object_path` calls `m`. -/
def objectNames (id m : Str) : List Name := names id ++ names m

def sidecarAt (deps : Deps) (id m : Str) : List Name := names id ++ sidecarNames deps m

namespace Scene

variable (s : Scene)

/-- The metadata probe finds a directory. -/
def IsDir (id n : Str) : Prop :=
  s.fs.lookup (objectNames id n) = some .dir ∧ ¬ s.fs.Barred s.long (objectNames id n)

/-- The sidecar cannot be read, or is not metadata. -/
def SidecarFails (deps : Deps) (id m : Str) : Prop :=
  s.fs.Unreadable s.long (sidecarAt deps id m) false ∨
    ∃ body, s.fs.lookup (sidecarAt deps id m) = some (.file body) ∧
      (fromUtf8 body = none ∨
        ∃ content e, fromUtf8 body = some content ∧ deps.metadataOfJson content = .error e)

/-- `read_object` fails on the text `n` that the first normalization returned. -/
def ReadFails (deps : Deps) (id n : Str) : Prop :=
  (∃ e, normalizeObjectPath n = .error e) ∨
    ∃ m, normalizeObjectPath n = .ok m ∧
      (s.fs.Unreadable s.long (objectNames id m) (asDir m) ∨
        (∃ body, s.fs.lookup (objectNames id m) = some (.file body)) ∧ s.SidecarFails deps id m)

/-- Reading the object at a path fails. -/
def Fails (deps : Deps) (id : Str) (access : ObjectReadAccess) (path : Str) : Prop :=
  ¬ Denied access path ∧ validateOriginId id = .ok () ∧
    ∃ n, normalizeObjectPath path = .ok n ∧ ¬ s.IsDir id n ∧ s.ReadFails deps id n

/-- The object that is read at a path. -/
def Holds (deps : Deps) (id : Str) (access : ObjectReadAccess) (path : Str)
    (object : LocalObject) : Prop :=
  ¬ Denied access path ∧ validateOriginId id = .ok () ∧ ∃ n m, normalizeObjectPath path = .ok n ∧
    ¬ s.IsDir id n ∧ normalizeObjectPath n = .ok m ∧
    s.fs.lookup (objectNames id m) = some (.file object.body) ∧
    MetadataAt deps (s.fs.lookup (sidecarAt deps id m)) object.metadata

/-! ## Calls -/

theorem mirrorValue_io (o : FsOp) : s.mirrorValue (io o) = .ok (o.exec s.long s.fs).1 :=
  eval_perform _ rfl

theorem value_inMirror {α : Type} (m : Async α) : s.value (inMirror m) = s.mirrorValue m := by
  rw [Scene.value, inMirror, eval_embed]
  congr 1
  funext o
  simp [Scene.answer]

theorem value_ask {o : GatewayOp} {r : o.Res} (h : s.answer o = some r) : s.value (ask o) = .ok r :=
  eval_perform _ h

/-- The metadata that is read, or that reading it fails. -/
theorem readMetadata_cases (deps : Deps) {id n m : Str} (hm : normalizeObjectPath n = .ok m) :
    (∃ metadata, s.mirrorValue (readMetadata deps id n) = .ok metadata ∧
      MetadataAt deps (s.fs.lookup (sidecarAt deps id m)) metadata ∧ ¬ s.SidecarFails deps id m) ∨
    ∃ e, s.mirrorValue (readMetadata deps id n) = .err e ∧ s.SidecarFails deps id m := by
  have hpath : metadataSidecarPath deps id n = .ok (joinNames id (sidecarNames deps m)) :=
    metadataSidecarPath_ok_iff.mpr ⟨m, hm, rfl⟩
  have hread : ((FsOp.read (joinNames id (sidecarNames deps m))).exec s.long s.fs).1 =
      s.fs.readFile s.long (sidecarAt deps id m) false := by
    rw [FsOp.exec, names_joinNames, asDir_joinNames _ (by simp [sidecarNames]), sidecarAt]
  simp only [readMetadata, mirrorValue, eval_bind, eval_ofExcept, hpath, Outcome.bind_ok]
  rw [show eval s.serverAnswer (io (.read (joinNames id (sidecarNames deps m)))) = _ from
    s.mirrorValue_io _, hread, Outcome.bind_ok]
  unfold SidecarFails
  rcases s.fs.readFile_cases s.long (sidecarAt deps id m) false with
    ⟨body, hr, hl, hu⟩ | ⟨hr, hl, hu⟩ | ⟨e, he, hr, hu⟩
  · rw [hr, hl]
    cases hb : fromUtf8 body with
    | none => exact Or.inr ⟨_, by simp only [hb]; rfl, Or.inr ⟨body, rfl, Or.inl hb⟩⟩
    | some content =>
      cases hc : deps.metadataOfJson content with
      | ok metadata =>
        refine Or.inl ⟨metadata, by simp [hb, hc], Or.inr ⟨body, content, rfl, hb, hc⟩, ?_⟩
        intro h
        rcases h with h | ⟨body', hl', h⟩
        · exact hu h
        · cases hl'
          rcases h with h | ⟨content', e, h, hj⟩
          · rw [hb] at h
            cases h
          · rw [hb] at h
            cases h
            rw [hc] at hj
            cases hj
      | error e =>
        refine Or.inr ⟨_, by simp only [hb, hc]; rfl, Or.inr ⟨body, rfl, Or.inr ⟨content, e, hb, hc⟩⟩⟩
  · rw [hr, hl]
    refine Or.inl ⟨ObjectMetadata.empty, rfl, Or.inl ⟨rfl, rfl⟩, ?_⟩
    intro h
    rcases h with h | ⟨body, h, -⟩
    · exact hu h
    · cases h
  · rw [hr]
    cases e <;> first | exact absurd rfl he | exact Or.inr ⟨_, rfl, Or.inl hu⟩

theorem mirrorReadObject_cases (deps : Deps) {id path n : Str}
    (hv : validateOriginId id = .ok ()) (hn : normalizeObjectPath path = .ok n) :
    (∃ object m, s.mirrorValue (Mirror.readObject deps storeRoot id path) = .ok (some object) ∧
      normalizeObjectPath n = .ok m ∧ s.fs.lookup (objectNames id m) = some (.file object.body) ∧
      MetadataAt deps (s.fs.lookup (sidecarAt deps id m)) object.metadata ∧
      ¬ s.ReadFails deps id n) ∨
    (∃ m, s.mirrorValue (Mirror.readObject deps storeRoot id path) = .ok none ∧
      normalizeObjectPath n = .ok m ∧ s.fs.lookup (objectNames id m) = none ∧
      ¬ s.ReadFails deps id n) ∨
    ∃ e, s.mirrorValue (Mirror.readObject deps storeRoot id path) = .err e ∧
      s.ReadFails deps id n := by
  have hdir : originDir storeRoot id = .ok id := originDir_ok_iff.mpr ⟨rfl, hv⟩
  simp only [Mirror.readObject, mirrorValue, eval_bind, eval_ofExcept, hdir, hn, Outcome.bind_ok]
  cases hm : normalizeObjectPath n with
  | error e =>
    have hp : ∃ e, objectPath storeRoot id n = .error e := by
      cases hp : objectPath storeRoot id n with
      | error e => exact ⟨e, rfl⟩
      | ok p =>
        obtain ⟨-, m, hm', -⟩ := objectPath_ok_iff.mp hp
        rw [hm] at hm'
        cases hm'
    obtain ⟨e', hp⟩ := hp
    rw [hp]
    exact Or.inr (Or.inr ⟨e', rfl, Or.inl ⟨e, hm⟩⟩)
  | ok m =>
    have hp : objectPath storeRoot id n = .ok (join id m) := objectPath_ok_iff.mpr ⟨hv, m, hm, rfl⟩
    have hread : ((FsOp.read (join id m)).exec s.long s.fs).1 =
        s.fs.readFile s.long (objectNames id m) (asDir m) := by
      rw [FsOp.exec, names_join, asDir_join, objectNames]
    simp only [hp, Outcome.bind_ok]
    rw [show eval s.serverAnswer (io (.read (join id m))) = _ from s.mirrorValue_io _, hread,
      Outcome.bind_ok]
    have hfails : s.ReadFails deps id n ↔ s.fs.Unreadable s.long (objectNames id m) (asDir m) ∨
        (∃ body, s.fs.lookup (objectNames id m) = some (.file body)) ∧
          s.SidecarFails deps id m := by
      simp [ReadFails, hm]
    rw [hfails]
    rcases s.fs.readFile_cases s.long (objectNames id m) (asDir m) with
      ⟨body, hr, hl, hu⟩ | ⟨hr, hl, hu⟩ | ⟨e, he, hr, hu⟩
    · rw [hr]
      rcases s.readMetadata_cases deps hm with ⟨metadata, hv, hmeta, hs⟩ | ⟨e, hv, hs⟩
      · refine Or.inl ⟨⟨body, metadata⟩, m, ?_, rfl, hl, hmeta, ?_⟩
        · simp only [eval_bind]
          rw [show eval s.serverAnswer (readMetadata deps id n) = _ from hv]
          rfl
        · exact fun h => h.elim hu fun h => hs h.2
      · refine Or.inr (Or.inr ⟨e, ?_, Or.inr ⟨⟨body, hl⟩, hs⟩⟩)
        simp only [eval_bind]
        rw [show eval s.serverAnswer (readMetadata deps id n) = _ from hv]
        rfl
    · rw [hr]
      refine Or.inr (Or.inl ⟨m, rfl, rfl, hl, ?_⟩)
      intro h
      rcases h with h | ⟨⟨body, h⟩, -⟩
      · exact hu h
      · rw [hl] at h
        cases h
    · rw [hr]
      cases e <;> first | exact absurd rfl he | exact Or.inr (Or.inr ⟨_, rfl, Or.inl hu⟩)

/-- An object is read, or there is none, or reading fails. -/
theorem readObject_cases (deps : GatewayDeps) (id path : Str) (access : ObjectReadAccess) :
    (∃ object, s.value (readObject deps id path access) = .ok (some object) ∧
      s.Holds deps.toDeps id access path object ∧ ¬ s.Fails deps.toDeps id access path) ∨
    (s.value (readObject deps id path access) = .ok none ∧
      (∀ object, ¬ s.Holds deps.toDeps id access path object) ∧
      ¬ s.Fails deps.toDeps id access path) ∨
    ∃ e, s.value (readObject deps id path access) = .err e ∧
      s.Fails deps.toDeps id access path := by
  by_cases hden : Denied access path
  · refine Or.inr (Or.inl ⟨?_, fun _ h => h.1 hden, fun h => h.1 hden⟩)
    rw [readObject, if_pos (by simpa [Denied] using hden)]
    rfl
  rw [readObject, if_neg (by simpa [Denied] using hden)]
  cases hp : objectPath storeRoot id path with
  | error e =>
    have hnone : ¬ (validateOriginId id = .ok () ∧ ∃ n, normalizeObjectPath path = .ok n) := by
      rintro ⟨hv, n, hn⟩
      rw [objectPath_ok_iff.mpr ⟨hv, n, hn, rfl⟩] at hp
      cases hp
    refine Or.inr (Or.inl ⟨rfl, ?_, ?_⟩)
    · rintro object ⟨-, hv, n, -, hn, -⟩
      exact hnone ⟨hv, n, hn⟩
    · rintro ⟨-, hv, n, hn, -⟩
      exact hnone ⟨hv, n, hn⟩
  | ok p =>
    obtain ⟨hv, n, hn, rfl⟩ := objectPath_ok_iff.mp hp
    simp only [Scene.value, eval_bind]
    rw [show eval s.answer (inMirror (io (.metadata (join (child storeRoot id) n)))) = _ from
      (s.value_inMirror _).trans (s.mirrorValue_io _), Outcome.bind_ok]
    by_cases hdir : s.IsDir id n
    · have hprobe : ((FsOp.metadata (join (child storeRoot id) n)).exec s.long s.fs).1 = .ok true := by
        rw [FsOp.exec, names_join]
        exact (s.fs.metadata_dir_iff s.long _ _).mpr hdir
      rw [hprobe]
      refine Or.inr (Or.inl ⟨rfl, ?_, ?_⟩)
      · rintro object ⟨-, -, n', m, hn', h, -⟩
        rw [hn] at hn'
        cases hn'
        exact h hdir
      · rintro ⟨-, -, n', hn', h, -⟩
        rw [hn] at hn'
        cases hn'
        exact h hdir
    · have hprobe : ((FsOp.metadata (join (child storeRoot id) n)).exec s.long s.fs).1 ≠ .ok true := by
        rw [FsOp.exec, names_join]
        exact fun h => hdir ((s.fs.metadata_dir_iff s.long _ _).mp h)
      have hrest : ∀ probe, probe ≠ .ok true → readProbed deps id path probe =
          inMirror (Mirror.readObject deps.toDeps storeRoot id path) := by
        intro probe hprobe
        unfold readProbed
        split
        · exact absurd rfl hprobe
        · rfl
      rw [hrest _ hprobe]
      rw [show eval s.answer (inMirror (Mirror.readObject deps.toDeps storeRoot id path)) = _ from
        s.value_inMirror _]
      have hfails : s.Fails deps.toDeps id access path ↔ s.ReadFails deps.toDeps id n := by
        simp [Fails, hden, hv, hn, hdir]
      rw [hfails]
      rcases s.mirrorReadObject_cases deps.toDeps hv hn with
        ⟨object, m, hr, hm, hl, hmeta, hf⟩ | ⟨m, hr, hm, hl, hf⟩ | ⟨e, hr, hf⟩
      · exact Or.inl ⟨object, hr, ⟨hden, hv, n, m, hn, hdir, hm, hl, hmeta⟩, hf⟩
      · refine Or.inr (Or.inl ⟨hr, ?_, hf⟩)
        rintro object ⟨-, -, n', m', hn', -, hm', hl', -⟩
        rw [hn] at hn'
        cases hn'
        rw [hm] at hm'
        cases hm'
        rw [hl] at hl'
        cases hl'
      · exact Or.inr (Or.inr ⟨e, hr, hf⟩)

end Scene

/-! ## Objects that a run has read -/

section
variable {deps : GatewayDeps} {env : Env} {hooks : Hooks}

theorem run_inMirror {α : Type} (m : Async α) (w : World) :
    run (gatewayStep deps.toDeps env hooks) (inMirror m) w = run (step deps.toDeps env) m w := by
  rw [inMirror, run_embed]
  congr 1
  funext o w
  exact Prod.ext (by simp [gatewayStep]) rfl

theorem readProbed_some {id path : Str} {probe : Except IoErr Bool} {object : LocalObject} {w w' : World}
    (h : run (gatewayStep deps.toDeps env hooks) (readProbed deps id path probe) w =
      (.ok (some object), w')) :
    run (step deps.toDeps env) (Mirror.readObject deps.toDeps storeRoot id path) w =
      (.ok (some object), w') := by
  rw [← @run_inMirror deps env hooks]
  unfold readProbed at h
  split at h
  · cases h
  · exact h

/-- An object that was read has the body of its file and the metadata of its sidecar, and both
are as they were. -/
theorem readObject_some {id path : Str} {access : ObjectReadAccess} {object : LocalObject}
    {w w' : World} (h : run (gatewayStep deps.toDeps env hooks) (readObject deps id path access) w =
      (.ok (some object), w')) :
    (∃ n m, normalizeObjectPath path = .ok n ∧ normalizeObjectPath n = .ok m ∧
      w.under id (names m) = some (.file object.body) ∧
      MetadataAt deps.toDeps (w.under id (sidecarNames deps.toDeps m)) object.metadata) ∧
    w'.templates = w.templates := by
  unfold readObject at h
  split at h
  · cases h
  · split at h
    · cases h
    · rename_i p hp
      obtain ⟨probe, w1, hprobe, hread⟩ := run_bind_ok _ |>.mp h
      have hrest := readProbed_some hread
      rw [run_inMirror] at hprobe
      have hlooks : (io (.metadata p)).Uses Op.Reads :=
        uses_io fun _ hw => hw
      have hsame := run_reads deps.toDeps env hlooks w
      rw [hprobe] at hsame
      obtain ⟨n, m, hn, hm, hbody, hmeta, -⟩ := readObject_ok hrest
      have hunder : w1.under id = w.under id := funext fun r => hsame.2 _
      rw [show child storeRoot id = id from rfl, hunder] at hbody hmeta
      have hreads : (Mirror.readObject deps.toDeps storeRoot id path).Uses Op.Reads :=
        readObject_uses deps.toDeps path fun _ _ _ _ _ hw => hw
      have hsame' := run_reads deps.toDeps env hreads w1
      rw [hrest] at hsame'
      exact ⟨⟨n, m, hn, hm, hbody, hmeta⟩, hsame'.1.templates.trans hsame.1.templates⟩

end

end RenderMesh.Gateway
