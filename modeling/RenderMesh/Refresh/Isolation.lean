import RenderMesh.Refresh.Snapshot

/-!
# What a refresh touches before it activates

Everything up to the swap happens in `.rendermesh-sync`: staging, the checks on
what was staged, and cleaning up after a failure. `stageOriginSync_within`,
`prepareActivation_within` and `removeDirIfExists_within` say so for all replies
and faults; `run_within` turns that into "no other file and no store changes".
-/
namespace RenderMesh.Refresh

open RenderMesh.Core RenderMesh.Mirror RenderMesh.Server RenderMesh.Cdn

def syncName : Name := ⟨stagingRoot, by decide⟩

/-- Operations that stay in the staging area. -/
abbrev Staged : Op → Prop := Op.Within [syncName]

/-- A path in the staging area. -/
def InStaging (p : PathBuf) : Prop := [syncName] <+: names p

section
variable {dir : List Name}

theorem below_join {p : PathBuf} (h : dir <+: names p) (k : Str) : dir <+: names (join p k) := by
  rw [names_join]
  exact h.trans (List.prefix_append _ _)

theorem below_joinNames {p : PathBuf} (h : dir <+: names p) (ns : List Name) :
    dir <+: names (joinNames p ns) := by
  rw [names_joinNames]
  exact h.trans (List.prefix_append _ _)

/-- Paths along a path of the directory are in it or lead to it. -/
theorem along_below {p : PathBuf} (h : dir <+: names p) {q : List Name} (hq : q <+: names p) :
    dir <+: q ∨ q <+: dir := List.prefix_or_prefix_of_prefix h hq

/-! ## Calls in one directory -/

theorem within_createDirAll {p : PathBuf} (h : dir <+: names p) :
    Op.Within dir (.fs (.createDirAll p)) := fun _ hq => along_below h hq

theorem within_target {p : PathBuf} (h : dir <+: names p) {q : List Name} (hq : q = names p) :
    dir <+: q ∨ q <+: dir := Or.inl (hq ▸ h)

theorem within_removeDirAll {p : PathBuf} (h : dir <+: names p) :
    Op.Within dir (.fs (.removeDirAll p)) := fun _ hq => Or.inl (h.trans hq)

/-- Code in a directory is code in what the directory is in. -/
theorem within_mono {area : List Name} (h : area <+: dir) {o : Op} (ho : o.Within dir) :
    o.Within area := by
  cases o with
  | fs o =>
    intro q hq
    rcases ho q hq with hd | hd
    · exact Or.inl (h.trans hd)
    · exact List.prefix_or_prefix_of_prefix h hd
  | _ => exact ho

end

section
variable (deps : Deps) {area : List Name}

theorem removeDirIfExists_within {p : PathBuf} (h : area <+: names p) :
    (removeDirIfExists deps p).Uses (Op.Within area) :=
  uses_ioUnlessNotFound (within_removeDirAll h) _

theorem copyEntry_within (source : PathBuf) {target : PathBuf} (h : area <+: names target)
    (e : WalkEvent Name) : (copyEntry deps source target e).Uses (Op.Within area) := by
  cases e with
  | readDir rel => exact uses_ioContext (fun _ hq => absurd hq id) _
  | entry rel isDir =>
    refine Prog.uses_bind (uses_ioTry fun _ hq => absurd hq id) fun _ => ?_
    have ht := below_joinNames h rel
    cases isDir with
    | true => exact uses_ioContext (within_createDirAll ht) _
    | false => exact uses_ioContext (fun _ hq => within_target ht hq) _

theorem copyDirContents_within (source : PathBuf) {target : PathBuf} (h : area <+: names target) :
    (copyDirContents deps source target).Uses (Op.Within area) := by
  refine Prog.uses_bind (uses_ioContext (within_createDirAll h) _) fun _ => ?_
  refine Prog.uses_bind (uses_call trivial) fun events => ?_
  exact Prog.uses_each fun e _ => copyEntry_within deps source h e

theorem prepareStagingDir_within (originDir : PathBuf) {stagingDir : PathBuf}
    (h : area <+: names stagingDir) : (prepareStagingDir deps originDir stagingDir).Uses (Op.Within area) := by
  refine Prog.uses_bind (removeDirIfExists_within deps h) fun _ => ?_
  refine Prog.uses_bind (uses_io fun _ hq => absurd hq id) fun r => ?_
  cases r with
  | ok v => exact copyDirContents_within deps originDir h
  | error e => exact uses_ioContext (within_createDirAll h) _

/-- The segments of a staging path that object paths are made of. -/
def GoodSegments (p : PathBuf) : Prop := ∀ s ∈ segments p, blank s = true ∨ ValidName s

theorem GoodSegments.join {p : PathBuf} (h : GoodSegments p) {k : Str} (hk : Accepted k) :
    GoodSegments (join p k) := by
  intro s hs
  rw [Core.join, segments_join, List.mem_append] at hs
  rcases hs with hs | hs
  · exact h s hs
  · rcases hk.segment hs with rfl | rfl | hv
    · exact Or.inl rfl
    · exact Or.inl rfl
    · exact Or.inr hv

theorem GoodSegments.joinNames {p : PathBuf} (h : GoodSegments p) (ns : List Name) :
    GoodSegments (joinNames p ns) := by
  induction ns generalizing p with
  | nil => exact h
  | cons n ns ih =>
    refine ih (p := Core.join p n.text) fun s hs => ?_
    rw [Core.join, segments_join, segments_of_no_slash n.valid.2.2.2.1, List.mem_append,
      List.mem_singleton] at hs
    rcases hs with hs | rfl
    · exact h s hs
    · exact Or.inr n.valid

theorem parent_within {p parent : PathBuf} (h : area <+: names p) (hg : GoodSegments p)
    (hp : parent? p = some parent) : Op.Within area (.fs (.createDirAll parent)) := by
  intro q hq
  refine along_below h (hq.trans ?_)
  rw [names_parent? hg hp]
  exact List.dropLast_prefix _

theorem writeObject_within {dir : PathBuf} (hd : dir ≠ []) (h : area <+: names dir)
    (hg : GoodSegments dir) (object : RemoteObject) : (writeObject deps dir object).Uses (Op.Within area) := by
  refine Prog.uses_ofExcept_bind fun key hkey => ?_
  refine Prog.uses_ofExcept_bind fun path hpath => ?_
  obtain ⟨rfl, hk⟩ := (remoteObjectPath_ok_iff hd).mp hpath
  refine Prog.uses_bind (uses_withParent fun parent hp =>
    uses_ioContext (parent_within (below_join h _) (hg.join hk) hp) _) fun _ => ?_
  refine Prog.uses_bind (uses_ioContext (fun _ hq => within_target (below_join h _) hq) _) fun _ => ?_
  refine Prog.uses_ofExcept_bind fun sidecar hside => ?_
  obtain ⟨n, -, rfl⟩ := metadataSidecarPath_ok_iff.mp hside
  refine Prog.uses_bind (uses_withParent fun parent hp =>
    uses_ioContext (parent_within (below_joinNames h _) (hg.joinNames _) hp) _) fun _ => ?_
  exact uses_ioContext (fun _ hq => within_target (below_joinNames h _) hq) _

theorem removeDeletedObjects_within {dir : PathBuf} (h : area <+: names dir)
    (keys : Std.TreeSet Str) : (removeDeletedObjects deps dir keys).Uses (Op.Within area) := by
  refine Prog.uses_bind (uses_call trivial) fun events => ?_
  refine Prog.uses_each fun e _ => ?_
  cases e with
  | readDir rel => exact uses_ioUnlessNotFound (fun _ hq => absurd hq id) _
  | entry rel isDir =>
    refine Prog.uses_bind (uses_ioTry fun _ hq => absurd hq id) fun _ => ?_
    cases isDir with
    | true => trivial
    | false =>
      refine Prog.uses_ofExcept_bind fun key _ => ?_
      split
      · trivial
      · refine Prog.uses_bind (uses_ioContext (fun _ hq => within_target (below_joinNames h _) hq) _)
          fun _ => ?_
        refine Prog.uses_ofExcept_bind fun sidecar hside => ?_
        obtain ⟨n, -, rfl⟩ := metadataSidecarPath_ok_iff.mp hside
        exact uses_ioUnlessNotFound (fun _ hq => within_target (below_joinNames h _) hq) _

theorem removeOrphanMetadataSidecars_within {dir : PathBuf} (h : area <+: names dir)
    (keys : Std.TreeSet Str) : (removeOrphanMetadataSidecars deps dir keys).Uses (Op.Within area) := by
  refine Prog.uses_bind (Prog.uses_ofExcept _ _) fun expected => ?_
  refine Prog.uses_bind (uses_call trivial) fun events => ?_
  refine Prog.uses_each fun e _ => ?_
  cases e with
  | readDir rel => exact uses_ioUnlessNotFound (fun _ hq => absurd hq id) _
  | entry rel isDir =>
    refine Prog.uses_bind (uses_ioTry fun _ hq => absurd hq id) fun _ => ?_
    cases isDir with
    | true => trivial
    | false =>
      simp only [Bool.false_eq_true, if_false]
      split
      · trivial
      · exact uses_ioContext (fun _ hq => within_target (below_joinNames (below_join h _) _) hq) _

theorem stageOriginDir_within (originId : Str) {dir : PathBuf} (hd : dir ≠ [])
    (h : area <+: names dir) (hg : GoodSegments dir) (previous : Option OriginFreshnessIndex) :
    (stageOriginDir deps originId dir previous).Uses (Op.Within area) := by
  refine Prog.uses_bind (uses_ioContext (within_createDirAll h) _) fun _ => ?_
  refine Prog.uses_bind (uses_call trivial) fun r => ?_
  refine Prog.uses_bind (Prog.uses_ofExcept _ _) fun summaries => ?_
  refine Prog.uses_bind (uses_call trivial) fun now => ?_
  refine Prog.uses_bind (Prog.uses_ofExcept _ _) fun index => ?_
  refine Prog.uses_bind (Prog.uses_fold (fun n key _ => ?_) 0) fun downloaded => ?_
  · refine Prog.uses_bind (uses_call trivial) fun r => ?_
    refine Prog.uses_bind (Prog.uses_ofExcept _ _) fun object => ?_
    refine Prog.uses_bind (Prog.uses_ofExcept _ _) fun summary => ?_
    refine Prog.uses_bind (Prog.uses_ofExcept _ _) fun _ => ?_
    exact Prog.uses_bind (writeObject_within deps hd h hg object) fun _ => trivial
  · refine Prog.uses_bind (removeDeletedObjects_within deps h _) fun _ => ?_
    exact Prog.uses_bind (removeOrphanMetadataSidecars_within deps h _) fun _ => trivial

theorem stagingName_valid {originId : Str} (hid : validateOriginId originId = .ok ())
    (timestamp : Nat) : validateOriginId (stagingName deps originId timestamp) = .ok () := by
  obtain ⟨h1, h2⟩ := validateOriginId_ok_iff.mp hid
  have hnum : ∀ n, ∀ c ∈ showNat n, (c.isAlphanum || c == '_' || c == '-') = true := by
    intro n c hc
    have := Nat.isDigit_of_mem_toDigits (b := 10) (by omega) (by omega) hc
    simp [Char.isAlphanum, this]
  refine validateOriginId_ok_iff.mpr ⟨by simp [stagingName, h1], fun c hc => ?_⟩
  simp only [stagingName, List.mem_append, List.mem_cons] at hc
  rcases hc with (hc | rfl | hc) | rfl | hc
  · exact h2 c hc
  · rfl
  · exact hnum _ c hc
  · rfl
  · exact hnum _ c hc

/-- The path of a staging directory. -/
def stagingPath (originId : Str) (timestamp : Nat) : PathBuf :=
  join stagingRoot (stagingName deps originId timestamp)

section
variable {originId : Str} (hid : validateOriginId originId = .ok ()) (timestamp : Nat)

theorem stagingPath_ne_nil : stagingPath deps originId timestamp ≠ [] := by
  simp [stagingPath, join]

include hid

theorem names_stagingPath :
    names (stagingPath deps originId timestamp) =
      [syncName, ⟨_, origin_validName (stagingName_valid deps hid timestamp)⟩] := by
  rw [stagingPath, names_join, names_origin (stagingName_valid deps hid timestamp)]
  rfl

theorem stagingPath_inStaging : InStaging (stagingPath deps originId timestamp) := by
  rw [InStaging, names_stagingPath deps hid]
  exact ⟨_, rfl⟩

theorem stagingPath_goodSegments : GoodSegments (stagingPath deps originId timestamp) := by
  have hv := origin_validName (stagingName_valid deps hid timestamp)
  intro s hs
  rw [stagingPath, join, segments_join, segments_of_no_slash hv.2.2.2.1, List.mem_append,
    List.mem_singleton] at hs
  rcases hs with hs | rfl
  · have : s = stagingRoot := by simpa [segments_of_no_slash (show '/' ∉ stagingRoot by decide)] using hs
    subst this
    exact Or.inr syncName.valid
  · exact Or.inr hv

end

theorem stagingDir_run {env : Env} {originId : Str} (hid : validateOriginId originId = .ok ())
    (w : World) :
    run (step deps env) (stagingDir deps originId) w =
      (.ok (stagingPath deps originId (env.nanos w.clock)), w.tick) := by
  rw [stagingDir, originDir_ok_iff.mpr ⟨rfl, hid⟩]
  rfl

/-- Whatever the clock says, a staging stays in a staging directory of its origin. -/
theorem stageOriginSync_own (originId : Str) (previous : Option OriginFreshnessIndex) :
    (stageOriginSync deps originId previous).Uses fun o =>
      validateOriginId originId = .ok () ∧ ∃ t, o.Within (names (stagingPath deps originId t)) := by
  refine Prog.uses_ofExcept_bind fun dir hdir => ?_
  obtain ⟨-, hid⟩ := originDir_ok_iff.mp hdir
  rw [stagingDir, hdir]
  refine Prog.uses_bind (m := call .now) (uses_call ⟨hid, 0, trivial⟩) fun timestamp => ?_
  have own : ∀ {α : Type} {m : Async α},
      m.Uses (Op.Within (names (stagingPath deps originId timestamp))) →
      m.Uses fun o => validateOriginId originId = .ok () ∧
        ∃ t, o.Within (names (stagingPath deps originId t)) :=
    fun hm => hm.mono fun _ ho => ⟨hid, timestamp, ho⟩
  refine Prog.uses_bind (own (prepareStagingDir_within deps dir List.prefix_rfl)) fun _ => ?_
  refine Prog.uses_bind (Prog.uses_attempt (own (stageOriginDir_within deps originId
    (stagingPath_ne_nil deps timestamp) List.prefix_rfl (stagingPath_goodSegments deps hid timestamp)
    previous))) fun r => ?_
  cases r with
  | ok v => trivial
  | error e =>
    exact Prog.uses_bind (own (removeDirIfExists_within deps List.prefix_rfl)) fun _ => trivial

theorem stageOriginSync_within (originId : Str) (previous : Option OriginFreshnessIndex) :
    (stageOriginSync deps originId previous).Uses Staged :=
  (stageOriginSync_own deps originId previous).mono fun _ ⟨hid, t, ho⟩ =>
    within_mono (stagingPath_inStaging deps hid t) ho

/-! ## Reading what was staged -/

theorem readObject_reads (root : PathBuf) (originId path : Str) :
    (readObject deps root originId path).Uses Op.Reads :=
  readObject_uses deps path fun _ _ _ _ _ => id

theorem loadEdgeConfigFrom_reads (root : PathBuf) (originId : Str)
    (candidates : List (Str × Bool)) :
    (loadEdgeConfigFrom deps root originId candidates).Uses Op.Reads := by
  induction candidates with
  | nil => trivial
  | cons c rest ih =>
    refine Prog.uses_bind (readObject_reads deps root originId c.1) fun object => ?_
    cases object with
    | none => exact ih
    | some object =>
      simp only
      split
      · trivial
      · exact Prog.uses_ofExcept _ _

theorem compileTemplate_reads (originId : Str) (root : PathBuf) (mirrorId : Str)
    (registry : Registry) (key : Str) :
    (compileTemplate deps originId root mirrorId registry key).Uses Op.Reads := by
  refine Prog.uses_bind (readObject_reads deps root mirrorId key) fun object => ?_
  cases object with
  | none => trivial
  | some object =>
    simp only
    repeat' split
    all_goals trivial

theorem compileTemplateUpdate_reads (originId : Str) (root : PathBuf)
    (mirrorId : Str) (diff : OriginFreshnessDiff) :
    (compileTemplateUpdateFromMirror deps originId root mirrorId diff).Uses Op.Reads := by
  refine Prog.uses_bind (uses_call trivial) fun current => ?_
  exact Prog.uses_fold (fun registry key _ =>
    compileTemplate_reads deps originId root mirrorId registry key) _

theorem prepareActivation_reads (originId : Str)
    (previous : Option OriginFreshnessIndex) (staged : StagedOriginSync) (barrier : Option Str) :
    (prepareActivation deps originId previous staged barrier).Uses Op.Reads := by
  refine Prog.uses_bind (Prog.uses_ofExcept _ _) fun _ => ?_
  refine Prog.uses_bind (Prog.uses_ofExcept _ _) fun m => ?_
  refine Prog.uses_bind (loadEdgeConfigFrom_reads deps _ _ _) fun config => ?_
  exact Prog.uses_bind (compileTemplateUpdate_reads deps _ _ _ _) fun _ => trivial

end

end RenderMesh.Refresh
