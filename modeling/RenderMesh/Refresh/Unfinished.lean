import RenderMesh.Core.Along
import RenderMesh.Refresh.Progress
import RenderMesh.Server.Debris

/-!
# Stagings that stop

Whatever a staging left undone, the files in its directory stand where files of its origin may
(`Laying`), and no file stands where a later one makes its directory.

* `step_laying`: a call that fills a staging directory keeps this, however it ends.
* `stageOriginSync_lays`: so does a whole staging of an orderly mirror, from any storage that
  lists only the keys it should.
-/
namespace RenderMesh.Refresh

open RenderMesh.Core RenderMesh.Mirror RenderMesh.Server

variable {deps : Deps} {env : Env}

/-! ## Filling a staging directory -/

/-- The calls with which the staging directory `d` is filled for objects with keys in `keys`. -/
def Lays (deps : Deps) (keys : Str → Prop) (d : PathBuf) : Op → Prop
  | .fs o => (∀ a b, o ≠ .rename a b) ∧
      (∀ q, Fills o q → ∃ r, Place deps keys r ∧ q = names d ++ r) ∧
      ∀ q, Makes o q → q <+: names d ∨
        ∃ p r, Place deps keys p ∧ q = names d ++ r ∧ r <+: p ∧ r ≠ p
  | .walk _ _ | .listObjects _ | .getObject _ _ | .now | .freshnessIndex _ | .originTemplates _
  | .originSnapshot _ => True
  | _ => False

/-- The staging directory of `id` at `t` is orderly, and none is blocked. -/
structure Laying (deps : Deps) (keys : Str → Prop) (id : Str) (t : Nat) (w : World) : Prop where
  orderly : Orderly deps keys (w.under (stagingPath deps id t))
  opened : StagingOpen deps id w

section
variable {keys : Str → Prop} {id : Str}

theorem Laying.congr {t : Nat} {w w' : World} (h : Laying deps keys id t w) (hfs : w'.fs = w.fs) :
    Laying deps keys id t w' :=
  ⟨by rw [show w'.under (stagingPath deps id t) = w.under (stagingPath deps id t) from
      funext fun r => by rw [World.under, hfs]; rfl]; exact h.orderly,
    fun t' s b hs => by rw [hfs]; exact h.opened t' s b hs⟩

variable (hkeys : Storable keys) (hid : validateOriginId id = .ok ())
include hkeys hid

/-- However such a call ends. -/
theorem step_laying {t : Nat} {o : Op} (ho : Lays deps keys (stagingPath deps id t) o) {w : World}
    (hw : Laying deps keys id t w) : Laying deps keys id t (step deps env o w).2 := by
  cases o with
  | fs o =>
    obtain ⟨hrename, hfills, hmakes⟩ := ho
    have heffect : ∀ q, Effect o w.fs (step deps env (.fs o) w).2.fs q :=
      fun q => step_effect env.long _ w.fs hrename q
    generalize (step deps env (.fs o) w).2 = w' at heffect
    refine ⟨⟨fun r b hr hb => ?_, fun r hr hd => ?_⟩, fun t' s b hs hb => ?_⟩
    · rcases heffect (names (stagingPath deps id t) ++ r) with h | h | ⟨-, h⟩ | ⟨hq, b', -⟩
      · exact hw.orderly.files r b hr (h.symm.trans hb)
      · exact absurd (h.symm.trans hb) (by simp)
      · exact absurd (h.symm.trans hb) (by simp)
      · obtain ⟨r', hplace, he⟩ := hfills _ hq
        rw [List.append_cancel_left he]
        exact hplace
    · rcases heffect (names (stagingPath deps id t) ++ r) with h | h | ⟨hq, -⟩ | ⟨-, b', h⟩
      · exact hw.orderly.dirs r hr (h.symm.trans hd)
      · exact absurd (h.symm.trans hd) (by simp)
      · rcases hmakes _ hq with hup | ⟨p, r', hplace, he, hbelow, hne⟩
        · have := hup.length_le
          rw [List.length_append] at this
          exact absurd (List.length_eq_zero_iff.mp (by omega)) hr
        · rw [List.append_cancel_left he]
          exact ⟨p, hplace, hbelow, hne⟩
      · exact absurd (h.symm.trans hd) (by simp)
    · rcases heffect s with h | h | ⟨-, h⟩ | ⟨hq, b', -⟩
      · exact hw.opened t' s b hs (h.symm.trans hb)
      · exact absurd (h.symm.trans hb) (by simp)
      · exact absurd (h.symm.trans hb) (by simp)
      · -- a place is below the staging directory, whose path is as long as any of them
        obtain ⟨r, hplace, rfl⟩ := hfills _ hq
        have hlen := hs.length_le
        rw [List.length_append, names_stagingPath deps hid, names_stagingPath deps hid] at hlen
        exact hkeys.place_ne_nil hplace (List.length_eq_zero_iff.mp (by
          simp only [List.length_cons, List.length_nil] at hlen
          omega))
  | walk p skip => exact hw
  | listObjects id => exact hw.congr rfl
  | getObject id key => exact hw.congr rfl
  | now => exact hw.congr rfl
  | freshnessIndex id => exact hw.congr rfl
  | originTemplates id => exact hw.congr rfl
  | originSnapshot id => exact hw.congr rfl
  | _ => exact absurd ho (by simp [Lays])

theorem run_laying {t : Nat} {α : Type} {m : Async α}
    (hm : m.Uses (Lays deps keys (stagingPath deps id t))) {w : World} (hw : Laying deps keys id t w) :
    Laying deps keys id t (run (step deps env) m w).2 :=
  keeps_of_uses (step deps env) (fun _ ho _ hs => step_laying hkeys hid ho hs) hm w hw

end

/-! ## The calls of a staging -/

section
variable {keys : Str → Prop} {d : PathBuf}

theorem lays_removes {o : Op} (ho : o.Removes) : Lays deps keys d o := by
  cases o with
  | fs o =>
    cases o with
    | removeFile p => exact ⟨by simp, fun _ hq => hq.elim, fun _ hq => hq.elim⟩
    | createDirAll p => exact absurd List.prefix_rfl (ho (names p))
    | copy a b => exact absurd rfl (ho (names b))
    | write p body => exact absurd rfl (ho (names p))
    | removeDirAll p => exact absurd List.prefix_rfl (ho (names p))
    | rename a b => exact absurd (Or.inl List.prefix_rfl) (ho (names a))
    | _ => exact ⟨by simp, fun _ hq => hq.elim, fun _ hq => hq.elim⟩
  | _ => exact ho

theorem lays_removeDirAll (p : PathBuf) : Lays deps keys d (.fs (.removeDirAll p)) :=
  ⟨by simp, fun _ hq => hq.elim, fun _ hq => hq.elim⟩

theorem lays_file {p : PathBuf} {r : List Name} (hp : names p = names d ++ r)
    (hplace : Place deps keys r) (body : Bytes) : Lays deps keys d (.fs (.write p body)) := by
  refine ⟨by simp, fun q hq => ⟨r, hplace, ?_⟩, fun _ hq => hq.elim⟩
  rw [← hp]
  exact hq

theorem lays_copy {a p : PathBuf} {r : List Name} (hp : names p = names d ++ r)
    (hplace : Place deps keys r) : Lays deps keys d (.fs (.copy a p)) := by
  refine ⟨by simp, fun q hq => ⟨r, hplace, ?_⟩, fun _ hq => hq.elim⟩
  rw [← hp]
  exact hq

/-- Directories are made on the way to a place. -/
theorem lays_dir {p : PathBuf} {r s : List Name} (hp : names p = names d ++ s)
    (hplace : Place deps keys r) (hs : s <+: r) (hne : s ≠ r) :
    Lays deps keys d (.fs (.createDirAll p)) := by
  refine ⟨by simp, fun _ hq => hq.elim, fun q hq => ?_⟩
  have hq : q <+: names d ++ s := by
    rw [← hp]
    exact hq
  rcases prefix_append_cases hq with h | ⟨s', rfl, hs'⟩
  · exact Or.inl h
  · refine Or.inr ⟨r, s', hplace, rfl, hs'.trans hs, ?_⟩
    rintro rfl
    exact hne (hs.eq_of_length_le hs'.length_le)

theorem lays_root : Lays deps keys d (.fs (.createDirAll d)) :=
  ⟨by simp, fun _ hq => hq.elim, fun _ hq => Or.inl hq⟩

theorem copyEntry_lays {source : PathBuf} {e : WalkEvent Name}
    (hfile : ∀ rel, e = .entry rel false → Place deps keys rel)
    (hdir : ∀ rel, e = .entry rel true → ∃ p, Place deps keys p ∧ rel <+: p ∧ rel ≠ p) :
    (copyEntry deps source d e).Uses (Lays deps keys d) := by
  cases e with
  | readDir rel =>
    exact uses_ioContext (@lays_removes deps keys d (.fs (.readDir _)) fun _ hq => hq) _
  | entry rel isDir =>
    refine Prog.uses_bind (uses_ioTry (@lays_removes deps keys d (.fs (.visit _)) fun _ hq => hq))
      fun _ => ?_
    cases isDir with
    | true =>
      obtain ⟨p, hplace, hbelow, hne⟩ := hdir rel rfl
      exact uses_ioContext (lays_dir (names_joinNames _ _) hplace hbelow hne) _
    | false => exact uses_ioContext (lays_copy (names_joinNames _ _) (hfile rel rfl)) _

/-- The parent of a place is on the way to it. -/
theorem lays_parent {p parent : PathBuf} {r : List Name} (hp : names p = names d ++ r)
    (hplace : Place deps keys r) (hr : r ≠ []) (hg : GoodSegments p) (hparent : parent? p = some parent) :
    Lays deps keys d (.fs (.createDirAll parent)) := by
  have hnames : names parent = names d ++ r.dropLast := by
    rw [names_parent? hg hparent, hp, List.dropLast_append_of_ne_nil hr]
  refine lays_dir hnames hplace (List.dropLast_prefix r) fun he => ?_
  have := congrArg List.length he
  rw [List.length_dropLast] at this
  have := List.length_pos_iff.mpr hr
  omega

variable (hkeys : Storable keys)
include hkeys

theorem writeObject_lays (hd : d ≠ []) (hg : GoodSegments d) {object : RemoteObject}
    (hk : keys object.key) : (writeObject deps d object).Uses (Lays deps keys d) := by
  have hcanon := hkeys.canonical _ hk
  have hbody : Place deps keys (names object.key) := ⟨_, hk, Or.inl rfl⟩
  have hside : Place deps keys (sidecarNames deps object.key) := ⟨_, hk, Or.inr rfl⟩
  refine Prog.uses_ofExcept_bind fun key hkey => ?_
  obtain ⟨rfl, hacc⟩ := normalizeRemoteKey_ok_iff.mp hkey
  refine Prog.uses_ofExcept_bind fun path hpath => ?_
  obtain ⟨rfl, -⟩ := (remoteObjectPath_ok_iff hd).mp hpath
  have hnames : names (join d object.key) = names d ++ names object.key := names_join _ _
  refine Prog.uses_bind (uses_withParent fun parent hp => uses_ioContext
    (lays_parent hnames hbody (hkeys.place_ne_nil hbody) (hg.join hacc) hp) _) fun _ => ?_
  refine Prog.uses_bind (uses_ioContext (lays_file hnames hbody _) _) fun _ => ?_
  refine Prog.uses_ofExcept_bind fun sidecar hsidecar => ?_
  obtain ⟨n, hn, rfl⟩ := metadataSidecarPath_ok_iff.mp hsidecar
  rw [hcanon.normalized] at hn
  cases hn
  refine Prog.uses_bind (uses_withParent fun parent hp => uses_ioContext
    (lays_parent (names_joinNames _ _) hside (hkeys.place_ne_nil hside) (hg.joinNames _) hp) _) fun _ => ?_
  exact uses_ioContext (lays_file (names_joinNames _ _) hside _) _

theorem downloadObject_lays (hd : d ≠ []) (hg : GoodSegments d) {id : Str}
    (index : OriginFreshnessIndex) (n : Nat) {k : Str} (hk : keys k) :
    (downloadObject deps id d index n k).Uses (Lays deps keys d) := by
  refine Prog.uses_bind (uses_call trivial) fun r => ?_
  refine Prog.uses_ofExcept_bind fun object _ => ?_
  refine Prog.uses_ofExcept_bind fun summary _ => ?_
  refine Prog.uses_ofExcept_bind fun _ hvalid => ?_
  obtain ⟨rfl, -⟩ := validateDownloadedObject_ok hvalid
  exact Prog.uses_bind (writeObject_lays hkeys hd hg hk) fun _ => trivial

end

/-! ## A staging, however it ends -/

/-- However it ends, a removal leaves each path as it was or bare. -/
theorem removeDirIfExists_gone (p : PathBuf) (w : World) (q : List Name) :
    (run (step deps env) (removeDirIfExists deps p) w).2.fs.lookup q = w.fs.lookup q ∨
      (run (step deps env) (removeDirIfExists deps p) w).2.fs.lookup q = none := by
  refine keeps_of_uses (step deps env) (P := fun o => o = .fs (.removeDirAll p))
    (I := fun w' => w'.fs.lookup q = w.fs.lookup q ∨ w'.fs.lookup q = none) ?_
    (uses_ioUnlessNotFound (P := fun o => o = .fs (.removeDirAll p)) rfl _) w (Or.inl rfl)
  rintro _ rfl w' hw'
  rcases step_removeDirAll env.long (env.fault w'.clock (.removeDirAll p)) w'.fs p q with h | h
  · exact hw'.imp h.trans h.trans
  · exact Or.inr h

theorem StagingOpen.thin {id : Str} {w w' : World} (h : StagingOpen deps id w)
    (hgone : ∀ q, w'.fs.lookup q = w.fs.lookup q ∨ w'.fs.lookup q = none) : StagingOpen deps id w' := by
  intro t s b hs
  rcases hgone s with hq | hq
  · rw [hq]
    exact h t s b hs
  · rw [hq]
    simp

section
variable {keys : Str → Prop} {id : Str} (hkeys : Storable keys) (hid : validateOriginId id = .ok ())
include hkeys hid

theorem stageOriginDir_lays {t : Nat} (hlisted : ∀ k, WasListed env id k → keys k)
    (previous : Option OriginFreshnessIndex) {w : World} (hw : Laying deps keys id t w) :
    Laying deps keys id t
      (run (step deps env) (stageOriginDir deps id (stagingPath deps id t) previous) w).2 := by
  have hd := @stagingPath_ne_nil deps id t
  have hg := stagingPath_goodSegments deps hid t
  have hcall : ∀ {o : Op} {w : World}, Lays deps keys (stagingPath deps id t) o →
      Laying deps keys id t w → Laying deps keys id t (run (step deps env) (call o) w).2 :=
    fun ho h => run_laying hkeys hid (uses_call ho) h
  refine keeps_bind (run_laying hkeys hid (uses_ioContext lays_root _) hw) fun _ w1 _ hw1 => ?_
  refine keeps_bind (hcall trivial hw1) fun r w2 h2 hw2 => ?_
  refine keeps_bind (run_laying hkeys hid (Prog.uses_ofExcept _ _) hw2) fun summaries w3 h3 hw3 => ?_
  obtain ⟨rfl, -⟩ := run_ofExcept_ok _ h3
  have hwas : ∀ s ∈ summaries, keys s.key := fun s hs => hlisted _ ⟨w1.clock, summaries, by
    rw [call, run_perform] at h2
    cases hlist : env.listObjects w1.clock id with
    | ok l =>
      simp only [step, hlist, reply, Prod.mk.injEq, Outcome.ok.injEq] at h2
      cases h2.1
      rfl
    | err e => simp [step, hlist, reply] at h2
    | dropped => simp [step, hlist, reply] at h2, s, hs, rfl⟩
  refine keeps_bind (hcall trivial hw3) fun now w4 _ hw4 => ?_
  refine keeps_bind (run_laying hkeys hid (Prog.uses_ofExcept _ _) hw4) fun index w5 h5 hw5 => ?_
  obtain ⟨hindex, -⟩ := run_ofExcept_ok _ h5
  refine keeps_bind (run_laying hkeys hid (Prog.uses_fold (fun n k hk =>
    downloadObject_lays hkeys hd hg index n ?_) 0) hw5) fun downloaded w6 _ hw6 => ?_
  · obtain ⟨f, hf, -⟩ := (mem_changedPaths previous index k).mp hk
    obtain ⟨s, hs, rfl⟩ := (mem_files_iff hindex k).mp
      (Std.TreeMap.mem_iff_isSome_getElem?.mpr (by rw [hf]; rfl))
    exact hwas s hs
  · refine run_laying hkeys hid (Prog.uses_bind ((removeDeletedObjects_removes _).mono
      fun _ ho => lays_removes ho) fun _ => ?_) hw6
    exact Prog.uses_bind ((removeOrphanMetadataSidecars_removes _).mono
      fun _ ho => lays_removes ho) fun _ => trivial

theorem copyDirContents_lays {t : Nat} {w : World} (hmirror : Orderly deps keys (w.under id))
    (hw : Laying deps keys id t w) :
    Laying deps keys id t
      (run (step deps env) (copyDirContents deps id (stagingPath deps id t)) w).2 := by
  have hroot := uses_ioContext (@lays_root deps keys (stagingPath deps id t))
    ("create staging mirror ".toList ++ deps.display (stagingPath deps id t))
  refine keeps_bind (run_laying hkeys hid hroot hw) fun _ w1 h1 hw1 => ?_
  have hquiet := @quiet_of_staged deps env _ _ (uses_ioContext
    (within_createDirAll (stagingPath_inStaging deps hid t))
    ("create staging mirror ".toList ++ deps.display (stagingPath deps id t))) w
  rw [h1] at hquiet
  have hsame : ∀ r, w1.under id r = w.under id r := fun r =>
    hquiet.files _ (staging_not_prefix_origin hid (List.prefix_append _ _))
  refine keeps_bind hw1 fun events w2 h2 hw2 => run_laying hkeys hid (Prog.uses_each fun e he => ?_) hw2
  cases h2
  refine copyEntry_lays (fun rel hrel => ?_) fun rel hrel => ?_
  · subst hrel
    obtain ⟨hne, hsome, hdir, -⟩ := FileTree.entry_mem_itinerary _ _ _ _ _ |>.mp he
    obtain ⟨node, hnode⟩ := Option.isSome_iff_exists.mp hsome
    cases node with
    | dir => simp [FileTree.isDirAt, hnode] at hdir
    | file b => exact hmirror.files rel b hne ((hsame rel).symm.trans hnode)
  · subst hrel
    obtain ⟨hne, hsome, hdir, -⟩ := FileTree.entry_mem_itinerary _ _ _ _ _ |>.mp he
    refine hmirror.dirs rel hne ((hsame rel).symm.trans ?_)
    simpa [FileTree.isDirAt, World.under] using hdir.symm

theorem prepareStagingDir_lays {t : Nat} {w : World} (hmirror : Orderly deps keys (w.under id))
    (hopen : StagingOpen deps id w) :
    StagingOpen deps id
        (run (step deps env) (prepareStagingDir deps id (stagingPath deps id t)) w).2 ∧
      ∀ u w', run (step deps env) (prepareStagingDir deps id (stagingPath deps id t)) w = (.ok u, w') →
        Laying deps keys id t w' := by
  have hs := stagingPath_inStaging deps hid t
  have hopen1 : StagingOpen deps id
      (run (step deps env) (removeDirIfExists deps (stagingPath deps id t)) w).2 :=
    hopen.thin (removeDirIfExists_gone _ w)
  have hquiet := @quiet_of_staged deps env _ _ (removeDirIfExists_within deps hs) w
  refine keeps_bind_ok (J := Laying deps keys id t) (fun _ h => h.opened) hopen1 fun u w1 hrun => ?_
  rw [hrun] at hopen1 hquiet
  have hbare : w1.under (stagingPath deps id t) = fun _ => none :=
    funext (removeDirIfExists_ok (by rw [names_stagingPath deps hid]; simp) hrun)
  have hw1 : Laying deps keys id t w1 := ⟨by rw [hbare]; exact orderly_empty, hopen1⟩
  have hprobe : (io (.metadata id)).Uses (Lays deps keys (stagingPath deps id t)) :=
    uses_io (@lays_removes deps keys _ (.fs (.metadata id)) fun _ hq => hq)
  have hquiet2 := @quiet_of_reads deps env _ _ (uses_io (P := Op.Reads) (o := .metadata id) fun _ hq => hq) w1
  refine keeps_bind (run_laying hkeys hid hprobe hw1) fun r w2 h2 hw2 => ?_
  rw [h2] at hquiet2
  cases r with
  | error e => exact run_laying hkeys hid (uses_ioContext lays_root _) hw2
  | ok d =>
    refine copyDirContents_lays hkeys hid ?_ hw2
    rw [show w2.under id = w.under id from funext fun r => (hquiet.trans hquiet2).files _
      (staging_not_prefix_origin hid (List.prefix_append _ _))]
    exact hmirror

/-- However a staging ends, no staging directory is blocked; one that returned is orderly. -/
theorem stageOriginSync_lays (hlisted : ∀ k, WasListed env id k → keys k)
    (previous : Option OriginFreshnessIndex) {w : World} (hmirror : Orderly deps keys (w.under id))
    (hopen : StagingOpen deps id w) :
    StagingOpen deps id (run (step deps env) (stageOriginSync deps id previous) w).2 ∧
      ∀ staged w', run (step deps env) (stageOriginSync deps id previous) w = (.ok staged, w') →
        Laying deps keys id (env.nanos w.clock) w' := by
  rw [stageOriginSync, originDir_ok_iff.mpr ⟨rfl, hid⟩]
  show StagingOpen deps id (run _ (stagingDir deps id >>= _) w).2 ∧
    ∀ staged w', run _ (stagingDir deps id >>= _) w = _ → _
  rw [run_bind, stagingDir_run deps hid]
  obtain ⟨hopen1, hlaid⟩ := @prepareStagingDir_lays deps env keys id hkeys hid (env.nanos w.clock) w.tick
    hmirror hopen
  refine keeps_bind_ok (J := Laying deps keys id (env.nanos w.clock)) (fun _ h => h.opened) hopen1
    fun u w1 h1 => ?_
  refine keeps_bind (keeps_attempt (stageOriginDir_lays hkeys hid hlisted previous (hlaid u w1 h1)))
    fun result w2 _ hw2 => ?_
  cases result with
  | ok v => exact hw2
  | error e =>
    refine run_laying hkeys hid ?_ hw2
    exact Prog.uses_bind (uses_ioUnlessNotFound (lays_removeDirAll _) _) fun _ => trivial

end

end RenderMesh.Refresh
