import RenderMesh.Refresh.Healthy
import RenderMesh.Refresh.Config

/-!
# What a refresh leaves standing

A staging begins with a copy of the mirror and never removes a directory, and what it removes of
the files it removes after the downloads.

* `Refreshed.keepsDirs`: a directory of the mirror outlasts the refresh.
* `Refreshed.ways`: no file of the mirror was on the way to a key that was fetched.
-/
namespace RenderMesh.Refresh

open RenderMesh.Core RenderMesh.Mirror RenderMesh.Server

variable {deps : Deps} {env : Env}

/-! ## Directories -/

/-- The calls that leave every directory where it is. -/
def KeepsDirs : Op → Prop
  | .fs (.removeDirAll _) | .fs (.rename _ _) | .fs (.copy _ _) => False
  | _ => True

theorem keepsDirs_of_removes {o : Op} (ho : o.Removes) : KeepsDirs o := by
  cases o with
  | fs o =>
    cases o with
    | copy a b => exact absurd rfl (ho (names b))
    | removeDirAll p => exact absurd List.prefix_rfl (ho (names p))
    | rename a b => exact absurd (Or.inl List.prefix_rfl) (ho (names a))
    | _ => trivial
  | _ => trivial

theorem step_keepsDirs (henv : Healthy env) {o : Op} (ho : KeepsDirs o) {w : World} {q : List Name}
    (hq : w.fs.lookup q = some .dir) : (step deps env o w).2.fs.lookup q = some .dir := by
  cases o with
  | fs o =>
    have hdid : (w.did env o).fs.lookup q = some .dir := by
      cases o with
      | createDirAll p =>
        rcases @createDirAll_did_or env p w q with h | ⟨-, -, h⟩
        · exact h.trans hq
        · exact h
      | write p body =>
        cases h : ((FsOp.write p body).exec env.long w.fs).1 with
        | error e =>
          rw [World.did, show ((FsOp.write p body).exec env.long w.fs).2 = w.fs from
            w.fs.writeFile_error env.long (p := names p) (Prod.ext h rfl)]
          exact hq
        | ok u =>
          obtain ⟨-, -, hfree, -⟩ := w.fs.writeFile_ok env.long (p := names p) (Prod.ext h rfl)
          rw [write_did h, if_neg]
          · exact hq
          · rintro rfl
            exact hfree hq
      | removeFile p => exact removeFile_did_dir hq
      | copy a b => exact ho.elim
      | removeDirAll p => exact ho.elim
      | rename a b => exact ho.elim
      | _ => exact hq
    simp only [step, FsOp.step, henv.fault]
    exact hdid
  | _ => exact hq

theorem downloadObject_keepsDirs {id : Str} {d : PathBuf} (index : OriginFreshnessIndex) (n : Nat)
    (k : Str) : (downloadObject deps id d index n k).Uses KeepsDirs := by
  refine Prog.uses_bind (uses_call trivial) fun r => ?_
  refine Prog.uses_ofExcept_bind fun object _ => ?_
  refine Prog.uses_ofExcept_bind fun summary _ => ?_
  refine Prog.uses_ofExcept_bind fun _ _ => ?_
  refine Prog.uses_bind ?_ fun _ => trivial
  refine Prog.uses_ofExcept_bind fun key _ => ?_
  refine Prog.uses_ofExcept_bind fun path _ => ?_
  refine Prog.uses_bind (uses_withParent fun _ _ => uses_ioContext trivial _) fun _ => ?_
  refine Prog.uses_bind (uses_ioContext trivial _) fun _ => ?_
  refine Prog.uses_ofExcept_bind fun sidecar _ => ?_
  refine Prog.uses_bind (uses_withParent fun _ _ => uses_ioContext trivial _) fun _ => ?_
  exact uses_ioContext trivial _

theorem stageOriginDir_keepsDirs {id : Str} {d : PathBuf} (previous : Option OriginFreshnessIndex) :
    (stageOriginDir deps id d previous).Uses KeepsDirs := by
  refine Prog.uses_bind (uses_ioContext trivial _) fun _ => ?_
  refine Prog.uses_bind (uses_call trivial) fun r => ?_
  refine Prog.uses_ofExcept_bind fun summaries _ => ?_
  refine Prog.uses_bind (uses_call trivial) fun now => ?_
  refine Prog.uses_ofExcept_bind fun index _ => ?_
  refine Prog.uses_bind (Prog.uses_fold (fun n k _ => downloadObject_keepsDirs index n k) 0) fun _ => ?_
  refine Prog.uses_bind ((removeDeletedObjects_removes _).mono fun _ ho => keepsDirs_of_removes ho)
    fun _ => ?_
  exact Prog.uses_bind ((removeOrphanMetadataSidecars_removes _).mono
    fun _ ho => keepsDirs_of_removes ho) fun _ => trivial

/-! ## A refresh -/

section
variable (henv : Healthy env) {id : Str} {cdn : Option OriginCdnRefresh} {barrier : Option Str}
  {w w' : World} (href : Refreshed deps env id cdn barrier w w')
include henv href

/-- A refresh that activated filled a copy of the mirror, which became the mirror. -/
theorem Refreshed.filled : ∃ (staged : StagedOriginSync) (wc w1 : World),
    w'.freshnessIndexes id = some staged.index ∧
    staged.stagingDir ≠ [] ∧ wc.under staged.stagingDir [] = some .dir ∧
    (∀ r, r ≠ [] → wc.under staged.stagingDir r = w.under id r) ∧
    run (step deps env) (stageOriginDir deps id staged.stagingDir (w.freshnessIndexes id)) wc =
      (.ok (staged.index, staged.diff, staged.downloaded), w1) ∧
    ∀ r, w'.under id r = w1.under staged.stagingDir r := by
  obtain ⟨staged, w1, hstage, hfiles, hindex, -⟩ := href.staged
  obtain ⟨hid, -, hdir, wc, hprepare, hfill⟩ := stageOriginSync_phases hstage
  have hs : InStaging staged.stagingDir := hdir ▸ stagingPath_inStaging deps hid _
  have hends := ends_iff.mp (@prepareStagingDir_ends deps env id hid _ hs (fun _ _ => False)
    (henv.not_probeFails hid) w.tick.tick) fun _ _ => not_false
  rw [hprepare] at hends
  obtain ⟨htop, hcopy⟩ := hends () rfl
  exact ⟨staged, wc, w1, hindex, hdir ▸ stagingPath_ne_nil deps _, htop, hcopy, hfill, hfiles⟩

/-- A directory of the mirror is there after the refresh. -/
theorem Refreshed.keepsDirs {r : List Name} (hr : r ≠ []) (hdir : w.under id r = some .dir) :
    w'.under id r = some .dir := by
  obtain ⟨staged, wc, w1, -, -, -, hcopy, hfill, hfiles⟩ := href.filled henv
  have hkept := keeps_of_uses (step deps env)
    (I := fun s => s.fs.lookup (names staged.stagingDir ++ r) = some .dir)
    (fun o ho s hs => step_keepsDirs henv ho hs)
    (@stageOriginDir_keepsDirs deps id staged.stagingDir (w.freshnessIndexes id)) wc
    ((hcopy r hr).trans hdir)
  rw [hfill] at hkept
  exact (hfiles r).trans hkept

/-- What was fetched found its way free of files: those that are no longer listed were still there. -/
theorem Refreshed.ways {index : OriginFreshnessIndex} (hindex : w'.freshnessIndexes id = some index)
    (hkeys : ∀ k ∈ index.files, Accepted k ∧ Plain k) {k : Str}
    (hk : k ∈ (diffOriginIndexes (w.freshnessIndexes id) index).changedPaths) :
    ClearWay (w.under id) (names k) := by
  obtain ⟨staged, wc, w1, hstored, hd, htop, hcopy, hfill, -⟩ := href.filled henv
  obtain rfl := Option.some.inj (hstored.symm.trans hindex)
  obtain ⟨-, wl, summaries, wd, wr, hmk, -, -, hdown, -, -⟩ := stageOriginDir_phases hfill
  have hsub : ∀ k ∈ (diffOriginIndexes (w.freshnessIndexes id) staged.index).changedPaths,
      k ∈ staged.index.files := by
    intro k hk
    obtain ⟨f, hf, -⟩ := (mem_changedPaths _ _ k).mp hk
    exact Std.TreeMap.mem_iff_isSome_getElem?.mpr (by rw [hf]; rfl)
  obtain ⟨hplaced, hrest⟩ := download_ok hd (fun k hk => hkeys k (hsub k hk))
    (changedPaths_nodup _ _) hdown
  intro s b hs hsk hne hb
  obtain ⟨object, -, hbody, -⟩ := hplaced k hk
  have hhead : s.head? ≠ some metaName := fun h => by
    obtain ⟨r, hr⟩ := hsk
    refine names_head_ne_meta (hkeys k (hsub k hk)).1 (hkeys k (hsub k hk)).2 ?_
    rw [← hr, List.head?_append_of_ne_nil _ hs, h]
  -- a file is there when the downloads are over
  have hthere : ∃ b', wd.under staged.stagingDir s = some (.file b') := by
    by_cases hobject : ObjectFiles staged.stagingDir
        (diffOriginIndexes (w.freshnessIndexes id) staged.index).changedPaths
        (names staged.stagingDir ++ s)
    · obtain ⟨k', hk', he⟩ := hobject
      obtain ⟨object', -, hbody', -⟩ := hplaced k' hk'
      rw [List.append_cancel_left he]
      exact ⟨_, hbody'⟩
    · refine ⟨b, (hrest _ hobject fun hside => ?_).file.mpr ?_⟩
      · obtain ⟨k', -, n, -, he⟩ := hside
        exact hhead (by rw [List.append_cancel_left he]; rfl)
      · obtain ⟨-, -, hwl⟩ := ioContext_ok hmk
        rcases @createDirAll_did_or env staged.stagingDir wc (names staged.stagingDir ++ s) with
          h | ⟨-, hnone, -⟩
        · rw [← hwl] at h
          exact h.trans ((hcopy s hs).trans hb)
        · exact absurd (hnone.symm.trans ((hcopy s hs).trans hb)) (by simp)
  obtain ⟨b', hb'⟩ := hthere
  exact clearWay_of_file hbody s b' hs hsk hne hb'

end

end RenderMesh.Refresh
