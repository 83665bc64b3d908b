import RenderMesh.Refresh.Runs

/-!
# Refreshes on a healthy disk

A disk on which a call can only fail because a file is where a directory should be,
or the other way round. There a swap always succeeds, so a refresh either activated
or left everything but the staging area alone.

* `swapOriginDir_completes`: the swap and what it does to every path.
* `refreshOriginSnapshot_quiet`: a refresh that did not activate changed nothing
  outside the staging area.
-/
namespace RenderMesh.Refresh

open RenderMesh.Core RenderMesh.Mirror RenderMesh.Server

/-- Calls fail for name clashes only, and no name is too long. -/
structure Healthy (env : Env) : Prop where
  fault : ∀ t o, env.fault t o = .none
  long : ∀ n, env.long n = false

/-- The mirror of `id` is a directory, if it is there, and no backup of it is left. -/
structure Tidy (id : Str) (w : World) : Prop where
  mirror : ∀ b, w.fs.lookup (names id) ≠ some (.file b)
  backup : ∀ now, w.fs.lookup (names (backupPath id now)) = none

theorem origin_asDir {id : Str} (hid : validateOriginId id = .ok ()) : asDir id = false := by
  have hv := origin_validName hid
  unfold asDir
  rw [segments_of_no_slash hv.2.2.2.1]
  simp [hv.1, hv.2.1]

section
variable {id : Str} (hid : validateOriginId id = .ok ())
include hid

theorem tidy_empty : Tidy id (World.start FileTree.empty) := by
  have hempty : ∀ q, q ≠ [] → (World.start FileTree.empty).fs.lookup q = none := fun q hq =>
    FileTree.lookup_of_ne_nil _ hq
  refine ⟨fun b => ?_, fun now => ?_⟩
  · rw [hempty _ (by rw [names_origin hid]; simp)]
    simp
  · rw [names_backupPath_eq hid now]
    exact hempty _ (by simp)

theorem Tidy.quiet {w w' : World} (hw : Tidy id w) (h : Quiet w w') : Tidy id w' := by
  have hb : ∀ now, ¬ [syncName] <+: names (backupPath id now) := fun now =>
    backup_not_inStaging hid now
  exact ⟨fun b => by
      rw [h.files _ (staging_not_prefix_origin hid List.prefix_rfl)]
      exact hw.mirror b,
    fun now => by
      rw [h.files _ (hb now)]
      exact hw.backup now⟩

/-- The swapped store is tidy again. -/
theorem Tidy.swapped {staging : PathBuf} {w w' : World} (hw : Tidy id w)
    (htop : w.under staging [] = some .dir)
    (h : ∀ q, w'.fs.lookup q =
      if names id <+: q then w.under staging (q.drop (names id).length)
      else if names staging <+: q then none else w.fs.lookup q) : Tidy id w' := by
  refine ⟨fun b => ?_, fun now => ?_⟩
  · rw [h, if_pos List.prefix_rfl, List.drop_length, htop]
    simp
  · rw [h, if_neg (origin_not_prefix_backup hid List.prefix_rfl)]
    split
    · rfl
    · exact hw.backup now

end

section
variable {deps : Deps} {env : Env} (henv : Healthy env)
include henv

theorem Healthy.names (p : List Name) : ∀ x ∈ p, env.long x = false := fun x _ => henv.long x

/-- A probe finds what is there. -/
theorem Healthy.metadata {t : Tree} {p : PathBuf} (hp : asDir p = false) :
    ((FsOp.metadata p).exec env.long t).1.isOk = (t.lookup (Core.names p)).isSome := by
  simp only [FsOp.exec, FileTree.metadata]
  cases h : t.lookup (Core.names p) with
  | some n =>
    rw [t.stat_succeeds env.long h (henv.names _)]
    cases n with
    | dir => rfl
    | file b => simp [hp, Except.isOk, Except.toBool]
  | none =>
    rcases t.stat_absent env.long h (henv.names _) with ⟨hs, -⟩ | ⟨hs, -⟩ <;> rw [hs] <;> rfl

theorem Healthy.no_probeFails {id : Str} (hid : validateOriginId id = .ok ()) (o : Op) (w : World) :
    probeFails env id o w = false := by
  cases o with
  | fs o =>
    cases o with
    | metadata p =>
      by_cases hp : p = id
      · subst hp
        have := henv.metadata (t := w.fs) (origin_asDir hid)
        rw [probeFails, this, henv.fault]
        cases (w.fs.lookup (Core.names p)).isSome <;> simp
      · simp [probeFails, hp]
    | _ => rfl
  | _ => rfl

theorem Healthy.not_probeFails {id : Str} (hid : validateOriginId id = .ok ()) (o : Op) (w : World) :
    ¬ probeFails env id o w = true := by
  simp [henv.no_probeFails hid]

/-- A directory in the store is removed if it is there. -/
theorem Healthy.removeDirAll {t : Tree} {n : Name} (h : ∀ b, t.lookup [n] ≠ some (.file b)) :
    ((t.removeDirAll env.long [n]).1 = .ok () ∨ (t.removeDirAll env.long [n]).1 = .error .notFound) ∧
      ∀ q, (t.removeDirAll env.long [n]).2.lookup q = if [n] <+: q then none else t.lookup q := by
  cases hn : t.lookup [n] with
  | some node =>
    cases node with
    | file b => exact absurd hn (h b)
    | dir =>
      have hok : (t.removeDirAll env.long [n]).1 = .ok () := by
        rw [FileTree.removeDirAll, t.stat_succeeds env.long hn (henv.names _)]
      exact ⟨Or.inl hok, (t.removeDirAll_ok env.long (List.cons_ne_nil _ _) (Prod.ext hok rfl)).2⟩
  | none =>
    have hstat : t.stat env.long [n] = .error .notFound := by
      rcases t.stat_absent env.long hn (henv.names _) with ⟨hs, -⟩ | ⟨-, s, b, hp, hb⟩
      · exact hs
      · -- nothing on the way is a file
        rcases prefix_singleton hp with rfl | rfl
        · rw [hn] at hb
          cases hb
        · cases hb
    have herr : t.removeDirAll env.long [n] = (.error .notFound, t) := by
      rw [FileTree.removeDirAll, hstat]
    rw [herr]
    refine ⟨Or.inr rfl, fun q => ?_⟩
    split
    · rename_i hq
      obtain ⟨r, rfl⟩ := hq
      exact t.below_none hn
    · rfl

/-- A directory or file in the store is renamed to a free name in it. -/
theorem Healthy.rename {t : Tree} {a b : List Name} {n : Name} {m : Node Bytes}
    (ha : t.lookup a = some m) (ha0 : a ≠ []) (hb : b = [n]) (hfree : t.lookup b = none)
    (hab : ¬ a <+: b) : (t.rename env.long a b).1 = .ok () := by
  rw [t.rename_succeeds env.long ha hfree (by rw [hb]; rfl) ha0 hab (henv.names _) (henv.names _)]

variable {id : Str} (hid : validateOriginId id = .ok ())
include hid

/-- The swap of a mirror for a staged directory, with a name for the backup that is free. -/
theorem swapOriginDir_completes {staging : PathBuf} (hs : InStaging staging) {w : World}
    (hmirror : ∀ b, w.fs.lookup (Core.names id) ≠ some (.file b))
    (hbackup : w.fs.lookup (Core.names (backupPath id (env.nanos (w.clock + 1)))) = none)
    (htop : w.under staging [] = some .dir) :
    Returns (step deps env) (fun _ w' =>
      (∀ q, w'.fs.lookup q =
        if Core.names id <+: q then w.under staging (q.drop (Core.names id).length)
        else if Core.names staging <+: q then none else w.fs.lookup q) ∧ SameStores w w')
      (swapOriginDir deps id staging) w := by
  rw [swapOriginDir, withParent, parent?_origin hid]
  refine Returns.bind ⟨(), w.did env (.createDirAll storeRoot), ioContext_run (henv.fault _ _) rfl, ?_⟩
  set w1 := w.did env (.createDirAll storeRoot)
  refine Returns.bind ⟨env.nanos w1.clock, w1.tick, rfl, ?_⟩
  refine Returns.bind ⟨_, _, io_run (henv.fault _ _), ?_⟩
  set w2 := w1.tick.did env (.metadata id)
  have hfs2 : w2.fs = w.fs := rfl
  have hst2 : SameStores w w2 := ⟨rfl, rfl, rfl, rfl, rfl, rfl⟩
  obtain ⟨nb, hnb, -, -⟩ := names_backupPath hid (env.nanos w1.clock)
  replace hbackup : w.fs.lookup (Core.names (backupPath id (env.nanos w1.clock))) = none := hbackup
  set backup := backupPath id (env.nanos w1.clock) with hbackupdef
  have hbid : ¬ Core.names backup <+: Core.names id :=
    not_below_backup hid (Or.inl List.prefix_rfl)
  have hidb : ¬ Core.names id <+: Core.names backup :=
    origin_not_prefix_backup hid List.prefix_rfl
  have hname := names_origin hid
  -- the old mirror, if there is one, is moved to its backup
  refine Returns.bind (Returns.mono (Q := fun _ w3 => SameStores w w3 ∧
      w3.fs.lookup (Core.names backup) = w.fs.lookup (Core.names id) ∧
      ∀ q, ¬ Core.names backup <+: q →
        w3.fs.lookup q = if Core.names id <+: q then none else w.fs.lookup q) ?_ ?_)
  · rw [henv.metadata (origin_asDir hid), show w1.tick.fs = w.fs from rfl]
    cases hbefore : w.fs.lookup (Core.names id) with
    | none =>
      refine ⟨(), w2, rfl, hst2, ?_, fun q hq => ?_⟩
      · rw [hfs2, hbackup]
      · split
        · rename_i hidq
          obtain ⟨r, rfl⟩ := hidq
          exact w2.fs.below_none hbefore
        · rfl
    | some node =>
      have hren : ((FsOp.rename id backup).exec env.long w2.fs).1 = .ok () :=
        henv.rename hbefore (by rw [hname]; simp) hnb hbackup hidb
      refine ⟨(), w2.did env (.rename id backup), ioContext_run (henv.fault _ _) hren,
        hst2.trans (did_stores _ _), ?_, fun q hq => ?_⟩
      · rw [rename_did hren, if_pos List.prefix_rfl, List.drop_length, List.append_nil, hfs2, hbefore]
      · rw [rename_did hren, if_neg hq, hfs2]
  · rintro _ w3 ⟨hst3, hold, hrest⟩
    have hstaged : ∀ r, w3.under staging r = w.under staging r := fun r => by
      have hin : [syncName] <+: Core.names staging ++ r := hs.trans (List.prefix_append _ _)
      rw [World.under, hrest _ (not_below_backup hid (Or.inr hin)),
        if_neg (origin_not_prefix_staging hid hin)]
      rfl
    have hsid : ¬ Core.names staging <+: Core.names id := fun h =>
      staging_not_prefix_origin hid List.prefix_rfl (hs.trans h)
    have hfree : w3.fs.lookup (Core.names id) = none := by
      rw [hrest _ hbid, if_pos List.prefix_rfl]
    have hren : ((FsOp.rename staging id).exec env.long w3.fs).1 = .ok () := by
      refine henv.rename (m := .dir) ?_ ?_ hname hfree hsid
      · simpa [World.under] using (hstaged []).trans htop
      · intro h
        rw [InStaging, h] at hs
        simp at hs
    refine Returns.bind ⟨_, _, io_run (henv.fault _ _), ?_⟩
    rw [hren]
    set w4 := w3.did env (.rename staging id)
    have hw4 : ∀ q, w4.fs.lookup q = if Core.names id <+: q
        then w3.fs.lookup (Core.names staging ++ q.drop (Core.names id).length)
        else if Core.names staging <+: q then none else w3.fs.lookup q := rename_did hren
    have hsb : ¬ Core.names staging <+: Core.names backup := by
      intro h
      have hsync : [syncName] <+: Core.names backup := hs.trans h
      rw [hnb, List.cons_prefix_cons] at hsync
      refine @not_below_backup id hid (env.nanos w1.clock) [syncName] (Or.inr List.prefix_rfl) ?_
      rw [hnb, hsync.1]
    have hold4 : w4.fs.lookup [nb] = w.fs.lookup (Core.names id) := by
      rw [hw4, ← hnb, if_neg hidb, if_neg hsb, hold]
    obtain ⟨hres, hw5⟩ := henv.removeDirAll (t := w4.fs) (n := nb) fun b => by
      rw [hold4]; exact hmirror b
    refine ⟨(), w4.did env (.removeDirAll backup), ioUnlessNotFound_run (henv.fault _ _) ?_,
      fun q => ?_, hst3.trans ((did_stores _ _).trans (did_stores _ _))⟩
    · simp only [FsOp.exec, hnb]
      exact hres.imp (fun h => ⟨(), h⟩) fun h => h
    · show ((FsOp.removeDirAll backup).exec env.long w4.fs).2.lookup q = _
      simp only [FsOp.exec, hnb]
      rw [hw5, hw4, ← hnb]
      by_cases hq : Core.names backup <+: q
      · have hidq : ¬ Core.names id <+: q := origin_not_prefix_backup hid hq
        have hsq : ¬ Core.names staging <+: q := fun h =>
          not_below_backup hid (Or.inr (hs.trans h)) hq
        rw [if_pos hq, if_neg hidq, if_neg hsq]
        obtain ⟨r, rfl⟩ := hq
        exact (w.fs.below_none hbackup).symm
      · rw [if_neg hq]
        split
        · exact hstaged _
        · rename_i hidq
          rw [hrest q hq, if_neg hidq]

variable {staged : StagedOriginSync} (hsid : staged.originId = id)
  (hs : InStaging staged.stagingDir)
include hsid hs

/-- An activation on a healthy disk. -/
theorem activateStagedOrigin_completes {w : World}
    (hmirror : ∀ b, w.fs.lookup (Core.names id) ≠ some (.file b))
    (hbackup : w.fs.lookup (Core.names (backupPath id (env.nanos (w.clock + 1)))) = none)
    (htop : w.under staged.stagingDir [] = some .dir) :
    Returns (step deps env) (fun _ w' =>
      (∀ q, w'.fs.lookup q =
        if Core.names id <+: q then w.under staged.stagingDir (q.drop (Core.names id).length)
        else if Core.names staged.stagingDir <+: q then none else w.fs.lookup q) ∧ SameStores w w')
      (activateStagedOrigin deps staged) w := by
  have hdir : originDir storeRoot staged.originId = .ok id := by
    rw [hsid]
    exact originDir_ok_iff.mpr ⟨rfl, hid⟩
  rw [activateStagedOrigin, hdir]
  refine Returns.bind ⟨id, w, rfl, ?_⟩
  refine Returns.bind (Returns.attempt ?_)
  exact (swapOriginDir_completes henv hid hs hmirror hbackup htop).mono fun _ w' hw' =>
    ⟨(), w', rfl, hw'⟩

theorem activateStagedOrigin_returns {w : World} (hw : Tidy id w)
    (htop : w.under staged.stagingDir [] = some .dir) :
    Returns (step deps env) (fun _ w' =>
      (∀ q, w'.fs.lookup q =
        if Core.names id <+: q then w.under staged.stagingDir (q.drop (Core.names id).length)
        else if Core.names staged.stagingDir <+: q then none else w.fs.lookup q) ∧ SameStores w w')
      (activateStagedOrigin deps staged) w :=
  activateStagedOrigin_completes henv hid hsid hs hw.mirror (hw.backup _) htop

end

section
variable {deps : Deps} {env : Env} (henv : Healthy env) {id : Str}
  (hplain : ∀ t summaries, env.listObjects t id = .ok summaries → ∀ s ∈ summaries, Plain s.key)
include henv hplain

omit henv hplain in
theorem activate_swap {staged : StagedOriginSync} {config : EdgeConfig} {registry : Registry}
    {snapshot : OriginSnapshotDebug} {w w' : World}
    (h : run (step deps env) (activate deps id staged config registry snapshot) w = (.ok (), w')) :
    ∃ w1, run (step deps env) (activateStagedOrigin deps staged) w = (.ok (), w1) ∧
      w'.fs = w1.fs := by
  obtain ⟨_, w1, h1, k1⟩ := run_bind_ok _ |>.mp h
  obtain ⟨_, w2, h2, k2⟩ := run_bind_ok _ |>.mp k1
  obtain ⟨_, w3, h3, k3⟩ := run_bind_ok _ |>.mp k2
  obtain ⟨_, w4, h4, h5⟩ := run_bind_ok _ |>.mp k3
  cases h2
  cases h3
  cases h4
  cases h5
  exact ⟨w1, h1, rfl⟩

/-- What was staged is a directory. -/
theorem staged_top {previous : Option OriginFreshnessIndex} {staged : StagedOriginSync}
    {w w' : World} (h : run (step deps env) (stageOriginSync deps id previous) w =
      (.ok staged, w')) : w'.under staged.stagingDir [] = some .dir := by
  obtain ⟨hid, -, -⟩ := stageOriginSync_shape h
  have hends := ends_iff.mp (@stageOriginSync_ends deps env id previous (fun _ _ => False)
    (henv.not_probeFails hid) w) fun _ _ => not_false
  rw [h] at hends
  obtain ⟨-, wl, -, -, -, ⟨summaries, now, hlist, hb⟩, hbuilt⟩ := hends staged rfl
  refine (hbuilt fun k hk => ?_).top
  obtain ⟨s, hmem, rfl⟩ := (mem_files_iff hb k).mp hk
  exact hplain _ _ hlist s hmem

/-- On a healthy disk a refresh activated or touched the staging area only. -/
theorem refreshOriginSnapshot_quiet {w w' : World} (hw : Tidy id w) {cdn : Option OriginCdnRefresh}
    {barrier : Option Str} {out : Outcome Error OriginSyncResponse}
    (h : run (step deps env) (refreshOriginSnapshot deps id cdn barrier) w = (out, w')) :
    Tidy id w' ∧ (Refreshed deps env id cdn barrier w w' ∨
      ((∀ r, out ≠ .ok r) ∧ Quiet w w' ∧ Kept id w w')) := by
  have hstart : Quiet w w.tick ∧ Kept id w w.tick ∧ Tidy id w.tick :=
    ⟨Quiet.tick w, ⟨fun _ _ => rfl, (Quiet.tick w).stores⟩, hw.mirror, hw.backup⟩
  have hends := ends_iff.mp (@refreshOriginSnapshot_ends deps env id (fun _ _ => False)
    (fun w' => Quiet w w' ∧ Kept id w w' ∧ Tidy id w') w hstart
    (fun hid w' hw' => ⟨hw', hw'.kept hid, hw.quiet hid hw'⟩) ?_ cdn barrier)
    (fun _ _ => not_false)
  · rw [h] at hends
    rcases hends with ⟨-, href⟩ | ⟨hno, hquiet, hkept, htidy⟩
    · refine ⟨?_, Or.inl href⟩
      obtain ⟨staged, config, registry, snapshot, w1, w2, w3, hstage, hprep, hact, hdata, -⟩ := href
      obtain ⟨hid, hsid, hdir⟩ := stageOriginSync_shape hstage
      have hs : InStaging staged.stagingDir := hdir ▸ stagingPath_inStaging deps hid _
      have hread := @quiet_of_reads deps env _ _
        (prepareActivation_reads deps id (w.freshnessIndexes id) staged barrier) w1
      have hstaged := @quiet_of_staged deps env _ _
        (stageOriginSync_within deps id (w.freshnessIndexes id)) w.tick
      rw [hprep] at hread
      rw [hstage] at hstaged
      have htidy : Tidy id w2 := hw.quiet hid ((Quiet.tick w).trans (hstaged.trans hread))
      have htop : w2.under staged.stagingDir [] = some .dir := by
        have hsame := (run_reads deps env (prepareActivation_reads deps id (w.freshnessIndexes id)
          staged barrier) w1).2
        rw [hprep] at hsame
        exact (hsame _).trans (staged_top henv hplain hstage)
      obtain ⟨wa, hswap, hfs⟩ := activate_swap hact
      obtain ⟨_, wb, hswap', hfiles, -⟩ := @activateStagedOrigin_returns deps env henv id hid staged hsid
        hs w2.tick.tick ⟨htidy.mirror, htidy.backup⟩ htop
      rw [hswap] at hswap'
      cases hswap'
      have htidy3 : Tidy id wa := htidy.swapped hid htop hfiles
      have hfs' : w'.fs = wa.fs := hdata.fs.trans hfs
      exact ⟨by rw [hfs']; exact htidy3.mirror, by rw [hfs']; exact htidy3.backup⟩
    · exact ⟨htidy, Or.inr ⟨hno, hquiet, hkept⟩⟩
  · intro staged w1 w2 hid hstage hquiet hfs
    obtain ⟨-, hsid, hdir⟩ := stageOriginSync_shape hstage
    have hs : InStaging staged.stagingDir := hdir ▸ stagingPath_inStaging deps hid _
    have htop : w2.under staged.stagingDir [] = some .dir :=
      (hfs _).trans (staged_top henv hplain hstage)
    obtain ⟨u, wa, hrun, -⟩ := @activateStagedOrigin_returns deps env henv id hid staged hsid hs w2
      (hw.quiet hid hquiet) htop
    exact ends_iff.mpr fun _ hne => absurd (congrArg Prod.fst hrun) (hne u)

end

end RenderMesh.Refresh
