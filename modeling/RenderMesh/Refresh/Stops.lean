import RenderMesh.Refresh.Swap

/-!
# Refreshes that stop

A refresh can stop at any of its steps: a call fails, something it read is
rejected, or its future is dropped. Up to the swap it only writes in the staging
area (`Quiet`). `refreshOriginSnapshot_ends`: when activations do not stop half
way, a refresh either activated (`Refreshed`) or left its origin as it was
(`Kept`).
-/
namespace RenderMesh.Refresh

open RenderMesh.Core RenderMesh.Mirror RenderMesh.Server RenderMesh.Cdn

variable {deps : Deps} {env : Env}

/-- What serving an origin depends on is as it was: every file and directory of
its mirror, its edge configuration, templates, index and runtime snapshot. -/
structure Untouched (id : Str) (w w' : World) : Prop where
  mirror : SameMirror id w w'
  edgeConfig : w'.edgeConfigs id = w.edgeConfigs id
  templates : w'.templates id = w.templates id
  freshnessIndex : w'.freshnessIndexes id = w.freshnessIndexes id
  snapshot : w'.originRuntime id = w.originRuntime id

/-- The mirror of `id` and all stores are as they were. -/
structure Kept (id : Str) (w w' : World) : Prop where
  mirror : SameMirror id w w'
  stores : SameStores w w'

theorem Kept.untouched {id : Str} {w w' : World} (h : Kept id w w') : Untouched id w w' :=
  ⟨h.mirror, by rw [h.stores.edgeConfigs], by rw [h.stores.templates],
    by rw [h.stores.freshnessIndexes], by rw [h.stores.originRuntime]⟩

theorem Kept.trans {id : Str} {a b c : World} (h1 : Kept id a b) (h2 : Kept id b c) : Kept id a c :=
  ⟨fun q hq => (h2.mirror q hq).trans (h1.mirror q hq), h1.stores.trans h2.stores⟩

/-- Everything outside the staging area is as it was. -/
structure Quiet (w w' : World) : Prop where
  stores : SameStores w w'
  files : ∀ q, ¬ [syncName] <+: q → w'.fs.lookup q = w.fs.lookup q

theorem Quiet.tick (w : World) : Quiet w w.tick := ⟨⟨rfl, rfl, rfl, rfl, rfl, rfl⟩, fun _ _ => rfl⟩

theorem Quiet.trans {a b c : World} (h1 : Quiet a b) (h2 : Quiet b c) : Quiet a c :=
  ⟨h1.stores.trans h2.stores, fun q hq => (h2.files q hq).trans (h1.files q hq)⟩

theorem Quiet.kept {id : Str} (hid : validateOriginId id = .ok ()) {w w' : World}
    (h : Quiet w w') : Kept id w w' :=
  ⟨fun q hq => h.files q (staging_not_prefix_origin hid hq), h.stores⟩

theorem quiet_of_staged {α : Type} {m : Async α} (hm : m.Uses Staged) (w : World) :
    Quiet w (run (step deps env) m w).2 := by
  obtain ⟨h1, h2⟩ := run_within deps env hm w
  refine ⟨h1, fun q hq => ?_⟩
  by_cases hp : q <+: [syncName]
  · rcases prefix_singleton hp with h | h
    · exact absurd (by rw [h]) hq
    · rw [h]
      rfl
  · exact h2 q hq hp

theorem quiet_of_reads {α : Type} {m : Async α} (hm : m.Uses Op.Reads) (w : World) :
    Quiet w (run (step deps env) m w).2 :=
  ⟨(run_reads deps env hm w).1, fun q _ => (run_reads deps env hm w).2 q⟩

theorem ends_of_staged {α : Type} {m : Async α} (hm : m.Uses Staged) {T : Op → World → Prop}
    {w0 w : World} (hw : Quiet w0 w) :
    Ends (step deps env) T (fun _ w' => Quiet w0 w') m w :=
  ends_iff.mpr fun _ => hw.trans (quiet_of_staged hm w)

/-- How a staging that returned went: a copy of the mirror, and what was done to it. -/
theorem stageOriginSync_phases {id : Str} {previous : Option OriginFreshnessIndex}
    {staged : StagedOriginSync} {w w' : World}
    (h : run (step deps env) (stageOriginSync deps id previous) w = (.ok staged, w')) :
    validateOriginId id = .ok () ∧ staged.originId = id ∧
      staged.stagingDir = stagingPath deps id (env.nanos w.clock) ∧ ∃ w1,
      run (step deps env) (prepareStagingDir deps id staged.stagingDir) w.tick = (.ok (), w1) ∧
      run (step deps env) (stageOriginDir deps id staged.stagingDir previous) w1 =
        (.ok (staged.index, staged.diff, staged.downloaded), w') := by
  unfold stageOriginSync at h
  obtain ⟨dir, w1, h1, h⟩ := run_bind_ok _ |>.mp h
  cases hdir : originDir storeRoot id with
  | error e => rw [hdir] at h1; cases h1
  | ok d =>
    obtain ⟨rfl, hid⟩ := originDir_ok_iff.mp hdir
    rw [hdir] at h1
    simp only [run_ofExcept, Prod.mk.injEq, Outcome.ok.injEq] at h1
    obtain ⟨rfl, rfl⟩ := h1
    obtain ⟨staging, w2, h2, h⟩ := run_bind_ok _ |>.mp h
    rw [stagingDir_run deps hid] at h2
    cases h2
    obtain ⟨_, w3, h3, h⟩ := run_bind_ok _ |>.mp h
    obtain ⟨r, w4, h4, h⟩ := run_bind_ok _ |>.mp h
    cases r with
    | error e =>
      obtain ⟨_, w5, -, h⟩ := run_bind_ok _ |>.mp h
      cases h
    | ok v =>
      cases h
      exact ⟨hid, rfl, rfl, w3, h3, (run_attempt_ok _).mp h4⟩

/-- What a staging that returned hands on. -/
theorem stageOriginSync_shape {id : Str} {previous : Option OriginFreshnessIndex}
    {staged : StagedOriginSync} {w w' : World}
    (h : run (step deps env) (stageOriginSync deps id previous) w = (.ok staged, w')) :
    validateOriginId id = .ok () ∧ staged.originId = id ∧
      staged.stagingDir = stagingPath deps id (env.nanos w.clock) := by
  obtain ⟨hid, hoid, hdir, -⟩ := stageOriginSync_phases h
  exact ⟨hid, hoid, hdir⟩

/-- The swap only works on files. -/
theorem swapOriginDir_files (originDir stagingDir : PathBuf) :
    (swapOriginDir deps originDir stagingDir).Uses Op.OnFiles := by
  refine Prog.uses_bind (uses_withParent fun _ _ => uses_ioContext trivial _) fun _ => ?_
  refine Prog.uses_bind (uses_call trivial) fun now => ?_
  refine Prog.uses_bind (uses_io trivial) fun r => ?_
  refine Prog.uses_bind ?_ fun _ => ?_
  · unfold onlyIf
    split
    · exact uses_ioContext trivial _
    · trivial
  · refine Prog.uses_bind (uses_io trivial) fun r => ?_
    cases r with
    | ok u => exact uses_ioUnlessNotFound trivial _
    | error e =>
      refine Prog.uses_bind ?_ fun _ => trivial
      unfold onlyIf
      split
      · exact uses_ioContext trivial _
      · trivial

theorem activateStagedOrigin_files (staged : StagedOriginSync) :
    (activateStagedOrigin deps staged).Uses Op.OnFiles := by
  refine Prog.uses_ofExcept_bind fun dir _ => ?_
  refine Prog.uses_bind (Prog.uses_attempt (swapOriginDir_files dir _)) fun r => ?_
  cases r with
  | ok u => trivial
  | error e => exact Prog.uses_bind (uses_ioUnlessNotFound trivial _) fun _ => trivial

/-- Code on files leaves the stores alone. -/
theorem stores_of_files {α : Type} {m : Async α} (hm : m.Uses Op.OnFiles) (w : World) :
    SameStores w (run (step deps env) m w).2 :=
  (run_within deps env (hm.mono fun _ => Op.OnFiles.within) w).1

section
variable {id : Str} (hid : validateOriginId id = .ok ()) {staged : StagedOriginSync}
  (hsid : staged.originId = id) (hs : InStaging staged.stagingDir) {T : Op → World → Prop}
  {w : World} (hT : ∀ o w', tearsMirror env id (w.fs.lookup (names id)).isSome o w' = true → T o w')
include hid hsid hs hT

theorem activateStagedOrigin_ends :
    Ends (step deps env) T
      (fun out w' => (∀ u, out ≠ .ok u) → Kept id w w') (activateStagedOrigin deps staged) w := by
  have hdir : originDir storeRoot staged.originId = .ok id := by
    rw [hsid]
    exact originDir_ok_iff.mpr ⟨rfl, hid⟩
  rw [activateStagedOrigin, hdir]
  refine Ends.bind (Ends.bind (Ends.attempt ?_))
  have hswap : Ends (step deps env) T
      (fun (out : Outcome Error Unit) w' => (∀ u, out ≠ .ok u) → Kept id w w')
      (swapOriginDir deps id staged.stagingDir) w :=
    ends_iff.mpr fun ht hne =>
      ⟨ends_iff.mp (swapOriginDir_ends hid hs hT) ht hne, stores_of_files (swapOriginDir_files _ _) w⟩
  refine hswap.mono fun out w' hw' => ?_
  cases out with
  | ok u => exact fun hne => absurd rfl (hne ())
  | dropped => exact fun _ => hw' (by simp)
  | err e =>
    refine Ends.bind ?_
    have hclean := removeDirIfExists_within deps hs
    refine (ends_of_staged hclean (Quiet.mk (SameStores.refl w') fun _ _ => rfl)).mono ?_
    intro out w'' hw''
    have := (hw' (by simp)).trans (hw''.kept hid)
    cases out <;> exact fun _ => this

end

theorem refreshAfterActivation_ends {T : Op → World → Prop} (id : Str) (generation : Nat)
    (diff : OriginFreshnessDiff) (cdn : OriginCdnRefresh) (w : World) :
    Ends (step deps env) T
      (fun out _ => out = .dropped → ∃ o w', dropsPurge env o w' = true ∧ ¬ T o w')
      (refreshAfterActivation cdn id generation diff) w := by
  unfold refreshAfterActivation
  split
  · exact fun h => by cases h
  · rename_i plan _
    refine Ends.bind fun ht => ?_
    simp only [step]
    cases hr : env.purge w.clock ⟨id, generation, plan.mode⟩ with
    | ok result => exact fun h => by cases h
    | err e => exact fun h => by cases h
    | dropped => exact fun _ => ⟨_, w, by simp [dropsPurge, hr], ht⟩

/-- Once the mirror is in place, only a dropped purge stops a refresh. -/
theorem refreshCdn_ends {T : Op → World → Prop} (id : Str) (generation : Nat)
    (diff : OriginFreshnessDiff) (cdn : Option OriginCdnRefresh) (w : World) :
    Ends (step deps env) T
      (fun out _ => (∃ u, out = .ok u) ∨
        out = .dropped ∧ ∃ o w', dropsPurge env o w' = true ∧ ¬ T o w')
      (refreshCdn id generation diff cdn) w := by
  unfold refreshCdn
  split
  · exact Or.inl ⟨_, rfl⟩
  · rename_i cdn
    refine Ends.bind (Ends.attempt ((refreshAfterActivation_ends id generation diff cdn w).mono ?_))
    intro out w' hout
    cases out with
    | dropped => exact Or.inr ⟨rfl, hout rfl⟩
    | ok outcome =>
      cases outcome with
      | none => exact Or.inl ⟨_, rfl⟩
      | some outcome => exact fun _ => Or.inl ⟨_, rfl⟩
    | err e =>
      show Ends _ _ _ (_ >>= _) w'
      refine Ends.bind ?_
      split
      · split
        · exact fun _ => Or.inl ⟨_, rfl⟩
        · exact fun _ _ => Or.inl ⟨_, rfl⟩
      · exact fun _ => Or.inl ⟨_, rfl⟩

/-- Mirrors, configurations, templates and indexes are as they were. -/
structure SameData (w w' : World) : Prop where
  fs : w'.fs = w.fs
  edgeConfigs : w'.edgeConfigs = w.edgeConfigs
  templates : w'.templates = w.templates
  freshnessIndexes : w'.freshnessIndexes = w.freshnessIndexes
  clock : w.clock ≤ w'.clock

/-- The steps of the CDN phase. -/
def Op.Reports : Op → Prop
  | .purge _ | .setCdnResult _ _ _ _ _ _ | .setCdnError _ _ => True
  | _ => False

theorem refreshCdn_uses (id : Str) (generation : Nat) (diff : OriginFreshnessDiff)
    (cdn : Option OriginCdnRefresh) : (refreshCdn id generation diff cdn).Uses Op.Reports := by
  unfold refreshCdn
  split
  · trivial
  · rename_i cdn
    refine Prog.uses_bind (Prog.uses_attempt ?_) fun r => ?_
    · unfold refreshAfterActivation
      split
      · trivial
      · refine Prog.uses_bind (uses_call trivial) fun r => ?_
        cases r <;> trivial
    · cases r with
      | ok outcome =>
        cases outcome with
        | none => trivial
        | some outcome => exact Prog.uses_bind (uses_call trivial) fun _ => trivial
      | error e =>
        simp only
        refine Prog.uses_bind ?_ fun _ => Prog.uses_bind (uses_call trivial) fun _ => trivial
        split
        · split
          · trivial
          · exact uses_call trivial
        · trivial

theorem refreshCdn_sameData (id : Str) (generation : Nat) (diff : OriginFreshnessDiff)
    (cdn : Option OriginCdnRefresh) (w : World) :
    SameData w (run (step deps env) (refreshCdn id generation diff cdn) w).2 := by
  refine keeps_of_uses (step deps env) (P := Op.Reports) (I := SameData w) ?_
    (refreshCdn_uses id generation diff cdn) w ⟨rfl, rfl, rfl, rfl, Nat.le_refl _⟩
  intro o ho w' hw'
  have hclock : w.clock ≤ w'.tick.clock := Nat.le_succ_of_le hw'.clock
  cases o <;> first | exact False.elim ho | exact ⟨hw'.1, hw'.2, hw'.3, hw'.4, hclock⟩

/-- A refresh that activated, by its parts: what was staged, what the checks made
of it, the activation proper, and the CDN phase, which changed neither files nor data. -/
def Refreshed (deps : Deps) (env : Env) (id : Str) (cdn : Option OriginCdnRefresh)
    (barrier : Option Str) (w w' : World) : Prop :=
  ∃ staged config registry snapshot w1 w2 w3,
    run (step deps env) (stageOriginSync deps id (w.freshnessIndexes id)) w.tick = (.ok staged, w1) ∧
    run (step deps env) (prepareActivation deps id (w.freshnessIndexes id) staged barrier) w1 =
      (.ok (config, registry), w2) ∧
    run (step deps env) (activate deps id staged config registry snapshot) w2.tick.tick =
      (.ok (), w3) ∧
    SameData w3 w' ∧
    ∃ out, run (step deps env) (refreshCdn id snapshot.generation staged.diff cdn) w3 = (out, w')

theorem activate_ends {id : Str} {staged : StagedOriginSync} {T : Op → World → Prop}
    {K : World → Prop} {w : World}
    (hact : Ends (step deps env) T (fun out w' => (∀ u, out ≠ .ok u) → K w')
      (activateStagedOrigin deps staged) w)
    (config : EdgeConfig) (registry : Registry) (snapshot : OriginSnapshotDebug) :
    Ends (step deps env) T (fun out w' => (∀ u, out ≠ .ok u) → K w')
      (activate deps id staged config registry snapshot) w := by
  refine Ends.bind (hact.mono fun out w' hw' => ?_)
  cases out with
  | err e => exact fun _ => hw' (by simp)
  | dropped => exact fun _ => hw' (by simp)
  | ok u =>
    refine call_bind_ends rfl (call_bind_ends rfl (call_bind_ends rfl fun _ => ?_))
    exact fun hne => absurd rfl (hne ())

/-- A refresh activated or ended as `K` says. `hact`: an activation that stops does
so too. -/
theorem refreshOriginSnapshot_ends {id : Str} {T : Op → World → Prop} {K : World → Prop} {w : World}
    (hstart : K w.tick) (hquiet : validateOriginId id = .ok () → ∀ w', Quiet w w' → K w')
    (hact : ∀ staged w1 w2, validateOriginId id = .ok () →
      run (step deps env) (stageOriginSync deps id (w.freshnessIndexes id)) w.tick =
        (.ok staged, w1) →
      Quiet w w2 → (∀ q, w2.fs.lookup q = w1.fs.lookup q) →
      Ends (step deps env) T (fun out w' => (∀ u, out ≠ .ok u) → K w')
        (activateStagedOrigin deps staged) w2)
    (cdn : Option OriginCdnRefresh) (barrier : Option Str) :
    Ends (step deps env) T
      (fun out w' =>
        (((∃ r, out = .ok r) ∨ out = .dropped ∧ ∃ o w'', dropsPurge env o w'' = true ∧ ¬ T o w'') ∧
          Refreshed deps env id cdn barrier w w') ∨
        ((∀ r, out ≠ .ok r) ∧ K w'))
      (refreshOriginSnapshot deps id cdn barrier) w := by
  refine call_bind_ends rfl ?_
  have htick := Quiet.tick w
  by_cases hid : validateOriginId id = .ok ()
  · refine Ends.bind ((ends_of_staged (stageOriginSync_within deps id _) htick).with_run.mono ?_)
    rintro out w1 ⟨hw1, hstage⟩
    cases out with
    | err e => exact Or.inr ⟨(by simp), hquiet hid _ hw1⟩
    | dropped => exact Or.inr ⟨(by simp), hquiet hid _ hw1⟩
    | ok staged =>
      obtain ⟨-, -, hdir⟩ := stageOriginSync_shape hstage
      have hs : InStaging staged.stagingDir := hdir ▸ stagingPath_inStaging deps hid _
      have hprep : Ends (step deps env) T
          (fun out w2 => Quiet w w2 ∧ (∀ q, w2.fs.lookup q = w1.fs.lookup q) ∧
            run (step deps env) (prepareActivation deps id (w.freshnessIndexes id) staged barrier)
              w1 = (out, w2))
          (prepareActivation deps id (w.freshnessIndexes id) staged barrier) w1 := by
        have hreads := prepareActivation_reads deps id (w.freshnessIndexes id) staged barrier
        exact ends_iff.mpr fun _ => ⟨hw1.trans (quiet_of_reads hreads w1),
          (run_reads deps env hreads w1).2, rfl⟩
      refine Ends.bind (Ends.attempt (hprep.mono ?_))
      rintro out w2 ⟨hw2, hfs2, hrun2⟩
      cases out with
      | dropped => exact Or.inr ⟨(by simp), hquiet hid _ hw2⟩
      | err e =>
        refine Ends.bind (Ends.attempt ((ends_of_staged (removeDirIfExists_within deps hs)
          hw2).mono ?_))
        intro out w3 hw3
        cases out <;> exact Or.inr ⟨(by simp), hquiet hid _ hw3⟩
      | ok prepared =>
        obtain ⟨config, registry⟩ := prepared
        refine call_bind_ends rfl (call_bind_ends rfl ?_)
        have hw2' : Quiet w w2.tick.tick := hw2.trans ((Quiet.tick _).trans (Quiet.tick _))
        have hend := hact staged w1 w2.tick.tick hid hstage hw2' hfs2
        refine Ends.bind ((activate_ends hend config registry _).with_run.mono ?_)
        rintro out w3 ⟨hw3, hrun3⟩
        cases out with
        | err e => exact Or.inr ⟨(by simp), hw3 (by simp)⟩
        | dropped => exact Or.inr ⟨(by simp), hw3 (by simp)⟩
        | ok u =>
          have hcdn := @refreshCdn_ends deps env T id
            ((Option.map (fun snapshot => snapshot.generation + 1) (w2.originRuntime id)).getD 1)
            staged.diff cdn w3
          refine Ends.bind (hcdn.with_run.mono ?_)
          rintro out w4 ⟨hout, hrun4⟩
          have hdata : SameData w3 w4 := by
            have := @refreshCdn_sameData deps env id
              ((Option.map (fun snapshot => snapshot.generation + 1) (w2.originRuntime id)).getD 1)
              staged.diff cdn w3
            rwa [hrun4] at this
          have hdone : Refreshed deps env id cdn barrier w w4 :=
            ⟨staged, config, registry, _, w1, w2, w3, hstage, hrun2, hrun3, hdata, out, hrun4⟩
          rcases hout with ⟨v, rfl⟩ | ⟨rfl, hdrop⟩
          · exact Or.inl ⟨Or.inl ⟨_, rfl⟩, hdone⟩
          · exact Or.inl ⟨Or.inr ⟨rfl, hdrop⟩, hdone⟩
  · -- an id that names no directory is rejected before anything is done
    refine Ends.bind ?_
    have hdir : ∃ e, originDir storeRoot id = .error e := by
      cases h : originDir storeRoot id with
      | error e => exact ⟨e, rfl⟩
      | ok d => exact absurd (originDir_ok_iff.mp h).2 hid
    obtain ⟨e, he⟩ := hdir
    rw [stageOriginSync, he]
    exact Or.inr ⟨(by simp), hstart⟩

/-- Whatever happens to the files, a refresh that did not activate left the stores as
they were. -/
theorem refreshOriginSnapshot_stores {id : Str} {cdn : Option OriginCdnRefresh}
    {barrier : Option Str} {out : Outcome Error OriginSyncResponse} {w w' : World}
    (h : run (step deps env) (refreshOriginSnapshot deps id cdn barrier) w = (out, w')) :
    ((∃ r, out = .ok r) ∨ out = .dropped) ∧ Refreshed deps env id cdn barrier w w' ∨
      (∀ r, out ≠ .ok r) ∧ SameStores w w' := by
  have hends := ends_iff.mp (@refreshOriginSnapshot_ends deps env id (fun _ _ => False)
    (SameStores w) w (Quiet.tick w).stores (fun _ _ hq => hq.stores)
    (fun staged _ w2 _ _ hq _ => ends_iff.mpr fun _ _ =>
      hq.stores.trans (stores_of_files (activateStagedOrigin_files staged) w2)) cdn barrier) fun _ _ => not_false
  rw [h] at hends
  rcases hends with ⟨hout, href⟩ | hkept
  · exact Or.inl ⟨hout.imp_right And.left, href⟩
  · exact Or.inr hkept

/-- When no step tears the mirror, a refresh that did not activate kept it. -/
theorem refreshOriginSnapshot_kept {id : Str} {T : Op → World → Prop} {w : World}
    (hT : ∀ o w', tearsMirror env id (w.fs.lookup (names id)).isSome o w' = true → T o w')
    (cdn : Option OriginCdnRefresh) (barrier : Option Str) :
    Ends (step deps env) T
      (fun out w' =>
        (((∃ r, out = .ok r) ∨ out = .dropped ∧ ∃ o w'', dropsPurge env o w'' = true ∧ ¬ T o w'') ∧
          Refreshed deps env id cdn barrier w w') ∨
        ((∀ r, out ≠ .ok r) ∧ Kept id w w'))
      (refreshOriginSnapshot deps id cdn barrier) w := by
  refine refreshOriginSnapshot_ends ⟨fun _ _ => rfl, (Quiet.tick w).stores⟩
    (fun hid w' h => h.kept hid) (fun staged w1 w2 hid hstage hquiet _ => ?_) cdn barrier
  obtain ⟨-, hsid, hdir⟩ := stageOriginSync_shape hstage
  have hs : InStaging staged.stagingDir := hdir ▸ stagingPath_inStaging deps hid _
  have hkept := hquiet.kept hid
  have hhad : w2.fs.lookup (names id) = w.fs.lookup (names id) := hkept.mirror _ List.prefix_rfl
  exact (activateStagedOrigin_ends hid hsid hs (by rw [hhad]; exact hT)).mono
    fun out w' h hne => hkept.trans (h hne)

end RenderMesh.Refresh
