import RenderMesh.Core.Along
import RenderMesh.Refresh.CdnPhase

/-!
# The step that activates a mirror

A refresh puts the staged mirror in place by one rename, the second of the swap. `refresh_acts_iff`
says when a refresh gets to it: the origin could be staged, the checks accepted what was staged,
and the calls of the swap that come first succeeded. A refresh asks for a purge only after it.
-/
namespace RenderMesh.Refresh

open RenderMesh.Core RenderMesh.Mirror RenderMesh.Server RenderMesh.Cdn

/-- The call succeeds, whether or not anybody waits for it. -/
def happens (env : Env) (o : FsOp) (w : World) : Bool :=
  match env.fault w.clock o with
  | .none | .drop true _ => (o.exec env.long w.fs).1.isOk
  | _ => false

/-- A rename out of the staging area. -/
def Leaves : Op → Prop
  | .fs (.rename a b) => InStaging a ∧ ¬ InStaging b
  | _ => False

/-- A staged mirror is put in place. -/
def activates (env : Env) (o : Op) (w : World) : Prop :=
  Leaves o ∧ ∀ call, o = .fs call → happens env call w = true

/-- What a refresh does outside the staging area and the stores. -/
def Acts (env : Env) (o : Op) (w : World) : Prop := activates env o w ∨ isPurge o = true

/-- The steps that may act. -/
def MayAct (o : Op) : Prop := Leaves o ∨ isPurge o = true

theorem Acts.may {env : Env} {o : Op} {w : World} (h : Acts env o w) : MayAct o := h.imp_left And.left

theorem staged_not_acts {o : Op} (ho : Staged o) : ¬ MayAct o := by
  rintro (hleaves | hpurge)
  · cases o with
    | fs o =>
      cases o with
      | rename a b =>
        obtain ⟨-, hb⟩ := hleaves
        -- the rename writes below `b`, where the staging area is not
        have hbelow : ∀ q, names b <+: q → [syncName] <+: q ∨ q <+: [syncName] :=
          fun q hq => ho q (Or.inr hq)
        rcases hbelow (names b) List.prefix_rfl with h | h
        · exact hb h
        · rcases List.prefix_cons_iff.mp h with hnil | ⟨t, ht, hnil⟩
          · let other : Name := ⟨"x".toList, by decide⟩
            have hother : other ≠ syncName := by decide
            rcases hbelow [other] (hnil ▸ List.nil_prefix) with h' | h'
            · exact hother (List.cons_prefix_cons.mp h').1.symm
            · exact hother (List.cons_prefix_cons.mp h').1
          · rw [List.prefix_nil.mp hnil] at ht
            exact hb (by rw [InStaging, ht])
      | _ => exact hleaves
    | _ => exact hleaves
  · rw [within_not_purge ho] at hpurge
    cases hpurge

theorem not_acts_of_call {o : Op} (hfs : ∀ call, o ≠ .fs call) (hpurge : isPurge o = false) :
    ¬ MayAct o := by
  rintro (h | h)
  · cases o with
    | fs call => exact hfs call rfl
    | _ => exact h
  · rw [hpurge] at h
    cases h

theorem removeAll_not_acts (p : PathBuf) : ¬ MayAct (.fs (.removeDirAll p)) := by
  rintro (h | h)
  · exact h
  · cases h

variable {deps : Deps} {env : Env} {id : Str}

/-! ## The swap -/

/-- A swap that returned has renamed the staged mirror. -/
theorem swapOriginDir_activates (hid : validateOriginId id = .ok ()) {staging : PathBuf}
    (hs : InStaging staging) {w : World}
    (hrun : ∃ w', run (step deps env) (swapOriginDir deps id staging) w = (.ok (), w')) :
    ∃ e ∈ trace (step deps env) (swapOriginDir deps id staging) w, activates env e.1 e.2 := by
  obtain ⟨w', h⟩ := hrun
  unfold swapOriginDir at h ⊢
  obtain ⟨_, w1, h1, h⟩ := run_bind_ok _ |>.mp h
  obtain ⟨now, w2, h2, h⟩ := run_bind_ok _ |>.mp h
  obtain ⟨r3, w3, h3, h⟩ := run_bind_ok _ |>.mp h
  obtain ⟨_, w4, h4, h⟩ := run_bind_ok _ |>.mp h
  obtain ⟨r5, w5, h5, h⟩ := run_bind_ok _ |>.mp h
  refine ⟨(.fs (.rename staging id), w4), ?_, ?_⟩
  · refine mem_trace_bind _ h1 (mem_trace_bind _ h2 (mem_trace_bind _ h3 (mem_trace_bind _ h4 ?_)))
    exact mem_trace_perform _ _ _ _
  · cases r5 with
    | error e =>
      obtain ⟨_, w6, -, h⟩ := run_bind_ok _ |>.mp h
      cases h
    | ok u =>
      have hnot : ¬ InStaging id := fun hin => origin_not_prefix_staging hid hin List.prefix_rfl
      refine ⟨⟨hs, hnot⟩, ?_⟩
      rintro _ ⟨⟩
      rcases io_ok h5 with ⟨hfault, hexec, -⟩ | ⟨left, -, hr, -⟩
      · rw [happens, hfault, ← hexec]
        rfl
      · cases hr

/-- An activation that returned has swapped. -/
theorem swap_of_activate (hid : validateOriginId id = .ok ()) {staged : StagedOriginSync}
    (hsid : staged.originId = id) {config : EdgeConfig} {registry : Registry}
    {snapshot : OriginSnapshotDebug} {w w' : World}
    (h : run (step deps env) (activate deps id staged config registry snapshot) w = (.ok (), w')) :
    ∃ w1, run (step deps env) (swapOriginDir deps id staged.stagingDir) w = (.ok (), w1) := by
  have hdir : originDir storeRoot id = .ok id := originDir_ok_iff.mpr ⟨rfl, hid⟩
  obtain ⟨_, w1, h1, -⟩ := run_bind_ok _ |>.mp h
  rw [activateStagedOrigin, hsid, hdir] at h1
  obtain ⟨dir, wd, hd, h1⟩ := run_bind_ok _ |>.mp h1
  cases hd
  obtain ⟨r, w2, h2, h3⟩ := run_bind_ok _ |>.mp h1
  cases r with
  | ok u => exact ⟨w2, (run_attempt_ok _).mp h2⟩
  | error error =>
    obtain ⟨_, w3, -, h4⟩ := run_bind_ok _ |>.mp h3
    cases h4

/-! ## The refresh -/

variable {cdn : Option OriginCdnRefresh} {barrier : Option Str} {w : World}

/-- The swap of a refresh comes to its rename. -/
def SwapsIn (deps : Deps) (env : Env) (id : Str) (barrier : Option Str) (w : World) : Prop :=
  ∃ staged w1 prepared w2,
    run (step deps env) (stageOriginSync deps id (w.freshnessIndexes id)) w.tick = (.ok staged, w1) ∧
    run (step deps env) (prepareActivation deps id (w.freshnessIndexes id) staged barrier) w1 =
      (.ok prepared, w2) ∧
    ∃ e ∈ trace (step deps env) (swapOriginDir deps id staged.stagingDir) w2.tick.tick,
      activates env e.1 e.2

/-- The steps of the activation proper that may act are the swap's. -/
theorem mem_trace_activate {staged : StagedOriginSync} (hid : validateOriginId id = .ok ())
    (hsid : staged.originId = id) {config : EdgeConfig} {registry : Registry}
    {snapshot : OriginSnapshotDebug} {e : Op × World}
    (he : e ∈ trace (step deps env) (activate deps id staged config registry snapshot) w)
    (hmay : MayAct e.1) :
    e ∈ trace (step deps env) (swapOriginDir deps id staged.stagingDir) w := by
  have hdir : originDir storeRoot staged.originId = .ok id := by
    rw [hsid]
    exact originDir_ok_iff.mpr ⟨rfl, hid⟩
  have hno : ¬ ¬ MayAct e.1 := not_not.mpr hmay
  have hstores : ∀ u : Unit, Prog.Uses (fun o => ¬ MayAct o) ((do
      call (.setValid id config)
      call (.setOriginRegistry id registry)
      call (.insertIndex id staged.index)
      call (.setSnapshot snapshot)) : Async Unit) := by
    intro _
    refine Prog.uses_bind (uses_call (not_acts_of_call (by simp) rfl)) fun _ => ?_
    refine Prog.uses_bind (uses_call (not_acts_of_call (by simp) rfl)) fun _ => ?_
    refine Prog.uses_bind (uses_call (not_acts_of_call (by simp) rfl)) fun _ => ?_
    exact uses_call (not_acts_of_call (by simp) rfl)
  have hswap := mem_trace_of_bind_of_uses (P := fun o => ¬ MayAct o) hstores he hno
  rw [activateStagedOrigin, hdir] at hswap
  have hattempt := mem_trace_of_bind_of_uses (P := fun o => ¬ MayAct o)
    (m := (swapOriginDir deps id staged.stagingDir).attempt) (fun r => ?_) hswap hno
  · rwa [trace_attempt] at hattempt
  · cases r with
    | ok u => trivial
    | error error =>
      exact Prog.uses_bind (uses_ioUnlessNotFound (removeAll_not_acts _) _) fun _ => trivial

/-- A refresh acts if its swap comes to the rename, and only then. -/
theorem refresh_acts_iff :
    (∃ e ∈ trace (step deps env) (refreshOriginSnapshot deps id cdn barrier) w, Acts env e.1 e.2) ↔
      SwapsIn deps env id barrier w := by
  constructor
  · rintro ⟨e, he, hacts⟩
    have hmay : ¬ ¬ MayAct e.1 := not_not.mpr hacts.may
    unfold refreshOriginSnapshot at he
    obtain ⟨previous, w1, hindex, he, -⟩ := mem_trace_bind_of_uses (P := fun o => ¬ MayAct o)
      (uses_call (not_acts_of_call (by simp) rfl)) he hmay
    cases hindex
    obtain ⟨staged, w2, hstage, he, -⟩ := mem_trace_bind_of_uses
      ((stageOriginSync_within deps id (w.freshnessIndexes id)).mono fun _ => staged_not_acts) he hmay
    have hreads := prepareActivation_reads deps id (w.freshnessIndexes id) staged barrier
    obtain ⟨preparation, w3, hprepare, he, -⟩ := mem_trace_bind_of_uses (P := fun o => ¬ MayAct o)
      (Prog.uses_attempt (hreads.mono fun _ ho => staged_not_acts (ho.within [syncName]))) he hmay
    obtain ⟨hid, hsid, hdir⟩ := stageOriginSync_shape hstage
    have hs : InStaging staged.stagingDir := hdir ▸ stagingPath_inStaging deps hid _
    cases preparation with
    | error error =>
      -- what is discarded is staged
      have hdiscard := removeDirIfExists_within deps hs
      obtain ⟨cleanup, w4, -, he, -⟩ := mem_trace_bind_of_uses
        (Prog.uses_attempt (hdiscard.mono fun _ => staged_not_acts)) he hmay
      cases cleanup <;> cases he
    | ok prepared =>
      obtain ⟨config, registry⟩ := prepared
      refine ⟨staged, w2, (config, registry), w3, hstage, (run_attempt_ok _).mp hprepare, ?_⟩
      simp only [activateSnapshot] at he
      obtain ⟨current, w4, hcurrent, he, -⟩ := mem_trace_bind_of_uses (P := fun o => ¬ MayAct o)
        (uses_call (not_acts_of_call (by simp) rfl)) he hmay
      cases hcurrent
      obtain ⟨now, w5, hnow, he, -⟩ := mem_trace_bind_of_uses (P := fun o => ¬ MayAct o)
        (uses_call (not_acts_of_call (by simp) rfl)) he hmay
      cases hnow
      rw [trace_bind, List.mem_append] at he
      rcases he with he | he
      · have hswap := mem_trace_activate hid hsid he hacts.may
        have hfiles := mem_trace_of_uses (swapOriginDir_files id staged.stagingDir) _ e hswap
        exact ⟨e, hswap, hacts.resolve_right fun hpurge => by
          rw [within_not_purge hfiles.within] at hpurge
          cases hpurge⟩
      · -- the CDN is asked after the activation proper
        revert he
        generalize hactivate : run (step deps env) (activate deps id staged config registry _) _ = r
        obtain ⟨u | error | _, w6⟩ := r
        · exact fun _ => swapOriginDir_activates hid hs (swap_of_activate hid hsid hactivate)
        · exact fun he => by cases he
        · exact fun he => by cases he
  · rintro ⟨staged, w1, prepared, w2, hstage, hprepare, e, he, hact⟩
    obtain ⟨config, registry⟩ := prepared
    obtain ⟨hid, hsid, -⟩ := stageOriginSync_shape hstage
    have hindex : run (step deps env) (call (.freshnessIndex id)) w =
        (.ok (w.freshnessIndexes id), w.tick) := rfl
    refine ⟨e, ?_, Or.inl hact⟩
    refine mem_trace_bind _ hindex (mem_trace_bind _ hstage (mem_trace_bind _
      ((run_attempt_ok _).mpr hprepare) ?_))
    have hcurrent : run (step deps env) (call (.originSnapshot id)) w2 =
        (.ok (w2.originRuntime id), w2.tick) := rfl
    have hnow : run (step deps env) (call .now) w2.tick = (.ok (env.nanos w2.tick.clock), w2.tick.tick) :=
      rfl
    refine mem_trace_bind _ hcurrent (mem_trace_bind _ hnow (mem_trace_bind_left _ ?_))
    refine mem_trace_bind_left _ ?_
    have hdir : run (step deps env) (Prog.ofExcept (originDir storeRoot staged.originId)) w2.tick.tick =
        (.ok id, w2.tick.tick) := by
      rw [run_ofExcept, hsid, show originDir storeRoot id = .ok id from originDir_ok_iff.mpr ⟨rfl, hid⟩]
    refine mem_trace_bind _ hdir (mem_trace_bind_left _ ?_)
    rwa [trace_attempt]

/-- A refresh that returned has activated. -/
theorem refresh_ok_swapsIn {response : OriginSyncResponse} {w' : World}
    (h : run (step deps env) (refreshOriginSnapshot deps id cdn barrier) w = (.ok response, w')) :
    SwapsIn deps env id barrier w := by
  rcases refreshOriginSnapshot_stores h with ⟨-, hrefreshed⟩ | ⟨hne, -⟩
  · obtain ⟨staged, config, registry, snapshot, w1, w2, w3, hstage, hprepare, hactivate, -, -⟩ := hrefreshed
    obtain ⟨hid, hsid, hdir⟩ := stageOriginSync_shape hstage
    have hs : InStaging staged.stagingDir := hdir ▸ stagingPath_inStaging deps hid _
    exact ⟨staged, w1, _, w2, hstage, hprepare,
      swapOriginDir_activates hid hs (swap_of_activate hid hsid hactivate)⟩
  · exact absurd rfl (hne response)

end RenderMesh.Refresh
