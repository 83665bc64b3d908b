import RenderMesh.Refresh.CdnPhase
import RenderMesh.Refresh.Runs
import RenderMesh.Core.Results

/-!
# What a refresh asks the CDN to purge

A refresh makes one purge call, for what its index has that the one before has not, if that is
anything.

* `plan_covers_iff`: which objects a plan for a diff covers.
* `refreshOrigin_purged`: the record of calls after a refresh, whatever it met.
-/
namespace RenderMesh.Refresh

open RenderMesh.Core RenderMesh.Mirror RenderMesh.Server RenderMesh.Cdn

/-! ## Plans -/

/-- The paths, or the URLs, under which an object is purged. -/
def itemsOf (cdn : OriginCdnRefresh) (k : Str) : List Str :=
  if cdn.urlPrefixes = [] then [formatCdnPath k]
  else cdn.urlPrefixes.map fun pre => formatUrl pre (formatCdnPath k)

/-- A purge contains all items of an object. -/
def Covers (cdn : OriginCdnRefresh) (k : Str) : CdnPurgeMode → Prop
  | .all => True
  | .paths items | .urls items => ∀ item ∈ itemsOf cdn k, item ∈ items

/-- What a plan for a diff contains. -/
theorem plan_covers_iff {cdn : OriginCdnRefresh} {diff : OriginFreshnessDiff} {plan : CdnRefreshPlan}
    (hplan : buildCdnRefreshPlan cdn.strategy diff cdn.urlPrefixes = some plan) (k : Str) :
    Covers cdn k plan.mode ↔ cdn.strategy = .all ∨
      ∀ item ∈ itemsOf cdn k, ∃ k', Changed diff k' ∧ item ∈ itemsOf cdn k' := by
  unfold buildCdnRefreshPlan at hplan
  simp only at hplan
  split at hplan
  · cases hplan
  · cases hs : cdn.strategy with
    | all =>
      rw [hs] at hplan
      cases hplan
      simp [Covers]
    | changedPaths =>
      rw [hs] at hplan
      simp only at hplan
      by_cases hpre : cdn.urlPrefixes = []
      · rw [if_pos hpre] at hplan
        cases hplan
        simp only [Covers, itemsOf, hpre, if_true, List.mem_singleton, mem_changedPaths_cdn,
          reduceCtorEq, false_or]
        refine forall₂_congr fun item _ => exists_congr fun k' => and_congr_right fun _ => eq_comm
      · rw [if_neg hpre] at hplan
        cases hplan
        simp only [Covers, itemsOf, hpre, if_false, List.mem_map, List.mem_flatMap,
          mem_changedPaths_cdn, reduceCtorEq, false_or]
        refine forall₂_congr fun item _ => ?_
        constructor
        · rintro ⟨pre, hmem, path, ⟨k', hk', rfl⟩, he⟩
          exact ⟨k', hk', pre, hmem, he⟩
        · rintro ⟨k', hk', pre, hmem, he⟩
          exact ⟨pre, hmem, _, ⟨k', hk', rfl⟩, he⟩

/-! ## One refresh -/

section
variable {deps : Deps} {env : Env} {id : Str}

/-- A staging hands on what the listing changed. -/
theorem stageOriginSync_diff (previous : Option OriginFreshnessIndex) :
    (stageOriginSync deps id previous).Gives fun staged =>
      staged.diff = diffOriginIndexes previous staged.index := by
  have hdir : ∀ dir staging, (stageOriginDir deps dir staging previous).Gives fun result =>
      result.2.1 = diffOriginIndexes previous result.1 := by
    intro dir staging
    refine Prog.gives_then fun _ => Prog.gives_then fun r => Prog.gives_then fun summaries => ?_
    refine Prog.gives_then fun now => Prog.gives_then fun index => Prog.gives_then fun downloaded => ?_
    exact Prog.gives_then fun _ => Prog.gives_then fun _ => Prog.gives_pure rfl
  refine Prog.gives_then fun dir => Prog.gives_then fun staging => Prog.gives_then fun _ => ?_
  refine Prog.gives_bind (Prog.gives_attempt (hdir id staging)) fun result hresult => ?_
  cases result with
  | error e => exact Prog.gives_then fun _ => trivial
  | ok result => exact hresult _ rfl

theorem purged_of_uses {α : Type} {m : Async α} (hm : m.Uses fun o => isPurge o = false) (w : World) :
    (run (step deps env) m w).2.purged = w.purged := by
  refine keeps_of_uses (step deps env) (I := fun w' => w'.purged = w.purged) ?_ hm w rfl
  intro o ho w' hw'
  cases o <;> first | exact hw' | cases ho

/-- What comes after a call does not change the record, if it purges nothing. -/
theorem purged_bind {α β : Type} {m : Async α} {f : α → Async β}
    (hf : ∀ a, (f a).Uses fun o => isPurge o = false) (w : World) :
    (run (step deps env) (m >>= f) w).2.purged = (run (step deps env) m w).2.purged := by
  rw [run_bind]
  rcases run (step deps env) m w with ⟨a | e | _, w'⟩
  · exact purged_of_uses (hf a) w'
  · rfl
  · rfl

/-- The calls that a plan leads to, each with whether it was accepted. -/
def callsFor (env : Env) (id : Str) (generation : Nat) (w : World) :
    Option CdnRefreshPlan → List (CdnPurgeRequest × Bool)
  | none => []
  | some plan => [(⟨id, generation, plan.mode⟩,
      (reply (env.purge w.clock ⟨id, generation, plan.mode⟩)).any Except.isOk)]

/-- The purge record grows by the call for the plan, if there is one. -/
theorem refreshCdn_purged (cdn : OriginCdnRefresh) (generation : Nat) (diff : OriginFreshnessDiff)
    (w : World) : (run (step deps env) (refreshCdn id generation diff (some cdn)) w).2.purged =
      w.purged ++ callsFor env id generation w
        (buildCdnRefreshPlan cdn.strategy diff cdn.urlPrefixes) := by
  have hphase : (run (step deps env) (refreshAfterActivation cdn id generation diff) w).2.purged =
      w.purged ++ callsFor env id generation w
        (buildCdnRefreshPlan cdn.strategy diff cdn.urlPrefixes) := by
    unfold refreshAfterActivation
    cases buildCdnRefreshPlan cdn.strategy diff cdn.urlPrefixes with
    | none => exact (List.append_nil _).symm
    | some plan =>
      simp only
      rw [purged_bind (fun r => by cases r <;> trivial), call, run_perform]
      simp only [step, callsFor]
      cases reply (env.purge w.clock ⟨id, generation, plan.mode⟩) <;> rfl
  rw [refreshCdn, purged_bind, run_attempt]
  · rw [← hphase]
    rcases run (step deps env) (refreshAfterActivation cdn id generation diff) w with ⟨_ | _ | _, _⟩ <;> rfl
  · rintro (e | _ | outcome)
    · refine Prog.uses_bind ?_ fun _ => Prog.uses_bind (uses_call rfl) fun _ => trivial
      cases e.cdn with
      | none => trivial
      | some failure =>
        simp only
        split
        · trivial
        · exact uses_call rfl
    · trivial
    · exact Prog.uses_bind (uses_call rfl) fun _ => trivial

/-- What the objects of `w'` changed against those of `w`, by their indexes. -/
def indexDiff (id : Str) (w w' : World) : OriginFreshnessDiff :=
  match w'.freshnessIndexes id with
  | none => .empty
  | some next => diffOriginIndexes (w.freshnessIndexes id) next

theorem not_changed_empty (k : Str) : ¬ Changed .empty k := by
  simp [Changed, OriginFreshnessDiff.empty]

theorem not_changed_of_same {w w' : World} (h : w'.freshnessIndexes = w.freshnessIndexes) (k : Str) :
    ¬ Changed (indexDiff id w w') k := by
  rw [indexDiff, h]
  cases hindex : w.freshnessIndexes id with
  | none => exact not_changed_empty k
  | some index =>
    rintro (hk | hk | hk)
    · obtain ⟨hmem, hnone⟩ := (mem_added _ _ _).mp hk
      rw [Std.TreeMap.mem_iff_isSome_getElem?] at hmem
      simp only [previousFile, Option.bind_some] at hnone
      rw [hnone] at hmem
      cases hmem
    · obtain ⟨p, f, hp, hf, hs⟩ := (mem_modified _ _ _).mp hk
      simp only [previousFile, Option.bind_some] at hp
      obtain rfl := Option.some.inj (hp.symm.trans hf)
      rw [sameSourceState_refl] at hs
      cases hs
    · obtain ⟨hnot, hsome⟩ := (mem_removed _ _ _).mp hk
      simp only [previousFile, Option.bind_some] at hsome
      exact hnot (Std.TreeMap.mem_iff_isSome_getElem?.mpr hsome)

theorem activate_notPurge (staged : StagedOriginSync) (config : EdgeConfig) (registry : Registry)
    (snapshot : OriginSnapshotDebug) :
    (activate deps id staged config registry snapshot).Uses fun o => isPurge o = false := by
  refine Prog.uses_bind ((activateStagedOrigin_files staged).mono
    fun o ho => within_not_purge ho.within) fun _ => ?_
  refine Prog.uses_bind (uses_call rfl) fun _ => Prog.uses_bind (uses_call rfl) fun _ => ?_
  exact Prog.uses_bind (uses_call rfl) fun _ => uses_call rfl

/-- A refresh asks for one purge, of what it changed, if it changed something. -/
theorem pipeline_purged {service : OriginRefreshService} {cdn : OriginCdnRefresh}
    (hcdn : service.cdn id = some cdn) {out : Outcome Error OriginSyncResponse} {w w' : World}
    (h : run (step deps env) (pipeline deps service id) w = (out, w')) :
    ∃ generation v, w'.purged = w.purged ++ callsFor env id generation v
      (buildCdnRefreshPlan cdn.strategy (indexDiff id w w') cdn.urlPrefixes) := by
  rw [pipeline, hcdn] at h
  rcases refreshOriginSnapshot_stores h with ⟨-, href⟩ | ⟨-, hsame⟩
  · obtain ⟨staged, config, registry, snapshot, w1, w2, w3, hstage, hprep, hact, hdata, out', hrun⟩ := href
    obtain ⟨hid, hsid, hdir⟩ := stageOriginSync_shape hstage
    have hs : InStaging staged.stagingDir := hdir ▸ stagingPath_inStaging deps hid _
    obtain ⟨-, -, -, hindex⟩ := activate_ok hid hsid hs hact
    have hstaged := (@quiet_of_staged deps env _ _
      (stageOriginSync_within deps id (w.freshnessIndexes id)) w.tick).stores
    rw [hstage] at hstaged
    have hprepared := (run_reads deps env (prepareActivation_reads deps id (w.freshnessIndexes id)
      staged (service.activationBarrier id)) w1).1
    rw [hprep] at hprepared
    have hactivated := @purged_of_uses deps env _ _
      (@activate_notPurge deps id staged config registry snapshot) w2.tick.tick
    rw [hact] at hactivated
    have hpurged := @refreshCdn_purged deps env id cdn snapshot.generation staged.diff w3
    rw [hrun] at hpurged
    have hdiff : indexDiff id w w' = staged.diff := by
      rw [indexDiff, hdata.freshnessIndexes, hindex, run_gives (stageOriginSync_diff _) hstage]
    have hbefore : w3.purged = w.purged :=
      hactivated.trans (hprepared.purged.trans hstaged.purged)
    exact ⟨snapshot.generation, w3, by rw [hdiff, ← hbefore, hpurged]⟩
  · refine ⟨0, w, ?_⟩
    rw [(plan_none_iff cdn _).mpr (not_changed_of_same hsame.freshnessIndexes), callsFor,
      List.append_nil, hsame.purged]

theorem refreshOrigin_purged {service : OriginRefreshService} {cdn : OriginCdnRefresh}
    (hcdn : service.cdn id = some cdn) (w : World) : ∃ generation v,
    (refreshOrigin deps env service id w).2.purged = w.purged ++ callsFor env id generation v
      (buildCdnRefreshPlan cdn.strategy (indexDiff id w (refreshOrigin deps env service id w).2)
        cdn.urlPrefixes) := by
  have hrefused : ∃ generation v, w.purged = w.purged ++ callsFor env id generation v
      (buildCdnRefreshPlan cdn.strategy (indexDiff id w w) cdn.urlPrefixes) := by
    refine ⟨0, w, ?_⟩
    rw [(plan_none_iff cdn _).mpr (not_changed_of_same rfl), callsFor, List.append_nil]
  unfold refreshOrigin
  split
  · exact hrefused
  · split
    · exact hrefused
    · have hpipeline := fun out w' => @pipeline_purged deps env id service cdn hcdn out (w.lock id) w'
      unfold pipeline at hpipeline
      rcases hrun : run (step deps env) (refreshOriginSnapshot deps id (service.cdn id)
        (service.activationBarrier id)) (w.lock id) with ⟨response | e | _, w'⟩
      · have hend := hpipeline _ w' hrun
        exact hend
      · have hend := hpipeline _ w' hrun
        exact hend
      · have hend := hpipeline _ w' hrun
        exact hend

end

/-- In a run the refresh number `n` finds the object changed when it compares its listing with the
stored index. -/
def FoundBy (deps : Deps) (env : Env) (service : OriginRefreshService) (id : Str) (fs : Tree) (n : Nat)
    (k : Str) : Prop :=
  Changed (indexDiff id (refreshes deps env service id fs n) (refreshes deps env service id fs (n + 1))) k

/-- The small server's one origin, with a CDN that purges changed paths. -/
def pathsService : OriginRefreshService :=
  { plainService with cdn := fun _ => some ⟨.changedPaths, []⟩ }

end RenderMesh.Refresh
