import RenderMesh.Domains.Resolver
import RenderMesh.Routes.Traffic
import RenderMesh.Startup.Runtime

/-!
# A server that has started

`build_render_runtime` refreshes every origin before it builds the gateway. From there on a refresh
replaces the edge configuration of its origin by one that passed `validate_edge_config`, or leaves
it as it is, and no request changes it.

* `refresh_live`: after a refresh that returned `Ok`, its origin is `Live`.
* `takeMoves_live`: an origin stays `Live`, whatever is under way.
* `started_serves`: both, for the origin of every host that a started server resolves.
-/
namespace RenderMesh.Routes

open RenderMesh.Core RenderMesh.Mirror RenderMesh.Server RenderMesh.Domains RenderMesh.Refresh
open RenderMesh.Gateway RenderMesh.Startup

/-- The origin has an edge configuration that passed its checks, and a snapshot of a generation. -/
structure Live (deps : Deps) (w : World) (id : Str) : Prop where
  config : ∃ config, w.edgeConfigs id = some (.valid config) ∧ validateEdgeConfig deps config = .ok ()
  generation : 1 ≤ generationOf w id

/-! ## Refreshes -/

/-- The operations of a refresh, with what it stores. -/
def Stores (deps : Deps) : Op → Prop
  | .setValid _ config => validateEdgeConfig deps config = .ok ()
  | .setSnapshot snapshot => 1 ≤ snapshot.generation
  | _ => True

section
variable {deps : Deps} {env : Env} {id : Str} {w : World}

theorem Live.congr {w' : World} (h : Live deps w id) (hconfigs : w'.edgeConfigs = w.edgeConfigs)
    (hgeneration : generationOf w' id = generationOf w id) : Live deps w' id := by
  obtain ⟨hconfig, hgen⟩ := h
  exact ⟨hconfigs.symm ▸ hconfig, hgeneration.symm ▸ hgen⟩

theorem step_live {o : Op} (ho : Stores deps o) (h : Live deps w id) :
    Live deps (step deps env o w).2 id := by
  have hgeneration := @step_generation deps env o w id
  cases o with
  | setValid id' config =>
    refine ⟨?_, hgeneration.symm ▸ h.generation⟩
    by_cases hid : id = id'
    · subst hid
      exact ⟨config, Function.update_self _ _ _, ho⟩
    · obtain ⟨before, hbefore, hvalid⟩ := h.config
      exact ⟨before, (Function.update_of_ne hid _ _).trans hbefore, hvalid⟩
  | setSnapshot snapshot =>
    refine ⟨h.config, hgeneration.symm ▸ ?_⟩
    dsimp only
    split
    · exact ho
    · exact h.generation
  | _ => exact ⟨h.config, hgeneration.symm ▸ h.generation⟩

theorem run_live {α : Type} {m : Async α} (hm : m.Uses (Stores deps)) (h : Live deps w id) :
    Live deps (run (step deps env) m w).2 id :=
  keeps_of_uses (step deps env) (I := fun w => Live deps w id) (fun _ ho _ => step_live ho) hm w h

theorem Stores.of_within {dir : List Name} {o : Op} (ho : o.Within dir) : Stores deps o := by
  cases o <;> trivial

theorem refreshCdn_stores (generation : Nat) (diff : OriginFreshnessDiff) (cdn : Option OriginCdnRefresh) :
    (refreshCdn id generation diff cdn).Uses (Stores deps) :=
  (refreshCdn_uses id generation diff cdn).mono fun o ho => by cases o <;> trivial

theorem loadEdgeConfigFrom_valid (root : PathBuf) (originId : Str) :
    ∀ paths, (loadEdgeConfigFrom deps root originId paths).Gives fun config =>
      validateEdgeConfig deps config = .ok ()
  | [] => defaultEdgeConfig_valid deps
  | candidate :: rest => by
    refine Prog.gives_then fun object => ?_
    cases object with
    | none => exact loadEdgeConfigFrom_valid root originId rest
    | some object =>
      dsimp only
      split
      · trivial
      · rename_i content _
        cases hparse : parseEdgeConfig deps content with
        | error e => trivial
        | ok config => exact parseEdgeConfig_valid hparse

theorem prepareActivation_valid (previous : Option OriginFreshnessIndex) (staged : StagedOriginSync)
    (barrier : Option Str) : (prepareActivation deps id previous staged barrier).Gives fun prepared =>
      validateEdgeConfig deps prepared.1 = .ok () := by
  refine Prog.gives_then fun _ => Prog.gives_then fun mirror => ?_
  refine Prog.gives_bind (loadEdgeConfigFrom_valid mirror.1 mirror.2 EDGE_CONFIG_PATHS) fun config hvalid => ?_
  exact Prog.gives_then fun registry => hvalid

theorem activateSnapshot_stores (cdn : Option OriginCdnRefresh) (staged : StagedOriginSync)
    {config : EdgeConfig} (hvalid : validateEdgeConfig deps config = .ok ()) (registry : Registry) :
    (activateSnapshot deps id cdn staged config registry).Uses (Stores deps) := by
  refine Prog.uses_bind (uses_call trivial) fun current => Prog.uses_bind (uses_call trivial) fun now => ?_
  have hgeneration : 1 ≤ (current.map fun snapshot => snapshot.generation + 1).getD 1 := by
    cases current <;> simp
  have hswap : (activateStagedOrigin deps staged).Uses (Stores deps) :=
    (activateStagedOrigin_files staged).mono fun o ho => .of_within ho.within
  refine Prog.uses_bind ?_ fun _ => Prog.uses_bind ?_ fun _ => trivial
  · refine Prog.uses_bind hswap fun _ => Prog.uses_bind (uses_call hvalid) fun _ => ?_
    refine Prog.uses_bind (uses_call trivial) fun _ => Prog.uses_bind (uses_call trivial) fun _ => ?_
    exact uses_call hgeneration
  · exact refreshCdn_stores _ _ _

theorem pipeline_stores (service : OriginRefreshService) :
    (pipeline deps service id).Uses (Stores deps) := by
  refine Prog.uses_bind (uses_call trivial) fun previous => ?_
  refine Prog.uses_bind ((stageOriginSync_within deps id previous).mono fun _ => .of_within) fun staged => ?_
  refine Prog.uses_bind_gives
    (Prog.uses_attempt ((prepareActivation_reads deps id previous staged _).mono fun o ho =>
      .of_within (ho.within [])))
    (Prog.gives_attempt (prepareActivation_valid previous staged _)) fun preparation hvalid => ?_
  cases preparation with
  | error e =>
    refine Prog.uses_bind (Prog.uses_attempt (uses_ioUnlessNotFound trivial _)) fun cleanup => ?_
    cases cleanup <;> trivial
  | ok prepared => exact activateSnapshot_stores _ staged (hvalid prepared rfl) prepared.2

theorem activate_live {staged : StagedOriginSync} {config : EdgeConfig}
    (hvalid : validateEdgeConfig deps config = .ok ()) {registry : Registry}
    {snapshot : OriginSnapshotDebug} (hid : snapshot.originId = id) (hgeneration : 1 ≤ snapshot.generation)
    {w' : World} (h : run (step deps env) (activate deps id staged config registry snapshot) w =
      (.ok (), w')) : Live deps w' id := by
  obtain ⟨_, wa, -, ka⟩ := run_bind_ok _ |>.mp h
  obtain ⟨_, wb, hb, kb⟩ := run_bind_ok _ |>.mp ka
  obtain ⟨_, wc, hc, kc⟩ := run_bind_ok _ |>.mp kb
  obtain ⟨_, wd, hd, he⟩ := run_bind_ok _ |>.mp kc
  cases hb
  cases hc
  cases hd
  cases he
  refine ⟨⟨config, Function.update_self _ _ _, hvalid⟩, ?_⟩
  refine hgeneration.trans_eq ?_
  exact ((@step_generation deps env (.setSnapshot snapshot) _ id).trans (if_pos hid)).symm

theorem activateSnapshot_live {cdn : Option OriginCdnRefresh} {staged : StagedOriginSync}
    {config : EdgeConfig} (hvalid : validateEdgeConfig deps config = .ok ()) {registry : Registry}
    {response : OriginSyncResponse} {w' : World}
    (h : run (step deps env) (activateSnapshot deps id cdn staged config registry) w =
      (.ok response, w')) : Live deps w' id := by
  obtain ⟨current, w1, -, k1⟩ := run_bind_ok _ |>.mp h
  obtain ⟨now, w2, -, k2⟩ := run_bind_ok _ |>.mp k1
  obtain ⟨_, w3, hactivate, k3⟩ := run_bind_ok _ |>.mp k2
  obtain ⟨cdn', w4, hcdn, hend⟩ := run_bind_ok _ |>.mp k3
  cases hend
  have hgeneration : 1 ≤ (current.map fun snapshot => snapshot.generation + 1).getD 1 := by
    cases current <;> simp
  have hlive : Live deps w3 id := @activate_live deps env id _ staged config hvalid registry _ rfl
    hgeneration w3 hactivate
  have hkept := @run_live deps env id w3 _ _ (@refreshCdn_stores deps id
    ((current.map fun snapshot => snapshot.generation + 1).getD 1) staged.diff cdn) hlive
  rwa [hcdn] at hkept

/-- A refresh that returns `Ok` has stored both. -/
theorem pipeline_live {service : OriginRefreshService} {response : OriginSyncResponse} {w' : World}
    (h : run (step deps env) (pipeline deps service id) w = (.ok response, w')) : Live deps w' id := by
  obtain ⟨previous, w1, -, k1⟩ := run_bind_ok _ |>.mp h
  obtain ⟨staged, w2, -, k2⟩ := run_bind_ok _ |>.mp k1
  obtain ⟨preparation, w3, hprepare, k3⟩ := run_bind_ok _ |>.mp k2
  cases preparation with
  | error e =>
    obtain ⟨cleanup, w4, -, k4⟩ := run_bind_ok _ |>.mp k3
    cases cleanup <;> cases k4
  | ok prepared =>
    have hvalid := run_gives (prepareActivation_valid previous staged _)
      ((run_attempt_ok _).mp hprepare)
    exact activateSnapshot_live hvalid k3

theorem refreshOrigin_live (service : OriginRefreshService) (id' : Str) (h : Live deps w id) :
    Live deps (refreshOrigin deps env service id' w).2 id := by
  have hrun := @run_live deps env id (w.lock id') _ _ (@pipeline_stores deps id' service) (h.congr rfl rfl)
  unfold refreshOrigin
  split
  · exact h
  · split
    · exact h
    · unfold pipeline at hrun
      generalize run (step deps env) (refreshOriginSnapshot deps id' (service.cdn id')
        (service.activationBarrier id')) (w.lock id') = r at hrun
      rcases r with ⟨response | e | _, w'⟩
      · exact hrun.congr rfl rfl
      · exact hrun.congr rfl (setError_generation _ _ _ _)
      · exact hrun.congr rfl rfl

theorem refresh_live {service : OriginRefreshService} {response : OriginSyncResponse}
    (h : (refreshOrigin deps env service id w).1 = .ok response) :
    Live deps (refreshOrigin deps env service id w).2 id := by
  have hpipeline : ∀ {r w'}, run (step deps env) (pipeline deps service id) (w.lock id) = (.ok r, w') →
      Live deps w' id := fun hr => pipeline_live hr
  unfold refreshOrigin at h ⊢
  split at h
  · cases h
  · rename_i hknown
    rw [if_neg hknown]
    split at h
    · cases h
    · rename_i hfree
      rw [if_neg hfree]
      unfold pipeline at hpipeline
      generalize run (step deps env) (refreshOriginSnapshot deps id (service.cdn id)
        (service.activationBarrier id)) (w.lock id) = r at h hpipeline
      rcases r with ⟨r | e | _, w'⟩
      · exact (hpipeline rfl).congr rfl rfl
      · cases h
      · cases h

end

/-! ## The startup -/

section
variable {P : Type} {deps : Deps} {env : StartupEnv P} {id : Str} {s : StartupWorld P}

theorem generationOf_map (w : World) (id' : Str) {f : OriginSnapshotDebug → OriginSnapshotDebug}
    (hf : ∀ snapshot, (f snapshot).generation = snapshot.generation) :
    generationOf ({ w.tick with
      originRuntime := Function.update w.originRuntime id' ((w.originRuntime id').map f) }) id =
      generationOf w id := by
  rw [generationOf_update, generationOf]
  by_cases h : id = id'
  · subst h
    rw [Function.update_self, Option.map_map]
    exact congrArg (fun g => (Option.map g _).getD 0) (funext hf)
  · rw [Function.update_of_ne h]

theorem startupStep_live (o : StartupOp) (h : Live deps s.server id) :
    Live deps (startupStep deps env o s).2.server id := by
  cases o with
  | refreshOrigin service id' => exact refreshOrigin_live service id' h
  | setCdnDomainResult id' result => exact h.congr rfl (generationOf_map _ _ fun _ => rfl)
  | setCdnDomainError id' error => exact h.congr rfl (generationOf_map _ _ fun _ => rfl)
  | _ => exact h

theorem starting_live {α : Type} {m : Starting α} {out : Outcome Error α} {s' : StartupWorld P}
    (hrun : run (startupStep deps env) m s = (out, s')) (h : Live deps s.server id) :
    Live deps s'.server id := by
  have hkept := keeps_of_uses (startupStep deps env) (I := fun s => Live deps s.server id)
    (fun o _ _ => startupStep_live o) (Prog.uses_all (fun _ => trivial) m) s h
  rwa [hrun] at hkept

/-- The turn of the loop over the origins makes its origin live, and keeps the others so. -/
theorem syncOriginAtStartup_live {manifest : RenderMeshManifest} {service : OriginRefreshService}
    {cdn : StartupCdn} {s' : StartupWorld P}
    (h : run (startupStep deps env) (syncOriginAtStartup manifest service cdn id) s = (.ok (), s')) :
    Live deps s'.server id := by
  obtain ⟨report, s1, hreport, hrest⟩ := run_bind_ok _ |>.mp h
  cases report with
  | error error => cases hrest
  | ok response =>
    have hlive : Live deps s1.server id := by
      rw [start, run_perform, startupStep] at hreport
      cases hrefresh : (refreshOrigin deps env.server service id s.server).1 with
      | ok response' =>
        rw [hrefresh] at hreport
        cases hreport
        exact refresh_live hrefresh
      | err error => rw [hrefresh] at hreport; cases hreport
      | dropped => rw [hrefresh] at hreport; cases hreport
    exact starting_live hrest hlive

theorem syncOriginsAtStartup_live {manifest : RenderMeshManifest} {service : OriginRefreshService}
    {cdn : StartupCdn} {s' : StartupWorld P}
    (h : run (startupStep deps env) (syncOriginsAtStartup manifest service cdn) s = (.ok (), s'))
    (hid : id ∈ manifest.origins.toList.map (·.1)) : Live deps s'.server id := by
  have hall := run_fold_ok (startupStep deps env)
    (fun done _ (_ : Unit) s => ∀ id ∈ done, Live deps s.server id) ?_ _ [] _ _ _ _ (by simp) h
  · exact hall id (by simpa using hid)
  · intro done originId rest _ s _ s' hdone hturn id hmem
    rcases List.mem_append.mp hmem with hmem | hmem
    · exact starting_live hturn (hdone id hmem)
    · cases List.mem_singleton.mp hmem
      exact syncOriginAtStartup_live hturn

theorem spawnBackgroundSync_spawned {manifest : RenderMeshManifest} {s' : StartupWorld P}
    (h : run (startupStep deps env) (spawnBackgroundSync manifest) s = (.ok (), s'))
    {entry : Str × OriginConfig} (hentry : entry ∈ manifest.origins.toList) :
    (entry.1, entry.2.syncIntervalSeconds.getD manifest.runtime.syncIntervalSeconds) ∈ s'.spawned := by
  have hall := run_fold_ok (startupStep deps env) (fun done _ (_ : Unit) s => ∀ entry ∈ done,
    (entry.1, entry.2.syncIntervalSeconds.getD manifest.runtime.syncIntervalSeconds) ∈ s.spawned)
    ?_ _ [] _ _ _ _ (by simp) h
  · exact hall entry (by simpa using hentry)
  · intro done entry rest _ s _ s' hdone hturn entry' hmem
    cases hturn
    rcases List.mem_append.mp hmem with hmem | hmem
    · exact List.mem_append_left _ (hdone entry' hmem)
    · cases List.mem_singleton.mp hmem
      exact List.mem_append_right _ List.mem_cons_self

theorem parseManifestConfig_hosts {yaml json : Str → Except Str RenderMeshManifest} {input : Str}
    {manifest : RenderMeshManifest} (h : parseManifestConfig yaml json input = .ok manifest)
    {entry : Str × HostConfig} (hentry : entry ∈ manifest.hosts.toList) :
    entry.2.origin ∈ manifest.origins := by
  obtain ⟨manifest', -, hrest⟩ := exceptBind_ok.mp h
  obtain ⟨_, hvalid, hend⟩ := exceptBind_ok.mp hrest
  cases hend
  obtain ⟨_, -, h1⟩ := exceptBind_ok.mp hvalid
  obtain ⟨_, -, h2⟩ := exceptBind_ok.mp h1
  obtain ⟨_, -, h3⟩ := exceptBind_ok.mp h2
  obtain ⟨_, -, hhosts⟩ := exceptBind_ok.mp h3
  obtain ⟨_, -, horigin⟩ := exceptBind_ok.mp (forM_ok_iff.mp hhosts entry hentry)
  by_contra hno
  rw [Std.TreeMap.mem_iff_contains, Bool.not_eq_true] at hno
  rw [reject, if_pos hno] at horigin
  cases horigin

/-- What a started server resolves is an origin of its manifest. -/
theorem resolve_origin {manifest : RenderMeshManifest} {resolver : HostResolver}
    (hhosts : ∀ entry ∈ manifest.hosts.toList, entry.2.origin ∈ manifest.origins)
    (hnew : HostResolver.new manifest = .ok resolver) {host : Str} {resolved : ResolvedHost}
    (hresolve : resolver.resolve host = some resolved) : resolved.originId ∈ manifest.origins := by
  cases hn : normalizeHost host with
  | none => simp [HostResolver.resolve, hn] at hresolve
  | some n =>
    rcases resolve_cases hnew hn with ⟨rule, o, -, hrule, hres⟩ | ⟨-, hres⟩
    · rw [hres] at hresolve
      cases hresolve
      obtain ⟨entry, hentry, -, rfl⟩ := hrule
      exact hhosts entry hentry
    · rw [hres] at hresolve
      cases hresolve

/-- What a startup that returned has made of the server. -/
theorem started_live {startup : StartupDeps} {path : PathBuf} {runtime : RenderRuntime}
    {s' : StartupWorld P}
    (h : run (startupStep deps env) (buildRenderRuntime startup path) s = (.ok runtime, s'))
    {host : Str} {resolved : ResolvedHost}
    (hresolve : runtime.renderGateway.resolver.resolve host = some resolved) :
    Live deps s'.server resolved.originId ∧ ∃ interval, (resolved.originId, interval) ∈ s'.spawned := by
  obtain ⟨content, s1, -, k1⟩ := run_bind_ok _ |>.mp h
  obtain ⟨manifest, s2, hmanifest, k2⟩ := run_bind_ok _ |>.mp k1
  obtain ⟨origins, s3, -, k3⟩ := run_bind_ok _ |>.mp k2
  obtain ⟨cdn, s4, -, hlaunch⟩ := run_bind_ok _ |>.mp k3
  obtain ⟨_, s5, hsync, k5⟩ := run_bind_ok _ |>.mp hlaunch
  obtain ⟨_, s6, hspawn, k6⟩ := run_bind_ok _ |>.mp k5
  obtain ⟨resolver, s7, hnew, hend⟩ := run_bind_ok _ |>.mp k6
  cases hend
  obtain ⟨hresolver, rfl⟩ := run_ofExcept_ok _ hnew
  obtain ⟨hmanifest', -⟩ := run_ofExcept_ok _ hmanifest
  have hmem := resolve_origin (fun entry => parseManifestConfig_hosts hmanifest') hresolver hresolve
  obtain ⟨origin, horigin⟩ := Option.isSome_iff_exists.mp
    (Std.TreeMap.mem_iff_isSome_getElem?.mp hmem)
  have hentry : (resolved.originId, origin) ∈ manifest.origins.toList :=
    Std.TreeMap.mem_toList_iff_getElem?_eq_some.mpr horigin
  exact ⟨starting_live hspawn (syncOriginsAtStartup_live hsync (List.mem_map_of_mem hentry)),
    _, spawnBackgroundSync_spawned hspawn hentry⟩

end

/-! ## The server at work -/

section
variable {deps : GatewayDeps} {env : Env} {hooks : Nat → Hooks} {app : AppState}
  {config : SystemRouteConfig} {bodyLimitBytes : Nat} {tasks : Nat → Task} {id : Str}

/-- The origin is live, whatever is under way, and its snapshot can be had. -/
structure Serves (deps : Deps) (config : SystemRouteConfig) (tasks : Nat → Task) (id : Str)
    (s : Traffic) : Prop where
  traffic : TrafficInv config tasks s
  live : Live deps s.calls.world id
  runs : ∀ i rest, s.calls.state i = .running rest → rest.Uses (Stores deps)
  snapshot : ∀ j, tasks j = .http (.snapshot id) → Answers 1 (s.progress j)

/-- A turn of any refresh. -/
theorem takeTurn_live {deps : Deps} {service : OriginRefreshService} {originIds : Nat → Str} {s : Calls}
    (hlive : Live deps s.world id)
    (hruns : ∀ i rest, s.state i = .running rest → rest.Uses (Stores deps)) (t : Turn) :
    Live deps (takeTurn deps env service originIds s t).world id ∧
      ∀ i rest, (takeTurn deps env service originIds s t).state i = .running rest →
        rest.Uses (Stores deps) := by
  have hmove : ∀ i w c, Live deps w id → (∀ rest, c = CallState.running rest → rest.Uses (Stores deps)) →
      Live deps (s.move i w c).world id ∧
        ∀ j rest, (s.move i w c).state j = .running rest → rest.Uses (Stores deps) := by
    refine fun i w c hw hc => ⟨hw, fun j rest hj => ?_⟩
    rw [move_state] at hj
    split at hj
    · exact hc rest hj
    · exact hruns j rest hj
  cases t with
  | next i =>
    cases hi : s.state i with
    | waiting =>
      simp only [takeTurn, hi]
      split
      · exact hmove i _ _ hlive (by simp)
      · split
        · exact hmove i _ _ hlive (by simp)
        · refine hmove i _ _ (hlive.congr rfl rfl) fun rest hrest => ?_
          cases hrest
          exact pipeline_stores service
    | running rest =>
      cases rest with
      | ret response =>
        simp only [takeTurn, hi]
        exact hmove i _ _ hlive (by simp)
      | fail e =>
        simp only [takeTurn, hi]
        exact hmove i _ _ (hlive.congr rfl (setError_generation _ _ _ _)) (by simp)
      | op o k =>
        obtain ⟨ho, hk⟩ := hruns i _ hi
        simp only [takeTurn, hi, Calls.answer]
        split
        · refine hmove i _ _ (step_live ho hlive) fun rest hrest => ?_
          cases hrest
          exact hk _
        · exact hmove i _ _ (step_live ho hlive) (by simp)
    | releasing result =>
      simp only [takeTurn, hi]
      exact hmove i _ _ (hlive.congr rfl rfl) (by simp)
    | done result =>
      simp only [takeTurn, hi]
      exact ⟨hlive, hruns⟩
  | drop i =>
    cases hi : s.state i with
    | waiting =>
      simp only [takeTurn, hi]
      exact hmove i _ _ hlive (by simp)
    | running rest =>
      simp only [takeTurn, hi]
      exact hmove i _ _ hlive (by simp)
    | _ =>
      simp only [takeTurn, hi]
      exact ⟨hlive, hruns⟩

theorem serves_start {w : World} (h : Live deps.toDeps w id) :
    Serves deps.toDeps config tasks id (.start w) :=
  ⟨trafficInv_start w, h, fun i rest hi => (by cases hi), fun j _ => trivial⟩

theorem takeMove_serves {s : Traffic} (h : Serves deps.toDeps config tasks id s) (m : Move) :
    Serves deps.toDeps config tasks id
      (takeMove deps env hooks app config bodyLimitBytes tasks s m) := by
  have hinv := @takeMove_inv deps env hooks app config bodyLimitBytes tasks s h.traffic m
  have hsnapshot : ∀ j, tasks j = .http (.snapshot id) → Answers 1
      ((takeMove deps env hooks app config bodyLimitBytes tasks s m).progress j) := fun j hj =>
    takeMove_answers h.traffic hj le_rfl h.live.generation (h.snapshot j hj) m
  obtain ⟨hcalls, -⟩ := @takeMove_cases deps env hooks app config bodyLimitBytes tasks s h.traffic m
  cases hcalls with
  | waits n hworld hstate =>
    refine ⟨hinv, ?_, ?_, hsnapshot⟩
    · rw [hworld]
      exact h.live.congr rfl rfl
    · rw [hstate]
      exact h.runs
  | turns service _ _ hturn =>
    obtain ⟨hlive, hruns⟩ := @takeTurn_live env id deps.toDeps service
      (fun i => (tasks i).originId) s.calls h.live h.runs m.turn
    exact ⟨hinv, hturn ▸ hlive, hturn ▸ hruns, hsnapshot⟩

theorem takeMoves_serves {s : Traffic} (h : Serves deps.toDeps config tasks id s) (moves : List Move) :
    Serves deps.toDeps config tasks id
      (takeMoves deps env hooks app config bodyLimitBytes tasks s moves) := by
  induction moves generalizing s with
  | nil => exact h
  | cons m moves ih => exact ih (takeMove_serves h m)

/-- A server that has started serves the origin of each of its hosts from then on: under a
configuration that passed its checks, whatever the refreshes come to, with a snapshot for everyone
who asks, and refreshed in the background. -/
theorem started_serves {P : Type} (deps : GatewayDeps) (startup : StartupDeps) (env : StartupEnv P)
    (path : PathBuf) (s s' : StartupWorld P) (runtime : RenderRuntime)
    (hstart : run (startupStep deps.toDeps env) (buildRenderRuntime startup path) s =
      (.ok runtime, s'))
    (hooks : Nat → Hooks) (config : SystemRouteConfig) (bodyLimitBytes : Nat) (tasks : Nat → Task)
    (moves : List Move) (host : Str) (resolved : ResolvedHost)
    (hresolve : runtime.renderGateway.resolver.resolve host = some resolved) :
    let app : AppState := ⟨runtime.renderGateway, some runtime.originRefresh⟩
    let t := takeMoves deps env.server hooks app config bodyLimitBytes tasks (.start s'.server) moves
    Live deps.toDeps t.calls.world resolved.originId ∧
      (∀ j reply, tasks j = .http (.snapshot resolved.originId) → t.progress j = .done (some reply) →
        ∃ snapshot, reply = .snapshot snapshot ∧ 1 ≤ snapshot.generation) ∧
      (∀ request : RenderRequest, request.host = host → ∀ i,
        Gateway.Answers (sceneOf t.calls.world env.server (hooks i)) deps resolved.originId
          (requestReads deps app.renderGateway (sceneOf t.calls.world env.server (hooks i)) request)
          (fun _ => True) (app.renderGateway.handle deps request)) ∧
      ∃ interval, (resolved.originId, interval) ∈ s'.spawned := by
  obtain ⟨hlive, hspawned⟩ := started_live hstart hresolve
  have hserves := @takeMoves_serves deps env.server hooks
    ⟨runtime.renderGateway, some runtime.originRefresh⟩ config bodyLimitBytes tasks resolved.originId _
    (serves_start hlive) moves
  refine ⟨hserves.live, fun j reply hj hreply => ?_, fun request hhost i => ?_, hspawned⟩
  · have hanswer := hserves.snapshot j hj
    rw [hreply] at hanswer
    exact hanswer.snapshot
  · subst hhost
    refine handle_answers hresolve fun config hconfig => ?_
    obtain ⟨config', hconfig', hvalid⟩ := hserves.live.config
    rw [show (sceneOf _ env.server (hooks i)).edgeConfigs resolved.originId = some (.valid config')
      from hconfig'] at hconfig
    cases hconfig
    exact hvalid

end

/-! ## A server with one host -/

/-- The deserializers know one manifest. -/
def webDeps : StartupDeps :=
  { smallDeps with
    yaml := fun _ => .ok (smallManifest [("a.com", "web")])
    json := fun _ => .ok (smallManifest [("a.com", "web")])
    envVar := fun _ => none
    originEdgeContexts := fun _ => ∅ }

/-- Storages that are built, and no providers. -/
def webEnv : StartupEnv Unit where
  server := calmEnv
  manifestFile := fun _ => .ok []
  originStorage := fun _ _ => .ok ()
  cdnRepository := fun _ _ => .ok ()
  reconcileDomains := fun _ p => (.error (anyhow "no provider".toList), p)
  reconcileTenants := fun _ p => (.error (anyhow "no provider".toList), p)

/-- The run of the startup from an empty disk. -/
def webStart : Outcome Error RenderRuntime × StartupWorld Unit :=
  run (startupStep smallGatewayDeps.toDeps webEnv) (buildRenderRuntime webDeps "m.yaml".toList)
    ⟨World.start FileTree.empty, (), []⟩

theorem started_serves_web : ∃ runtime resolved, webStart.1 = .ok runtime ∧
    runtime.renderGateway.resolver.resolve "a.com".toList = some resolved ∧
    let t := takeMoves smallGatewayDeps calmEnv (fun _ => noHooks)
      ⟨runtime.renderGateway, some runtime.originRefresh⟩ ⟨some "t".toList⟩ 1000 adminTasks
      (.start webStart.2.server) [.next 0, .next 0, .next 2, .drop 0]
    Live smallGatewayDeps.toDeps t.calls.world resolved.originId := by
  have hstarted : webStart.1.ok?.any (fun runtime =>
      (runtime.renderGateway.resolver.resolve "a.com".toList).isSome) = true := by decide +kernel
  obtain ⟨runtime, hruntime, hsome⟩ := (Option.any_eq_true _ _).mp hstarted
  obtain ⟨resolved, hresolve⟩ := Option.isSome_iff_exists.mp hsome
  have hstart : webStart.1 = .ok runtime := Outcome.ok?_eq_some.mp hruntime
  exact ⟨runtime, resolved, hstart, hresolve,
    (started_serves smallGatewayDeps webDeps webEnv "m.yaml".toList ⟨World.start FileTree.empty, (), []⟩
      webStart.2 runtime (Prod.ext hstart rfl) (fun _ => noHooks) ⟨some "t".toList⟩ 1000 adminTasks
      [.next 0, .next 0, .next 2, .drop 0] "a.com".toList resolved hresolve).1⟩

end RenderMesh.Routes
