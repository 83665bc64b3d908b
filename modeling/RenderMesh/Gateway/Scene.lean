import RenderMesh.Gateway.Service
import RenderMesh.Refresh.Snapshot

/-!
# Requests to a mirror at rest

A `Scene` is what one request finds: the files and the stores, which nothing
changes while it is handled, and its hooks' replies. On a disk without faults a run
of any part of the gateway is then its value in the scene (`run_scene`).
-/
namespace RenderMesh.Gateway

open RenderMesh.Core RenderMesh.Mirror RenderMesh.Server RenderMesh.Domains RenderMesh.Refresh

structure Scene where
  fs : Tree
  /-- names the file system refuses as too long -/
  long : Name → Bool
  edgeConfigs : Str → Option EdgeConfigEntry
  templates : Str → Option Registry
  hooks : Hooks

/-- The answer of the files to an operation of the mirror. -/
def Scene.serverAnswer (s : Scene) : (o : Op) → Option o.Res
  | .fs o => some (o.exec s.long s.fs).1
  | _ => none

def Scene.answer (s : Scene) : (o : GatewayOp) → Option o.Res
  | .server o => s.serverAnswer o
  | .edgeConfig id => some (s.edgeConfigs id)
  | .hook i hook request => some (s.hooks i hook request)
  | .originTemplates id => some (s.templates id)

/-- What code of the gateway comes to in the scene. -/
abbrev Scene.value {α : Type} (s : Scene) (m : Handling α) : Outcome Error α :=
  @eval GatewayOp GatewayOp.Res Error α s.answer m

/-- What code of the mirror comes to in the scene. -/
abbrev Scene.mirrorValue {α : Type} (s : Scene) (m : Async α) : Outcome Error α :=
  @eval Op Op.Res Error α s.serverAnswer m

/-- The scene that a request finds in a world. -/
def sceneOf (w : World) (env : Env) (hooks : Hooks) : Scene :=
  ⟨w.fs, env.long, w.edgeConfigs, w.templates, hooks⟩

/-- No file-system call fails on account of the disk, and no caller goes away. -/
def NoFaults (env : Env) : Prop := ∀ n o, env.fault n o = .none

/-- The operations of a request: it reads. -/
def GatewayOp.Looks : GatewayOp → Prop
  | .server (.fs (.read _)) | .server (.fs (.metadata _)) => True
  | .server _ => False
  | _ => True

/-- What a request looks at when it is for the origin `id`. -/
def GatewayOp.LooksIn (id : Str) : GatewayOp → Prop
  | .server (.fs (.read p)) | .server (.fs (.metadata p)) =>
    validateOriginId id = .ok () ∧ names id <+: names p ∧ Inside id p
  | .server _ => False
  | .edgeConfig id' | .originTemplates id' => id' = id
  | .hook _ _ _ => True

theorem GatewayOp.LooksIn.looks {id : Str} {o : GatewayOp} (ho : o.LooksIn id) : o.Looks := by
  cases o with
  | server o =>
    cases o with
    | fs o => cases o <;> trivial
    | _ => exact ho
  | _ => trivial

/-- A step that looks gives the answer of the scene and leaves the files and the stores. -/
theorem gatewayStep_looks {deps : Deps} {env : Env} {hooks : Hooks} (henv : NoFaults env)
    {o : GatewayOp} (ho : o.Looks) (w : World) :
    gatewayStep deps env hooks o w = ((sceneOf w env hooks).answer o, w.tick) := by
  cases o with
  | server o =>
    cases o with
    | fs o =>
      cases o with
      | read p =>
        simp [gatewayStep, step, FsOp.step, henv w.clock (.read p), Scene.answer, Scene.serverAnswer,
          sceneOf, FsOp.exec, World.tick]
      | metadata p =>
        simp [gatewayStep, step, FsOp.step, henv w.clock (.metadata p), Scene.answer,
          Scene.serverAnswer, sceneOf, FsOp.exec, World.tick]
      | _ => exact absurd ho id
    | _ => exact absurd ho id
  | edgeConfig id => rfl
  | hook i hook request => rfl
  | originTemplates id => rfl

/-- A run of code that looks is its value in the scene it finds. -/
theorem run_scene {deps : Deps} {env : Env} {hooks : Hooks} (henv : NoFaults env) {α : Type}
    {m : Handling α} (hm : m.Uses GatewayOp.Looks) (w : World) :
    ∃ w', run (gatewayStep deps env hooks) m w = ((sceneOf w env hooks).value m, w') ∧
      sceneOf w' env hooks = sceneOf w env hooks := by
  refine run_eval _ ?_ hm rfl
  intro o w' ho hw'
  rw [← hw', gatewayStep_looks henv ho]
  exact ⟨rfl, rfl⟩

/-! ## Which steps a request takes -/

section
variable (deps : GatewayDeps)

theorem readObject_looks (id path : Str) (access : ObjectReadAccess) :
    (readObject deps id path access).Uses (GatewayOp.LooksIn id) := by
  unfold readObject
  split
  · trivial
  · split
    · trivial
    · rename_i objectPath hpath
      have hinside := (objectPath_inside hpath).1
      obtain ⟨hvalid, n, -, rfl⟩ := objectPath_ok_iff.mp hpath
      have hbelow : names id <+: names (join (child storeRoot id) n) := by
        rw [names_join]
        exact List.prefix_append _ _
      refine Prog.uses_bind (Prog.uses_embed (uses_io ⟨hvalid, hbelow, hinside⟩)) fun metadata => ?_
      unfold readProbed
      split
      · trivial
      · exact Prog.uses_embed (Mirror.readObject_uses deps.toDeps path fun _ p hp hi => ⟨hvalid, hp, hi⟩)

theorem renderTemplate_looks (id path : Str) (params : Value) :
    (renderTemplate deps id path params).Uses (GatewayOp.LooksIn id) := by
  unfold renderTemplate
  split
  · trivial
  · refine Prog.uses_bind ((Prog.uses_perform _ _).mpr rfl) fun registry => ?_
    cases registry with
    | none => trivial
    | some registry =>
      simp only
      split
      · trivial
      · split <;> trivial

theorem serveObjectWithOptions_looks (id path : Str) (status : StatusCode) (params : Option Value)
    (headers : Headers) (access : ObjectReadAccess) :
    (serveObjectWithOptions deps id path status params headers access).Uses (GatewayOp.LooksIn id) := by
  refine Prog.uses_bind (readObject_looks deps id path access) fun object => ?_
  cases object with
  | none => trivial
  | some object =>
    cases params with
    | none => trivial
    | some params =>
      refine Prog.uses_bind (renderTemplate_looks deps id path params) fun rendered => ?_
      split <;> trivial

theorem serveStaticPathWithOptions_looks (id : Str) (config : EdgeConfig) (path : Str)
    (status : StatusCode) (params : Option Value) (headers : Headers) (access : ObjectReadAccess) :
    (serveStaticPathWithOptions deps id config path status params headers access).Uses
      (GatewayOp.LooksIn id) := by
  refine Prog.uses_bind (serveObjectWithOptions_looks deps id path status params headers access)
    fun response => ?_
  cases response with
  | some response => trivial
  | none =>
    simp only
    split
    · exact serveObjectWithOptions_looks deps id _ status params headers access
    · trivial

theorem handleMissing_looks (id : Str) (config : EdgeConfig) (headers : Headers) :
    (handleMissing deps id config headers).Uses (GatewayOp.LooksIn id) := by
  unfold handleMissing
  split
  · split
    · trivial
    · refine Prog.uses_bind (serveObjectWithOptions_looks deps id _ _ _ _ _) fun response => ?_
      cases response <;> trivial
  · split
    · trivial
    · exact serveObjectWithOptions_looks deps id _ _ _ _ _
  · exact Prog.uses_bind (Prog.uses_ofExcept _ _) fun _ => trivial

theorem edgeOutcome_looks (request : RenderRequest) (id : Str) (config : EdgeConfig)
    (headers : Headers) (state : EdgeChainState) (outcome : EdgePayloadOutcome) :
    (edgeOutcome deps request id config headers state outcome).Uses (GatewayOp.LooksIn id) := by
  cases outcome with
  | continue_ => trivial
  | respondDirect status body => trivial
  | serveFile status filePath params =>
    refine Prog.uses_bind (serveStaticPathWithOptions_looks deps id config _ _ _ _ _)
      fun response => ?_
    cases response with
    | some response => trivial
    | none => exact Prog.uses_bind (handleMissing_looks deps id config _) fun _ => trivial
  | renderTarget status params =>
    refine Prog.uses_bind (serveStaticPathWithOptions_looks deps id config _ _ _ _ _)
      fun response => ?_
    cases response <;> trivial

theorem edgeChain_looks (request : RenderRequest) (id : Str) (hookRequest : EdgeHookRequest)
    (config : EdgeConfig) (headers : Headers) (hooks : List EdgeHookConfig) :
    ∀ i state, (edgeChain deps request id hookRequest config headers i state hooks).Uses
      (GatewayOp.LooksIn id) := by
  induction hooks with
  | nil => exact fun _ _ => trivial
  | cons hook hooks ih =>
    intro i state
    refine Prog.uses_bind ((Prog.uses_perform _ _).mpr trivial) fun reply => ?_
    cases reply with
    | error error => trivial
    | ok reply =>
      simp only
      split
      · trivial
      · refine Prog.uses_bind (edgeOutcome_looks deps request id config headers _ _)
          fun response => ?_
        cases response with
        | some response => trivial
        | none => exact ih _ _

theorem handleStatic_looks (request : RenderRequest) (id : Str) (config : EdgeConfig)
    (headers : Headers) : (handleStatic deps request id config headers).Uses (GatewayOp.LooksIn id) := by
  unfold handleStatic
  split
  · exact Prog.uses_bind (Prog.uses_ofExcept _ _) fun _ => trivial
  · refine Prog.uses_bind (serveStaticPathWithOptions_looks deps id config _ _ _ _ _)
      fun response => ?_
    cases response with
    | some response => trivial
    | none => exact Prog.uses_bind (handleMissing_looks deps id config _) fun _ => trivial

/-- A request reads what there is for its origin. -/
theorem handle_looksIn {service : RenderGatewayService} {request : RenderRequest} {resolved : ResolvedHost}
    (hres : service.resolver.resolve request.host = some resolved) :
    (service.handle deps request).Uses (GatewayOp.LooksIn resolved.originId) := by
  have hserve : ∀ headers,
      (service.serve deps request resolved headers).Uses (GatewayOp.LooksIn resolved.originId) := by
    intro headers
    refine Prog.uses_bind ((Prog.uses_perform _ _).mpr rfl) fun entry => ?_
    split
    · refine Prog.uses_bind (edgeChain_looks deps request _ _ _ headers _ _ _) fun result => ?_
      unfold afterEdgeChain
      split
      · trivial
      · exact handleStatic_looks deps request _ _ _
    · trivial
  rw [RenderGatewayService.handle, hres]
  simp only
  split
  · trivial
  · trivial
  · exact hserve _

theorem handle_looks (service : RenderGatewayService) (request : RenderRequest) :
    (service.handle deps request).Uses GatewayOp.Looks := by
  cases hres : service.resolver.resolve request.host with
  | none =>
    rw [RenderGatewayService.handle, hres]
    trivial
  | some resolved => exact (handle_looksIn deps hres).mono fun _ ho => ho.looks

end

/-! ## A small site -/

/-- Requests in the examples have no `Origin`, no query and no hooks. -/
def smallGatewayDeps : GatewayDeps where
  toDeps := smallDeps
  parseUrl := fun _ => none
  parseForm := fun _ => []
  renderTemplate := fun _ _ _ => .ok []

def noHooks : Hooks := fun _ _ _ => .error .other

/-- A service for these hosts, none of which has a bucket or an edge context. -/
def siteService (resolver : HostResolver) : RenderGatewayService := ⟨resolver, ⟨∅⟩, ∅, ∅⟩

/-- The origin `web` is active with these files and this configuration. -/
def siteWorld (fs : Tree) (config : EdgeConfig) : World :=
  { World.start fs with
    edgeConfigs := Function.update (fun _ => none) "web".toList (some (.valid config)) }

def getRequest (path : String) : RenderRequest where
  method := .get
  host := "a.com".toList
  path := path.toList
  query := none
  scheme := "https".toList
  clientIp := none
  headers := []
  body := []

/-- The manifest that maps `a.com` to `web` is accepted. -/
theorem site_resolver : ∃ resolver, HostResolver.new (smallManifest [("a.com", "web")]) =
    .ok resolver ∧
    resolver.resolve "a.com".toList = some ⟨"a.com".toList, "a.com".toList, "web".toList⟩ := by
  have hres : ((HostResolver.new (smallManifest [("a.com", "web")])).toOption.bind
      (·.resolve "a.com".toList)) = some ⟨"a.com".toList, "a.com".toList, "web".toList⟩ := by decide
  cases hnew : HostResolver.new (smallManifest [("a.com", "web")]) with
  | error e =>
    rw [hnew] at hres
    cases hres
  | ok resolver =>
    rw [hnew] at hres
    exact ⟨resolver, rfl, hres⟩

end RenderMesh.Gateway
