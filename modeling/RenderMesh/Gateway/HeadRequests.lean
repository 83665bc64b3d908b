import RenderMesh.Core.Results
import RenderMesh.Gateway.Scene

/-!
# HEAD and GET

A `HEAD` request takes the steps of the `GET` request and returns its response without the
body. The two differ in what the hooks are told (`method`) and in `finalize_response`,
which is the last thing on every way to a response with a body.

* `handle_tracks`: the two runs, step by step.
* `head_mirrors_get`: what they return.
-/
namespace RenderMesh.Gateway

open RenderMesh.Core RenderMesh.Mirror RenderMesh.Server RenderMesh.Domains RenderMesh.Refresh

/-- The response to a `HEAD` request. -/
def RenderResponse.withoutBody (response : RenderResponse) : RenderResponse :=
  { response with body := [] }

/-- The hooks answer both requests alike. -/
def AnsweredAlike (deps : GatewayDeps) (service : RenderGatewayService) (hooks : Hooks)
    (get head : RenderRequest) : Prop :=
  ∀ resolved i hook,
    hooks i hook (edgeHookRequest deps head resolved (service.bucketForOrigin resolved.originId)
      service.originEdgeContexts[resolved.originId]?) =
    hooks i hook (edgeHookRequest deps get resolved (service.bucketForOrigin resolved.originId)
      service.originEdgeContexts[resolved.originId]?)

/-- Two calls of a hook that are answered alike. -/
theorem ask_hook_tracks {deps : Deps} {env : Env} {hooks : Hooks} {i : Nat} {hook : EdgeHookConfig}
    {hookGet hookHead : EdgeHookRequest} (halike : hooks i hook hookHead = hooks i hook hookGet)
    {α β : Type} {f : α → β} {k : Except EdgeHttpError EdgeHttpResponse → Handling α}
    {k' : Except EdgeHttpError EdgeHttpResponse → Handling β}
    (hk : ∀ reply, Tracks (gatewayStep deps env hooks) f (k reply) (k' reply)) :
    Tracks (gatewayStep deps env hooks) f (ask (.hook i hook hookGet) >>= k)
      (ask (.hook i hook hookHead) >>= k') := by
  intro w
  show run (gatewayStep deps env hooks) (k' (hooks i hook hookHead)) w.tick = _
  rw [halike]
  exact hk _ w.tick

section
variable {deps : GatewayDeps} {env : Env} {hooks : Hooks} {get : RenderRequest}
  (hget : get.method = .get)
include hget

theorem finalizeResponse_head (response : RenderResponse) :
    finalizeResponse { get with method := .head } response =
      (finalizeResponse get response).withoutBody := by
  simp [finalizeResponse, hget, RenderResponse.withoutBody]

theorem withEdgeHeaders_head (response : RenderResponse) (state : EdgeChainState)
    (headers : Headers) : withEdgeHeaders response state headers { get with method := .head } =
      (withEdgeHeaders response state headers get).withoutBody :=
  finalizeResponse_head hget _

theorem edgeOutcome_tracks (id : Str) (config : EdgeConfig) (headers : Headers)
    (state : EdgeChainState) (outcome : EdgePayloadOutcome) :
    Tracks (gatewayStep deps.toDeps env hooks) (Option.map RenderResponse.withoutBody)
      (edgeOutcome deps get id config headers state outcome)
      (edgeOutcome deps { get with method := .head } id config headers state outcome) := by
  cases outcome with
  | continue_ => exact tracks_pure rfl
  | respondDirect status body => exact tracks_pure (congrArg some (withEdgeHeaders_head hget _ _ _).symm)
  | serveFile status filePath params =>
    refine tracks_then fun response => ?_
    cases response with
    | some response => exact tracks_pure (congrArg some (withEdgeHeaders_head hget _ _ _).symm)
    | none =>
      exact tracks_then fun response =>
        tracks_pure (congrArg some (finalizeResponse_head hget _).symm)
  | renderTarget status params =>
    refine tracks_then fun response => ?_
    cases response with
    | some response => exact tracks_pure (congrArg some (withEdgeHeaders_head hget _ _ _).symm)
    | none => exact tracks_pure (congrArg some (finalizeResponse_head hget _).symm)

theorem edgeChain_tracks (originId : Str) {hookGet hookHead : EdgeHookRequest}
    (halike : ∀ i hook, hooks i hook hookHead = hooks i hook hookGet) (config : EdgeConfig)
    (headers : Headers) (edges : List EdgeHookConfig) : ∀ i state,
    Tracks (gatewayStep deps.toDeps env hooks)
      (Prod.map (Option.map RenderResponse.withoutBody) id)
      (edgeChain deps get originId hookGet config headers i state edges)
      (edgeChain deps { get with method := .head } originId hookHead config headers i state edges) := by
  induction edges with
  | nil => exact fun i state => tracks_pure rfl
  | cons hook edges ih =>
    intro i state
    refine ask_hook_tracks (halike i hook) ?_
    intro reply
    cases reply with
    | error error =>
      refine tracks_pure ?_
      simp [finalizeResponse_head hget]
    | ok reply =>
      simp only
      split
      · refine tracks_pure ?_
        simp [finalizeResponse_head hget]
      · refine tracks_bind (edgeOutcome_tracks hget originId config headers _ _) fun response => ?_
        cases response with
        | some response => exact tracks_pure rfl
        | none => exact ih _ _

theorem handleStatic_tracks (originId : Str) (config : EdgeConfig) (headers : Headers) :
    Tracks (gatewayStep deps.toDeps env hooks) RenderResponse.withoutBody
      (handleStatic deps get originId config headers)
      (handleStatic deps { get with method := .head } originId config headers) := by
  unfold handleStatic
  cases findRedirect config get.path get.query with
  | some redirect => exact tracks_then fun status => tracks_pure (finalizeResponse_head hget _).symm
  | none =>
    refine tracks_then fun response => ?_
    cases response with
    | some response => exact tracks_pure (finalizeResponse_head hget _).symm
    | none => exact tracks_then fun response => tracks_pure (finalizeResponse_head hget _).symm

/-- A `HEAD` request runs as its `GET` request, and returns its response without the body. -/
theorem handle_tracks {service : RenderGatewayService}
    (halike : AnsweredAlike deps service hooks get { get with method := .head }) :
    Tracks (gatewayStep deps.toDeps env hooks) RenderResponse.withoutBody
      (service.handle deps get) (service.handle deps { get with method := .head }) := by
  unfold RenderGatewayService.handle
  cases service.resolver.resolve get.host with
  | none => exact tracks_pure rfl
  | some resolved =>
    simp only [hget]
    refine tracks_then fun entry => ?_
    split
    · refine tracks_bind (edgeChain_tracks hget _ (halike resolved) _ _ _ 0 ⟨∅⟩) fun result => ?_
      obtain ⟨response, edgeHeaders⟩ := result
      cases response with
      | some response => exact tracks_pure rfl
      | none => exact handleStatic_tracks hget _ _ _
    · exact tracks_pure rfl

end

/-- Whatever the state, the disk and the hooks' replies, a `HEAD` request gets the status and
the headers of its `GET` request and no body, or both fail. -/
theorem head_mirrors_get (deps : GatewayDeps) (env : Env) (hooks : Hooks)
    (service : RenderGatewayService) (w : World) (get : RenderRequest) (hget : get.method = .get)
    (halike : AnsweredAlike deps service hooks get { get with method := .head }) :
    (∃ response response' w',
        run (gatewayStep deps.toDeps env hooks) (service.handle deps get) w = (.ok response, w') ∧
        run (gatewayStep deps.toDeps env hooks) (service.handle deps { get with method := .head }) w =
          (.ok response', w') ∧
        response'.status = response.status ∧ response'.headers = response.headers ∧
        response'.body = []) ∨
    (∃ e w', run (gatewayStep deps.toDeps env hooks) (service.handle deps get) w = (.err e, w') ∧
        run (gatewayStep deps.toDeps env hooks) (service.handle deps { get with method := .head }) w =
          (.err e, w')) ∨
    ∃ w', run (gatewayStep deps.toDeps env hooks) (service.handle deps get) w = (.dropped, w') ∧
        run (gatewayStep deps.toDeps env hooks) (service.handle deps { get with method := .head }) w =
          (.dropped, w') := by
  have hhead := @handle_tracks deps env hooks get hget service halike w
  rcases hrun : run (gatewayStep deps.toDeps env hooks) (service.handle deps get) w with
    ⟨response | e | _, w'⟩
  · rw [hrun] at hhead
    exact Or.inl ⟨response, response.withoutBody, w', rfl, hhead, rfl, rfl, rfl⟩
  · rw [hrun] at hhead
    exact Or.inr (Or.inl ⟨e, w', rfl, hhead⟩)
  · rw [hrun] at hhead
    exact Or.inr (Or.inr ⟨w', rfl, hhead⟩)

/-- `HEAD /a` and `GET /a` at the small site. -/
theorem head_mirrors_get_a : ∃ resolver,
    HostResolver.new (smallManifest [("a.com", "web")]) = .ok resolver ∧
    ∃ response response' w',
      run (gatewayStep smallDeps calmEnv noHooks)
        ((siteService resolver).handle smallGatewayDeps (getRequest "/a"))
        (siteWorld FileTree.empty defaultEdgeConfig) = (.ok response, w') ∧
      run (gatewayStep smallDeps calmEnv noHooks)
        ((siteService resolver).handle smallGatewayDeps { getRequest "/a" with method := .head })
        (siteWorld FileTree.empty defaultEdgeConfig) = (.ok response', w') ∧
      response'.status = response.status ∧ response'.headers = response.headers ∧
      response'.body = [] := by
  obtain ⟨resolver, hnew, -⟩ := site_resolver
  have halike : AnsweredAlike smallGatewayDeps (siteService resolver) noHooks (getRequest "/a")
      { getRequest "/a" with method := .head } := fun _ _ _ => rfl
  have hsome : (HostResolver.new (smallManifest [("a.com", "web")])).toOption.map (fun resolver =>
      (run (gatewayStep smallDeps calmEnv noHooks)
        ((siteService resolver).handle smallGatewayDeps (getRequest "/a"))
        (siteWorld FileTree.empty defaultEdgeConfig)).1.ok?.isSome) = some true := by decide +kernel
  rw [hnew] at hsome
  obtain ⟨response, hok⟩ := Outcome.ok?_isSome.mp (Option.some.inj hsome)
  refine ⟨resolver, hnew, ?_⟩
  rcases head_mirrors_get smallGatewayDeps calmEnv noHooks (siteService resolver)
      (siteWorld FileTree.empty defaultEdgeConfig) (getRequest "/a") rfl halike with
    h | ⟨e, w', herr, -⟩ | ⟨w', hdropped, -⟩
  · exact h
  · cases hok.symm.trans (congrArg Prod.fst herr)
  · cases hok.symm.trans (congrArg Prod.fst hdropped)

end RenderMesh.Gateway
