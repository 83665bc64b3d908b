import RenderMesh.Bugs.HookHeaders
import RenderMesh.Gateway.HeadRequests

/-!
# An answer that varies by Origin and does not say so

Behaviour (`src/src/services/render_gateway.rs:790-802`): `cors_headers` gives
`access-control-allow-origin` and `vary: Origin` to a request whose Origin is allowed, and
neither to any other request.

Intended: `vary` is there so that a cache keeps the answers for different Origins apart. The
answer without an Origin depends on the header as much as the one with it, and it is the one
that a cache may give to the next requester.

Counterexample: `GET /a` without an Origin and `GET /a` from an allowed one get different
headers, and only the second has a `vary` (`vary_missing_without_origin`).

Condition: `vary_lists_origin_iff`. The policy allows both requests or neither, or the hooks set
a `vary` that lists Origin, and it comes through to the response.
-/
namespace RenderMesh.Bugs.VaryOrigin

open RenderMesh.Core RenderMesh.Mirror RenderMesh.Server RenderMesh.Domains RenderMesh.Gateway
open RenderMesh.Refresh RenderMesh.Bugs.HookHeaders

/-- The value of a `vary` header lists Origin. -/
def ListsOrigin (value : Str) : Prop :=
  ∃ field ∈ value.splitOn ',', toAsciiLower (trim field) = "origin".toList

instance (value : Str) : Decidable (ListsOrigin value) := by unfold ListsOrigin; infer_instance

def VariesByOrigin (headers : Headers) : Prop :=
  ∃ value, headers["vary".toList]? = some value ∧ ListsOrigin value

/-- The headers of two responses are not the same. -/
def Differ (headers headers' : Headers) : Prop := ∃ n : Str, headers[n]? ≠ headers'[n]?

/-- Two requests that differ in the Origin header at most. -/
structure DifferInOrigin (request request' : RenderRequest) : Prop where
  rest : request' = { request with headers := request'.headers }
  headers : (request'.headers.filter fun header => header.1 ≠ "origin".toList) =
    request.headers.filter fun header => header.1 ≠ "origin".toList

section
variable (deps : GatewayDeps) (env : Env) (hooks : Hooks) (service : RenderGatewayService)

/-- The request has an Origin that the policy allows. -/
def Allowed (originId : Str) (request : RenderRequest) : Prop :=
  ∃ origin, requestHeader request "origin" = some origin ∧
    (service.cors.allowedOriginFor deps.parseUrl originId origin).isSome = true

/-- The hooks set a `vary` that lists Origin, and the response is one that has their headers. -/
def HooksVary (request : RenderRequest) (resolved : ResolvedHost) (w : World) : Prop :=
  ∃ config state, w.edgeConfigs resolved.originId = some (.valid config) ∧
    (requestEnd deps hooks service request resolved config).state? = some state ∧
    ¬ UnservedParams deps env hooks service request resolved config w ∧
    VariesByOrigin (filteredHeaders state.headers)

end

/-! ## One response -/

section
variable {deps : GatewayDeps} {env : Env} {hooks : Hooks} {service : RenderGatewayService}
  {request : RenderRequest} {resolved : ResolvedHost} {w w' : World} {response : RenderResponse}

theorem corsHeaders_of_not_allowed {originId : Str} (h : ¬ Allowed deps service originId request) :
    service.corsHeaders deps originId request = ∅ := by
  unfold RenderGatewayService.corsHeaders
  cases horigin : requestHeader request "origin" with
  | none => rfl
  | some origin =>
    have hnone : service.cors.allowedOriginFor deps.parseUrl originId origin = none := by
      rw [← Option.not_isSome_iff_eq_none]
      exact fun hsome => h ⟨origin, horigin, hsome⟩
    simp only [hnone]

theorem varies_of_allowed (hresolve : service.resolver.resolve request.host = some resolved)
    (hallowed : Allowed deps service resolved.originId request)
    (hrun : run (gatewayStep deps.toDeps env hooks) (service.handle deps request) w =
      (.ok response, w')) : VariesByOrigin response.headers := by
  obtain ⟨origin, horigin, hsome⟩ := hallowed
  have hcarries := (run_gives (handle_gives deps service request) hrun).2 resolved hresolve
  have hvary := (getElem?_corsHeaders deps service request horigin hsome).2
  exact ⟨"Origin".toList, hcarries.has _ _ hvary, by decide⟩

theorem not_varies_empty : ¬ VariesByOrigin ∅ := by
  intro ⟨value, hvalue, _⟩
  simp at hvalue

/-- Only the headers of CORS and of the hooks have a `vary`. -/
theorem BuiltOn.varies_iff {headers shown : Headers} (h : BuiltOn headers shown) :
    VariesByOrigin shown ↔ VariesByOrigin headers := by
  obtain ⟨base, hbase, hshown⟩ := h
  have hnone : base["vary".toList]? = none := by
    rw [Option.eq_none_iff_forall_ne_some]
    intro v hv
    exact absurd (hbase _ (mem_headers_iff.mpr ⟨v, hv⟩)) (by decide)
  unfold VariesByOrigin
  rw [hshown, hnone, Option.or_none]

theorem run_without_config (hresolve : service.resolver.resolve request.host = some resolved)
    (hmethod : request.method = .get)
    (hinvalid : ∀ config, w.edgeConfigs resolved.originId ≠ some (.valid config)) :
    run (gatewayStep deps.toDeps env hooks) (service.handle deps request) w =
      (.ok (emptyWith .internalServerError (service.corsHeaders deps resolved.originId request)),
        w.tick) := by
  have hserve : service.handle deps request = service.serve deps request resolved
      (service.corsHeaders deps resolved.originId request) := by
    simp only [RenderGatewayService.handle, hresolve, hmethod]
  rw [hserve, RenderGatewayService.serve, run_bind, show run (gatewayStep deps.toDeps env hooks)
    (ask (.edgeConfig resolved.originId)) w = (.ok (w.edgeConfigs resolved.originId), w.tick) from rfl]
  simp only
  rfl

/-- A response without CORS headers has the `vary` of the hooks. -/
theorem varies_iff_of_not_allowed
    (hresolve : service.resolver.resolve request.host = some resolved)
    (hmethod : request.method = .get) (hnot : ¬ Allowed deps service resolved.originId request)
    (hrun : run (gatewayStep deps.toDeps env hooks) (service.handle deps request) w =
      (.ok response, w')) :
    VariesByOrigin response.headers ↔ HooksVary deps env hooks service request resolved w := by
  have hcors := corsHeaders_of_not_allowed hnot
  have hempty : ∀ status, ¬ VariesByOrigin (finalizeResponse request (emptyWith status ∅)).headers := by
    intro status
    have hbuilt : BuiltOn ∅ (emptyWith status ∅).headers := builtOn_apply safe_empty.lower own_empty
    rw [BuiltOn.varies_iff (hbuilt.finalize request)]
    exact not_varies_empty
  by_cases hvalid : ∃ config, w.edgeConfigs resolved.originId = some (.valid config)
  · obtain ⟨config, hstored⟩ := hvalid
    have hone : ∀ {config'}, w.edgeConfigs resolved.originId = some (.valid config') →
        config' = config := by
      intro config' h
      cases hstored.symm.trans h
      rfl
    by_cases hfailed : ∃ status, requestEnd deps hooks service request resolved config = .failed status
    · obtain ⟨status, hend⟩ := hfailed
      rw [run_of_chain hresolve (Or.inl hmethod) hstored, hend, requestAnswer, hcors] at hrun
      cases hrun
      refine iff_of_false (hempty status) ?_
      rintro ⟨config', state, hconfig, hstate, -⟩
      obtain rfl := hone hconfig
      rw [hend] at hstate
      cases hstate
    · rcases response_cases hresolve (Or.inl hmethod) hstored (not_exists.mp hfailed) hrun with
        ⟨hunserved, rfl⟩ | ⟨hserved, state, hstate, hbuilt⟩
      · rw [hcors]
        have hbuilt := (builtOn_notFoundText safe_empty.lower).finalize request
        rw [BuiltOn.varies_iff hbuilt]
        refine iff_of_false not_varies_empty ?_
        rintro ⟨config', state, hconfig, -, hserved, -⟩
        obtain rfl := hone hconfig
        exact hserved hunserved
      · rw [BuiltOn.varies_iff hbuilt, hcors]
        constructor
        · exact fun h => ⟨config, state, hstored, hstate, hserved, h⟩
        · rintro ⟨config', state', hconfig, hstate', -, h⟩
          obtain rfl := hone hconfig
          rw [hstate] at hstate'
          cases hstate'
          exact h
  · rw [run_without_config hresolve hmethod (not_exists.mp hvalid), hcors] at hrun
    cases hrun
    refine iff_of_false ?_ ?_
    · have hbuilt : BuiltOn ∅ (emptyWith .internalServerError ∅).headers :=
        builtOn_apply safe_empty.lower own_empty
      rw [BuiltOn.varies_iff hbuilt]
      exact not_varies_empty
    · rintro ⟨config, -, hconfig, -⟩
      exact hvalid ⟨config, hconfig⟩

end

/-! ## Two responses -/

theorem chain_congr {hooks : Hooks} {hookRequest hookRequest' : EdgeHookRequest}
    (halike : ∀ i hook, hooks i hook hookRequest' = hooks i hook hookRequest)
    (edges : List EdgeHookConfig) : ∀ i state,
    chainEnd hooks hookRequest' i state edges = chainEnd hooks hookRequest i state edges ∧
      chainCalls hooks hookRequest' i edges = chainCalls hooks hookRequest i edges := by
  induction edges with
  | nil => exact fun i state => ⟨rfl, rfl⟩
  | cons hook edges ih =>
    intro i state
    simp only [chainEnd, chainCalls, halike]
    constructor
    · split
      · rfl
      · split
        · rfl
        · exact (ih _ _).1
        · rfl
    · split
      · rfl
      · split
        · rw [(ih (i + 1) state).2]
        · rfl

section
variable {deps : GatewayDeps} {env : Env} {hooks : Hooks} {service : RenderGatewayService}
  {request request' : RenderRequest}

theorem requestEnd_alike (halike : AnsweredAlike deps service hooks request request')
    (resolved : ResolvedHost) (config : EdgeConfig) :
    requestEnd deps hooks service request' resolved config =
      requestEnd deps hooks service request resolved config :=
  (chain_congr (halike resolved) config.edges 0 ⟨∅⟩).1

theorem afterHooks_alike (halike : AnsweredAlike deps service hooks request request')
    (resolved : ResolvedHost) (config : EdgeConfig) (w : World) :
    afterHooks deps hooks service request' resolved config w =
      afterHooks deps hooks service request resolved config w := by
  rw [afterHooks, hookRequestOf, (chain_congr (halike resolved) config.edges 0 ⟨∅⟩).2]
  rfl

variable (hdiffer : DifferInOrigin request request')
  (halike : AnsweredAlike deps service hooks request request')
include hdiffer halike

theorem hooksVary_alike (resolved : ResolvedHost) (w : World) :
    HooksVary deps env hooks service request' resolved w ↔
      HooksVary deps env hooks service request resolved w := by
  have hpath : request'.path = request.path := by rw [hdiffer.rest]
  simp only [HooksVary, UnservedParams, requestEnd_alike halike, afterHooks_alike halike, hpath]

/-- Two requests with the same CORS headers get the same response. -/
theorem run_same {resolved : ResolvedHost} {w : World}
    (hresolve : service.resolver.resolve request.host = some resolved)
    (hmethod : request.method = .get)
    (hcors : service.corsHeaders deps resolved.originId request' =
      service.corsHeaders deps resolved.originId request) :
    run (gatewayStep deps.toDeps env hooks) (service.handle deps request') w =
      run (gatewayStep deps.toDeps env hooks) (service.handle deps request) w := by
  have hresolve' : service.resolver.resolve request'.host = some resolved := by rwa [hdiffer.rest]
  have hmethod' : request'.method = .get := by rwa [hdiffer.rest]
  by_cases hvalid : ∃ config, w.edgeConfigs resolved.originId = some (.valid config)
  · obtain ⟨config, hstored⟩ := hvalid
    rw [run_of_chain hresolve (Or.inl hmethod) hstored, run_of_chain hresolve' (Or.inl hmethod') hstored,
      requestEnd_alike halike, afterHooks_alike halike, hcors]
    generalize requestEnd deps hooks service request resolved config = chain
    generalize service.corsHeaders deps resolved.originId request = cors
    rw [hdiffer.rest]
    cases chain with
    | answered outcome state => cases outcome <;> rfl
    | _ => rfl
  · rw [run_without_config hresolve hmethod (not_exists.mp hvalid),
      run_without_config hresolve' hmethod' (not_exists.mp hvalid), hcors]

/-- Two requests that differ in their Origin at most: if their responses have different headers,
both say that they vary by it. This holds exactly if the policy allows both or neither, or the
hooks make up for it. -/
theorem vary_lists_origin_iff (hmethod : request.method = .get) {w w1 w2 : World}
    {response response' : RenderResponse}
    (hrun : run (gatewayStep deps.toDeps env hooks) (service.handle deps request) w =
      (.ok response, w1))
    (hrun' : run (gatewayStep deps.toDeps env hooks) (service.handle deps request') w =
      (.ok response', w2)) :
    (Differ response.headers response'.headers →
        VariesByOrigin response.headers ∧ VariesByOrigin response'.headers) ↔
      ∀ resolved, service.resolver.resolve request.host = some resolved →
        (Allowed deps service resolved.originId request ↔
          Allowed deps service resolved.originId request') ∨
        HooksVary deps env hooks service request resolved w := by
  have hhost : request'.host = request.host := by rw [hdiffer.rest]
  have hmethod' : request'.method = .get := by rwa [hdiffer.rest]
  have hdiffers : ∀ headers headers', VariesByOrigin headers → ¬ VariesByOrigin headers' →
      Differ headers headers' ∧ Differ headers' headers := by
    rintro headers headers' ⟨value, hvalue, hlists⟩ hnot
    have hne : headers["vary".toList]? ≠ headers'["vary".toList]? := by
      intro heq
      exact hnot ⟨value, heq ▸ hvalue, hlists⟩
    exact ⟨⟨_, hne⟩, ⟨_, hne.symm⟩⟩
  cases hresolve : service.resolver.resolve request.host with
  | none =>
    simp only [RenderGatewayService.handle, hhost, hresolve] at hrun hrun'
    cases hrun
    cases hrun'
    refine iff_of_true ?_ (by simp)
    rintro ⟨n, hn⟩
    exact absurd rfl hn
  | some resolved =>
    have hresolve' : service.resolver.resolve request'.host = some resolved := by rwa [hhost]
    simp only [Option.some.injEq, forall_eq']
    by_cases ha : Allowed deps service resolved.originId request
    · have hvary := varies_of_allowed hresolve ha hrun
      by_cases ha' : Allowed deps service resolved.originId request'
      · have hvary' := varies_of_allowed hresolve' ha' hrun'
        exact iff_of_true (fun _ => ⟨hvary, hvary'⟩) (Or.inl (iff_of_true ha ha'))
      · have hiff := varies_iff_of_not_allowed hresolve' hmethod' ha' hrun'
        rw [hooksVary_alike hdiffer halike] at hiff
        simp only [ha, ha', hvary, true_and, ← hiff, iff_false, not_true_eq_false, false_or]
        refine ⟨fun h => ?_, fun h _ => h⟩
        by_contra hnot
        exact hnot (h (hdiffers _ _ hvary hnot).1)
    · have hiff := varies_iff_of_not_allowed hresolve hmethod ha hrun
      by_cases ha' : Allowed deps service resolved.originId request'
      · have hvary' := varies_of_allowed hresolve' ha' hrun'
        simp only [ha, ha', hvary', and_true, ← hiff, iff_true, false_or]
        refine ⟨fun h => ?_, fun h _ => h⟩
        by_contra hnot
        exact hnot (h (hdiffers _ _ hvary' hnot).2)
      · have hsame := @run_same deps env hooks service request request' hdiffer halike resolved w
          hresolve hmethod
          ((corsHeaders_of_not_allowed ha').trans (corsHeaders_of_not_allowed ha).symm)
        rw [hrun, hrun'] at hsame
        cases hsame
        refine iff_of_true ?_ (Or.inl (iff_of_false ha ha'))
        rintro ⟨n, hn⟩
        exact absurd rfl hn

end

/-! ## The small site -/

theorem corsRequest_differs : DifferInOrigin (getRequest "/a") corsRequest := ⟨rfl, by decide⟩

/-- A header of the response, on the way to it at the small site. -/
def siteHeader (hooks : Hooks) (config : EdgeConfig) (request : RenderRequest) (name : String)
    (resolver : HostResolver) : Option (Option Str) :=
  (run (gatewayStep smallDeps calmEnv hooks) ((corsService resolver).handle corsDeps request)
    (siteWorld FileTree.empty config)).1.ok?.map (·.headers[name.toList]?)

/-- **Counterexample**: the answer without an Origin has other headers, and no `vary`. -/
theorem vary_missing_without_origin : ∃ resolver,
    HostResolver.new (smallManifest [("a.com", "web")]) = .ok resolver ∧
    DifferInOrigin (getRequest "/a") corsRequest ∧
    AnsweredAlike corsDeps (corsService resolver) noHooks (getRequest "/a") corsRequest ∧
    ∃ response response' w1 w2,
      run (gatewayStep smallDeps calmEnv noHooks)
        ((corsService resolver).handle corsDeps (getRequest "/a"))
        (siteWorld FileTree.empty defaultEdgeConfig) = (.ok response, w1) ∧
      run (gatewayStep smallDeps calmEnv noHooks) ((corsService resolver).handle corsDeps corsRequest)
        (siteWorld FileTree.empty defaultEdgeConfig) = (.ok response', w2) ∧
      Differ response.headers response'.headers ∧ ¬ VariesByOrigin response.headers := by
  obtain ⟨resolver, hnew, -⟩ := site_resolver
  have hvary : (HostResolver.new (smallManifest [("a.com", "web")])).toOption.map (fun resolver =>
      (siteHeader noHooks defaultEdgeConfig (getRequest "/a") "vary" resolver,
        siteHeader noHooks defaultEdgeConfig corsRequest "vary" resolver)) =
      some (some none, some (some "Origin".toList)) := by decide +kernel
  rw [hnew] at hvary
  obtain ⟨hplain, hcors⟩ := Prod.mk.inj (Option.some.inj hvary)
  obtain ⟨response, hok, hnone⟩ := Option.map_eq_some_iff.mp hplain
  obtain ⟨response', hok', hsome⟩ := Option.map_eq_some_iff.mp hcors
  refine ⟨resolver, hnew, corsRequest_differs, fun _ _ _ => rfl, response, response', _, _,
    Prod.ext (Outcome.ok?_eq_some.mp hok) rfl, Prod.ext (Outcome.ok?_eq_some.mp hok') rfl,
    ⟨_, by rw [hnone, hsome]; decide⟩, fun ⟨value, hvalue, _⟩ => ?_⟩
  rw [hnone] at hvalue
  cases hvalue

/-- A hook that sets `vary` for every answer. -/
def varyHook : Hooks := fun _ _ _ => .ok ⟨.ok, Std.TreeMap.ofList
  [("Vary".toList, "Accept, Origin".toList)], none, none, none⟩

theorem vary_lists_origin_hooked : ∃ resolver,
    HostResolver.new (smallManifest [("a.com", "web")]) = .ok resolver ∧
    ∃ response response' w1 w2,
      run (gatewayStep smallDeps calmEnv varyHook)
        ((corsService resolver).handle corsDeps (getRequest "/a"))
        (siteWorld FileTree.empty hookedConfig) = (.ok response, w1) ∧
      run (gatewayStep smallDeps calmEnv varyHook) ((corsService resolver).handle corsDeps corsRequest)
        (siteWorld FileTree.empty hookedConfig) = (.ok response', w2) ∧
      Differ response.headers response'.headers ∧
      VariesByOrigin response.headers ∧ VariesByOrigin response'.headers := by
  obtain ⟨resolver, hnew, hres⟩ := site_resolver
  have hallow : (HostResolver.new (smallManifest [("a.com", "web")])).toOption.map (fun resolver =>
      (siteHeader varyHook hookedConfig (getRequest "/a") "access-control-allow-origin" resolver,
        siteHeader varyHook hookedConfig corsRequest "access-control-allow-origin" resolver)) =
      some (some none, some (some "https://b.com".toList)) := by decide +kernel
  rw [hnew] at hallow
  obtain ⟨hplain, hcors⟩ := Prod.mk.inj (Option.some.inj hallow)
  obtain ⟨response, hok, hnone⟩ := Option.map_eq_some_iff.mp hplain
  obtain ⟨response', hok', hsome⟩ := Option.map_eq_some_iff.mp hcors
  have hdiffer : Differ response.headers response'.headers := ⟨_, by rw [hnone, hsome]; decide⟩
  have hrun : run (gatewayStep smallDeps calmEnv varyHook)
      ((corsService resolver).handle corsDeps (getRequest "/a")) (siteWorld FileTree.empty hookedConfig) =
        (.ok response, _) := Prod.ext (Outcome.ok?_eq_some.mp hok) rfl
  have hrun' : run (gatewayStep smallDeps calmEnv varyHook)
      ((corsService resolver).handle corsDeps corsRequest) (siteWorld FileTree.empty hookedConfig) =
        (.ok response', _) := Prod.ext (Outcome.ok?_eq_some.mp hok') rfl
  have halike : AnsweredAlike corsDeps (corsService resolver) varyHook (getRequest "/a") corsRequest :=
    fun _ _ _ => rfl
  have hend : requestEnd corsDeps varyHook (corsService resolver) (getRequest "/a")
      ⟨"a.com".toList, "a.com".toList, "web".toList⟩ hookedConfig = .continued
        ⟨extendHeaders ∅ (Std.TreeMap.ofList [("Vary".toList, "Accept, Origin".toList)])⟩ := rfl
  refine ⟨resolver, hnew, response, response', _, _, hrun, hrun', hdiffer,
    (vary_lists_origin_iff corsRequest_differs halike rfl hrun hrun').mpr ?_ hdiffer⟩
  intro resolved hresolved
  obtain rfl := Option.some.inj (hres.symm.trans hresolved)
  refine Or.inr ⟨hookedConfig, _, by simp [siteWorld], by rw [hend]; rfl, not_unserved ?_,
    "Accept, Origin".toList, by decide +kernel, by decide⟩
  intro status params state h
  cases hend.symm.trans h

end RenderMesh.Bugs.VaryOrigin
