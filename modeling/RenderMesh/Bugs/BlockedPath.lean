import RenderMesh.Gateway.Totality

/-!
# A path that is blocked, answered with an error

Behaviour (`src/src/services/render_gateway.rs:698-725`, `local_mirror.rs:55-77`):
`read_object` takes a path that the normalizer refuses, a directory and `NotFound` for a
missing object. Every other error of the file system leaves as an error, also the ones
that only say that nothing can be at the path, and the route turns it into a 500.

Documented: `missing` "controls what happens when no object can be served"
(`docs/edge-config.md`), and a malformed path is treated as not found
(`malformed_object_path_is_treated_as_not_found`).

Counterexample: with a file `file.html` in the mirror, `GET /file.html/x` ends in
"Not a directory" (`below_a_file`).

Condition: `total_iff`. The mirror is not `Stuck` on the paths that the request reads:
reading fails at none of them before an object is found.
-/
namespace RenderMesh.Bugs.BlockedPath

open RenderMesh.Core RenderMesh.Mirror RenderMesh.Server RenderMesh.Domains RenderMesh.Gateway
open RenderMesh.Refresh

/-- The request goes to the target of its path: no hook answered and no redirect matches.
`edgeHeaders` are the headers of the hooks. -/
structure GoesToTarget (deps : GatewayDeps) (service : RenderGatewayService) (s : Scene)
    (request : RenderRequest) (resolved : ResolvedHost) (config : EdgeConfig)
    (edgeHeaders : Headers) : Prop where
  host : service.resolver.resolve request.host = some resolved
  method : request.method = .get ∨ request.method = .head
  stored : s.edgeConfigs resolved.originId = some (.valid config)
  chain : s.value (service.handleEdgeChain deps request resolved config
    (service.corsHeaders deps resolved.originId request)) = .ok (none, edgeHeaders)
  redirect : findRedirect config request.path request.query = none

/-- The request gets a response, and one for a path without an object takes the
missing-object behaviour. -/
structure Total (deps : GatewayDeps) (env : Env) (hooks : Hooks) (service : RenderGatewayService)
    (w : World) (request : RenderRequest) : Prop where
  returns : ∃ response w', run (gatewayStep deps.toDeps env hooks) (service.handle deps request) w =
    (.ok response, w')
  missing : ∀ resolved config edgeHeaders,
    GoesToTarget deps service (sceneOf w env hooks) request resolved config edgeHeaders →
    (∀ r ∈ targetReads config request.path, ∀ object,
      ¬ (sceneOf w env hooks).Holds deps.toDeps resolved.originId r.1 r.2 object) →
    ∃ response w' w'', run (gatewayStep deps.toDeps env hooks)
        (handleMissing deps resolved.originId config (combinedResponseHeaders edgeHeaders
          (service.corsHeaders deps resolved.originId request))) w = (.ok response, w') ∧
      run (gatewayStep deps.toDeps env hooks) (service.handle deps request) w =
        (.ok (finalizeResponse request (response.getD (notFoundText
          (combinedResponseHeaders edgeHeaders
            (service.corsHeaders deps resolved.originId request))))), w'')

/-- The mirror of the host's origin is stuck on what the request reads. -/
def Blocked (deps : GatewayDeps) (service : RenderGatewayService) (s : Scene)
    (request : RenderRequest) : Prop :=
  ∃ resolved, service.resolver.resolve request.host = some resolved ∧
    s.Stuck deps.toDeps resolved.originId (requestReads deps service s request)

section
variable {deps : GatewayDeps} {env : Env} {hooks : Hooks} {service : RenderGatewayService}
  {w : World} {request : RenderRequest}

/-- A run of a request is its value in the scene. -/
theorem handle_run (henv : NoFaults env) :
    ∃ w', run (gatewayStep deps.toDeps env hooks) (service.handle deps request) w =
      ((sceneOf w env hooks).value (service.handle deps request), w') := by
  obtain ⟨w', hr, -⟩ := @run_scene deps.toDeps env hooks henv _ _
    (handle_looks deps service request) w
  exact ⟨w', hr⟩

/-- The value of a request that goes to its target and finds no object there. -/
theorem value_of_no_object {s : Scene} {resolved : ResolvedHost} {config : EdgeConfig}
    {edgeHeaders : Headers}
    (h : GoesToTarget deps service s request resolved config edgeHeaders)
    (hempty : s.AllEmpty deps.toDeps resolved.originId (targetReads config request.path)) :
    s.value (service.handle deps request) =
      (s.value (handleMissing deps resolved.originId config (combinedResponseHeaders edgeHeaders
        (service.corsHeaders deps resolved.originId request)))).bind fun response =>
          .ok (finalizeResponse request (response.getD (notFoundText
            (combinedResponseHeaders edgeHeaders
              (service.corsHeaders deps resolved.originId request))))) := by
  rw [value_handle h.host h.method, value_serve h.stored, h.chain, Outcome.bind_ok]
  refine (value_handleStatic h.redirect _).trans ?_
  rcases serveStatic_cases s deps resolved.originId config
      (resolveRequestTarget config request.path) .ok none (combinedResponseHeaders edgeHeaders
        (service.corsHeaders deps resolved.originId request)) .pub with
    ⟨r, object, response, hf, -, -⟩ | ⟨-, hr⟩ | ⟨hf, -⟩
  · obtain ⟨before, after, he, -, hh, -⟩ := hf
    exact absurd hh ((hempty r (by rw [targetReads, he]; simp)).2 object)
  · rw [serveStaticPath, hr]
    rfl
  · exact absurd hf (Scene.not_stuck_of_allEmpty hempty)

theorem requestReads_of_target {s : Scene} {resolved : ResolvedHost} {config : EdgeConfig}
    {edgeHeaders : Headers}
    (h : GoesToTarget deps service s request resolved config edgeHeaders)
    (hvalid : validateEdgeConfig deps.toDeps config = .ok ()) :
    requestReads deps service s request =
      targetReads config request.path ++ missingReads config := by
  simp only [requestReads, h.host, if_pos h.method, serveReads, h.stored]
  rw [chainReads_of_none hvalid h.chain, restReads, h.redirect]
  rfl

theorem total_iff (henv : NoFaults env)
    (hvalid : ∀ id config, w.edgeConfigs id = some (.valid config) →
      validateEdgeConfig deps.toDeps config = .ok ()) :
    Total deps env hooks service w request ↔ ¬ Blocked deps service (sceneOf w env hooks) request := by
  obtain ⟨w', hrun⟩ := @handle_run deps env hooks service w request henv
  constructor
  · intro htotal ⟨resolved, hresolve, hstuck⟩
    obtain ⟨response, w'', hr⟩ := htotal.returns
    rcases handle_answers (s := sceneOf w env hooks) hresolve (hvalid _) with ⟨hs, -⟩ | ⟨-, e, hv⟩
    · exact hs hstuck
    · rw [hrun, hv] at hr
      cases hr
  · intro hblocked
    refine ⟨?_, ?_⟩
    · cases hresolve : service.resolver.resolve request.host with
      | none =>
        refine ⟨.empty .misdirectedRequest, w, ?_⟩
        rw [RenderGatewayService.handle, hresolve]
        rfl
      | some resolved =>
        rcases handle_answers (s := sceneOf w env hooks) hresolve (hvalid _) with
          ⟨-, response, hv, -⟩ | ⟨hs, -⟩
        · exact ⟨response, w', by rw [hrun, hv]⟩
        · exact absurd ⟨resolved, hresolve, hs⟩ hblocked
    · intro resolved config edgeHeaders htarget hnone
      have hs : ¬ (sceneOf w env hooks).Stuck deps.toDeps resolved.originId
          (targetReads config request.path ++ missingReads config) := by
        rw [← requestReads_of_target htarget (hvalid _ _ htarget.stored)]
        exact fun hs => hblocked ⟨resolved, htarget.host, hs⟩
      have hempty := allEmpty_of_no_object hnone hs
      have hmissing := hs ∘ Scene.stuck_append_right hempty
      obtain ⟨w1, hmrun, -⟩ := @run_scene deps.toDeps env hooks henv _ _
        ((handleMissing_looks deps resolved.originId config (combinedResponseHeaders edgeHeaders
          (service.corsHeaders deps resolved.originId request))).mono fun _ ho => ho.looks) w
      rcases @handleMissing_answers (sceneOf w env hooks) _ resolved.originId _
          (hvalid _ _ htarget.stored) (combinedResponseHeaders edgeHeaders
            (service.corsHeaders deps resolved.originId request)) with ⟨-, x, hv, -⟩ | ⟨hm, -⟩
      · refine ⟨x, w1, w', by rw [hmrun, hv], ?_⟩
        rw [hrun, value_of_no_object htarget hempty, hv]
        rfl
      · exact absurd hm hmissing

end

/-! ## A file on the way -/

/-- The mirror of `web` has the one file `file.html`. -/
def oneFile : Tree :=
  (FileTree.empty.insert (names "web".toList) .dir).insert (names "web/file.html".toList) (.file [60])

/-- A request to the small site, for a path without a redirect. -/
theorem site_target {resolver : HostResolver}
    (hres : resolver.resolve "a.com".toList = some ⟨"a.com".toList, "a.com".toList, "web".toList⟩)
    (fs : Tree) (path : String) :
    GoesToTarget smallGatewayDeps (siteService resolver)
      (sceneOf (siteWorld fs defaultEdgeConfig) calmEnv noHooks) (getRequest path)
      ⟨"a.com".toList, "a.com".toList, "web".toList⟩ defaultEdgeConfig (filteredHeaders ∅) where
  host := hres
  method := Or.inl rfl
  stored := by simp [sceneOf, siteWorld]
  chain := rfl
  redirect := rfl

theorem oneFile_lookup :
    oneFile.lookup (names "web/file.html".toList) = some (.file [60]) ∧
      oneFile.lookup (objectNames "web".toList "file.html/x".toList) ≠ some .dir := by
  decide

/-- Nothing can be below `file.html`. -/
theorem oneFile_fails :
    (sceneOf (siteWorld oneFile defaultEdgeConfig) calmEnv noHooks).Fails smallDeps "web".toList
      .pub "/file.html/x".toList := by
  have hpublic : isReservedRendermeshPath "/file.html/x".toList = false := by decide
  have hway : names "web/file.html".toList ++ [⟨"x".toList, by decide⟩] <+:
      objectNames "web".toList "file.html/x".toList := by decide
  refine ⟨?_, by decide, "file.html/x".toList, by decide, fun h => oneFile_lookup.2 h.1, Or.inr
    ⟨"file.html/x".toList, by decide, Or.inl (Or.inl ?_)⟩⟩
  · intro h
    have := h.2
    rw [hpublic] at this
    cases this
  · exact ⟨_, _, hway, Or.inl ⟨[60], oneFile_lookup.1⟩⟩

/-- **Counterexample**: `GET /file.html/x` ends in an error. -/
theorem below_a_file : ∃ resolver,
    HostResolver.new (smallManifest [("a.com", "web")]) = .ok resolver ∧
    validateEdgeConfig smallDeps defaultEdgeConfig = .ok () ∧ NoFaults calmEnv ∧
    (∃ e w', run (gatewayStep smallDeps calmEnv noHooks)
      ((siteService resolver).handle smallGatewayDeps (getRequest "/file.html/x"))
      (siteWorld oneFile defaultEdgeConfig) = (.err e, w')) ∧
    ¬ Total smallGatewayDeps calmEnv noHooks (siteService resolver)
      (siteWorld oneFile defaultEdgeConfig) (getRequest "/file.html/x") := by
  obtain ⟨resolver, hnew, hres⟩ := site_resolver
  have henv : NoFaults calmEnv := fun _ _ => rfl
  have htarget := site_target hres oneFile "/file.html/x"
  have hstuck : (sceneOf (siteWorld oneFile defaultEdgeConfig) calmEnv noHooks).Stuck smallDeps
      "web".toList (requestReads smallGatewayDeps (siteService resolver)
        (sceneOf (siteWorld oneFile defaultEdgeConfig) calmEnv noHooks)
        (getRequest "/file.html/x")) := by
    rw [requestReads_of_target htarget rfl]
    exact ⟨[], (.pub, "/file.html/x".toList), _, rfl, by simp, oneFile_fails⟩
  obtain ⟨w', hrun⟩ := @handle_run smallGatewayDeps calmEnv noHooks (siteService resolver)
    (siteWorld oneFile defaultEdgeConfig) (getRequest "/file.html/x") henv
  have hvalid : ∀ config, (sceneOf (siteWorld oneFile defaultEdgeConfig) calmEnv
      noHooks).edgeConfigs "web".toList = some (.valid config) →
      validateEdgeConfig smallGatewayDeps.toDeps config = .ok () := by
    intro config hconfig
    rw [htarget.stored] at hconfig
    cases hconfig
    rfl
  rcases @handle_answers (sceneOf (siteWorld oneFile defaultEdgeConfig) calmEnv noHooks) smallGatewayDeps
      (siteService resolver) (getRequest "/file.html/x") _ hres hvalid with ⟨hs, -⟩ | ⟨-, e, hv⟩
  · exact absurd hstuck hs
  · rw [hv] at hrun
    refine ⟨resolver, hnew, rfl, henv, ⟨e, w', hrun⟩, fun htotal => ?_⟩
    obtain ⟨response, w'', hr⟩ := htotal.returns
    rw [show run (gatewayStep smallGatewayDeps.toDeps calmEnv noHooks) _ _ = _ from hrun] at hr
    cases hr

theorem oneFile_finds :
    (sceneOf (siteWorld oneFile defaultEdgeConfig) calmEnv noHooks).Finds smallDeps "web".toList
      (targetReads defaultEdgeConfig "/file.html".toList ++ missingReads defaultEdgeConfig)
      (.pub, "/file.html".toList) ⟨[60], .empty⟩ := by
  have hn : normalizeObjectPath "/file.html".toList = .ok "file.html".toList := by decide
  have hm : normalizeObjectPath "file.html".toList = .ok "file.html".toList := by decide
  have hfile : oneFile.lookup (objectNames "web".toList "file.html".toList) = some (.file [60]) := by
    decide
  have hsidecar : oneFile.lookup (sidecarAt smallDeps "web".toList "file.html".toList) = none := by
    decide +kernel
  have hread : oneFile.readFile calmEnv.long (objectNames "web".toList "file.html".toList)
      (asDir "file.html".toList) = .ok [60] := by decide +kernel
  have hmeta : oneFile.readFile calmEnv.long
      (sidecarAt smallDeps "web".toList "file.html".toList) false = .error .notFound := by
    decide +kernel
  refine ⟨[], _, rfl, by simp [Scene.AllEmpty], ?_, ?_⟩
  · refine ⟨fun h => absurd h.2 (by decide), by decide, _, _, hn, fun h => ?_, hm, hfile,
      Or.inl ⟨hsidecar, rfl⟩⟩
    exact absurd (hfile.symm.trans h.1) (by simp)
  · rintro ⟨-, -, n, hn', -, h⟩
    rw [hn] at hn'
    cases hn'
    rcases h with ⟨e, h⟩ | ⟨m, hm', h⟩
    · rw [hm] at h
      cases h
    · rw [hm] at hm'
      cases hm'
      rcases h with h | ⟨-, h | ⟨body, h, -⟩⟩
      · exact FileTree.not_unreadable calmEnv.long (Or.inl ⟨[60], hread⟩) h
      · exact FileTree.not_unreadable calmEnv.long (Or.inr hmeta) h
      · exact absurd (hsidecar.symm.trans h) (by simp)

/-- The condition is met by a request for the file itself. -/
theorem total_one_file : ∃ resolver,
    HostResolver.new (smallManifest [("a.com", "web")]) = .ok resolver ∧
    Total smallGatewayDeps calmEnv noHooks (siteService resolver)
      (siteWorld oneFile defaultEdgeConfig) (getRequest "/file.html") := by
  obtain ⟨resolver, hnew, hres⟩ := site_resolver
  refine ⟨resolver, hnew, (total_iff (fun _ _ => rfl) ?_).mpr ?_⟩
  · intro id config h
    simp only [siteWorld, Function.update_apply] at h
    split at h
    · cases h
      rfl
    · cases h
  · intro ⟨resolved, hresolve, hstuck⟩
    obtain rfl := Option.some.inj (hresolve.symm.trans hres)
    rw [requestReads_of_target (site_target hres oneFile "/file.html") rfl] at hstuck
    exact Scene.not_stuck_of_finds oneFile_finds hstuck

end RenderMesh.Bugs.BlockedPath
