import RenderMesh.Gateway.Missing
import RenderMesh.Gateway.SafeHeaders

/-!
# A later hook that loses to an earlier one

Behaviour (`src/src/services/edge_hooks.rs:31-54`, `src/src/services/render_gateway.rs:947-953`):
the headers of the hooks are collected under the spelling that each hook used, and the names
are lowered at the end, in the order of the spellings. Of two spellings of one name the last
in that order wins, the lower-case one before all others, whichever hook it came from. And a
hook that gives `params` for a target without an object loses all headers of the hooks
(`render_gateway.rs:481-499`).

Documented: header-only payloads "accumulate those headers and continue"
(`docs/superpowers/specs/2026-05-18-rendermesh-mvp-design.md`); `insert_header`, which writes
every other header, lowers the name before it inserts.

Counterexample: a first hook sets `x-a` to `1`, a second one `X-A` to `2`; the response has
`x-a: 1` (`first_hook_wins`).

Condition: `later_hooks_win_iff`. For every name that shows, the last spelling of it has last
been given the value that the last hook gives the name, and the chain did not end at `params`
for a target without an object.
-/
namespace RenderMesh.Bugs.HookHeaders

open RenderMesh.Core RenderMesh.Mirror RenderMesh.Server RenderMesh.Domains RenderMesh.Gateway
open RenderMesh.Refresh

/-- The payload gives the name `n` the value `v`, in some spelling. -/
def Sets (payload : Headers) (n v : Str) : Prop :=
  ∃ k, toAsciiLower k = n ∧ payload[k]? = some v

/-- `p` is the last payload that sets `n`. -/
def LastSetter (payloads : List Headers) (n : Str) (p : Headers) : Prop :=
  ∃ before after, payloads = before ++ p :: after ∧ (∃ v, Sets p n v) ∧
    ∀ q ∈ after, ∀ v, ¬ Sets q n v

/-- A name as responses have it, that is neither filtered nor set by CORS. -/
structure Shows (cors : Headers) (n : Str) : Prop where
  lower : toAsciiLower n = n
  safe : isUnsafeEdgeHeader n = false
  cors : cors[n]? = none

/-- What the hooks contribute to a name comes from the last one that sets it. -/
def LaterHooksWin (cors : Headers) (payloads : List Headers) (headers : Headers) : Prop :=
  ∀ n p, Shows cors n → LastSetter payloads n p → ∃ v, Sets p n v ∧ headers[n]? = some v

section
variable (deps : GatewayDeps) (env : Env) (hooks : Hooks)

/-- The chain ends at `params`, and at the target of the request there is no object. -/
def UnservedParams (service : RenderGatewayService) (request : RenderRequest)
    (resolved : ResolvedHost) (config : EdgeConfig) (w : World) : Prop :=
  ∃ status params state w',
    requestEnd deps hooks service request resolved config =
      .answered (.renderTarget status params) state ∧
    ReadsNothing deps env hooks resolved.originId (targetReads config request.path)
      (afterHooks deps hooks service request resolved config w) w'

end

/-! ## What a response has of the hooks -/

section
variable {cors : Headers} {payloads : List Headers}

theorem combined_eq {state : EdgeChainState} (hstate : state.headers = payloads.foldl extendHeaders ∅)
    {n : Str} (hcors : Lower cors) (hn : Shows cors n) :
    (combinedResponseHeaders (filteredHeaders state.headers) cors)[n]? =
      lastEntry toAsciiLower (payloads.foldl extendHeaders ∅).toList n := by
  rw [combinedResponseHeaders, getElem?_applyHeaders_lower hcors, hn.cors, Option.none_or,
    getElem?_filteredHeaders _ hn.safe, hstate]

/-- A name that a payload sets has a last spelling and a value. -/
theorem exists_spelling {n : Str} {p : Headers} (h : LastSetter payloads n p) :
    ∃ v, lastEntry toAsciiLower (payloads.foldl extendHeaders ∅).toList n = some v := by
  obtain ⟨before, after, rfl, ⟨v, k, hk, hv⟩, -⟩ := h
  have hmem : k ∈ (before ++ p :: after).foldl extendHeaders ∅ :=
    mem_collected.mpr ⟨p, by simp, mem_headers_iff.mpr ⟨v, hv⟩⟩
  obtain ⟨u, hu⟩ := mem_headers_iff.mp hmem
  cases hlast : lastEntry toAsciiLower ((before ++ p :: after).foldl extendHeaders ∅).toList n with
  | some v => exact ⟨v, rfl⟩
  | none => exact absurd hk (lastEntry_eq_none.mp hlast _
      (Std.TreeMap.mem_toList_iff_getElem?_eq_some.mpr hu))

/-- The last spelling of each name has the value that the last hook gives the name. -/
def SpelledAlike (cors : Headers) (payloads : List Headers) : Prop :=
  ∀ n p, Shows cors n → LastSetter payloads n p →
    ∃ k v, LastSpelling payloads n k ∧ LastValue payloads k v ∧ Sets p n v

/-- Hooks that write lower-case names spell them alike. -/
theorem spelledAlike_of_lower (h : ∀ p ∈ payloads, Lower p) : SpelledAlike cors payloads := by
  rintro n p hn ⟨before, after, rfl, ⟨v, k, hk, hv⟩, hafter⟩
  have hlower : ∀ q ∈ before ++ p :: after, ∀ k' ∈ q, toAsciiLower k' = n → k' = n :=
    fun q hq k' hk' he => (h q hq k' hk').symm.trans he
  have hmem : k ∈ p := mem_headers_iff.mpr ⟨v, hv⟩
  obtain rfl := hlower p (by simp) k hmem hk
  refine ⟨k, v, ⟨hk, ⟨p, by simp, hmem⟩, fun q hq k' hk' he => ?_⟩, ⟨before, p, after, rfl, hv, ?_⟩,
    k, hk, hv⟩
  · rw [hlower q hq k' hk' he, show compare k k = .eq from Std.ReflOrd.compare_self]
    rfl
  · intro q hq
    rw [Option.eq_none_iff_forall_ne_some]
    exact fun u hu => hafter q hq u ⟨k, hk, hu⟩

theorem laterHooksWin_iff {state : EdgeChainState} {headers : Headers} (hcors : Lower cors)
    (hstate : state.headers = payloads.foldl extendHeaders ∅)
    (h : Carries (combinedResponseHeaders (filteredHeaders state.headers) cors) headers) :
    LaterHooksWin cors payloads headers ↔ SpelledAlike cors payloads := by
  have hvalue : ∀ n p v, Shows cors n → LastSetter payloads n p → (headers[n]? = some v ↔
      ∃ k, LastSpelling payloads n k ∧ LastValue payloads k v) := by
    intro n p v hn hp
    obtain ⟨u, hu⟩ := exists_spelling hp
    have hheaders := h.has n u ((combined_eq hstate hcors hn).trans hu)
    rw [hheaders, ← lastEntry_collected, hu]
  constructor
  · intro hwin n p hn hp
    obtain ⟨v, hset, hv⟩ := hwin n p hn hp
    obtain ⟨k, hk, hlast⟩ := (hvalue n p v hn hp).mp hv
    exact ⟨k, v, hk, hlast, hset⟩
  · intro hspelled n p hn hp
    obtain ⟨k, v, hk, hlast, hset⟩ := hspelled n p hn hp
    exact ⟨v, hset, (hvalue n p v hn hp).mpr ⟨k, hk, hlast⟩⟩

end

/-! ## Requests -/

section
variable {deps : GatewayDeps} {env : Env} {hooks : Hooks} {service : RenderGatewayService}
  {request : RenderRequest} {resolved : ResolvedHost} {config : EdgeConfig}

/-- Params for a target: the response of an object has the headers of the hooks, the other
one has those of CORS alone. -/
theorem renderTarget_headers {originId : Str} {cors : Headers} (hcors : Lower cors)
    {state : EdgeChainState} {status : StatusCode} {params : Value} {w w' : World}
    {response : RenderResponse}
    (hrun : run (gatewayStep deps.toDeps env hooks) (requestAnswer deps request originId config cors
      (.answered (.renderTarget status params) state)) w = (.ok response, w')) :
    ((∃ w1, ReadsNothing deps env hooks originId (targetReads config request.path) w w1) →
      response = finalizeResponse request (notFoundText cors)) ∧
    ((∀ w1, ¬ ReadsNothing deps env hooks originId (targetReads config request.path) w w1) →
      BuiltOn (combinedResponseHeaders (filteredHeaders state.headers) cors) response.headers) := by
  simp only [targetReads, ← @serveStatic_none _ _ _ _ _ status (some params) cors]
  rw [requestAnswer, run_bind, edgeOutcome, run_bind] at hrun
  generalize hserve : run (gatewayStep deps.toDeps env hooks) (serveStaticPath deps originId config
    (resolveRequestTarget config request.path) status (some params) cors) w = answer at hrun
  obtain ⟨r | e | _, w1⟩ := answer
  · cases r with
    | none =>
      cases hrun
      exact ⟨fun _ => rfl, fun h => absurd hserve (h _)⟩
    | some r =>
      have hbuilt := run_gives (serveStaticPathWithOptions_built deps originId hcors config _ _ _ _)
        hserve r rfl
      cases hrun
      refine ⟨fun h => ?_, fun _ => builtOn_withEdgeHeaders hcors (Or.inl hbuilt) _ _⟩
      obtain ⟨w2, hnone⟩ := h
      cases hnone.symm.trans hserve
  · cases hrun
  · cases hrun

theorem not_unserved {w : World}
    (h : ∀ status params state, requestEnd deps hooks service request resolved config ≠
      .answered (.renderTarget status params) state) :
    ¬ UnservedParams deps env hooks service request resolved config w :=
  fun ⟨status, params, state, _, hend, _⟩ => h status params state hend

/-- The response after a chain that did not fail. -/
theorem response_cases {w w' : World} {response : RenderResponse}
    (hresolve : service.resolver.resolve request.host = some resolved)
    (hmethod : request.method = .get ∨ request.method = .head)
    (hstored : w.edgeConfigs resolved.originId = some (.valid config))
    (hchain : ∀ status, requestEnd deps hooks service request resolved config ≠ .failed status)
    (hrun : run (gatewayStep deps.toDeps env hooks) (service.handle deps request) w =
      (.ok response, w')) :
    (UnservedParams deps env hooks service request resolved config w ∧
      response = finalizeResponse request
        (notFoundText (service.corsHeaders deps resolved.originId request))) ∨
    (¬ UnservedParams deps env hooks service request resolved config w ∧
      ∃ state, (requestEnd deps hooks service request resolved config).state? = some state ∧
        BuiltOn (combinedResponseHeaders (filteredHeaders state.headers)
          (service.corsHeaders deps resolved.originId request)) response.headers) := by
  have hsafe := safe_corsHeaders deps service request resolved.originId
  have hcors := hsafe.lower
  have hcombined : ∀ state : EdgeChainState, Lower (combinedResponseHeaders
      (filteredHeaders state.headers) (service.corsHeaders deps resolved.originId request)) :=
    fun state => (carries_combined hsafe state).safe.lower
  rw [run_of_chain hresolve hmethod hstored] at hrun
  cases hend : requestEnd deps hooks service request resolved config with
  | failed status => exact absurd hend (hchain status)
  | continued state =>
    rw [hend] at hrun
    refine Or.inr ⟨not_unserved (by simp [hend]), state, rfl, ?_⟩
    exact run_gives (handleStatic_built deps resolved.originId (hcombined state) request config) hrun
  | answered outcome state =>
    rw [hend] at hrun
    cases outcome with
    | continue_ => exact absurd rfl (chainEnd_answered hend)
    | respondDirect status body =>
      refine Or.inr ⟨not_unserved (by simp [hend]), state, rfl, ?_⟩
      cases hrun
      exact builtOn_withEdgeHeaders hcors (Or.inr rfl) state request
    | serveFile status filePath params =>
      refine Or.inr ⟨not_unserved (by simp [hend]), state, rfl, ?_⟩
      have houtcome : (edgeOutcome deps request resolved.originId config
          (service.corsHeaders deps resolved.originId request) state
          (.serveFile status filePath params)).Gives (BuiltOnAny (combinedResponseHeaders
            (filteredHeaders state.headers) (service.corsHeaders deps resolved.originId request))) := by
        refine Prog.gives_bind (serveStaticPathWithOptions_built deps resolved.originId hcors config _ _
          _ _) fun r hr => ?_
        cases r with
        | some r => exact builtOnAny_some (builtOn_withEdgeHeaders hcors (Or.inl (hr r rfl)) _ _)
        | none =>
          exact handleMissing_finalized deps resolved.originId (hcombined state) config request some
            fun _ => builtOnAny_some
      rw [requestAnswer, run_bind] at hrun
      generalize hv : run (gatewayStep deps.toDeps env hooks) (edgeOutcome deps request
        resolved.originId config (service.corsHeaders deps resolved.originId request) state
        (.serveFile status filePath params)) (afterHooks deps hooks service request resolved config
          w) = answer at hrun
      obtain ⟨r | e | _, w1⟩ := answer
      · obtain ⟨r, rfl⟩ := Option.isSome_iff_exists.mp (run_gives (edgeOutcome_isSome
          resolved.originId _ state (by simp)) hv)
        have hr := run_gives houtcome hv r rfl
        cases hrun
        exact hr
      · cases hrun
      · cases hrun
    | renderTarget status params =>
      obtain ⟨hnone, hsome⟩ := renderTarget_headers hcors hrun
      by_cases hnothing : ∃ w1, ReadsNothing deps env hooks resolved.originId
          (targetReads config request.path) (afterHooks deps hooks service request resolved config w) w1
      · obtain ⟨w1, h⟩ := hnothing
        exact Or.inl ⟨⟨status, params, state, w1, hend, h⟩, hnone ⟨w1, h⟩⟩
      · refine Or.inr ⟨?_, state, rfl, hsome (not_exists.mp hnothing)⟩
        rintro ⟨-, -, -, w1, -, h⟩
        exact hnothing ⟨w1, h⟩

theorem later_hooks_win_iff {w w' : World} {response : RenderResponse}
    (hresolve : service.resolver.resolve request.host = some resolved)
    (hmethod : request.method = .get ∨ request.method = .head)
    (hstored : w.edgeConfigs resolved.originId = some (.valid config))
    (hchain : ∀ status, requestEnd deps hooks service request resolved config ≠ .failed status)
    (hrun : run (gatewayStep deps.toDeps env hooks) (service.handle deps request) w =
      (.ok response, w')) :
    LaterHooksWin (service.corsHeaders deps resolved.originId request)
        (requestPayloads deps hooks service request resolved config) response.headers ↔
      ∀ n p, Shows (service.corsHeaders deps resolved.originId request) n →
        LastSetter (requestPayloads deps hooks service request resolved config) n p →
        ¬ UnservedParams deps env hooks service request resolved config w ∧
        ∃ k v, LastSpelling (requestPayloads deps hooks service request resolved config) n k ∧
          LastValue (requestPayloads deps hooks service request resolved config) k v ∧ Sets p n v := by
  have hcors := safe_corsHeaders deps service request resolved.originId
  rcases response_cases hresolve hmethod hstored hchain hrun with
    ⟨hunserved, rfl⟩ | ⟨hserved, state, hstate, hbuilt⟩
  · -- the response has the CORS headers only, so no name that shows
    have hnone : ∀ n, Shows (service.corsHeaders deps resolved.originId request) n →
        (finalizeResponse request (notFoundText (service.corsHeaders deps resolved.originId
          request))).headers[n]? = none := by
      intro n hn
      have hheaders : (notFoundText (service.corsHeaders deps resolved.originId
          request)).headers[n]? = none := by
        rw [notFoundText, getElem?_applyHeaders_lower hcors.lower, hn.cors]
        rfl
      unfold finalizeResponse
      split <;> exact hheaders
    constructor
    · intro hwin n p hn hp
      obtain ⟨v, -, hv⟩ := hwin n p hn hp
      cases (hnone n hn).symm.trans hv
    · intro h n p hn hp
      exact absurd hunserved (h n p hn hp).1
  · have hcarries := (Carries.refl (carries_combined hcors state).safe).built hbuilt
    rw [laterHooksWin_iff hcors.lower (requestEnd_state hstate) hcarries]
    simp only [SpelledAlike, hserved, not_false_eq_true, true_and]

end

/-! ## Two hooks -/

/-- The first hook sets `x-a` to `1`, the others set a name to `2`. -/
def namingHooks (name : String) : Hooks := fun i _ _ => .ok ⟨.ok,
  if i = 0 then Std.TreeMap.ofList [("x-a".toList, "1".toList)]
  else Std.TreeMap.ofList [(name.toList, "2".toList)], none, none, none⟩

def twoHooks : EdgeConfig :=
  { defaultEdgeConfig with edges := [⟨"h".toList, "https://h".toList, 1000⟩,
      ⟨"i".toList, "https://i".toList, 1000⟩] }

/-- One entry, one name. -/
theorem sets_single {k v n u : Str} :
    Sets (Std.TreeMap.ofList [(k, v)]) n u ↔ toAsciiLower k = n ∧ v = u := by
  have hlookup : ∀ k' : Str, (Std.TreeMap.ofList [(k, v)] : Headers)[k']? =
      if k = k' then some v else none := by
    intro k'
    rw [Std.TreeMap.ofList_singleton, Std.TreeMap.getElem?_insert]
    by_cases h : k = k'
    · simp [h]
    · have hcmp : compare k k' ≠ .eq := fun he => h (Std.LawfulEqOrd.eq_of_compare he)
      simp [h, hcmp]
  constructor
  · intro ⟨k', hk', hv⟩
    rw [hlookup] at hv
    split at hv
    · rename_i he
      exact ⟨he ▸ hk', Option.some.inj hv⟩
    · cases hv
  · intro ⟨hk, hv⟩
    exact ⟨k, hk, by rw [hlookup, if_pos rfl, hv]⟩

section
variable (resolver : HostResolver) (name : String)

/-- The two hooks of the small site go on, and give these headers. -/
theorem namingHooks_chain :
    (∃ state, requestEnd smallGatewayDeps (namingHooks name) (siteService resolver) (getRequest "/a")
      ⟨"a.com".toList, "a.com".toList, "web".toList⟩ twoHooks = .continued state) ∧
    requestPayloads smallGatewayDeps (namingHooks name) (siteService resolver) (getRequest "/a")
      ⟨"a.com".toList, "a.com".toList, "web".toList⟩ twoHooks =
        [Std.TreeMap.ofList [("x-a".toList, "1".toList)],
          Std.TreeMap.ofList [(name.toList, "2".toList)]] :=
  ⟨⟨_, rfl⟩, rfl⟩

/-- The second hook is the last to set the name, in whatever spelling. -/
theorem namingHooks_last {n : Str} (hname : toAsciiLower name.toList = n) :
    LastSetter (requestPayloads smallGatewayDeps (namingHooks name) (siteService resolver)
        (getRequest "/a") ⟨"a.com".toList, "a.com".toList, "web".toList⟩ twoHooks) n
      (Std.TreeMap.ofList [(name.toList, "2".toList)]) :=
  ⟨[Std.TreeMap.ofList [("x-a".toList, "1".toList)]], [],
    (namingHooks_chain resolver name).2.trans rfl, ⟨"2".toList, sets_single.mpr ⟨hname, rfl⟩⟩, by simp⟩

end

/-- **Counterexample**: the second hook sets `X-A`, and the value of the first one shows. -/
theorem first_hook_wins : ∃ resolver,
    HostResolver.new (smallManifest [("a.com", "web")]) = .ok resolver ∧
    ∃ response w', run (gatewayStep smallDeps calmEnv (namingHooks "X-A"))
        ((siteService resolver).handle smallGatewayDeps (getRequest "/a"))
        (siteWorld FileTree.empty twoHooks) = (.ok response, w') ∧
      response.headers["x-a".toList]? = some "1".toList ∧
      ¬ LaterHooksWin ((siteService resolver).corsHeaders smallGatewayDeps "web".toList (getRequest "/a"))
        (requestPayloads smallGatewayDeps (namingHooks "X-A") (siteService resolver) (getRequest "/a")
          ⟨"a.com".toList, "a.com".toList, "web".toList⟩ twoHooks) response.headers := by
  obtain ⟨resolver, hnew, hres⟩ := site_resolver
  have hvalue : (HostResolver.new (smallManifest [("a.com", "web")])).toOption.map (fun resolver =>
      (run (gatewayStep smallDeps calmEnv (namingHooks "X-A"))
        ((siteService resolver).handle smallGatewayDeps (getRequest "/a"))
        (siteWorld FileTree.empty twoHooks)).1.ok?.bind (·.headers["x-a".toList]?)) =
      some (some "1".toList) := by decide +kernel
  rw [hnew] at hvalue
  obtain ⟨response, hok, hx⟩ := Option.bind_eq_some_iff.mp (Option.some.inj hvalue)
  refine ⟨resolver, hnew, response, _, Prod.ext (Outcome.ok?_eq_some.mp hok) rfl, hx, fun hwin => ?_⟩
  obtain ⟨v, hset, hv⟩ := hwin "x-a".toList _ ⟨by decide, by decide, rfl⟩
    (namingHooks_last resolver "X-A" (by decide))
  obtain rfl := (sets_single.mp hset).2
  cases hx.symm.trans hv

theorem later_hooks_win_alike : ∃ resolver,
    HostResolver.new (smallManifest [("a.com", "web")]) = .ok resolver ∧
    ∃ response w', run (gatewayStep smallDeps calmEnv (namingHooks "x-a"))
        ((siteService resolver).handle smallGatewayDeps (getRequest "/a"))
        (siteWorld FileTree.empty twoHooks) = (.ok response, w') ∧
      LaterHooksWin ((siteService resolver).corsHeaders smallGatewayDeps "web".toList (getRequest "/a"))
        (requestPayloads smallGatewayDeps (namingHooks "x-a") (siteService resolver) (getRequest "/a")
          ⟨"a.com".toList, "a.com".toList, "web".toList⟩ twoHooks) response.headers := by
  obtain ⟨resolver, hnew, hres⟩ := site_resolver
  have hsome : (HostResolver.new (smallManifest [("a.com", "web")])).toOption.map (fun resolver =>
      (run (gatewayStep smallDeps calmEnv (namingHooks "x-a"))
        ((siteService resolver).handle smallGatewayDeps (getRequest "/a"))
        (siteWorld FileTree.empty twoHooks)).1.ok?.isSome) = some true := by decide +kernel
  rw [hnew] at hsome
  obtain ⟨response, hok⟩ := Outcome.ok?_isSome.mp (Option.some.inj hsome)
  have hrun : run (gatewayStep smallDeps calmEnv (namingHooks "x-a"))
      ((siteService resolver).handle smallGatewayDeps (getRequest "/a"))
      (siteWorld FileTree.empty twoHooks) = (.ok response, _) := Prod.ext hok rfl
  obtain ⟨⟨state, hend⟩, hpayloads⟩ := namingHooks_chain resolver "x-a"
  have hwin := @later_hooks_win_iff smallGatewayDeps calmEnv (namingHooks "x-a") (siteService resolver)
    (getRequest "/a") _ twoHooks (siteWorld FileTree.empty twoHooks) _ response hres (Or.inl rfl)
    (by simp [siteWorld]) (fun status h => by cases hend.symm.trans h) hrun
  have hlower : ∀ v : Str, Lower (Std.TreeMap.ofList [("x-a".toList, v)]) := by
    intro v n hn
    have hname : n = "x-a".toList := by simpa using Std.TreeMap.mem_ofList.mp hn
    rw [hname]
    rfl
  refine ⟨resolver, hnew, response, _, hrun, hwin.mpr fun n p hn hp => ⟨not_unserved ?_,
    spelledAlike_of_lower ?_ n p hn hp⟩⟩
  · intro status params state' h
    cases hend.symm.trans h
  rw [hpayloads]
  simp only [List.mem_cons, List.not_mem_nil, or_false, forall_eq_or_imp, forall_eq]
  exact ⟨hlower _, hlower _⟩

end RenderMesh.Bugs.HookHeaders
