import RenderMesh.Core.Results
import RenderMesh.Gateway.HeaderMaps
import RenderMesh.Gateway.Scene

/-!
# The headers of every response

A response has headers of its own, from the metadata of an object or the rule of a redirect.
Every way to it writes the headers of the request over them: those of CORS, and those of the
hooks. `BuiltOn headers` is what all the ways come to.

`Carries cors` is what follows for the headers of CORS: names that are safe to send, and the
entries of `cors`.

* `handle_gives`: every response that `handle` can return, whatever the stores, the files
  and the hooks answer.
* `headers_safe`: what a response of a run has.
-/
namespace RenderMesh.Gateway

open RenderMesh.Core RenderMesh.Mirror RenderMesh.Server RenderMesh.Domains RenderMesh.Refresh

/-! ## A response's own headers -/

def ownNames : List Str :=
  ["content-type", "cache-control", "etag", "last-modified", "location"].map String.toList

/-- The headers of an object, or of a redirect. -/
def Own (headers : Headers) : Prop := ∀ n ∈ headers, n ∈ ownNames

theorem own_empty : Own ∅ := fun _ h => absurd h Std.TreeMap.not_mem_emptyc

theorem own_insertHeader {headers : Headers} (h : Own headers) {name : Str}
    (hname : toAsciiLower name ∈ ownNames) (value : Str) : Own (insertHeader headers name value) := by
  intro n hn
  obtain ⟨v, hv⟩ := mem_headers_iff.mp hn
  rw [getElem?_insertHeader] at hv
  split at hv
  · rename_i heq
    exact heq ▸ hname
  · exact h n (mem_headers_iff.mpr ⟨v, hv⟩)

theorem own_insertHeader? {headers : Headers} (h : Own headers) {name : String}
    (hname : toAsciiLower name.toList ∈ ownNames) (value : Option Str) :
    Own (insertHeader? headers name value) := by
  cases value with
  | none => exact h
  | some value => exact own_insertHeader h hname value

theorem own_headersFromMetadata (metadata : ObjectMetadata) : Own (headersFromMetadata metadata) :=
  own_insertHeader? (own_insertHeader? (own_insertHeader? (own_insertHeader? own_empty
    (by decide) _) (by decide) _) (by decide) _) (by decide) _

theorem Own.safe {headers : Headers} (h : Own headers) : Safe headers := by
  have hnames : ∀ n ∈ ownNames, toAsciiLower n = n ∧ isUnsafeEdgeHeader n = false := by decide
  exact fun n hn => hnames n (h n hn)

/-- The headers `shown` are `headers`, over a response's own. -/
def BuiltOn (headers shown : Headers) : Prop :=
  ∃ base, Own base ∧ ∀ n : Str, shown[n]? = headers[n]?.or base[n]?

theorem builtOn_apply {headers base : Headers} (h : Lower headers) (hbase : Own base) :
    BuiltOn headers (applyHeaders base headers) :=
  ⟨base, hbase, getElem?_applyHeaders_lower h base⟩

/-- The response, if there is one, is built on the headers. -/
def BuiltOnAny (headers : Headers) (response : Option RenderResponse) : Prop :=
  ∀ r ∈ response, BuiltOn headers r.headers

theorem builtOnAny_some {headers : Headers} {response : RenderResponse}
    (h : BuiltOn headers response.headers) : BuiltOnAny headers (some response) := fun r hr => by
  cases Option.mem_some.mp hr
  exact h

theorem builtOnAny_none {headers : Headers} : BuiltOnAny headers none := fun _ hr => by cases hr

theorem BuiltOn.finalize {headers : Headers} {response : RenderResponse}
    (h : BuiltOn headers response.headers) (request : RenderRequest) :
    BuiltOn headers (finalizeResponse request response).headers := by
  unfold finalizeResponse
  split <;> exact h

section
variable (deps : GatewayDeps) (originId : Str) {headers : Headers} (h : Lower headers)
include h

theorem builtOn_notFoundText : BuiltOn headers (notFoundText headers).headers :=
  builtOn_apply h own_empty

theorem serveObjectWithOptions_built (path : Str) (status : StatusCode) (params : Option Value)
    (access : ObjectReadAccess) :
    (serveObjectWithOptions deps originId path status params headers access).Gives
      (BuiltOnAny headers) := by
  refine Prog.gives_then fun object => ?_
  cases object with
  | none => exact builtOnAny_none
  | some object =>
    have hbuilt := builtOn_apply h (own_headersFromMetadata object.metadata)
    cases params with
    | none => exact builtOnAny_some hbuilt
    | some params =>
      refine Prog.gives_then fun rendered => ?_
      split <;> exact builtOnAny_some hbuilt

theorem serveStaticPathWithOptions_built (config : EdgeConfig) (path : Str) (status : StatusCode)
    (params : Option Value) (access : ObjectReadAccess) :
    (serveStaticPathWithOptions deps originId config path status params headers access).Gives
      (BuiltOnAny headers) := by
  refine Prog.gives_bind (serveObjectWithOptions_built deps originId h path status params access)
    fun response hresponse => ?_
  cases response with
  | some response => exact hresponse
  | none =>
    simp only
    split
    · exact serveObjectWithOptions_built deps originId h _ status params access
    · exact builtOnAny_none

theorem handleMissing_built (config : EdgeConfig) :
    (handleMissing deps originId config headers).Gives (BuiltOnAny headers) := by
  unfold handleMissing
  split
  · split
    · exact builtOnAny_some (builtOn_notFoundText h)
    · refine Prog.gives_bind (serveObjectWithOptions_built deps originId h _ _ _ _)
        fun response hresponse => ?_
      cases response with
      | some response => exact builtOnAny_some (hresponse response rfl)
      | none => exact builtOnAny_some (builtOn_notFoundText h)
  · split
    · exact builtOnAny_some (builtOn_notFoundText h)
    · exact serveObjectWithOptions_built deps originId h _ _ _ _
  · refine Prog.gives_then fun status => builtOnAny_some (builtOn_apply h ?_)
    exact own_insertHeader? own_empty (by decide) _

/-- What the missing-object behaviour comes to is built on the headers it was given. -/
theorem handleMissing_finalized (config : EdgeConfig) (request : RenderRequest) {α : Type}
    {P : α → Prop} (f : RenderResponse → α)
    (hf : ∀ response, BuiltOn headers response.headers → P (f response)) :
    (handleMissing deps originId config headers >>= fun response => (pure (f (finalizeResponse request
      (response.getD (notFoundText headers)))) : Handling α)).Gives P := by
  refine Prog.gives_bind (handleMissing_built deps originId h config) fun response hresponse => ?_
  refine Prog.gives_pure (hf _ ?_)
  cases response with
  | some response => exact (hresponse response rfl).finalize request
  | none => exact (builtOn_notFoundText h).finalize request

theorem handleStatic_built (request : RenderRequest) (config : EdgeConfig) :
    (handleStatic deps request originId config headers).Gives
      fun response => BuiltOn headers response.headers := by
  unfold handleStatic
  cases findRedirect config request.path request.query with
  | some redirect =>
    refine Prog.gives_then fun status => BuiltOn.finalize ?_ request
    exact builtOn_apply h (own_insertHeader own_empty (by decide) _)
  | none =>
    refine Prog.gives_bind (serveStaticPathWithOptions_built deps originId h config _ _ _ _)
      fun response hresponse => ?_
    cases response with
    | some response => exact (hresponse response rfl).finalize request
    | none => exact handleMissing_finalized deps originId h config request id fun _ hr => hr

end

/-- The headers of the hooks and those of CORS, over a response that has its own, and those of
CORS or not. -/
theorem builtOn_withEdgeHeaders {cors : Headers} (hcors : Lower cors) {response : RenderResponse}
    (h : BuiltOn cors response.headers ∨ response.headers = ∅) (state : EdgeChainState)
    (request : RenderRequest) :
    BuiltOn (combinedResponseHeaders (filteredHeaders state.headers) cors)
      (withEdgeHeaders response state cors request).headers := by
  have hfiltered := (safe_filteredHeaders state.headers).lower
  have hbase : ∃ base, Own base ∧ ∀ n : Str, cors[n]? = none → response.headers[n]? = base[n]? := by
    rcases h with ⟨base, hbase, hshown⟩ | hempty
    · exact ⟨base, hbase, fun n hn => by rw [hshown, hn, Option.none_or]⟩
    · exact ⟨∅, own_empty, fun n _ => by rw [hempty]⟩
  obtain ⟨base, hown, hshown⟩ := hbase
  refine @BuiltOn.finalize _ { response with
    headers := applyHeaders (applyHeaders response.headers (filteredHeaders state.headers)) cors }
    ⟨base, hown, fun n => ?_⟩ request
  rw [combinedResponseHeaders, getElem?_applyHeaders_lower hcors, getElem?_applyHeaders_lower hcors,
    getElem?_applyHeaders_lower hfiltered]
  cases hn : cors[n]? with
  | some v => rfl
  | none => simp [hshown n hn]

/-! ## The headers of CORS -/

/-- The headers are safe and have the entries of `cors`. -/
structure Carries (cors headers : Headers) : Prop where
  safe : Safe headers
  has : ∀ (n v : Str), cors[n]? = some v → headers[n]? = some v

variable {cors : Headers}

theorem Carries.refl (h : Safe cors) : Carries cors cors := ⟨h, fun _ _ => id⟩

theorem Carries.apply {target headers : Headers} (ht : Safe target) (h : Carries cors headers) :
    Carries cors (applyHeaders target headers) := by
  refine ⟨safe_applyHeaders ht h.safe, fun n v hv => ?_⟩
  rw [getElem?_applyHeaders_lower h.safe.lower, h.has n v hv]
  rfl

theorem Carries.built {headers shown : Headers} (h : Carries cors headers)
    (hbuilt : BuiltOn headers shown) : Carries cors shown := by
  obtain ⟨base, hbase, hshown⟩ := hbuilt
  constructor
  · intro n hn
    obtain ⟨v, hv⟩ := mem_headers_iff.mp hn
    rw [hshown] at hv
    cases hheaders : headers[n]? with
    | some u => exact h.safe n (mem_headers_iff.mpr ⟨u, hheaders⟩)
    | none =>
      rw [hheaders] at hv
      exact hbase.safe n (mem_headers_iff.mpr ⟨v, hv⟩)
  · intro n v hv
    rw [hshown, h.has n v hv]
    rfl

theorem carries_combined (hcors : Safe cors) (state : EdgeChainState) :
    Carries cors (combinedResponseHeaders (filteredHeaders state.headers) cors) :=
  (Carries.refl hcors).apply (safe_filteredHeaders _)

/-- The response, if there is one, carries the CORS headers. -/
def CarriesAny (cors : Headers) (response : Option RenderResponse) : Prop :=
  ∀ r ∈ response, Carries cors r.headers

theorem carriesAny_some {response : RenderResponse} (h : Carries cors response.headers) :
    CarriesAny cors (some response) := fun r hr => by
  cases Option.mem_some.mp hr
  exact h

theorem carriesAny_none : CarriesAny cors none := fun _ hr => by cases hr

section
variable (deps : GatewayDeps) (request : RenderRequest) (originId : Str) (config : EdgeConfig)
  (hcors : Safe cors)
include hcors

theorem Carries.withEdgeHeaders {response : RenderResponse}
    (h : BuiltOn cors response.headers ∨ response.headers = ∅) (state : EdgeChainState) :
    Carries cors (withEdgeHeaders response state cors request).headers :=
  (carries_combined hcors state).built (builtOn_withEdgeHeaders hcors.lower h state request)

theorem Carries.emptyWith (status : StatusCode) :
    Carries cors (finalizeResponse request (emptyWith status cors)).headers :=
  (Carries.refl hcors).built
    (@BuiltOn.finalize _ (Gateway.emptyWith status cors) (builtOn_apply hcors.lower own_empty) request)

theorem edgeOutcome_gives (state : EdgeChainState) (outcome : EdgePayloadOutcome) :
    (edgeOutcome deps request originId config cors state outcome).Gives (CarriesAny cors) := by
  have hself := Carries.refl hcors
  cases outcome with
  | continue_ => exact carriesAny_none
  | respondDirect status body =>
    exact carriesAny_some (Carries.withEdgeHeaders request hcors (Or.inr rfl) state)
  | serveFile status filePath params =>
    refine Prog.gives_bind (serveStaticPathWithOptions_built deps originId hcors.lower config _ _ _ _)
      fun response hresponse => ?_
    cases response with
    | some response =>
      exact carriesAny_some
        (Carries.withEdgeHeaders request hcors (Or.inl (hresponse response rfl)) state)
    | none =>
      have hcombined := carries_combined hcors state
      exact handleMissing_finalized deps originId hcombined.safe.lower config request some
        fun _ hr => carriesAny_some (hcombined.built hr)
  | renderTarget status params =>
    refine Prog.gives_bind (serveStaticPathWithOptions_built deps originId hcors.lower config _ _ _ _)
      fun response hresponse => ?_
    cases response with
    | some response =>
      exact carriesAny_some
        (Carries.withEdgeHeaders request hcors (Or.inl (hresponse response rfl)) state)
    | none =>
      exact carriesAny_some (hself.built ((builtOn_notFoundText hcors.lower).finalize request))

/-- The chain answers with a response that carries the CORS headers, or goes on with the
filtered headers of the hooks. -/
theorem edgeChain_gives (hookRequest : EdgeHookRequest) (edges : List EdgeHookConfig) :
    ∀ i state, (edgeChain deps request originId hookRequest config cors i state edges).Gives
      fun result => CarriesAny cors result.1 ∧
        (result.1 = none → ∃ state : EdgeChainState, result.2 = filteredHeaders state.headers) := by
  induction edges with
  | nil => exact fun i state => ⟨carriesAny_none, fun _ => ⟨state, rfl⟩⟩
  | cons hook edges ih =>
    intro i state
    refine Prog.gives_then fun reply => ?_
    cases reply with
    | error error => exact ⟨carriesAny_some (Carries.emptyWith request hcors _), by simp⟩
    | ok reply =>
      simp only
      split
      · exact ⟨carriesAny_some (Carries.emptyWith request hcors _), by simp⟩
      · refine Prog.gives_bind (edgeOutcome_gives deps request originId config hcors _ _)
          fun response hresponse => ?_
        cases response with
        | some response => exact ⟨hresponse, by simp⟩
        | none => exact ih _ _

end

/-! ## Requests -/

theorem allowedOriginFor_eq {parseUrl : Str → Option ParsedUrl} {policy : CorsPolicy}
    {originId origin allowed : Str}
    (h : policy.allowedOriginFor parseUrl originId origin = some allowed) : allowed = origin := by
  unfold CorsPolicy.allowedOriginFor at h
  split at h
  · cases h
  · split at h
    · cases h
    · split at h
      · exact (Option.some.inj h).symm
      · cases h

section
variable (deps : GatewayDeps) (service : RenderGatewayService) (request : RenderRequest)

/-- The CORS headers of a request: none, or the two of an origin that is allowed. -/
theorem corsHeaders_cases (originId : Str) :
    (service.corsHeaders deps originId request = ∅ ∧
      ∀ origin, requestHeader request "origin" = some origin →
        service.cors.allowedOriginFor deps.parseUrl originId origin = none) ∨
    ∃ origin, requestHeader request "origin" = some origin ∧
      service.corsHeaders deps originId request =
        Std.TreeMap.ofList [("access-control-allow-origin".toList, origin),
          ("vary".toList, "Origin".toList)] := by
  unfold RenderGatewayService.corsHeaders
  cases requestHeader request "origin" with
  | none => exact Or.inl ⟨rfl, by simp⟩
  | some origin =>
    simp only
    cases hallowed : service.cors.allowedOriginFor deps.parseUrl originId origin with
    | none =>
      refine Or.inl ⟨rfl, fun origin' h => ?_⟩
      cases h
      exact hallowed
    | some allowed =>
      rw [allowedOriginFor_eq hallowed]
      exact Or.inr ⟨origin, rfl, rfl⟩

theorem safe_corsHeaders (originId : Str) : Safe (service.corsHeaders deps originId request) := by
  rcases corsHeaders_cases deps service request originId with ⟨h, -⟩ | ⟨origin, -, h⟩
  · rw [h]
    exact safe_empty
  · rw [h]
    intro n hn
    have hname : n = "access-control-allow-origin".toList ∨ n = "vary".toList := by
      simpa using Std.TreeMap.mem_ofList.mp hn
    rcases hname with rfl | rfl <;> decide

theorem getElem?_corsHeaders {originId origin : Str}
    (horigin : requestHeader request "origin" = some origin)
    (hallowed : (service.cors.allowedOriginFor deps.parseUrl originId origin).isSome = true) :
    (service.corsHeaders deps originId request)["access-control-allow-origin".toList]? = some origin ∧
      (service.corsHeaders deps originId request)["vary".toList]? = some "Origin".toList := by
  rcases corsHeaders_cases deps service request originId with ⟨-, hnone⟩ | ⟨origin', horigin', hcors⟩
  · rw [hnone origin horigin] at hallowed
    cases hallowed
  · obtain rfl := Option.some.inj (horigin.symm.trans horigin')
    have hne : compare "access-control-allow-origin".toList "vary".toList ≠ .eq := by decide
    have hdistinct : [("access-control-allow-origin".toList, origin), ("vary".toList,
        "Origin".toList)].Pairwise fun a b => ¬ compare a.1 b.1 = .eq :=
      .cons (fun b hb => by rwa [List.mem_singleton.mp hb]) (List.pairwise_singleton _ _)
    rw [hcors]
    constructor
    · exact Std.TreeMap.getElem?_ofList_of_mem Std.ReflCmp.compare_self hdistinct (by simp)
    · exact Std.TreeMap.getElem?_ofList_of_mem Std.ReflCmp.compare_self hdistinct (by simp)

/-- The headers of a preflight response do not touch the CORS headers. -/
theorem carries_preflight (originId : Str) :
    Carries (service.corsHeaders deps originId request) (insertHeader? (insertHeader
      (applyHeaders ∅ (service.corsHeaders deps originId request))
      "access-control-allow-methods".toList "GET, HEAD, OPTIONS".toList)
      "access-control-allow-headers" (requestHeader request "access-control-request-headers")) := by
  have hcors := safe_corsHeaders deps service request originId
  have hbase := (Carries.refl hcors).apply safe_empty
  refine ⟨safe_insertHeader? (safe_insertHeader hbase.safe (by decide) _) (by decide) _, fun n v hv => ?_⟩
  have hname : toAsciiLower "access-control-allow-methods".toList ≠ n ∧
      toAsciiLower "access-control-allow-headers".toList ≠ n := by
    rcases corsHeaders_cases deps service request originId with ⟨h, -⟩ | ⟨origin, -, h⟩
    · rw [h] at hv
      cases hv
    · have hmem := mem_headers_iff.mpr ⟨v, hv⟩
      rw [h] at hmem
      have hn : n = "access-control-allow-origin".toList ∨ n = "vary".toList := by
        simpa using Std.TreeMap.mem_ofList.mp hmem
      rcases hn with rfl | rfl <;> decide
  have hmethods : (insertHeader (applyHeaders ∅ (service.corsHeaders deps originId request))
      "access-control-allow-methods".toList "GET, HEAD, OPTIONS".toList)[n]? = some v := by
    rw [getElem?_insertHeader, if_neg hname.1]
    exact hbase.has n v hv
  cases requestHeader request "access-control-request-headers" with
  | none => exact hmethods
  | some value =>
    rw [insertHeader?, getElem?_insertHeader, if_neg hname.2]
    exact hmethods

/-- Every response that a request can get has safe headers, and those of CORS when the host
is mapped. -/
theorem handle_gives : (service.handle deps request).Gives fun response =>
    Safe response.headers ∧ ∀ resolved, service.resolver.resolve request.host = some resolved →
      Carries (service.corsHeaders deps resolved.originId request) response.headers := by
  unfold RenderGatewayService.handle
  cases hresolve : service.resolver.resolve request.host with
  | none => exact ⟨safe_empty, by simp⟩
  | some resolved =>
    have hcors := safe_corsHeaders deps service request resolved.originId
    have hboth : ∀ headers, Carries (service.corsHeaders deps resolved.originId request) headers →
        Safe headers ∧ ∀ resolved', some resolved = some resolved' →
          Carries (service.corsHeaders deps resolved'.originId request) headers := by
      refine fun headers h => ⟨h.safe, fun resolved' he => ?_⟩
      cases he
      exact h
    simp only
    split
    · exact hboth _ (carries_preflight deps service request resolved.originId)
    · exact hboth _ ((Carries.refl hcors).apply safe_empty)
    · refine Prog.gives_then fun entry => ?_
      split
      · refine Prog.gives_bind (edgeChain_gives deps request resolved.originId _ hcors _ _ _ _)
          fun result hresult => ?_
        obtain ⟨response, edgeHeaders⟩ := result
        cases response with
        | some response => exact hboth _ (hresult.1 response rfl)
        | none =>
          obtain ⟨state, rfl⟩ := hresult.2 rfl
          have hcombined := carries_combined hcors state
          exact Prog.gives_mono (handleStatic_built deps resolved.originId hcombined.safe.lower request
            _) fun response hr => hboth response.headers (hcombined.built hr)
      · exact hboth _ ((Carries.refl hcors).apply safe_empty)

end

theorem headers_safe (deps : GatewayDeps) (env : Env) (hooks : Hooks) (service : RenderGatewayService)
    (request : RenderRequest) (w w' : World) (response : RenderResponse)
    (hrun : run (gatewayStep deps.toDeps env hooks) (service.handle deps request) w =
      (.ok response, w')) :
    (∀ n ∈ response.headers, toAsciiLower n = n ∧ isUnsafeEdgeHeader n = false) ∧
    ∀ resolved origin, service.resolver.resolve request.host = some resolved →
      requestHeader request "origin" = some origin →
      (service.cors.allowedOriginFor deps.parseUrl resolved.originId origin).isSome = true →
      response.headers["access-control-allow-origin".toList]? = some origin ∧
        response.headers["vary".toList]? = some "Origin".toList := by
  obtain ⟨hsafe, hcarries⟩ := run_gives (handle_gives deps service request) hrun
  refine ⟨hsafe, fun resolved origin hresolve horigin hallowed => ?_⟩
  have hhas := (hcarries resolved hresolve).has
  obtain ⟨hallow, hvary⟩ := getElem?_corsHeaders deps service request horigin hallowed
  exact ⟨hhas _ _ hallow, hhas _ _ hvary⟩

/-- `Url::parse` knows one origin in the examples. -/
def corsDeps : GatewayDeps :=
  { smallGatewayDeps with
    parseUrl := fun origin =>
      if origin = "https://b.com".toList then
        some ⟨"https".toList, "/".toList, none, none, [], none, none, some "b.com".toList⟩
      else none }

def corsPolicy : CorsPolicy :=
  ⟨Std.TreeMap.ofList [("web".toList, [CorsHostRule.exact "b.com".toList])]⟩

/-- The small site, for scripts of `b.com` too. -/
def corsService (resolver : HostResolver) : RenderGatewayService :=
  { siteService resolver with cors := corsPolicy }

def corsRequest : RenderRequest :=
  { getRequest "/a" with headers := [("origin".toList, utf8 "https://b.com".toList)] }

/-- A hook that tries to set headers of its own. -/
def settingHook : Hooks := fun _ _ _ => .ok ⟨.ok, Std.TreeMap.ofList
  [("Host".toList, "c.com".toList), ("Vary".toList, "*".toList)], none, none, none⟩

def hookedConfig : EdgeConfig :=
  { defaultEdgeConfig with edges := [⟨"h".toList, "https://h".toList, 1000⟩] }

theorem headers_safe_hooked : ∃ resolver,
    HostResolver.new (smallManifest [("a.com", "web")]) = .ok resolver ∧
    ∃ response w', run (gatewayStep smallDeps calmEnv settingHook)
        ((corsService resolver).handle corsDeps corsRequest)
        (siteWorld FileTree.empty hookedConfig) = (.ok response, w') ∧
      (∀ n ∈ response.headers, toAsciiLower n = n ∧ isUnsafeEdgeHeader n = false) ∧
      response.headers["access-control-allow-origin".toList]? = some "https://b.com".toList ∧
      response.headers["vary".toList]? = some "Origin".toList := by
  obtain ⟨resolver, hnew, hres⟩ := site_resolver
  have hsome : (HostResolver.new (smallManifest [("a.com", "web")])).toOption.map (fun resolver =>
      (run (gatewayStep smallDeps calmEnv settingHook)
        ((corsService resolver).handle corsDeps corsRequest)
        (siteWorld FileTree.empty hookedConfig)).1.ok?.isSome) = some true := by decide +kernel
  rw [hnew] at hsome
  obtain ⟨response, hok⟩ := Outcome.ok?_isSome.mp (Option.some.inj hsome)
  have hrun : run (gatewayStep smallDeps calmEnv settingHook)
      ((corsService resolver).handle corsDeps corsRequest) (siteWorld FileTree.empty hookedConfig) =
        (.ok response, _) := Prod.ext hok rfl
  obtain ⟨hsafe, hcors⟩ := headers_safe corsDeps calmEnv settingHook (corsService resolver) corsRequest
    (siteWorld FileTree.empty hookedConfig) _ response hrun
  have hallowed : (corsPolicy.allowedOriginFor corsDeps.parseUrl "web".toList
      "https://b.com".toList).isSome = true := by decide +kernel
  exact ⟨resolver, hnew, response, _, hrun, hsafe,
    hcors _ "https://b.com".toList hres (by decide +kernel) hallowed⟩

end RenderMesh.Gateway
