import RenderMesh.Core.Results
import RenderMesh.Gateway.HeaderMaps
import RenderMesh.Gateway.Totality

/-!
# Where the hooks of a request lead

`chainEnd` runs through the replies alone: the chain goes on to static delivery, fails, or
ends at a hook that answers. `run_of_chain` is a request in these three cases.

The headers that the hooks have given by then are a list of maps, `chainPayloads`; they are
collected in the order of the hooks, spelling by spelling (`collected_eq_some`), and
lowered at the end (`filtered_collected`).
-/
namespace RenderMesh.Gateway

open RenderMesh.Core RenderMesh.Mirror RenderMesh.Server RenderMesh.Domains RenderMesh.Refresh

inductive ChainEnd where
  /-- no hook answered -/
  | continued (state : EdgeChainState)
  /-- a hook failed, or its payload was refused -/
  | failed (status : StatusCode)
  /-- a hook answered -/
  | answered (outcome : EdgePayloadOutcome) (state : EdgeChainState)

section
variable (hooks : Hooks) (hookRequest : EdgeHookRequest)

/-- Where the chain ends, from its `i`-th hook on. -/
def chainEnd : Nat → EdgeChainState → List EdgeHookConfig → ChainEnd
  | _, state, [] => .continued state
  | i, state, hook :: edges =>
    match hooks i hook hookRequest with
    | .error error => .failed (edgeFailureStatus error)
    | .ok reply =>
      match applyEdgePayload state reply.status reply.payload with
      | .error _ => .failed .badGateway
      | .ok (.continue_, state) => chainEnd (i + 1) state edges
      | .ok (outcome, state) => .answered outcome state

/-- The headers of the payloads that the chain takes over, from its `i`-th hook on. -/
def chainPayloads : Nat → List EdgeHookConfig → List Headers
  | _, [] => []
  | i, hook :: edges =>
    match hooks i hook hookRequest with
    | .error _ => []
    | .ok reply =>
      match payloadOutcome reply.status reply.payload with
      | .error _ => []
      | .ok .continue_ => reply.payload.headers :: chainPayloads (i + 1) edges
      | .ok _ => [reply.payload.headers]

/-- The end of the chain, if it has a state: the headers collected so far. -/
def ChainEnd.state? : ChainEnd → Option EdgeChainState
  | .continued state => some state
  | .failed _ => none
  | .answered _ state => some state

variable {hooks hookRequest}

theorem applyEdgePayload_ok {state : EdgeChainState} {status : StatusCode}
    {payload : EdgeHookPayload} {x : EdgePayloadOutcome × EdgeChainState} :
    applyEdgePayload state status payload = .ok x ↔
      payloadOutcome status payload = .ok x.1 ∧ x.2 = ⟨extendHeaders state.headers payload.headers⟩ := by
  obtain ⟨outcome, state'⟩ := x
  unfold applyEdgePayload
  cases payloadOutcome status payload with
  | error e => simp [bind, Except.bind]
  | ok o => simp [bind, Except.bind, eq_comm]

theorem chainEnd_answered {edges : List EdgeHookConfig} {outcome : EdgePayloadOutcome}
    {state' : EdgeChainState} : ∀ {i state},
    chainEnd hooks hookRequest i state edges = .answered outcome state' → outcome ≠ .continue_ := by
  induction edges with
  | nil =>
    intro i state h
    cases h
  | cons hook edges ih =>
    intro i state h
    unfold chainEnd at h
    split at h
    · cases h
    · split at h
      · cases h
      · exact ih h
      · rename_i hne _
        cases h
        rintro rfl
        exact hne rfl

/-- The state at the end has the headers of all payloads, in their order. -/
theorem chainEnd_state {edges : List EdgeHookConfig} {state' : EdgeChainState} : ∀ {i state},
    (chainEnd hooks hookRequest i state edges).state? = some state' →
    state'.headers = (chainPayloads hooks hookRequest i edges).foldl extendHeaders state.headers := by
  induction edges with
  | nil =>
    intro i state h
    cases h
    rfl
  | cons hook edges ih =>
    intro i state h
    unfold chainEnd at h
    unfold chainPayloads
    cases hreply : hooks i hook hookRequest with
    | error error =>
      rw [hreply] at h
      cases h
    | ok reply =>
      rw [hreply] at h
      simp only at h ⊢
      split at h
      · cases h
      · rename_i happly
        obtain ⟨hpayload, hstate⟩ := applyEdgePayload_ok.mp happly
        simp only at hpayload hstate
        rw [hpayload]
        simp only [List.foldl_cons]
        rw [ih h, hstate]
      · rename_i outcome state1 hne happly
        obtain ⟨hpayload, hstate⟩ := applyEdgePayload_ok.mp happly
        simp only at hpayload hstate
        cases h
        rw [hpayload, hstate]
        cases outcome with
        | continue_ => exact (hne rfl).elim
        | _ => rfl

end

/-! ## The request -/

section
variable (hooks : Hooks) (hookRequest : EdgeHookRequest)

/-- How many hooks are called, from the `i`-th on. -/
def chainCalls : Nat → List EdgeHookConfig → Nat
  | _, [] => 0
  | i, hook :: edges =>
    match hooks i hook hookRequest with
    | .error _ => 1
    | .ok reply =>
      match payloadOutcome reply.status reply.payload with
      | .ok .continue_ => chainCalls (i + 1) edges + 1
      | _ => 1

end

/-- What a request comes to after its hooks. -/
def requestAnswer (deps : GatewayDeps) (request : RenderRequest) (originId : Str)
    (config : EdgeConfig) (cors : Headers) : ChainEnd → Handling RenderResponse
  | .continued state => handleStatic deps request originId config
      (combinedResponseHeaders (filteredHeaders state.headers) cors)
  | .failed status => pure (finalizeResponse request (emptyWith status cors))
  | .answered outcome state => do
    let response ← edgeOutcome deps request originId config cors state outcome
    pure (response.getD (.empty .ok))

/-- The world `n` steps later, when nothing else has happened. -/
def later (w : World) (n : Nat) : World := { w with clock := w.clock + n }

section
variable {deps : GatewayDeps} {env : Env} {hooks : Hooks} {service : RenderGatewayService}
  {request : RenderRequest} {resolved : ResolvedHost} {config : EdgeConfig}

theorem later_tick (w : World) (n : Nat) : later w.tick n = later w (n + 1) := by
  simp only [later, World.tick, Nat.add_assoc, Nat.add_comm 1]

theorem edgeOutcome_isSome (originId : Str) (cors : Headers) (state : EdgeChainState)
    {outcome : EdgePayloadOutcome} (hne : outcome ≠ .continue_) :
    (edgeOutcome deps request originId config cors state outcome).Gives fun r => r.isSome = true := by
  cases outcome with
  | continue_ => exact absurd rfl hne
  | respondDirect status body => exact rfl
  | serveFile status filePath params =>
    refine Prog.gives_then fun response => ?_
    cases response with
    | some response => exact rfl
    | none => exact Prog.gives_then fun _ => rfl
  | renderTarget status params =>
    refine Prog.gives_then fun response => ?_
    cases response <;> exact rfl

theorem run_edgeChain {originId : Str} {hookRequest : EdgeHookRequest} {cors : Headers}
    {edges : List EdgeHookConfig} : ∀ {i state} (w : World),
    run (gatewayStep deps.toDeps env hooks) (edgeChain deps request originId hookRequest config cors i
        state edges >>= afterEdgeChain deps request originId config cors) w =
      run (gatewayStep deps.toDeps env hooks) (requestAnswer deps request originId config cors
        (chainEnd hooks hookRequest i state edges)) (later w (chainCalls hooks hookRequest i edges)) := by
  induction edges with
  | nil => exact fun w => rfl
  | cons hook edges ih =>
    intro i state w
    rw [edgeChain, run_bind, run_bind, show run (gatewayStep deps.toDeps env hooks)
      (ask (.hook i hook hookRequest)) w = (.ok (hooks i hook hookRequest), w.tick) from rfl,
      chainEnd, chainCalls]
    cases hooks i hook hookRequest with
    | error error => rfl
    | ok reply =>
      cases hpayload : payloadOutcome reply.status reply.payload with
      | error error =>
        simp only [applyEdgePayload, hpayload, bind, Except.bind]
        rfl
      | ok outcome =>
        have happly : applyEdgePayload state reply.status reply.payload =
            .ok (outcome, ⟨extendHeaders state.headers reply.payload.headers⟩) :=
          applyEdgePayload_ok.mpr ⟨hpayload, rfl⟩
        simp only [happly, hpayload]
        generalize (⟨extendHeaders state.headers reply.payload.headers⟩ : EdgeChainState) = state'
        -- a hook that answers ends the chain with a response
        have hanswer : outcome ≠ .continue_ → ∀ k : Option RenderResponse →
              Handling (Option RenderResponse × Headers), (∀ r, k (some r) = pure (some r, ∅)) →
            run (gatewayStep deps.toDeps env hooks) ((edgeOutcome deps request originId config cors
                state' outcome >>= k) >>= afterEdgeChain deps request originId config cors) w.tick =
              run (gatewayStep deps.toDeps env hooks) (requestAnswer deps request originId config cors
                (.answered outcome state')) w.tick := by
          intro hne k hk
          rw [run_bind, run_bind, requestAnswer, run_bind]
          generalize hv : run (gatewayStep deps.toDeps env hooks) (edgeOutcome deps request originId
            config cors state' outcome) w.tick = answer
          obtain ⟨r | e | _, w'⟩ := answer
          · obtain ⟨r, rfl⟩ := Option.isSome_iff_exists.mp
              (run_gives (edgeOutcome_isSome originId cors state' hne) hv)
            simp only [hk]
            rfl
          · rfl
          · rfl
        refine (run_bind _ _ _ _).symm.trans ?_
        cases outcome with
        | continue_ =>
          rw [← later_tick]
          exact ih w.tick
        | respondDirect status body => exact hanswer (by simp) _ fun _ => rfl
        | serveFile status filePath params => exact hanswer (by simp) _ fun _ => rfl
        | renderTarget status params => exact hanswer (by simp) _ fun _ => rfl

variable (deps hooks service request resolved config) in
/-- What the hooks of a request are asked. -/
def hookRequestOf : EdgeHookRequest :=
  edgeHookRequest deps request resolved (service.bucketForOrigin resolved.originId)
    service.originEdgeContexts[resolved.originId]?

variable (deps hooks service request resolved config) in
/-- Where the hooks of a request lead. -/
def requestEnd : ChainEnd :=
  chainEnd hooks (hookRequestOf deps service request resolved) 0 ⟨∅⟩ config.edges

variable (deps hooks service request resolved config) in
/-- The headers that the hooks of a request give. -/
def requestPayloads : List Headers :=
  chainPayloads hooks (hookRequestOf deps service request resolved) 0 config.edges

variable (deps hooks service request resolved config) in
/-- The world when the hooks have been called. -/
def afterHooks (w : World) : World :=
  later w (chainCalls hooks (hookRequestOf deps service request resolved) 0 config.edges + 1)

/-- A request whose configuration is valid goes through its hooks to its answer. -/
theorem run_of_chain {w : World} (hresolve : service.resolver.resolve request.host = some resolved)
    (hmethod : request.method = .get ∨ request.method = .head)
    (hstored : w.edgeConfigs resolved.originId = some (.valid config)) :
    run (gatewayStep deps.toDeps env hooks) (service.handle deps request) w =
      run (gatewayStep deps.toDeps env hooks) (requestAnswer deps request resolved.originId config
        (service.corsHeaders deps resolved.originId request)
        (requestEnd deps hooks service request resolved config))
        (afterHooks deps hooks service request resolved config w) := by
  have hserve : service.handle deps request = service.serve deps request resolved
      (service.corsHeaders deps resolved.originId request) := by
    rcases hmethod with h | h <;> simp only [RenderGatewayService.handle, hresolve, h]
  rw [hserve, RenderGatewayService.serve, run_bind, show run (gatewayStep deps.toDeps env hooks)
    (ask (.edgeConfig resolved.originId)) w = (.ok (w.edgeConfigs resolved.originId), w.tick) from rfl,
    hstored, afterHooks, ← later_tick]
  exact run_edgeChain w.tick

/-- The headers that the hooks give are what the chain has collected. -/
theorem requestEnd_state {state : EdgeChainState}
    (h : (requestEnd deps hooks service request resolved config).state? = some state) :
    state.headers = (requestPayloads deps hooks service request resolved config).foldl
      extendHeaders ∅ := chainEnd_state h

end

/-! ## What the payloads leave -/

theorem getElem?_extendHeaders (target headers : Headers) (k : Str) :
    (extendHeaders target headers)[k]? = headers[k]?.or target[k]? := by
  rw [extendHeaders, Std.TreeMap.foldl_eq_foldl_toList, ← lastEntry_toList headers]
  exact getElem?_foldl_insert id headers.toList target k

/-- `v` is what the last payload that has the spelling `k` gives it. -/
def LastValue (payloads : List Headers) (k v : Str) : Prop :=
  ∃ before p after, payloads = before ++ p :: after ∧ p[k]? = some v ∧ ∀ q ∈ after, q[k]? = none

theorem getElem?_collected (payloads : List Headers) (target : Headers) (k : Str) :
    (payloads.foldl extendHeaders target)[k]? =
      (payloads.reverse.findSome? fun p => p[k]?).or target[k]? := by
  induction payloads generalizing target with
  | nil => rfl
  | cons p payloads ih =>
    rw [List.foldl_cons, ih, getElem?_extendHeaders, List.reverse_cons, List.findSome?_append,
      Option.or_assoc]
    congr 1
    cases h : p[k]? <;> simp [h]

theorem collected_eq_some {payloads : List Headers} {k v : Str} :
    (payloads.foldl extendHeaders ∅)[k]? = some v ↔ LastValue payloads k v := by
  rw [getElem?_collected, Std.TreeMap.getElem?_emptyc, Option.or_none, List.findSome?_eq_some_iff]
  constructor
  · rintro ⟨after, p, before, he, hp, hafter⟩
    refine ⟨before.reverse, p, after.reverse, ?_, hp, fun q hq => hafter q (List.mem_reverse.mp hq)⟩
    rw [← List.reverse_reverse payloads, he]
    simp
  · rintro ⟨before, p, after, rfl, hp, hafter⟩
    exact ⟨after.reverse, p, before.reverse, by simp, hp, fun q hq => hafter q (List.mem_reverse.mp hq)⟩

/-! ## Spellings -/

/-- `k` is the last spelling of `n`, in the order of the names, that a payload uses. -/
structure LastSpelling (payloads : List Headers) (n k : Str) : Prop where
  spells : toAsciiLower k = n
  used : ∃ p ∈ payloads, k ∈ p
  last : ∀ p ∈ payloads, ∀ k' ∈ p, toAsciiLower k' = n → (compare k' k).isLE = true

theorem mem_collected {payloads : List Headers} {k : Str} :
    k ∈ payloads.foldl extendHeaders ∅ ↔ ∃ p ∈ payloads, k ∈ p := by
  rw [mem_headers_iff]
  constructor
  · rintro ⟨v, hv⟩
    obtain ⟨before, p, after, rfl, hp, -⟩ := collected_eq_some.mp hv
    exact ⟨p, by simp, mem_headers_iff.mpr ⟨v, hp⟩⟩
  · rintro ⟨p, hp, hk⟩
    obtain ⟨v, hv⟩ := mem_headers_iff.mp hk
    have hsome : (payloads.reverse.findSome? fun p => p[k]?).isSome = true := by
      rw [List.findSome?_isSome_iff]
      exact ⟨p, List.mem_reverse.mpr hp, by rw [hv]; rfl⟩
    obtain ⟨u, hu⟩ := Option.isSome_iff_exists.mp hsome
    exact ⟨u, by rw [getElem?_collected, hu]; rfl⟩

/-- The last entry of a map for a lowered name is the one of its last spelling. -/
theorem spelling_of_lastEntry {headers : Headers} {n v : Str}
    (h : lastEntry toAsciiLower headers.toList n = some v) : ∃ k, headers[k]? = some v ∧
      toAsciiLower k = n ∧ ∀ k' ∈ headers, toAsciiLower k' = n → (compare k' k).isLE = true := by
  obtain ⟨⟨k, u⟩, hfind, rfl⟩ := Option.map_eq_some_iff.mp h
  obtain ⟨hk, after, before, he, hafter⟩ := List.find?_eq_some_iff_append.mp hfind
  have hlist : headers.toList = before.reverse ++ (k, u) :: after.reverse := by
    rw [← List.reverse_reverse headers.toList, he]
    simp
  have hmem : (k, u) ∈ headers.toList := by simp [hlist]
  refine ⟨k, Std.TreeMap.mem_toList_iff_getElem?_eq_some.mp hmem, by simpa using hk, fun k' hk' hn => ?_⟩
  obtain ⟨v', hv'⟩ := mem_headers_iff.mp hk'
  have hmem' : (k', v') ∈ headers.toList := Std.TreeMap.mem_toList_iff_getElem?_eq_some.mpr hv'
  have hsorted : headers.toList.Pairwise fun a b => compare a.1 b.1 = .lt :=
    Std.TreeMap.ordered_keys_toList
  rw [hlist] at hmem' hsorted
  rcases List.mem_append.mp hmem' with hin | hin
  · have hlt := (List.pairwise_append.mp hsorted).2.2 _ hin (k, u) List.mem_cons_self
    rw [hlt]
    rfl
  · rcases List.mem_cons.mp hin with hin | hin
    · cases hin
      rw [show compare k k = .eq from Std.ReflOrd.compare_self]
      rfl
    · have := hafter _ (List.mem_reverse.mp hin)
      simp [hn] at this

theorem lastEntry_spelling {headers : Headers} {n v : Str} :
    lastEntry toAsciiLower headers.toList n = some v ↔ ∃ k, headers[k]? = some v ∧
      toAsciiLower k = n ∧ ∀ k' ∈ headers, toAsciiLower k' = n → (compare k' k).isLE = true := by
  refine ⟨spelling_of_lastEntry, ?_⟩
  rintro ⟨k, hv, hk, hlast⟩
  have hmem : (k, v) ∈ headers.toList := Std.TreeMap.mem_toList_iff_getElem?_eq_some.mpr hv
  cases h : lastEntry toAsciiLower headers.toList n with
  | none => exact absurd hk (lastEntry_eq_none.mp h _ hmem)
  | some u =>
    obtain ⟨k', hu, hk', hlast'⟩ := spelling_of_lastEntry h
    have h1 := hlast' k (mem_headers_iff.mpr ⟨v, hv⟩) hk
    have h2 := hlast k' (mem_headers_iff.mpr ⟨u, hu⟩) hk'
    have he : k = k' := Std.LawfulEqOrd.eq_of_compare (Std.OrientedCmp.isLE_antisymm h1 h2)
    subst he
    exact hu.symm.trans hv

/-- What the hooks leave under a lowered name: the value of the last spelling, from the last
payload that uses it. -/
theorem lastEntry_collected {payloads : List Headers} {n v : Str} :
    lastEntry toAsciiLower (payloads.foldl extendHeaders ∅).toList n = some v ↔
      ∃ k, LastSpelling payloads n k ∧ LastValue payloads k v := by
  rw [lastEntry_spelling]
  constructor
  · rintro ⟨k, hv, hk, hlast⟩
    refine ⟨k, ⟨hk, mem_collected.mp (mem_headers_iff.mpr ⟨v, hv⟩), fun p hp k' hk' =>
      hlast k' (mem_collected.mpr ⟨p, hp, hk'⟩)⟩, collected_eq_some.mp hv⟩
  · rintro ⟨k, hk, hv⟩
    refine ⟨k, collected_eq_some.mpr hv, hk.spells, fun k' hk' => ?_⟩
    obtain ⟨p, hp, hin⟩ := mem_collected.mp hk'
    exact hk.last p hp k' hin

theorem getElem?_filteredHeaders (headers : Headers) {n : Str} (hn : isUnsafeEdgeHeader n = false) :
    (filteredHeaders headers)[n]? = lastEntry toAsciiLower headers.toList n := by
  rw [filteredHeaders, getElem?_foldl_insert, Std.TreeMap.getElem?_emptyc, Option.or_none]
  unfold lastEntry
  rw [← List.filter_reverse, List.find?_filter]
  congr 1
  refine List.find?_congr fun e _ => ?_
  by_cases he : toAsciiLower e.1 = n
  · have hsafe : isUnsafeEdgeHeader e.1 = false := by
      rw [← isUnsafeEdgeHeader_lower, he]
      exact hn
    simp [he, hsafe]
  · simp [he]

end RenderMesh.Gateway
