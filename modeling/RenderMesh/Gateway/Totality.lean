import RenderMesh.Gateway.Reading
import RenderMesh.Server.EdgeConfig

/-!
# When a request is answered

`requestReads` lists the paths that a request reads, in order, until an object is
found at one: what a hook selected, the target and its auto-index candidate, the
missing object. It is computed from the texts and the hooks' replies; the tree is not
looked at.

`handle_answers`: with validated edge configurations a request ends in an error exactly
when the mirror is `Stuck` on these paths, reading fails at one and no object is found
before it.
-/
namespace RenderMesh.Gateway

open RenderMesh.Core RenderMesh.Mirror RenderMesh.Server RenderMesh.Domains

/-- A path and how it is read. -/
abbrev Read := ObjectReadAccess × Str

/-! ## What is read -/

section
variable (config : EdgeConfig)

def staticReads (access : ObjectReadAccess) (path : Str) : List Read :=
  (access, path) :: if config.edge.autoRewriteIndex then [(access, autoIndexCandidate path)] else []

def missingReads : List Read :=
  match config.missing.action with
  | .notFound => (config.missing.page.map (.pub, ·)).toList
  | .serve => (config.missing.path.map (.pub, ·)).toList
  | .redirect => []

def targetReads (requestPath : Str) : List Read :=
  staticReads config .pub (resolveRequestTarget config requestPath)

def outcomeReads (requestPath : Str) : EdgePayloadOutcome → List Read
  | .serveFile _ filePath _ => staticReads config .internal filePath ++ missingReads config
  | .renderTarget _ _ => targetReads config requestPath
  | _ => []

/-- What is read from the `i`-th hook on; `rest` when no hook answers. -/
def chainReads (hooks : Hooks) (hookRequest : EdgeHookRequest) (requestPath : Str)
    (rest : List Read) : Nat → List EdgeHookConfig → List Read
  | _, [] => rest
  | i, hook :: edges =>
    match hooks i hook hookRequest with
    | .error _ => []
    | .ok reply =>
      match payloadOutcome reply.status reply.payload with
      | .error _ => []
      | .ok .continue_ => chainReads hooks hookRequest requestPath rest (i + 1) edges
      | .ok outcome => outcomeReads config requestPath outcome

/-- What is read when no hook answers. -/
def restReads (request : RenderRequest) : List Read :=
  if (findRedirect config request.path request.query).isSome then []
  else targetReads config request.path ++ missingReads config

end

/-- What a `GET` or `HEAD` request reads. -/
def serveReads (deps : GatewayDeps) (service : RenderGatewayService) (s : Scene)
    (request : RenderRequest) (resolved : ResolvedHost) : List Read :=
  match s.edgeConfigs resolved.originId with
  | some (.valid config) =>
    chainReads config s.hooks (edgeHookRequest deps request resolved
        (service.bucketForOrigin resolved.originId) service.originEdgeContexts[resolved.originId]?)
      request.path (restReads config request) 0 config.edges
  | _ => []

/-- The paths that a request reads until an object is found. -/
def requestReads (deps : GatewayDeps) (service : RenderGatewayService) (s : Scene)
    (request : RenderRequest) : List Read :=
  match service.resolver.resolve request.host with
  | none => []
  | some resolved =>
    if request.method = .get ∨ request.method = .head then serveReads deps service s request resolved
    else []

/-! ## What is found -/

namespace Scene

variable (s : Scene) (deps : Deps) (id : Str)

/-- Nothing is there, and reading says so. -/
def Empty (r : Read) : Prop :=
  ¬ s.Fails deps id r.1 r.2 ∧ ∀ object, ¬ s.Holds deps id r.1 r.2 object

/-- Reading fails at one of the paths, and there is no object before it. -/
def Stuck (reads : List Read) : Prop :=
  ∃ before r after, reads = before ++ r :: after ∧ (∀ b ∈ before, s.Empty deps id b) ∧
    s.Fails deps id r.1 r.2

def AllEmpty (reads : List Read) : Prop := ∀ r ∈ reads, s.Empty deps id r

/-- The first object at one of the paths. -/
def Finds (reads : List Read) (r : Read) (object : LocalObject) : Prop :=
  ∃ before after, reads = before ++ r :: after ∧ s.AllEmpty deps id before ∧
    s.Holds deps id r.1 r.2 object ∧ ¬ s.Fails deps id r.1 r.2

variable {s deps id}

theorem not_stuck_of_allEmpty {reads : List Read} (h : s.AllEmpty deps id reads) :
    ¬ s.Stuck deps id reads := by
  intro ⟨before, r, after, he, _, hf⟩
  exact (h r (by simp [he])).1 hf

theorem stuck_append_left {l l' : List Read} (h : s.Stuck deps id l) : s.Stuck deps id (l ++ l') := by
  obtain ⟨before, r, after, rfl, hb, hf⟩ := h
  exact ⟨before, r, after ++ l', by simp, hb, hf⟩

theorem stuck_append_right {l l' : List Read} (hl : s.AllEmpty deps id l)
    (h : s.Stuck deps id l') : s.Stuck deps id (l ++ l') := by
  obtain ⟨before, r, after, rfl, hb, hf⟩ := h
  refine ⟨l ++ before, r, after, by simp, fun b hmem => ?_, hf⟩
  exact (List.mem_append.mp hmem).elim (hl b) (hb b)

theorem stuck_of_append {l l' : List Read} (hl : s.AllEmpty deps id l)
    (h : s.Stuck deps id (l ++ l')) : s.Stuck deps id l' := by
  obtain ⟨before, r, after, he, hb, hf⟩ := h
  rcases List.append_eq_append_iff.mp he with ⟨b, rfl, hl'⟩ | ⟨b, rfl, hl'⟩
  · exact ⟨b, r, after, hl', fun x hx => hb x (by simp [hx]), hf⟩
  · cases b with
    | nil => exact ⟨[], r, after, hl'.symm, by simp, hf⟩
    | cons x b =>
      cases hl'
      exact absurd hf (hl r (by simp)).1

theorem finds_append_left {l l' : List Read} {r : Read} {object : LocalObject}
    (h : s.Finds deps id l r object) : s.Finds deps id (l ++ l') r object := by
  obtain ⟨before, after, rfl, hb, hf⟩ := h
  exact ⟨before, after ++ l', by simp, hb, hf⟩

theorem finds_append_right {l l' : List Read} {r : Read} {object : LocalObject}
    (hl : s.AllEmpty deps id l) (h : s.Finds deps id l' r object) :
    s.Finds deps id (l ++ l') r object := by
  obtain ⟨before, after, rfl, hb, hf⟩ := h
  refine ⟨l ++ before, after, by simp, fun b hmem => ?_, hf⟩
  exact (List.mem_append.mp hmem).elim (hl b) (hb b)

theorem not_stuck_of_finds {reads : List Read} {r : Read} {object : LocalObject}
    (h : s.Finds deps id reads r object) : ¬ s.Stuck deps id reads := by
  obtain ⟨before, after, rfl, hb, hh, hnf⟩ := h
  intro ⟨before', r', after', he, hb', hf⟩
  rcases List.append_eq_append_iff.mp he with ⟨l, rfl, hl⟩ | ⟨l, rfl, hl⟩
  · cases l with
    | nil =>
      cases hl
      exact hnf hf
    | cons x l =>
      cases hl
      exact (hb' r (by simp)).2 object hh
  · cases l with
    | nil =>
      cases hl
      exact hnf hf
    | cons x l =>
      cases hl
      exact (hb r' (by simp)).1 hf

end Scene

/-! ## What is served -/

/-- The response with an object as its body. -/
def objectResponse (status : StatusCode) (headers : Headers) (object : LocalObject) :
    RenderResponse :=
  ⟨status, applyHeaders (headersFromMetadata object.metadata) headers, object.body⟩

/-- A response from an object: the object itself, when no template is rendered. -/
def FromObject (status : StatusCode) (headers : Headers) (params : Option Value)
    (object : LocalObject) (response : RenderResponse) : Prop :=
  params = none → response = objectResponse status headers object

/-- What the missing-object behaviour comes to when it finds no object either. -/
def missingFallback (config : EdgeConfig) (headers : Headers) :
    Outcome Error (Option RenderResponse) :=
  match config.missing.action with
  | .notFound => .ok (some (notFoundText headers))
  | .serve => .ok (config.missing.path.elim (some (notFoundText headers)) fun _ => none)
  | .redirect =>
    match config.missing.status.elim (.ok .found) StatusCode.fromU16 with
    | .ok status =>
      .ok (some ⟨status, applyHeaders (insertHeader? ∅ "location" config.missing.to_) headers, []⟩)
    | .error e => .err e

/-- The status of the missing page. -/
def missingStatus (config : EdgeConfig) : StatusCode :=
  if config.missing.action = .notFound then .notFound else .ok

section
variable (s : Scene) (deps : GatewayDeps) (id : Str)

theorem readObject_single (r : Read) :
    (∃ object, s.Finds deps.toDeps id [r] r object ∧
      s.value (readObject deps id r.2 r.1) = .ok (some object)) ∨
    (s.AllEmpty deps.toDeps id [r] ∧ s.value (readObject deps id r.2 r.1) = .ok none) ∨
    (s.Stuck deps.toDeps id [r] ∧ ∃ e, s.value (readObject deps id r.2 r.1) = .err e) := by
  rcases s.readObject_cases deps id r.2 r.1 with ⟨object, hr, hh, hf⟩ | ⟨hr, hh, hf⟩ | ⟨e, hr, hf⟩
  · exact Or.inl ⟨object, ⟨[], [], rfl, by simp [Scene.AllEmpty], hh, hf⟩, hr⟩
  · refine Or.inr (Or.inl ⟨fun x hx => ?_, hr⟩)
    rw [List.mem_singleton.mp hx]
    exact ⟨hf, hh⟩
  · exact Or.inr (Or.inr ⟨⟨[], r, [], rfl, by simp, hf⟩, e, hr⟩)

theorem serveObject_cases (r : Read) (status : StatusCode) (params : Option Value)
    (headers : Headers) :
    (∃ object response, s.Finds deps.toDeps id [r] r object ∧
      s.value (serveObjectWithOptions deps id r.2 status params headers r.1) = .ok (some response) ∧
      FromObject status headers params object response) ∨
    (s.AllEmpty deps.toDeps id [r] ∧
      s.value (serveObjectWithOptions deps id r.2 status params headers r.1) = .ok none) ∨
    (s.Stuck deps.toDeps id [r] ∧
      ∃ e, s.value (serveObjectWithOptions deps id r.2 status params headers r.1) = .err e) := by
  simp only [serveObjectWithOptions, Scene.value, eval_bind]
  rcases readObject_single s deps id r with ⟨object, hf, hr⟩ | ⟨hf, hr⟩ | ⟨hf, e, hr⟩
  · refine Or.inl ?_
    rw [show eval s.answer (readObject deps id r.2 r.1) = _ from hr]
    cases params with
    | none => exact ⟨object, _, hf, rfl, fun _ => rfl⟩
    | some params =>
      have hrender : ∃ x, s.value (renderTemplate deps id r.2 params) = .ok x := by
        unfold renderTemplate
        split
        · exact ⟨_, rfl⟩
        · simp only [Scene.value, eval_bind]
          rw [show eval s.answer (ask (.originTemplates id)) = _ from s.value_ask rfl,
            Outcome.bind_ok]
          split
          · exact ⟨_, rfl⟩
          · split
            · exact ⟨_, rfl⟩
            · split <;> exact ⟨_, rfl⟩
      obtain ⟨x, hx⟩ := hrender
      simp only [Outcome.bind_ok, eval_bind]
      rw [show eval s.answer (renderTemplate deps id r.2 params) = _ from hx, Outcome.bind_ok]
      have hnone : ∀ response, FromObject status headers (some params) object response :=
        fun _ h => by cases h
      cases x with
      | ok body => exact ⟨object, _, hf, rfl, hnone _⟩
      | error e => cases e <;> exact ⟨object, _, hf, rfl, hnone _⟩
  · refine Or.inr (Or.inl ⟨hf, ?_⟩)
    rw [show eval s.answer (readObject deps id r.2 r.1) = _ from hr]
    rfl
  · refine Or.inr (Or.inr ⟨hf, e, ?_⟩)
    rw [show eval s.answer (readObject deps id r.2 r.1) = _ from hr]
    rfl

theorem serveStatic_cases (config : EdgeConfig) (path : Str) (status : StatusCode)
    (params : Option Value) (headers : Headers) (access : ObjectReadAccess) :
    (∃ r object response, s.Finds deps.toDeps id (staticReads config access path) r object ∧
      s.value (serveStaticPathWithOptions deps id config path status params headers access) =
        .ok (some response) ∧
      FromObject status headers params object response) ∨
    (s.AllEmpty deps.toDeps id (staticReads config access path) ∧
      s.value (serveStaticPathWithOptions deps id config path status params headers access) =
        .ok none) ∨
    (s.Stuck deps.toDeps id (staticReads config access path) ∧
      ∃ e, s.value (serveStaticPathWithOptions deps id config path status params headers access) =
        .err e) := by
  simp only [serveStaticPathWithOptions, Scene.value, eval_bind]
  rw [show staticReads config access path = [(access, path)] ++
    if config.edge.autoRewriteIndex then [(access, autoIndexCandidate path)] else [] from rfl]
  rcases serveObject_cases s deps id (access, path) status params headers with
    ⟨object, response, hf, hr, ho⟩ | ⟨hf, hr⟩ | ⟨hf, e, hr⟩
  · refine Or.inl ⟨_, object, response, Scene.finds_append_left hf, ?_, ho⟩
    rw [show eval s.answer (serveObjectWithOptions deps id path status params headers access) = _
      from hr]
    rfl
  · rw [show eval s.answer (serveObjectWithOptions deps id path status params headers access) = _
      from hr, Outcome.bind_ok]
    by_cases hauto : config.edge.autoRewriteIndex = true
    · simp only [hauto, if_true]
      rcases serveObject_cases s deps id (access, autoIndexCandidate path) status params headers with
        ⟨object, response, hf', hr', ho⟩ | ⟨hf', hr'⟩ | ⟨hf', e, hr'⟩
      · exact Or.inl ⟨_, object, response, Scene.finds_append_right hf hf', hr', ho⟩
      · refine Or.inr (Or.inl ⟨fun x hx => ?_, hr'⟩)
        exact (List.mem_append.mp hx).elim (hf x) (hf' x)
      · exact Or.inr (Or.inr ⟨Scene.stuck_append_right hf hf', e, hr'⟩)
    · simp only [hauto, if_false, Bool.false_eq_true]
      exact Or.inr (Or.inl ⟨by simpa using hf, rfl⟩)
  · refine Or.inr (Or.inr ⟨Scene.stuck_append_left hf, e, ?_⟩)
    rw [show eval s.answer (serveObjectWithOptions deps id path status params headers access) = _
      from hr]
    rfl

theorem handleMissing_cases (config : EdgeConfig) (headers : Headers) :
    (∃ r object, s.Finds deps.toDeps id (missingReads config) r object ∧
      s.value (handleMissing deps id config headers) =
        .ok (some (objectResponse (missingStatus config) headers object))) ∨
    (s.AllEmpty deps.toDeps id (missingReads config) ∧
      s.value (handleMissing deps id config headers) = missingFallback config headers) ∨
    (s.Stuck deps.toDeps id (missingReads config) ∧
      ∃ e, s.value (handleMissing deps id config headers) = .err e) := by
  unfold handleMissing missingReads missingFallback missingStatus
  cases haction : config.missing.action with
  | notFound =>
    cases hpage : config.missing.page with
    | none => exact Or.inr (Or.inl ⟨by simp [Scene.AllEmpty], rfl⟩)
    | some page =>
      simp only [Scene.value, eval_bind, Option.map_some, Option.toList_some]
      rcases serveObject_cases s deps id (.pub, page) .notFound none headers with
        ⟨object, response, hf, hr, ho⟩ | ⟨hf, hr⟩ | ⟨hf, e, hr⟩
      · refine Or.inl ⟨_, object, hf, ?_⟩
        rw [show eval s.answer (serveObject deps id page .notFound none headers) = _ from hr,
          ho rfl]
        rfl
      · refine Or.inr (Or.inl ⟨hf, ?_⟩)
        rw [show eval s.answer (serveObject deps id page .notFound none headers) = _ from hr]
        rfl
      · refine Or.inr (Or.inr ⟨hf, e, ?_⟩)
        rw [show eval s.answer (serveObject deps id page .notFound none headers) = _ from hr]
        rfl
  | serve =>
    cases hpath : config.missing.path with
    | none => exact Or.inr (Or.inl ⟨by simp [Scene.AllEmpty], rfl⟩)
    | some path =>
      rcases serveObject_cases s deps id (.pub, path) .ok none headers with
        ⟨object, response, hf, hr, ho⟩ | ⟨hf, hr⟩ | ⟨hf, e, hr⟩
      · obtain rfl := ho rfl
        exact Or.inl ⟨_, object, hf, hr⟩
      · exact Or.inr (Or.inl ⟨hf, hr⟩)
      · exact Or.inr (Or.inr ⟨hf, e, hr⟩)
  | redirect =>
    refine Or.inr (Or.inl ⟨by simp [Scene.AllEmpty], ?_⟩)
    simp only [Scene.value, eval_bind, eval_ofExcept]
    cases config.missing.status.elim (.ok .found) StatusCode.fromU16 <;> rfl

/-- The program returns exactly when the mirror is not stuck on the paths, and then
as `Q` says. -/
def Answers {α : Type} (reads : List Read) (Q : α → Prop) (m : Handling α) : Prop :=
  (¬ s.Stuck deps.toDeps id reads ∧ ∃ a, s.value m = .ok a ∧ Q a) ∨
    (s.Stuck deps.toDeps id reads ∧ ∃ e, s.value m = .err e)

variable {s deps id}

theorem Answers.pure {α : Type} {Q : α → Prop} {a : α} (ha : Q a) :
    Answers s deps id [] Q (pure a : Handling α) :=
  Or.inl ⟨Scene.not_stuck_of_allEmpty (by simp [Scene.AllEmpty]), a, rfl, ha⟩

theorem Answers.congr {α : Type} {Q : α → Prop} {reads : List Read} {m m' : Handling α}
    (h : Answers s deps id reads Q m) (hv : s.value m' = s.value m) :
    Answers s deps id reads Q m' := by
  unfold Answers at *
  rwa [hv]

/-- What follows an answer of a hook. -/
theorem Answers.bind {α β : Type} {Q : α → Prop} {Q' : β → Prop} {reads : List Read}
    {m : Handling α} {f : α → Handling β} (h : Answers s deps id reads Q m)
    (hf : ∀ a, Q a → ∃ b, f a = Pure.pure b ∧ Q' b) :
    Answers s deps id reads Q' (m >>= f) := by
  unfold Answers
  rw [Scene.value, eval_bind]
  rcases h with ⟨hs, a, hv, ha⟩ | ⟨hs, e, hv⟩
  · obtain ⟨b, hb, hb'⟩ := hf a ha
    refine Or.inl ⟨hs, b, ?_, hb'⟩
    rw [show eval s.answer m = _ from hv, Outcome.bind_ok, hb]
    rfl
  · refine Or.inr ⟨hs, e, ?_⟩
    rw [show eval s.answer m = _ from hv]
    rfl

theorem missingFallback_ok {config : EdgeConfig}
    (hvalid : validateEdgeConfig deps.toDeps config = .ok ()) (headers : Headers) :
    ∃ x, missingFallback config headers = .ok x := by
  unfold missingFallback
  split
  · exact ⟨_, rfl⟩
  · exact ⟨_, rfl⟩
  · rename_i haction
    obtain ⟨status, hs, hstatus⟩ := missing_status_valid hvalid haction
    rw [hs, Option.elim_some, StatusCode.fromU16_ok hstatus]
    exact ⟨_, rfl⟩

theorem handleMissing_answers {config : EdgeConfig}
    (hvalid : validateEdgeConfig deps.toDeps config = .ok ()) (headers : Headers) :
    Answers s deps id (missingReads config) (fun _ => True)
      (handleMissing deps id config headers) := by
  rcases handleMissing_cases s deps id config headers with ⟨r, object, hf, hr⟩ | ⟨hf, hr⟩ | ⟨hf, h⟩
  · exact Or.inl ⟨Scene.not_stuck_of_finds hf, _, hr, trivial⟩
  · obtain ⟨x, hx⟩ := missingFallback_ok hvalid headers
    exact Or.inl ⟨Scene.not_stuck_of_allEmpty hf, x, hr.trans hx, trivial⟩
  · exact Or.inr ⟨hf, h⟩

/-- An answer from a path, or else what `m none` says. -/
theorem static_answers {config : EdgeConfig} {path : Str} {status : StatusCode}
    {params : Option Value} {headers : Headers} {access : ObjectReadAccess} {α : Type}
    {Q : α → Prop} {rest : List Read} {m : Option RenderResponse → Handling α}
    (hsome : ∀ r, ∃ a, m (some r) = pure a ∧ Q a) (hnone : Answers s deps id rest Q (m none)) :
    Answers s deps id (staticReads config access path ++ rest) Q
      (serveStaticPathWithOptions deps id config path status params headers access >>= m) := by
  unfold Answers
  rw [Scene.value, eval_bind]
  rcases serveStatic_cases s deps id config path status params headers access with
    ⟨r, object, response, hf, hr, -⟩ | ⟨hf, hr⟩ | ⟨hf, e, hr⟩
  · obtain ⟨a, ha, hq⟩ := hsome response
    refine Or.inl ⟨Scene.not_stuck_of_finds (Scene.finds_append_left hf), a, ?_, hq⟩
    rw [show eval s.answer (serveStaticPathWithOptions deps id config path status params headers
      access) = _ from hr, Outcome.bind_ok, ha]
    rfl
  · rw [show eval s.answer (serveStaticPathWithOptions deps id config path status params headers
      access) = _ from hr, Outcome.bind_ok]
    rcases hnone with ⟨hs, hx⟩ | ⟨hs, hx⟩
    · exact Or.inl ⟨fun hstuck => hs (Scene.stuck_of_append hf hstuck), hx⟩
    · exact Or.inr ⟨Scene.stuck_append_right hf hs, hx⟩
  · refine Or.inr ⟨Scene.stuck_append_left hf, e, ?_⟩
    rw [show eval s.answer (serveStaticPathWithOptions deps id config path status params headers
      access) = _ from hr]
    rfl

theorem edgeOutcome_answers {config : EdgeConfig}
    (hvalid : validateEdgeConfig deps.toDeps config = .ok ()) (request : RenderRequest)
    (headers : Headers) (state : EdgeChainState) {outcome : EdgePayloadOutcome}
    (hne : outcome ≠ .continue_) :
    Answers s deps id (outcomeReads config request.path outcome) (fun r => r.isSome = true)
      (edgeOutcome deps request id config headers state outcome) := by
  cases outcome with
  | continue_ => exact absurd rfl hne
  | respondDirect status body => exact Answers.pure rfl
  | serveFile status filePath params =>
    exact static_answers (fun r => ⟨_, rfl, rfl⟩)
      ((handleMissing_answers hvalid _).bind fun a _ => ⟨_, rfl, rfl⟩)
  | renderTarget status params =>
    have h : Answers s deps id (targetReads config request.path ++ []) (fun r => r.isSome = true)
        (edgeOutcome deps request id config headers state (.renderTarget status params)) :=
      static_answers (fun r => ⟨_, rfl, rfl⟩) (Answers.pure rfl)
    rwa [List.append_nil] at h

theorem handleStatic_answers {config : EdgeConfig}
    (hvalid : validateEdgeConfig deps.toDeps config = .ok ()) (request : RenderRequest)
    (headers : Headers) :
    Answers s deps id (restReads config request) (fun _ => True)
      (handleStatic deps request id config headers) := by
  unfold restReads handleStatic
  cases hredirect : findRedirect config request.path request.query with
  | some redirect =>
    obtain ⟨rule, hrule, hstatus⟩ := findRedirect_status hredirect
    simp only [Option.isSome_some, if_true, hstatus,
      StatusCode.fromU16_ok (redirect_status_valid hvalid hrule)]
    exact Answers.pure trivial
  | none =>
    exact static_answers (fun r => ⟨_, rfl, trivial⟩)
      ((handleMissing_answers hvalid _).bind fun a _ => ⟨_, rfl, trivial⟩)

section chain
variable (request : RenderRequest) (hookRequest : EdgeHookRequest) (config : EdgeConfig)
  (headers : Headers) (i : Nat) (state : EdgeChainState) (hook : EdgeHookConfig)
  (edges : List EdgeHookConfig)

theorem edgeChain_error {error : EdgeHttpError}
    (hreply : s.hooks i hook hookRequest = .error error) :
    s.value (edgeChain deps request id hookRequest config headers i state (hook :: edges)) =
      .ok (some (finalizeResponse request (emptyWith (edgeFailureStatus error) headers)), ∅) := by
  rw [edgeChain, Scene.value, eval_bind,
    show eval s.answer (ask (.hook i hook hookRequest)) = .ok (s.hooks i hook hookRequest) from rfl,
    hreply]
  rfl

theorem edgeChain_invalid {reply : EdgeHttpResponse} {error : Error}
    (hreply : s.hooks i hook hookRequest = .ok reply)
    (hpayload : payloadOutcome reply.status reply.payload = .error error) :
    s.value (edgeChain deps request id hookRequest config headers i state (hook :: edges)) =
      .ok (some (finalizeResponse request (emptyWith .badGateway headers)), ∅) := by
  rw [edgeChain, Scene.value, eval_bind,
    show eval s.answer (ask (.hook i hook hookRequest)) = .ok (s.hooks i hook hookRequest) from rfl,
    hreply]
  simp only [Outcome.bind_ok, applyEdgePayload, hpayload]
  rfl

theorem edgeChain_outcome {reply : EdgeHttpResponse} {outcome : EdgePayloadOutcome}
    (hreply : s.hooks i hook hookRequest = .ok reply)
    (hpayload : payloadOutcome reply.status reply.payload = .ok outcome) :
    ∃ state', s.value (edgeChain deps request id hookRequest config headers i state
        (hook :: edges)) =
      (s.value (edgeOutcome deps request id config headers state' outcome)).bind fun response =>
        response.elim
          (s.value (edgeChain deps request id hookRequest config headers (i + 1) state' edges))
          fun response => .ok (some response, ∅) := by
  refine ⟨⟨extendHeaders state.headers reply.payload.headers⟩, ?_⟩
  rw [edgeChain, Scene.value, eval_bind,
    show eval s.answer (ask (.hook i hook hookRequest)) = .ok (s.hooks i hook hookRequest) from rfl,
    hreply]
  simp only [Outcome.bind_ok, applyEdgePayload, hpayload, bind, Except.bind]
  refine (eval_bind _ _ _).trans ?_
  congr 1
  funext response
  cases response <;> rfl

end chain

/-- The chain answers, or goes on to what comes after it. -/
theorem edgeChain_answers {config : EdgeConfig}
    (hvalid : validateEdgeConfig deps.toDeps config = .ok ()) (request : RenderRequest)
    (hookRequest : EdgeHookRequest) (headers : Headers)
    {m : Option RenderResponse × Headers → Handling RenderResponse} {rest : List Read}
    (hsome : ∀ r h, m (some r, h) = pure r)
    (hnone : ∀ h, Answers s deps id rest (fun _ => True) (m (none, h)))
    (edges : List EdgeHookConfig) : ∀ i state,
    Answers s deps id (chainReads config s.hooks hookRequest request.path rest i edges)
      (fun _ => True)
      (edgeChain deps request id hookRequest config headers i state edges >>= m) := by
  induction edges with
  | nil => exact fun i state => hnone _
  | cons hook edges ih =>
    intro i state
    have hbind : s.value (edgeChain deps request id hookRequest config headers i state
          (hook :: edges) >>= m) =
        (s.value (edgeChain deps request id hookRequest config headers i state
          (hook :: edges))).bind fun a => s.value (m a) := eval_bind _ _ _
    have hdirect : ∀ r h, s.value (edgeChain deps request id hookRequest config headers i state
          (hook :: edges)) = .ok (some r, h) →
        Answers s deps id [] (fun _ => True)
          (edgeChain deps request id hookRequest config headers i state (hook :: edges) >>= m) := by
      intro r h hv
      refine (Answers.pure (a := r) trivial).congr ?_
      rw [hbind, hv, Outcome.bind_ok, hsome]
    cases hreply : s.hooks i hook hookRequest with
    | error error =>
      simp only [chainReads, hreply]
      exact hdirect _ _ (edgeChain_error request hookRequest config headers i state hook edges hreply)
    | ok reply =>
      cases hpayload : payloadOutcome reply.status reply.payload with
      | error error =>
        simp only [chainReads, hreply, hpayload]
        exact hdirect _ _
          (edgeChain_invalid request hookRequest config headers i state hook edges hreply hpayload)
      | ok outcome =>
        obtain ⟨state', hv⟩ := @edgeChain_outcome s deps id request hookRequest config headers i state
          hook edges reply outcome hreply hpayload
        by_cases hne : outcome = .continue_
        · subst hne
          simp only [chainReads, hreply, hpayload]
          refine (ih (i + 1) state').congr ?_
          rw [hbind, hv]
          exact (eval_bind _ _ _).symm
        · have hreads : chainReads config s.hooks hookRequest request.path rest i (hook :: edges) =
              outcomeReads config request.path outcome := by
            simp only [chainReads, hreply, hpayload]
          rw [hreads]
          rcases @edgeOutcome_answers s _ id _ hvalid request headers state' _ hne with
            ⟨hs, r, hr, hsome'⟩ | ⟨hs, e, hr⟩
          · obtain ⟨r, rfl⟩ := Option.isSome_iff_exists.mp hsome'
            refine Or.inl ⟨hs, r, ?_, trivial⟩
            rw [hbind, hv, hr]
            simp only [Outcome.bind_ok, Option.elim_some, hsome]
            rfl
          · refine Or.inr ⟨hs, e, ?_⟩
            rw [hbind, hv, hr]
            rfl

/-- A chain that goes on reads what comes after it. -/
theorem chainReads_of_none {config : EdgeConfig}
    (hvalid : validateEdgeConfig deps.toDeps config = .ok ()) {request : RenderRequest}
    {hookRequest : EdgeHookRequest} {headers edgeHeaders : Headers} {rest : List Read}
    {edges : List EdgeHookConfig} : ∀ {i state},
    s.value (edgeChain deps request id hookRequest config headers i state edges) =
      .ok (none, edgeHeaders) →
    chainReads config s.hooks hookRequest request.path rest i edges = rest := by
  induction edges with
  | nil => exact fun _ => rfl
  | cons hook edges ih =>
    intro i state hnone
    cases hreply : s.hooks i hook hookRequest with
    | error error =>
      rw [edgeChain_error request hookRequest config headers i state hook edges hreply] at hnone
      cases hnone
    | ok reply =>
      cases hpayload : payloadOutcome reply.status reply.payload with
      | error error =>
        rw [edgeChain_invalid request hookRequest config headers i state hook edges hreply
          hpayload] at hnone
        cases hnone
      | ok outcome =>
        obtain ⟨state', hv⟩ := @edgeChain_outcome s deps id request hookRequest config headers i state
          hook edges reply outcome hreply hpayload
        rw [hv] at hnone
        by_cases hne : outcome = .continue_
        · subst hne
          simp only [chainReads, hreply, hpayload]
          exact ih hnone
        · rcases @edgeOutcome_answers s _ id _ hvalid request headers state' _ hne with
            ⟨-, r, hr, hsome⟩ | ⟨-, e, hr⟩
          · obtain ⟨r, rfl⟩ := Option.isSome_iff_exists.mp hsome
            rw [hr] at hnone
            cases hnone
          · rw [hr] at hnone
            cases hnone

/-! ## Whole requests -/

section
variable {service : RenderGatewayService} {request : RenderRequest} {resolved : ResolvedHost}
  {config : EdgeConfig}

theorem value_handle (hresolve : service.resolver.resolve request.host = some resolved)
    (hmethod : request.method = .get ∨ request.method = .head) :
    s.value (service.handle deps request) = s.value (service.serve deps request resolved
      (service.corsHeaders deps resolved.originId request)) := by
  rcases hmethod with h | h <;> simp only [RenderGatewayService.handle, hresolve, h]

theorem value_serve (hstored : s.edgeConfigs resolved.originId = some (.valid config))
    (headers : Headers) : s.value (service.serve deps request resolved headers) =
      (s.value (service.handleEdgeChain deps request resolved config headers)).bind fun result =>
        s.value (afterEdgeChain deps request resolved.originId config headers result) := by
  rw [RenderGatewayService.serve, Scene.value, eval_bind,
    show eval s.answer (ask (.edgeConfig resolved.originId)) =
      .ok (s.edgeConfigs resolved.originId) from rfl, hstored]
  exact eval_bind _ _ _

theorem value_handleStatic (hredirect : findRedirect config request.path request.query = none)
    (headers : Headers) : s.value (handleStatic deps request id config headers) =
      (s.value (serveStaticPath deps id config (resolveRequestTarget config request.path) .ok none
        headers)).bind fun response => response.elim
          ((s.value (handleMissing deps id config headers)).bind fun response =>
            .ok (finalizeResponse request (response.getD (notFoundText headers))))
          fun response => .ok (finalizeResponse request response) := by
  rw [handleStatic, hredirect]
  refine (eval_bind _ _ _).trans ?_
  congr 1
  funext response
  cases response with
  | some response => rfl
  | none => exact eval_bind _ _ _

end

/-- A request with a host is answered exactly when the mirror is not stuck on what it
reads. -/
theorem handle_answers {service : RenderGatewayService} {request : RenderRequest}
    {resolved : ResolvedHost} (hresolve : service.resolver.resolve request.host = some resolved)
    (hvalid : ∀ config, s.edgeConfigs resolved.originId = some (.valid config) →
      validateEdgeConfig deps.toDeps config = .ok ()) :
    Answers s deps resolved.originId (requestReads deps service s request) (fun _ => True)
      (service.handle deps request) := by
  unfold requestReads RenderGatewayService.handle
  simp only [hresolve]
  have hserve : ∀ headers, Answers s deps resolved.originId
      (serveReads deps service s request resolved) (fun _ => True)
      (service.serve deps request resolved headers) := by
    intro headers
    unfold serveReads
    have hask : ∀ {α : Type} (f : Option EdgeConfigEntry → Handling α),
        s.value (ask (.edgeConfig resolved.originId) >>= f) =
          s.value (f (s.edgeConfigs resolved.originId)) := fun f => eval_bind _ _ _
    cases hentry : s.edgeConfigs resolved.originId with
    | none =>
      refine (Answers.pure (a := emptyWith .internalServerError headers) trivial).congr
        ((hask _).trans ?_)
      rw [hentry]
    | some entry =>
      cases entry with
      | invalid error =>
        refine (Answers.pure (a := emptyWith .internalServerError headers) trivial).congr
          ((hask _).trans ?_)
        rw [hentry]
      | valid config =>
        have hv := hvalid config hentry
        have hchain := @edgeChain_answers s _ resolved.originId _ hv request
          (edgeHookRequest deps request resolved (service.bucketForOrigin resolved.originId)
            service.originEdgeContexts[resolved.originId]?) headers
          (afterEdgeChain deps request resolved.originId config headers) _
          (fun _ _ => rfl) (fun h => handleStatic_answers hv request _) config.edges 0 ⟨∅⟩
        refine hchain.congr ((hask _).trans ?_)
        rw [hentry]
        rfl
  cases hmethod : request.method with
  | get => simpa [hmethod] using hserve _
  | head => simpa [hmethod] using hserve _
  | options => simpa [hmethod] using Answers.pure trivial
  | other name => simpa [hmethod] using Answers.pure trivial

/-- Where no object is, reading is stuck or says so. -/
theorem allEmpty_of_no_object {reads rest : List Read}
    (h : ∀ r ∈ reads, ∀ object, ¬ s.Holds deps.toDeps id r.1 r.2 object)
    (hs : ¬ s.Stuck deps.toDeps id (reads ++ rest)) : s.AllEmpty deps.toDeps id reads := by
  induction reads with
  | nil => simp [Scene.AllEmpty]
  | cons r reads ih =>
    have hr : s.Empty deps.toDeps id r :=
      ⟨fun hf => hs ⟨[], r, reads ++ rest, rfl, by simp, hf⟩, h r List.mem_cons_self⟩
    have hreads := ih (fun x hx => h x (List.mem_cons_of_mem _ hx)) fun hstuck =>
      hs (Scene.stuck_append_right (l := [r]) (by simpa [Scene.AllEmpty] using hr) hstuck)
    intro x hx
    rcases List.mem_cons.mp hx with rfl | hx
    · exact hr
    · exact hreads x hx

end

end RenderMesh.Gateway
