import RenderMesh.Gateway.Chain

/-!
# Requests without an object

`lookupReads` are the paths at which a request looks for its object, on each of the routes that
lead there: after hooks that go on, at a hook's `file_path`, at the target of a hook's `params`.
`ReadsNothing` is a reading of them that finds none, step by step; on a healthy disk that is a
matter of the tree (`readsNothing_iff`).

`run_handleMissing` says what the missing-object behaviour then comes to, and
`run_continued_missing` and `run_serveFile_missing` that two of the routes end in it, with the
headers of the hooks and of CORS.
-/
namespace RenderMesh.Gateway

open RenderMesh.Core RenderMesh.Mirror RenderMesh.Server RenderMesh.Domains RenderMesh.Refresh

/-- Where a request looks for its object, by the end of its chain. -/
def lookupReads (config : EdgeConfig) (request : RenderRequest) : ChainEnd → Option (List Read)
  | .continued _ =>
    if (findRedirect config request.path request.query).isSome then none
    else some (targetReads config request.path)
  | .answered (.serveFile _ filePath _) _ => some (staticReads config .internal filePath)
  | .answered (.renderTarget _ _) _ => some (targetReads config request.path)
  | _ => none

/-- Reading the paths one after another finds nothing, and ends in `w'`. -/
def ReadsNothing (deps : GatewayDeps) (env : Env) (hooks : Hooks) (originId : Str) :
    List Read → World → World → Prop
  | [], w, w' => w = w'
  | r :: reads, w, w' => ∃ w1,
    run (gatewayStep deps.toDeps env hooks) (readObject deps originId r.2 r.1) w = (.ok none, w1) ∧
      ReadsNothing deps env hooks originId reads w1 w'

section
variable {deps : GatewayDeps} {env : Env} {hooks : Hooks} {originId path : Str} {status : StatusCode}
  {params : Option Value} {headers : Headers} {access : ObjectReadAccess}

/-- What is served of an object is a response. -/
theorem serveObject_none {w w' : World} :
    run (gatewayStep deps.toDeps env hooks)
        (serveObjectWithOptions deps originId path status params headers access) w = (.ok none, w') ↔
      run (gatewayStep deps.toDeps env hooks) (readObject deps originId path access) w =
        (.ok none, w') := by
  rw [serveObjectWithOptions, run_bind]
  cases hread : run (gatewayStep deps.toDeps env hooks) (readObject deps originId path access) w with
  | mk out w1 =>
    cases out with
    | err e => simp
    | dropped => simp
    | ok object =>
      cases object with
      | none => simp
      | some object =>
        simp only [Prod.mk.injEq, Outcome.ok.injEq, reduceCtorEq, false_and, iff_false]
        cases params with
        | none => simp
        | some params =>
          intro h
          rw [run_bind] at h
          cases hr : run (gatewayStep deps.toDeps env hooks)
              (renderTemplate deps originId path params) w1 with
          | mk out w2 =>
            rw [hr] at h
            cases out with
            | err e => cases h
            | dropped => cases h
            | ok rendered =>
              cases rendered with
              | ok body => cases h
              | error e => cases e <;> cases h

theorem serveStatic_none {config : EdgeConfig} {w w' : World} :
    run (gatewayStep deps.toDeps env hooks) (serveStaticPathWithOptions deps originId config path
        status params headers access) w = (.ok none, w') ↔
      ReadsNothing deps env hooks originId (staticReads config access path) w w' := by
  rw [serveStaticPathWithOptions, run_bind, staticReads, ReadsNothing]
  cases hserve : run (gatewayStep deps.toDeps env hooks)
      (serveObjectWithOptions deps originId path status params headers access) w with
  | mk out w1 =>
    have hfirst : ∀ w', run (gatewayStep deps.toDeps env hooks) (readObject deps originId path access) w =
        (.ok none, w') ↔ out = .ok none ∧ w1 = w' := by
      intro w'
      rw [← @serveObject_none _ _ _ _ _ status params headers, hserve]
      exact Prod.mk_inj
    simp only [hfirst]
    cases out with
    | err e => simp
    | dropped => simp
    | ok response =>
      cases response with
      | some response => simp
      | none =>
        by_cases hauto : config.edge.autoRewriteIndex = true
        · simp [hauto, ReadsNothing, serveObject_none]
        · simp [hauto, ReadsNothing]

/-- An object that is served without params is the body of the response. -/
theorem serveObject_run (w : World) :
    run (gatewayStep deps.toDeps env hooks)
        (serveObjectWithOptions deps originId path status none headers access) w =
      ((run (gatewayStep deps.toDeps env hooks) (readObject deps originId path access) w).1.map
        (Option.map (objectResponse status headers)),
        (run (gatewayStep deps.toDeps env hooks) (readObject deps originId path access) w).2) := by
  rw [serveObjectWithOptions, run_bind]
  rcases run (gatewayStep deps.toDeps env hooks) (readObject deps originId path access) w with
    ⟨object | e | _, w1⟩
  · cases object <;> rfl
  · rfl
  · rfl

end

/-! ## Reading a mirror at rest -/

section
variable {deps : GatewayDeps} {env : Env} {hooks : Hooks} {originId : Str}

/-- On a healthy disk a read is its value in the scene, and leaves it. -/
theorem run_readObject (henv : NoFaults env) (access : ObjectReadAccess) (path : Str) (w : World) :
    ∃ w', run (gatewayStep deps.toDeps env hooks) (readObject deps originId path access) w =
        ((sceneOf w env hooks).value (readObject deps originId path access), w') ∧
      sceneOf w' env hooks = sceneOf w env hooks :=
  run_scene henv ((readObject_looks deps originId path access).mono fun _ ho => ho.looks) w

theorem readsNothing_iff (henv : NoFaults env) {reads : List Read} {w : World} :
    (∃ w', ReadsNothing deps env hooks originId reads w w') ↔
      (sceneOf w env hooks).AllEmpty deps.toDeps originId reads := by
  induction reads generalizing w with
  | nil => exact iff_of_true ⟨w, rfl⟩ (by simp [Scene.AllEmpty])
  | cons r reads ih =>
    obtain ⟨w1, hrun, hscene⟩ := @run_readObject deps env hooks originId henv r.1 r.2 w
    have hstep : (∃ w', ReadsNothing deps env hooks originId (r :: reads) w w') ↔
        (sceneOf w env hooks).value (readObject deps originId r.2 r.1) = .ok none ∧
          (sceneOf w env hooks).AllEmpty deps.toDeps originId reads := by
      rw [← hscene, ← ih, hscene]
      constructor
      · rintro ⟨w', w2, hr, hrest⟩
        obtain ⟨hvalue, rfl⟩ := Prod.mk.inj (hrun.symm.trans hr)
        exact ⟨hvalue, w', hrest⟩
      · rintro ⟨hvalue, w', hrest⟩
        exact ⟨w', w1, by rw [hrun, hvalue], hrest⟩
    rw [hstep, Scene.AllEmpty, Scene.AllEmpty, List.forall_mem_cons]
    refine and_congr_left fun _ => ?_
    rcases (sceneOf w env hooks).readObject_cases deps originId r.2 r.1 with
      ⟨object, hr, hh, -⟩ | ⟨hr, hno, hf⟩ | ⟨e, hr, hf⟩
    · exact iff_of_false (by rw [hr]; simp) fun h => h.2 object hh
    · exact iff_of_true hr ⟨hf, hno⟩
    · exact iff_of_false (by rw [hr]; simp) fun h => h.1 hf

/-- A path holds one object. -/
theorem holds_unique {s : Scene} {access : ObjectReadAccess} {path : Str} {object object' : LocalObject}
    (h : s.Holds deps.toDeps originId access path object)
    (h' : s.Holds deps.toDeps originId access path object') : object = object' := by
  obtain ⟨-, -, n, m, hn, -, hm, hbody, hmeta⟩ := h
  obtain ⟨-, -, n', m', hn', -, hm', hbody', hmeta'⟩ := h'
  obtain rfl := Except.ok.inj (hn.symm.trans hn')
  obtain rfl := Except.ok.inj (hm.symm.trans hm')
  have hb := hbody.symm.trans hbody'
  simp only [Option.some.injEq, Node.file.injEq] at hb
  have hmetadata := hmeta.unique hmeta'
  cases object
  cases object'
  simp only at hb hmetadata
  rw [hb, hmetadata]

/-- Reading nothing leaves the scene. -/
theorem readsNothing_scene (henv : NoFaults env) {reads : List Read} {w w' : World}
    (h : ReadsNothing deps env hooks originId reads w w') :
    sceneOf w' env hooks = sceneOf w env hooks := by
  induction reads generalizing w with
  | nil => rw [show w = w' from h]
  | cons r reads ih =>
    obtain ⟨w1, hr, hrest⟩ := h
    obtain ⟨w2, hrun, hscene⟩ := @run_readObject deps env hooks originId henv r.1 r.2 w
    obtain rfl := (Prod.mk.inj (hrun.symm.trans hr)).2
    exact (ih hrest).trans hscene

end

/-! ## The missing-object behaviour -/

section
variable {deps : GatewayDeps} {env : Env} {hooks : Hooks} {originId : Str}

/-- The missing page or path, if there is one, and the response of it. -/
theorem run_handleMissing (config : EdgeConfig) (headers : Headers) (w : World) :
    (config.missing.action = .redirect ∧
      run (gatewayStep deps.toDeps env hooks) (handleMissing deps originId config headers) w =
        match config.missing.status.elim (.ok .found) StatusCode.fromU16 with
        | .ok status => (.ok (some ⟨status, applyHeaders (insertHeader? ∅ "location"
            config.missing.to_) headers, []⟩), w)
        | .error e => (.err e, w)) ∨
    (config.missing.action ≠ .redirect ∧ missingReads config = [] ∧
      run (gatewayStep deps.toDeps env hooks) (handleMissing deps originId config headers) w =
        (.ok (some (notFoundText headers)), w)) ∨
    ∃ r, config.missing.action ≠ .redirect ∧ missingReads config = [r] ∧
      run (gatewayStep deps.toDeps env hooks) (handleMissing deps originId config headers) w =
        ((run (gatewayStep deps.toDeps env hooks) (readObject deps originId r.2 r.1) w).1.map
          fun object => (object.map (objectResponse (missingStatus config) headers)).or
            (if config.missing.action = .notFound then some (notFoundText headers) else none),
          (run (gatewayStep deps.toDeps env hooks) (readObject deps originId r.2 r.1) w).2) := by
  unfold handleMissing missingReads missingStatus
  cases haction : config.missing.action with
  | notFound =>
    cases config.missing.page with
    | none => exact Or.inr (Or.inl ⟨by simp, rfl, rfl⟩)
    | some page =>
      refine Or.inr (Or.inr ⟨(.pub, page), by simp, rfl, ?_⟩)
      simp only
      rw [run_bind, serveObject, serveObject_run]
      rcases run (gatewayStep deps.toDeps env hooks) (readObject deps originId page .pub) w with
        ⟨object | e | _, w1⟩
      · cases object <;> rfl
      · rfl
      · rfl
  | serve =>
    cases config.missing.path with
    | none => exact Or.inr (Or.inl ⟨by simp, rfl, rfl⟩)
    | some path =>
      refine Or.inr (Or.inr ⟨(.pub, path), by simp, rfl, ?_⟩)
      simp only
      rw [serveObject, serveObject_run]
      rcases run (gatewayStep deps.toDeps env hooks) (readObject deps originId path .pub) w with
        ⟨object | e | _, w1⟩
      · cases object <;> rfl
      · rfl
      · rfl
  | redirect =>
    refine Or.inl ⟨rfl, ?_⟩
    simp only
    rw [run_bind, run_ofExcept]
    cases config.missing.status.elim (.ok .found) StatusCode.fromU16 <;> rfl

variable (deps) in
/-- The missing-object behaviour as the answer to a request. -/
def missingAnswer (request : RenderRequest) (originId : Str) (config : EdgeConfig)
    (headers : Headers) : Handling RenderResponse := do
  let response ← handleMissing deps originId config headers
  pure (finalizeResponse request (response.getD (notFoundText headers)))

section
variable {request : RenderRequest} {config : EdgeConfig} {cors : Headers} {state : EdgeChainState}
  {w w' : World}

/-- After hooks that go on. -/
theorem run_continued_missing {reads : List Read}
    (hreads : lookupReads config request (.continued state) = some reads)
    (hnothing : ReadsNothing deps env hooks originId reads w w') :
    run (gatewayStep deps.toDeps env hooks)
        (requestAnswer deps request originId config cors (.continued state)) w =
      run (gatewayStep deps.toDeps env hooks) (missingAnswer deps request originId config
        (combinedResponseHeaders (filteredHeaders state.headers) cors)) w' := by
  unfold lookupReads at hreads
  rw [requestAnswer, handleStatic]
  cases hredirect : findRedirect config request.path request.query with
  | some redirect =>
    rw [hredirect] at hreads
    cases hreads
  | none =>
    rw [hredirect] at hreads
    cases hreads
    simp only
    rw [run_bind, serveStaticPath, serveStatic_none.mpr hnothing]
    rfl

/-- At a hook's `file_path`. -/
theorem run_serveFile_missing {status : StatusCode} {filePath : Str} {params : Option Value}
    (hnothing : ReadsNothing deps env hooks originId (staticReads config .internal filePath) w w') :
    run (gatewayStep deps.toDeps env hooks) (requestAnswer deps request originId config cors
        (.answered (.serveFile status filePath params) state)) w =
      run (gatewayStep deps.toDeps env hooks) (missingAnswer deps request originId config
        (combinedResponseHeaders (filteredHeaders state.headers) cors)) w' := by
  rw [requestAnswer, run_bind, edgeOutcome, run_bind, serveStatic_none.mpr hnothing]
  simp only
  rw [missingAnswer, run_bind, run_bind]
  rcases run (gatewayStep deps.toDeps env hooks) (handleMissing deps originId config
    (combinedResponseHeaders (filteredHeaders state.headers) cors)) w' with ⟨r | e | _, w1⟩ <;> rfl

end

end

end RenderMesh.Gateway
