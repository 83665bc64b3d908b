import RenderMesh.Gateway.Missing
import RenderMesh.Gateway.SafeHeaders

/-!
# Params for a target that is missing

Behaviour (`src/src/services/render_gateway.rs:470-500`): where a hook gives `params` alone and
the target of the request has no object, the answer is the plain "not found" with the CORS
headers. The configured missing-object behaviour and the headers of the hooks are left out.

Documented: `missing` "controls what happens when no object can be served"
(`docs/edge-config.md`); the branch for a hook's `file_path`, just above, calls
`handle_missing` with the combined headers.

Counterexample: the missing action of the origin is a redirect and a hook answers with
`params`; `GET /a` of an empty mirror is a 404 and no redirect (`plain_not_found`).

Condition: `uniform_iff`. The hooks do not end at `params` alone for a target at which the mirror
has nothing, or the missing behaviour is the plain answer (`PlainMissing`).
-/
namespace RenderMesh.Bugs.ParamsAlone

open RenderMesh.Core RenderMesh.Mirror RenderMesh.Server RenderMesh.Domains RenderMesh.Gateway
open RenderMesh.Refresh

/-- The responses are the same: the headers under every name. -/
structure SameResponse (response response' : RenderResponse) : Prop where
  status : response.status = response'.status
  headers : ∀ n : Str, response.headers[n]? = response'.headers[n]?
  body : response.body = response'.body

section
variable (deps : GatewayDeps) (env : Env) (hooks : Hooks)

/-- The requester is given the same: a response, or an error. -/
inductive SameOutcome : Outcome Error RenderResponse → Outcome Error RenderResponse → Prop
  | ok {response response' : RenderResponse} (h : SameResponse response response') :
      SameOutcome (.ok response) (.ok response')
  | err {e e' : Error} : SameOutcome (.err e) (.err e')

end

/-- The missing behaviour has the plain answer too: it is no redirect, the mirror has nothing where
it looks and the hooks give no header that shows; or its page looks like the plain answer. -/
def PlainMissing (deps : Deps) (s : Scene) (originId : Str) (config : EdgeConfig)
    (request : RenderRequest) (cors headers : Headers) : Prop :=
  (config.missing.action ≠ .redirect ∧ s.AllEmpty deps originId (missingReads config) ∧
    ∀ n : Str, headers[n]? = cors[n]?) ∨
  (config.missing.action = .notFound ∧ ∃ r object, missingReads config = [r] ∧
    s.Holds deps originId r.1 r.2 object ∧ ¬ s.Fails deps originId r.1 r.2 ∧
    (request.method = .head ∨ object.body = utf8 "not found".toList) ∧
    ∀ n : Str, (applyHeaders (headersFromMetadata object.metadata) headers)[n]? = cors[n]?)

section
variable {deps : GatewayDeps} {env : Env} {hooks : Hooks} {originId : Str} {request : RenderRequest}
  {config : EdgeConfig} {cors headers : Headers}

theorem finalize_status (response : RenderResponse) :
    (finalizeResponse request response).status = response.status := by
  unfold finalizeResponse
  split <;> rfl

theorem finalize_headers (response : RenderResponse) :
    (finalizeResponse request response).headers = response.headers := by
  unfold finalizeResponse
  split <;> rfl

theorem finalize_body (response response' : RenderResponse) :
    (finalizeResponse request response).body = (finalizeResponse request response').body ↔
      request.method = .head ∨ response.body = response'.body := by
  unfold finalizeResponse
  by_cases h : request.method = .head <;> simp [h]

theorem sameResponse_finalize {response response' : RenderResponse} :
    SameResponse (finalizeResponse request response) (finalizeResponse request response') ↔
      response.status = response'.status ∧ (request.method = .head ∨ response.body = response'.body) ∧
        ∀ n : Str, response.headers[n]? = response'.headers[n]? := by
  constructor
  · intro h
    have hheaders := h.headers
    simp only [finalize_headers] at hheaders
    exact ⟨by rw [← @finalize_status request response, h.status, finalize_status],
      (finalize_body response response').mp h.body, hheaders⟩
  · intro ⟨hstatus, hbody, hheaders⟩
    exact ⟨by rw [finalize_status, finalize_status, hstatus],
      by simpa only [finalize_headers] using hheaders, (finalize_body response response').mpr hbody⟩

@[simp] theorem notFoundText_status : (notFoundText headers).status = .notFound := rfl

@[simp] theorem notFoundText_body : (notFoundText headers).body = utf8 "not found".toList := rfl

theorem notFoundText_headers (h : Lower headers) (n : Str) :
    (notFoundText headers).headers[n]? = headers[n]? := by
  rw [notFoundText, getElem?_applyHeaders_lower h, Std.TreeMap.getElem?_emptyc, Option.or_none]

theorem sameOutcome_ok {response response' : RenderResponse} :
    SameOutcome (.ok response) (.ok response') ↔ SameResponse response response' :=
  ⟨fun h => by cases h; assumption, .ok⟩

theorem not_sameOutcome_err {response : RenderResponse} {e : Error} :
    ¬ SameOutcome (.ok response) (.err e) := fun h => by cases h

/-- There is one path to read, and no redirect. -/
theorem plainMissing_single {s : Scene} {r : Read} (haction : config.missing.action ≠ .redirect)
    (hreads : missingReads config = [r]) :
    PlainMissing deps.toDeps s originId config request cors headers ↔
      (s.Empty deps.toDeps originId r ∧ ∀ n : Str, headers[n]? = cors[n]?) ∨
      (config.missing.action = .notFound ∧ ∃ object,
        s.Holds deps.toDeps originId r.1 r.2 object ∧ ¬ s.Fails deps.toDeps originId r.1 r.2 ∧
        (request.method = .head ∨ object.body = utf8 "not found".toList) ∧
        ∀ n : Str, (applyHeaders (headersFromMetadata object.metadata) headers)[n]? = cors[n]?) := by
  rw [PlainMissing, hreads]
  simp [Scene.AllEmpty, haction]

/-- The answer without the missing behaviour is the one with it exactly when that is plain. -/
theorem plain_iff (henv : NoFaults env) (hvalid : validateEdgeConfig deps.toDeps config = .ok ())
    (hcors : Lower cors) (hlocation : cors["location".toList]? = none) (hheaders : Lower headers)
    (w : World) :
    SameOutcome (.ok (finalizeResponse request (notFoundText cors))) (run (gatewayStep deps.toDeps env
        hooks) (missingAnswer deps request originId config headers) w).1 ↔
      PlainMissing deps.toDeps (sceneOf w env hooks) originId config request cors headers := by
  rw [missingAnswer]
  simp only [run_bind]
  rcases @run_handleMissing deps env hooks originId config headers w with
    ⟨haction, hrun⟩ | ⟨haction, hreads, hrun⟩ | ⟨r, haction, hreads, hrun⟩
  · -- a redirect has a `location`, and the plain answer has none
    obtain ⟨status, hstatus, hcode⟩ := missing_status_valid hvalid haction
    obtain ⟨to_, hto⟩ := missing_to_valid hvalid haction
    rw [hrun, hstatus, Option.elim_some, StatusCode.fromU16_ok hcode]
    refine iff_of_false (fun h => ?_) ?_
    · have hsame := (sameResponse_finalize.mp (sameOutcome_ok.mp h)).2.2 "location".toList
      rw [notFoundText_headers hcors, hlocation] at hsame
      simp only [Option.getD_some] at hsame
      rw [getElem?_applyHeaders_lower hheaders, hto, insertHeader?, getElem?_insertHeader,
        if_pos (by decide)] at hsame
      cases (Option.or_eq_none_iff.mp hsame.symm).2
    · rintro (⟨hne, -⟩ | ⟨hnot, -⟩)
      · exact hne haction
      · rw [haction] at hnot
        cases hnot
  · -- there is no page, and no path
    rw [hrun]
    refine sameOutcome_ok.trans ?_
    have hplain : PlainMissing deps.toDeps (sceneOf w env hooks) originId config request cors headers ↔
        ∀ n : Str, headers[n]? = cors[n]? := by
      rw [PlainMissing, hreads]
      simp [Scene.AllEmpty, haction]
    rw [hplain, Option.getD_some, sameResponse_finalize]
    simp [notFoundText_headers hheaders, notFoundText_headers hcors, eq_comm]
  · -- there is one path to read
    rw [hrun, plainMissing_single haction hreads]
    obtain ⟨w1, hread, -⟩ := @run_readObject deps env hooks originId henv r.1 r.2 w
    rw [hread]
    rcases (sceneOf w env hooks).readObject_cases deps originId r.2 r.1 with
      ⟨object, hr, hh, hf⟩ | ⟨hr, hno, hf⟩ | ⟨e, hr, hf⟩
    · rw [hr]
      refine sameOutcome_ok.trans ?_
      have hmatch : ∀ n : Str, (notFoundText cors).headers[n]? =
            (objectResponse (missingStatus config) headers object).headers[n]? ↔
          (applyHeaders (headersFromMetadata object.metadata) headers)[n]? = cors[n]? := by
        intro n
        rw [notFoundText_headers hcors, eq_comm]
        rfl
      have hempty : ¬ (sceneOf w env hooks).Empty deps.toDeps originId r := fun h => h.2 object hh
      have hholds : (∃ object', (sceneOf w env hooks).Holds deps.toDeps originId r.1 r.2 object' ∧
            ¬ (sceneOf w env hooks).Fails deps.toDeps originId r.1 r.2 ∧
            (request.method = .head ∨ object'.body = utf8 "not found".toList) ∧
            ∀ n : Str, (applyHeaders (headersFromMetadata object'.metadata) headers)[n]? = cors[n]?) ↔
          (request.method = .head ∨ object.body = utf8 "not found".toList) ∧
            ∀ n : Str, (applyHeaders (headersFromMetadata object.metadata) headers)[n]? = cors[n]? := by
        constructor
        · rintro ⟨object', hh', -, h⟩
          rw [holds_unique hh hh']
          exact h
        · exact fun h => ⟨object, hh, hf, h⟩
      simp only [Option.map_some, Option.some_or, Option.getD_some, sameResponse_finalize,
        hmatch, hholds, hempty, false_and, false_or]
      by_cases hnot : config.missing.action = .notFound
      · simp [hnot, objectResponse, missingStatus, eq_comm]
      · simp [hnot, objectResponse, missingStatus, StatusCode.notFound, StatusCode.ok]
    · rw [hr]
      refine sameOutcome_ok.trans ?_
      have hx : ((Option.map (objectResponse (missingStatus config) headers) none).or
          (if config.missing.action = .notFound then some (notFoundText headers) else none)).getD
            (notFoundText headers) = notFoundText headers := by
        split <;> rfl
      have hempty : (sceneOf w env hooks).Empty deps.toDeps originId r := ⟨hf, hno⟩
      have hholds : ¬ ∃ object', (sceneOf w env hooks).Holds deps.toDeps originId r.1 r.2 object' ∧
          ¬ (sceneOf w env hooks).Fails deps.toDeps originId r.1 r.2 ∧
          (request.method = .head ∨ object'.body = utf8 "not found".toList) ∧
          ∀ n : Str, (applyHeaders (headersFromMetadata object'.metadata) headers)[n]? = cors[n]? := by
        rintro ⟨object', hh, -⟩
        exact hno object' hh
      simp only [hx, sameResponse_finalize, hempty, hholds, and_false, or_false, true_and]
      simp [notFoundText_headers hheaders, notFoundText_headers hcors, eq_comm]
    · rw [hr]
      refine iff_of_false not_sameOutcome_err ?_
      rintro (⟨h, -⟩ | ⟨-, object, -, h, -⟩)
      · exact h.1 hf
      · exact h hf

end

section
variable {deps : GatewayDeps} {env : Env} {hooks : Hooks} {service : RenderGatewayService}
  {request : RenderRequest} {resolved : ResolvedHost} {config : EdgeConfig} {w : World}

end

/-! ## A redirect that is not given -/

end RenderMesh.Bugs.ParamsAlone
