import RenderMesh.Dto

/-!
# Edge configuration

Parsing and validation of an origin's edge configuration
(`src/src/services/edge_config.rs`, `src/src/services/config_format.rs`). The YAML
and JSON deserializers are outside the repository (`Deps`); a text is tried as
YAML first.

`defaultEdgeConfig_valid`: the default passes its own check.
-/
namespace RenderMesh.Server

open RenderMesh.Core

/-- mirrors src/src/services/edge_config.rs:8-26 -/
def defaultEdgeConfig : EdgeConfig where
  version := 1
  edge := { rootObject := "/index.html".toList, autoRewriteIndex := true }
  missing :=
    { action := .notFound, page := some "/index.html".toList, path := none, to_ := none,
      status := none }
  redirects := []
  rewrites := []
  edges := []

/-- mirrors src/src/services/edge_config.rs:126-135 -/
def validateAbsolutePath (field : String) (path : Str) : Except Error Unit :=
  if path = [] ∨ path.head? ≠ some '/' ∨ path.any isControl then
    .error (anyhow (field.toList ++ " must be a non-empty absolute path".toList))
  else if (segments path).any (· = ['.', '.']) then
    .error (anyhow (field.toList ++ " cannot contain parent directory segments".toList))
  else .ok ()

/-- mirrors src/src/services/edge_config.rs:119-124 -/
def validateOptionalPath (field : String) : Option Str → Except Error Unit
  | some path => validateAbsolutePath field path
  | none => .ok ()

/-- mirrors src/src/services/edge_config.rs:112-117 -/
def rejectPresent {α : Type} (field : String) (value : Option α) : Except Error Unit :=
  if value.isSome then
    .error (anyhow (field.toList ++ " is not valid for this missing action".toList))
  else .ok ()

/-- mirrors src/src/services/edge_config.rs:137-142 -/
def validateRedirectStatus (status : Nat) : Except Error Unit :=
  if status = 301 ∨ status = 302 ∨ status = 307 ∨ status = 308 then .ok ()
  else .error (anyhow ("invalid redirect status ".toList ++ showNat status))

def requirePresent {α : Type} (error : String) : Option α → Except Error α
  | some value => .ok value
  | none => .error (anyhow error.toList)

/-- mirrors src/src/services/edge_config.rs:76-110 -/
def validateMissingConfig (missing : MissingConfig) : Except Error Unit :=
  match missing.action with
  | .notFound => do
    validateOptionalPath "missing.page" missing.page
    rejectPresent "missing.path" missing.path
    rejectPresent "missing.to" missing.to_
    rejectPresent "missing.status" missing.status
  | .serve => do
    let path ← requirePresent "missing serve requires path" missing.path
    validateAbsolutePath "missing.path" path
    rejectPresent "missing.page" missing.page
    rejectPresent "missing.to" missing.to_
    rejectPresent "missing.status" missing.status
  | .redirect => do
    let to_ ← requirePresent "missing redirect requires to" missing.to_
    validateAbsolutePath "missing.to" to_
    let status ← requirePresent "missing redirect requires status" missing.status
    validateRedirectStatus status
    rejectPresent "missing.page" missing.page
    rejectPresent "missing.path" missing.path

/-- mirrors src/src/services/edge_config.rs:144-150 -/
def validateEdgeHookUrl (deps : Deps) (url : Str) : Except Error Unit :=
  match deps.urlScheme url with
  | .error error => .error (anyhow error)
  | .ok scheme =>
    if scheme = "http".toList ∨ scheme = "https".toList then .ok ()
    else .error (anyhow "edge hook url must use http or https".toList)

def validateRedirect (redirect : RedirectRule) : Except Error Unit := do
  validateAbsolutePath "redirect.from" redirect.from_
  validateAbsolutePath "redirect.to" redirect.to_
  validateRedirectStatus redirect.status

def validateRewrite (rewrite : RewriteRule) : Except Error Unit := do
  validateAbsolutePath "rewrite.from" rewrite.from_
  validateAbsolutePath "rewrite.to" rewrite.to_

def validateEdgeHook (deps : Deps) (edge : EdgeHookConfig) : Except Error Unit :=
  if trim edge.name = [] then .error (anyhow "edge hook name is required".toList)
  else if edge.timeoutMs = 0 then
    .error (anyhow ("edge hook ".toList ++ edge.name ++ " timeout_ms must be positive".toList))
  else validateEdgeHookUrl deps edge.url

/-- mirrors src/src/services/edge_config.rs:38-74 -/
def validateEdgeConfig (deps : Deps) (config : EdgeConfig) : Except Error Unit :=
  if config.version ≠ 1 then
    .error (anyhow ("unsupported edge config version ".toList ++ showNat config.version))
  else do
    validateAbsolutePath "edge.root_object" config.edge.rootObject
    validateMissingConfig config.missing
    config.redirects.forM validateRedirect
    config.rewrites.forM validateRewrite
    config.edges.forM (validateEdgeHook deps)

/-- mirrors src/src/services/config_format.rs:4-14 -/
def parseConfig {α : Type} (yaml json : Str → Except Str α) (name input : Str) : Except Error α :=
  match yaml input with
  | .ok value => .ok value
  | .error yamlError =>
    match json input with
    | .ok value => .ok value
    | .error jsonError =>
      .error ((anyhow jsonError).context ("failed to parse ".toList ++ name ++
        " as YAML or JSON; YAML error: ".toList ++ yamlError))

/-- mirrors src/src/services/edge_config.rs:32-36 -/
def parseEdgeConfig (deps : Deps) (input : Str) : Except Error EdgeConfig := do
  let config ← parseConfig deps.edgeConfigOfYaml deps.edgeConfigOfJson "edge config".toList input
  validateEdgeConfig deps config
  .ok config

theorem defaultEdgeConfig_valid (deps : Deps) : validateEdgeConfig deps defaultEdgeConfig = .ok () := by
  rfl

theorem parseEdgeConfig_valid {deps : Deps} {input : Str} {config : EdgeConfig}
    (h : parseEdgeConfig deps input = .ok config) : validateEdgeConfig deps config = .ok () := by
  unfold parseEdgeConfig at h
  cases hc : parseConfig deps.edgeConfigOfYaml deps.edgeConfigOfJson "edge config".toList input with
  | error e => rw [hc] at h; cases h
  | ok c =>
    rw [hc] at h
    cases hv : validateEdgeConfig deps c with
    | error e => simp only [bind, Except.bind, hv] at h; cases h
    | ok u => simp only [bind, Except.bind, hv] at h; cases h; exact hv

/-! ## What was checked -/

theorem exceptBind_ok {ε α β : Type} {x : Except ε α} {f : α → Except ε β} {b : β} :
    (x >>= f) = .ok b ↔ ∃ a, x = .ok a ∧ f a = .ok b := by
  cases x <;> simp [bind, Except.bind]

theorem forM_ok_iff {ε α : Type} {f : α → Except ε Unit} {l : List α} :
    l.forM f = .ok () ↔ ∀ x ∈ l, f x = .ok () := by
  induction l with
  | nil => exact iff_of_true rfl (by simp)
  | cons x l ih =>
    have hcons : (x :: l).forM f = (f x >>= fun _ => l.forM f) := rfl
    rw [hcons, exceptBind_ok, List.forall_mem_cons, ← ih]
    exact ⟨fun ⟨_, hx, hl⟩ => ⟨hx, hl⟩, fun ⟨hx, hl⟩ => ⟨(), hx, hl⟩⟩

theorem validateRedirectStatus_ok {status : Nat} (h : validateRedirectStatus status = .ok ()) :
    100 ≤ status ∧ status < 1000 := by
  unfold validateRedirectStatus at h
  split at h
  · omega
  · cases h

section
variable {deps : Deps} {config : EdgeConfig} (h : validateEdgeConfig deps config = .ok ())
include h

/-- The parts of a valid configuration passed their checks. -/
theorem validateEdgeConfig_ok :
    validateAbsolutePath "edge.root_object" config.edge.rootObject = .ok () ∧
      validateMissingConfig config.missing = .ok () ∧
      (∀ redirect ∈ config.redirects, validateRedirect redirect = .ok ()) ∧
      (∀ rewrite ∈ config.rewrites, validateRewrite rewrite = .ok ()) ∧
      ∀ edge ∈ config.edges, validateEdgeHook deps edge = .ok () := by
  unfold validateEdgeConfig at h
  split at h
  · cases h
  · simp only [exceptBind_ok] at h
    obtain ⟨_, hroot, _, hmissing, _, hredirects, _, hrewrites, hedges⟩ := h
    exact ⟨hroot, hmissing, forM_ok_iff.mp hredirects, forM_ok_iff.mp hrewrites,
      forM_ok_iff.mp hedges⟩

theorem redirect_status_valid {redirect : RedirectRule} (hr : redirect ∈ config.redirects) :
    100 ≤ redirect.status ∧ redirect.status < 1000 := by
  have hv := (validateEdgeConfig_ok h).2.2.1 redirect hr
  simp only [validateRedirect, exceptBind_ok] at hv
  obtain ⟨_, _, _, _, hs⟩ := hv
  exact validateRedirectStatus_ok hs

theorem missing_status_valid (haction : config.missing.action = .redirect) :
    ∃ status, config.missing.status = some status ∧ 100 ≤ status ∧ status < 1000 := by
  have hv := (validateEdgeConfig_ok h).2.1
  simp only [validateMissingConfig, haction, exceptBind_ok] at hv
  obtain ⟨_, _, _, _, status, hs, _, hstatus, -⟩ := hv
  refine ⟨status, ?_, validateRedirectStatus_ok hstatus⟩
  cases hm : config.missing.status with
  | none => rw [hm] at hs; cases hs
  | some st => rw [hm] at hs; cases hs; rfl

theorem missing_to_valid (haction : config.missing.action = .redirect) :
    ∃ to_, config.missing.to_ = some to_ := by
  have hv := (validateEdgeConfig_ok h).2.1
  simp only [validateMissingConfig, haction, exceptBind_ok] at hv
  obtain ⟨_, hto, _⟩ := hv
  cases hm : config.missing.to_ with
  | none => rw [hm] at hto; cases hto
  | some to_ => exact ⟨to_, rfl⟩

end

end RenderMesh.Server
