import RenderMesh.Gateway.Reachable
import RenderMesh.Gateway.SafeHeaders
import RenderMesh.Refresh.Registry

/-!
# One file under two spellings

Behaviour (`src/src/repositories/local_mirror.rs:55-131`, `services/template_store.rs:101-116`):
the file of an object is found as a path, and `a` and `./a` are one path. Its sidecar is found by
the digest of the text, and its template by the text itself.

Intended: "each object and its metadata" belong together; the gateway serves an object with its
metadata headers.

Counterexample: a refresh mirrors the HTML object `a`. `/a` is served as `text/html`, and with
params its template is rendered; `/./a` is the same file without a content type, and with params
it is a 415 (`dotted_path_is_bare`).

Condition: `spellings_interchangeable_iff`. What is kept under the two texts is alike: the fields
of the sidecars, but for those that other headers of the response set anyway, and with params the
templates. For two spellings of one text it is.
-/
namespace RenderMesh.Bugs.SpelledPaths

open RenderMesh.Core RenderMesh.Mirror RenderMesh.Server RenderMesh.Gateway RenderMesh.Refresh
open RenderMesh.Domains

/-- The headers that come from an object's metadata. -/
def metadataFields : List (String × (ObjectMetadata → Option Str)) :=
  [("content-type", (·.contentType)), ("cache-control", (·.cacheControl)), ("etag", (·.etag)),
    ("last-modified", (·.lastModified))]

/-- What becomes of a template. -/
inductive TemplateOutcome where
  | page (body : Str)
  | notHtml
  | failed
  deriving DecidableEq, Repr

def templateOutcome : Except TemplateStoreError Str → TemplateOutcome
  | .ok body => .page body
  | .error .notHtml => .notHtml
  | .error (.render _) => .failed

def TemplateOutcome.response (status : StatusCode) (headers : Headers) :
    TemplateOutcome → RenderResponse
  | .page body => ⟨status, headers, utf8 body⟩
  | .notHtml => ⟨.unsupportedMediaType, headers, []⟩
  | .failed => ⟨.badGateway, headers, []⟩

section
variable (deps : GatewayDeps) (env : Env) (hooks : Hooks) (id : Str)

/-- The responses at two paths are the same for the requester. -/
structure Interchangeable (path path' : Str) (params : Option Value) (w : World)
    (response response' : RenderResponse) : Prop where
  status : response.status = response'.status
  body : response.body = response'.body
  headers : ∀ f ∈ metadataFields, response.headers[f.1.toList]? = response'.headers[f.1.toList]?
  template : ∀ value, params = some value → ∃ result result' w1 w2,
    run (gatewayStep deps.toDeps env hooks) (renderTemplate deps id path value) w =
      (.ok result, w1) ∧
    run (gatewayStep deps.toDeps env hooks) (renderTemplate deps id path' value) w =
      (.ok result', w2) ∧
    templateOutcome result = templateOutcome result'

end

/-- Other headers of the response set the header, whatever the metadata says. -/
def Sets (headers : Headers) (name : Str) : Prop := ∃ n ∈ headers, toAsciiLower n = name

/-- What a sidecar says: nothing, if it is not there. -/
def sidecarMetadata (deps : Deps) (sidecar : Option (Node Bytes)) : ObjectMetadata :=
  match sidecar with
  | some (.file body) =>
    ((fromUtf8 body).bind fun content => (deps.metadataOfJson content).toOption).getD
      ObjectMetadata.empty
  | _ => ObjectMetadata.empty

/-- The sidecars of the two texts say the same, where it shows. -/
def SidecarsAlike (deps : Deps) (id : Str) (headers : Headers) (w : World) (n n' : Str) : Prop :=
  ∀ f ∈ metadataFields, Sets headers f.1.toList ∨
    f.2 (sidecarMetadata deps (w.under id (sidecarNames deps n))) =
      f.2 (sidecarMetadata deps (w.under id (sidecarNames deps n')))

def HasTemplate (registry : Option Registry) (n : Str) : Prop :=
  ∃ r, registry = some r ∧ (r n).isSome = true

/-- Neither text has a template, or the templates of both render to the same. -/
def TemplatesAlike (deps : GatewayDeps) (registry : Option Registry) (n n' : Str) (value : Value) :
    Prop :=
  (¬ HasTemplate registry n ∧ ¬ HasTemplate registry n') ∨
    ∃ r, registry = some r ∧ (r n).isSome = true ∧ (r n').isSome = true ∧
      (deps.renderTemplate r n value).toOption = (deps.renderTemplate r n' value).toOption

/-! ## Headers -/

theorem getElem?_insertHeader? (headers : Headers) (name : String) (value : Option Str) (n : Str) :
    (insertHeader? headers name value)[n]? =
      if toAsciiLower name.toList = n then value.or headers[n]? else headers[n]? := by
  cases value with
  | none => simp [insertHeader?]
  | some value => simp [insertHeader?, getElem?_insertHeader]

/-- A loop that sets headers leaves the others as they were. -/
theorem getElem?_setAll_other {metadata : ObjectMetadata}
    {fields : List (String × (ObjectMetadata → Option Str))} {headers : Headers} {n : Str}
    (hn : n ∉ fields.map fun f => toAsciiLower f.1.toList) :
    (fields.foldl (fun headers f => insertHeader? headers f.1 (f.2 metadata)) headers)[n]? =
      headers[n]? := by
  induction fields generalizing headers with
  | nil => rfl
  | cons f fields ih =>
    rw [List.map_cons, List.mem_cons, not_or] at hn
    rw [List.foldl_cons, ih hn.2, getElem?_insertHeader?, if_neg (Ne.symm hn.1)]

theorem getElem?_setAll {metadata : ObjectMetadata}
    {fields : List (String × (ObjectMetadata → Option Str))} {headers : Headers}
    (hfields : (fields.map fun f => toAsciiLower f.1.toList).Nodup) :
    ∀ f ∈ fields, (fields.foldl (fun headers f => insertHeader? headers f.1 (f.2 metadata))
      headers)[toAsciiLower f.1.toList]? = (f.2 metadata).or headers[toAsciiLower f.1.toList]? := by
  induction fields generalizing headers with
  | nil => simp
  | cons g fields ih =>
    rw [List.map_cons, List.nodup_cons] at hfields
    intro f hf
    rw [List.foldl_cons]
    rcases List.mem_cons.mp hf with rfl | hf
    · rw [getElem?_setAll_other hfields.1, getElem?_insertHeader?, if_pos rfl]
    · have hne : toAsciiLower g.1.toList ≠ toAsciiLower f.1.toList := by
        intro he
        exact hfields.1 (List.mem_map.mpr ⟨f, hf, he.symm⟩)
      rw [ih hfields.2 f hf, getElem?_insertHeader?, if_neg hne]

theorem getElem?_headersFromMetadata (metadata : ObjectMetadata) :
    ∀ f ∈ metadataFields, (headersFromMetadata metadata)[f.1.toList]? = f.2 metadata := by
  intro f hf
  have hlower : ∀ f ∈ metadataFields, toAsciiLower f.1.toList = f.1.toList := by decide
  have hset := @getElem?_setAll metadata metadataFields ∅ (by decide) f hf
  rw [hlower f hf, Std.TreeMap.getElem?_emptyc, Option.or_none] at hset
  exact hset

theorem applyHeaders_alike_iff (target target' headers : Headers) (name : Str) :
    (applyHeaders target headers)[name]? = (applyHeaders target' headers)[name]? ↔
      Sets headers name ∨ target[name]? = target'[name]? := by
  rw [getElem?_applyHeaders, getElem?_applyHeaders]
  have hsets : Sets headers name ↔ lastEntry toAsciiLower headers.toList name ≠ none := by
    rw [Ne, lastEntry_eq_none]
    simp only [Sets, mem_headers_iff, not_forall, not_not, exists_prop]
    constructor
    · rintro ⟨n, ⟨v, hv⟩, hn⟩
      exact ⟨(n, v), Std.TreeMap.mem_toList_iff_getElem?_eq_some.mpr hv, hn⟩
    · rintro ⟨e, he, hn⟩
      exact ⟨e.1, ⟨e.2, Std.TreeMap.mem_toList_iff_getElem?_eq_some.mp he⟩, hn⟩
  rw [hsets]
  cases lastEntry toAsciiLower headers.toList name <;> simp

/-! ## What is served at a path -/

theorem MetadataAt.eq {deps : Deps} {sidecar : Option (Node Bytes)} {metadata : ObjectMetadata}
    (h : MetadataAt deps sidecar metadata) : metadata = sidecarMetadata deps sidecar := by
  rcases h with ⟨rfl, rfl⟩ | ⟨body, content, rfl, hutf8, hjson⟩
  · rfl
  · simp [sidecarMetadata, hutf8, hjson, Except.toOption]

section
variable {deps : GatewayDeps} {env : Env} {hooks : Hooks} {id : Str}

theorem serveObject_some {path : Str} {status : StatusCode} {params : Option Value}
    {headers : Headers} {access : ObjectReadAccess} {response : RenderResponse} {w w' : World}
    (h : run (gatewayStep deps.toDeps env hooks)
      (serveObjectWithOptions deps id path status params headers access) w =
        (.ok (some response), w')) :
    ∃ object w1, run (gatewayStep deps.toDeps env hooks) (readObject deps id path access) w =
        (.ok (some object), w1) ∧
      response.headers = applyHeaders (headersFromMetadata object.metadata) headers ∧
      (params = none → response.status = status ∧ response.body = object.body) ∧
      ∀ value, params = some value → ∃ result w2,
        run (gatewayStep deps.toDeps env hooks) (renderTemplate deps id path value) w1 =
          (.ok result, w2) ∧
        response = (templateOutcome result).response status response.headers := by
  obtain ⟨object, w1, hread, h⟩ := run_bind_ok _ |>.mp h
  cases object with
  | none => cases h
  | some object =>
    refine ⟨object, w1, hread, ?_⟩
    cases params with
    | none =>
      cases h
      exact ⟨rfl, fun _ => ⟨rfl, rfl⟩, (by simp)⟩
    | some value =>
      obtain ⟨result, w2, hrender, h⟩ := run_bind_ok _ |>.mp h
      refine ⟨?_, (by simp), fun value' hvalue => ?_⟩
      · rcases result with (_ | e) | body <;> cases h <;> rfl
      · cases hvalue
        refine ⟨result, w2, hrender, ?_⟩
        rcases result with (_ | e) | body <;> cases h <;> rfl

/-- What the registry makes of a text. -/
def renderedAt (deps : GatewayDeps) (registry : Option Registry) (n : Str) (value : Value) :
    Except TemplateStoreError Str :=
  match registry with
  | none => .error .notHtml
  | some registry =>
    if (registry n).isNone then .error .notHtml
    else (deps.renderTemplate registry n value).mapError .render

theorem run_renderTemplate {path n : Str} (hn : normalizeObjectPath path = .ok n) (value : Value)
    (w : World) : run (gatewayStep deps.toDeps env hooks) (renderTemplate deps id path value) w =
      (.ok (renderedAt deps (w.templates id) n value), w.tick) := by
  simp only [renderTemplate, hn, renderedAt]
  rw [run_bind, show run (gatewayStep deps.toDeps env hooks) (ask (.originTemplates id)) w =
    (.ok (w.templates id), w.tick) from rfl]
  cases w.templates id with
  | none => rfl
  | some registry =>
    simp only
    split
    · rfl
    · cases deps.renderTemplate registry n value <;> rfl

theorem hasTemplate_some {registry : Registry} {n : Str} :
    HasTemplate (some registry) n ↔ (registry n).isSome = true := by
  simp [HasTemplate]

theorem templateOutcome_alike_iff (registry : Option Registry) (n n' : Str) (value : Value) :
    templateOutcome (renderedAt deps registry n value) =
        templateOutcome (renderedAt deps registry n' value) ↔
      TemplatesAlike deps registry n n' value := by
  unfold TemplatesAlike renderedAt
  cases registry with
  | none => simp [HasTemplate]
  | some registry =>
    simp only [hasTemplate_some, Option.some.injEq, exists_eq_left']
    cases hn : registry n <;> cases hn' : registry n' <;>
      cases deps.renderTemplate registry n value <;>
      cases deps.renderTemplate registry n' value <;>
      simp [Except.mapError, templateOutcome, Except.toOption]

end

/-- Two paths to one file are interchangeable exactly if what is kept under their texts is
alike. -/
theorem spellings_interchangeable_iff (deps : GatewayDeps) (env : Env) (hooks : Hooks)
    {id path path' text text' n n' : Str} (hreads : ReadsAs path text n)
    (hreads' : ReadsAs path' text' n') (hsame : names n = names n') {status : StatusCode}
    {params : Option Value} {headers : Headers} {access access' : ObjectReadAccess}
    {response response' : RenderResponse} {w w1 w2 : World}
    (hrun : run (gatewayStep deps.toDeps env hooks)
      (serveObjectWithOptions deps id path status params headers access) w =
        (.ok (some response), w1))
    (hrun' : run (gatewayStep deps.toDeps env hooks)
      (serveObjectWithOptions deps id path' status params headers access') w =
        (.ok (some response'), w2)) :
    Interchangeable deps env hooks id path path' params w response response' ↔
      SidecarsAlike deps.toDeps id headers w n n' ∧
        ∀ value, params = some value →
          TemplatesAlike deps (w.templates id) text text' value := by
  obtain ⟨object, v, hread, hheaders, hplain, htemplate⟩ := serveObject_some hrun
  obtain ⟨object', v', hread', hheaders', hplain', htemplate'⟩ := serveObject_some hrun'
  obtain ⟨⟨_, _, ht, hn, hbody, hmeta⟩, hstore⟩ := readObject_some hread
  obtain ⟨⟨_, _, ht', hn', hbody', hmeta'⟩, hstore'⟩ := readObject_some hread'
  obtain rfl := Except.ok.inj (hreads.once.symm.trans ht)
  obtain rfl := Except.ok.inj (hreads'.once.symm.trans ht')
  obtain rfl := Except.ok.inj (hreads.twice.symm.trans hn)
  obtain rfl := Except.ok.inj (hreads'.twice.symm.trans hn')
  have hfields : (∀ f ∈ metadataFields, response.headers[f.1.toList]? =
      response'.headers[f.1.toList]?) ↔ SidecarsAlike deps.toDeps id headers w n n' := by
    unfold SidecarsAlike
    refine forall₂_congr fun f hf => ?_
    rw [hheaders, hheaders', applyHeaders_alike_iff, getElem?_headersFromMetadata _ f hf,
      getElem?_headersFromMetadata _ f hf, MetadataAt.eq hmeta, MetadataAt.eq hmeta']
  have houtcome : ∀ value,
      (∃ result result' w1 w2, run (gatewayStep deps.toDeps env hooks)
          (renderTemplate deps id path value) w = (.ok result, w1) ∧
        run (gatewayStep deps.toDeps env hooks) (renderTemplate deps id path' value) w =
          (.ok result', w2) ∧ templateOutcome result = templateOutcome result') ↔
        TemplatesAlike deps (w.templates id) text text' value := by
    intro value
    rw [← templateOutcome_alike_iff, run_renderTemplate ht, run_renderTemplate ht']
    constructor
    · rintro ⟨result, result', _, _, hr, hr', he⟩
      cases hr
      cases hr'
      exact he
    · intro he
      exact ⟨_, _, _, _, rfl, rfl, he⟩
  constructor
  · intro h
    exact ⟨hfields.mp h.headers, fun value hvalue => (houtcome value).mp (h.template value hvalue)⟩
  · rintro ⟨hside, htemplates⟩
    have hbodies : response.status = response'.status ∧ response.body = response'.body := by
      cases hparams : params with
      | none =>
        obtain ⟨hs, hb⟩ := hplain hparams
        obtain ⟨hs', hb'⟩ := hplain' hparams
        rw [hsame] at hbody
        have hbodies := hbody.symm.trans hbody'
        exact ⟨hs.trans hs'.symm, by rw [hb, hb']; simpa using hbodies⟩
      | some value =>
        obtain ⟨result, _, hr, hresponse⟩ := htemplate value hparams
        obtain ⟨result', _, hr', hresponse'⟩ := htemplate' value hparams
        have halike := (templateOutcome_alike_iff _ _ _ _).mpr (htemplates value hparams)
        rw [run_renderTemplate ht, hstore] at hr
        rw [run_renderTemplate ht', hstore'] at hr'
        cases hr
        cases hr'
        rw [hresponse, hresponse', halike]
        cases templateOutcome (renderedAt deps (w.templates id) text' value) <;> exact ⟨rfl, rfl⟩
    exact ⟨hbodies.1, hbodies.2, hfields.mpr hside,
      fun value hvalue => (houtcome value).mpr (htemplates value hvalue)⟩

/-! ## A storage with one page -/

/-- The digests of the small server, and that of `./a`. -/
def pageDeps : GatewayDeps :=
  { smallGatewayDeps with
    sha256 := fun b => if b = utf8 "./a".toList then
        digestOf (unhex "cb786a9a29282f4983b2108efc04d561889cb280b247052f363a2301b79f3129".toList)
      else smallDeps.sha256 b }

/-- A storage with the object `a`, which has this content type. -/
def pageEnv (contentType : Option Str) : Env :=
  { holding "a".toList with
    getObject := fun _ _ key => .ok ⟨key, [65], none, none, contentType, none⟩ }

/-- The state after its first refresh. -/
def published (contentType : Option Str) : World :=
  (refreshOrigin pageDeps.toDeps (pageEnv contentType) plainService "web".toList
    (World.start FileTree.empty)).2

/-- The response at a path of it. -/
def served (contentType : Option Str) (params : Option Value) (path : String) :
    Outcome Error (Option RenderResponse) × World :=
  run (gatewayStep pageDeps.toDeps (pageEnv contentType) noHooks)
    (serveObjectWithOptions pageDeps "web".toList path.toList .ok params ∅ .pub)
    (published contentType)

/-- The status of the response, and its content type. -/
def shown (out : Outcome Error (Option RenderResponse) × World) : Option (StatusCode × Option Str) :=
  out.1.ok?.join.map fun response => (response.status, response.headers["content-type".toList]?)

theorem served_of_shown {contentType : Option Str} {params : Option Value} {path : String}
    {status : StatusCode} {value : Option Str}
    (h : shown (served contentType params path) = some (status, value)) : ∃ response w',
      served contentType params path = (.ok (some response), w') ∧ response.status = status ∧
      response.headers["content-type".toList]? = value := by
  obtain ⟨response, hr, hs⟩ := Option.map_eq_some_iff.mp h
  have hok := Outcome.ok?_eq_some.mp (Option.join_eq_some_iff.mp hr)
  exact ⟨response, _, Prod.ext hok rfl, congrArg Prod.fst hs, congrArg Prod.snd hs⟩

theorem reads_a : ReadsAs "/a".toList "a".toList "a".toList := ⟨by decide, by decide⟩

theorem reads_dot_a : ReadsAs "/./a".toList "./a".toList "./a".toList := ⟨by decide, by decide⟩

/-- **Counterexample**: a page is served as HTML and rendered at `/a`, and neither at `/./a`. -/
theorem dotted_path_is_bare :
    (refreshOrigin pageDeps.toDeps (pageEnv (some "text/html".toList)) plainService "web".toList
      (World.start FileTree.empty)).1.ok?.isSome = true ∧
    names "a".toList = names "./a".toList ∧ ∃ response response' w1 w2,
      served (some "text/html".toList) (some (.object [])) "/a" = (.ok (some response), w1) ∧
      served (some "text/html".toList) (some (.object [])) "/./a" = (.ok (some response'), w2) ∧
      (response.status = .ok ∧ response.headers["content-type".toList]? = some "text/html".toList) ∧
      (response'.status = .unsupportedMediaType ∧ response'.headers["content-type".toList]? = none) ∧
      ¬ Interchangeable pageDeps (pageEnv (some "text/html".toList)) noHooks "web".toList "/a".toList
        "/./a".toList (some (.object [])) (published (some "text/html".toList)) response response' := by
  have hcomputed : (refreshOrigin pageDeps.toDeps (pageEnv (some "text/html".toList)) plainService
        "web".toList (World.start FileTree.empty)).1.ok?.isSome = true ∧
      shown (served (some "text/html".toList) (some (.object [])) "/a") =
        some (.ok, some "text/html".toList) ∧
      shown (served (some "text/html".toList) (some (.object [])) "/./a") =
        some (.unsupportedMediaType, none) := by decide +kernel
  obtain ⟨hrefreshed, hplain, hdotted⟩ := hcomputed
  obtain ⟨response, w1, hrun, hshown⟩ := served_of_shown hplain
  obtain ⟨response', w2, hrun', hshown'⟩ := served_of_shown hdotted
  refine ⟨hrefreshed, by decide, response, response', w1, w2, hrun, hrun', hshown, hshown', ?_⟩
  intro h
  have hstatus := h.status
  rw [hshown.1, hshown'.1] at hstatus
  revert hstatus
  decide

/-- Without metadata the two spellings are interchangeable. -/
theorem spellings_interchangeable_bare : ∃ response response' w1 w2,
    served none none "/a" = (.ok (some response), w1) ∧
    served none none "/./a" = (.ok (some response'), w2) ∧
    Interchangeable pageDeps (pageEnv none) noHooks "web".toList "/a".toList "/./a".toList none
      (published none) response response' := by
  have hcomputed : shown (served none none "/a") = some (.ok, none) ∧
      shown (served none none "/./a") = some (.ok, none) ∧
      sidecarMetadata pageDeps.toDeps
          ((published none).under "web".toList (sidecarNames pageDeps.toDeps "a".toList)) =
        sidecarMetadata pageDeps.toDeps
          ((published none).under "web".toList (sidecarNames pageDeps.toDeps "./a".toList)) := by
    decide +kernel
  obtain ⟨hplain, hdotted, halike⟩ := hcomputed
  obtain ⟨response, w1, hrun, -⟩ := served_of_shown hplain
  obtain ⟨response', w2, hrun', -⟩ := served_of_shown hdotted
  refine ⟨response, response', w1, w2, hrun, hrun', (spellings_interchangeable_iff pageDeps
    (pageEnv none) noHooks reads_a reads_dot_a (by decide) hrun hrun').mpr ⟨?_, by simp⟩⟩
  intro f _
  exact Or.inr (by rw [halike])

end RenderMesh.Bugs.SpelledPaths
