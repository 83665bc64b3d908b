import RenderMesh.Core.Answers
import RenderMesh.Domains.Derived
import RenderMesh.Gateway.Http
import RenderMesh.Gateway.StaticRules
import RenderMesh.Mirror.ReadObject

/-!
# The render gateway

`RenderGatewayService::handle` (`src/src/services/render_gateway.rs`) with the part of
`TemplateStore` that renders (`src/src/services/template_store.rs`): host, CORS, edge
hooks, redirects, rewrites, the mirror and the missing-object behaviour, in the
order in which a request goes through them.

A request is a program over `GatewayOp`: the reads of the in-memory stores, the
hook calls and the file-system calls of the mirror, each where the code awaits it
or takes its lock. The `i`-th hook call of a request is numbered `i`, so that two
calls of one hook may get different replies.
-/
namespace RenderMesh.Gateway

open RenderMesh.Core RenderMesh.Mirror RenderMesh.Server RenderMesh.Domains

/-! ## Steps -/

inductive GatewayOp where
  | server (o : Op)
  /-- `EdgeConfigStore::get` -/
  | edgeConfig (originId : Str)
  /-- `EdgeHttpRepository::call` -/
  | hook (i : Nat) (hook : EdgeHookConfig) (request : EdgeHookRequest)
  /-- the registry that `TemplateStore::render` looks at -/
  | originTemplates (originId : Str)

abbrev GatewayOp.Res : GatewayOp → Type
  | .server o => o.Res
  | .edgeConfig _ => Option EdgeConfigEntry
  | .hook _ _ _ => Except EdgeHttpError EdgeHttpResponse
  | .originTemplates _ => Option Registry

/-- Code that handles a request. -/
abbrev Handling := Prog GatewayOp GatewayOp.Res Error

def ask (o : GatewayOp) : Handling o.Res := Prog.perform o

/-- Code of the mirror, as part of a request. -/
def inMirror {α : Type} (m : Async α) : Handling α := m.embed GatewayOp.server fun _ r => r

/-- Third-party code that requests use besides `Deps`: `url` and `handlebars`. -/
structure GatewayDeps extends Deps where
  parseUrl : Str → Option ParsedUrl
  /-- `form_urlencoded::parse`, of a query's bytes -/
  parseForm : Str → List (Str × Str)
  renderTemplate : Registry → Str → Value → Except Str Str

/-- The hooks' replies, by the number of the call. -/
abbrev Hooks := Nat → EdgeHookConfig → EdgeHookRequest → Except EdgeHttpError EdgeHttpResponse

/-- One step of a request. -/
def gatewayStep (deps : Deps) (env : Env) (hooks : Hooks) : Handler GatewayOp GatewayOp.Res World
  | .server o, w => step deps env o w
  | .edgeConfig id, w => (some (w.edgeConfigs id), w.tick)
  | .hook i hook request, w => (some (hooks i hook request), w.tick)
  | .originTemplates id, w => (some (w.templates id), w.tick)

/-! ## Headers -/

/-- mirrors src/src/services/render_gateway.rs:978-980 -/
def insertHeader (headers : Headers) (name value : Str) : Headers :=
  headers.insert (toAsciiLower name) value

/-- mirrors src/src/services/render_gateway.rs:973-977 -/
def applyHeaders (target headers : Headers) : Headers :=
  headers.foldl insertHeader target

def insertHeader? (headers : Headers) (name : String) (value : Option Str) : Headers :=
  match value with
  | some value => insertHeader headers name.toList value
  | none => headers

/-- mirrors src/src/services/render_gateway.rs:882-897 -/
def headersFromMetadata (metadata : ObjectMetadata) : Headers :=
  let headers := insertHeader? ∅ "content-type" metadata.contentType
  let headers := insertHeader? headers "cache-control" metadata.cacheControl
  let headers := insertHeader? headers "etag" metadata.etag
  insertHeader? headers "last-modified" metadata.lastModified

/-- mirrors src/src/services/render_gateway.rs:956-971 -/
def isUnsafeEdgeHeader (name : Str) : Bool :=
  (["connection", "content-encoding", "content-length", "host", "keep-alive",
    "proxy-authenticate", "proxy-authorization", "te", "trailer", "transfer-encoding",
    "upgrade"].map String.toList).contains (toAsciiLower name)

/-- mirrors src/src/services/render_gateway.rs:948-954 -/
def filteredHeaders (headers : Headers) : Headers :=
  (headers.toList.filter fun entry => !isUnsafeEdgeHeader entry.1).foldl
    (fun target entry => target.insert (toAsciiLower entry.1) entry.2) ∅

/-- mirrors src/src/services/render_gateway.rs:939-946 -/
def combinedResponseHeaders (edgeHeaders corsHeaders : Headers) : Headers :=
  applyHeaders edgeHeaders corsHeaders

/-- mirrors src/src/services/render_gateway.rs:874-880 -/
def requestHeader (request : RenderRequest) (name : String) : Option Str :=
  (request.headers.lookup name.toList).bind headerToStr

/-- An empty response with these headers. -/
def emptyWith (status : StatusCode) (headers : Headers) : RenderResponse :=
  { RenderResponse.empty status with headers := applyHeaders ∅ headers }

/-- mirrors src/src/services/render_gateway.rs:899-907 -/
def notFoundText (corsHeaders : Headers) : RenderResponse :=
  ⟨.notFound, applyHeaders ∅ corsHeaders, utf8 "not found".toList⟩

/-- mirrors src/src/services/render_gateway.rs:805-814 -/
def finalizeResponse (request : RenderRequest) (response : RenderResponse) : RenderResponse :=
  if request.method = .head then { response with body := [] } else response

/-! ## What a hook is asked -/

/-- mirrors src/src/services/render_gateway.rs:846-853 -/
def fullRequestUrl (request : RenderRequest) : Str :=
  let url := request.scheme ++ "://".toList ++ request.host ++ request.path
  match request.query.filter (· ≠ []) with
  | some query => url ++ '?' :: query
  | none => url

/-- mirrors src/src/services/render_gateway.rs:855-866 -/
def requestHeadersMap (request : RenderRequest) : Headers :=
  Std.TreeMap.ofList (request.headers.filterMap fun entry =>
    (headerToStr entry.2).map fun value => (toAsciiLower entry.1, value))

structure RenderGatewayService where
  resolver : HostResolver
  cors : CorsPolicy
  originBuckets : Std.TreeMap Str Str
  originEdgeContexts : Std.TreeMap Str Value

/-- mirrors src/src/services/render_gateway.rs:920-926 -/
def isReservedRendermeshPath (path : Str) : Bool :=
  let path := trimStartSlashes path
  path = ".rendermesh".toList || ".rendermesh/".toList <+: path ||
    path = "_rendermesh".toList || "_rendermesh/".toList <+: path

inductive ObjectReadAccess where
  | pub
  | internal
  deriving DecidableEq, Repr

inductive TemplateStoreError where
  | notHtml
  | render (error : Str)
  deriving DecidableEq, Repr

section
variable (deps : GatewayDeps)

/-- mirrors src/src/services/render_gateway.rs:868-872 -/
def queryParamsMap (query : Option Str) : Headers :=
  Std.TreeMap.ofList (deps.parseForm (query.getD []))

/-- mirrors src/src/services/render_gateway.rs:817-840 -/
def edgeHookRequest (request : RenderRequest) (resolved : ResolvedHost) (bucket : Str)
    (edgeContext : Option Value) : EdgeHookRequest where
  context := ⟨bucket, request.clientIp, resolved.originId, edgeContext⟩
  request :=
    { url := fullRequestUrl request
      path := request.path
      querystring := request.query.getD []
      queryparams := queryParamsMap deps request.query
      method := request.method.asStr
      headers := requestHeadersMap request
      body := [] }

/-- mirrors src/src/services/render_gateway.rs:790-803 -/
def RenderGatewayService.corsHeaders (service : RenderGatewayService) (originId : Str)
    (request : RenderRequest) : Headers :=
  match requestHeader request "origin" with
  | none => ∅
  | some origin =>
    match service.cors.allowedOriginFor deps.parseUrl originId origin with
    | none => ∅
    | some allowedOrigin =>
      (Std.TreeMap.ofList [("access-control-allow-origin".toList, allowedOrigin),
        ("vary".toList, "Origin".toList)])

/-- mirrors src/src/services/render_gateway.rs:162-167 -/
def RenderGatewayService.bucketForOrigin (service : RenderGatewayService) (originId : Str) : Str :=
  (service.originBuckets[originId]?).getD originId

/-! ## Objects -/

/-- mirrors src/src/services/template_store.rs:101-116 -/
def renderTemplate (originId path : Str) (params : Value) : Handling (Except TemplateStoreError Str) :=
  match normalizeObjectPath path with
  | .error _ => pure (.error .notHtml)
  | .ok key => do
    let registry ← ask (.originTemplates originId)
    match registry with
    | none => pure (.error .notHtml)
    | some registry =>
      if (registry key).isNone then pure (.error .notHtml)
      else
        match deps.renderTemplate registry key params with
        | .ok body => pure (.ok body)
        | .error error => pure (.error (.render error))

/-- `read_object` after its metadata probe: nothing is read from a directory. -/
def readProbed (originId path : Str) : Except IoErr Bool → Handling (Option LocalObject)
  | .ok true => pure none
  | _ => inMirror (Mirror.readObject deps.toDeps storeRoot originId path)

/-- mirrors src/src/services/render_gateway.rs:699-725 -/
def readObject (originId path : Str) (access : ObjectReadAccess) : Handling (Option LocalObject) :=
  if access = .pub && isReservedRendermeshPath path then pure none
  else
    match objectPath storeRoot originId path with
    | .error _ => pure none
    | .ok objectPath => do
      let metadata ← inMirror (io (.metadata objectPath))
      readProbed deps originId path metadata

/-- mirrors src/src/services/render_gateway.rs:620-697 -/
def serveObjectWithOptions (originId path : Str) (status : StatusCode) (params : Option Value)
    (corsHeaders : Headers) (access : ObjectReadAccess) : Handling (Option RenderResponse) := do
  let object ← readObject deps originId path access
  match object with
  | none => pure none
  | some object =>
    let headers := applyHeaders (headersFromMetadata object.metadata) corsHeaders
    match params with
    | none => pure (some ⟨status, headers, object.body⟩)
    | some params => do
      let rendered ← renderTemplate deps originId path params
      match rendered with
      | .ok body => pure (some ⟨status, headers, utf8 body⟩)
      | .error .notHtml => pure (some ⟨.unsupportedMediaType, headers, []⟩)
      | .error (.render _) => pure (some ⟨.badGateway, headers, []⟩)

/-- mirrors src/src/services/render_gateway.rs:601-618 -/
def serveObject (originId path : Str) (status : StatusCode) (params : Option Value)
    (corsHeaders : Headers) : Handling (Option RenderResponse) :=
  serveObjectWithOptions deps originId path status params corsHeaders .pub

/-- mirrors src/src/services/render_gateway.rs:544-599 -/
def serveStaticPathWithOptions (originId : Str) (config : EdgeConfig) (path : Str)
    (status : StatusCode) (params : Option Value) (corsHeaders : Headers)
    (access : ObjectReadAccess) : Handling (Option RenderResponse) := do
  let response ← serveObjectWithOptions deps originId path status params corsHeaders access
  match response with
  | some response => pure (some response)
  | none =>
    if config.edge.autoRewriteIndex then
      serveObjectWithOptions deps originId (autoIndexCandidate path) status params corsHeaders access
    else pure none

/-- mirrors src/src/services/render_gateway.rs:523-542 -/
def serveStaticPath (originId : Str) (config : EdgeConfig) (path : Str) (status : StatusCode)
    (params : Option Value) (corsHeaders : Headers) : Handling (Option RenderResponse) :=
  serveStaticPathWithOptions deps originId config path status params corsHeaders .pub

/-- mirrors src/src/services/render_gateway.rs:518-521 -/
def resolveRequestTarget (config : EdgeConfig) (requestPath : Str) : Str :=
  resolveRootObject config (resolveRewrite config requestPath)

/-- mirrors src/src/services/render_gateway.rs:727-788 -/
def handleMissing (originId : Str) (config : EdgeConfig) (corsHeaders : Headers) :
    Handling (Option RenderResponse) :=
  match config.missing.action with
  | .notFound =>
    match config.missing.page with
    | none => pure (some (notFoundText corsHeaders))
    | some page => do
      let response ← serveObject deps originId page .notFound none corsHeaders
      match response with
      | some response => pure (some { response with status := .notFound })
      | none => pure (some (notFoundText corsHeaders))
  | .serve =>
    match config.missing.path with
    | none => pure (some (notFoundText corsHeaders))
    | some path => serveObject deps originId path .ok none corsHeaders
  | .redirect => do
    let status ← .ofExcept (config.missing.status.elim (.ok .found) StatusCode.fromU16)
    let headers := insertHeader? ∅ "location" config.missing.to_
    pure (some ⟨status, applyHeaders headers corsHeaders, []⟩)

/-! ## The edge chain -/

/-- mirrors src/src/services/render_gateway.rs:909-918 -/
def edgeFailureStatus : EdgeHttpError → StatusCode
  | .timeout => .gatewayTimeout
  | .other => .badGateway

/-- mirrors src/src/services/render_gateway.rs:506-516 -/
def withEdgeHeaders (response : RenderResponse) (state : EdgeChainState) (corsHeaders : Headers)
    (request : RenderRequest) : RenderResponse :=
  finalizeResponse request { response with
    headers := applyHeaders (applyHeaders response.headers (filteredHeaders state.headers))
      corsHeaders }

/-- What the chain does with the outcome of one hook: an answer, or `none` to go on. -/
def edgeOutcome (request : RenderRequest) (originId : Str) (config : EdgeConfig)
    (corsHeaders : Headers) (state : EdgeChainState) :
    EdgePayloadOutcome → Handling (Option RenderResponse)
  | .continue_ => pure none
  | .respondDirect status body =>
    pure (some (withEdgeHeaders ⟨status, ∅, utf8 body⟩ state corsHeaders request))
  | .serveFile status filePath params => do
    let response ← serveStaticPathWithOptions deps originId config filePath status params
      corsHeaders .internal
    match response with
    | some response => pure (some (withEdgeHeaders response state corsHeaders request))
    | none => do
      let responseHeaders := combinedResponseHeaders (filteredHeaders state.headers) corsHeaders
      let response ← handleMissing deps originId config responseHeaders
      pure (some (finalizeResponse request (response.getD (notFoundText responseHeaders))))
  | .renderTarget status params => do
    let target := resolveRequestTarget config request.path
    let response ← serveStaticPath deps originId config target status (some params) corsHeaders
    match response with
    | some response => pure (some (withEdgeHeaders response state corsHeaders request))
    | none => pure (some (finalizeResponse request (notFoundText corsHeaders)))

/-- The loop of `handle_edge_chain` from its `i`-th hook on. -/
def edgeChain (request : RenderRequest) (originId : Str) (hookRequest : EdgeHookRequest)
    (config : EdgeConfig) (corsHeaders : Headers) :
    Nat → EdgeChainState → List EdgeHookConfig → Handling (Option RenderResponse × Headers)
  | _, state, [] => pure (none, filteredHeaders state.headers)
  | i, state, hook :: hooks => do
    let edgeResponse ← ask (.hook i hook hookRequest)
    match edgeResponse with
    | .error error =>
      pure (some (finalizeResponse request (emptyWith (edgeFailureStatus error) corsHeaders)), ∅)
    | .ok edgeResponse =>
      match applyEdgePayload state edgeResponse.status edgeResponse.payload with
      | .error _ =>
        pure (some (finalizeResponse request (emptyWith .badGateway corsHeaders)), ∅)
      | .ok (outcome, state) => do
        let response ← edgeOutcome deps request originId config corsHeaders state outcome
        match response with
        | some response => pure (some response, ∅)
        | none => edgeChain request originId hookRequest config corsHeaders (i + 1) state hooks

/-- mirrors src/src/services/render_gateway.rs:314-504 -/
def RenderGatewayService.handleEdgeChain (service : RenderGatewayService) (request : RenderRequest)
    (resolved : ResolvedHost) (config : EdgeConfig) (corsHeaders : Headers) :
    Handling (Option RenderResponse × Headers) :=
  edgeChain deps request resolved.originId
    (edgeHookRequest deps request resolved (service.bucketForOrigin resolved.originId)
      service.originEdgeContexts[resolved.originId]?)
    config corsHeaders 0 ⟨∅⟩ config.edges

/-! ## Requests -/

/-- The answer to a request that no hook answered. -/
def handleStatic (request : RenderRequest) (originId : Str) (config : EdgeConfig)
    (responseHeaders : Headers) : Handling RenderResponse :=
  match findRedirect config request.path request.query with
  | some redirect => do
    let status ← .ofExcept (StatusCode.fromU16 redirect.status)
    let headers := insertHeader ∅ "location".toList redirect.location
    pure (finalizeResponse request ⟨status, applyHeaders headers responseHeaders, []⟩)
  | none => do
    let target := resolveRequestTarget config request.path
    let response ← serveStaticPath deps originId config target .ok none responseHeaders
    match response with
    | some response => pure (finalizeResponse request response)
    | none => do
      let response ← handleMissing deps originId config responseHeaders
      pure (finalizeResponse request (response.getD (notFoundText responseHeaders)))

/-- A hook's answer, or the static answer with the headers of the hooks. -/
def afterEdgeChain (request : RenderRequest) (originId : Str) (config : EdgeConfig)
    (corsHeaders : Headers) : Option RenderResponse × Headers → Handling RenderResponse
  | (some response, _) => pure response
  | (none, edgeHeaders) =>
    handleStatic deps request originId config (combinedResponseHeaders edgeHeaders corsHeaders)

/-- The answer to a `GET` or `HEAD` request: the part of `handle_inner` after the
method checks. -/
def RenderGatewayService.serve (service : RenderGatewayService) (request : RenderRequest)
    (resolved : ResolvedHost) (corsHeaders : Headers) : Handling RenderResponse := do
  let entry ← ask (.edgeConfig resolved.originId)
  match entry with
  | some (.valid config) => do
    let edgeResult ← service.handleEdgeChain deps request resolved config corsHeaders
    afterEdgeChain deps request resolved.originId config corsHeaders edgeResult
  | _ => pure (emptyWith .internalServerError corsHeaders)

/-- mirrors src/src/services/render_gateway.rs:195-312 -/
def RenderGatewayService.handle (service : RenderGatewayService) (request : RenderRequest) :
    Handling RenderResponse :=
  match service.resolver.resolve request.host with
  | none => pure (.empty .misdirectedRequest)
  | some resolved =>
    let corsHeaders := service.corsHeaders deps resolved.originId request
    match request.method with
    | .options =>
      let headers := insertHeader (applyHeaders ∅ corsHeaders)
        "access-control-allow-methods".toList "GET, HEAD, OPTIONS".toList
      pure ⟨.noContent, insertHeader? headers "access-control-allow-headers"
        (requestHeader request "access-control-request-headers"), []⟩
    | .other _ => pure (emptyWith .methodNotAllowed corsHeaders)
    | _ => service.serve deps request resolved corsHeaders

end

end RenderMesh.Gateway
