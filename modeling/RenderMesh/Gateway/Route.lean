import RenderMesh.Gateway.Totality

/-!
# The router

`create_router` (`src/src/routes/mod.rs`): the paths of the system routes are fixed, and all
others fall to `render` (`src/src/routes/render.rs`). That goes from the HTTP request to the
gateway's request and from its response to the HTTP response. The path of the URI is passed on
as it was sent; an error of the gateway is a 500.
-/
namespace RenderMesh.Gateway

open RenderMesh.Core RenderMesh.Server RenderMesh.Refresh

structure Uri where
  path : Str
  query : Option Str
  deriving DecidableEq, Repr

structure HttpRequest where
  method : Method
  uri : Uri
  headers : HeaderMap
  body : Bytes
  deriving DecidableEq, Repr

structure HttpResponse where
  status : StatusCode
  headers : HeaderMap
  body : Bytes
  deriving DecidableEq, Repr

def StatusCode.payloadTooLarge : StatusCode := ⟨413, by decide⟩

/-- `HeaderMap::get` and `to_str`. -/
def headerText (headers : HeaderMap) (name : String) : Option Str :=
  (headers.lookup name.toList).bind headerToStr

/-- mirrors src/src/routes/render.rs:118-134 -/
def clientIpFromHeaders (headers : HeaderMap) : Option Str :=
  let forwarded := (headerText headers "x-forwarded-for").map (trim ∘ beforeChar ',')
  match forwarded.filter (· ≠ []) with
  | some ip => some ip
  | none => ((headerText headers "x-real-ip").map trim).filter (· ≠ [])

def Method.readsBody : Method → Bool
  | .get | .head | .options => true
  | .other _ => false

/-- The request that the route hands to the gateway. -/
def renderRequest (request : HttpRequest) : RenderRequest where
  method := request.method
  host := (headerText request.headers "host").getD []
  path := request.uri.path
  query := request.uri.query
  scheme := "https".toList
  clientIp := clientIpFromHeaders request.headers
  headers := request.headers
  body := if request.method.readsBody then request.body else []

def isTokenChar (c : Char) : Bool := c.isAlphanum || c ∈ "!#$%&'*+-.^_|~".toList || c.toNat == 96

/-- `HeaderName::from_bytes`. -/
def headerName (name : Str) : Option Str :=
  if name ≠ [] ∧ name.all isTokenChar then some (toAsciiLower name) else none

/-- `HeaderValue::from_str`. -/
def headerValue (value : Str) : Option Bytes :=
  if (utf8 value).all fun b => (32 ≤ b.toNat && b.toNat ≠ 127) || b.toNat == 9 then some (utf8 value)
  else none

/-- mirrors src/src/routes/render.rs:136-170; headers that are not valid are skipped. -/
def renderResponse (response : RenderResponse) : HttpResponse where
  status := response.status
  headers := response.headers.toList.filterMap fun entry =>
    (headerName entry.1).bind fun name => (headerValue entry.2).map fun value => (name, value)
  body := response.body

/-- mirrors src/src/routes/render.rs:22-116 -/
def render (deps : GatewayDeps) (service : RenderGatewayService) (bodyLimitBytes : Nat)
    (request : HttpRequest) : Handling HttpResponse :=
  if request.method.readsBody ∧ bodyLimitBytes < request.body.length then
    pure ⟨.payloadTooLarge, [], []⟩
  else do
    let result ← (service.handle deps (renderRequest request)).attempt
    match result with
    | .ok response => pure (renderResponse response)
    | .error _ => pure ⟨.internalServerError, [], []⟩

inductive Route where
  | health
  | echo
  | origins
  /-- `/_rendermesh/origins/{origin_id}/snapshot`, or `…/freshness` -/
  | snapshot (originId : Str)
  /-- `/_rendermesh/origins/{origin_id}/sync` -/
  | sync (originId : Str)
  /-- the fallback -/
  | render
  deriving DecidableEq, Repr

/-- The routes below `/_rendermesh/origins/`; mirrors src/src/routes/system/origins.rs:17-28 -/
def originRoute : List Str → Route
  | [originId, leaf] =>
    if originId = [] then .render
    else if leaf = "snapshot".toList ∨ leaf = "freshness".toList then .snapshot originId
    else if leaf = "sync".toList then .sync originId
    else .render
  | _ => .render

/-- The route of a path, which is matched as it was sent. -/
def routeOf (path : Str) : Route :=
  if path = "/health".toList then .health
  else if path = "/echo".toList then .echo
  else if path = "/_rendermesh/origins".toList then .origins
  else
    match stripPrefix? "/_rendermesh/origins/".toList path with
    | some rest => originRoute (segments rest)
    | none => .render

/-- mirrors src/src/routes/mod.rs:16-39; `system` answers on the fixed routes. -/
def createRouter (deps : GatewayDeps) (service : RenderGatewayService) (bodyLimitBytes : Nat)
    (system : Route → HttpRequest → Handling HttpResponse) (request : HttpRequest) :
    Handling HttpResponse :=
  match routeOf request.uri.path with
  | .render => render deps service bodyLimitBytes request
  | route => system route request

example : routeOf "/_rendermesh/origins/web/sync".toList = .sync "web".toList := by decide

section
variable (deps : GatewayDeps) (service : RenderGatewayService) (bodyLimitBytes : Nat)
  (request : HttpRequest)

theorem createRouter_render {system : Route → HttpRequest → Handling HttpResponse}
    (h : routeOf request.uri.path = .render) :
    createRouter deps service bodyLimitBytes system request =
      render deps service bodyLimitBytes request := by
  rw [createRouter, h]

theorem render_looks : (render deps service bodyLimitBytes request).Uses GatewayOp.Looks := by
  unfold render
  split
  · trivial
  · refine Prog.uses_bind (Prog.uses_attempt (handle_looks deps service _)) fun result => ?_
    cases result <;> trivial

variable {deps service bodyLimitBytes request} {s : Scene}

theorem value_render {response : RenderResponse} (hlen : request.body.length ≤ bodyLimitBytes)
    (h : s.value (service.handle deps (renderRequest request)) = .ok response) :
    s.value (render deps service bodyLimitBytes request) = .ok (renderResponse response) := by
  rw [render, if_neg fun hbody => absurd hbody.2 (Nat.not_lt.mpr hlen), Scene.value, eval_bind,
    eval_attempt, show eval s.answer (service.handle deps (renderRequest request)) = _ from h]
  rfl

end

end RenderMesh.Gateway
