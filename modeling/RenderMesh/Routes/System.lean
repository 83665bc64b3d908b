import RenderMesh.Gateway.Route
import RenderMesh.Refresh.Calls

/-!
# The server at work

Once it has started, the process answers requests on the render route and on the system routes
(`src/src/routes/system/origins.rs`), and refreshes its origins in the background. A manual
refresh is behind the admin token.

`Traffic` is the process with all of these under way, and a `Move` lets one of them take its next
step. Which route a request is for is `axum`'s to say, and is given here.
-/
namespace RenderMesh.Gateway.StatusCode

def unauthorized : StatusCode := ⟨401, by decide⟩
def forbidden : StatusCode := ⟨403, by decide⟩
def conflict : StatusCode := ⟨409, by decide⟩
def serviceUnavailable : StatusCode := ⟨503, by decide⟩

end RenderMesh.Gateway.StatusCode

namespace RenderMesh.Routes

open RenderMesh.Core RenderMesh.Server RenderMesh.Refresh RenderMesh.Gateway

/-! ## Answers -/

/-- mirrors src/src/dto/origin_sync.rs:32-36 -/
structure OriginSyncErrorBody where
  code : Str
  message : Str
  deriving DecidableEq, Repr

inductive Reply where
  | rendered (response : HttpResponse)
  | snapshot (snapshot : OriginSnapshotDebug)
  | synced (response : OriginSyncResponse)
  | error (status : StatusCode) (error : OriginSyncErrorBody)
  | empty (status : StatusCode)
  deriving DecidableEq, Repr

/-- mirrors src/src/routes/system/origins.rs:134-149 -/
def errorResponse (status : StatusCode) (code message : Str) : Reply := .error status ⟨code, message⟩

/-- mirrors src/src/routes/system/origins.rs:35-44 -/
def getOriginSnapshot (snapshots : Snapshots) (originId : Str) : Reply :=
  match snapshots originId with
  | some snapshot => .snapshot snapshot
  | none => .empty .notFound

/-- mirrors src/src/routes/mod.rs:11-14 -/
structure SystemRouteConfig where
  adminToken : Option Str

/-- mirrors src/src/routes/system/origins.rs:87-132 -/
def authorizeManualSync (config : SystemRouteConfig) (headers : HeaderMap) : Except Reply Unit :=
  match config.adminToken with
  | none => .error (errorResponse .forbidden "manual_sync_disabled".toList
      "manual sync is disabled".toList)
  | some expectedToken =>
    match headers.lookup "authorization".toList with
    | none => .error (errorResponse .unauthorized "missing_authorization".toList
        "authorization header is required".toList)
    | some header =>
      match headerToStr header with
      | none => .error (errorResponse .forbidden "invalid_authorization".toList
          "authorization header is invalid".toList)
      | some value =>
        match stripPrefix? "Bearer ".toList value with
        | none => .error (errorResponse .forbidden "invalid_authorization".toList
            "authorization header must use bearer token".toList)
        | some token =>
          if token ≠ expectedToken then
            .error (errorResponse .forbidden "invalid_token".toList "admin token is invalid".toList)
          else .ok ()

/-- The answer to a manual refresh that has ended, `none` when its caller went away; mirrors
src/src/routes/system/origins.rs:64-84 -/
def syncReply : Outcome OriginRefreshError OriginSyncResponse → Option Reply
  | .ok response => some (.synced response)
  | .err .notFound => some (errorResponse .notFound "origin_not_found".toList
      "origin not found".toList)
  | .err .alreadyRunning => some (errorResponse .conflict "origin_sync_in_progress".toList
      "origin sync already running".toList)
  | .err (.failed error) => some (errorResponse .internalServerError "origin_sync_failed".toList
      error.message)
  | .dropped => none

/-! ## Tasks -/

inductive Request where
  | render (request : HttpRequest)
  /-- `GET /_rendermesh/origins/{origin_id}/snapshot`, or `…/freshness` -/
  | snapshot (originId : Str)
  /-- `POST /_rendermesh/origins/{origin_id}/sync` -/
  | sync (originId : Str) (headers : HeaderMap)

/-- A request, or a turn of the loop of a background refresh. -/
inductive Task where
  | background (originId : Str)
  | http (request : Request)

/-- The origin that the task may refresh. -/
def Task.originId : Task → Str
  | .background originId | .http (.sync originId _) => originId
  | .http _ => []

inductive Progress where
  | waiting
  | rendering (rest : Handling HttpResponse)
  /-- the call of the refresh service with the task's number is under way -/
  | refreshing
  /-- with the answer, if there is one -/
  | done (reply : Option Reply)

/-- The server with its calls of the refresh service, and its tasks, by number. -/
structure Traffic where
  calls : Calls
  progress : Nat → Progress

/-- One task takes its next step, or its client goes away. -/
inductive Move where
  | next (i : Nat)
  | drop (i : Nat)

def Move.task : Move → Nat
  | .next i | .drop i => i

/-- mirrors src/src/state.rs:13-17; the runtime store is the server's. -/
structure AppState where
  renderGateway : RenderGatewayService
  originRefresh : Option OriginRefreshService

def Traffic.to (s : Traffic) (i : Nat) (p : Progress) : Traffic :=
  ⟨s.calls, Function.update s.progress i p⟩

section
variable (deps : GatewayDeps) (env : Env) (hooks : Nat → Hooks) (app : AppState)
  (config : SystemRouteConfig) (bodyLimitBytes : Nat) (tasks : Nat → Task)

/-- A call of the refresh service takes a turn. -/
def Traffic.turn (s : Traffic) (t : Turn) : Traffic :=
  match app.originRefresh with
  | some service =>
    ⟨takeTurn deps.toDeps env service (fun i => (tasks i).originId) s.calls t, s.progress⟩
  | none => s

/-- The first step of a task; for a manual refresh it mirrors src/src/routes/system/origins.rs:46-62 -/
def Traffic.begin (s : Traffic) (i : Nat) : Traffic :=
  match tasks i with
  | .background _ => s.to i (if app.originRefresh.isSome then .refreshing else .done none)
  | .http (.render request) =>
    s.to i (.rendering (render deps app.renderGateway bodyLimitBytes request))
  | .http (.snapshot originId) =>
    s.to i (.done (some (getOriginSnapshot s.calls.world.originRuntime originId)))
  | .http (.sync _ headers) =>
    match authorizeManualSync config headers with
    | .error response => s.to i (.done (some response))
    | .ok _ =>
      if app.originRefresh.isSome then s.to i .refreshing
      else s.to i (.done (some (errorResponse .serviceUnavailable "origin_sync_unavailable".toList
        "origin refresh service is not available".toList)))

def takeMove (s : Traffic) : Move → Traffic
  | .next i =>
    match s.progress i with
    | .waiting => s.begin deps app config bodyLimitBytes tasks i
    | .rendering (.ret response) => s.to i (.done (some (.rendered response)))
    | .rendering (.fail _) => s.to i (.done none)
    | .rendering (.op o k) =>
      let r := gatewayStep deps.toDeps env (hooks i) o s.calls.world
      ⟨⟨r.2, s.calls.state⟩,
        Function.update s.progress i (r.1.elim (.done none) fun answer => .rendering (k answer))⟩
    | .refreshing =>
      match s.calls.state i with
      | .done result => s.to i (.done (syncReply result))
      | _ => s.turn deps env app tasks (.next i)
    | .done _ => s
  | .drop i =>
    match s.progress i with
    | .refreshing => s.turn deps env app tasks (.drop i)
    | .done _ => s
    | _ => s.to i (.done none)

def takeMoves (s : Traffic) (moves : List Move) : Traffic :=
  moves.foldl (takeMove deps env hooks app config bodyLimitBytes tasks) s

end

/-- Nothing is under way. -/
def Traffic.start (w : World) : Traffic := ⟨⟨w, fun _ => .waiting⟩, fun _ => .waiting⟩

end RenderMesh.Routes
