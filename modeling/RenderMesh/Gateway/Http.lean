import RenderMesh.Dto

/-!
# Requests, responses and hook payloads

The data of the render gateway (`src/src/dto/render.rs`, `src/src/dto/edge.rs`,
`src/src/repositories/edge_http.rs`) with what it uses of the `http` crate, and
`apply_edge_payload` (`src/src/services/edge_hooks.rs`), which decides what a hook's
reply asks for.

A header map is the list that its iterator walks; its names are lower-case.
-/
namespace RenderMesh.Gateway

open RenderMesh.Core

/-! ## `http` -/

inductive Method where
  | get
  | head
  | options
  | other (name : Str)
  deriving DecidableEq, Repr

def Method.asStr : Method → Str
  | .get => "GET".toList
  | .head => "HEAD".toList
  | .options => "OPTIONS".toList
  | .other name => name

/-- A status code is a number of three digits. -/
structure StatusCode where
  code : Nat
  valid : 100 ≤ code ∧ code < 1000
  deriving DecidableEq, Repr

namespace StatusCode

/-- `StatusCode::from_u16`. -/
def fromU16 (code : Nat) : Except Error StatusCode :=
  if h : 100 ≤ code ∧ code < 1000 then .ok ⟨code, h⟩
  else .error (anyhow "invalid status code".toList)

def ok : StatusCode := ⟨200, by decide⟩
def noContent : StatusCode := ⟨204, by decide⟩
def found : StatusCode := ⟨302, by decide⟩
def notFound : StatusCode := ⟨404, by decide⟩
def methodNotAllowed : StatusCode := ⟨405, by decide⟩
def unsupportedMediaType : StatusCode := ⟨415, by decide⟩
def misdirectedRequest : StatusCode := ⟨421, by decide⟩
def internalServerError : StatusCode := ⟨500, by decide⟩
def badGateway : StatusCode := ⟨502, by decide⟩
def gatewayTimeout : StatusCode := ⟨504, by decide⟩

theorem fromU16_ok {code : Nat} (h : 100 ≤ code ∧ code < 1000) : fromU16 code = .ok ⟨code, h⟩ :=
  dif_pos h

end StatusCode

abbrev HeaderMap := List (Str × Bytes)

/-- `HeaderValue::to_str`: visible ASCII, and tabs. -/
def headerToStr (value : Bytes) : Option Str :=
  if value.all fun b => (32 ≤ b.toNat && b.toNat < 127) || b.toNat == 9 then
    some (value.map fun b => Char.ofNat b.toNat)
  else none

/-- `BTreeMap<String, String>`. -/
abbrev Headers := Std.TreeMap Str Str

/-! ## Requests and responses -/

structure RenderRequest where
  method : Method
  host : Str
  path : Str
  query : Option Str
  scheme : Str
  clientIp : Option Str
  headers : HeaderMap
  body : Bytes
  deriving DecidableEq, Repr

structure RenderResponse where
  status : StatusCode
  headers : Headers
  body : Bytes

/-- mirrors src/src/dto/render.rs:26-32 -/
def RenderResponse.empty (status : StatusCode) : RenderResponse := ⟨status, ∅, []⟩

/-! ## Edge hooks -/

/-- `serde_json::Value`. -/
inductive Value where
  | null
  | bool (b : Bool)
  | number (n : Str)
  | string (s : Str)
  | array (items : List Value)
  | object (fields : List (Str × Value))

structure EdgeHookContext where
  bucket : Str
  ip : Option Str
  origin : Str
  edgeContext : Option Value

structure EdgeHookHttpRequest where
  url : Str
  path : Str
  querystring : Str
  queryparams : Headers
  method : Str
  headers : Headers
  body : Str

structure EdgeHookRequest where
  context : EdgeHookContext
  request : EdgeHookHttpRequest

structure EdgeHookPayload where
  headers : Headers
  body : Option Str
  filePath : Option Str
  params : Option Value

structure EdgeHttpResponse where
  status : StatusCode
  payload : EdgeHookPayload

/-- What a call of a hook fails with: a `reqwest` timeout, or anything else. -/
inductive EdgeHttpError where
  | timeout
  | other
  deriving DecidableEq, Repr

structure EdgeChainState where
  headers : Headers

inductive EdgePayloadOutcome where
  | continue_
  | respondDirect (status : StatusCode) (body : Str)
  | serveFile (status : StatusCode) (filePath : Str) (params : Option Value)
  | renderTarget (status : StatusCode) (params : Value)

/-- `str::contains("..")`. -/
def containsDots : Str → Bool
  | [] => false
  | c :: s => ['.', '.'] <+: c :: s || containsDots s

/-- mirrors src/src/services/edge_hooks.rs:56-62 -/
def validateEdgeFilePath (path : Str) : Except Error Unit :=
  if path.head? ≠ some '/' ∨ path.any isControl ∨ containsDots path then
    .error (anyhow ("invalid file_path ".toList ++ path))
  else .ok ()

/-- `BTreeMap::extend`. -/
def extendHeaders (target headers : Headers) : Headers :=
  headers.foldl (fun target name value => target.insert name value) target

/-- The outcome of a payload, before its headers are taken over. -/
def payloadOutcome (status : StatusCode) (payload : EdgeHookPayload) :
    Except Error EdgePayloadOutcome :=
  match payload.body, payload.filePath, payload.params with
  | some body, _, _ => .ok (.respondDirect status body)
  | none, some filePath, params => do
    validateEdgeFilePath filePath
    .ok (.serveFile status filePath params)
  | none, none, some params => .ok (.renderTarget status params)
  | none, none, none => .ok .continue_

/-- mirrors src/src/services/edge_hooks.rs:32-54 -/
def applyEdgePayload (state : EdgeChainState) (status : StatusCode) (payload : EdgeHookPayload) :
    Except Error (EdgePayloadOutcome × EdgeChainState) := do
  let outcome ← payloadOutcome status payload
  .ok (outcome, ⟨extendHeaders state.headers payload.headers⟩)

end RenderMesh.Gateway
