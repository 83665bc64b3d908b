import RenderMesh.Mirror.ReadObject

/-!
# Compiling templates

Which objects are templates (`is_html`, `src/src/services/edge_hooks.rs`) and how a
refresh brings an origin's registry up to date from the staged mirror and the
diff (`src/src/services/template_store.rs`). Unchanged keys keep the template they
have. `loadOriginRegistry` builds a registry from a whole mirror.
-/
namespace RenderMesh.Refresh

open RenderMesh.Core RenderMesh.Mirror RenderMesh.Server

/-- `str::split(c).next()`. -/
def beforeChar (c : Char) (s : Str) : Str := s.takeWhile (· != c)

/-- mirrors src/src/services/edge_hooks.rs:64-72 -/
def isHtml (path : Str) (contentType : Option Str) : Bool :=
  match contentType with
  | some contentType => toAsciiLower (trim (beforeChar ';' contentType)) = "text/html".toList
  | none => ".html".toList <:+ toAsciiLower path || ".htm".toList <:+ toAsciiLower path

def unregisterTemplate (registry : Registry) (key : Str) : Registry :=
  Function.update registry key none

section
variable (deps : Deps)

/-- One turn of the loop over the changed keys. -/
def compileTemplate (originId : Str) (mirrorRoot : PathBuf) (mirrorOriginId : Str)
    (registry : Registry) (key : Str) : Async Registry := do
  let object ← readObject deps mirrorRoot mirrorOriginId key
  match object with
  | none => pure (unregisterTemplate registry key)
  | some object =>
    if isHtml key object.metadata.contentType then
      match fromUtf8 object.body with
      | none =>
        .fail ((anyhow (deps.utf8ErrorText object.body)).context
          ("template ".toList ++ originId ++ '/' :: key ++ " is not valid utf-8".toList))
      | some body =>
        match deps.compileTemplate body with
        | .ok _ => pure (Function.update registry key (some body))
        | .error error =>
          .fail ((anyhow error).context
            ("compile template ".toList ++ originId ++ '/' :: key))
    else pure (unregisterTemplate registry key)

/-- mirrors src/src/services/template_store.rs:54-92 -/
def compileTemplateUpdateFromMirror (originId : Str) (mirrorRoot : PathBuf)
    (mirrorOriginId : Str) (diff : OriginFreshnessDiff) : Async Registry := do
  let current ← call (.originTemplates originId)
  let registry := current.getD fun _ => none
  let registry := diff.removed.toList.foldl unregisterTemplate registry
  Prog.fold (compileTemplate deps originId mirrorRoot mirrorOriginId) registry diff.changedPaths

/-! ## From a whole mirror -/

/-- mirrors src/src/services/template_store.rs:179-192 -/
def templateKey (originDir path : PathBuf) : Except Error Str :=
  if components originDir <+: components path then
    let relative := (components path).drop (components originDir).length
    normalizeObjectPath (unsegments (relative.filterMap fun c => match c with
      | .normal part => some part
      | _ => none))
  else .error ((anyhow "prefix not found".toList).context ("template path ".toList ++
    deps.display path ++ " is outside origin dir".toList))

/-- One event of the loop in `mirror_files`. -/
def mirrorFile (originDir : PathBuf) (files : List Str) : WalkEvent Name → Async (List Str)
  | .readDir rel => do
    ioUnlessNotFound (.readDir (joinNames originDir rel))
      ("read mirror dir ".toList ++ deps.display (joinNames originDir rel))
    pure files
  | .entry rel isDir => do
    let path := joinNames originDir rel
    ioTry (.visit path)
    if isDir then pure files
    else do
      let key ← .ofExcept (templateKey deps originDir path)
      pure (files ++ [key])

/-- mirrors src/src/services/template_store.rs:145-177; the walk does not enter the
metadata directory. -/
def mirrorFiles (originDir : PathBuf) : Async (List Str) := do
  let events ← call (.walk originDir fun rel => rel = [metaName])
  Prog.fold (mirrorFile deps originDir) [] events

/-- One turn of the loop of `load_origin_registry`. -/
def loadTemplate (mirrorRoot : PathBuf) (originId : Str) (registry : Registry) (key : Str) :
    Async Registry := do
  let object ← readObject deps mirrorRoot originId key
  match object with
  | none => pure registry
  | some object =>
    if isHtml key object.metadata.contentType then
      match fromUtf8 object.body with
      | none =>
        .fail ((anyhow (deps.utf8ErrorText object.body)).context
          ("template ".toList ++ originId ++ '/' :: key ++ " is not valid utf-8".toList))
      | some body =>
        match deps.compileTemplate body with
        | .ok _ => pure (Function.update registry key (some body))
        | .error error =>
          .fail ((anyhow error).context
            ("compile template ".toList ++ originId ++ '/' :: key))
    else pure registry

/-- mirrors src/src/services/template_store.rs:119-143 -/
def loadOriginRegistry (mirrorRoot : PathBuf) (originId : Str) : Async Registry := do
  let dir ← .ofExcept (originDir mirrorRoot originId)
  let files ← mirrorFiles deps dir
  Prog.fold (loadTemplate deps mirrorRoot originId) (fun _ => none) files

end

end RenderMesh.Refresh
