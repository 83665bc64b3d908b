import RenderMesh.Gateway.Scene

/-!
# Nothing is read outside an origin's directory

Request paths, rewritten paths, hook file paths and missing pages all come to the mirror as
texts, and remote keys to the sync service. Whatever these texts are, the file paths made from
them are in the origin's directory (`paths_stay_inside`), and so is what a request opens.
-/
namespace RenderMesh.Gateway

open RenderMesh.Core RenderMesh.Mirror RenderMesh.Server RenderMesh.Domains

/-- The operation opens a file in the directory, or none. -/
def OpensIn (dir : PathBuf) : Op → Prop
  | .fs (.read p) | .fs (.metadata p) => Inside dir p
  | _ => False

def GatewayOp.OpensIn (dir : PathBuf) : GatewayOp → Prop
  | .server o => Gateway.OpensIn dir o
  | _ => True

theorem GatewayOp.LooksIn.opensIn {id : Str} {o : GatewayOp} (ho : o.LooksIn id) : o.OpensIn id := by
  cases o with
  | server o =>
    cases o with
    | fs o =>
      cases o with
      | read p => exact ho.2.2
      | metadata p => exact ho.2.2
      | _ => exact ho
    | _ => exact ho
  | _ => trivial

/-- Every path that the mirror or the sync service makes from a text is in the origin's directory,
and a request opens no other. -/
theorem paths_stay_inside :
    (∀ (root : PathBuf) (id path : Str) (p : PathBuf), objectPath root id path = .ok p →
      Inside (child root id) p ∧ ∃ n, normalizeObjectPath path = .ok n ∧ p = pathJoin (child root id) n) ∧
    (∀ (deps : Deps) (root : PathBuf) (id path : Str),
      (Mirror.readObject deps root id path).Uses (OpensIn (child root id))) ∧
    (∀ (deps : Deps) (dir : PathBuf) (key : Str) (p : PathBuf), dir ≠ [] →
      metadataSidecarPath deps dir key = .ok p → Inside dir p) ∧
    (∀ (dir : PathBuf) (key : Str) (p : PathBuf), dir ≠ [] →
      remoteObjectPath dir key = .ok p → Inside dir p) ∧
    ∀ (deps : GatewayDeps) (service : RenderGatewayService) (request : RenderRequest)
      (resolved : ResolvedHost), service.resolver.resolve request.host = some resolved →
      (service.handle deps request).Uses (GatewayOp.OpensIn (child storeRoot resolved.originId)) := by
  refine ⟨fun _ _ _ _ => objectPath_inside, ?_, fun _ _ _ _ => metadataSidecarPath_inside,
    fun _ _ _ => remoteObjectPath_inside, ?_⟩
  · intro deps root id path
    exact readObject_uses deps path fun _ p _ hinside => hinside
  · intro deps service request resolved hres
    exact (handle_looksIn deps hres).mono fun _ ho => ho.opensIn

/-- A path with slashes before it and a dot in it. -/
theorem paths_stay_inside_page : Inside "web".toList "web/a/./b.html".toList :=
  (paths_stay_inside.1 storeRoot "web".toList " //a/./b.html".toList _ rfl).1

end RenderMesh.Gateway
