import RenderMesh.Refresh.Stops

/-!
# An activation that stops half way

Behaviour (`src/src/repositories/sync.rs:290-323`,
`src/src/services/origin_refresh.rs:347-358`): the swap renames the old mirror to a
backup, renames the staging directory to the mirror and removes the backup; only
then are the edge configuration, the templates, the index and the snapshot
replaced, and the CDN asked for a purge. Nothing puts the old mirror back except
the code after a failed second rename, and nothing undoes the stores. When the
future is dropped after the first rename the origin has no mirror at all; when
the backup cannot be removed, or the future is dropped there, the new mirror is
served with the old stores; when it is dropped at the purge everything is new and
the call still did not return.

Documented: "Failed refreshes keep the previous generation active" and, on a
snapshot activation failure, "keep or restore previous snapshot".

Counterexample: one refresh of `web` activates `a`; the second is dropped when
the rename of the old mirror has run, as the manual sync route does when its
client disconnects (`second_refresh_loses_mirror`).

Condition: `failed_refresh_untouched`. A refresh that does not return and has
no step that `tears` names leaves the mirror, the edge configuration, the
templates, the index and the snapshot of its origin as they were.
-/
namespace RenderMesh.Bugs.TornActivation

open RenderMesh.Core RenderMesh.Mirror RenderMesh.Server RenderMesh.Refresh

/-- Holds from every state of the server, for every storage, fault and stop. -/
theorem failed_refresh_untouched (deps : Deps) (env : Env) (id : Str)
    (cdn : Option OriginCdnRefresh) (barrier : Option Str) (w : World)
    (hstop : ∀ response,
      (run (step deps env) (refreshOriginSnapshot deps id cdn barrier) w).1 ≠ .ok response)
    (hsteps : ∀ e ∈ trace (step deps env) (refreshOriginSnapshot deps id cdn barrier) w,
      tears env id (w.fs.lookup (names id)).isSome e.1 e.2 = false) :
    Untouched id w (run (step deps env) (refreshOriginSnapshot deps id cdn barrier) w).2 :=
  by
  have hends := @refreshOriginSnapshot_kept deps env id
    (fun o w' => tears env id (w.fs.lookup (names id)).isSome o w' = true) w
    (fun o w' h => by rw [tears, h, Bool.true_or]) cdn barrier
  rcases ends_iff.mp hends (fun e he => by rw [hsteps e he]; simp) with ⟨hout, -⟩ | ⟨-, hkept⟩
  · rcases hout with ⟨r, hr⟩ | ⟨-, o, w', hdrop, hnot⟩
    · exact absurd hr (hstop r)
    · exact absurd (by rw [tears, hdrop, Bool.or_true]) hnot
  · exact hkept.untouched

/-- A storage whose one object grows. -/
def growing : Env :=
  { calmEnv with
    listObjects := fun t _ => .ok [⟨"a".toList, none, none, none, if t < 40 then 1 else 2, none, none⟩]
    getObject := fun t _ key =>
      .ok ⟨key, if t < 40 then [65] else [65, 66], none, none, none, none⟩ }

/-- The state after one refresh of it. -/
def short : World :=
  (refreshOrigin smallDeps growing plainService "web".toList (World.start FileTree.empty)).2

/-- The next refresh, which is to find a barrier `b` among the objects. -/
def barred : Outcome Error OriginSyncResponse × World :=
  run (step smallDeps growing) (refreshOriginSnapshot smallDeps "web".toList none (some "b".toList)) short

/-- What a call writes to a file. -/
def written : Op → Option Bytes
  | .fs (.write _ contents) => some contents
  | _ => none

/-- It stages the grown object, finds no barrier and leaves the mirror. -/
theorem failed_refresh_untouched_barred :
    short.fs.lookup (names "web/a".toList) = some (.file [65]) ∧
    barred.1 = .err (anyhow "origin web activation barrier b is missing".toList) ∧
    (∃ e ∈ trace (step smallDeps growing) (refreshOriginSnapshot smallDeps "web".toList none
        (some "b".toList)) short, written e.1 = some [65, 66]) ∧
    Untouched "web".toList short barred.2 := by
  have hrun : barred.1 = .err (anyhow "origin web activation barrier b is missing".toList) := by
    decide +kernel
  have hsteps : ∀ e ∈ trace (step smallDeps growing) (refreshOriginSnapshot smallDeps "web".toList none
        (some "b".toList)) short,
      tears growing "web".toList (short.fs.lookup (names "web".toList)).isSome e.1 e.2 = false := by
    decide +kernel
  refine ⟨by decide +kernel, hrun, by decide +kernel, ?_⟩
  unfold barred at hrun ⊢
  exact failed_refresh_untouched smallDeps growing "web".toList none (some "b".toList) short
    (fun response => by rw [hrun]; simp) hsteps

/-- One object `a`, and a caller that goes away when the old mirror of `web` has
been moved to its backup. -/
def leaving : Env :=
  { calmEnv with
    fault := fun _ o =>
      if o = .rename "web".toList (backupPath "web".toList 0) then .drop true .none else .none
    listObjects := fun _ _ => .ok [⟨"a".toList, none, none, none, 1, none, none⟩]
    getObject := fun _ _ key => .ok ⟨key, [65], none, none, none, none⟩ }

/-- The state after one refresh. -/
def activated : World :=
  (refreshOrigin smallDeps leaving plainService "web".toList (World.start FileTree.empty)).2

/-- **Counterexample**: the first refresh activated `a`, the second is dropped
and leaves no mirror. -/
theorem second_refresh_loses_mirror :
    activated.fs.lookup (names "web/a".toList) = some (.file [65]) ∧
    (run (step smallDeps leaving) (refreshOriginSnapshot smallDeps "web".toList none none)
      activated).1 = .dropped ∧
    (run (step smallDeps leaving) (refreshOriginSnapshot smallDeps "web".toList none none)
      activated).2.fs.lookup (names "web".toList) = none ∧
    ¬ Untouched "web".toList activated (run (step smallDeps leaving)
      (refreshOriginSnapshot smallDeps "web".toList none none) activated).2 := by
  have h1 : activated.fs.lookup (names "web/a".toList) = some (.file [65]) := by decide +kernel
  have h2 : (run (step smallDeps leaving) (refreshOriginSnapshot smallDeps "web".toList none none)
      activated).2.fs.lookup (names "web/a".toList) = none := by decide +kernel
  refine ⟨h1, by decide +kernel, by decide +kernel, fun h => ?_⟩
  have := h.mirror (names "web/a".toList) (by decide)
  rw [h1, h2] at this
  cases this

end RenderMesh.Bugs.TornActivation
