import RenderMesh.Server.Async

/-!
# CDN refresh after an activation

What a refresh asks its CDN to purge (`src/src/services/cdn_refresh.rs`): nothing
when nothing changed, everything, or the changed paths, as paths or as full URLs.
-/
namespace RenderMesh.Cdn

open RenderMesh.Core RenderMesh.Refresh RenderMesh.Server

/-- mirrors src/src/services/cdn_refresh.rs:224-230 -/
def formatCdnPath (path : Str) : Str := if path.head? = some '/' then path else '/' :: path

/-- mirrors src/src/services/cdn_refresh.rs:232-234 -/
def formatUrl (prefix_ path : Str) : Str := trimEndSlashes prefix_ ++ formatCdnPath path

/-- mirrors src/src/services/cdn_refresh.rs:208-218 -/
def changedPaths (diff : OriginFreshnessDiff) : List Str :=
  (Std.TreeSet.ofList ((diff.added.toList ++ diff.modified.toList ++
    diff.removed.toList).map formatCdnPath)).toList

/-- mirrors src/src/services/cdn_refresh.rs:220-222 -/
def diffChangedCount (diff : OriginFreshnessDiff) : Nat :=
  diff.added.size + diff.modified.size + diff.removed.size

/-- mirrors src/src/services/cdn_refresh.rs:168-198 -/
def buildCdnRefreshPlan (strategy : CdnRefreshStrategy) (diff : OriginFreshnessDiff)
    (urlPrefixes : List Str) : Option CdnRefreshPlan :=
  let paths := changedPaths diff
  if paths = [] then none
  else match strategy with
    | .all => some ⟨.all, paths.length⟩
    | .changedPaths =>
      if urlPrefixes = [] then some ⟨.paths paths, diffChangedCount diff⟩
      else some ⟨.urls (urlPrefixes.flatMap fun pre => paths.map fun path => formatUrl pre path),
        diffChangedCount diff⟩

def Changed (diff : OriginFreshnessDiff) (k : Str) : Prop :=
  k ∈ diff.added ∨ k ∈ diff.modified ∨ k ∈ diff.removed

theorem mem_changedPaths_cdn (diff : OriginFreshnessDiff) (path : Str) :
    path ∈ changedPaths diff ↔ ∃ k, Changed diff k ∧ formatCdnPath k = path := by
  simp only [changedPaths, Std.TreeSet.mem_toList, Std.TreeSet.mem_ofList, List.contains_iff_mem,
    List.mem_map, List.mem_append, Changed, or_assoc]

theorem plan_none_iff (cdn : OriginCdnRefresh) (diff : OriginFreshnessDiff) :
    buildCdnRefreshPlan cdn.strategy diff cdn.urlPrefixes = none ↔ ∀ k, ¬ Changed diff k := by
  have hempty : changedPaths diff = [] ↔ ∀ k, ¬ Changed diff k := by
    rw [List.eq_nil_iff_forall_not_mem]
    simp only [mem_changedPaths_cdn]
    constructor
    · exact fun h k hk => h (formatCdnPath k) ⟨k, hk, rfl⟩
    · rintro h path ⟨k, hk, -⟩
      exact h k hk
  rw [← hempty]
  unfold buildCdnRefreshPlan
  by_cases h : changedPaths diff = []
  · simp [h]
  · simp only [h, if_false, iff_false]
    cases cdn.strategy with
    | all => simp
    | changedPaths =>
      simp only
      split <;> simp

/-- `Display` of a `CdnPurgeFailure`; mirrors src/src/repositories/cdn.rs:44-56 -/
def showPurgeFailure (f : CdnFailure) : Str :=
  if f.requestIds = [] then f.message
  else f.message ++ "; completed invalidation request ids: [".toList ++
    ", ".toList.intercalate f.requestIds ++ "]".toList

/-- mirrors src/src/services/cdn_refresh.rs:153-166 -/
def translatePurgeError : CdnPurgeError → Error
  | .failure f => ⟨showPurgeFailure f, [], some { f with message := showPurgeFailure f }⟩
  | .other e => e

/-- mirrors src/src/services/cdn_refresh.rs:123-150 -/
def refreshAfterActivation (cdn : OriginCdnRefresh) (originId : Str) (generation : Nat)
    (diff : OriginFreshnessDiff) : Async (Option CdnRefreshOutcome) :=
  match buildCdnRefreshPlan cdn.strategy diff cdn.urlPrefixes with
  | none => pure none
  | some plan => do
    let r ← call (.purge ⟨originId, generation, plan.mode⟩)
    match r with
    | .error error => .fail (translatePurgeError error)
    | .ok result =>
      pure (some ⟨result.provider, result.requestIds, result.status, result.submittedItems,
        plan.changedCount⟩)

end RenderMesh.Cdn
