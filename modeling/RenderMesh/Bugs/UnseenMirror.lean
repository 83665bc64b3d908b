import RenderMesh.Refresh.Reload

/-!
# A mirror that the staging does not see

Behaviour (`src/src/repositories/sync.rs:248-256`): `prepare_staging_dir` asks for the metadata of
the active mirror and takes every error for a mirror that is not there. The staging then begins
with an empty directory, and the files of the unchanged keys are not fetched again. The refresh
returns Ok; the registry still has the templates of these keys, and the mirror has no bodies.

Documented (`docs/superpowers/specs/2026-05-22-origin-freshness-index-design.md`): "Mirror files,
edge config, freshness index, and templates activate as one generation", and "Refresh failures
never expose a partially updated origin".

Counterexample: the second refresh of an origin with the one page `a` cannot look at its mirror. It
returns Ok, the mirror is empty, and the registry has the template of `a`
(`second_refresh_keeps_template`).

Condition: `incremental_eq_load`. In a run in which no such question about a mirror that is there
fails, the registry in the store is after every Ok the one that a load of the mirror computes.
-/
namespace RenderMesh.Bugs.UnseenMirror

open RenderMesh.Core RenderMesh.Mirror RenderMesh.Server RenderMesh.Refresh

/-- No failure of the file system stops the next refresh of `id` half way through its swap. -/
def SwapsWhole (deps : Deps) (env : Env) (service : OriginRefreshService) (id : Str) (w : World) :
    Prop :=
  ∀ e ∈ trace (step deps env) (pipeline deps service id) (w.lock id),
    tearsMirror env id (w.fs.lookup (names id)).isSome e.1 e.2 = false

/-- The next refresh of `id` finds its mirror when it looks for it, if it is there. -/
def SeesMirror (deps : Deps) (env : Env) (service : OriginRefreshService) (id : Str) (w : World) :
    Prop :=
  ∀ e ∈ trace (step deps env) (pipeline deps service id) (w.lock id), probeFails env id e.1 e.2 = false

/-- After the refresh that led from `w` to `w'` the active registry has exactly the listed HTML keys,
each compiled from the mirror's body, and is what a load of the mirror computes. -/
def StoresRegistry (deps : Deps) (env : Env) (id : Str) (w w' : World) : Prop :=
  ∃ index registry, Listed (fun _ _ => False) env id index w.clock w'.clock ∧
    w'.templates id = some registry ∧ RegistryOf deps index (w'.under id) registry ∧
    ∀ env', Healthy env' → ∃ w1,
      run (step deps env') (loadOriginRegistry deps storeRoot id) w' = (.ok registry, w1)

/-- The store of an origin after a run of refreshes from empty stores: after each Ok the
registry of its mirror, as a load would build it; after a rejection what was there. -/
theorem incremental_eq_load (deps : Deps) (env : Env) (service : OriginRefreshService) (id : Str)
    (fs : Tree) (hkeys : ∀ k, WasListed env id k → Canonical k)
    (hhash : ∀ k k', WasListed env id k → WasListed env id k' →
      deps.sha256 (utf8 k) = deps.sha256 (utf8 k') → k = k') (n : Nat)
    (hswaps : ∀ i, i ≤ n → SwapsWhole deps env service id (refreshes deps env service id fs i))
    (hsees : ∀ i, i ≤ n → SeesMirror deps env service id (refreshes deps env service id fs i)) :
    (∀ response, (refreshOrigin deps env service id (refreshes deps env service id fs n)).1 =
        .ok response →
      StoresRegistry deps env id (refreshes deps env service id fs n)
        (refreshes deps env service id fs (n + 1))) ∧
    ∀ staged w1 w2 e,
      run (step deps env) (stageOriginSync deps id
          ((refreshes deps env service id fs n).freshnessIndexes id))
        ((refreshes deps env service id fs n).lock id).tick = (.ok staged, w1) →
      run (step deps env) (prepareActivation deps id
          ((refreshes deps env service id fs n).freshnessIndexes id) staged
          (service.activationBarrier id)) w1 = (.err e, w2) →
      (refreshes deps env service id fs (n + 1)).templates id =
        (refreshes deps env service id fs n).templates id := by
  have hcalm : ∀ i, i ≤ n → Undisturbed deps env service id (refreshes deps env service id fs i) :=
    fun i hi => ⟨hswaps i hi, hsees i hi⟩
  have hinv := registered_refreshes hkeys hhash n fun i hi => hcalm i (Nat.le_of_lt hi)
  obtain ⟨hafter, hok⟩ := registered_step hkeys hhash hinv (hcalm n (Nat.le_refl n))
  refine ⟨fun response hr => ?_, fun staged w1 w2 e h1 h2 => ?_⟩
  · obtain ⟨hid, index, hindex, hlisted⟩ := hok response hr
    have hactive := hafter.active index hindex
    obtain ⟨registry, hregistry, hreg⟩ := hactive.registry
    refine ⟨index, registry, hlisted, hregistry, hreg, fun env' henv => ?_⟩
    obtain ⟨loaded, w', hload, hsome⟩ := loadOriginRegistry_returns henv hid hactive
      fun k hk => hkeys k (hactive.listed k hk)
    rw [hregistry] at hsome
    cases hsome
    exact ⟨w', hload⟩
  · exact congrFun (rejected_templates h1 h2) id

/-! ## One page -/

/-- The storage with one page, on a disk that gives no metadata of the mirror when the second refresh first asks
for it. -/
def unseen : Env :=
  { page with fault := fun t o => if t = 43 ∧ o = .metadata "web".toList then .fail .none else .none }

/-- The state after `n` refreshes. -/
def paged (env : Env) (n : Nat) : World :=
  refreshes smallDeps env plainService "web".toList FileTree.empty n

theorem page_listed {env : Env} (h : env.listObjects = page.listObjects) {k : Str}
    (hk : WasListed env "web".toList k) : k = "a".toList := by
  obtain ⟨t, summaries, hlist, s, hs, rfl⟩ := hk
  rw [h] at hlist
  cases hlist
  rw [List.mem_singleton.mp hs]

/-- On a disk that answers, the page is in the registry after the second refresh, in which it is
found unchanged. -/
theorem incremental_eq_load_page :
    (∃ response, (refreshOrigin smallDeps page plainService "web".toList (paged page 1)).1 =
      .ok response) ∧
    ((paged page (1 + 1)).templates "web".toList).map (fun registry => registry "a".toList) =
      some (some "A".toList) ∧
    StoresRegistry smallDeps page "web".toList (paged page 1) (paged page (1 + 1)) := by
  have hok : (refreshOrigin smallDeps page plainService "web".toList (paged page 1)).1.ok?.isSome =
      true := by decide +kernel
  have hsteps : ∀ i ∈ [0, 1], ∀ e ∈ trace (step smallDeps page) (pipeline smallDeps plainService
      "web".toList) ((paged page i).lock "web".toList),
      tearsMirror page "web".toList ((paged page i).fs.lookup (names "web".toList)).isSome e.1 e.2 =
        false ∧ probeFails page "web".toList e.1 e.2 = false := by decide +kernel
  have hpage : ((paged page (1 + 1)).templates "web".toList).map (fun registry => registry "a".toList) =
      some (some "A".toList) := by decide +kernel
  obtain ⟨response, hr⟩ := Outcome.ok?_isSome.mp hok
  have hcanon : Canonical "a".toList :=
    ⟨by decide, by decide, no_control_of_all (by decide), by decide⟩
  have hmem : ∀ i, i ≤ 1 → i ∈ [0, 1] := fun i hi => by
    rcases Nat.le_one_iff_eq_zero_or_eq_one.mp hi with rfl | rfl <;> simp
  refine ⟨⟨response, hr⟩, hpage, ?_⟩
  unfold paged at hr hsteps ⊢
  exact (incremental_eq_load smallDeps page plainService "web".toList FileTree.empty
    (fun k hk => page_listed rfl hk ▸ hcanon)
    (fun k k' hk hk' _ => (page_listed rfl hk).trans (page_listed rfl hk').symm) 1
    (fun i hi e he => (hsteps i (hmem i hi) e he).1)
    (fun i hi e he => (hsteps i (hmem i hi) e he).2)).1 response hr

/-- The registry of a mirror without the listed page would have to compile its body. -/
theorem not_stores {w w' : World} (hgone : w'.under "web".toList (names "a".toList) = none) :
    ¬ StoresRegistry smallDeps unseen "web".toList w w' := by
  rintro ⟨index, registry, ⟨wl, summaries, now, -, -, -, hlist, hb⟩, -, hreg, -⟩
  cases hlist
  have hmem : "a".toList ∈ index.files :=
    (mem_files_iff hb "a".toList).mpr ⟨_, List.mem_singleton_self _, rfl⟩
  obtain ⟨body, metadata, hbody, -⟩ := (hreg "a".toList).1 hmem
  rw [hgone] at hbody
  cases hbody

/-- **Counterexample**: no activation fails, the second refresh returns Ok, and the registry has the
template of a page that the mirror does not have. -/
theorem second_refresh_keeps_template :
    (∀ i ∈ [0, 1], SwapsWhole smallDeps unseen plainService "web".toList (paged unseen i)) ∧
    ((paged unseen (1 + 1)).templates "web".toList).map (fun registry => registry "a".toList) =
      some (some "A".toList) ∧
    (paged unseen (1 + 1)).under "web".toList (names "a".toList) = none ∧
    ∃ response, (refreshOrigin smallDeps unseen plainService "web".toList (paged unseen 1)).1 =
        .ok response ∧
      ¬ StoresRegistry smallDeps unseen "web".toList (paged unseen 1) (paged unseen (1 + 1)) := by
  have hok : (refreshOrigin smallDeps unseen plainService "web".toList (paged unseen 1)).1.ok?.isSome =
      true := by decide +kernel
  have hswaps : ∀ i ∈ [0, 1], ∀ e ∈ trace (step smallDeps unseen) (pipeline smallDeps plainService
      "web".toList) ((paged unseen i).lock "web".toList),
      tearsMirror unseen "web".toList ((paged unseen i).fs.lookup (names "web".toList)).isSome e.1
        e.2 = false := by decide +kernel
  have hpage : ((paged unseen (1 + 1)).templates "web".toList).map (fun registry => registry "a".toList) =
      some (some "A".toList) := by decide +kernel
  have hgone : (paged unseen (1 + 1)).under "web".toList (names "a".toList) = none := by decide +kernel
  obtain ⟨response, hr⟩ := Outcome.ok?_isSome.mp hok
  exact ⟨hswaps, hpage, hgone, response, hr, not_stores hgone⟩

end RenderMesh.Bugs.UnseenMirror
