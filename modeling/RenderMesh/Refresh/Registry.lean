import RenderMesh.Refresh.Healthy
import RenderMesh.Refresh.Config

/-!
# The registry of a generation

A refresh compiles the changed keys only and keeps the rest of the registry it
finds. `TemplateOf` is what a mirror makes of one key, `RegistryOf` what it makes of
all listed keys. The invariant `Registered` carries it from one activation to the
next, together with what the stored index says of the mirror's files.

* `compileTemplateUpdate_ok`: the registry after an update, key by key.
* `Refreshed.registered`: an activation keeps the invariant.
* `loadOriginRegistry_returns`: a load of the whole mirror gives the same registry.
-/
namespace RenderMesh.Refresh

open RenderMesh.Core RenderMesh.Mirror RenderMesh.Server

variable {deps : Deps} {env : Env}

/-- What the mirror makes of the key of one of its files: a template that compiles,
or none when the object is not HTML. -/
def TemplateOf (deps : Deps) (mirror : List Name → Option (Node Bytes)) (key : Str)
    (template : Option Str) : Prop :=
  ∃ body metadata, mirror (names key) = some (.file body) ∧
    MetadataAt deps (mirror (sidecarNames deps key)) metadata ∧
    ClearWay mirror (sidecarNames deps key) ∧
    (isHtml key metadata.contentType = true → ∃ content, fromUtf8 body = some content ∧
      deps.compileTemplate content = .ok () ∧ template = some content) ∧
    (isHtml key metadata.contentType = false → template = none)

/-- The registry that a mirror makes of the keys in `index`. -/
def RegistryOf (deps : Deps) (index : OriginFreshnessIndex)
    (mirror : List Name → Option (Node Bytes)) (registry : Registry) : Prop :=
  ∀ k, (k ∈ index.files → TemplateOf deps mirror k (registry k)) ∧
    (k ∉ index.files → registry k = none)

/-! ## One update -/

theorem foldl_unregisterTemplate (l : List Str) (registry : Registry) (k : Str) :
    l.foldl unregisterTemplate registry k = if k ∈ l then none else registry k := by
  induction l generalizing registry with
  | nil => rfl
  | cons x l ih =>
    rw [List.foldl_cons, ih]
    by_cases hx : k = x
    · subst hx
      simp [unregisterTemplate]
    · simp [unregisterTemplate, hx]

/-- One turn of a compile loop sets the template of its key. -/
theorem compileTemplate_ok {id mid key : Str} {root : PathBuf} {registry registry' : Registry}
    {w w' : World} (hkey : Canonical key) {b : Bytes}
    (hfile : w.under (child root mid) (names key) = some (.file b))
    (h : run (step deps env) (compileTemplate deps id root mid registry key) w = (.ok registry', w')) :
    ∃ template, registry' = Function.update registry key template ∧
      TemplateOf deps (w.under (child root mid)) key template := by
  obtain ⟨object, w1, h1, h2⟩ := run_bind_ok _ |>.mp h
  obtain ⟨n, m, hn, hm, hobject⟩ := readObject_ok h1
  rw [hkey.normalized] at hn
  cases hn
  rw [hkey.normalized] at hm
  cases hm
  cases object with
  | none =>
    rw [hfile] at hobject
    cases hobject.1
  | some object =>
    obtain ⟨hbody, hmeta, hclear⟩ := hobject
    simp only at h2
    split at h2
    · rename_i hhtml
      cases hu : fromUtf8 object.body with
      | none => rw [hu] at h2; cases h2
      | some content =>
        rw [hu] at h2
        simp only at h2
        cases hc : deps.compileTemplate content with
        | error e => rw [hc] at h2; cases h2
        | ok u =>
          rw [hc] at h2
          cases h2
          exact ⟨some content, rfl, object.body, object.metadata, hbody, hmeta, hclear,
            fun _ => ⟨content, hu, hc, rfl⟩, fun hno => by rw [hhtml] at hno; cases hno⟩
    · rename_i hhtml
      cases h2
      exact ⟨none, rfl, object.body, object.metadata, hbody, hmeta, hclear,
        fun hyes => absurd hyes hhtml, fun _ => rfl⟩

/-- The registry after an update: changed keys have what the mirror makes of them,
removed keys nothing, and all others what they had. -/
theorem compileTemplateUpdate_ok {id mid : Str} {root : PathBuf} {diff : OriginFreshnessDiff}
    {registry : Registry} {w w' : World}
    (hkeys : ∀ k ∈ diff.changedPaths, Canonical k ∧
      ∃ b, w.under (child root mid) (names k) = some (.file b))
    (h : run (step deps env) (compileTemplateUpdateFromMirror deps id root mid diff) w =
      (.ok registry, w')) (k : Str) :
    (k ∈ diff.changedPaths → TemplateOf deps (w.under (child root mid)) k (registry k)) ∧
    (k ∉ diff.changedPaths → registry k =
      if k ∈ diff.removed then none else (w.templates id).bind fun r => r k) := by
  obtain ⟨current, w1, h1, h2⟩ := run_bind_ok _ |>.mp h
  cases h1
  have hloop := run_fold_ok _
    (fun done rest registry' w' => (∀ k ∈ rest, k ∈ diff.changedPaths) ∧
      (∀ q, w'.fs.lookup q = w.fs.lookup q) ∧
      ∀ k, (k ∈ done → TemplateOf deps (w.under (child root mid)) k (registry' k)) ∧
        (k ∉ done → registry' k =
          if k ∈ diff.removed then none else (w.templates id).bind fun r => r k))
    ?_ _ [] _ _ _ _ ⟨fun k hk => hk, fun q => rfl, fun k => ⟨(by simp), fun _ => ?_⟩⟩ h2
  · obtain ⟨-, -, hregistry⟩ := hloop
    simpa using hregistry k
  · rintro done x rest r w1 r' w2 ⟨hrest, hsame, hr⟩ hrun
    have hunder : w1.under (child root mid) = w.under (child root mid) := funext fun p => hsame _
    obtain ⟨hx, b, hb⟩ := hkeys x (hrest x (by simp))
    obtain ⟨template, rfl, ht⟩ := compileTemplate_ok hx (hunder ▸ hb) hrun
    rw [hunder] at ht
    have hreads := (run_reads deps env (compileTemplate_reads deps id root mid r x) w1).2
    rw [hrun] at hreads
    refine ⟨fun k hk => hrest k (by simp [hk]), fun q => (hreads q).trans (hsame q), fun k => ?_⟩
    by_cases hk : k = x
    · subst hk
      simpa using ht
    · simpa [hk, Function.update_of_ne hk] using hr k
  · rw [foldl_unregisterTemplate]
    simp only [Std.TreeSet.mem_toList]
    cases w.templates id with
    | none => rfl
    | some r => rfl

/-! ## One activation -/

/-- The active registry of `id` is that of its mirror for `index`, whose keys were
listed and have the mirror's files. -/
structure ActiveRegistry (deps : Deps) (env : Env) (id : Str) (index : OriginFreshnessIndex)
    (w : World) : Prop where
  listed : ∀ k ∈ index.files, WasListed env id k
  top : w.under id [] = some .dir
  metadataDir : ∀ b, w.under id [metaName] ≠ some (.file b)
  files : ∀ r b, r ≠ [] → r.head? ≠ some metaName → w.under id r = some (.file b) →
    ∃ k ∈ index.files, r = names k
  registry : ∃ registry, w.templates id = some registry ∧ RegistryOf deps index (w.under id) registry

/-- What the refreshes of a run keep. -/
structure Registered (deps : Deps) (env : Env) (id : Str) (w : World) : Prop where
  empty : w.freshnessIndexes id = none → w.templates id = none
  active : ∀ index, w.freshnessIndexes id = some index → ActiveRegistry deps env id index w

theorem registered_start (id : Str) (fs : Tree) : Registered deps env id (World.start fs) :=
  ⟨fun _ => rfl, fun _ h => by cases h⟩

theorem ActiveRegistry.congr {id : Str} {index : OriginFreshnessIndex} {w w' : World}
    (h : ActiveRegistry deps env id index w) (hunder : w'.under id = w.under id)
    (htemplates : w'.templates = w.templates) : ActiveRegistry deps env id index w' := by
  refine ⟨h.listed, ?_, ?_, ?_, ?_⟩
  · rw [hunder]; exact h.top
  · rw [hunder]; exact h.metadataDir
  · rw [hunder]; exact h.files
  · rw [hunder, htemplates]; exact h.registry

theorem Registered.kept {id : Str} {w w' : World} (h : Registered deps env id w)
    (hk : Kept id w w') : Registered deps env id w' := by
  have hunder : w'.under id = w.under id := funext fun r => hk.mirror _ (List.prefix_append _ _)
  refine ⟨?_, fun index hindex => ?_⟩
  · rw [hk.stores.freshnessIndexes, hk.stores.templates]
    exact h.empty
  · rw [hk.stores.freshnessIndexes] at hindex
    exact (h.active index hindex).congr hunder hk.stores.templates

theorem Registered.data {id : Str} {w w' : World} (h : Registered deps env id w)
    (hd : SameData w w') : Registered deps env id w' := by
  have hunder : w'.under id = w.under id := funext fun r => by rw [World.under, hd.fs]; rfl
  refine ⟨?_, fun index hindex => ?_⟩
  · rw [hd.freshnessIndexes, hd.templates]
    exact h.empty
  · rw [hd.freshnessIndexes] at hindex
    exact (h.active index hindex).congr hunder hd.templates

/-- A refresh that activated stored the registry of an update from its new mirror. -/
theorem Refreshed.compiled {id : Str} {cdn : Option OriginCdnRefresh} {barrier : Option Str}
    {w w' : World} (href : Refreshed deps env id cdn barrier w w') {index : OriginFreshnessIndex}
    (hsteps : ∀ e ∈ trace (step deps env) (stageOriginSync deps id (w.freshnessIndexes id)) w.tick,
      ¬ probeFails env id e.1 e.2 = true)
    (hindex : w'.freshnessIndexes id = some index)
    (hkeys : ∀ k ∈ (diffOriginIndexes (w.freshnessIndexes id) index).changedPaths,
      Canonical k ∧ ∃ b, w'.under id (names k) = some (.file b)) :
    ∃ registry, w'.templates id = some registry ∧ ∀ k,
      (k ∈ (diffOriginIndexes (w.freshnessIndexes id) index).changedPaths →
        TemplateOf deps (w'.under id) k (registry k)) ∧
      (k ∉ (diffOriginIndexes (w.freshnessIndexes id) index).changedPaths → registry k =
        if k ∈ (diffOriginIndexes (w.freshnessIndexes id) index).removed then none
        else (w.templates id).bind fun r => r k) := by
  obtain ⟨staged, config, registry, snapshot, w1, w2, w3, hstage, hprep, hact, hdata, -⟩ := href
  obtain ⟨hid, hsid, hdir⟩ := stageOriginSync_shape hstage
  have hs : InStaging staged.stagingDir := hdir ▸ stagingPath_inStaging deps hid _
  have hpost := ends_iff.mp (stageOriginSync_ends (fun _ _ h => h) w.tick) hsteps
  rw [hstage] at hpost
  obtain ⟨hdiff, -⟩ := hpost staged rfl
  obtain ⟨-, -, -, wc, hstores, hfs, hcompile⟩ := prepareActivation_ok hid hdir hprep
  obtain ⟨hfiles, -, htemplates, hstored⟩ := activate_ok hid hsid hs hact
  have hreads := (run_reads deps env (prepareActivation_reads deps id (w.freshnessIndexes id)
    staged barrier) w1).2
  rw [hprep] at hreads
  rw [hdata.freshnessIndexes, hstored] at hindex
  cases hindex
  -- the update read what became the mirror
  have hunder : wc.under (child stagingRoot (stagingName deps id (env.nanos w.tick.clock))) =
      w'.under id := by
    funext r
    have hr : w3.under id r = w1.under staged.stagingDir r := (hfiles r).trans (hreads _)
    rw [World.under, hfs, World.under, hdata.fs, show w3.fs.lookup (names id ++ r) = _ from hr,
      World.under, hdir, names_child, stagingPath, names_join]
  have hstaged := (@quiet_of_staged deps env _ _
    (stageOriginSync_within deps id (w.freshnessIndexes id)) w.tick).stores
  rw [hstage] at hstaged
  refine ⟨registry, by rw [hdata.templates, htemplates], fun k => ?_⟩
  have hk := compileTemplateUpdate_ok (by rw [hdiff, hunder]; exact hkeys) hcompile k
  rw [hdiff, hunder, hstores.templates, hstaged.templates] at hk
  exact hk

section
variable {id : Str} (hkeys : ∀ k, WasListed env id k → Canonical k)
  (hhash : ∀ k k', WasListed env id k → WasListed env id k' →
    deps.sha256 (utf8 k) = deps.sha256 (utf8 k') → k = k')
include hkeys hhash

/-- Once an index is stored, every listed key has a sidecar of its own. -/
theorem Registered.ownSidecar {w : World} (hinv : Registered deps env id w)
    {previous index : OriginFreshnessIndex} (hprevious : w.freshnessIndexes id = some previous)
    (hindex : ∀ k ∈ index.files, WasListed env id k) {k : Str} (hk : k ∈ index.files) :
    OwnSidecar deps index (w.under id) k k := by
  refine ⟨fun k' hk' n' hn' he => ?_, fun r b hr hmeta hfile hnot n' hn' he => ?_⟩
  · rw [(hkeys k' (hindex k' hk')).normalized] at hn'
    rw [← Except.ok.inj hn'] at he
    exact hhash k' k (hindex k' hk') (hindex k hk) (sidecarNames_inj.mp he)
  · obtain ⟨k', hk', rfl⟩ := (hinv.active previous hprevious).files r b hr hmeta hfile
    have hlisted := (hinv.active previous hprevious).listed k' hk'
    have hcanon := hkeys k' hlisted
    rw [keyOf_names hcanon.plain, hcanon.normalized] at hn'
    rw [keyOf_names hcanon.plain] at hnot
    rw [← Except.ok.inj hn'] at he
    exact hnot (hhash k' k hlisted (hindex k hk) (sidecarNames_inj.mp he) ▸ hk)

/-- An unchanged key keeps its template, because it keeps its file and its sidecar. -/
theorem templateOf_unchanged {w w' : World} (hinv : Registered deps env id w)
    {previous index : OriginFreshnessIndex} (hprevious : w.freshnessIndexes id = some previous)
    (hindex : ∀ k ∈ index.files, WasListed env id k) {lo hi : Nat}
    (hbuilt : Built deps env id (w.freshnessIndexes id) index id lo hi (w.under id) w')
    {k : Str} (hk : k ∈ index.files)
    (hnot : k ∉ (diffOriginIndexes (w.freshnessIndexes id) index).changedPaths)
    {template : Option Str} (h : TemplateOf deps (w.under id) k template) :
    TemplateOf deps (w'.under id) k template := by
  obtain ⟨body, metadata, hbody, hmeta, hclear, hrest⟩ := h
  obtain ⟨hkeep, hside⟩ := hbuilt.unchanged k hk hnot
  have hown := hinv.ownSidecar hkeys hhash hprevious hindex hk
  refine ⟨body, metadata, hkeep body hbody, ?_, hbuilt.clear k hclear, hrest⟩
  rw [hside k (hkeys k (hindex k hk)).normalized hown]
  exact hmeta

/-- After an activation the registry is that of the new mirror for the new index. -/
theorem Refreshed.registered {cdn : Option OriginCdnRefresh} {barrier : Option Str} {w w' : World}
    (href : Refreshed deps env id cdn barrier w w') (hinv : Registered deps env id w)
    (hsteps : ∀ e ∈ trace (step deps env) (stageOriginSync deps id (w.freshnessIndexes id)) w.tick,
      ¬ probeFails env id e.1 e.2 = true) : Registered deps env id w' ∧
      ∃ index, w'.freshnessIndexes id = some index ∧
        Listed (fun o w => probeFails env id o w = true) env id index w.clock w'.clock := by
  obtain ⟨index, hindex, hlisted, hbuilt⟩ := refreshed_built (fun _ _ h => h) hsteps href
  have hwas := hlisted.wasListed
  have hbuilt := hbuilt fun k hk => (hkeys k (hwas k hk)).plain
  have hsub : ∀ k ∈ (diffOriginIndexes (w.freshnessIndexes id) index).changedPaths,
      k ∈ index.files := fun k hk => by
    obtain ⟨f, hf, -⟩ := (mem_changedPaths _ _ _).mp hk
    exact Std.TreeMap.mem_iff_isSome_getElem?.mpr (by rw [hf]; rfl)
  obtain ⟨registry, hregistry, hof⟩ := href.compiled hsteps hindex fun k hk => by
    obtain ⟨object, -, hb, -⟩ := hbuilt.changed k hk
    exact ⟨hkeys k (hwas k (hsub k hk)), _, hb⟩
  refine ⟨⟨fun h => absurd (hindex.symm.trans h) (by simp), fun i hi => ?_⟩, index, hindex, hlisted⟩
  rw [hindex] at hi
  cases hi
  refine ⟨hwas, hbuilt.top, hbuilt.metadataDir, hbuilt.files, ?_⟩
  refine ⟨registry, hregistry, fun k => ⟨fun hk => ?_, fun hk => ?_⟩⟩
  · by_cases hchanged : k ∈ (diffOriginIndexes (w.freshnessIndexes id) index).changedPaths
    · exact (hof k).1 hchanged
    · obtain ⟨st, hst⟩ := Option.isSome_iff_exists.mp (Std.TreeMap.mem_iff_isSome_getElem?.mp hk)
      obtain ⟨p, hp, hsame⟩ := previous_of_not_changed _ _ _ hst hchanged
      obtain ⟨previous, hprevious, hpst⟩ := Option.bind_eq_some_iff.mp hp
      obtain ⟨old, hold, hreg⟩ := (hinv.active previous hprevious).registry
      have hkold : k ∈ previous.files :=
        Std.TreeMap.mem_iff_isSome_getElem?.mpr (by rw [hpst]; rfl)
      have hnot : k ∉ (diffOriginIndexes (w.freshnessIndexes id) index).removed :=
        fun h => ((mem_removed _ _ _).mp h).1 hk
      rw [(hof k).2 hchanged, if_neg hnot, hold]
      exact templateOf_unchanged hkeys hhash hinv hprevious hwas hbuilt hk hchanged
        ((hreg k).1 hkold)
  · rw [(hof k).2 fun hc => hk (hsub k hc)]
    split
    · rfl
    · rename_i hnot
      cases hprevious : w.freshnessIndexes id with
      | none => rw [hinv.empty hprevious]; rfl
      | some previous =>
        obtain ⟨old, hold, hreg⟩ := (hinv.active previous hprevious).registry
        rw [hold]
        refine (hreg k).2 fun hkold => hnot ((mem_removed _ _ _).mpr ⟨hk, ?_⟩)
        rw [hprevious]
        exact Std.TreeMap.mem_iff_isSome_getElem?.mp hkold

end

end RenderMesh.Refresh
