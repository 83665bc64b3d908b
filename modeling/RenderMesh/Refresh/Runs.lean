import RenderMesh.Refresh.Staged

/-!
# Runs of refreshes

What a refresh that activated leaves behind, and what every later one can build
on. An unchanged key is never fetched again, so what its file holds rests on the
invariant `AllHeld`: for each state in the index of the last activation the mirror
holds an object that was fetched once and checked against an equal state.

* `refreshed_built`: an activated generation is the staged one.
* `allHeld_of_refreshed`: an activation keeps the invariant.
-/
namespace RenderMesh.Refresh

open RenderMesh.Core RenderMesh.Mirror RenderMesh.Server

variable {deps : Deps} {env : Env}

/-! ## An activation that returned -/

theorem activate_ok {id : Str} (hid : validateOriginId id = .ok ()) {staged : StagedOriginSync}
    (hsid : staged.originId = id) (hs : InStaging staged.stagingDir) {config : EdgeConfig}
    {registry : Registry} {snapshot : OriginSnapshotDebug} {w w' : World}
    (h : run (step deps env) (activate deps id staged config registry snapshot) w = (.ok (), w')) :
    (∀ r, w'.under id r = w.under staged.stagingDir r) ∧
      w'.edgeConfigs id = some (.valid config) ∧ w'.templates id = some registry ∧
      w'.freshnessIndexes id = some staged.index := by
  obtain ⟨_, w1, h1, k1⟩ := run_bind_ok _ |>.mp h
  obtain ⟨_, w2, h2, k2⟩ := run_bind_ok _ |>.mp k1
  obtain ⟨_, w3, h3, k3⟩ := run_bind_ok _ |>.mp k2
  obtain ⟨_, w4, h4, h5⟩ := run_bind_ok _ |>.mp k3
  cases h2
  cases h3
  cases h4
  cases h5
  have hdir : originDir storeRoot staged.originId = .ok id := by
    rw [hsid]
    exact originDir_ok_iff.mpr ⟨rfl, hid⟩
  rw [activateStagedOrigin, hdir] at h1
  obtain ⟨_, wd, h6, h7⟩ := run_bind_ok _ |>.mp h1
  cases h6
  obtain ⟨r, wr, h8, h9⟩ := run_bind_ok _ |>.mp h7
  cases r with
  | error e =>
    obtain ⟨_, wx, -, hx⟩ := run_bind_ok _ |>.mp h9
    cases hx
  | ok u =>
    cases h9
    have hswap : run (step deps env) (swapOriginDir deps id staged.stagingDir) w = (.ok (), w1) :=
      (run_attempt_ok _).mp h8
    obtain ⟨hfiles, -⟩ := swapOriginDir_ok hid hs hswap
    exact ⟨hfiles, Function.update_self id _ w1.edgeConfigs, Function.update_self id _ w1.templates,
      Function.update_self id _ w1.freshnessIndexes⟩

theorem Built.transfer {id : Str} {previous : Option OriginFreshnessIndex}
    {index : OriginFreshnessIndex} {d d' : PathBuf} {lo hi hi' : Nat}
    {base : List Name → Option (Node Bytes)} {w w' : World}
    (h : Built deps env id previous index d lo hi base w) (hhi : hi ≤ hi')
    (hsame : ∀ r, w'.under d' r = w.under d r) :
    Built deps env id previous index d' lo hi' base w' := by
  refine ⟨(hsame []).trans h.top, fun r b hr hmeta hb => h.files r b hr hmeta ((hsame r) ▸ hb),
    fun k hk => ?_, fun k hk hnot => ⟨fun b hb => ?_, fun n hn hown => ?_⟩,
    fun b => hsame [metaName] ▸ h.metadataDir b, fun n hc => funext hsame ▸ h.clear n hc,
    fun r hr hoff => hsame r ▸ h.spared r hr hoff⟩
  · obtain ⟨object, hf, hb, hside⟩ := h.changed k hk
    exact ⟨object, hf.mono (Nat.le_refl _) hhi, (hsame _).trans hb,
      fun n hn hown => (hsame _).trans (hside n hn hown)⟩
  · exact (hsame _).trans ((h.unchanged k hk hnot).1 b hb)
  · exact (hsame _).trans ((h.unchanged k hk hnot).2 n hn hown)

/-- After a refresh that activated the mirror is the staged tree, and its index is stored. -/
theorem Refreshed.staged {id : Str} {cdn : Option OriginCdnRefresh} {barrier : Option Str}
    {w w' : World} (h : Refreshed deps env id cdn barrier w w') : ∃ staged w1,
      run (step deps env) (stageOriginSync deps id (w.freshnessIndexes id)) w.tick = (.ok staged, w1) ∧
      (∀ r, w'.under id r = w1.under staged.stagingDir r) ∧
      w'.freshnessIndexes id = some staged.index ∧ w1.clock ≤ w'.clock := by
  obtain ⟨staged, config, registry, snapshot, w1, w2, w3, hstage, hprep, hact, hdata, -⟩ := h
  obtain ⟨hid, hsid, hdir⟩ := stageOriginSync_shape hstage
  have hs : InStaging staged.stagingDir := hdir ▸ stagingPath_inStaging deps hid _
  obtain ⟨hfiles, -, -, hindex⟩ := activate_ok hid hsid hs hact
  have hreads := (run_reads deps env (prepareActivation_reads deps id (w.freshnessIndexes id)
    staged barrier) w1).2
  rw [hprep] at hreads
  have hc2 := run_clock deps env hprep
  have hc3 := run_clock deps env hact
  have hc4 := hdata.clock
  simp only [World.tick] at hc3
  refine ⟨staged, w1, hstage, fun r => ?_, by rw [hdata.freshnessIndexes, hindex], by omega⟩
  rw [World.under, hdata.fs]
  exact (hfiles r).trans (hreads _)

/-- What a refresh that activated stored, and how its mirror was built. -/
theorem refreshed_builtFrom {id : Str} {cdn : Option OriginCdnRefresh} {barrier : Option Str}
    {T : Op → World → Prop} {w w' : World}
    (hT : ∀ o w', probeFails env id o w' = true → T o w')
    (hsteps : ∀ e ∈ trace (step deps env) (stageOriginSync deps id (w.freshnessIndexes id)) w.tick,
      ¬ T e.1 e.2)
    (h : Refreshed deps env id cdn barrier w w') :
    ∃ index wl, w'.freshnessIndexes id = some index ∧
      BuiltFrom deps env T id (w.freshnessIndexes id) index id w.clock w'.clock (w.under id) wl w' := by
  obtain ⟨staged, w1, hstage, hfiles, hindex, hclock⟩ := h.staged
  have hpost := ends_iff.mp (stageOriginSync_ends hT w.tick) hsteps
  rw [hstage] at hpost
  dsimp only at hpost
  obtain ⟨-, wl, h1, h2, hallowed, hlisting, hbuilt⟩ := hpost staged rfl
  simp only [World.tick] at h1
  exact ⟨staged.index, wl, hindex, by omega, by omega, hallowed, hlisting,
    fun hplain => (hbuilt hplain).transfer (by omega) hfiles⟩

/-- The same without the order of the listing and the downloads. -/
theorem refreshed_built {id : Str} {cdn : Option OriginCdnRefresh} {barrier : Option Str}
    {T : Op → World → Prop} {w w' : World}
    (hT : ∀ o w', probeFails env id o w' = true → T o w')
    (hsteps : ∀ e ∈ trace (step deps env) (stageOriginSync deps id (w.freshnessIndexes id)) w.tick,
      ¬ T e.1 e.2)
    (h : Refreshed deps env id cdn barrier w w') :
    ∃ index, w'.freshnessIndexes id = some index ∧ Listed T env id index w.clock w'.clock ∧
      ((∀ k ∈ index.files, Plain k) → Built deps env id (w.freshnessIndexes id) index id
        w.clock w'.clock (w.under id) w') := by
  obtain ⟨index, wl, hindex, hfrom⟩ := refreshed_builtFrom hT hsteps h
  have hfirst := hfrom.first
  exact ⟨index, hindex, hfrom.listed, fun hplain => (hfrom.built hplain).mono (by omega)⟩

/-- Every file in the metadata directory of the mirror is the sidecar of a listed key. -/
theorem Refreshed.sidecars {id : Str} {cdn : Option OriginCdnRefresh} {barrier : Option Str}
    {w w' : World} (h : Refreshed deps env id cdn barrier w w') {index : OriginFreshnessIndex}
    (hindex : w'.freshnessIndexes id = some index) {s : List Name} (hs : s ≠ []) {b : Bytes}
    (hb : w'.under id (metaName :: s) = some (.file b)) :
    ∃ k ∈ index.files, ∃ n, normalizeObjectPath k = .ok n ∧ metaName :: s = sidecarNames deps n := by
  obtain ⟨staged, w1, hstage, hfiles, hstored, -⟩ := h.staged
  obtain ⟨hid, -, hdir, wc, -, hfill⟩ := stageOriginSync_phases hstage
  have hd : staged.stagingDir ≠ [] := hdir ▸ stagingPath_ne_nil deps _
  obtain ⟨-, wl, summaries, wd, wr, -, -, -, -, -, horphans⟩ := stageOriginDir_phases hfill
  obtain rfl := Option.some.inj (hstored.symm.trans hindex)
  obtain ⟨k, hk, n, hn, he⟩ := removeOrphanMetadataSidecars_ok hd horphans hs ((hfiles _).symm.trans hb)
  exact ⟨k, by simpa using hk, n, hn, List.append_cancel_left he⟩

/-! ## What the mirror holds for the index -/

/-- The mirror holds for `k` an object that the storage gave and that was checked
against a state equal to `st`: its body, and its sidecar if those are asked for. -/
def Held (deps : Deps) (env : Env) (id : Str) (sidecars : Prop) (w : World) (k : Str)
    (st : OriginFileState) : Prop :=
  ∃ t st' object, t < w.clock ∧ env.getObject t id k = .ok object ∧
    validateDownloadedObject k st' object = .ok () ∧ sameSourceState st' st = true ∧
    w.under id (names k) = some (.file object.body) ∧
    (sidecars → ∃ n, normalizeObjectPath k = .ok n ∧ w.under id (sidecarNames deps n) =
      some (.file (deps.metadataToJson (objectMetadata object))))

/-- The mirror holds what the index of the last activation says. -/
def AllHeld (deps : Deps) (env : Env) (id : Str) (sidecars : Prop) (w : World) : Prop :=
  ∀ index, w.freshnessIndexes id = some index → ∀ k st, index.files[k]? = some st →
    Held deps env id sidecars w k st

theorem AllHeld.kept {id : Str} {sidecars : Prop} {w w' : World}
    (h : AllHeld deps env id sidecars w) (hk : Kept id w w') (hclock : w.clock ≤ w'.clock) :
    AllHeld deps env id sidecars w' := by
  intro index hindex k st hst
  rw [hk.stores.freshnessIndexes] at hindex
  obtain ⟨t, st', object, ht, hget, hval, hsame, hbody, hside⟩ := h index hindex k st hst
  have hunder : ∀ r, w'.under id r = w.under id r := fun r => hk.mirror _ (List.prefix_append _ _)
  refine ⟨t, st', object, by omega, hget, hval, hsame, (hunder _).trans hbody, fun hs => ?_⟩
  obtain ⟨n, hn, hj⟩ := hside hs
  exact ⟨n, hn, (hunder _).trans hj⟩

/-- An activation keeps the invariant: a changed key has what was fetched for it,
an unchanged one what it had. -/
theorem allHeld_of_built {id : Str} {sidecars : Prop} {w w' : World} {index : OriginFreshnessIndex}
    (hinv : AllHeld deps env id sidecars w) (hindex : w'.freshnessIndexes id = some index)
    (hclock : w.clock ≤ w'.clock)
    (hbuilt : Built deps env id (w.freshnessIndexes id) index id w.clock w'.clock (w.under id) w')
    (hown : sidecars → ∀ k ∈ index.files, ∃ n, normalizeObjectPath k = .ok n ∧
      OwnSidecar deps index (w.under id) k n) :
    AllHeld deps env id sidecars w' := by
  intro index' hindex' k st hst
  rw [hindex] at hindex'
  cases hindex'
  have hk : k ∈ index.files := Std.TreeMap.mem_iff_isSome_getElem?.mpr (by rw [hst]; rfl)
  by_cases hchanged : k ∈ (diffOriginIndexes (w.freshnessIndexes id) index).changedPaths
  · obtain ⟨object, ⟨t, st', -, ht, hget, hst', hval⟩, hbody, hside⟩ := hbuilt.changed k hchanged
    rw [hst] at hst'
    cases hst'
    refine ⟨t, st, object, ht, hget, hval, sameSourceState_refl st, hbody, fun hs => ?_⟩
    obtain ⟨n, hn, ho⟩ := hown hs k hk
    exact ⟨n, hn, hside n hn ho⟩
  · obtain ⟨p, hp, hsame⟩ := previous_of_not_changed _ _ _ hst hchanged
    obtain ⟨previous, hprevious, hpst⟩ := Option.bind_eq_some_iff.mp hp
    obtain ⟨t, st', object, ht, hget, hval, hsame', hbody, hside⟩ := hinv previous hprevious k p hpst
    obtain ⟨hkeep, hkeepside⟩ := hbuilt.unchanged k hk hchanged
    refine ⟨t, st', object, by omega, hget, hval, sameSourceState_trans hsame' hsame,
      hkeep _ hbody, fun hs => ?_⟩
    obtain ⟨n, hn, hj⟩ := hside hs
    obtain ⟨n', hn', ho⟩ := hown hs k hk
    rw [hn] at hn'
    cases hn'
    exact ⟨n, hn, (hkeepside n hn ho).trans hj⟩

theorem AllHeld.data {id : Str} {sidecars : Prop} {w w' : World}
    (h : AllHeld deps env id sidecars w) (hd : SameData w w') : AllHeld deps env id sidecars w' := by
  intro index hindex k st hst
  rw [hd.freshnessIndexes] at hindex
  obtain ⟨t, st', object, ht, hget, hval, hsame, hrest⟩ := h index hindex k st hst
  have := hd.clock
  refine ⟨t, st', object, by omega, hget, hval, hsame, ?_⟩
  simpa only [World.under, hd.fs] using hrest

/-- A mirror that is the listing at a step from `lo` on: one file for each listed
key and no other, each with what is held for its state in the stored index. -/
structure MirrorsListing (deps : Deps) (env : Env) (id : Str) (sidecars : Prop) (lo : Nat)
    (index : OriginFreshnessIndex) (w : World) : Prop where
  stored : w.freshnessIndexes id = some index
  listed : Listed (fun _ _ => False) env id index lo w.clock
  files : ∀ r, r ≠ [] → r.head? ≠ some metaName →
    ((∃ b, w.under id r = some (.file b)) ↔ ∃ k ∈ index.files, r = names k)
  apart : ∀ k ∈ index.files, ∀ k' ∈ index.files, names k = names k' → k = k'
  held : ∀ k st, index.files[k]? = some st → Held deps env id sidecars w k st

theorem mirrorsListing_of_built {id : Str} {sidecars : Prop} {w w' : World}
    {index : OriginFreshnessIndex} (hheld : AllHeld deps env id sidecars w')
    (hindex : w'.freshnessIndexes id = some index)
    (hlisted : Listed (fun _ _ => False) env id index w.clock w'.clock)
    (hplain : ∀ k ∈ index.files, Plain k)
    (hbuilt : Built deps env id (w.freshnessIndexes id) index id w.clock w'.clock (w.under id) w') :
    MirrorsListing deps env id sidecars w.clock index w' := by
  refine ⟨hindex, hlisted, fun r hr hmeta => ⟨?_, ?_⟩, fun k hk k' hk' he => ?_, hheld index hindex⟩
  · rintro ⟨b, hb⟩
    exact hbuilt.files r b hr hmeta hb
  · rintro ⟨k, hk, rfl⟩
    obtain ⟨st, hst⟩ := Option.isSome_iff_exists.mp (Std.TreeMap.mem_iff_isSome_getElem?.mp hk)
    obtain ⟨t, st', object, -, -, -, -, hb, -⟩ := hheld index hindex k st hst
    exact ⟨_, hb⟩
  · exact names_injOn_plain (hplain k hk) (hplain k' hk') he

theorem MirrorsListing.data {id : Str} {sidecars : Prop} {lo : Nat} {index : OriginFreshnessIndex}
    {w w' : World} (h : MirrorsListing deps env id sidecars lo index w) (hd : SameData w w') :
    MirrorsListing deps env id sidecars lo index w' := by
  have hunder : ∀ r, w'.under id r = w.under id r := fun r => by simp only [World.under, hd.fs]
  have hc := hd.clock
  obtain ⟨wl, summaries, now, h1, h2, h3⟩ := h.listed
  refine ⟨by rw [hd.freshnessIndexes, h.stored], ⟨wl, summaries, now, h1, by omega, h3⟩,
    fun r hr hmeta => by rw [hunder]; exact h.files r hr hmeta, h.apart, fun k st hst => ?_⟩
  obtain ⟨t, st', object, ht, hget, hval, hsame, hb, hs⟩ := h.held k st hst
  refine ⟨t, st', object, by omega, hget, hval, hsame, (hunder _).trans hb, fun hsc => ?_⟩
  obtain ⟨n, hn, hj⟩ := hs hsc
  exact ⟨n, hn, (hunder _).trans hj⟩

/-- After an activation the mirror is the listing, and the invariant holds. -/
theorem Refreshed.mirrors {id : Str} {sidecars : Prop} {cdn : Option OriginCdnRefresh}
    {barrier : Option Str} {T : Op → World → Prop} {w w' : World}
    (href : Refreshed deps env id cdn barrier w w')
    (hinv : AllHeld deps env id sidecars w) (hclock : w.clock ≤ w'.clock)
    (hT : ∀ o w', probeFails env id o w' = true → T o w')
    (hsteps : ∀ e ∈ trace (step deps env) (stageOriginSync deps id (w.freshnessIndexes id)) w.tick,
      ¬ T e.1 e.2)
    (hplain : ∀ index, Listed T env id index w.clock w'.clock → ∀ k ∈ index.files, Plain k)
    (hown : sidecars → ∀ index, Listed T env id index w.clock w'.clock → ∀ k ∈ index.files,
      ∃ n, normalizeObjectPath k = .ok n ∧ OwnSidecar deps index (w.under id) k n) :
    AllHeld deps env id sidecars w' ∧
      ∃ index, MirrorsListing deps env id sidecars w.clock index w' := by
  obtain ⟨index, hindex, hlisted, hbuilt⟩ := refreshed_built hT hsteps href
  have hkeys := hplain index hlisted
  have hbuilt' := hbuilt hkeys
  have hheld := allHeld_of_built hinv hindex hclock hbuilt' fun hs => hown hs index hlisted
  obtain ⟨wl, summaries, now, h1, h2, -, hlist, hb⟩ := hlisted
  exact ⟨hheld, index, mirrorsListing_of_built hheld hindex
    ⟨wl, summaries, now, h1, h2, not_false, hlist, hb⟩ hkeys hbuilt'⟩

/-! ## Calls of the service -/

/-- The refresh that `refresh_origin` runs for `id`. -/
def pipeline (deps : Deps) (service : OriginRefreshService) (id : Str) : Async OriginSyncResponse :=
  refreshOriginSnapshot deps id (service.cdn id) (service.activationBarrier id)

/-- The steps of the staging are steps of the refresh. -/
theorem mem_trace_pipeline {service : OriginRefreshService} {id : Str} {w : World} {e : Op × World}
    (he : e ∈ trace (step deps env) (stageOriginSync deps id (w.freshnessIndexes id)) w.tick) :
    e ∈ trace (step deps env) (pipeline deps service id) w := by
  have hindex : run (step deps env) (call (.freshnessIndex id)) w =
      (.ok (w.freshnessIndexes id), w.tick) := rfl
  refine mem_trace_bind _ hindex ?_
  exact mem_trace_bind_left _ he

/-- A call is refused, or its refresh ran: what it returns and what it leaves. -/
theorem refreshOrigin_cases (service : OriginRefreshService) (id : Str) (w : World) :
    (refreshOrigin deps env service id w).2 = w ∧
        (∀ r, (refreshOrigin deps env service id w).1 ≠ .ok r) ∨
      ∃ out w', run (step deps env) (pipeline deps service id) (w.lock id) = (out, w') ∧
        SameData w' (refreshOrigin deps env service id w).2 ∧
        ∀ r, (refreshOrigin deps env service id w).1 = .ok r ↔ out = .ok r := by
  unfold refreshOrigin pipeline
  split
  · exact Or.inl ⟨rfl, (by simp)⟩
  · split
    · exact Or.inl ⟨rfl, (by simp)⟩
    · right
      rcases run (step deps env) (refreshOriginSnapshot deps id (service.cdn id)
        (service.activationBarrier id)) (w.lock id) with ⟨response | e | _, w'⟩
      · exact ⟨_, w', rfl, ⟨rfl, rfl, rfl, rfl, Nat.le_refl _⟩, fun r => by simp⟩
      · exact ⟨_, w', rfl, ⟨rfl, rfl, rfl, rfl, Nat.le_refl _⟩, fun r => by simp⟩
      · exact ⟨_, w', rfl, ⟨rfl, rfl, rfl, rfl, Nat.le_refl _⟩, fun r => by simp⟩

/-- The states of a run: a process that starts with the files `fs` and refreshes
`id` again and again. -/
def refreshes (deps : Deps) (env : Env) (service : OriginRefreshService) (id : Str) (fs : Tree) :
    Nat → World
  | 0 => World.start fs
  | n + 1 => (refreshOrigin deps env service id (refreshes deps env service id fs n)).2

end RenderMesh.Refresh
