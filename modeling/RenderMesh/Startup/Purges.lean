import RenderMesh.Refresh.Partition
import RenderMesh.Startup.Runtime
import RenderMesh.Cdn.Saas

/-!
# Purges that the providers take

`build_cdn_refresh_plan` (`src/src/services/cdn_refresh.rs`) chooses the mode of a purge from the
strategy and the URL prefixes, and each provider's `purge` begins with a check of the mode
(`src/src/repositories/cdn.rs`). The constructors at startup see to it that the two agree.

* `plan_exact`: what the plan for two indexes says.
* `built_accepts`: the mode of every plan passes the check of the provider that was configured.
* `cdn_refresh_plan`: both, for all strategies, indexes, prefixes and manifests.
-/
namespace RenderMesh.Startup

open RenderMesh.Core RenderMesh.Mirror RenderMesh.Domains RenderMesh.Refresh RenderMesh.Cdn

/-! ## Plans -/

def IsIndex (index : OriginFreshnessIndex) : Prop :=
  ∃ id summaries capturedAt, buildOriginIndex id summaries capturedAt = .ok index

/-- The paths of the changed keys, in their order. -/
structure ListsChanged (diff : OriginFreshnessDiff) (paths : List Str) : Prop where
  increasing : paths.Pairwise fun a b => compare a b = .lt
  nodup : paths.Nodup
  mem_iff : ∀ path, path ∈ paths ↔ ∃ k, Changed diff k ∧ path = '/' :: k

structure ExactPlan (diff : OriginFreshnessDiff) (strategy : CdnRefreshStrategy)
    (urlPrefixes : List Str) (plan : CdnRefreshPlan) : Prop where
  count : ∃ keys : List Str, keys.Nodup ∧ (∀ k, k ∈ keys ↔ Changed diff k) ∧
    plan.changedCount = keys.length
  all : strategy = .all → plan.mode = .all
  paths : strategy = .changedPaths → urlPrefixes = [] →
    ∃ paths, ListsChanged diff paths ∧ plan.mode = .paths paths
  urls : strategy = .changedPaths → urlPrefixes ≠ [] → ∃ paths, ListsChanged diff paths ∧
    plan.mode = .urls (urlPrefixes.flatMap fun pre => paths.map fun path => trimEndSlashes pre ++ path)

def changedKeys (diff : OriginFreshnessDiff) : List Str :=
  diff.added.toList ++ diff.modified.toList ++ diff.removed.toList

theorem mem_changedKeys (diff : OriginFreshnessDiff) (k : Str) :
    k ∈ changedKeys diff ↔ Changed diff k := by
  simp [changedKeys, Changed]

theorem length_changedKeys (diff : OriginFreshnessDiff) :
    (changedKeys diff).length = diffChangedCount diff := by
  simp [changedKeys, diffChangedCount, Nat.add_assoc]

/-- A key is changed in one way. -/
theorem changedKeys_nodup (previous : Option OriginFreshnessIndex) (next : OriginFreshnessIndex) :
    (changedKeys (diffOriginIndexes previous next)).Nodup := by
  have hdisjoint := (diffOriginIndexes_partition previous next).disjoint
  simp only [changedKeys, List.nodup_append, toList_nodup, Std.TreeSet.mem_toList, List.mem_append,
    true_and]
  constructor
  · rintro k hadded _ hmodified rfl
    exact ((hdisjoint k).1 hadded).1 hmodified
  · rintro k (hadded | hmodified) _ hremoved rfl
    · exact ((hdisjoint k).1 hadded).2.1 hremoved
    · exact ((hdisjoint k).2.1 hmodified).1 hremoved

section
variable {previous : Option OriginFreshnessIndex} {next : OriginFreshnessIndex}
  (hprevious : ∀ index, previous = some index → IsIndex index) (hnext : IsIndex next)
include hprevious hnext

/-- The keys of an index do not begin with a slash. -/
theorem format_changed {k : Str} (hk : Changed (diffOriginIndexes previous next) k) :
    formatCdnPath k = '/' :: k := by
  have hindex : ∀ index, IsIndex index → k ∈ index.files → k.head? ≠ some '/' := by
    rintro index ⟨id, summaries, capturedAt, hbuilt⟩ hmem
    obtain ⟨s, hs, rfl⟩ := (mem_files_iff hbuilt k).mp hmem
    exact ((buildOriginIndex_accepted hbuilt).1 s hs).relative
  have hrelative : k.head? ≠ some '/' := by
    rcases hk with hk | hk | hk
    · exact hindex next hnext ((mem_added _ _ _).mp hk).1
    · obtain ⟨-, after, -, hafter, -⟩ := (mem_modified _ _ _).mp hk
      exact hindex next hnext (mem_files_iff_some.mpr ⟨after, hafter⟩)
    · obtain ⟨-, hsome⟩ := (mem_removed _ _ _).mp hk
      obtain ⟨index, hindex', hmem⟩ := previousFile_isSome.mp hsome
      exact hindex index (hprevious index hindex') hmem
  rw [formatCdnPath, if_neg hrelative]

theorem lists_changed :
    ListsChanged (diffOriginIndexes previous next) (changedPaths (diffOriginIndexes previous next)) := by
  refine ⟨Std.TreeSet.ordered_toList, toList_nodup _, fun path => ?_⟩
  rw [mem_changedPaths_cdn]
  refine exists_congr fun k => and_congr_right fun hk => ?_
  rw [format_changed hprevious hnext hk]
  exact eq_comm

/-- The changed keys have as many paths. -/
theorem length_changedPaths_cdn :
    (changedPaths (diffOriginIndexes previous next)).length =
      diffChangedCount (diffOriginIndexes previous next) := by
  have hlists := lists_changed hprevious hnext
  have hperm : (changedPaths (diffOriginIndexes previous next)).Perm
      ((changedKeys (diffOriginIndexes previous next)).map ('/' :: ·)) := by
    refine (List.perm_ext_iff_of_nodup hlists.nodup ?_).mpr fun path => ?_
    · exact (changedKeys_nodup previous next).map fun a b h => (List.cons.inj h).2
    · rw [hlists.mem_iff, List.mem_map]
      refine exists_congr fun k => ?_
      rw [mem_changedKeys]
      exact and_congr_right fun _ => eq_comm
  rw [hperm.length_eq, List.length_map, length_changedKeys]

theorem plan_exact {strategy : CdnRefreshStrategy} {urlPrefixes : List Str} {plan : CdnRefreshPlan}
    (hplan : buildCdnRefreshPlan strategy (diffOriginIndexes previous next) urlPrefixes = some plan) :
    ExactPlan (diffOriginIndexes previous next) strategy urlPrefixes plan := by
  have hlists := lists_changed hprevious hnext
  have hlength := length_changedPaths_cdn hprevious hnext
  have hcount : ∀ n, n = diffChangedCount (diffOriginIndexes previous next) →
      ∃ keys : List Str, keys.Nodup ∧ (∀ k, k ∈ keys ↔ Changed (diffOriginIndexes previous next) k) ∧
        n = keys.length := fun n hn =>
    ⟨_, changedKeys_nodup previous next, mem_changedKeys _, hn.trans (length_changedKeys _).symm⟩
  have hurls : ∀ pre, (changedPaths (diffOriginIndexes previous next)).map (formatUrl pre) =
      (changedPaths (diffOriginIndexes previous next)).map (trimEndSlashes pre ++ ·) := by
    refine fun pre => List.map_congr_left fun path hpath => ?_
    obtain ⟨k, -, rfl⟩ := (hlists.mem_iff path).mp hpath
    rfl
  unfold buildCdnRefreshPlan at hplan
  simp only at hplan
  split at hplan
  · cases hplan
  · cases strategy with
    | all =>
      cases hplan
      exact ⟨hcount _ hlength, fun _ => rfl, by simp, by simp⟩
    | changedPaths =>
      simp only at hplan
      split at hplan
      · rename_i hempty
        cases hplan
        exact ⟨hcount _ rfl, by simp, fun _ _ => ⟨_, hlists, rfl⟩, fun _ hne => absurd hempty hne⟩
      · rename_i hne
        cases hplan
        refine ⟨hcount _ rfl, by simp, fun _ hempty => absurd hempty hne, fun _ _ => ⟨_, hlists, ?_⟩⟩
        simp only [hurls]

end

theorem plan_none_iff_empty (strategy : CdnRefreshStrategy) (diff : OriginFreshnessDiff)
    (urlPrefixes : List Str) : buildCdnRefreshPlan strategy diff urlPrefixes = none ↔
      diff.added.isEmpty = true ∧ diff.modified.isEmpty = true ∧ diff.removed.isEmpty = true := by
  rw [plan_none_iff ⟨strategy, urlPrefixes⟩ diff]
  simp only [Std.TreeSet.isEmpty_iff_forall_not_mem, Changed, not_or]
  exact ⟨fun h => ⟨fun k => (h k).1, fun k => (h k).2.1, fun k => (h k).2.2⟩,
    fun h k => ⟨h.1 k, h.2.1 k, h.2.2 k⟩⟩

/-! ## Modes -/

inductive CloudflarePurgePayload where
  | everything
  | files (urls : List Str)

/-- mirrors src/src/repositories/cdn.rs:162-168 -/
def ensureCloudflareMode : CdnPurgeMode → Except Error CloudflarePurgePayload
  | .all => .ok .everything
  | .urls urls => .ok (.files urls)
  | .paths _ => .error (anyhow "Cloudflare CDN purge requires full URLs".toList)

/-- The check of the mode with which `purge` of the configured repository begins. -/
def ensureMode (mode : CdnPurgeMode) : CdnConfig → Except Error Unit
  | .cloudFront _ =>
    (CloudFrontSaasCdnRepository.ensurePathsMode mode "CloudFront".toList).map fun _ => ()
  | .cloudFrontSaas _ =>
    (CloudFrontSaasCdnRepository.ensurePathsMode mode "CloudFront SaaS".toList).map fun _ => ()
  | .cloudflare _ => (ensureCloudflareMode mode).map fun _ => ()

/-- Whatever changed, the mode of the plan passes the check. -/
def Accepts (config : CdnConfig) (refresh : OriginCdnRefresh) : Prop :=
  ∀ diff plan, buildCdnRefreshPlan refresh.strategy diff refresh.urlPrefixes = some plan →
    ensureMode plan.mode config = .ok ()

/-- A plan has URLs if there are prefixes, and paths if there are none. -/
theorem plan_mode {strategy : CdnRefreshStrategy} {diff : OriginFreshnessDiff} {urlPrefixes : List Str}
    {plan : CdnRefreshPlan} (hplan : buildCdnRefreshPlan strategy diff urlPrefixes = some plan) :
    plan.mode = .all ∨ (strategy = .changedPaths ∧ urlPrefixes = [] ∧ ∃ paths, plan.mode = .paths paths) ∨
      (urlPrefixes ≠ [] ∧ ∃ urls, plan.mode = .urls urls) := by
  unfold buildCdnRefreshPlan at hplan
  simp only at hplan
  split at hplan
  · cases hplan
  · cases strategy with
    | all =>
      cases hplan
      exact Or.inl rfl
    | changedPaths =>
      simp only at hplan
      split at hplan
      · rename_i hempty
        cases hplan
        exact Or.inr (Or.inl ⟨rfl, hempty, _, rfl⟩)
      · rename_i hne
        cases hplan
        exact Or.inr (Or.inr ⟨hne, _, rfl⟩)

/-- Without prefixes there are no URLs. -/
theorem accepts_paths {config : CdnConfig} (strategy : CdnRefreshStrategy)
    (hall : ensureMode .all config = .ok ()) (hpaths : ∀ paths, ensureMode (.paths paths) config = .ok ()) :
    Accepts config ⟨strategy, []⟩ := by
  intro diff plan hplan
  rcases plan_mode hplan with h | ⟨-, -, paths, h⟩ | ⟨hne, -⟩
  · rw [h]; exact hall
  · rw [h]; exact hpaths paths
  · exact absurd rfl hne

theorem accepts_cloudflare (config : CloudflareCdnConfig) {strategy : CdnRefreshStrategy}
    {urlPrefixes : List Str} (h : ¬ (strategy = .changedPaths ∧ urlPrefixes = [])) :
    Accepts (.cloudflare config) ⟨strategy, urlPrefixes⟩ := by
  intro diff plan hplan
  rcases plan_mode hplan with hmode | ⟨hstrategy, hempty, -⟩ | ⟨-, urls, hmode⟩
  · rw [hmode]; rfl
  · exact absurd ⟨hstrategy, hempty⟩ h
  · rw [hmode]; rfl

/-! ## What startup builds -/

theorem fromConfig_accepts (derivedUrlPrefixes : List Str) (config : CdnConfig) :
    (originCdnRefreshFromConfig derivedUrlPrefixes config).Gives (Accepts config) := by
  cases config with
  | cloudFront config =>
    exact Prog.gives_then fun _ => Prog.gives_pure (accepts_paths config.strategy rfl fun _ => rfl)
  | cloudFrontSaas config => trivial
  | cloudflare config =>
    unfold originCdnRefreshFromConfig
    dsimp only
    generalize (if config.urlPrefixes = [] then derivedUrlPrefixes else config.urlPrefixes) = urlPrefixes
    split
    · trivial
    · rename_i hnot
      exact Prog.gives_then fun _ => Prog.gives_pure (accepts_cloudflare config hnot)

/-- The refreshes are for origins of the manifest, and fit their providers. -/
def Fits (entries : List (Str × OriginConfig)) (built : Std.TreeMap Str OriginCdnRefresh) : Prop :=
  ∀ id refresh, built[id]? = some refresh →
    ∃ origin config, (id, origin) ∈ entries ∧ cdnOf origin = some config ∧ Accepts config refresh

theorem Fits.insert {done : List (Str × OriginConfig)} {entry : Str × OriginConfig}
    {built : Std.TreeMap Str OriginCdnRefresh} {config : CdnConfig} {refresh : OriginCdnRefresh}
    (h : Fits done built) (hcdn : cdnOf entry.2 = some config) (haccepts : Accepts config refresh) :
    Fits (done ++ [entry]) (built.insert entry.1 refresh) := by
  intro id refresh' hget
  rw [Std.TreeMap.getElem?_insert] at hget
  split at hget
  · rename_i hid
    obtain rfl := Std.LawfulEqOrd.eq_of_compare hid
    cases hget
    exact ⟨entry.2, config, by simp, hcdn, haccepts⟩
  · obtain ⟨origin, config', hmem, hrest⟩ := h id refresh' hget
    exact ⟨origin, config', List.mem_append_left _ hmem, hrest⟩

theorem Fits.skip {done : List (Str × OriginConfig)} {entry : Str × OriginConfig}
    {built : Std.TreeMap Str OriginCdnRefresh} (h : Fits done built) : Fits (done ++ [entry]) built := by
  intro id refresh hget
  obtain ⟨origin, config, hmem, hrest⟩ := h id refresh hget
  exact ⟨origin, config, List.mem_append_left _ hmem, hrest⟩

theorem buildOriginCdn_fits (manifest : RenderMeshManifest) (done : List (Str × OriginConfig))
    (entry : Str × OriginConfig) {built : Std.TreeMap Str OriginCdnRefresh × Std.TreeSet Str}
    (h : Fits done built.1) :
    (buildOriginCdn manifest built entry).Gives fun built' => Fits (done ++ [entry]) built'.1 := by
  unfold buildOriginCdn
  split
  · exact Prog.gives_pure h.skip
  · rename_i config hcdn
    refine Prog.gives_then fun repository => ?_
    cases repository with
    | error e => trivial
    | ok u => exact Prog.gives_pure (h.insert hcdn (accepts_paths config.strategy rfl fun _ => rfl))
  · rename_i config _ hcdn
    refine Prog.gives_bind (fromConfig_accepts _ config) fun refresh hrefresh => ?_
    exact Prog.gives_pure (h.insert hcdn hrefresh)

theorem built_accepts {P : Type} {deps : StartupDeps} {env : StartupEnv P}
    {manifest : RenderMeshManifest} {s s' : StartupWorld P} {cdn : StartupCdn}
    (hrun : run (startupStep deps.toDeps env) (buildStartupCdn deps manifest) s = (.ok cdn, s')) :
    Fits manifest.origins.toList cdn.refreshByOrigin := by
  refine run_gives (P := fun cdn : StartupCdn => Fits manifest.origins.toList cdn.refreshByOrigin) ?_ hrun
  have hstart : Fits [] (∅, (∅ : Std.TreeSet Str)).1 := by
    intro id refresh hget
    simp at hget
  refine Prog.gives_bind (Prog.gives_fold (I := fun done built => Fits done built.1)
    (fun done entry built hbuilt => buildOriginCdn_fits manifest done entry hbuilt) hstart _)
    fun cdns hcdns => ?_
  exact Prog.gives_then fun domains => Prog.gives_pure hcdns

/-- The plan for two indexes is exact, and whatever startup built for the manifest's origins, the
provider's check accepts the mode of the plan. -/
theorem cdn_refresh_plan {previous : Option OriginFreshnessIndex} {next : OriginFreshnessIndex}
    (hprevious : ∀ index, previous = some index → IsIndex index) (hnext : IsIndex next) :
    (∀ strategy urlPrefixes,
      (buildCdnRefreshPlan strategy (diffOriginIndexes previous next) urlPrefixes = none ↔
        (diffOriginIndexes previous next).added.isEmpty = true ∧
        (diffOriginIndexes previous next).modified.isEmpty = true ∧
        (diffOriginIndexes previous next).removed.isEmpty = true) ∧
      ∀ plan, buildCdnRefreshPlan strategy (diffOriginIndexes previous next) urlPrefixes = some plan →
        ExactPlan (diffOriginIndexes previous next) strategy urlPrefixes plan) ∧
    ∀ (P : Type) (deps : StartupDeps) (env : StartupEnv P) (manifest : RenderMeshManifest)
      (s s' : StartupWorld P) (cdn : StartupCdn),
      run (startupStep deps.toDeps env) (buildStartupCdn deps manifest) s = (.ok cdn, s') →
      ∀ (id : Str) (refresh : OriginCdnRefresh), cdn.refreshByOrigin[id]? = some refresh →
        ∃ origin config, manifest.origins[id]? = some origin ∧ cdnOf origin = some config ∧
          ∀ plan, buildCdnRefreshPlan refresh.strategy (diffOriginIndexes previous next)
            refresh.urlPrefixes = some plan → ensureMode plan.mode config = .ok () := by
  refine ⟨fun strategy urlPrefixes => ⟨plan_none_iff_empty _ _ _, fun plan hplan =>
    plan_exact hprevious hnext hplan⟩, ?_⟩
  intro P deps env manifest s s' cdn hrun id refresh hget
  obtain ⟨origin, config, hmem, hcdn, haccepts⟩ := built_accepts hrun id refresh hget
  exact ⟨origin, config, Std.TreeMap.mem_toList_iff_getElem?_eq_some.mp hmem, hcdn, haccepts _⟩

/-! ## A site at Cloudflare -/

def cloudflareConfig : CloudflareCdnConfig where
  zoneIdEnv := "ZONE".toList
  apiTokenEnv := "TOKEN".toList
  strategy := .changedPaths
  urlPrefixes := []
  domains := none

def cloudflareOrigin : OriginConfig :=
  .local_ ⟨"web".toList, none, none, some (.cloudflare cloudflareConfig)⟩

/-- The host `a.com` of one origin, without URL prefixes of its own. -/
def cloudflareManifest : RenderMeshManifest :=
  { smallManifest [("a.com", "web")] with origins := .ofList [("web".toList, cloudflareOrigin)] }

def cloudflareDeps : StartupDeps :=
  { smallDeps with
    yaml := fun _ => .ok cloudflareManifest
    json := fun _ => .ok cloudflareManifest
    envVar := fun _ => none
    originEdgeContexts := fun _ => ∅ }

/-- All clients can be built. -/
def cloudflareEnv : StartupEnv Unit where
  server := calmEnv
  manifestFile := fun _ => .ok []
  originStorage := fun _ _ => .ok ()
  cdnRepository := fun _ _ => .ok ()
  reconcileDomains := fun _ p => (.error (anyhow []), p)
  reconcileTenants := fun _ p => (.error (anyhow []), p)

/-- One object in the first listing of a site: its plan, and the purge at Cloudflare. -/
theorem cdn_refresh_plan_a : ∃ index cdn s',
    buildOriginIndex "web".toList [⟨"a".toList, none, none, none, 1, none, none⟩] 0 = .ok index ∧
    run (startupStep smallDeps cloudflareEnv) (buildStartupCdn cloudflareDeps cloudflareManifest)
      ⟨.start .empty, (), []⟩ = (.ok cdn, s') ∧
    (∃ plan, buildCdnRefreshPlan .changedPaths (diffOriginIndexes none index) [] = some plan ∧
      ExactPlan (diffOriginIndexes none index) .changedPaths [] plan) ∧
    ∃ refresh plan, cdn.refreshByOrigin["web".toList]? = some refresh ∧
      buildCdnRefreshPlan refresh.strategy (diffOriginIndexes none index) refresh.urlPrefixes =
        some plan ∧ plan.mode = .urls ["https://a.com/a".toList] ∧
      ensureMode plan.mode (.cloudflare cloudflareConfig) = .ok () := by
  have hplans : (buildOriginIndex "web".toList [⟨"a".toList, none, none, none, 1, none, none⟩] 0).toOption.map
      (fun index => (buildCdnRefreshPlan .changedPaths (diffOriginIndexes none index) [],
        buildCdnRefreshPlan .changedPaths (diffOriginIndexes none index) ["https://a.com".toList])) =
      some (some ⟨.paths ["/a".toList], 1⟩, some ⟨.urls ["https://a.com/a".toList], 1⟩) := by
    decide +kernel
  have hbuilt : (run (startupStep smallDeps cloudflareEnv) (buildStartupCdn cloudflareDeps
      cloudflareManifest) ⟨.start .empty, (), []⟩).1.ok?.bind (·.refreshByOrigin["web".toList]?) =
      some ⟨.changedPaths, ["https://a.com".toList]⟩ := by
    decide +kernel
  have horigin : cloudflareManifest.origins["web".toList]? = some cloudflareOrigin := by
    simp [cloudflareManifest]
  obtain ⟨index, hindex, hplan⟩ := Option.map_eq_some_iff.mp hplans
  obtain ⟨hpaths, hurls⟩ := Prod.mk.inj hplan
  obtain ⟨cdn, hok, hrefresh⟩ := Option.bind_eq_some_iff.mp hbuilt
  have hlisted : buildOriginIndex "web".toList [⟨"a".toList, none, none, none, 1, none, none⟩] 0 =
      .ok index := by
    cases hbuild : buildOriginIndex "web".toList [⟨"a".toList, none, none, none, 1, none, none⟩] 0 with
    | error e =>
      rw [hbuild] at hindex
      cases hindex
    | ok built =>
      rw [hbuild] at hindex
      cases hindex
      rfl
  have hnext : IsIndex index := ⟨_, _, _, hlisted⟩
  have hrun : run (startupStep smallDeps cloudflareEnv) (buildStartupCdn cloudflareDeps
      cloudflareManifest) ⟨.start .empty, (), []⟩ = (.ok cdn, _) :=
    Prod.ext (Outcome.ok?_eq_some.mp hok) rfl
  obtain ⟨hexact, haccepted⟩ := @cdn_refresh_plan none index (by simp) hnext
  obtain ⟨origin, config, hget, hcdn, haccepts⟩ := haccepted Unit cloudflareDeps cloudflareEnv
    cloudflareManifest _ _ cdn hrun "web".toList _ hrefresh
  rw [horigin] at hget
  cases hget
  cases hcdn
  exact ⟨index, cdn, _, hlisted, hrun, ⟨_, hpaths, (hexact _ _).2 _ hpaths⟩, _, _, hrefresh, hurls, rfl,
    haccepts _ hurls⟩

end RenderMesh.Startup
