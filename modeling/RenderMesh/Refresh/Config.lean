import RenderMesh.Refresh.Runs

/-!
# The edge configuration of a generation

`load_origin_edge_config` reads the candidates in their order from the staged mirror
and takes the first that is there. `configOf` is what a mirror configures;
`Refreshed.config`: after an activation the store has what the new mirror configures.
-/
namespace RenderMesh.Refresh

open RenderMesh.Core RenderMesh.Mirror RenderMesh.Server

/-- The configuration that the files of a mirror give: of the first candidate that
is there, or the default. -/
def configOf (deps : Deps) (mirror : List Name → Option (Node Bytes)) :
    List (Str × Bool) → Option EdgeConfig
  | [] => some defaultEdgeConfig
  | candidate :: rest =>
    match mirror (names candidate.1) with
    | none => configOf deps mirror rest
    | some .dir => none
    | some (.file body) =>
      match fromUtf8 body with
      | none => none
      | some content => (parseEdgeConfig deps content).toOption

theorem configOf_congr {deps : Deps} {mirror mirror' : List Name → Option (Node Bytes)}
    (h : ∀ r, mirror' r = mirror r) (candidates : List (Str × Bool)) :
    configOf deps mirror' candidates = configOf deps mirror candidates := by
  rw [funext h]

/-- The candidates are looked up in a mirror until one is there, which parses. -/
def ConfigReads (deps : Deps) (mirror : List Name → Option (Node Bytes)) : List (Str × Bool) → Prop
  | [] => True
  | c :: rest =>
    (mirror (names (c.1.drop 1)) = none ∧ ClearWay mirror (names (c.1.drop 1)) ∧
        ConfigReads deps mirror rest) ∨
      ∃ body content config, mirror (names (c.1.drop 1)) = some (.file body) ∧
        fromUtf8 body = some content ∧ parseEdgeConfig deps content = .ok config

/-- The candidates come through the normalizer without their slash. -/
theorem candidates_normalized : ∀ c ∈ EDGE_CONFIG_PATHS,
    normalizeObjectPath c.1 = .ok (c.1.drop 1) ∧
    normalizeObjectPath (c.1.drop 1) = .ok (c.1.drop 1) ∧
    names c.1 = names (c.1.drop 1) := by decide

variable {deps : Deps} {env : Env}

theorem loadEdgeConfigFrom_ok {root : PathBuf} {id : Str} {candidates : List (Str × Bool)}
    (hc : ∀ c ∈ candidates, c ∈ EDGE_CONFIG_PATHS) {config : EdgeConfig} {w w' : World}
    (h : run (step deps env) (loadEdgeConfigFrom deps root id candidates) w = (.ok config, w')) :
    configOf deps (w.under (child root id)) candidates = some config ∧
      ConfigReads deps (w.under (child root id)) candidates := by
  induction candidates generalizing w with
  | nil => cases h; exact ⟨rfl, trivial⟩
  | cons c rest ih =>
    obtain ⟨object, w1, h1, h2⟩ := run_bind_ok _ |>.mp h
    obtain ⟨n, m, hn, hm, hobject⟩ := readObject_ok h1
    obtain ⟨hn', hm', hnames⟩ := candidates_normalized c (hc c (by simp))
    rw [hn'] at hn
    cases hn
    rw [hm'] at hm
    cases hm
    rw [configOf, hnames, ConfigReads]
    cases object with
    | none =>
      have hsame := (run_reads deps env (readObject_reads deps root id c.1) w).2
      rw [h1] at hsame
      have hunder : w1.under (child root id) = w.under (child root id) := funext fun r => hsame _
      have hrest := ih (fun c' hc' => hc c' (by simp [hc'])) h2
      rw [hunder] at hrest
      rw [hobject.1]
      exact ⟨hrest.1, Or.inl ⟨rfl, hobject.2, hrest.2⟩⟩
    | some object =>
      rw [hobject.1]
      simp only at h2 ⊢
      cases hu : fromUtf8 object.body with
      | none => rw [hu] at h2; cases h2
      | some content =>
        rw [hu] at h2
        simp only [run_ofExcept] at h2 ⊢
        cases hp : parseEdgeConfig deps content with
        | error e => rw [hp] at h2; cases h2
        | ok config' =>
          rw [hp] at h2
          cases h2
          exact ⟨rfl, Or.inr ⟨_, content, _, rfl, hu, hp⟩⟩

/-- The staging area and a directory in it are a store and a mirror. -/
theorem stagedOriginMirror_stagingPath {id : Str} (hid : validateOriginId id = .ok ())
    (timestamp : Nat) :
    stagedOriginMirror (stagingPath deps id timestamp) =
      .ok (stagingRoot, stagingName deps id timestamp) := by
  have hv := origin_validName (stagingName_valid deps hid timestamp)
  have hseg : segments (stagingPath deps id timestamp) =
      [stagingRoot, stagingName deps id timestamp] := by
    rw [stagingPath, join, segments_join, segments_of_no_slash hv.2.2.2.1,
      segments_of_no_slash (show '/' ∉ stagingRoot by decide)]
    rfl
  have hblank : blank (stagingName deps id timestamp) = false := by
    simp [blank, hv.1, hv.2.1]
  have hparent : parent? (stagingPath deps id timestamp) = some stagingRoot := by
    have hroot : blank stagingRoot = false := by decide
    unfold parent?
    rw [hseg]
    simp [List.rdropWhile, hblank, hroot]
  rw [stagedOriginMirror, hparent, names_stagingPath deps hid]
  rfl

/-- What the checks before an activation read from the staged mirror. -/
theorem prepareActivation_ok {id : Str} (hid : validateOriginId id = .ok ()) {timestamp : Nat}
    {previous : Option OriginFreshnessIndex} {staged : StagedOriginSync} {barrier : Option Str}
    (hdir : staged.stagingDir = stagingPath deps id timestamp) {config : EdgeConfig}
    {registry : Registry} {w w' : World}
    (h : run (step deps env) (prepareActivation deps id previous staged barrier) w =
      (.ok (config, registry), w')) :
    validateActivationBarrier id previous staged.index staged.diff barrier = .ok () ∧
      configOf deps (w.under staged.stagingDir) EDGE_CONFIG_PATHS = some config ∧
      ConfigReads deps (w.under staged.stagingDir) EDGE_CONFIG_PATHS ∧
      ∃ w1, SameStores w w1 ∧ (∀ q, w1.fs.lookup q = w.fs.lookup q) ∧
        run (step deps env) (compileTemplateUpdateFromMirror deps id stagingRoot
          (stagingName deps id timestamp) staged.diff) w1 = (.ok registry, w') := by
  obtain ⟨_, w1, h1, k1⟩ := run_bind_ok _ |>.mp h
  obtain ⟨mirror, w2, h2, k2⟩ := run_bind_ok _ |>.mp k1
  have hbarrier : validateActivationBarrier id previous staged.index staged.diff barrier = .ok () ∧
      w1 = w := by
    rw [run_ofExcept] at h1
    cases hb : validateActivationBarrier id previous staged.index staged.diff barrier with
    | error e => rw [hb] at h1; cases h1
    | ok u => rw [hb] at h1; cases h1; exact ⟨rfl, rfl⟩
  obtain ⟨hbarrier, rfl⟩ := hbarrier
  rw [hdir, stagedOriginMirror_stagingPath hid] at h2
  cases h2
  obtain ⟨config', w3, h3, k3⟩ := run_bind_ok _ |>.mp k2
  obtain ⟨registry', w4, h4, h5⟩ := run_bind_ok _ |>.mp k3
  cases h5
  have hreads := run_reads deps env (loadEdgeConfigFrom_reads deps stagingRoot
    (stagingName deps id timestamp) EDGE_CONFIG_PATHS) w1
  rw [loadOriginEdgeConfig] at h3
  rw [h3] at hreads
  have hunder : w1.under staged.stagingDir = w1.under (child stagingRoot (stagingName deps id timestamp)) :=
    funext fun r => by rw [World.under, World.under, hdir, names_child, stagingPath, names_join]
  obtain ⟨hconfig, hreadable⟩ := loadEdgeConfigFrom_ok (fun c hc => hc) h3
  exact ⟨hbarrier, hunder ▸ hconfig, hunder ▸ hreadable, w3, hreads.1, hreads.2, h4⟩

theorem Refreshed.config {id : Str} {cdn : Option OriginCdnRefresh} {barrier : Option Str} {w w' : World}
    (href : Refreshed deps env id cdn barrier w w') :
    ∃ config, w'.edgeConfigs id = some (.valid config) ∧
      configOf deps (w'.under id) EDGE_CONFIG_PATHS = some config ∧
      ConfigReads deps (w'.under id) EDGE_CONFIG_PATHS := by
  obtain ⟨staged, config, registry, snapshot, w1, w2, w3, hstage, hprep, hact, hdata, -⟩ := href
  obtain ⟨hid, hsid, hdir⟩ := stageOriginSync_shape hstage
  have hs : InStaging staged.stagingDir := hdir ▸ stagingPath_inStaging deps hid _
  obtain ⟨-, hconfig, hreadable, -⟩ := prepareActivation_ok hid hdir hprep
  obtain ⟨hfiles, hstored, -, -⟩ := activate_ok hid hsid hs hact
  have hreads := (run_reads deps env (prepareActivation_reads deps id (w.freshnessIndexes id)
    staged barrier) w1).2
  rw [hprep] at hreads
  have hunder : w'.under id = w1.under staged.stagingDir := funext fun r => by
    rw [World.under, hdata.fs]
    exact (hfiles r).trans (hreads _)
  exact ⟨config, by rw [hdata.edgeConfigs, hstored], hunder ▸ hconfig, hunder ▸ hreadable⟩

end RenderMesh.Refresh
