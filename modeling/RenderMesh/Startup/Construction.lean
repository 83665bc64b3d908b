import RenderMesh.Core.Along
import RenderMesh.Startup.Runtime

/-!
# What a startup constructs

`build_startup_origins` and `build_startup_cdn` (`src/src/services/startup/origins.rs`,
`src/src/services/startup/cdn.rs`) make a storage and the CDN clients of every origin, before
anything is refreshed.

* `builds_state`: they change nothing.
* `buildStartupOrigins_succeeds_iff`, `buildStartupCdn_succeeds_iff`: when they succeed, said of
  the manifest and of what each constructor answers (`Constructible`).
-/
namespace RenderMesh.Startup

open RenderMesh.Core RenderMesh.Mirror RenderMesh.Domains RenderMesh.Refresh RenderMesh.Cdn

variable {P : Type}

/-! ## Steps that only build -/

/-- The steps that build the origins and the CDN. -/
def Builds : StartupOp → Prop
  | .originStorage _ _ | .cdnRepository _ _ => True
  | _ => False

theorem uses_start {Q : StartupOp → Prop} {o : StartupOp} (h : Q o) : (start o).Uses Q :=
  (Prog.uses_perform Q o).mpr h

theorem uses_startTry {Q : StartupOp → Prop} {α : Type} {r : Starting (Except Error α)} (h : r.Uses Q) :
    (startTry r).Uses Q := Prog.uses_bind h fun _ => Prog.uses_ofExcept _ _

theorem buildStartupOrigins_uses (deps : StartupDeps) (manifest : RenderMeshManifest) (path : PathBuf) :
    (buildStartupOrigins deps manifest path).Uses Builds := by
  refine Prog.uses_bind (Prog.uses_fold (fun built entry _ => ?_) _) fun _ => trivial
  exact Prog.uses_bind (uses_startTry (uses_start trivial)) fun _ => trivial

theorem originCdnRefreshFromConfig_uses (prefixes : List Str) (config : CdnConfig) :
    (originCdnRefreshFromConfig prefixes config).Uses Builds := by
  cases config with
  | cloudFront config => exact Prog.uses_bind (uses_startTry (uses_start trivial)) fun _ => trivial
  | cloudflare config =>
    simp only [originCdnRefreshFromConfig]
    generalize (if config.urlPrefixes = [] then prefixes else config.urlPrefixes) = urlPrefixes
    split
    · trivial
    · exact Prog.uses_bind (uses_startTry (uses_start trivial)) fun _ => trivial
  | cloudFrontSaas config => trivial

theorem buildOriginCdn_uses (manifest : RenderMeshManifest)
    (built : Std.TreeMap Str OriginCdnRefresh × Std.TreeSet Str) (entry : Str × OriginConfig) :
    (buildOriginCdn manifest built entry).Uses Builds := by
  unfold buildOriginCdn
  split
  · trivial
  · refine Prog.uses_bind (uses_start trivial) fun repository => ?_
    cases repository <;> trivial
  · exact Prog.uses_bind (originCdnRefreshFromConfig_uses _ _) fun _ => trivial

theorem originCdnDomainsFromConfig_uses (deps : StartupDeps) (config : CdnConfig) :
    (originCdnDomainsFromConfig deps config).Uses Builds := by
  have hrepository : (startTry (start (.cdnRepository config ∅))).Uses Builds :=
    uses_startTry (uses_start trivial)
  unfold originCdnDomainsFromConfig
  split
  · trivial
  · split
    · trivial
    · refine Prog.uses_bind (Prog.uses_ofExcept _ _) fun originDomain => ?_
      refine Prog.uses_bind (Prog.uses_ofExcept _ _) fun certificateArn => ?_
      refine Prog.uses_bind ?_ fun _ => trivial
      split
      · split
        · trivial
        · exact hrepository
      · split
        · exact hrepository
        · trivial
      · trivial

theorem buildOriginCdnDomains_uses (deps : StartupDeps) (built : Std.TreeMap Str OriginCdnDomains)
    (entry : Str × OriginConfig) : (buildOriginCdnDomains deps built entry).Uses Builds := by
  unfold buildOriginCdnDomains
  split
  · trivial
  · refine Prog.uses_bind (originCdnDomainsFromConfig_uses deps _) fun domains => ?_
    cases domains <;> trivial

theorem buildStartupCdn_uses (deps : StartupDeps) (manifest : RenderMeshManifest) :
    (buildStartupCdn deps manifest).Uses Builds :=
  Prog.uses_bind (Prog.uses_fold (fun built entry _ => buildOriginCdn_uses manifest built entry) _)
    fun _ => Prog.uses_bind
      (Prog.uses_fold (fun built entry _ => buildOriginCdnDomains_uses deps built entry) _)
      fun _ => trivial

/-- Building changes nothing. -/
theorem builds_state {deps : StartupDeps} {env : StartupEnv P} {α : Type} {m : Starting α}
    (hm : m.Uses Builds) (s : StartupWorld P) : (run (startupStep deps.toDeps env) m s).2 = s := by
  refine keeps_of_uses (startupStep deps.toDeps env) (P := Builds) (I := fun s' => s' = s) ?_ hm s rfl
  rintro o ho s' rfl
  cases o <;> first | rfl | exact ho.elim

/-! ## What has to be there -/

section
variable (deps : StartupDeps) (env : StartupEnv P)

/-- A client can be made from `config`. -/
def HasClient (config : CdnConfig) (exactHosts : Std.TreeSet Str) : Prop :=
  ∃ u, env.cdnRepository config exactHosts = .ok u

/-- The CDN client that purges for `originId` can be made. -/
def HasPurges (manifest : RenderMeshManifest) (originId : Str) : CdnConfig → Prop
  | .cloudFront config => HasClient env (.cloudFront config) ∅
  | .cloudflare config =>
    (config.strategy = .changedPaths → config.urlPrefixes = [] →
      exactUrlPrefixesForOrigin manifest originId ≠ []) ∧ HasClient env (.cloudflare config) ∅
  | .cloudFrontSaas config =>
    HasClient env (.cloudFrontSaas config) (exactHostsForOrigin manifest originId)

/-- What `config` says of domains can be followed: the variables are set, and there is a client. -/
def HasDomains (config : CdnConfig) : Prop :=
  ∀ domains, cdnDomains config = some domains → domains.enabled = true →
    (∃ value, deps.envVar domains.originDomainEnv = some value) ∧
    (∀ key, domains.certificateArnEnv = some key → ∃ value, deps.envVar key = some value) ∧
    HasClient env config ∅ ∧
    match config with
    | .cloudFront _ => domains.certificateArnEnv ≠ none
    | .cloudflare _ => domains.mode = .dnsRecords
    | .cloudFrontSaas _ => False

/-- The directory that paths in the manifest are relative to. -/
def manifestDir (manifestPath : PathBuf) : PathBuf :=
  ((parent? manifestPath).filter fun path => path ≠ []).getD ".".toList

/-- Each origin of the manifest gets its storage and its CDN clients. -/
structure Constructible (manifestPath : PathBuf) (manifest : RenderMeshManifest) : Prop where
  storages : ∀ entry ∈ manifest.origins.toList,
    ∃ u, env.originStorage entry.2 (manifestDir manifestPath) = .ok u
  purges : ∀ entry ∈ manifest.origins.toList, ∀ config, cdnOf entry.2 = some config →
    HasPurges env manifest entry.1 config
  domains : ∀ entry ∈ manifest.origins.toList, ∀ config, cdnOf entry.2 = some config →
    HasDomains deps env config

end

section
variable {deps : StartupDeps} {env : StartupEnv P}

/-- A program that builds returns a value. -/
def Succeeds (deps : StartupDeps) (env : StartupEnv P) {α : Type} (m : Starting α)
    (s : StartupWorld P) : Prop :=
  ∃ a, run (startupStep deps.toDeps env) m s = (.ok a, s)

theorem succeeds_pure {α : Type} (a : α) (s : StartupWorld P) : Succeeds deps env (pure a) s := ⟨a, rfl⟩

theorem not_succeeds_fail {α : Type} (e : Error) (s : StartupWorld P) :
    ¬ Succeeds deps env (.fail e : Starting α) s := by
  rintro ⟨a, ⟨⟩⟩

/-- A value that is there. -/
theorem succeeds_ofExcept {α : Type} {x : Except Error α} {s : StartupWorld P} :
    Succeeds deps env (Prog.ofExcept x) s ↔ ∃ a, x = .ok a := by
  cases x with
  | ok a => exact iff_of_true ⟨a, rfl⟩ ⟨a, rfl⟩
  | error e => exact iff_of_false (fun ⟨_, h⟩ => by cases h) fun ⟨_, h⟩ => by cases h

theorem succeeds_ofExcept_bind {α β : Type} {x : Except Error α} {f : α → Starting β} {s : StartupWorld P} :
    Succeeds deps env (Prog.ofExcept x >>= f) s ↔ ∃ a, x = .ok a ∧ Succeeds deps env (f a) s := by
  cases x with
  | ok a => exact ⟨fun h => ⟨a, rfl, h⟩, fun ⟨_, ha, h⟩ => by cases ha; exact h⟩
  | error e => exact ⟨fun ⟨_, h⟩ => (by cases h), fun ⟨_, ha, _⟩ => (by cases ha)⟩

/-- Two parts in a row, of which the second succeeds whatever the first returned. -/
theorem succeeds_bind {α β : Type} {m : Starting α} (hm : m.Uses Builds) {f : α → Starting β} {q : Prop}
    {s : StartupWorld P} (hf : ∀ a, Succeeds deps env (f a) s ↔ q) :
    Succeeds deps env (m >>= f) s ↔ Succeeds deps env m s ∧ q := by
  constructor
  · rintro ⟨b, h⟩
    obtain ⟨a, s1, h1, h2⟩ := run_bind_ok _ |>.mp h
    obtain rfl : s1 = s := by simpa [h1] using @builds_state P deps env _ m hm s
    exact ⟨⟨a, h1⟩, (hf a).mp ⟨b, h2⟩⟩
  · rintro ⟨⟨a, h1⟩, hq⟩
    obtain ⟨b, h2⟩ := (hf a).mpr hq
    exact ⟨b, run_bind_ok _ |>.mpr ⟨a, s, h1, h2⟩⟩

theorem succeeds_map {α β : Type} {m : Starting α} (hm : m.Uses Builds) (f : α → β) {s : StartupWorld P} :
    Succeeds deps env (m >>= fun a => pure (f a)) s ↔ Succeeds deps env m s := by
  rw [succeeds_bind hm (q := True) fun _ => iff_of_true (succeeds_pure _ _) trivial, and_true]

/-- A loop succeeds exactly if all its turns do. -/
theorem succeeds_fold {β γ : Type} {f : γ → β → Starting γ} {q : β → Prop} {s : StartupWorld P}
    (huses : ∀ c x, (f c x).Uses Builds) {xs : List β}
    (hturn : ∀ c, ∀ x ∈ xs, Succeeds deps env (f c x) s ↔ q x) (c : γ) :
    Succeeds deps env (Prog.fold f c xs) s ↔ ∀ x ∈ xs, q x := by
  induction xs generalizing c with
  | nil => exact iff_of_true (succeeds_pure c s) (by simp)
  | cons x xs ih =>
    rw [run_fold_cons, succeeds_bind (huses c x)
      (fun c' => ih (fun c y hy => hturn c y (List.mem_cons_of_mem _ hy)) c'),
      hturn c x List.mem_cons_self, List.forall_mem_cons]

theorem succeeds_cdnRepository {config : CdnConfig} {exactHosts : Std.TreeSet Str} {s : StartupWorld P} :
    Succeeds deps env (startTry (start (.cdnRepository config exactHosts))) s ↔
      HasClient env config exactHosts :=
  succeeds_ofExcept (x := env.cdnRepository config exactHosts)

theorem succeeds_originStorage {origin : OriginConfig} {dir : PathBuf} {s : StartupWorld P} :
    Succeeds deps env (startTry (start (.originStorage origin dir))) s ↔
      ∃ u, env.originStorage origin dir = .ok u :=
  succeeds_ofExcept (x := env.originStorage origin dir)

/-! ## The origins -/

theorem buildStartupOrigin_uses (dir : PathBuf) (built : Std.TreeSet Str × Std.TreeMap Str Str)
    (entry : Str × OriginConfig) : (buildStartupOrigin dir built entry).Uses Builds :=
  Prog.uses_bind (uses_startTry (uses_start trivial)) fun _ => trivial

theorem buildStartupOrigins_succeeds_iff {manifest : RenderMeshManifest} {path : PathBuf}
    {s : StartupWorld P} : Succeeds deps env (buildStartupOrigins deps manifest path) s ↔
      ∀ entry ∈ manifest.origins.toList, ∃ u, env.originStorage entry.2 (manifestDir path) = .ok u := by
  rw [buildStartupOrigins,
    succeeds_map (Prog.uses_fold (fun built entry _ => buildStartupOrigin_uses _ built entry) _)]
  refine succeeds_fold (buildStartupOrigin_uses _) (fun built entry _ => ?_) _
  rw [buildStartupOrigin, succeeds_map (uses_startTry (uses_start trivial))]
  exact succeeds_originStorage

/-! ## The CDN -/

theorem originCdnRefreshFromConfig_succeeds_iff {manifest : RenderMeshManifest} {originId : Str}
    {config : CdnConfig} (hsaas : ∀ saas, config ≠ .cloudFrontSaas saas) {s : StartupWorld P} :
    Succeeds deps env (originCdnRefreshFromConfig (exactUrlPrefixesForOrigin manifest originId) config) s ↔
      HasPurges env manifest originId config := by
  cases config with
  | cloudFrontSaas config => exact absurd rfl (hsaas config)
  | cloudFront config =>
    rw [originCdnRefreshFromConfig, succeeds_map (uses_startTry (uses_start trivial))]
    exact succeeds_cdnRepository
  | cloudflare config =>
    simp only [originCdnRefreshFromConfig, HasPurges]
    -- the prefixes are the configured ones, or else those of the hosts
    have hnone : (if config.urlPrefixes = [] then exactUrlPrefixesForOrigin manifest originId
        else config.urlPrefixes) = [] ↔
        config.urlPrefixes = [] ∧ exactUrlPrefixesForOrigin manifest originId = [] := by
      split <;> simp [*]
    generalize (if config.urlPrefixes = [] then exactUrlPrefixesForOrigin manifest originId
        else config.urlPrefixes) = urlPrefixes at hnone ⊢
    by_cases hno : config.strategy = .changedPaths ∧ urlPrefixes = []
    · rw [if_pos hno]
      obtain ⟨h1, h2⟩ := hnone.mp hno.2
      exact iff_of_false (not_succeeds_fail _ _) fun h => h.1 hno.1 h1 h2
    · rw [if_neg hno, succeeds_map (uses_startTry (uses_start trivial)), succeeds_cdnRepository]
      exact ⟨fun h => ⟨fun h1 h2 h3 => hno ⟨h1, hnone.mpr ⟨h2, h3⟩⟩, h⟩, And.right⟩

/-- One turn of the loop over the purging clients. -/
theorem buildOriginCdn_succeeds_iff {manifest : RenderMeshManifest}
    {built : Std.TreeMap Str OriginCdnRefresh × Std.TreeSet Str} {entry : Str × OriginConfig}
    {s : StartupWorld P} : Succeeds deps env (buildOriginCdn manifest built entry) s ↔
      ∀ config, cdnOf entry.2 = some config → HasPurges env manifest entry.1 config := by
  unfold buildOriginCdn
  split
  · rename_i hcdn
    exact iff_of_true (succeeds_pure _ _) fun _ h => by rw [hcdn] at h; cases h
  · rename_i config hcdn
    rw [hcdn]
    simp only [Option.some.injEq, forall_eq', HasPurges, HasClient]
    generalize exactHostsForOrigin manifest entry.1 = hosts
    -- an error is given a text of its own
    have hanswer : run (startupStep deps.toDeps env)
        (start (.cdnRepository (.cloudFrontSaas config) hosts)) s =
        (.ok (env.cdnRepository (.cloudFrontSaas config) hosts), s) := rfl
    rw [Succeeds, run_bind, hanswer]
    cases env.cdnRepository (.cloudFrontSaas config) hosts with
    | ok u => exact iff_of_true ⟨_, rfl⟩ ⟨u, rfl⟩
    | error e => exact iff_of_false (fun ⟨_, h⟩ => by cases h) fun ⟨_, h⟩ => by cases h
  · rename_i config hsaas hcdn
    rw [succeeds_map (originCdnRefreshFromConfig_uses _ _),
      originCdnRefreshFromConfig_succeeds_iff hsaas, hcdn]
    simp only [Option.some.injEq, forall_eq']

theorem readEnv_ok_iff {key context : Str} :
    (∃ value, readEnv deps key context = .ok value) ↔ ∃ value, deps.envVar key = some value := by
  unfold readEnv
  cases deps.envVar key <;> simp

/-- The variable of the certificate is read where one is named. -/
theorem certificate_ok_iff {name : Option Str} {q : Option Str → Prop} {p : Prop}
    (hq : ∀ certificateArn : Option Str, certificateArn.isSome = name.isSome → (q certificateArn ↔ p)) :
    (∃ certificateArn, (match name with
        | some key => (readEnv deps key "read CDN certificate ARN env ".toList).map some
        | none => .ok none) = .ok certificateArn ∧ q certificateArn) ↔
      (∀ key, name = some key → ∃ value, deps.envVar key = some value) ∧ p := by
  cases name with
  | none => simp [hq none rfl]
  | some key =>
    unfold readEnv
    cases hvar : deps.envVar key with
    | none => simp [hvar, Except.map]
    | some value => simp [hvar, Except.map, hq (some value) rfl]

theorem originCdnDomainsFromConfig_succeeds_iff {config : CdnConfig} {s : StartupWorld P} :
    Succeeds deps env (originCdnDomainsFromConfig deps config) s ↔ HasDomains deps env config := by
  have huses : (startTry (start (.cdnRepository config ∅))).Uses Builds :=
    uses_startTry (uses_start trivial)
  unfold originCdnDomainsFromConfig HasDomains
  cases hdomains : cdnDomains config with
  | none => exact iff_of_true (succeeds_pure _ _) fun _ h => by cases h
  | some domains =>
    simp only [Option.some.injEq, forall_eq']
    cases henabled : domains.enabled with
    | false => exact iff_of_true (succeeds_pure _ _) fun h => by cases h
    | true =>
      simp only [Bool.not_true, Bool.false_eq_true, if_false, forall_const, succeeds_ofExcept_bind]
      rw [← @readEnv_ok_iff deps domains.originDomainEnv "read CDN origin domain env ".toList,
        ← exists_and_right]
      refine exists_congr fun originDomain => and_congr_right fun _ =>
        certificate_ok_iff fun certificateArn hsome => ?_
      cases config with
      | cloudFrontSaas config => cases hdomains
      | cloudFront config =>
        cases certificateArn with
        | none =>
          have hnone : domains.certificateArnEnv = none := Option.not_isSome_iff_eq_none.mp (by simp [← hsome])
          exact iff_of_false (not_succeeds_fail _ _) fun h => h.2 hnone
        | some arn =>
          refine (succeeds_map huses _).trans (succeeds_cdnRepository.trans (and_iff_left ?_).symm)
          rw [← Option.isSome_iff_ne_none, ← hsome]
          rfl
      | cloudflare config =>
        cases hmode : domains.mode with
        | dnsRecords => exact (succeeds_map huses _).trans (succeeds_cdnRepository.trans (and_iff_left rfl).symm)
        | customHostnames => exact iff_of_false (not_succeeds_fail _ _) fun h => by cases h.2

/-- One turn of the loop over the domains. -/
theorem buildOriginCdnDomains_succeeds_iff {built : Std.TreeMap Str OriginCdnDomains}
    {entry : Str × OriginConfig} {s : StartupWorld P} :
    Succeeds deps env (buildOriginCdnDomains deps built entry) s ↔
      ∀ config, cdnOf entry.2 = some config → HasDomains deps env config := by
  unfold buildOriginCdnDomains
  cases hcdn : cdnOf entry.2 with
  | none => exact iff_of_true (succeeds_pure _ _) fun _ h => by cases h
  | some config =>
    simp only [Option.some.injEq, forall_eq']
    rw [succeeds_bind (q := True) (originCdnDomainsFromConfig_uses deps config) fun domains => ?_,
      and_true, originCdnDomainsFromConfig_succeeds_iff]
    cases domains <;> exact iff_of_true (succeeds_pure _ _) trivial

theorem buildStartupCdn_succeeds_iff {manifest : RenderMeshManifest} {s : StartupWorld P} :
    Succeeds deps env (buildStartupCdn deps manifest) s ↔
      (∀ entry ∈ manifest.origins.toList, ∀ config, cdnOf entry.2 = some config →
        HasPurges env manifest entry.1 config) ∧
      ∀ entry ∈ manifest.origins.toList, ∀ config, cdnOf entry.2 = some config →
        HasDomains deps env config := by
  rw [buildStartupCdn, succeeds_bind
    (Prog.uses_fold (fun built entry _ => buildOriginCdn_uses manifest built entry) _) fun _ => ?_,
    succeeds_fold (buildOriginCdn_uses manifest) fun built entry _ => buildOriginCdn_succeeds_iff]
  rw [succeeds_map (Prog.uses_fold (fun built entry _ => buildOriginCdnDomains_uses deps built entry) _)]
  exact succeeds_fold (buildOriginCdnDomains_uses deps)
    (fun built entry _ => buildOriginCdnDomains_succeeds_iff) _

theorem constructible_iff {manifest : RenderMeshManifest} {path : PathBuf} {s : StartupWorld P} :
    Succeeds deps env (buildStartupOrigins deps manifest path) s ∧
      Succeeds deps env (buildStartupCdn deps manifest) s ↔ Constructible deps env path manifest := by
  rw [buildStartupOrigins_succeeds_iff, buildStartupCdn_succeeds_iff]
  exact ⟨fun ⟨h1, h2, h3⟩ => ⟨h1, h2, h3⟩, fun h => ⟨h.storages, h.purges, h.domains⟩⟩

end

end RenderMesh.Startup
