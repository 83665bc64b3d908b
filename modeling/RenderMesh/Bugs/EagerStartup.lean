import RenderMesh.Domains.Resolver
import RenderMesh.Refresh.Activations
import RenderMesh.Refresh.Delivery
import RenderMesh.Startup.Construction

/-!
# A startup that acts before it has checked its hosts

Behaviour (`src/src/services/startup.rs:35-83`): the hosts of the manifest are compiled into the
resolver last, after every origin was refreshed, its domains and tenants were reconciled and the
background refreshes were started. `parse_manifest_config` does not look at what a host key says.

Intended: `validate_manifest` checks the hosts with everything else when the manifest is read (an
empty key, an unknown origin), and what a CDN needs is resolved "during startup before making AWS
calls" (`docs/configuration.md`). Only the checks of `HostResolver::new`, an invalid host and a
second `*`, are left until the end.

Counterexample: with the host `a_b.com` the server does not start, but by then the first origin has
a new mirror (`startup_acts_on_bad_host`).

Condition: `startup_validates_first_iff`. The manifest is refused when it is read, or it has no
origins, or a storage or a CDN client of its origins cannot be made (`Constructible`). For any other
manifest that is refused there is a state of the storage in which the first refresh activates a
mirror: that of a storage without objects, on an empty disk (`vacant_returns`).
-/
namespace RenderMesh.Bugs.EagerStartup

open RenderMesh.Core RenderMesh.Mirror RenderMesh.Server RenderMesh.Domains RenderMesh.Refresh
open RenderMesh.Cdn RenderMesh.Startup

variable {P : Type}

/-- A process that has just begun: files of an earlier one, and whatever the providers hold. -/
def StartupWorld.begin (fs : Tree) (providers : P) : StartupWorld P := ⟨World.start fs, providers, []⟩

/-- A manifest that `parse_manifest_config` or `HostResolver::new` refuses. -/
def Refused (deps : StartupDeps) (content : Str) : Prop :=
  ∀ manifest, parseManifestConfig deps.yaml deps.json content = .ok manifest →
    ∃ e, HostResolver.new manifest = .error e

section
variable (deps : StartupDeps) (env : StartupEnv P)

/-- A step with an effect: a mirror is activated or a purge is submitted, the providers' state
is changed, or a background refresh is started. -/
def Effect : StartupOp → StartupWorld P → Prop
  | .refreshOrigin service originId, s =>
    service.hasOrigin originId = true ∧ s.server.locks originId = false ∧
      ∃ e ∈ trace (step deps.toDeps env.server) (pipeline deps.toDeps service originId)
        (s.server.lock originId), Acts env.server e.1 e.2
  | .reconcileDomains request, s => (env.reconcileDomains request s.providers).2 ≠ s.providers
  | .reconcileTenants request, s => (env.reconcileTenants request s.providers).2 ≠ s.providers
  | .spawn _ _, _ => True
  | _, _ => False

/-- The startup ends in an error, or with the process, and none of its steps had an effect. -/
def FailsInert (path : PathBuf) (s : StartupWorld P) : Prop :=
  ((∃ e, (run (startupStep deps.toDeps env) (buildRenderRuntime deps path) s).1 = .err e) ∨
      (run (startupStep deps.toDeps env) (buildRenderRuntime deps path) s).1 = .dropped) ∧
    ∀ e ∈ trace (startupStep deps.toDeps env) (buildRenderRuntime deps path) s,
      ¬ Effect deps env e.1 e.2

/-- A startup fails without an effect, in every state of the storages, the disk and the
providers. -/
def ValidatesFirst (path : PathBuf) : Prop :=
  ∀ server fs providers, FailsInert deps { env with server := server } path
    (StartupWorld.begin fs providers)

end

section
variable {deps : StartupDeps} {env : StartupEnv P}

theorem builds_no_effect {o : StartupOp} (h : Builds o) (s : StartupWorld P) : ¬ Effect deps env o s := by
  cases o <;> first | exact id | exact h.elim

/-! ## The first refresh -/

/-- Each origin has a storage when all are built. -/
theorem built_hasOrigin {manifest : RenderMeshManifest} {path : PathBuf} {origins : StartupOrigins}
    {s s' : StartupWorld P}
    (h : run (startupStep deps.toDeps env) (buildStartupOrigins deps manifest path) s =
      (.ok origins, s')) {id : Str} (hid : id ∈ manifest.origins.toList.map (·.1)) :
    origins.storageByOrigin.contains id = true := by
  obtain ⟨built, s1, hloop, hend⟩ := run_bind_ok _ |>.mp h
  cases hend
  have hall := run_fold_ok _ (fun done _ built _ => ∀ id ∈ done.map (·.1), built.1.contains id = true)
    ?_ _ [] _ _ _ _ (by simp) hloop
  · exact hall id (by simpa using hid)
  · intro done entry rest built s built' s' hdone hturn id hmem
    obtain ⟨_, s1, -, hturn⟩ := run_bind_ok _ |>.mp hturn
    cases hturn
    rw [List.map_append, List.mem_append] at hmem
    simp only [Std.TreeSet.contains_insert, Bool.or_eq_true]
    rcases hmem with hmem | hmem
    · exact Or.inr (hdone id hmem)
    · left
      simp only [List.map_cons, List.map_nil, List.mem_singleton] at hmem
      rw [hmem]
      simp

/-- A refresh that returns has an effect. -/
theorem effect_of_refresh_ok {service : OriginRefreshService} {id : Str} {s : StartupWorld P}
    (hhas : service.hasOrigin id = true) (hlocks : s.server.locks id = false)
    {response : OriginSyncResponse} {w' : World}
    (hrun : run (step deps.toDeps env.server) (refreshOriginSnapshot deps.toDeps id (service.cdn id)
      (service.activationBarrier id)) (s.server.lock id) = (.ok response, w')) :
    Effect deps env (.refreshOrigin service id) s :=
  ⟨hhas, hlocks, refresh_acts_iff.mpr (refresh_ok_swapsIn hrun)⟩

/-- A storage without objects, and a disk on which every call succeeds. -/
def vacant : Env := { calmEnv with long := fun _ => false }

theorem vacant_healthy : Healthy vacant := ⟨fun _ _ => rfl, fun _ => rfl⟩

theorem vacant_sound (deps : Deps) (id : Str) : Sound deps vacant id (· ∈ pageKeys) := by
  have hnone : ∀ k, ¬ WasListed vacant id k := by
    rintro k ⟨t, summaries, ⟨⟩, s, hs, -⟩
    cases hs
  exact ⟨⟨calmPage_sound.storable, fun k hk => absurd hk (hnone k),
      fun _ k _ hk => absurd hk (hnone k), fun _ k _ hk => absurd hk (hnone k),
      fun _ k _ hk => absurd hk (hnone k)⟩, calmPage_sound.candidates,
    fun _ _ _ _ hk => absurd hk (hnone _)⟩

/-- The first refresh of such a storage returns: nothing changed, so no barrier stands in its way,
and nothing is purged. -/
theorem vacant_returns (deps : Deps) {id : Str} (hid : validateOriginId id = .ok ())
    (cdn : Option OriginCdnRefresh) (barrier : Option Str) :
    ∃ response w', run (step deps vacant) (refreshOriginSnapshot deps id cdn barrier)
      ((World.start FileTree.empty).lock id) = (.ok response, w') := by
  have hready := (@ready_empty deps vacant id hid (· ∈ pageKeys)).poised
  have hlaid : Laid deps vacant id (Orderly deps (· ∈ pageKeys)) ((World.start FileTree.empty).lock id) :=
    ⟨hready.mirror, hready.backups, hready.tree, hready.staging⟩
  have hsound := vacant_sound deps id
  have hsteady : Steady vacant id ((World.start FileTree.empty).lock id).clock [] :=
    ⟨fun _ _ => rfl, fun s hs => by cases hs⟩
  have hbarrier : ∀ now index, buildOriginIndex id [] now = .ok index →
      validateActivationBarrier id none index (diffOriginIndexes none index) barrier = .ok () := by
    intro now index hindex
    cases hindex
    cases barrier <;> rfl
  obtain ⟨response, w', hrun, -⟩ := refreshOriginSnapshot_returns vacant_healthy
    hsound.storable.orderly hid hsound.toSupply (fun _ _ h => by cases h) hlaid hsteady
    (fun _ _ hindex k hk => by
      obtain ⟨s, hs, -⟩ := (mem_files_iff hindex k).mp hk
      cases hs)
    (fun _ horder hfiles hholds => hsound.configReads horder (fun s hs => by cases hs) hfiles hholds
      fun c hc => hc) cdn hbarrier
  exact ⟨response, w', hrun⟩

/-! ## The startup -/

theorem parseManifestConfig_origins {yaml json : Str → Except Str RenderMeshManifest} {input : Str}
    {manifest : RenderMeshManifest} (h : parseManifestConfig yaml json input = .ok manifest)
    {entry : Str × OriginConfig} (hentry : entry ∈ manifest.origins.toList) :
    validateOriginId entry.1 = .ok () := by
  obtain ⟨manifest', -, hrest⟩ := exceptBind_ok.mp h
  obtain ⟨_, hvalid, hend⟩ := exceptBind_ok.mp hrest
  cases hend
  obtain ⟨_, -, h1⟩ := exceptBind_ok.mp hvalid
  obtain ⟨_, -, h2⟩ := exceptBind_ok.mp h1
  obtain ⟨_, -, h3⟩ := exceptBind_ok.mp h2
  obtain ⟨_, horigins, -⟩ := exceptBind_ok.mp h3
  obtain ⟨_, hid, -⟩ := exceptBind_ok.mp (forM_ok_iff.mp horigins entry hentry)
  exact hid

/-- Without origins there is nothing to do but to compile the hosts. -/
theorem launch_inert {manifest : RenderMeshManifest} {origins : StartupOrigins} {cdn : StartupCdn}
    {s : StartupWorld P} (hnew : ∃ e, HostResolver.new manifest = .error e)
    (hnone : manifest.origins.toList = []) :
    Along (startupStep deps.toDeps env) (fun o s => ¬ Effect deps env o s)
      (fun out _ => (∃ e, out = .err e) ∨ out = .dropped) (launch manifest origins cdn) s := by
  obtain ⟨e, he⟩ := hnew
  refine Along.bind ?_
  rw [syncOriginsAtStartup, hnone]
  show Along _ _ _ (spawnBackgroundSync manifest >>= _) s
  rw [spawnBackgroundSync, hnone, he]
  exact Or.inl ⟨e, rfl⟩

/-- The first refresh is a step of a startup that gets so far. -/
theorem mem_trace_launch {manifest : RenderMeshManifest} {origins : StartupOrigins} {cdn : StartupCdn}
    {s : StartupWorld P} {id : Str} (hid : id ∈ (manifest.origins.toList.map (·.1)).head?) :
    (.refreshOrigin (originRefreshService origins cdn) id, s) ∈
      trace (startupStep deps.toDeps env) (launch manifest origins cdn) s := by
  refine mem_trace_bind_left _ ?_
  rw [syncOriginsAtStartup]
  cases hkeys : manifest.origins.toList.map (·.1) with
  | nil =>
    rw [hkeys] at hid
    cases hid
  | cons key rest =>
    rw [hkeys] at hid
    cases hid
    rw [Prog.each, run_fold_cons]
    exact mem_trace_bind_left _ (mem_trace_perform _ _ _ _)

/-- A part of the startup that only builds. -/
theorem along_builds {α β : Type} {m : Starting α} (hm : m.Uses Builds) {f : α → Starting β}
    {s : StartupWorld P} (hf : ∀ a, run (startupStep deps.toDeps env) m s = (.ok a, s) →
      Along (startupStep deps.toDeps env) (fun o s => ¬ Effect deps env o s)
        (fun out _ => (∃ e, out = .err e) ∨ out = .dropped) (f a) s) :
    Along (startupStep deps.toDeps env) (fun o s => ¬ Effect deps env o s)
      (fun out _ => (∃ e, out = .err e) ∨ out = .dropped) (m >>= f) s := by
  refine Along.bind (along_iff.mpr ⟨fun e he => builds_no_effect (mem_trace_of_uses hm s e he) e.2, ?_⟩)
  have hstate := @builds_state P deps env _ _ hm s
  rcases hrun : run (startupStep deps.toDeps env) m s with ⟨a | e | _, s'⟩
  · rw [hrun] at hstate
    obtain rfl : s' = s := hstate
    exact hf a hrun
  · exact Or.inl ⟨e, rfl⟩
  · exact Or.inr rfl

theorem run_loadContent {path : PathBuf} {content : Str} (hcontent : env.manifestFile path = .ok content)
    (s : StartupWorld P) :
    run (startupStep deps.toDeps env) (startTry (start (.loadContent path))) s = (.ok content, s) := by
  rw [startTry, run_bind, start, run_perform]
  simp only [startupStep, hcontent, run_ofExcept]

/-- A manifest with origins that can be constructed is acted on, if the disk is empty and
the storages have no objects. -/
theorem effect_of_constructible {path : PathBuf} {content : Str} {manifest : RenderMeshManifest}
    (hvacant : env.server = vacant) (providers : P) (hcontent : env.manifestFile path = .ok content)
    (hparse : parseManifestConfig deps.yaml deps.json content = .ok manifest)
    (hsome : manifest.origins.toList ≠ []) (hbuilt : Constructible deps env path manifest) :
    ∃ e ∈ trace (startupStep deps.toDeps env) (buildRenderRuntime deps path)
      (StartupWorld.begin FileTree.empty providers), Effect deps env e.1 e.2 := by
  obtain ⟨⟨origins, horigins⟩, cdn, hcdn⟩ :=
    (@constructible_iff _ _ _ _ _ (StartupWorld.begin FileTree.empty providers)).mpr hbuilt
  obtain ⟨entry, rest, hkeys⟩ := List.exists_cons_of_ne_nil hsome
  have hmem : entry ∈ manifest.origins.toList := by simp [hkeys]
  have hmanifest : run (startupStep deps.toDeps env)
      (Prog.ofExcept (parseManifestConfig deps.yaml deps.json content))
      (StartupWorld.begin FileTree.empty providers) =
      (.ok manifest, StartupWorld.begin FileTree.empty providers) := by
    rw [run_ofExcept, hparse]
  obtain ⟨response, w', hrefresh⟩ := vacant_returns deps.toDeps (parseManifestConfig_origins hparse hmem)
    ((originRefreshService origins cdn).cdn entry.1)
    ((originRefreshService origins cdn).activationBarrier entry.1)
  rw [← hvacant] at hrefresh
  refine ⟨(.refreshOrigin (originRefreshService origins cdn) entry.1,
    StartupWorld.begin FileTree.empty providers), ?_,
    effect_of_refresh_ok (built_hasOrigin horigins (List.mem_map_of_mem hmem)) rfl hrefresh⟩
  refine mem_trace_bind _ (run_loadContent hcontent _) (mem_trace_bind _ hmanifest ?_)
  exact mem_trace_bind _ horigins (mem_trace_bind _ hcdn (mem_trace_launch (by simp [hkeys])))

/-- A manifest that is refused is refused before anything is done, whatever the state of the
storages and of the providers, exactly if it is refused when it is read, or names no origin, or
its origins cannot be constructed. -/
theorem startup_validates_first_iff {path : PathBuf} {content : Str} (providers : P)
    (hcontent : env.manifestFile path = .ok content) (hrefused : Refused deps content) :
    ValidatesFirst deps env path ↔
      ∀ manifest, parseManifestConfig deps.yaml deps.json content = .ok manifest →
        manifest.origins.toList = [] ∨ ¬ Constructible deps env path manifest := by
  constructor
  · intro hfirst manifest hparse
    by_contra hno
    obtain ⟨hsome, hbuilt⟩ := not_or.mp hno
    have hbuilt := not_not.mp hbuilt
    obtain ⟨e, he, heffect⟩ := @effect_of_constructible P deps { env with server := vacant } path content
      manifest rfl providers hcontent hparse hsome ⟨hbuilt.storages, hbuilt.purges, hbuilt.domains⟩
    exact (hfirst vacant FileTree.empty providers).2 e he heffect
  · intro hrule server fs providers
    suffices h : Along (startupStep deps.toDeps { env with server := server })
        (fun o s => ¬ Effect deps { env with server := server } o s)
        (fun out _ => (∃ e, out = .err e) ∨ out = .dropped) (buildRenderRuntime deps path)
        (StartupWorld.begin fs providers) from (along_iff.mp h).symm
    refine Along.bind (along_iff.mpr ⟨?_, ?_⟩)
    · intro e he
      have hop : Prog.Uses (fun o => ∀ s, ¬ Effect deps { env with server := server } o s)
          (startTry (start (.loadContent path))) := uses_startTry (uses_start fun s => not_false)
      exact mem_trace_of_uses hop _ e he e.2
    · rw [@run_loadContent P deps { env with server := server } path content hcontent]
      refine along_ofExcept_bind (fun manifest hparse => ?_) (fun e _ => Or.inl ⟨e, rfl⟩)
      refine along_builds (buildStartupOrigins_uses deps manifest path) fun origins horigins => ?_
      refine along_builds (buildStartupCdn_uses deps manifest) fun cdn hcdn => ?_
      rcases hrule manifest hparse with hnone | hnot
      · exact launch_inert (hrefused manifest hparse) hnone
      · have hbuilt := constructible_iff.mp ⟨⟨origins, horigins⟩, cdn, hcdn⟩
        exact absurd ⟨hbuilt.storages, hbuilt.purges, hbuilt.domains⟩ hnot

end

/-! ## Two origins and a bad host -/

/-- A host that no resolver accepts. -/
def badHost : RenderMeshManifest := smallManifest [("a_b.com", "web")]

/-- The deserializers know one manifest. -/
def badDeps : StartupDeps :=
  { smallDeps with
    yaml := fun _ => .ok badHost
    json := fun _ => .ok badHost
    envVar := fun _ => none
    originEdgeContexts := fun _ => ∅ }

/-- Storages that are built, and no providers. -/
def badEnv (server : Env) : StartupEnv Unit where
  server := server
  manifestFile := fun _ => .ok []
  originStorage := fun _ _ => .ok ()
  cdnRepository := fun _ _ => .ok ()
  reconcileDomains := fun _ p => (.error (anyhow "no provider".toList), p)
  reconcileTenants := fun _ p => (.error (anyhow "no provider".toList), p)

theorem badHost_parsed : parseManifestConfig badDeps.yaml badDeps.json [] = .ok badHost := rfl

theorem badHost_refused : Refused badDeps [] := by
  intro manifest hparse
  cases badHost_parsed.symm.trans hparse
  exact ⟨_, rfl⟩

/-- **Counterexample**: the first origin has a new mirror before the host is refused. -/
theorem startup_acts_on_bad_host :
    (badEnv calmEnv).manifestFile "m.yaml".toList = .ok [] ∧ Refused badDeps [] ∧
      (∃ e ∈ trace (startupStep badDeps.toDeps (badEnv vacant))
        (buildRenderRuntime badDeps "m.yaml".toList) (StartupWorld.begin FileTree.empty ()),
        Effect badDeps (badEnv vacant) e.1 e.2) ∧
      ¬ ValidatesFirst badDeps (badEnv calmEnv) "m.yaml".toList := by
  have hsome : badHost.origins.toList ≠ [] := by decide +kernel
  have hplain : ∀ entry ∈ badHost.origins.toList, cdnOf entry.2 = none := by decide +kernel
  have hbuilt : Constructible badDeps (badEnv vacant) "m.yaml".toList badHost := by
    refine ⟨fun _ _ => ⟨(), rfl⟩, fun entry hentry config h => ?_, fun entry hentry config h => ?_⟩
    · rw [hplain entry hentry] at h
      cases h
    · rw [hplain entry hentry] at h
      cases h
  obtain ⟨e, he, heffect⟩ := @effect_of_constructible _ badDeps (badEnv vacant) "m.yaml".toList [] badHost
    rfl () rfl badHost_parsed hsome hbuilt
  exact ⟨rfl, badHost_refused, ⟨e, he, heffect⟩,
    fun h => (h vacant FileTree.empty ()).2 e he heffect⟩

/-- The host is bad, and the storage of an origin cannot be made. -/
theorem startup_validates_first_unbuilt :
    ValidatesFirst badDeps { badEnv calmEnv with
      originStorage := fun _ _ => .error (anyhow "no such directory".toList) } "m.yaml".toList := by
  refine (@startup_validates_first_iff _ badDeps { badEnv calmEnv with
      originStorage := fun _ _ => .error (anyhow "no such directory".toList) } "m.yaml".toList [] () rfl
    badHost_refused).mpr fun manifest hparse => Or.inr fun hbuilt => ?_
  cases badHost_parsed.symm.trans hparse
  have hsome : badHost.origins.toList ≠ [] := by decide +kernel
  obtain ⟨entry, rest, hkeys⟩ := List.exists_cons_of_ne_nil hsome
  obtain ⟨u, ⟨⟩⟩ := hbuilt.storages entry (by simp [hkeys])

end RenderMesh.Bugs.EagerStartup
