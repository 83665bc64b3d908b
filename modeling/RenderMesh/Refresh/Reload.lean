import RenderMesh.Refresh.Registry

/-!
# Loading a registry from the mirror

`load_origin_registry` walks the active mirror and compiles every HTML object in it.
On a healthy disk it finds what refresh after refresh has kept in the store.

* `loadOriginRegistry_returns`: a load of an active mirror gives its registry.
* `registered_step`: a refresh keeps the registry of the mirror, unless a failure of the file
  system tears the mirror or hides it from the staging.
* `registered_refreshes`: the registry is active after every refresh of a run.
-/
namespace RenderMesh.Refresh

open RenderMesh.Core RenderMesh.Mirror RenderMesh.Server

variable {deps : Deps} {env : Env}

theorem templateKey_joinNames {d : PathBuf} (hd : d ≠ []) (ns : List Name) :
    templateKey deps d (joinNames d ns) = normalizeObjectPath (keyOf ns) := by
  unfold templateKey
  rw [components_joinNames hd, if_pos (List.prefix_append _ _), List.drop_left]
  simp [keyOf, List.filterMap_map]

/-- In a directory with a clear way to `p`, no regular file is on the whole path. -/
theorem no_file_of_clearWay {w : World} {d : PathBuf} {p : List Name}
    (h : ClearWay (w.under d) p) (htop : w.under d [] = some .dir) (hnone : w.under d p = none)
    (s : List Name) (b : Bytes) (hs : s <+: names d ++ p) : w.fs.lookup s ≠ some (.file b) := by
  intro hb
  rw [World.under, List.append_nil] at htop
  rcases List.prefix_or_prefix_of_prefix hs (List.prefix_append _ _) with ⟨r, hr⟩ | ⟨r, rfl⟩
  · by_cases hr0 : r = []
    · rw [hr0, List.append_nil] at hr
      rw [hr, htop] at hb
      cases hb
    · rw [w.fs.above_dir hr0 (by rw [hr, htop]; rfl)] at hb
      cases hb
  · rw [List.prefix_append_right_inj] at hs
    refine h r b ?_ hs ?_ hb
    · rintro rfl
      rw [List.append_nil, htop] at hb
      cases hb
    · rintro rfl
      exact absurd (hnone.symm.trans hb) (by simp)

section
variable (henv : Healthy env)
include henv

theorem readMetadata_run {id k : Str} (hk : Canonical k) {w : World} {metadata : ObjectMetadata}
    (htop : w.under id [] = some .dir)
    (hmeta : MetadataAt deps (w.under id (sidecarNames deps k)) metadata)
    (hclear : ClearWay (w.under id) (sidecarNames deps k)) :
    run (step deps env) (readMetadata deps id k) w =
      (.ok metadata, w.did env (.read (joinNames id (sidecarNames deps k)))) := by
  have hside : metadataSidecarPath deps id k = .ok (joinNames id (sidecarNames deps k)) :=
    metadataSidecarPath_ok_iff.mpr ⟨k, hk.normalized, rfl⟩
  have hexec : ((FsOp.read (joinNames id (sidecarNames deps k))).exec env.long w.fs).1 =
      w.fs.readFile env.long (names id ++ sidecarNames deps k) false := by
    rw [FsOp.exec, names_joinNames, asDir_joinNames id (by simp [sidecarNames])]
  rw [readMetadata, hside]
  refine run_bind_ok _ |>.mpr ⟨_, w, rfl, run_bind_ok _ |>.mpr ⟨_, _, io_run (henv.fault _ _), ?_⟩⟩
  rw [hexec]
  rcases hmeta with ⟨hnone, rfl⟩ | ⟨bytes, content, hfile, hutf8, hjson⟩
  · have hstat : w.fs.stat env.long (names id ++ sidecarNames deps k) = .error .notFound := by
      rcases w.fs.stat_absent env.long hnone (henv.names _) with ⟨hs, -⟩ | ⟨-, s, b, hs, hb⟩
      · exact hs
      · exact absurd hb (no_file_of_clearWay hclear htop hnone s b hs)
    rw [FileTree.readFile, hstat]
    rfl
  · rw [FileTree.readFile_succeeds env.long hfile (henv.names _)]
    simp only [hutf8, hjson]
    rfl

/-- An object with its metadata is read from a healthy disk. -/
theorem readObject_found {root : PathBuf} {id : Str} (hid : validateOriginId id = .ok ())
    {path k : Str} (hpath : normalizeObjectPath path = .ok k) (hk : Canonical k) {w : World}
    {body : Bytes} {metadata : ObjectMetadata} (htop : w.under (child root id) [] = some .dir)
    (hbody : w.under (child root id) (names k) = some (.file body))
    (hmeta : MetadataAt deps (w.under (child root id) (sidecarNames deps k)) metadata)
    (hclear : ClearWay (w.under (child root id)) (sidecarNames deps k)) :
    Returns (step deps env) (fun object _ => object = some ⟨body, metadata⟩)
      (readObject deps root id path) w := by
  have hobject : objectPath root id k = .ok (join (child root id) k) :=
    objectPath_ok_iff.mpr ⟨hid, k, hk.normalized, rfl⟩
  have hdir : originDir root id = .ok (child root id) := originDir_ok_iff.mpr ⟨rfl, hid⟩
  have hread : ((FsOp.read (join (child root id) k)).exec env.long w.fs).1 = .ok body := by
    rw [FsOp.exec, names_join, asDir_join, asDir_of_plain hk.plain]
    exact FileTree.readFile_succeeds env.long hbody (henv.names _)
  have hmetadata := @readMetadata_run deps env henv (child root id) k hk
    (w.did env (.read (join (child root id) k))) metadata htop hmeta hclear
  refine ⟨_, (w.did env (.read (join (child root id) k))).did env
    (.read (joinNames (child root id) (sidecarNames deps k))), ?_, rfl⟩
  refine run_bind_ok _ |>.mpr ⟨child root id, w, by rw [hdir]; rfl, ?_⟩
  refine run_bind_ok _ |>.mpr ⟨k, w, by rw [hpath]; rfl, ?_⟩
  refine run_bind_ok _ |>.mpr ⟨_, w, by rw [hobject]; rfl, ?_⟩
  refine run_bind_ok _ |>.mpr ⟨_, _, io_run (henv.fault _ _), ?_⟩
  rw [hread]
  exact run_bind_ok _ |>.mpr ⟨_, _, hmetadata, rfl⟩

theorem readObject_returns {id : Str} (hid : validateOriginId id = .ok ()) {k : Str}
    (hk : Canonical k) {w : World} {body : Bytes} {metadata : ObjectMetadata}
    (htop : w.under id [] = some .dir)
    (hbody : w.under id (names k) = some (.file body))
    (hmeta : MetadataAt deps (w.under id (sidecarNames deps k)) metadata)
    (hclear : ClearWay (w.under id) (sidecarNames deps k)) :
    Returns (step deps env) (fun object _ => object = some ⟨body, metadata⟩)
      (readObject deps storeRoot id k) w :=
  readObject_found henv hid hk.normalized hk htop hbody hmeta hclear

/-- What is not there is found missing. -/
theorem readObject_missing {root : PathBuf} {id : Str} (hid : validateOriginId id = .ok ())
    {path k : Str} (hpath : normalizeObjectPath path = .ok k) (hk : Canonical k) {w : World}
    (htop : w.under (child root id) [] = some .dir)
    (hnone : w.under (child root id) (names k) = none)
    (hclear : ClearWay (w.under (child root id)) (names k)) :
    Returns (step deps env) (fun object _ => object = none) (readObject deps root id path) w := by
  have hobject : objectPath root id k = .ok (join (child root id) k) :=
    objectPath_ok_iff.mpr ⟨hid, k, hk.normalized, rfl⟩
  have hdir : originDir root id = .ok (child root id) := originDir_ok_iff.mpr ⟨rfl, hid⟩
  have hread : ((FsOp.read (join (child root id) k)).exec env.long w.fs).1 = .error .notFound := by
    simp only [FsOp.exec, names_join]
    rcases w.fs.stat_absent env.long hnone (henv.names _) with ⟨hs, -⟩ | ⟨-, s, b, hs, hb⟩
    · rw [FileTree.readFile, hs]
    · exact absurd hb (no_file_of_clearWay hclear htop hnone s b hs)
  refine ⟨none, w.did env (.read (join (child root id) k)), ?_, rfl⟩
  refine run_bind_ok _ |>.mpr ⟨child root id, w, by rw [hdir]; rfl, ?_⟩
  refine run_bind_ok _ |>.mpr ⟨k, w, by rw [hpath]; rfl, ?_⟩
  refine run_bind_ok _ |>.mpr ⟨_, w, by rw [hobject]; rfl, ?_⟩
  refine run_bind_ok _ |>.mpr ⟨_, _, io_run (henv.fault _ _), ?_⟩
  rw [hread]
  rfl

/-- The walk over an active mirror gives the listed keys. -/
theorem mirrorFiles_returns {id : Str} (hid : validateOriginId id = .ok ()) {env' : Env}
    {index : OriginFreshnessIndex} {w : World} (h : ActiveRegistry deps env' id index w)
    (hkeys : ∀ k ∈ index.files, Canonical k) :
    Returns (step deps env) (fun files w' => (∀ k, k ∈ files ↔ k ∈ index.files) ∧
      ∀ q, w'.fs.lookup q = w.fs.lookup q) (mirrorFiles deps id) w := by
  have hentry : ∀ r, .entry r false ∈ w.fs.itinerary (fun rel => rel = [metaName]) (names id) ↔
      ∃ k ∈ index.files, r = names k := by
    intro r
    rw [FileTree.entry_mem_itinerary]
    constructor
    · rintro ⟨hr, hsome, hfile, hskip⟩
      obtain ⟨node, hnode⟩ := Option.isSome_iff_exists.mp hsome
      cases node with
      | dir => simp [FileTree.isDirAt, hnode] at hfile
      | file b =>
        refine h.files r b hr (fun hmeta => ?_) hnode
        obtain ⟨t, rfl⟩ := List.singleton_prefix_iff_head?_eq_some.mpr hmeta
        by_cases ht : t = []
        · rw [ht] at hnode
          exact h.metadataDir b hnode
        · -- the walk does not enter the metadata directory
          simpa using hskip [metaName] (by simp) (List.prefix_append _ _) (by simpa using ht)
    · rintro ⟨k, hk, rfl⟩
      obtain ⟨registry, -, hreg⟩ := h.registry
      obtain ⟨b, metadata, hb, -⟩ := (hreg k).1 hk
      have hb' : w.fs.lookup (names id ++ names k) = some (.file b) := hb
      refine ⟨names_ne_nil_of_plain (hkeys k hk).plain, by rw [hb']; rfl,
        by simp [FileTree.isDirAt, hb'], fun u hu hur _ => ?_⟩
      rw [decide_eq_false_iff_not]
      rintro rfl
      obtain ⟨s, hs⟩ := hur
      exact names_head_ne_meta (hkeys k hk).accepted (hkeys k hk).plain (by rw [← hs]; rfl)
  have hdirs : ∀ r, .readDir r ∈ w.fs.itinerary (fun rel => rel = [metaName]) (names id) →
      w.fs.lookup (names id ++ r) = some .dir := by
    intro r hr
    rcases FileTree.readDir_mem_itineraryFrom _ _ _ _ _ _ hr with rfl | hr
    · exact h.top
    · exact hr
  refine Returns.bind ⟨_, w, rfl, ?_⟩
  have hloop := Returns.fold (h := step deps env) (f := mirrorFile deps id)
    (fun done rest files w' => (∀ e ∈ rest,
        e ∈ w.fs.itinerary (fun rel => rel = [metaName]) (names id)) ∧
      (∀ k, k ∈ files ↔ ∃ k' ∈ index.files, .entry (names k') false ∈ done ∧ k = k') ∧
      w'.fs = w.fs) ?_
    (w.fs.itinerary (fun rel => rel = [metaName]) (names id)) [] [] w
    ⟨fun e he => he, (by simp), rfl⟩
  · refine hloop.mono fun files w' hend => ⟨fun k => ?_, fun q => by rw [hend.2.2]⟩
    rw [hend.2.1]
    constructor
    · rintro ⟨k', hk', -, rfl⟩
      exact hk'
    · intro hk
      exact ⟨k, hk, by simpa using (hentry (names k)).mpr ⟨k, hk, rfl⟩, rfl⟩
  · rintro done e rest files w1 ⟨hrest, hfiles, hfs⟩
    have he := hrest e (by simp)
    have hrest' : ∀ e ∈ rest, e ∈ w.fs.itinerary (fun rel => rel = [metaName]) (names id) :=
      fun e' he' => hrest e' (by simp [he'])
    cases e with
    | readDir rel =>
      have hexec : ((FsOp.readDir (joinNames id rel)).exec env.long w1.fs).1 = .ok () := by
        rw [FsOp.exec, names_joinNames, hfs, FileTree.stat_succeeds env.long (hdirs rel he)
          (henv.names _)]
      refine ⟨files, w1.did env (.readDir (joinNames id rel)), ?_, hrest', fun k => ?_, hfs⟩
      · exact run_bind_ok _ |>.mpr ⟨_, _, ioUnlessNotFound_run (henv.fault _ _) (Or.inl ⟨_, hexec⟩), rfl⟩
      · rw [hfiles]
        simp
    | entry rel isDir =>
      have hvisit : run (step deps env) (ioTry (.visit (joinNames id rel))) w1 =
          (.ok (), w1.did env (.visit (joinNames id rel))) := ioTry_run (henv.fault _ _) rfl
      cases isDir with
      | true =>
        refine ⟨files, w1.did env (.visit (joinNames id rel)), ?_, hrest', fun k => ?_, hfs⟩
        · exact run_bind_ok _ |>.mpr ⟨_, _, hvisit, rfl⟩
        · rw [hfiles]
          simp
      | false =>
        obtain ⟨k, hk, rfl⟩ := (hentry rel).mp he
        have hkey : templateKey deps id (joinNames id (names k)) = .ok k := by
          rw [templateKey_joinNames (origin_ne_nil hid), keyOf_names (hkeys k hk).plain,
            (hkeys k hk).normalized]
        refine ⟨files ++ [k], w1.did env (.visit (joinNames id (names k))), ?_, hrest',
          fun x => ?_, hfs⟩
        · refine run_bind_ok _ |>.mpr ⟨_, _, hvisit, ?_⟩
          rw [if_neg (by simp), hkey]
          rfl
        · rw [List.mem_append, hfiles, List.mem_singleton]
          constructor
          · rintro (⟨x, hx, hdone, rfl⟩ | rfl)
            · exact ⟨_, hx, List.mem_append_left _ hdone, rfl⟩
            · exact ⟨_, hk, List.mem_append_right _ (by simp), rfl⟩
          · rintro ⟨x, hx, hdone, rfl⟩
            rw [List.mem_append, List.mem_singleton, WalkEvent.entry.injEq] at hdone
            rcases hdone with hdone | ⟨hn, -⟩
            · exact Or.inl ⟨_, hx, hdone, rfl⟩
            · exact Or.inr (names_injOn_plain (hkeys _ hx).plain (hkeys k hk).plain hn)

/-- A load of an active mirror gives its registry. -/
theorem loadOriginRegistry_returns {id : Str} (hid : validateOriginId id = .ok ()) {env' : Env}
    {index : OriginFreshnessIndex} {w : World} (h : ActiveRegistry deps env' id index w)
    (hkeys : ∀ k ∈ index.files, Canonical k) :
    Returns (step deps env) (fun registry _ => w.templates id = some registry)
      (loadOriginRegistry deps storeRoot id) w := by
  obtain ⟨registry, hregistry, hreg⟩ := h.registry
  refine Returns.bind ⟨id, w, by rw [originDir_ok_iff.mpr ⟨rfl, hid⟩]; rfl, ?_⟩
  refine Returns.bind ((mirrorFiles_returns henv hid h hkeys).mono fun files w' hfiles => ?_)
  obtain ⟨hmem, hsame⟩ := hfiles
  have hloop := Returns.fold (h := step deps env) (f := loadTemplate deps storeRoot id)
    (fun done rest loaded w1 => (∀ k ∈ rest, k ∈ index.files) ∧
      (∀ q, w1.fs.lookup q = w.fs.lookup q) ∧
      ∀ k, (k ∈ done → loaded k = registry k) ∧ (k ∉ done → loaded k = none)) ?_
    files [] (fun _ => none) w' ⟨fun k hk => (hmem k).mp hk, hsame, fun k => ⟨(by simp), fun _ => rfl⟩⟩
  · refine hloop.mono fun loaded w1 hend => ?_
    rw [hregistry]
    refine congrArg some (funext fun k => ?_)
    by_cases hk : k ∈ index.files
    · exact ((hend.2.2 k).1 (by simpa using (hmem k).mpr hk)).symm
    · rw [(hend.2.2 k).2 (by simpa using fun hf => hk ((hmem k).mp hf)), (hreg k).2 hk]
  · rintro done k rest loaded w1 ⟨hrest, hfs, hloaded⟩
    have hunder : w1.under id = w.under id := funext fun r => hfs _
    obtain ⟨body, metadata, hbody, hmeta, hclear, hyes, hno⟩ := (hreg k).1 (hrest k (by simp))
    have hread := readObject_returns henv hid (hkeys k (hrest k (by simp))) (by rw [hunder]; exact h.top)
      (by rw [hunder]; exact hbody) (by rw [hunder]; exact hmeta) (by rw [hunder]; exact hclear)
    have hreads := fun w => (run_reads deps env (readObject_reads deps storeRoot id k) w).2
    refine Returns.bind (hread.with_run.mono ?_)
    rintro object w2 ⟨rfl, hrun⟩
    have hfs2 : ∀ q, w2.fs.lookup q = w.fs.lookup q := fun q => by
      have := hreads w1 q
      rw [hrun] at this
      exact this.trans (hfs q)
    have hrest' : ∀ x ∈ rest, x ∈ index.files := fun x hx => hrest x (by simp [hx])
    cases hhtml : isHtml k metadata.contentType with
    | true =>
      obtain ⟨content, hutf8, hcompile, hk⟩ := hyes hhtml
      refine ⟨Function.update loaded k (some content), w2, ?_, hrest', hfs2, fun x => ?_⟩
      · simp only [hhtml, hutf8, hcompile, if_true]
        rfl
      · by_cases hx : x = k
        · subst hx
          simp [hk]
        · simpa [hx] using hloaded x
    | false =>
      refine ⟨loaded, w2, by simp only [hhtml]; rfl, hrest', hfs2, fun x => ?_⟩
      by_cases hx : x = k
      · subst hx
        by_cases hdone : x ∈ done
        · simpa [hdone] using (hloaded x).1 hdone
        · simpa [hno hhtml] using (hloaded x).2 hdone
      · simpa [hx] using hloaded x

end

/-! ## Runs -/

section
variable {service : OriginRefreshService} {id : Str}

/-- The next refresh of `id` meets no failure of the file system that tears its mirror
or hides it from the staging. -/
structure Undisturbed (deps : Deps) (env : Env) (service : OriginRefreshService) (id : Str)
    (w : World) : Prop where
  swap : ∀ e ∈ trace (step deps env) (pipeline deps service id) (w.lock id),
    tearsMirror env id (w.fs.lookup (names id)).isSome e.1 e.2 = false
  staging : ∀ e ∈ trace (step deps env) (pipeline deps service id) (w.lock id),
    probeFails env id e.1 e.2 = false

variable (hkeys : ∀ k, WasListed env id k → Canonical k)
  (hhash : ∀ k k', WasListed env id k → WasListed env id k' →
    deps.sha256 (utf8 k) = deps.sha256 (utf8 k') → k = k')
include hkeys hhash

/-- One call: the invariant is kept, and a call that returned Ok stored an index of its
own listing. -/
theorem registered_step {w : World} (hinv : Registered deps env id w)
    (hcalm : Undisturbed deps env service id w) :
    Registered deps env id (refreshOrigin deps env service id w).2 ∧
      ∀ r, (refreshOrigin deps env service id w).1 = .ok r →
        validateOriginId id = .ok () ∧
        ∃ index, (refreshOrigin deps env service id w).2.freshnessIndexes id = some index ∧
          Listed (fun _ _ => False) env id index w.clock
            (refreshOrigin deps env service id w).2.clock := by
  rcases @refreshOrigin_cases deps env service id w with
    ⟨hsame, hno⟩ | ⟨out, w', hrun, hdata, hout⟩
  · rw [hsame]
    exact ⟨hinv, fun r hr => absurd hr (hno r)⟩
  have hlock : SameData w (w.lock id) := ⟨rfl, rfl, rfl, rfl, Nat.le_refl _⟩
  have hends := ends_iff.mp (@refreshOriginSnapshot_kept deps env id
    (fun o w' => tearsMirror env id (w.fs.lookup (names id)).isSome o w' = true)
    (w.lock id) (fun o w' h => h) (service.cdn id) (service.activationBarrier id))
    fun e he => by rw [hcalm.swap e he]; simp
  unfold pipeline at hrun
  rw [hrun] at hends
  rcases hends with ⟨-, href⟩ | ⟨hno, hkept⟩
  · have hid : validateOriginId id = .ok () := by
      obtain ⟨staged, _, _, _, _, _, _, hstage, -⟩ := href
      exact (stageOriginSync_shape hstage).1
    obtain ⟨hreg, index, hindex, wl, summaries, now, h1, h2, -, h3⟩ :=
      href.registered hkeys hhash (hinv.data hlock) fun e he => by
        rw [hcalm.staging e (mem_trace_pipeline he)]; simp
    have hclock := hdata.clock
    refine ⟨hreg.data hdata, fun r _ => ⟨hid, index, by rw [hdata.freshnessIndexes, hindex],
      wl, summaries, now, h1, Nat.lt_of_lt_of_le h2 hclock, not_false, h3⟩⟩
  · exact ⟨((hinv.data hlock).kept hkept).data hdata, fun r hr => absurd ((hout r).mp hr) (hno r)⟩

theorem registered_refreshes {fs : Tree} (n : Nat)
    (hcalm : ∀ i, i < n → Undisturbed deps env service id (refreshes deps env service id fs i)) :
    Registered deps env id (refreshes deps env service id fs n) := by
  induction n with
  | zero => exact registered_start id fs
  | succ n ih =>
    exact (registered_step hkeys hhash (ih fun i hi => hcalm i (Nat.lt_succ_of_lt hi))
      (hcalm n n.lt_succ_self)).1

omit hkeys hhash in
/-- A refresh whose staged files were rejected leaves every registry as it was. -/
theorem rejected_templates {w w1 w2 : World} {staged : StagedOriginSync} {e : Error}
    (hstage : run (step deps env) (stageOriginSync deps id (w.freshnessIndexes id))
      (w.lock id).tick = (.ok staged, w1))
    (hprep : run (step deps env) (prepareActivation deps id (w.freshnessIndexes id) staged
      (service.activationBarrier id)) w1 = (.err e, w2)) :
    (refreshOrigin deps env service id w).2.templates = w.templates := by
  rcases @refreshOrigin_cases deps env service id w with
    ⟨hsame, -⟩ | ⟨out, w', hrun, hdata, -⟩
  · rw [hsame]
  · rw [hdata.templates]
    rcases refreshOriginSnapshot_stores hrun with ⟨-, href⟩ | ⟨-, hstores⟩
    · obtain ⟨staged', _, _, _, w1', _, _, hstage', hprep', -⟩ := href
      have h1 := hstage.symm.trans hstage'
      cases h1
      have h2 := hprep.symm.trans hprep'
      cases h2
    · exact hstores.templates

end

/-- A storage with one HTML page `a`. -/
def page : Env :=
  { calmEnv with
    listObjects := fun _ _ => .ok [⟨"a".toList, none, none, none, 1, none, none⟩]
    getObject := fun _ _ key => .ok ⟨key, [65], none, none, some "text/html".toList, none⟩ }

end RenderMesh.Refresh
