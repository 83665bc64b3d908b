import RenderMesh.Refresh.Progress

/-!
# Refreshes that cannot fail

On a healthy disk, a refresh of an origin whose storage stands still until it is over
can only be rejected by the activation barrier, and then every later one can: what a
refresh leaves behind is all that the next one needs (`Ready`).

* `built_holds`: the staged generation has, for each listed key, the body and the
  sidecar of an object that the storage gave.
* `prepareActivation_returns`: such a generation passes the checks.
* `refreshes_return`: in a run whose listings stand still each refresh returns, and its
  mirror is its listing.
-/
namespace RenderMesh.Refresh

open RenderMesh.Core RenderMesh.Mirror RenderMesh.Server RenderMesh.Cdn

variable {deps : Deps} {env : Env}

/-- What the storage of `id` gives can be mirrored: its keys can stand beside each other and have
sidecars of their own, metadata is read back and templates compile. -/
structure Supply (deps : Deps) (env : Env) (id : Str) (keys : Str → Prop) : Prop where
  storable : Storable keys
  listed : ∀ k, WasListed env id k → keys k
  digests : ∀ k k', keys k → WasListed env id k' → deps.sha256 (utf8 k) = deps.sha256 (utf8 k') → k = k'
  metadata : ∀ t k object, WasListed env id k → env.getObject t id k = .ok object →
    ∃ content, fromUtf8 (deps.metadataToJson (objectMetadata object)) = some content ∧
      deps.metadataOfJson content = .ok (objectMetadata object)
  templates : ∀ t k object, WasListed env id k → env.getObject t id k = .ok object →
    isHtml k object.contentType = true → ∃ body, fromUtf8 object.body = some body ∧
      ∃ u, deps.compileTemplate body = .ok u

/-- The storage of `id` as its owner should keep it: the keys of the configuration have room too,
and configurations parse. -/
structure Sound (deps : Deps) (env : Env) (id : Str) (keys : Str → Prop) : Prop
    extends Supply deps env id keys where
  candidates : ∀ c ∈ EDGE_CONFIG_PATHS, keys (c.1.drop 1)
  configs : ∀ t c object, c ∈ EDGE_CONFIG_PATHS → WasListed env id (c.1.drop 1) →
    env.getObject t id (c.1.drop 1) = .ok object → ∃ content config,
      fromUtf8 object.body = some content ∧ parseEdgeConfig deps content = .ok config

/-- The files that a refresh of `id` needs to find: a mirror of the kind `I`, and no name taken
that its backup may get. -/
structure Laid (deps : Deps) (env : Env) (id : Str) (I : (List Name → Option (Node Bytes)) → Prop)
    (w : World) : Prop where
  mirror : ∀ b, w.fs.lookup (names id) ≠ some (.file b)
  backups : ∀ t, w.clock ≤ t → w.fs.lookup (names (backupPath id (env.nanos t))) = none
  tree : I (w.under id)
  staging : StagingOpen deps id w

/-- What a refresh of `id` needs to find. -/
structure Poised (deps : Deps) (env : Env) (id : Str) (keys : Str → Prop) (w : World) : Prop
    extends Laid deps env id (Orderly deps keys) w where
  held : AllHeld deps env id True w

/-- The same with no backup left at all. -/
structure Ready (deps : Deps) (env : Env) (id : Str) (keys : Str → Prop) (w : World) : Prop where
  tidy : Tidy id w
  orderly : Orderly deps keys (w.under id)
  staging : StagingOpen deps id w
  held : AllHeld deps env id True w

theorem Ready.poised {id : Str} {keys : Str → Prop} {w : World} (h : Ready deps env id keys w) :
    Poised deps env id keys w :=
  ⟨⟨h.tidy.mirror, fun _ _ => h.tidy.backup _, h.orderly, h.staging⟩, h.held⟩

theorem Laid.congr {id : Str} {I : (List Name → Option (Node Bytes)) → Prop} {w w' : World}
    (h : Laid deps env id I w) (hfs : ∀ q, w'.fs.lookup q = w.fs.lookup q)
    (hclock : w.clock ≤ w'.clock) : Laid deps env id I w' :=
  ⟨fun b => by rw [hfs]; exact h.mirror b,
    fun t ht => (hfs _).trans (h.backups t (hclock.trans ht)),
    by rw [show w'.under id = w.under id from funext fun r => hfs _]; exact h.tree,
    fun t s b hs => by rw [hfs]; exact h.staging t s b hs⟩

/-- The body and the sidecar of an object that the storage gave for the listed key `k`. -/
def Holds (deps : Deps) (env : Env) (id : Str) (tree : List Name → Option (Node Bytes)) (k : Str) :
    Prop :=
  WasListed env id k ∧ ∃ t object, env.getObject t id k = .ok object ∧
    tree (names k) = some (.file object.body) ∧
    tree (sidecarNames deps k) = some (.file (deps.metadataToJson (objectMetadata object)))

section
variable {id : Str} {keys : Str → Prop} (hsupply : Supply deps env id keys)
include hsupply

theorem Supply.ownSidecar {index : OriginFreshnessIndex} {base : List Name → Option (Node Bytes)}
    (hfiles : ∀ r b, r ≠ [] → base r = some (.file b) → Place deps keys r)
    (hlisted : ∀ k ∈ index.files, WasListed env id k) {k : Str} (hk : k ∈ index.files) :
    OwnSidecar deps index base k k :=
  ownSidecar_of_files hsupply.storable.canonical (fun k hk => hsupply.listed k (hlisted k hk))
    (fun k hk k' hk' => hsupply.digests k k' hk (hlisted k' hk')) hfiles hk

/-- An unchanged key is held by the mirror of what the index was stored for. -/
theorem Supply.held {w : World} (hheld : AllHeld deps env id True w) {index : OriginFreshnessIndex}
    (hlisted : ∀ k ∈ index.files, WasListed env id k) {k : Str} (hk : k ∈ index.files)
    (hsame : k ∉ (diffOriginIndexes (w.freshnessIndexes id) index).changedPaths) :
    Holds deps env id (w.under id) k := by
  obtain ⟨st, hst⟩ := Option.isSome_iff_exists.mp (Std.TreeMap.mem_iff_isSome_getElem?.mp hk)
  obtain ⟨p, hp, -⟩ := previous_of_not_changed _ _ _ hst hsame
  obtain ⟨previous, hprevious, hpst⟩ := Option.bind_eq_some_iff.mp hp
  obtain ⟨t, st', object, -, hget, -, -, hbody, hside⟩ := hheld previous hprevious k p hpst
  obtain ⟨n, hn, hjson⟩ := hside trivial
  rw [(hsupply.storable.canonical k (hsupply.listed k (hlisted k hk))).normalized] at hn
  cases hn
  exact ⟨hlisted k hk, t, object, hget, hbody, hjson⟩

/-- A changed key has what was fetched for it, an unchanged one what the mirror had. -/
theorem built_holds {base : List Name → Option (Node Bytes)} {previous : Option OriginFreshnessIndex}
    {index : OriginFreshnessIndex} {d : PathBuf} {lo hi : Nat} {w' : World}
    (hfiles : ∀ r b, r ≠ [] → base r = some (.file b) → Place deps keys r)
    (hlisted : ∀ k ∈ index.files, WasListed env id k)
    (hkept : ∀ k ∈ index.files, k ∉ (diffOriginIndexes previous index).changedPaths →
      Holds deps env id base k)
    (hbuilt : Built deps env id previous index d lo hi base w') {k : Str} (hk : k ∈ index.files) :
    Holds deps env id (w'.under d) k := by
  have hown := hsupply.ownSidecar hfiles hlisted hk
  have hnormal := (hsupply.storable.canonical k (hsupply.listed k (hlisted k hk))).normalized
  by_cases hchanged : k ∈ (diffOriginIndexes previous index).changedPaths
  · obtain ⟨object, ⟨t, st, -, -, hget, -⟩, hbody, hside⟩ := hbuilt.changed k hchanged
    exact ⟨hlisted k hk, t, object, hget, hbody, hside k hnormal hown⟩
  · obtain ⟨-, t, object, hget, hbody, hjson⟩ := hkept k hk hchanged
    obtain ⟨hkeep, hkeepside⟩ := hbuilt.unchanged k hk hchanged
    exact ⟨hlisted k hk, t, object, hget, hkeep _ hbody, (hkeepside k hnormal hown).trans hjson⟩

end

/-! ## The checks before an activation -/

theorem under_congr {w w' : World} (h : ∀ q, w'.fs.lookup q = w.fs.lookup q) (d : PathBuf) :
    w'.under d = w.under d := funext fun r => h (names d ++ r)

theorem Stage.congr {I : (List Name → Option (Node Bytes)) → Prop} {d : PathBuf} {w w' : World}
    (hw : Stage I d w) (h : ∀ q, w'.fs.lookup q = w.fs.lookup q) : Stage I d w' :=
  ⟨(h _).trans hw.top, by rw [under_congr h]; exact hw.tree⟩

theorem candidates_canonical {c : Str × Bool} (hc : c ∈ EDGE_CONFIG_PATHS) :
    Canonical (c.1.drop 1) := by
  have hall : ∀ c ∈ EDGE_CONFIG_PATHS, (∀ s ∈ segments (c.1.drop 1), s ≠ [] ∧ s ≠ ['.'] ∧
      s ≠ ['.', '.']) ∧ trim (c.1.drop 1) = c.1.drop 1 ∧
      ((c.1.drop 1).all fun x => !isControl x) = true ∧
      (segments (c.1.drop 1)).head? ≠ some METADATA_DIR_NAME := by decide +kernel
  obtain ⟨h1, h2, h3, h4⟩ := hall c hc
  exact ⟨h1, h2, no_control_of_all h3, h4⟩

section
variable (henv : Healthy env) {id : Str} {keys : Str → Prop} (hsupply : Supply deps env id keys)
  (hid : validateOriginId id = .ok ()) {t : Nat} {w : World}
  (htop : w.under (stagingPath deps id t) [] = some .dir)
include henv hsupply hid htop

/-- A file of the staged generation is read with its metadata. -/
theorem readStaged_returns {path k : Str} (hpath : normalizeObjectPath path = .ok k)
    (hheld : Holds deps env id (w.under (stagingPath deps id t)) k) :
    Returns (step deps env) (fun object w' => WasListed env id k ∧ ∃ s o,
        env.getObject s id k = .ok o ∧ object = some ⟨o.body, objectMetadata o⟩ ∧
        w.under (stagingPath deps id t) (names k) = some (.file o.body) ∧
        ∀ q, w'.fs.lookup q = w.fs.lookup q)
      (readObject deps stagingRoot (stagingName deps id t) path) w := by
  obtain ⟨hlisted, s, o, hget, hbody, hside⟩ := hheld
  obtain ⟨content, hutf8, hjson⟩ := hsupply.metadata s k o hlisted hget
  have hreads := (run_reads deps env (readObject_reads deps stagingRoot (stagingName deps id t) path) w).2
  have hname := stagingName_valid deps hid t
  refine (@readObject_found deps env henv stagingRoot _ hname _ _ hpath
    (hsupply.storable.canonical k (hsupply.listed k hlisted)) w _ _ htop hbody
    (Or.inr ⟨_, content, hside, hutf8, hjson⟩) (clearWay_of_file hside)).with_run.mono
    fun object w' h => ?_
  rw [h.2] at hreads
  exact ⟨hlisted, s, o, hget, h.1, hbody, hreads⟩

theorem loadEdgeConfigFrom_returns {candidates : List (Str × Bool)}
    (hc : ∀ c ∈ candidates, c ∈ EDGE_CONFIG_PATHS)
    (hheld : ∀ c ∈ candidates, ∀ b,
      w.under (stagingPath deps id t) (names (c.1.drop 1)) = some (.file b) →
      Holds deps env id (w.under (stagingPath deps id t)) (c.1.drop 1))
    (hconfig : ConfigReads deps (w.under (stagingPath deps id t)) candidates) :
    Returns (step deps env) (fun _ w' => ∀ q, w'.fs.lookup q = w.fs.lookup q)
      (loadEdgeConfigFrom deps stagingRoot (stagingName deps id t) candidates) w := by
  induction candidates generalizing w with
  | nil => exact ⟨_, w, rfl, fun _ => rfl⟩
  | cons c rest ih =>
    obtain ⟨hnormal, -, -⟩ := candidates_normalized c (hc c (by simp))
    rcases hconfig with ⟨hnone, hway, hrest⟩ | ⟨body, content, config, hbody, hutf8, hparse⟩
    · -- the next candidate is tried
      have hreads := (run_reads deps env (readObject_reads deps stagingRoot
        (stagingName deps id t) c.1) w).2
      refine Returns.bind ((@readObject_missing deps env henv stagingRoot _
        (stagingName_valid deps hid t) _ _ hnormal (candidates_canonical (hc c (by simp))) w htop hnone
        hway).with_run.mono fun object w1 h1 => ?_)
      obtain ⟨rfl, hrun⟩ := h1
      rw [hrun] at hreads
      refine (ih ((hreads _).trans htop) (fun c' hc' => hc c' (by simp [hc'])) (fun c' hc' => ?_)
        ?_).mono fun _ w2 h2 q => (h2 q).trans (hreads q)
      · rw [under_congr hreads]
        exact hheld c' (by simp [hc'])
      · rw [under_congr hreads]
        exact hrest
    · refine Returns.bind ((readStaged_returns henv hsupply hid htop hnormal
        (hheld c (by simp) body hbody)).mono fun object w1 h1 => ?_)
      obtain ⟨-, s, o, -, rfl, hbody', hsame⟩ := h1
      cases hbody.symm.trans hbody'
      simp only [hutf8, hparse]
      exact ⟨config, w1, rfl, hsame⟩

theorem compileTemplate_returns {k : Str}
    (hheld : Holds deps env id (w.under (stagingPath deps id t)) k) (registry : Registry) :
    Returns (step deps env) (fun _ w' => ∀ q, w'.fs.lookup q = w.fs.lookup q)
      (compileTemplate deps id stagingRoot (stagingName deps id t) registry k) w := by
  have hcanon := hsupply.storable.canonical k (hsupply.listed k hheld.1)
  refine Returns.bind ((readStaged_returns henv hsupply hid htop hcanon.normalized hheld).mono
    fun object w1 h1 => ?_)
  obtain ⟨hlisted, s, o, hget, rfl, -, hsame⟩ := h1
  by_cases hhtml : isHtml k o.contentType = true
  · obtain ⟨body, hutf8, u, hcompile⟩ := hsupply.templates s k o hlisted hget hhtml
    simp only [objectMetadata, hhtml, if_true, hutf8, hcompile]
    exact ⟨_, w1, rfl, hsame⟩
  · simp only [objectMetadata, hhtml]
    exact ⟨_, w1, rfl, hsame⟩

/-- A staged generation passes every check but the barrier, if its configuration can be read. -/
theorem prepareActivation_returns {previous : Option OriginFreshnessIndex}
    {staged : StagedOriginSync} {barrier : Option Str}
    (hdir : staged.stagingDir = stagingPath deps id t)
    (hdiff : staged.diff = diffOriginIndexes previous staged.index)
    (hlisted : ∀ k ∈ staged.index.files, WasListed env id k)
    (hfiles : ∀ r b, r ≠ [] → r.head? ≠ some metaName →
      w.under (stagingPath deps id t) r = some (.file b) → ∃ k ∈ staged.index.files, r = names k)
    (hheld : ∀ k ∈ staged.index.files, Holds deps env id (w.under (stagingPath deps id t)) k)
    (hconfig : ConfigReads deps (w.under (stagingPath deps id t)) EDGE_CONFIG_PATHS)
    (hbarrier : validateActivationBarrier id previous staged.index staged.diff barrier = .ok ()) :
    Returns (step deps env) (fun _ w' => ∀ q, w'.fs.lookup q = w.fs.lookup q)
      (prepareActivation deps id previous staged barrier) w := by
  refine returns_ofExcept_bind hbarrier ?_
  rw [hdir]
  refine returns_ofExcept_bind (stagedOriginMirror_stagingPath hid t) ?_
  refine Returns.bind ((loadEdgeConfigFrom_returns henv hsupply hid htop (fun c hc => hc)
    (fun c hc b hb => ?_) hconfig).mono fun config w1 h1 => ?_)
  · -- what is there for a candidate is the file of a listed key
    have hcanon := candidates_canonical hc
    obtain ⟨k, hk, he⟩ := hfiles _ b (names_ne_nil_of_plain hcanon.plain)
      (names_head_ne_meta hcanon.accepted hcanon.plain) hb
    have hkey : c.1.drop 1 = k := names_injOn_plain hcanon.plain
      (hsupply.storable.canonical k (hsupply.listed k (hlisted k hk))).plain he
    rw [hkey]
    exact hheld k hk
  · refine Returns.bind (Returns.mono (Q := fun _ w2 => ∀ q, w2.fs.lookup q = w.fs.lookup q) ?_
      fun registry w2 h2 => ⟨_, w2, rfl, h2⟩)
    refine Returns.bind ⟨_, w1.tick, rfl, ?_⟩
    refine (Returns.fold (fun _ rest _ w' => (∀ k ∈ rest, k ∈ staged.index.files) ∧
      ∀ q, w'.fs.lookup q = w.fs.lookup q) ?_ _ [] _ _ ⟨fun k hk => ?_, h1⟩).mono fun _ _ h => h.2
    · rintro _ k rest registry w2 ⟨hrest, hsame⟩
      refine (compileTemplate_returns henv hsupply hid ((hsame _).trans htop)
        (by rw [under_congr hsame]; exact hheld k (hrest k (by simp))) registry).mono fun _ w3 h3 => ?_
      exact ⟨fun k' hk' => hrest k' (by simp [hk']), fun q => (h3 q).trans (hsame q)⟩
    · rw [hdiff] at hk
      obtain ⟨f, hf, -⟩ := (mem_changedPaths _ _ k).mp hk
      exact Std.TreeMap.mem_iff_isSome_getElem?.mpr (by rw [hf]; rfl)

end

/-! ## The CDN phase -/

/-- Unless a purge is dropped, the CDN phase returns, whatever the provider says. -/
theorem refreshCdn_returns (hpurge : ∀ t request, env.purge t request ≠ .dropped) (id : Str)
    (generation : Nat) (diff : OriginFreshnessDiff) (cdn : Option OriginCdnRefresh) (w : World) :
    Returns (step deps env) (fun _ w' => w'.fs = w.fs) (refreshCdn id generation diff cdn) w := by
  have hends := ends_iff.mp (@refreshCdn_ends deps env (fun _ _ => False) id generation diff cdn w)
    fun _ _ => not_false
  have hdata := @refreshCdn_sameData deps env id generation diff cdn w
  rcases hends with ⟨u, hu⟩ | ⟨-, o, w', hdrop, -⟩
  · exact ⟨u, _, Prod.ext hu rfl, hdata.fs⟩
  · cases o with
    | purge request => exact absurd (of_decide_eq_true hdrop) (hpurge _ _)
    | _ => cases hdrop

/-! ## A refresh -/

section
variable (henv : Healthy env) {id : Str} {keys : Str → Prop}
  {I : (List Name → Option (Node Bytes)) → Prop}
  (hI : Sheltering deps keys I) (hid : validateOriginId id = .ok ())
include henv hI hid

/-- The swap leaves a mirror of the same kind, and the places of later swaps free. -/
theorem activate_returns {staged : StagedOriginSync} {t : Nat} (hoid : staged.originId = id)
    (hdir : staged.stagingDir = stagingPath deps id t) {config : EdgeConfig} {registry : Registry}
    {snapshot : OriginSnapshotDebug} {w : World}
    (hmirror : ∀ b, w.fs.lookup (names id) ≠ some (.file b))
    (hbackups : ∀ t, w.clock ≤ t → w.fs.lookup (names (backupPath id (env.nanos t))) = none)
    (hw : Stage I staged.stagingDir w) (hopen : StagingOpen deps id w) :
    Returns (step deps env) (fun _ w' => Laid deps env id I w')
      (activate deps id staged config registry snapshot) w := by
  have hs : InStaging staged.stagingDir := hdir ▸ stagingPath_inStaging deps hid _
  refine Returns.bind ((activateStagedOrigin_completes henv hid hoid hs hmirror
    (hbackups _ (Nat.le_succ _)) hw.top).with_run.mono fun _ w1 h1 => ?_)
  obtain ⟨⟨hfiles, -⟩, hrun⟩ := h1
  have hclock := run_clock deps env hrun
  have hnew : ∀ r, w1.under id r = w.under staged.stagingDir r := fun r => by
    rw [World.under, hfiles, if_pos (List.prefix_append _ _), List.drop_left]
  have hlaid : Laid deps env id I w1 := by
    refine ⟨fun b => ?_, fun t ht => ?_, hI.thin hw.tree fun r _ => Or.inl (hnew r), fun t' s b hsp => ?_⟩
    · have htop : w1.fs.lookup (names id) = some .dir := by
        simpa [World.under] using (hnew []).trans hw.top
      rw [htop]
      simp
    · rw [hfiles, if_neg (origin_not_prefix_backup hid List.prefix_rfl)]
      split
      · rfl
      · exact hbackups t (hclock.trans ht)
    · rw [hfiles]
      have hnot : ¬ names id <+: s := fun h => by
        -- the mirror is not in the staging area
        refine origin_not_prefix_staging hid (q := names (stagingPath deps id t'))
          (stagingPath_inStaging deps hid t') (h.trans hsp)
      rw [if_neg hnot]
      split
      · simp
      · exact hopen t' s b hsp
  exact ⟨(), _, rfl, hlaid.congr (fun _ => rfl) (by simp only [World.tick]; omega)⟩

/-- A refresh returns when the storage stands still, if what it keeps of the mirror is still given
and its configuration can be read. -/
theorem refreshOriginSnapshot_returns (hsupply : Supply deps env id keys)
    (hpurge : ∀ t request, env.purge t request ≠ .dropped) {w : World} (hw : Laid deps env id I w)
    {summaries : List RemoteObjectSummary} (hsteady : Steady env id w.clock summaries)
    (hkept : ∀ now index, buildOriginIndex id summaries now = .ok index → ∀ k ∈ index.files,
      k ∉ (diffOriginIndexes (w.freshnessIndexes id) index).changedPaths →
      Holds deps env id (w.under id) k)
    (hconfig : ∀ tree, I tree → (∀ r b, r ≠ [] → r.head? ≠ some metaName → tree r = some (.file b) →
        ∃ s ∈ summaries, r = names s.key) → (∀ s ∈ summaries, Holds deps env id tree s.key) →
      ConfigReads deps tree EDGE_CONFIG_PATHS)
    (cdn : Option OriginCdnRefresh) {barrier : Option Str}
    (hbarrier : ∀ now index, buildOriginIndex id summaries now = .ok index →
      validateActivationBarrier id (w.freshnessIndexes id) index
        (diffOriginIndexes (w.freshnessIndexes id) index) barrier = .ok ()) :
    Returns (step deps env) (fun _ w' => Laid deps env id I w')
      (refreshOriginSnapshot deps id cdn barrier) w := by
  have hwas : ∀ s ∈ summaries, WasListed env id s.key :=
    fun s hs => ⟨w.clock, summaries, hsteady.listing _ (Nat.le_refl _), s, hs, rfl⟩
  refine Returns.bind ⟨w.freshnessIndexes id, w.tick, rfl, ?_⟩
  refine Returns.bind ((stageOriginSync_returns henv hsupply.storable hI hid (w.freshnessIndexes id)
    hsteady (fun s hs => hsupply.listed _ (hwas s hs)) (w := w.tick) (Nat.le_succ _) hw.mirror
    hw.tree hw.staging).with_run.mono fun staged w1 h1 => ?_)
  obtain ⟨⟨hstage, hopen⟩, hrun⟩ := h1
  obtain ⟨-, hoid, hdir⟩ := stageOriginSync_shape hrun
  have hquiet := @quiet_of_staged deps env _ _
    (stageOriginSync_within deps id (w.freshnessIndexes id)) w.tick
  have hends := ends_iff.mp (@stageOriginSync_ends deps env id (w.freshnessIndexes id)
    (fun _ _ => False) (henv.not_probeFails hid) w.tick)
    fun _ _ => not_false
  rw [hrun] at hends hquiet
  obtain ⟨hdiff, wl, hfirst, -, -, ⟨listed, now, hlist, hindex⟩, hbuilt⟩ := hends staged rfl
  have hsame : listed = summaries := by
    have := hlist.symm.trans (hsteady.listing wl.clock (Nat.le_of_succ_le hfirst))
    cases this
    rfl
  subst hsame
  have hlisted : ∀ k ∈ staged.index.files, WasListed env id k := fun k hk => by
    obtain ⟨s, hs, rfl⟩ := (mem_files_iff hindex k).mp hk
    exact hwas s hs
  have hbuilt := hbuilt fun k hk => (hsupply.storable.canonical k (hsupply.listed k (hlisted k hk))).plain
  rw [hdir] at hstage hbuilt
  have hholds : ∀ k ∈ staged.index.files, Holds deps env id (w1.under (stagingPath deps id _)) k :=
    fun k hk => built_holds hsupply (hI.files hw.tree) hlisted (hkept now _ hindex) hbuilt hk
  have hreads := hconfig _ hstage.tree (fun r b hr hmeta hb => by
      obtain ⟨k, hk, rfl⟩ := hbuilt.files r b hr hmeta hb
      obtain ⟨s, hs, rfl⟩ := (mem_files_iff hindex k).mp hk
      exact ⟨s, hs, rfl⟩)
    fun s hs => hholds s.key ((mem_files_iff hindex _).mpr ⟨s, hs, rfl⟩)
  refine Returns.bind (Returns.attempt ((prepareActivation_returns henv hsupply hid hstage.top hdir
    hdiff hlisted hbuilt.files hholds hreads
    (hdiff ▸ hbarrier now _ hindex)).with_run.mono fun prepared w2 h2 => ?_))
  obtain ⟨hfs2, hrun2⟩ := h2
  obtain ⟨config, registry⟩ := prepared
  have hquiet2 := @quiet_of_reads deps env _ _
    (prepareActivation_reads deps id (w.freshnessIndexes id) staged barrier) w1
  rw [hrun2] at hquiet2
  have hquiet12 := (Quiet.tick w).trans (hquiet.trans hquiet2)
  have hclock2 : w.clock ≤ w2.clock :=
    (Nat.le_succ _).trans ((run_clock deps env hrun).trans (run_clock deps env hrun2))
  refine Returns.bind ⟨_, _, rfl, Returns.bind ⟨_, _, rfl, ?_⟩⟩
  have hstage2 : Stage I staged.stagingDir w2.tick.tick := by
    rw [hdir]
    exact hstage.congr hfs2
  have hopen2 : StagingOpen deps id w2.tick.tick := fun t s b hs => by
    show w2.fs.lookup s ≠ _
    rw [hfs2]
    exact hopen t s b hs
  refine Returns.bind ((activate_returns henv hI hid hoid hdir (w := w2.tick.tick) (fun b => ?_)
    (fun t ht => ?_) hstage2 hopen2).mono fun _ w3 h3 => ?_)
  · show w2.fs.lookup _ ≠ _
    rw [hquiet12.files _ (staging_not_prefix_origin hid List.prefix_rfl)]
    exact hw.mirror b
  · show w2.fs.lookup _ = _
    rw [hquiet12.files _ (backup_not_inStaging hid _)]
    exact hw.backups t (hclock2.trans ((Nat.le_add_right _ 2).trans ht))
  · refine Returns.bind ((refreshCdn_returns hpurge id _ staged.diff cdn w3).with_run.mono
      fun _ w4 h4 => ?_)
    exact ⟨_, w4, rfl, h3.congr (fun q => by rw [h4.1]) (run_clock deps env h4.2)⟩

end

/-! ## The storage after the refresh -/

/-- The storage as in `env` up to step `hi`, and from then on as at step `lo`. -/
def frozen (env : Env) (lo hi : Nat) : Env :=
  { env with
    listObjects := fun t => env.listObjects (if t < hi then t else lo)
    getObject := fun t => env.getObject (if t < hi then t else lo) }

/-- A run that is over by then does not see the difference. -/
theorem run_frozen {lo hi : Nat} {α : Type} {m : Async α} {w w' : World} {out : Outcome Error α}
    (h : run (step deps env) m w = (out, w')) (hhi : w'.clock ≤ hi) :
    run (step deps (frozen env lo hi)) m w = (out, w') := by
  induction m generalizing w with
  | ret a => exact h
  | fail e => exact h
  | op o k ih =>
    have hafter : (step deps env o w).2.clock ≤ w'.clock := by
      rw [run_op] at h
      rcases hs : step deps env o w with ⟨_ | r, s⟩
      · rw [hs] at h
        cases h
        exact Nat.le_refl _
      · rw [hs] at h
        exact run_clock deps env h
    have hstep : step deps (frozen env lo hi) o w = step deps env o w := by
      cases o with
      | listObjects id =>
        have hlt : w.clock < hi := Nat.lt_of_lt_of_le (Nat.lt_succ_self _) (hafter.trans hhi)
        simp only [step, frozen, if_pos hlt]
      | getObject id key =>
        have hlt : w.clock < hi := Nat.lt_of_lt_of_le (Nat.lt_succ_self _) (hafter.trans hhi)
        simp only [step, frozen, if_pos hlt]
      | _ => rfl
    rw [run_op] at h ⊢
    rw [hstep]
    rcases hs : step deps env o w with ⟨_ | r, s⟩
    · rw [hs] at h
      exact h
    · rw [hs] at h
      exact ih r h

/-- From step `lo` on and before `hi` the storage of `id` lists `summaries` and has
their objects. -/
structure Still (env : Env) (id : Str) (lo hi : Nat) (summaries : List RemoteObjectSummary) :
    Prop where
  listing : ∀ t, lo ≤ t → t < hi → env.listObjects t id = .ok summaries
  objects : ∀ s ∈ summaries, ∃ object,
    (∀ t, lo ≤ t → t < hi → env.getObject t id s.key = .ok object) ∧
    ∀ now, validateDownloadedObject s.key (fileState s s.key now) object = .ok ()

theorem Still.steady {id : Str} {lo hi : Nat} {summaries : List RemoteObjectSummary}
    (h : Still env id lo hi summaries) (hlt : lo < hi) :
    Steady (frozen env lo hi) id lo summaries := by
  have hat : ∀ t, lo ≤ t → lo ≤ (if t < hi then t else lo) ∧ (if t < hi then t else lo) < hi := by
    intro t ht
    split
    · exact ⟨ht, by assumption⟩
    · exact ⟨Nat.le_refl _, hlt⟩
  refine ⟨fun t ht => h.listing _ (hat t ht).1 (hat t ht).2, fun s hs => ?_⟩
  obtain ⟨object, hget, hvalid⟩ := h.objects s hs
  exact ⟨object, fun t ht => hget _ (hat t ht).1 (hat t ht).2, hvalid⟩

theorem Healthy.frozen (henv : Healthy env) (lo hi : Nat) : Healthy (frozen env lo hi) :=
  ⟨henv.fault, henv.long⟩

theorem Sound.frozen {id : Str} {keys : Str → Prop} (h : Sound deps env id keys) (lo hi : Nat) :
    Sound deps (frozen env lo hi) id keys := by
  have hwas : ∀ k, WasListed (RenderMesh.Refresh.frozen env lo hi) id k → WasListed env id k := by
    rintro k ⟨t, summaries, hlist, hs⟩
    exact ⟨_, summaries, hlist, hs⟩
  exact ⟨⟨h.storable, fun k hk => h.listed k (hwas k hk),
      fun k k' hk hk' => h.digests k k' hk (hwas k' hk'),
      fun t k object hk hget => h.metadata _ k object (hwas k hk) hget,
      fun t k object hk hget => h.templates _ k object (hwas k hk) hget⟩, h.candidates,
    fun t c object hc hk hget => h.configs _ c object hc (hwas _ hk) hget⟩

/-- In an orderly tree that holds what a sound storage gave, the configuration can be read. -/
theorem Sound.configReads {id : Str} {keys : Str → Prop} (h : Sound deps env id keys)
    {tree : List Name → Option (Node Bytes)} (horder : Orderly deps keys tree)
    {summaries : List RemoteObjectSummary} (hwas : ∀ s ∈ summaries, keys s.key)
    (hfiles : ∀ r b, r ≠ [] → r.head? ≠ some metaName → tree r = some (.file b) →
      ∃ s ∈ summaries, r = names s.key)
    (hholds : ∀ s ∈ summaries, Holds deps env id tree s.key) {candidates : List (Str × Bool)}
    (hc : ∀ c ∈ candidates, c ∈ EDGE_CONFIG_PATHS) : ConfigReads deps tree candidates := by
  induction candidates with
  | nil => trivial
  | cons c rest ih =>
    have hmem := hc c (by simp)
    have hstored := h.candidates c hmem
    have hroom := horder.room h.storable ⟨_, hstored, Or.inl rfl⟩
    cases hnode : tree (names (c.1.drop 1)) with
    | none => exact Or.inl ⟨hnode, hroom.way, ih fun c' hc' => hc c' (by simp [hc'])⟩
    | some node =>
      cases node with
      | dir => exact absurd hnode hroom.free
      | file b =>
        obtain ⟨s, hs, he⟩ := hfiles _ b (h.storable.names_ne_nil hstored)
          (h.storable.head_ne_meta hstored) hnode
        have hkey : c.1.drop 1 = s.key := names_injOn_plain (h.storable.canonical _ hstored).plain
          (h.storable.canonical _ (hwas s hs)).plain he
        obtain ⟨hlisted, t, object, hget, hbody, -⟩ := hholds s hs
        rw [← hkey] at hlisted hget hbody
        obtain ⟨content, config, hutf8, hparse⟩ := h.configs t c object hmem hlisted hget
        exact Or.inr ⟨object.body, content, config, hbody, hutf8, hparse⟩

theorem AllHeld.frozen {id : Str} {sidecars : Prop} {w : World}
    (h : AllHeld deps env id sidecars w) {hi : Nat} (hhi : w.clock ≤ hi) (lo : Nat) :
    AllHeld deps (frozen env lo hi) id sidecars w := by
  intro index hindex k st hst
  obtain ⟨t, st', object, ht, hget, hrest⟩ := h index hindex k st hst
  refine ⟨t, st', object, ht, ?_, hrest⟩
  show env.getObject (if t < hi then t else lo) id k = _
  rw [if_pos (by omega)]
  exact hget

/-! ## Runs -/

/-- The barrier lets the listing pass after the activation before it. -/
def Passes (id : Str) (previous : Option OriginFreshnessIndex) (barrier : Option Str)
    (summaries : List RemoteObjectSummary) : Prop :=
  ∀ now index, buildOriginIndex id summaries now = .ok index →
    validateActivationBarrier id previous index (diffOriginIndexes previous index) barrier = .ok ()

section
variable (henv : Healthy env) {service : OriginRefreshService} {id : Str} {keys : Str → Prop}
  (hsound : Sound deps env id keys) (hid : validateOriginId id = .ok ())
  (hknown : service.hasOrigin id = true) (hpurge : ∀ t request, env.purge t request ≠ .dropped)
include henv hsound hid hknown hpurge

/-- One refresh: it returns, its mirror is its listing, built from the mirror before it, and the
next one can follow. -/
theorem refreshOrigin_delivers {w : World} (hw : Poised deps env id keys w)
    (hidle : w.locks id = false) {summaries : List RemoteObjectSummary}
    (hstill : Still env id w.clock (refreshOrigin deps env service id w).2.clock summaries)
    (hpasses : Passes id (w.freshnessIndexes id) (service.activationBarrier id) summaries) :
    (∃ response, (refreshOrigin deps env service id w).1 = .ok response) ∧
      Poised deps env id keys (refreshOrigin deps env service id w).2 ∧
      (refreshOrigin deps env service id w).2.locks id = false ∧
      ∃ index, MirrorsListing deps env id True w.clock index
          (refreshOrigin deps env service id w).2 ∧
        Built deps env id (w.freshnessIndexes id) index id w.clock
          (refreshOrigin deps env service id w).2.clock (w.under id)
          (refreshOrigin deps env service id w).2 := by
  have hstart : SameData w (w.lock id) := ⟨rfl, rfl, rfl, rfl, Nat.le_refl _⟩
  obtain ⟨out, w1, hrun⟩ : ∃ out w1, run (step deps env) (refreshOriginSnapshot deps id (service.cdn id)
      (service.activationBarrier id)) (w.lock id) = (out, w1) := ⟨_, _, rfl⟩
  have hfinal : (refreshOrigin deps env service id w).2.clock = w1.clock := by
    rw [refreshOrigin, if_neg (by simp [hknown]), if_neg (by simp [hidle]), hrun]
    cases out <;> rfl
  rw [hfinal] at hstill
  have hlt : w.clock < w1.clock := by
    have hrest := hrun
    rw [refreshOriginSnapshot, run_bind] at hrest
    exact run_clock deps env (w := (w.lock id).tick) hrest
  -- the run that a storage would see that stays as it is
  have hsteady := hstill.steady hlt
  have hfrozen := hsound.frozen w.clock w1.clock
  have hheld := (hw.held.data hstart).frozen (Nat.le_of_lt hlt) w.clock
  have hwas : ∀ s ∈ summaries, WasListed (frozen env w.clock w1.clock) id s.key :=
    fun s hs => ⟨w.clock, summaries, hsteady.listing _ (Nat.le_refl _), s, hs, rfl⟩
  obtain ⟨response, w2, hrun2, hlaid⟩ := refreshOriginSnapshot_returns
    (henv.frozen w.clock w1.clock) hfrozen.storable.orderly hid hfrozen.toSupply hpurge
    (w := w.lock id) ⟨hw.mirror, hw.backups, hw.tree, hw.staging⟩ hsteady
    (fun now index hindex k hk hsame => hfrozen.toSupply.held hheld (fun k hk => by
      obtain ⟨s, hs, rfl⟩ := (mem_files_iff hindex k).mp hk
      exact hwas s hs) hk hsame)
    (fun tree horder hfiles hholds => hfrozen.configReads horder
      (fun s hs => hfrozen.listed _ (hwas s hs)) hfiles hholds fun c hc => hc)
    (service.cdn id) hpasses
  rw [run_frozen hrun (Nat.le_refl _)] at hrun2
  cases hrun2
  rcases refreshOriginSnapshot_stores hrun with ⟨-, href⟩ | ⟨hno, -⟩
  · have hwas : ∀ index, Listed (fun _ _ => False) env id index (w.lock id).clock w1.clock →
        ∀ k ∈ index.files, WasListed env id k := fun index h => h.wasListed
    have hcanon : ∀ index, Listed (fun _ _ => False) env id index (w.lock id).clock w1.clock →
        ∀ k ∈ index.files, Canonical k :=
      fun index h k hk => hsound.storable.canonical k (hsound.listed k (hwas index h k hk))
    obtain ⟨hheld, index, hmirrors⟩ := @Refreshed.mirrors deps env id True _ _
      (fun _ _ => False) _ _ href (hw.held.data hstart) (Nat.le_of_lt hlt)
      (henv.not_probeFails hid)
      (fun _ _ => not_false) (fun index h k hk => (hcanon index h k hk).plain)
      (fun _ index h k hk => ⟨k, (hcanon index h k hk).normalized,
        hsound.ownSidecar hw.tree.files (hwas index h) hk⟩)
    obtain ⟨index', hindex', hlisted, hbuilt⟩ := @refreshed_built deps env id _ _
      (fun _ _ => False) _ _ (henv.not_probeFails hid) (fun _ _ => not_false) href
    obtain rfl := Option.some.inj (hmirrors.stored.symm.trans hindex')
    have hend : refreshOrigin deps env service id w = (.ok response, w1.unlock id) := by
      rw [refreshOrigin, if_neg (by simp [hknown]), if_neg (by simp [hidle]), hrun]
    have hdata : SameData w1 (w1.unlock id) := ⟨rfl, rfl, rfl, rfl, Nat.le_refl _⟩
    rw [hend]
    -- what the run of that storage left lies there for the real one too
    have hleft : Laid deps env id (Orderly deps keys) (w1.unlock id) :=
      ⟨hlaid.mirror, hlaid.backups, hlaid.tree, hlaid.staging⟩
    refine ⟨⟨response, rfl⟩, ⟨hleft, hheld.data hdata⟩, by simp [World.unlock], index,
      hmirrors.data hdata, ?_⟩
    exact (hbuilt fun k hk => (hcanon index hlisted k hk).plain).transfer (Nat.le_refl _) fun _ => rfl
  · exact absurd rfl (hno response)

theorem refreshes_poised {fs : Tree} (hfs : Ready deps env id keys (World.start fs)) (n : Nat)
    (hstill : ∀ i, i < n → ∃ summaries,
      Still env id (refreshes deps env service id fs i).clock
        (refreshes deps env service id fs (i + 1)).clock summaries ∧
      Passes id ((refreshes deps env service id fs i).freshnessIndexes id)
        (service.activationBarrier id) summaries) :
    Poised deps env id keys (refreshes deps env service id fs n) ∧
      (refreshes deps env service id fs n).locks id = false := by
  induction n with
  | zero => exact ⟨hfs.poised, rfl⟩
  | succ n ih =>
    obtain ⟨hpoised, hidle⟩ := ih fun i hi => hstill i (Nat.lt_succ_of_lt hi)
    obtain ⟨summaries, hs, hp⟩ := hstill n n.lt_succ_self
    obtain ⟨-, hnext, hlock, -⟩ :=
      refreshOrigin_delivers henv hsound hid hknown hpurge hpoised hidle hs hp
    exact ⟨hnext, hlock⟩

end

/-- In a run whose storage stands still during each refresh, and whose listings pass the
barrier, every refresh returns, and leaves the mirror that it listed. -/
theorem refreshes_return (deps : Deps) (env : Env) (service : OriginRefreshService) (id : Str)
    (keys : Str → Prop) (fs : Tree) (henv : Healthy env) (hsound : Sound deps env id keys)
    (hid : validateOriginId id = .ok ()) (hknown : service.hasOrigin id = true)
    (hpurge : ∀ t request, env.purge t request ≠ .dropped)
    (hfs : Ready deps env id keys (World.start fs)) (n : Nat)
    (hstill : ∀ i, i ≤ n → ∃ summaries,
      Still env id (refreshes deps env service id fs i).clock
        (refreshes deps env service id fs (i + 1)).clock summaries ∧
      Passes id ((refreshes deps env service id fs i).freshnessIndexes id)
        (service.activationBarrier id) summaries) :
    (∃ response, (refreshOrigin deps env service id (refreshes deps env service id fs n)).1 =
      .ok response) ∧
      ∃ index, MirrorsListing deps env id True (refreshes deps env service id fs n).clock index
        (refreshes deps env service id fs (n + 1)) := by
  obtain ⟨hpoised, hidle⟩ := refreshes_poised henv hsound hid hknown hpurge hfs n
    fun i hi => hstill i (Nat.le_of_lt hi)
  obtain ⟨summaries, hs, hp⟩ := hstill n (Nat.le_refl n)
  obtain ⟨hok, -, -, index, hmirrors, -⟩ :=
    refreshOrigin_delivers henv hsound hid hknown hpurge hpoised hidle hs hp
  exact ⟨hok, index, hmirrors⟩

/-- A storage with one page that never changes, on a healthy disk. -/
def calmPage : Env := { page with long := fun _ => false }

def pageKeys : List Str := "a".toList :: EDGE_CONFIG_PATHS.map fun c => c.1.drop 1

theorem calmPage_listed {k : Str} (h : WasListed calmPage "web".toList k) : k = "a".toList := by
  obtain ⟨t, summaries, ⟨⟩, s, hs, rfl⟩ := h
  rw [List.mem_singleton] at hs
  rw [hs]

/-- A storage whose objects are such pages is sound, if none of them is a configuration. -/
theorem pages_sound {l : List Str}
    (hcanon : ∀ k ∈ l, (∀ s ∈ segments k, s ≠ [] ∧ s ≠ ['.'] ∧ s ≠ ['.', '.']) ∧
      trim k = k ∧ (k.all fun c => !isControl c) = true ∧
      (segments k).head? ≠ some METADATA_DIR_NAME)
    (happart : ∀ k ∈ l, ∀ k' ∈ l, names k <+: names k' → k = k')
    (hdigests : ∀ k ∈ l, ∀ k' ∈ l, smallDeps.sha256 (utf8 k) = smallDeps.sha256 (utf8 k') → k = k')
    (hcandidates : ∀ c ∈ EDGE_CONFIG_PATHS, c.1.drop 1 ∈ l)
    (hlisted : ∀ k, WasListed env "web".toList k → k ∈ l ∧ ∀ c ∈ EDGE_CONFIG_PATHS, c.1.drop 1 ≠ k)
    (hpages : ∀ t k, env.getObject t "web".toList k = calmPage.getObject t "web".toList k) :
    Sound smallDeps env "web".toList (· ∈ l) := by
  have hjson : (fromUtf8 (smallDeps.metadataToJson ⟨some "text/html".toList, none, none, none⟩)).map
      smallDeps.metadataOfJson = some (.ok ⟨some "text/html".toList, none, none, none⟩) := by
    decide +kernel
  refine ⟨⟨⟨fun k hk => ?_, fun k l hk hl => happart k hk l hl⟩, fun k hk => (hlisted k hk).1,
    fun k l hk hl => hdigests k hk l (hlisted l hl).1, fun t k object hk hget => ?_,
    fun t k object hk hget _ => ?_⟩, hcandidates,
    fun t c object hc hk _ => absurd rfl ((hlisted _ hk).2 c hc)⟩
  · obtain ⟨h1, h2, h3, h4⟩ := hcanon k hk
    exact ⟨h1, h2, no_control_of_all h3, h4⟩
  · cases (hpages t k).symm.trans hget
    obtain ⟨content, hutf8, hok⟩ := Option.map_eq_some_iff.mp hjson
    exact ⟨content, hutf8, hok⟩
  · cases (hpages t k).symm.trans hget
    have hbody : fromUtf8 [65] = some "A".toList := by decide +kernel
    exact ⟨"A".toList, hbody, (), rfl⟩

theorem calmPage_sound : Sound smallDeps calmPage "web".toList (· ∈ pageKeys) := by
  refine pages_sound (by decide +kernel) (by decide +kernel) (by decide +kernel)
    (fun c hc => List.mem_cons_of_mem _ (List.mem_map_of_mem hc)) (fun k hk => ?_) fun _ _ => rfl
  rw [calmPage_listed hk]
  exact ⟨List.mem_cons_self, by decide⟩

/-- The first process on an empty disk. -/
theorem ready_empty {id : Str} (hid : validateOriginId id = .ok ()) (keys : Str → Prop) :
    Ready deps env id keys (World.start FileTree.empty) := by
  have hempty : ∀ q, q ≠ [] → (World.start FileTree.empty).fs.lookup q = none := fun q hq => by
    rw [World.start, FileTree.lookup_of_ne_nil _ hq]
    rfl
  have hunder : ∀ r, (World.start FileTree.empty).under id r = none := fun r =>
    hempty _ (by rw [names_origin hid]; simp)
  refine ⟨tidy_empty hid, ?_, fun t s b hs => ?_, fun index h => by cases h⟩
  · rw [funext hunder]
    exact orderly_empty
  · by_cases h0 : s = []
    · rw [h0]
      simp
    · rw [hempty s h0]
      simp

theorem refreshes_return_page :
    (∃ response, (refreshOrigin smallDeps calmPage plainService "web".toList
      (refreshes smallDeps calmPage plainService "web".toList FileTree.empty 1)).1 = .ok response) ∧
      ∃ index, MirrorsListing smallDeps calmPage "web".toList True
        (refreshes smallDeps calmPage plainService "web".toList FileTree.empty 1).clock index
        (refreshes smallDeps calmPage plainService "web".toList FileTree.empty (1 + 1)) := by
  have hid : validateOriginId "web".toList = .ok () := by decide
  exact refreshes_return smallDeps calmPage plainService "web".toList (· ∈ pageKeys) FileTree.empty
    ⟨fun _ _ => rfl, fun _ => rfl⟩ calmPage_sound hid rfl (fun _ _ h => by cases h)
    (ready_empty hid _) 1
    fun i _ => ⟨_, ⟨fun _ _ _ => rfl, fun s hs => ⟨_, fun _ _ _ => rfl, fun now => by
      rw [List.mem_singleton.mp hs]
      rfl⟩⟩, fun _ _ _ => rfl⟩

end RenderMesh.Refresh
