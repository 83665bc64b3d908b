import RenderMesh.Refresh.Delivery
import RenderMesh.Refresh.Standing

/-!
# Places that the old tree has taken

Behaviour (`src/src/repositories/sync.rs:153-187`): `stage_origin_dir` works in a copy of the mirror.
It writes the added and modified objects first and removes the deleted ones after that, and it never
removes a directory. So an object `a/b` cannot be written while the deleted `a` is still a file, and
an object `a` cannot be written where there is a directory `a`, even one that deletions left empty.
Each such refresh fails, and the mirror stays as it is, so the next one fails too. A directory in
the place of a configuration that is looked for stops the refresh as well, and an object that
changed under the state it was listed with is not fetched.

Documented (`docs/local-mirror-and-sync.md`): "Objects missing from the source are removed from the
local mirror during refresh", and "Only added and modified paths are fetched from the source
provider. Removed paths are removed from the staged mirror".

Counterexample: the object `a` is replaced by `a/b` (`file_becomes_directory`).

Condition: `update_completes_iff`. The refresh returns and its mirror is the new state if and only
if the mirror has room for each new object and each configuration that is looked for in vain, and no
object changed under its listed state (`Untaken`).
-/
namespace RenderMesh.Bugs.TakenPlaces

open RenderMesh.Core RenderMesh.Mirror RenderMesh.Server RenderMesh.Cdn RenderMesh.Refresh

/-! ## Remote states -/

/-- What a storage holds: the states that it lists, each with its object. -/
structure Remote where
  objects : List (RemoteObjectSummary × RemoteObject)

namespace Remote

def summaries (remote : Remote) : List RemoteObjectSummary := remote.objects.map (·.1)

def keys (remote : Remote) (k : Str) : Prop := ∃ e ∈ remote.objects, e.1.key = k

instance (remote : Remote) (k : Str) : Decidable (remote.keys k) :=
  inferInstanceAs (Decidable (∃ e ∈ remote.objects, e.1.key = k))

/-- The keys that may have the edge configuration, in their order. -/
def candidates : List Str := EDGE_CONFIG_PATHS.map fun c => c.1.drop 1

/-- The candidates that are looked for in vain. -/
def passedOver (remote : Remote) : List Str := candidates.takeWhile fun c => ¬ remote.keys c

/-- The candidate that is found. -/
def chosen (remote : Remote) : Option Str := candidates.find? fun c => remote.keys c

end Remote

/-- A finite map from canonical keys to objects, none of which is a path prefix of another, and
each object is what its state says. -/
structure TreeShaped (remote : Remote) : Prop where
  storable : Storable remote.keys
  unique : ∀ e ∈ remote.objects, ∀ e' ∈ remote.objects, e.1.key = e'.1.key → e = e'
  checked : ∀ e ∈ remote.objects, ∀ now,
    validateDownloadedObject e.1.key (fileState e.1 e.1.key now) e.2 = .ok ()

/-- The storage of `id` stays as it is. -/
structure StaysAt (env : Env) (id : Str) (remote : Remote) : Prop where
  listing : ∀ t, env.listObjects t id = .ok remote.summaries
  objects : ∀ t, ∀ e ∈ remote.objects, env.getObject t id e.1.key = .ok e.2

/-- The mirror of `id` has exactly the objects of `remote`: their bodies and sidecars are its files,
and the metadata directory has no deeper directories. There may be other directories. -/
structure Mirrors (deps : Deps) (id : Str) (remote : Remote) (w : World) : Prop where
  top : w.under id [] = some .dir
  objects : ∀ e ∈ remote.objects, w.under id (names e.1.key) = some (.file e.2.body) ∧
    w.under id (sidecarNames deps e.1.key) = some (.file (deps.metadataToJson (objectMetadata e.2)))
  files : ∀ r b, r ≠ [] → w.under id r = some (.file b) → Place deps remote.keys r
  shards : ∀ r, w.under id (metaName :: r) = some .dir → r.length ≤ 1

/-- What is promised of an update from `old` to `new`: the mirror and the index of `id` are those of
`old`, the storage stays at `new`, whose configuration and templates are valid, nothing fails and
no purge is dropped. -/
structure Update (deps : Deps) (env : Env) (id : Str) (old new : Remote) (w : World) : Prop where
  origin : validateOriginId id = .ok ()
  healthy : Healthy env
  purge : ∀ t request, env.purge t request ≠ .dropped
  oldTree : TreeShaped old
  newTree : TreeShaped new
  stays : StaysAt env id new
  digests : ∀ k, old.keys k ∨ new.keys k → ∀ k', old.keys k' ∨ new.keys k' →
    deps.sha256 (utf8 k) = deps.sha256 (utf8 k') → k = k'
  metadata : ∀ e, e ∈ old.objects ∨ e ∈ new.objects → ∃ content,
    fromUtf8 (deps.metadataToJson (objectMetadata e.2)) = some content ∧
      deps.metadataOfJson content = .ok (objectMetadata e.2)
  templates : ∀ e ∈ new.objects, isHtml e.1.key e.2.contentType = true → ∃ body,
    fromUtf8 e.2.body = some body ∧ ∃ u, deps.compileTemplate body = .ok u
  config : ∀ e ∈ new.objects, new.chosen = some e.1.key → ∃ content config,
    fromUtf8 e.2.body = some content ∧ parseEdgeConfig deps content = .ok config
  mirror : Mirrors deps id old w
  index : ∃ now index, buildOriginIndex id old.summaries now = .ok index ∧
    w.freshnessIndexes id = some index
  backups : ∀ t, w.clock ≤ t → w.fs.lookup (names (backupPath id (env.nanos t))) = none
  staging : StagingOpen deps id w

/-- No directory is at the place of a new key and no file on the way to it; where a configuration is
looked for in vain neither the mirror nor the new state has anything in the way; and an object that
is listed as before is as before. -/
structure Untaken (id : Str) (old new : Remote) (w : World) : Prop where
  room : ∀ k, new.keys k → Room (w.under id) (names k)
  passed : ∀ c ∈ new.passedOver, w.under id (names c) ≠ some .dir ∧
    ∀ k, new.keys k → ¬ names c <+: names k ∧ ¬ names k <+: names c
  told : ∀ e ∈ old.objects, ∀ e' ∈ new.objects,
    sameSourceState (fileState e.1 e.1.key 0) (fileState e'.1 e'.1.key 0) = true →
      e.2.body = e'.2.body ∧ objectMetadata e.2 = objectMetadata e'.2

/-! ## Keys and their states -/

theorem Remote.keys_iff {remote : Remote} {k : Str} :
    remote.keys k ↔ ∃ s ∈ remote.summaries, s.key = k := by
  simp [Remote.keys, Remote.summaries]

theorem Remote.passedOver_spec {remote : Remote} {c : Str} (hc : c ∈ remote.passedOver) :
    ¬ remote.keys c ∧ ∃ p ∈ EDGE_CONFIG_PATHS, p.1.drop 1 = c := by
  refine ⟨by simpa using List.mem_takeWhile_imp hc, ?_⟩
  simpa [Remote.candidates] using (List.takeWhile_sublist _).mem hc

theorem passedOver_canonical {remote : Remote} {c : Str} (hc : c ∈ remote.passedOver) : Canonical c := by
  obtain ⟨-, p, hp, rfl⟩ := Remote.passedOver_spec hc
  exact candidates_canonical hp

/-- The time of the listing plays no part. -/
theorem sameSourceState_times {s s' : RemoteObjectSummary} {k k' : Str} (t t' u u' : Nat) :
    sameSourceState (fileState s k t) (fileState s' k' t') =
      sameSourceState (fileState s k u) (fileState s' k' u') := rfl

section
variable {remote : Remote} (hremote : TreeShaped remote) {id : Str} {now : Nat}
  {index : OriginFreshnessIndex} (hindex : buildOriginIndex id remote.summaries now = .ok index)
include hindex

theorem mem_index_iff (k : Str) : k ∈ index.files ↔ remote.keys k := by
  rw [mem_files_iff hindex, Remote.keys_iff]

include hremote

/-- The index has the state of each object. -/
theorem index_get {e : RemoteObjectSummary × RemoteObject} (he : e ∈ remote.objects) :
    index.files[e.1.key]? = some (fileState e.1 e.1.key now) := by
  have hmem : e.1.key ∈ index.files := (mem_index_iff hindex _).mpr ⟨e, he, rfl⟩
  obtain ⟨st, hst⟩ := Option.isSome_iff_exists.mp (Std.TreeMap.mem_iff_isSome_getElem?.mp hmem)
  obtain ⟨s, hs, hkey, rfl⟩ := buildOriginIndex_state hindex hst
  obtain ⟨e', he', rfl⟩ := List.mem_map.mp hs
  obtain rfl := hremote.unique e he e' he' hkey.symm
  exact hst

end

section
variable {old new : Remote} {id : Str} {now now' : Nat} {before after : OriginFreshnessIndex}
  (hold : TreeShaped old) (hnew : TreeShaped new)
  (hbefore : buildOriginIndex id old.summaries now = .ok before)
  (hafter : buildOriginIndex id new.summaries now' = .ok after)
include hold hnew hbefore hafter

/-- What is not fetched was listed as before. -/
theorem unchanged_iff {e' : RemoteObjectSummary × RemoteObject} (he' : e' ∈ new.objects) :
    e'.1.key ∉ (diffOriginIndexes (some before) after).changedPaths ↔ ∃ e ∈ old.objects,
      e.1.key = e'.1.key ∧
        sameSourceState (fileState e.1 e.1.key 0) (fileState e'.1 e'.1.key 0) = true := by
  have hget := index_get hnew hafter he'
  constructor
  · intro hsame
    obtain ⟨p, hp, hpf⟩ := previous_of_not_changed _ _ _ hget hsame
    obtain ⟨s, hs, hkey, rfl⟩ := buildOriginIndex_state hbefore hp
    obtain ⟨e, he, rfl⟩ := List.mem_map.mp hs
    exact ⟨e, he, hkey, by rw [hkey]; exact hpf⟩
  · rintro ⟨e, he, hkey, hsame⟩ hchanged
    obtain ⟨f, hf, hno⟩ := (mem_changedPaths _ _ _).mp hchanged
    obtain rfl := Option.some.inj (hget.symm.trans hf)
    have hprevious : previousFile (some before) e'.1.key = some (fileState e.1 e.1.key now) := by
      rw [← hkey]
      exact index_get hold hbefore he
    exact absurd hsame (by rw [sameSourceState_times 0 0 now now', hno _ hprevious]; simp)

end

/-! ## A configuration that could be read -/

/-- Where a configuration was looked for in vain there was nothing, and no file on the way. -/
theorem passed_of_configReads {deps : Deps} {tree : List Name → Option (Node Bytes)} (keys : Str → Prop)
    [DecidablePred keys] {cs : List (Str × Bool)} (hconfig : ConfigReads deps tree cs)
    (hfiles : ∀ c ∈ cs, ∀ b, tree (names (c.1.drop 1)) = some (.file b) → keys (c.1.drop 1)) :
    ∀ c ∈ (cs.map fun c => c.1.drop 1).takeWhile fun c => ¬ keys c,
      tree (names c) = none ∧ ClearWay tree (names c) := by
  induction cs with
  | nil => simp
  | cons c rest ih =>
    rw [List.map_cons]
    rcases hconfig with ⟨hnone, hway, hrest⟩ | ⟨body, content, config, hbody, -⟩
    · intro c' hc'
      rw [List.takeWhile_cons] at hc'
      split at hc'
      · rcases List.mem_cons.mp hc' with rfl | hc'
        · exact ⟨hnone, hway⟩
        · exact ih hrest (fun c hc => hfiles c (by simp [hc])) c' hc'
      · cases hc'
    · rw [List.takeWhile_cons, if_neg (by simpa using hfiles c (by simp) body hbody)]
      simp

/-- A tree with nothing where the configuration is looked for in vain gives one that parses. -/
theorem configReads_of_passed {deps : Deps} {tree : List Name → Option (Node Bytes)} (keys : Str → Prop)
    [DecidablePred keys] {cs : List (Str × Bool)}
    (hpassed : ∀ c ∈ (cs.map fun c => c.1.drop 1).takeWhile fun c => ¬ keys c,
      tree (names c) = none ∧ ClearWay tree (names c))
    (hchosen : ∀ c, (cs.map fun c => c.1.drop 1).find? (fun c => keys c) = some c →
      ∃ body content config, tree (names c) = some (.file body) ∧ fromUtf8 body = some content ∧
        parseEdgeConfig deps content = .ok config) : ConfigReads deps tree cs := by
  induction cs with
  | nil => trivial
  | cons c rest ih =>
    simp only [List.map_cons] at hpassed hchosen
    by_cases hc : keys (c.1.drop 1)
    · exact Or.inr (hchosen _ (by rw [List.find?_cons_of_pos (by simpa using hc)]))
    · obtain ⟨hnone, hway⟩ := hpassed _ (by
        rw [List.takeWhile_cons, if_pos (by simpa using hc)]
        exact List.mem_cons_self)
      refine Or.inl ⟨hnone, hway, ih (fun c' hc' => hpassed c' ?_) fun c' hc' => hchosen c' ?_⟩
      · rw [List.takeWhile_cons, if_pos (by simpa using hc)]
        exact List.mem_cons_of_mem _ hc'
      · rw [List.find?_cons_of_neg (by simpa using hc)]
        exact hc'

theorem Mirrors.body {deps : Deps} {id : Str} {remote : Remote} {w : World}
    (h : Mirrors deps id remote w) {k : Str} (hk : remote.keys k) :
    ∃ b, w.under id (names k) = some (.file b) := by
  obtain ⟨e, he, rfl⟩ := hk
  exact ⟨_, (h.objects e he).1⟩

/-- The paths where an update with room makes no directories: the places of objects, and of the
configurations that are looked for in vain. -/
def Bare (old new : Remote) (q : List Name) : Prop :=
  (∃ k, (old.keys k ∨ new.keys k) ∧ q = names k) ∨ ∃ c ∈ new.passedOver, q = names c

/-! ## An update that returned -/

section
variable {deps : Deps} {env : Env} {id : Str} {old new : Remote} {w : World}
  (h : Update deps env id old new w)
include h

namespace Update

theorem canonical (k : Str) (hk : old.keys k ∨ new.keys k) : Canonical k :=
  hk.elim (h.oldTree.storable.canonical k) (h.newTree.storable.canonical k)

theorem wasListed_iff {k : Str} : WasListed env id k ↔ new.keys k := by
  rw [Remote.keys_iff]
  constructor
  · rintro ⟨t, summaries, hlist, hs⟩
    rw [h.stays.listing] at hlist
    cases hlist
    exact hs
  · rintro ⟨s, hs, hk⟩
    exact ⟨0, new.summaries, h.stays.listing 0, s, hs, hk⟩

theorem files (r : List Name) (b : Bytes) (hr : r ≠ []) (hb : w.under id r = some (.file b)) :
    Place deps (fun k => old.keys k ∨ new.keys k) r := by
  obtain ⟨k, hk, hq⟩ := h.mirror.files r b hr hb
  exact ⟨k, Or.inl hk, hq⟩

/-- Each listed key has its sidecar. -/
theorem ownSidecar {now : Nat} {index : OriginFreshnessIndex}
    (hindex : buildOriginIndex id new.summaries now = .ok index) {k : Str} (hk : new.keys k) :
    OwnSidecar deps index (w.under id) k k :=
  ownSidecar_of_files h.canonical (fun k hk => Or.inr ((mem_index_iff hindex k).mp hk))
    (fun k hk k' hk' => h.digests k hk k' (Or.inr ((mem_index_iff hindex k').mp hk'))) h.files
    ((mem_index_iff hindex k).mpr hk)

variable {cdn : Option OriginCdnRefresh} {w' : World}
  (href : Refreshed deps env id cdn none w w')
include href

/-- What a refresh stored and built. -/
theorem built : ∃ now index, buildOriginIndex id new.summaries now = .ok index ∧
    w'.freshnessIndexes id = some index ∧
    Built deps env id (w.freshnessIndexes id) index id w.clock w'.clock (w.under id) w' := by
  obtain ⟨index, hstored, ⟨wl, summaries, now, -, -, -, hlist, hindex⟩, hbuilt⟩ :=
    @refreshed_built deps env id cdn none (fun _ _ => False) w w' (h.healthy.not_probeFails h.origin)
      (fun _ _ => not_false) href
  rw [h.stays.listing] at hlist
  cases hlist
  exact ⟨now, index, hindex, hstored, hbuilt fun k hk =>
    (h.newTree.storable.canonical k ((mem_index_iff hindex k).mp hk)).plain⟩

/-- The mirror had room for each new object. -/
theorem had_room (hnew : Mirrors deps id new w') {k : Str} (hk : new.keys k) :
    Room (w.under id) (names k) := by
  obtain ⟨now, index, hindex, hstored, -⟩ := h.built href
  obtain ⟨b, hb⟩ := hnew.body hk
  have hcanon := h.newTree.storable.canonical k hk
  by_cases hchanged : k ∈ (diffOriginIndexes (w.freshnessIndexes id) index).changedPaths
  · refine ⟨fun hdir => ?_, href.ways h.healthy hstored (fun k hk => ?_) hchanged⟩
    · have hdir' := href.keepsDirs h.healthy (names_ne_nil_of_plain hcanon.plain) hdir
      exact absurd (hdir'.symm.trans hb) (by simp)
    · have hcanon := h.newTree.storable.canonical k ((mem_index_iff hindex k).mp hk)
      exact ⟨hcanon.accepted, hcanon.plain⟩
  · -- an object that was not fetched is there
    obtain ⟨now', before, hbefore, hprevious⟩ := h.index
    obtain ⟨e, he, rfl⟩ := hk
    rw [hprevious] at hchanged
    obtain ⟨e0, he0, hkey, -⟩ := (unchanged_iff h.oldTree h.newTree hbefore hindex he).mp hchanged
    have hthere := (h.mirror.objects e0 he0).1
    rw [hkey] at hthere
    exact ⟨by rw [hthere]; simp, clearWay_of_file hthere⟩

/-- Nothing was in the way of a configuration that was looked for in vain. -/
theorem had_passed (hnew : Mirrors deps id new w') {c : Str} (hc : c ∈ new.passedOver) :
    w.under id (names c) ≠ some .dir ∧
      ∀ k, new.keys k → ¬ names c <+: names k ∧ ¬ names k <+: names c := by
  obtain ⟨config, -, -, hreads⟩ := href.config
  have hcanon := passedOver_canonical hc
  obtain ⟨hnone, hway⟩ := passed_of_configReads new.keys hreads (fun c hc b hb => by
    have hcanon := candidates_canonical hc
    obtain ⟨k, hk, he⟩ := key_of_file hnew.files (names_ne_nil_of_plain hcanon.plain)
      (names_head_ne_meta hcanon.accepted hcanon.plain) hb
    rw [names_injOn_plain hcanon.plain (h.newTree.storable.canonical k hk).plain he]
    exact hk) c hc
  refine ⟨fun hdir => ?_, fun k hk => ?_⟩
  · have hdir' := href.keepsDirs h.healthy (names_ne_nil_of_plain hcanon.plain) hdir
    exact absurd (hdir'.symm.trans hnone) (by simp)
  · obtain ⟨b, hb⟩ := hnew.body hk
    have hne : names k ≠ names c := fun he => absurd (hb.symm.trans (he ▸ hnone)) (by simp)
    refine ⟨fun hck => ?_, fun hkc => ?_⟩
    · have hdir := dir_above (by rw [hb]; rfl) hck hne.symm
      exact absurd (hdir.symm.trans hnone) (by simp)
    · exact hway _ b (h.newTree.storable.names_ne_nil hk) hkc hne hb

/-- What is listed as before is as before. -/
theorem had_told (hnew : Mirrors deps id new w') {e e' : RemoteObjectSummary × RemoteObject}
    (he : e ∈ old.objects) (he' : e' ∈ new.objects)
    (hsame : sameSourceState (fileState e.1 e.1.key 0) (fileState e'.1 e'.1.key 0) = true) :
    e.2.body = e'.2.body ∧ objectMetadata e.2 = objectMetadata e'.2 := by
  obtain ⟨now, index, hindex, hstored, hbuilt⟩ := h.built href
  obtain ⟨now', before, hbefore, hprevious⟩ := h.index
  have hkey : e.1.key = e'.1.key := by
    have := sameSourceState_iff.mp hsame
    exact congrArg OriginFileState.path this
  have hcanon := h.newTree.storable.canonical _ ⟨e', he', rfl⟩
  have hkept := (unchanged_iff h.oldTree h.newTree hbefore hindex he').mpr ⟨e, he, hkey, hsame⟩
  rw [hprevious] at hbuilt
  obtain ⟨hbody, hside⟩ := hbuilt.unchanged _ ((mem_index_iff hindex _).mpr ⟨e', he', rfl⟩) hkept
  obtain ⟨holdBody, holdSide⟩ := h.mirror.objects e he
  obtain ⟨hnewBody, hnewSide⟩ := hnew.objects e' he'
  rw [hkey] at holdBody holdSide
  have hbodies := (hbody _ holdBody).symm.trans hnewBody
  have hsides := holdSide.symm.trans ((hside _ hcanon.normalized
    (h.ownSidecar hindex ⟨e', he', rfl⟩)).symm.trans hnewSide)
  simp only [Option.some.injEq, Node.file.injEq] at hbodies hsides
  refine ⟨hbodies, ?_⟩
  -- equal sidecars are read alike
  obtain ⟨content, hutf8, hread⟩ := h.metadata e (Or.inl he)
  obtain ⟨content', hutf8', hread'⟩ := h.metadata e' (Or.inr he')
  rw [hsides, hutf8'] at hutf8
  cases hutf8
  exact Except.ok.inj (hread.symm.trans hread')

omit href

/-! ## An update with room -/

/-- What the storage gives for a key is its object. -/
theorem got {t : Nat} {k : Str} {object : RemoteObject} (hk : WasListed env id k)
    (hget : env.getObject t id k = .ok object) : ∃ e ∈ new.objects, e.1.key = k ∧ e.2 = object := by
  obtain ⟨e, he, rfl⟩ := h.wasListed_iff.mp hk
  exact ⟨e, he, rfl, Outcome.ok.inj ((h.stays.objects t e he).symm.trans hget)⟩

variable (hfree : Untaken id old new w)
include hfree

/-- No key, old or new, is on the way to another. -/
theorem storable : Storable fun k => old.keys k ∨ new.keys k := by
  refine ⟨h.canonical, fun k l hk hl hkl => ?_⟩
  by_contra hne
  have hnames : names k ≠ names l := fun he =>
    hne (names_injOn_plain (h.canonical k hk).plain (h.canonical l hl).plain he)
  rcases hk with hk | hk <;> rcases hl with hl | hl
  · exact hne (h.oldTree.storable.apart k l hk hl hkl)
  · obtain ⟨b, hb⟩ := h.mirror.body hk
    exact (hfree.room l hl).way _ b (h.oldTree.storable.names_ne_nil hk) hkl hnames hb
  · obtain ⟨b, hb⟩ := h.mirror.body hl
    exact (hfree.room k hk).free (dir_above (by rw [hb]; rfl) hkl hnames)
  · exact hne (h.newTree.storable.apart k l hk hl hkl)

theorem sheltering : Sheltering deps (fun k => old.keys k ∨ new.keys k)
    (Roomy deps (fun k => old.keys k ∨ new.keys k) (Bare old new)) := by
  refine (h.storable hfree).roomy (fun k hk => Or.inl ⟨k, hk, rfl⟩) ?_
  rintro q (⟨k, hk, rfl⟩ | ⟨c, hc, rfl⟩)
  · have hcanon := h.canonical k hk
    exact ⟨names_ne_nil_of_plain hcanon.plain, names_head_ne_meta hcanon.accepted hcanon.plain,
      fun l hl hkl => congrArg names ((h.storable hfree).apart k l hk hl hkl)⟩
  · have hcanon := passedOver_canonical hc
    refine ⟨names_ne_nil_of_plain hcanon.plain, names_head_ne_meta hcanon.accepted hcanon.plain,
      fun k hk hck => ?_⟩
    by_contra hne
    rcases hk with hk | hk
    · obtain ⟨b, hb⟩ := h.mirror.body hk
      exact (hfree.passed c hc).1 (dir_above (by rw [hb]; rfl) hck hne)
    · exact ((hfree.passed c hc).2 k hk).1 hck

theorem laid : Laid deps env id (Roomy deps (fun k => old.keys k ∨ new.keys k) (Bare old new)) w := by
  have htop : w.fs.lookup (names id) = some .dir := by simpa [World.under] using h.mirror.top
  refine ⟨fun b => by rw [htop]; simp, h.backups, ⟨h.files, ?_, h.mirror.shards⟩, h.staging⟩
  rintro q (⟨k, hk | hk, rfl⟩ | ⟨c, hc, rfl⟩)
  · obtain ⟨b, hb⟩ := h.mirror.body hk
    rw [hb]
    simp
  · exact (hfree.room k hk).free
  · exact (hfree.passed c hc).1

theorem supply : Supply deps env id fun k => old.keys k ∨ new.keys k := by
  refine ⟨h.storable hfree, fun k hk => Or.inr (h.wasListed_iff.mp hk),
    fun k k' hk hk' => h.digests k hk k' (Or.inr (h.wasListed_iff.mp hk')),
    fun t k object hk hget => ?_, fun t k object hk hget hhtml => ?_⟩
  · obtain ⟨e, he, -, rfl⟩ := h.got hk hget
    exact h.metadata e (Or.inr he)
  · obtain ⟨e, he, rfl, rfl⟩ := h.got hk hget
    exact h.templates e he hhtml

/-- What is not fetched is in the mirror as it is given. -/
theorem kept {now : Nat} {index : OriginFreshnessIndex}
    (hindex : buildOriginIndex id new.summaries now = .ok index) {k : Str} (hk : k ∈ index.files)
    (hsame : k ∉ (diffOriginIndexes (w.freshnessIndexes id) index).changedPaths) :
    Holds deps env id (w.under id) k := by
  obtain ⟨e', he', rfl⟩ := (mem_index_iff hindex k).mp hk
  obtain ⟨now', before, hbefore, hprevious⟩ := h.index
  rw [hprevious] at hsame
  obtain ⟨e, he, hkey, hstate⟩ := (unchanged_iff h.oldTree h.newTree hbefore hindex he').mp hsame
  obtain ⟨hbody, hmeta⟩ := hfree.told e he e' he' hstate
  obtain ⟨hthere, hside⟩ := h.mirror.objects e he
  rw [hkey, hbody] at hthere
  rw [hkey, hmeta] at hside
  exact ⟨h.wasListed_iff.mpr ⟨e', he', rfl⟩, 0, e'.2, h.stays.objects 0 e' he', hthere, hside⟩

/-- A tree with the new objects, and no directory where it must not be, gives a configuration. -/
theorem configReads {tree : List Name → Option (Node Bytes)}
    (htree : Roomy deps (fun k => old.keys k ∨ new.keys k) (Bare old new) tree)
    (hfiles : ∀ r b, r ≠ [] → r.head? ≠ some metaName → tree r = some (.file b) →
      ∃ s ∈ new.summaries, r = names s.key)
    (hholds : ∀ s ∈ new.summaries, Holds deps env id tree s.key) :
    ConfigReads deps tree EDGE_CONFIG_PATHS := by
  refine configReads_of_passed new.keys (fun c hc => ?_) fun c hc => ?_
  · have hcanon := @passedOver_canonical new c hc
    have hhead := names_head_ne_meta hcanon.accepted hcanon.plain
    constructor
    · cases hnode : tree (names c) with
      | none => rfl
      | some node =>
        cases node with
        | dir => exact absurd hnode (htree.bare _ (Or.inr ⟨c, hc, rfl⟩))
        | file b =>
          obtain ⟨s, hs, he⟩ := hfiles _ b (names_ne_nil_of_plain hcanon.plain) hhead hnode
          have hk : new.keys s.key := Remote.keys_iff.mpr ⟨s, hs, rfl⟩
          rw [← names_injOn_plain hcanon.plain (h.newTree.storable.canonical _ hk).plain he] at hk
          exact absurd hk (Remote.passedOver_spec hc).1
    · intro r b hr hrc hne hb
      obtain ⟨s, hs, rfl⟩ := hfiles r b hr (fun hmeta => hhead (by
        obtain ⟨x, hx⟩ := hrc
        rw [← hx, List.head?_append_of_ne_nil _ hr, hmeta])) hb
      exact ((hfree.passed c hc).2 s.key (Remote.keys_iff.mpr ⟨s, hs, rfl⟩)).2 hrc
  · have hfound : decide (new.keys c) = true := List.find?_some (p := fun c => decide (new.keys c)) hc
    obtain ⟨s, hs, rfl⟩ := Remote.keys_iff.mp (of_decide_eq_true hfound)
    obtain ⟨hlisted, t, object, hget, hbody, -⟩ := hholds s hs
    obtain ⟨e, he, hkey, rfl⟩ := h.got hlisted hget
    obtain ⟨content, config, hutf8, hparse⟩ := h.config e he (hkey ▸ hc)
    exact ⟨_, content, config, hbody, hutf8, hparse⟩

/-- The refresh returns, and there is nothing in the mirror that is not new. -/
theorem completes (cdn : Option OriginCdnRefresh) :
    ∃ response w', run (step deps env) (refreshOriginSnapshot deps id cdn none) w = (.ok response, w') ∧
      Mirrors deps id new w' := by
  have hsteady : Steady env id w.clock new.summaries := by
    refine ⟨fun t _ => h.stays.listing t, fun s hs => ?_⟩
    obtain ⟨e, he, rfl⟩ := List.mem_map.mp hs
    exact ⟨e.2, fun t _ => h.stays.objects t e he, h.newTree.checked e he⟩
  obtain ⟨response, w', hrun, hlaid⟩ := refreshOriginSnapshot_returns h.healthy (h.sheltering hfree)
    h.origin (h.supply hfree) h.purge (h.laid hfree) hsteady (fun now index => h.kept hfree)
    (fun tree => h.configReads hfree) cdn fun now index _ =>
      show validateActivationBarrier id _ index _ none = .ok () from rfl
  refine ⟨response, w', hrun, ?_⟩
  rcases refreshOriginSnapshot_stores hrun with ⟨-, href⟩ | ⟨hno, -⟩
  swap
  · exact absurd rfl (hno response)
  obtain ⟨now, index, hindex, hstored, hbuilt⟩ := h.built href
  have hwas : ∀ k ∈ index.files, WasListed env id k :=
    fun k hk => h.wasListed_iff.mpr ((mem_index_iff hindex k).mp hk)
  refine ⟨hbuilt.top, fun e he => ?_, fun r b hr hb => ?_, hlaid.tree.shards⟩
  · have hk : e.1.key ∈ index.files := (mem_index_iff hindex _).mpr ⟨e, he, rfl⟩
    obtain ⟨hlisted, t, object, hget, hbody, hside⟩ := built_holds (h.supply hfree) h.files hwas
      (fun k hk => h.kept hfree hindex hk) hbuilt hk
    rw [h.stays.objects t e he] at hget
    cases hget
    exact ⟨hbody, hside⟩
  · by_cases hmeta : r.head? = some metaName
    · obtain ⟨s, rfl⟩ := List.singleton_prefix_iff_head?_eq_some.mpr hmeta
      by_cases hs : s = []
      · rw [hs] at hb
        exact absurd hb (hbuilt.metadataDir b)
      · obtain ⟨k, hk, n, hn, he⟩ := href.sidecars hstored hs hb
        rw [((h.newTree.storable.canonical k ((mem_index_iff hindex k).mp hk)).normalized)] at hn
        cases hn
        exact ⟨k, (mem_index_iff hindex k).mp hk, Or.inr he⟩
    · obtain ⟨k, hk, rfl⟩ := hbuilt.files r b hr hmeta hb
      exact ⟨k, (mem_index_iff hindex k).mp hk, Or.inl rfl⟩

end Update

end

/-- An update returns and leaves the new objects in the mirror, and nothing else, exactly when the
old tree has not taken their places. -/
theorem update_completes_iff (deps : Deps) (env : Env) (id : Str) (old new : Remote) (w : World)
    (h : Update deps env id old new w) (cdn : Option OriginCdnRefresh) :
    ((∃ response, (run (step deps env) (refreshOriginSnapshot deps id cdn none) w).1 = .ok response) ∧
      Mirrors deps id new (run (step deps env) (refreshOriginSnapshot deps id cdn none) w).2) ↔
    Untaken id old new w := by
  constructor
  · rintro ⟨⟨response, hok⟩, hnew⟩
    rcases refreshOriginSnapshot_stores (Prod.ext hok rfl) with ⟨-, href⟩ | ⟨hno, -⟩
    · exact ⟨fun k hk => h.had_room href hnew hk, fun c hc => h.had_passed href hnew hc,
        fun e he e' he' hsame => h.had_told href hnew he he' hsame⟩
    · exact absurd rfl (hno response)
  · intro hfree
    obtain ⟨response, w', hrun, hnew⟩ := h.completes hfree cdn
    rw [hrun]
    exact ⟨⟨response, rfl⟩, hnew⟩

/-! ## A small site -/

def siteDigests : List (Str × Str) :=
  [("d/e".toList, "beca7883ac15db928b3a23b745ef662ecec67568d4b8b02111e538cdd58ed183".toList),
   ("b/c".toList, "b9e2beb9a0cdd309d9f98c1930bf0e3afa6e70a984ad872b714784ce68b2a09e".toList),
   ("a/b".toList, "c14cddc033f64b9dea80ea675cf280a015e672516090a5626781153dc68fea11".toList),
   ("d".toList, "18ac3e7343f016890c510e93f935261169d9e3f565436429830faf0934f4f8e4".toList)]

def siteDeps : Deps := knowing smallDeps siteDigests

/-- Pages of one letter at the given keys. -/
def site (keys : List Str) : Remote :=
  ⟨keys.map fun key => (⟨key, none, none, none, 1, none, none⟩,
    ⟨key, [65], none, none, some "text/html".toList, none⟩)⟩

/-- A storage that stays at `remote`, on a disk on which every call succeeds. -/
def steadyAt (remote : Remote) : Env :=
  { page with long := fun _ => false, listObjects := fun _ _ => .ok remote.summaries }

def oldKeys : List Str := ["a".toList, "d/e".toList]

/-- The state after the first refresh. -/
def published : World :=
  refreshes siteDeps (steadyAt (site oldKeys)) plainService "web".toList FileTree.empty 1

theorem site_keys {l : List Str} {k : Str} : (site l).keys k ↔ k ∈ l := by
  simp [site, Remote.keys]

theorem site_object {l : List Str} {e : RemoteObjectSummary × RemoteObject} (he : e ∈ (site l).objects) :
    ∃ key ∈ l, e = (⟨key, none, none, none, 1, none, none⟩,
      ⟨key, [65], none, none, some "text/html".toList, none⟩) := by
  obtain ⟨key, hkey, rfl⟩ := List.mem_map.mp he
  exact ⟨key, hkey, rfl⟩

theorem site_treeShaped {l : List Str}
    (hcanon : ∀ k ∈ l, (∀ s ∈ segments k, s ≠ [] ∧ s ≠ ['.'] ∧ s ≠ ['.', '.']) ∧
      trim k = k ∧ (k.all fun c => !isControl c) = true ∧ (segments k).head? ≠ some METADATA_DIR_NAME)
    (happart : ∀ k ∈ l, ∀ k' ∈ l, names k <+: names k' → k = k') : TreeShaped (site l) := by
  refine ⟨⟨fun k hk => ?_, fun k k' hk hk' => happart k (site_keys.mp hk) k' (site_keys.mp hk')⟩,
    fun e he e' he' hkey => ?_, fun e he now => ?_⟩
  · obtain ⟨h1, h2, h3, h4⟩ := hcanon k (site_keys.mp hk)
    exact ⟨h1, h2, no_control_of_all h3, h4⟩
  · obtain ⟨key, -, rfl⟩ := site_object he
    obtain ⟨key', -, rfl⟩ := site_object he'
    cases hkey
    rfl
  · obtain ⟨key, hkey, rfl⟩ := site_object he
    obtain ⟨h1, h2, h3, h4⟩ := hcanon key hkey
    have hnormal := normalizeRemoteKey_ok_iff.mpr
      ⟨rfl, (Canonical.mk h1 h2 (no_control_of_all h3) h4).accepted⟩
    simp [validateDownloadedObject, hnormal, fileState, bind, Except.bind]

theorem lookup_mem {t : Tree} {q : List Name} {n : Node Bytes} (hq : q ≠ []) (h : t.lookup q = some n) :
    (q, n) ∈ t.entries := by
  rw [FileTree.lookup_of_ne_nil _ hq] at h
  generalize t.entries = es at h
  induction es with
  | nil => cases h
  | cons e es ih =>
    rw [find] at h
    split at h
    · rename_i he
      cases h
      rw [← he]
      exact List.mem_cons_self
    · exact List.mem_cons_of_mem _ (ih h)

/-- The files of the first mirror are those of its pages; there is nothing else but the staging
area. -/
theorem published_files : ∀ e ∈ published.fs.entries,
    (e.2 = .dir ∨ ∃ k ∈ oldKeys, e.1 = names "web".toList ++ names k ∨
      e.1 = names "web".toList ++ sidecarNames siteDeps k) ∧
    (names "web".toList <+: e.1 ∨ e.1 = [syncName]) ∧
    (e.2 = .dir → names "web".toList ++ [metaName] <+: e.1 → e.1.length ≤ 3) := by decide +kernel

theorem published_pages : published.under "web".toList [] = some .dir ∧ ∀ k ∈ oldKeys,
    published.under "web".toList (names k) = some (.file [65]) ∧
    published.under "web".toList (sidecarNames siteDeps k) = some (.file (siteDeps.metadataToJson
      ⟨some "text/html".toList, none, none, none⟩)) := by decide +kernel

theorem published_at {q : List Name} {n : Node Bytes} (hq : q ≠ [])
    (h : published.fs.lookup q = some n) :
    (n = .dir ∨ ∃ k ∈ oldKeys, q = names "web".toList ++ names k ∨
      q = names "web".toList ++ sidecarNames siteDeps k) ∧
    (names "web".toList <+: q ∨ q = [syncName]) ∧
    (n = .dir → names "web".toList ++ [metaName] <+: q → q.length ≤ 3) :=
  published_files _ (lookup_mem hq h)

/-- The index is that of the listing. -/
theorem published_index : ∃ now index, buildOriginIndex "web".toList (site oldKeys).summaries now =
    .ok index ∧ published.freshnessIndexes "web".toList = some index := by
  have hid : validateOriginId "web".toList = .ok () := by decide
  have henv : Healthy (steadyAt (site oldKeys)) := ⟨fun _ _ => rfl, fun _ => rfl⟩
  have hok : (refreshOrigin siteDeps (steadyAt (site oldKeys)) plainService "web".toList
      (World.start FileTree.empty)).1.ok?.isSome = true := by decide +kernel
  obtain ⟨response, hr⟩ := Outcome.ok?_isSome.mp hok
  rcases @refreshOrigin_cases siteDeps (steadyAt (site oldKeys)) plainService "web".toList
      (World.start FileTree.empty) with ⟨-, hno⟩ | ⟨out, w', hrun, hdata, hout⟩
  · exact absurd hr (hno response)
  · cases (hout response).mp hr
    rcases refreshOriginSnapshot_stores hrun with ⟨-, href⟩ | ⟨hno, -⟩
    · obtain ⟨index, hindex, ⟨wl, summaries, now, -, -, -, hlist, hbuilt⟩, -⟩ :=
        @refreshed_built _ _ _ _ _ (fun _ _ => False) _ _ (henv.not_probeFails hid)
          (fun _ _ => not_false) href
      cases hlist
      refine ⟨now, index, hbuilt, ?_⟩
      rw [published, refreshes, refreshes, hdata.freshnessIndexes]
      exact hindex
    · exact absurd rfl (hno response)

theorem published_update {l : List Str} (hl : TreeShaped (site l))
    (hdigests : ∀ k ∈ oldKeys ++ l, ∀ k' ∈ oldKeys ++ l,
      siteDeps.sha256 (utf8 k) = siteDeps.sha256 (utf8 k') → k = k')
    (hnone : (site l).chosen = none) :
    Update siteDeps (steadyAt (site l)) "web".toList (site oldKeys) (site l) published := by
  have hid : validateOriginId "web".toList = .ok () := by decide
  have hjson : (fromUtf8 (siteDeps.metadataToJson ⟨some "text/html".toList, none, none, none⟩)).map
      siteDeps.metadataOfJson = some (.ok ⟨some "text/html".toList, none, none, none⟩) := by
    decide +kernel
  have hbody : fromUtf8 [65] = some "A".toList := by decide +kernel
  obtain ⟨htop, hpages⟩ := published_pages
  have hmem : ∀ k, (site oldKeys).keys k ∨ (site l).keys k → k ∈ oldKeys ++ l := fun k hk =>
    List.mem_append.mpr (hk.imp site_keys.mp site_keys.mp)
  refine
    { origin := hid
      healthy := ⟨fun _ _ => rfl, fun _ => rfl⟩
      purge := fun _ _ h => by cases h
      oldTree := site_treeShaped (by decide +kernel) (by decide +kernel)
      newTree := hl
      stays := ⟨fun _ => rfl, fun t e he => ?_⟩
      digests := fun k hk k' hk' => hdigests k (hmem k hk) k' (hmem k' hk')
      metadata := fun e he => ?_
      templates := fun e he _ => ?_
      config := fun e _ h => by rw [hnone] at h; cases h
      mirror := ⟨htop, fun e he => ?_, fun r b hr hb => ?_, fun r hr => ?_⟩
      index := published_index
      backups := fun t _ => ?_
      staging := fun t s b hs hb => ?_ }
  · obtain ⟨key, -, rfl⟩ := site_object he
    rfl
  · obtain ⟨content, hutf8, hok⟩ := Option.map_eq_some_iff.mp hjson
    rcases he with he | he <;> obtain ⟨key, -, rfl⟩ := site_object he <;> exact ⟨content, hutf8, hok⟩
  · obtain ⟨key, -, rfl⟩ := site_object he
    exact ⟨"A".toList, hbody, (), rfl⟩
  · obtain ⟨key, hkey, rfl⟩ := site_object he
    exact hpages key hkey
  · have hq : names "web".toList ++ r ≠ [] := by simp [hr]
    obtain ⟨hfile, -⟩ := published_at hq hb
    obtain ⟨k, hk, he⟩ := hfile.resolve_left (by simp)
    exact ⟨k, site_keys.mpr hk, he.imp List.append_cancel_left List.append_cancel_left⟩
  · have hq : names "web".toList ++ metaName :: r ≠ [] := by simp
    obtain ⟨-, -, hdeep⟩ := published_at hq hr
    have hlen := hdeep rfl (by simp)
    rw [names_origin hid] at hlen
    simp only [List.length_append, List.length_cons, List.length_nil] at hlen
    omega
  · cases hnode : published.fs.lookup (names (backupPath "web".toList ((steadyAt (site l)).nanos t))) with
    | none => rfl
    | some n =>
      obtain ⟨-, hwhere, -⟩ := published_at (by rw [names_backupPath_eq hid]; simp) hnode
      rcases hwhere with h | h
      · exact absurd h (origin_not_prefix_backup hid List.prefix_rfl)
      · exact absurd (by rw [InStaging, h]) (backup_not_inStaging hid _)
  · by_cases h0 : s = []
    · rw [h0] at hb
      simp at hb
    · obtain ⟨hfile, -⟩ := published_at h0 hb
      obtain ⟨k, -, he⟩ := hfile.resolve_left (by simp)
      have hweb : names "web".toList <+: s := by
        rcases he with he | he <;> rw [he] <;> exact List.prefix_append _ _
      exact origin_not_prefix_staging hid (stagingPath_inStaging siteDeps hid t) (hweb.trans hs)

/-- The new state of the counterexample. -/
def movedKeys : List Str := ["a/b".toList, "d/e".toList]

/-- A new state that fits. -/
def fittingKeys : List Str := ["a".toList, "b/c".toList]

/-- The object `a` is replaced by `a/b`: the mirror of `a` and `d/e` cannot be brought to it, since
the file `a` is removed only after `a/b` was to be written. -/
theorem file_becomes_directory :
    Update siteDeps (steadyAt (site movedKeys)) "web".toList (site oldKeys) (site movedKeys) published ∧
      ¬ ∃ response, (run (step siteDeps (steadyAt (site movedKeys)))
        (refreshOriginSnapshot siteDeps "web".toList none none) published).1 = .ok response := by
  refine ⟨published_update (site_treeShaped (by decide +kernel) (by decide +kernel))
    (by decide +kernel) (by decide +kernel), fun hok => ?_⟩
  have hstops : (run (step siteDeps (steadyAt (site movedKeys)))
      (refreshOriginSnapshot siteDeps "web".toList none none) published).1.ok?.isSome = false := by
    decide +kernel
  rw [Outcome.ok?_isSome.mpr hok] at hstops
  cases hstops

theorem published_untaken : Untaken "web".toList (site oldKeys) (site fittingKeys) published := by
  have hroom : ∀ k ∈ fittingKeys, published.under "web".toList (names k) ≠ some .dir ∧
      ∀ s ∈ (names k).inits, s ≠ [] → s ≠ names k →
        published.under "web".toList s = none ∨ published.under "web".toList s = some .dir := by
    decide +kernel
  have hpassed : ∀ c ∈ (site fittingKeys).passedOver,
      published.under "web".toList (names c) ≠ some .dir ∧
      ∀ k ∈ fittingKeys, ¬ names c <+: names k ∧ ¬ names k <+: names c := by decide +kernel
  refine ⟨fun k hk => ?_, fun c hc => ?_, fun e he e' he' _ => ?_⟩
  · obtain ⟨hfree, hway⟩ := hroom k (site_keys.mp hk)
    refine ⟨hfree, fun s b hs hp hne hb => ?_⟩
    rcases hway s ((List.mem_inits _ _).mpr hp) hs hne with h | h <;> cases hb.symm.trans h
  · exact ⟨(hpassed c hc).1, fun k hk => (hpassed c hc).2 k (site_keys.mp hk)⟩
  · -- the pages are all alike
    obtain ⟨key, -, rfl⟩ := site_object he
    obtain ⟨key', -, rfl⟩ := site_object he'
    exact ⟨rfl, rfl⟩

/-- A refresh that adds `b/c` and removes `d/e`. -/
theorem update_completes_iff_fitting :
    Update siteDeps (steadyAt (site fittingKeys)) "web".toList (site oldKeys) (site fittingKeys)
        published ∧
      (∃ response, (run (step siteDeps (steadyAt (site fittingKeys)))
        (refreshOriginSnapshot siteDeps "web".toList none none) published).1 = .ok response) ∧
      Mirrors siteDeps "web".toList (site fittingKeys) (run (step siteDeps (steadyAt (site fittingKeys)))
        (refreshOriginSnapshot siteDeps "web".toList none none) published).2 := by
  have hupdate : Update siteDeps (steadyAt (site fittingKeys)) "web".toList (site oldKeys)
      (site fittingKeys) published :=
    published_update (site_treeShaped (by decide +kernel) (by decide +kernel)) (by decide +kernel)
      (by decide +kernel)
  exact ⟨hupdate, (update_completes_iff siteDeps (steadyAt (site fittingKeys)) "web".toList
    (site oldKeys) (site fittingKeys) published hupdate none).mpr published_untaken⟩

end RenderMesh.Bugs.TakenPlaces
