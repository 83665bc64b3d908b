import RenderMesh.Refresh.Staged
import RenderMesh.Mirror.ReadObject

/-!
# The places of a mirror

Where the files of a mirror may stand. `Storable` keys have places of which none is on
the way to another, so that their files can stand beside each other; in an `Orderly`
mirror files stand at such places only, and directories on the way to them only.

* `Orderly.room`: an orderly mirror has room at every place.
* `Orderly.placing`, `Orderly.thin`: it stays orderly when a file is put at a place,
  and when files or directories go.
* `Sheltering`: the properties of a tree that do so much, of which `Roomy` is a weaker one.
-/
namespace RenderMesh.Refresh

open RenderMesh.Core RenderMesh.Mirror

variable {deps : Deps} {keys : Str → Prop}

/-- Where the object of a key stands, or its sidecar. -/
def Place (deps : Deps) (keys : Str → Prop) (q : List Name) : Prop :=
  ∃ k, keys k ∧ (q = names k ∨ q = sidecarNames deps k)

/-- Keys that the normalizers leave alone, none of them a directory of another. -/
structure Storable (keys : Str → Prop) : Prop where
  canonical : ∀ k, keys k → Canonical k
  apart : ∀ k l, keys k → keys l → names k <+: names l → k = l

section
variable (hkeys : Storable keys)
include hkeys

theorem Storable.names_ne_nil {k : Str} (hk : keys k) : names k ≠ [] :=
  names_ne_nil_of_plain (hkeys.canonical k hk).plain

theorem Storable.head_ne_meta {k : Str} (hk : keys k) : (names k).head? ≠ some metaName :=
  names_head_ne_meta (hkeys.canonical k hk).accepted (hkeys.canonical k hk).plain

theorem Storable.place_ne_nil {q : List Name} (hq : Place deps keys q) : q ≠ [] := by
  obtain ⟨k, hk, rfl | rfl⟩ := hq
  · exact hkeys.names_ne_nil hk
  · exact List.cons_ne_nil _ _

/-- No place is on the way to another. -/
theorem Storable.place_apart {p q : List Name} (hp : Place deps keys p) (hq : Place deps keys q)
    (h : p <+: q) : p = q := by
  obtain ⟨k, hk, rfl | rfl⟩ := hp <;> obtain ⟨l, hl, rfl | rfl⟩ := hq
  · rw [hkeys.apart k l hk hl h]
  · -- a key is not below the metadata directory
    obtain ⟨s, hs⟩ := h
    have hne := hkeys.names_ne_nil hk
    refine absurd ?_ (hkeys.head_ne_meta hk)
    rw [← List.head?_append_of_ne_nil _ hne, hs]
    rfl
  · obtain ⟨s, hs⟩ := h
    exact absurd (by rw [← hs]; rfl) (hkeys.head_ne_meta hl)
  · exact h.eq_of_length rfl

end

/-! ## Room for a file -/

/-- A file can be put at `q`: no directory is there, and no file on the way. -/
structure Room (tree : List Name → Option (Node Bytes)) (q : List Name) : Prop where
  free : tree q ≠ some .dir
  way : ClearWay tree q

/-- From `tree` to `tree'` at most a file was put at `q`, and directories made on the way. -/
def Placing (q : List Name) (tree tree' : List Name → Option (Node Bytes)) : Prop :=
  ∀ r, tree' r = tree r ∨ (r = q ∧ ∃ b, tree' r = some (.file b)) ∨
    (r <+: q ∧ r ≠ q ∧ tree r = none ∧ tree' r = some .dir)

section
variable {tree tree' : List Name → Option (Node Bytes)} {P : List Name → Prop}
  (h : ∀ r b, r ≠ [] → tree r = some (.file b) → P r)
include h

/-- Where files stand when some have gone. -/
theorem files_thin (hsub : ∀ r, r ≠ [] → tree' r = tree r ∨ tree' r = none) :
    ∀ r b, r ≠ [] → tree' r = some (.file b) → P r := by
  intro r b hr hb
  rcases hsub r hr with hs | hs
  · exact h r b hr (hs.symm.trans hb)
  · exact absurd (hs.symm.trans hb) (by simp)

/-- Where files stand when one was put at `q`. -/
theorem files_placing {q : List Name} (hq : P q) (hp : Placing q tree tree') :
    ∀ r b, r ≠ [] → tree' r = some (.file b) → P r := by
  intro r b hr hb
  rcases hp r with hs | ⟨rfl, -⟩ | ⟨-, -, -, hs⟩
  · exact h r b hr (hs.symm.trans hb)
  · exact hq
  · exact absurd (hs.symm.trans hb) (by simp)

end

section
variable {tree : List Name → Option (Node Bytes)}
  (h : ∀ r b, r ≠ [] → tree r = some (.file b) → Place deps keys r)
include h

/-- A file outside the metadata directory is that of a key. -/
theorem key_of_file {r : List Name} {b : Bytes} (hr : r ≠ []) (hmeta : r.head? ≠ some metaName)
    (hb : tree r = some (.file b)) : ∃ k, keys k ∧ r = names k := by
  obtain ⟨k, hk, rfl | rfl⟩ := h r b hr hb
  · exact ⟨k, hk, rfl⟩
  · exact absurd rfl hmeta

/-- The metadata directory is none, or a directory. -/
theorem metadata_not_file (hkeys : Storable keys) (b : Bytes) : tree [metaName] ≠ some (.file b) := by
  intro hb
  obtain ⟨k, hk, he | he⟩ := h _ b (List.cons_ne_nil _ _) hb
  · exact hkeys.head_ne_meta hk (by rw [← he]; rfl)
  · exact absurd (congrArg List.length he) (by simp [sidecarNames])

end

/-- Among files at the places of keys with digests of their own, each listed key has its sidecar. -/
theorem ownSidecar_of_files (hcanon : ∀ k, keys k → Canonical k)
    {index : OriginFreshnessIndex} (hlisted : ∀ k ∈ index.files, keys k)
    (hdigests : ∀ k, keys k → ∀ k' ∈ index.files,
      deps.sha256 (utf8 k) = deps.sha256 (utf8 k') → k = k')
    {base : List Name → Option (Node Bytes)}
    (hfiles : ∀ r b, r ≠ [] → base r = some (.file b) → Place deps keys r) {k : Str}
    (hk : k ∈ index.files) : OwnSidecar deps index base k k := by
  refine ⟨fun k' hk' n' hn' he => ?_, fun r b hr hmeta hfile hnot n' hn' he => ?_⟩
  · rw [(hcanon k' (hlisted k' hk')).normalized] at hn'
    rw [← Except.ok.inj hn'] at he
    exact hdigests k' (hlisted k' hk') k hk (sidecarNames_inj.mp he)
  · obtain ⟨k', hk', rfl⟩ := key_of_file hfiles hr hmeta hfile
    rw [keyOf_names (hcanon k' hk').plain, (hcanon k' hk').normalized] at hn'
    rw [keyOf_names (hcanon k' hk').plain] at hnot
    rw [← Except.ok.inj hn'] at he
    exact hnot (hdigests k' hk' k hk (sidecarNames_inj.mp he) ▸ hk)

/-- Nothing stands elsewhere than at the places of `keys` and on the way to them. -/
structure Orderly (deps : Deps) (keys : Str → Prop) (tree : List Name → Option (Node Bytes)) :
    Prop where
  files : ∀ r b, r ≠ [] → tree r = some (.file b) → Place deps keys r
  dirs : ∀ r, r ≠ [] → tree r = some .dir → ∃ p, Place deps keys p ∧ r <+: p ∧ r ≠ p

theorem orderly_empty : Orderly deps keys fun _ => none :=
  ⟨fun _ _ _ h => (by cases h), fun _ _ h => (by cases h)⟩

section
variable {tree tree' : List Name → Option (Node Bytes)} (h : Orderly deps keys tree)
include h

theorem Orderly.thin (hsub : ∀ r, r ≠ [] → tree' r = tree r ∨ tree' r = none) :
    Orderly deps keys tree' := by
  refine ⟨files_thin h.files hsub, fun r hr hd => ?_⟩
  rcases hsub r hr with hs | hs
  · exact h.dirs r hr (hs.symm.trans hd)
  · exact absurd (hs.symm.trans hd) (by simp)

theorem Orderly.placing {q : List Name} (hq : Place deps keys q) (hp : Placing q tree tree') :
    Orderly deps keys tree' := by
  refine ⟨files_placing h.files hq hp, fun r hr hd => ?_⟩
  rcases hp r with hs | ⟨-, b, hs⟩ | ⟨hrq, hne, -, -⟩
  · exact h.dirs r hr (hs.symm.trans hd)
  · exact absurd (hs.symm.trans hd) (by simp)
  · exact ⟨q, hq, hrq, hne⟩

theorem Orderly.room (hkeys : Storable keys) {q : List Name} (hq : Place deps keys q) :
    Room tree q := by
  refine ⟨fun hd => ?_, fun s b hs hsq hne hb => ?_⟩
  · obtain ⟨p, hp, hqp, hne⟩ := h.dirs q (hkeys.place_ne_nil hq) hd
    exact hne (hkeys.place_apart hq hp hqp)
  · exact hne (hkeys.place_apart (h.files s b hs hb) hq hsq)

end

/-! ## Trees with room -/

/-- What a staging can rely on in its tree: it outlasts removals and files that are put at places,
and leaves room at every place. -/
structure Sheltering (deps : Deps) (keys : Str → Prop)
    (I : (List Name → Option (Node Bytes)) → Prop) : Prop where
  files : ∀ {tree}, I tree → ∀ r b, r ≠ [] → tree r = some (.file b) → Place deps keys r
  room : ∀ {tree}, I tree → ∀ {q}, Place deps keys q → Room tree q
  thin : ∀ {tree tree'}, I tree → (∀ r, r ≠ [] → tree' r = tree r ∨ tree' r = none) → I tree'
  placing : ∀ {tree tree'}, I tree → ∀ {q}, Place deps keys q → Placing q tree tree' → I tree'

/-- Files only at the places. Directories may be anywhere but at the paths in `bare`, and in the
metadata directory only on the way to a sidecar. -/
structure Roomy (deps : Deps) (keys : Str → Prop) (bare : List Name → Prop)
    (tree : List Name → Option (Node Bytes)) : Prop where
  files : ∀ r b, r ≠ [] → tree r = some (.file b) → Place deps keys r
  bare : ∀ q, bare q → tree q ≠ some .dir
  shards : ∀ r, tree (metaName :: r) = some .dir → r.length ≤ 1

theorem Storable.orderly (hkeys : Storable keys) : Sheltering deps keys (Orderly deps keys) :=
  ⟨fun h => h.files, fun h _ hq => h.room hkeys hq, fun h => h.thin, fun h _ hq => h.placing hq⟩

theorem Storable.roomy (hkeys : Storable keys) {bare : List Name → Prop}
    (hnames : ∀ k, keys k → bare (names k))
    (hbare : ∀ q, bare q → q ≠ [] ∧ q.head? ≠ some metaName ∧ ∀ k, keys k → q <+: names k → q = names k) :
    Sheltering deps keys (Roomy deps keys bare) := by
  refine ⟨fun h => h.files, fun {tree} h q hq => ⟨fun hd => ?_, fun s b hs hsq hne hb => ?_⟩,
    fun {tree tree'} h hsub => ⟨files_thin h.files hsub, fun q hq hd => ?_, fun r hd => ?_⟩,
    fun {tree tree'} h q hq hp => ⟨files_placing h.files hq hp, fun p hp' hd => ?_, fun r hd => ?_⟩⟩
  · obtain ⟨k, hk, rfl | rfl⟩ := hq
    · exact h.bare _ (hnames k hk) hd
    · exact absurd (h.shards _ hd) (by simp)
  · exact hne (hkeys.place_apart (h.files s b hs hb) hq hsq)
  · rcases hsub q (hbare q hq).1 with hs | hs
    · exact h.bare q hq (hs.symm.trans hd)
    · exact absurd (hs.symm.trans hd) (by simp)
  · rcases hsub _ (List.cons_ne_nil _ _) with hs | hs
    · exact h.shards r (hs.symm.trans hd)
    · exact absurd (hs.symm.trans hd) (by simp)
  · rcases hp p with hs | ⟨-, b, hs⟩ | ⟨hpq, hne, -, -⟩
    · exact h.bare p hp' (hs.symm.trans hd)
    · exact absurd (hs.symm.trans hd) (by simp)
    · -- the directories that were made are on the way to a place
      obtain ⟨-, hmeta, hway⟩ := hbare p hp'
      obtain ⟨k, hk, rfl | rfl⟩ := hq
      · exact hne (hway k hk hpq)
      · obtain ⟨s, hs⟩ := hpq
        refine hmeta ?_
        rw [← List.head?_append_of_ne_nil _ (hbare p hp').1, hs]
        rfl
  · rcases hp (metaName :: r) with hs | ⟨-, b, hs⟩ | ⟨hrq, hne, -, -⟩
    · exact h.shards r (hs.symm.trans hd)
    · exact absurd (hs.symm.trans hd) (by simp)
    · obtain ⟨k, hk, rfl | rfl⟩ := hq
      · obtain ⟨s, hs⟩ := hrq
        exact absurd (by rw [← hs]; rfl) (hkeys.head_ne_meta hk)
      · have hlen : (metaName :: r).length < (sidecarNames deps k).length :=
          lt_of_le_of_ne hrq.length_le fun he => hne (hrq.eq_of_length he)
        simp only [sidecarNames, List.length_cons, List.length_nil] at hlen
        omega

end RenderMesh.Refresh
