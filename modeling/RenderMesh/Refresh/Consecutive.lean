import RenderMesh.Refresh.Runs
import RenderMesh.Refresh.Places

/-!
# Consecutive generations

An activation builds its mirror from the one before it. Whatever the storage answers, and whichever
calls fail, what it changes there it changes for a key that its diff names, as long as the mirror was
that of the stored index (`MirrorOf`), and an activation leaves such a mirror behind.

* `Replaces`: what two consecutive generations have to do with each other.
* `replaces_of_refreshed`: an activation replaces the generation before it.
* `refreshes_replace`: so it is in every run in which no swap stops half way and the mirror is found.
-/
namespace RenderMesh.Refresh

open RenderMesh.Core RenderMesh.Mirror RenderMesh.Server RenderMesh.Cdn

variable {deps : Deps} {env : Env} {id : Str}

/-- The mirror of `id` is that of `index`, which is stored: each listed key has its body there, and
there is no file but these and their sidecars. -/
structure MirrorOf (deps : Deps) (id : Str) (index : OriginFreshnessIndex) (w : World) : Prop where
  stored : w.freshnessIndexes id = some index
  canonical : ∀ k ∈ index.files, Canonical k
  top : w.under id [] = some .dir
  bodies : ∀ k ∈ index.files, ∃ b, w.under id (names k) = some (.file b)
  files : ∀ r b, r ≠ [] → w.under id r = some (.file b) → Place deps (· ∈ index.files) r

/-- `tree'` is the mirror of `new`, built from `tree`, which was that of `old`. What has not changed
is kept, and a path that leads to nothing that changed is spared, or loses its file. -/
structure Replaces (deps : Deps) (old new : OriginFreshnessIndex)
    (tree tree' : List Name → Option (Node Bytes)) : Prop where
  canonical : ∀ k, k ∈ old.files ∨ k ∈ new.files → Canonical k
  top : tree [] = some .dir
  top' : tree' [] = some .dir
  files : ∀ r b, r ≠ [] → tree r = some (.file b) → Place deps (· ∈ old.files) r
  files' : ∀ r b, r ≠ [] → tree' r = some (.file b) → Place deps (· ∈ new.files) r
  kept : ∀ k ∈ new.files, k ∉ (diffOriginIndexes (some old) new).changedPaths →
    tree' (names k) = tree (names k) ∧ tree' (sidecarNames deps k) = tree (sidecarNames deps k)
  spared : ∀ r, r ≠ [] → (∀ k ∈ (diffOriginIndexes (some old) new).changedPaths,
      ¬ r <+: names k ∧ ¬ r <+: sidecarNames deps k) →
    tree' r = tree r ∨ (∃ b, tree r = some (.file b)) ∧ tree' r = none

/-- A generation replaces itself. -/
theorem MirrorOf.replaces {index : OriginFreshnessIndex} {w : World} (h : MirrorOf deps id index w) :
    Replaces deps index index (w.under id) (w.under id) :=
  ⟨fun k hk => h.canonical k (hk.elim (·) (·)), h.top, h.top, h.files, h.files,
    fun _ _ _ => ⟨rfl, rfl⟩, fun _ _ _ => Or.inl rfl⟩

theorem MirrorOf.congr {index : OriginFreshnessIndex} {w w' : World} (h : MirrorOf deps id index w)
    (htree : ∀ r, w'.under id r = w.under id r)
    (hstored : w'.freshnessIndexes id = w.freshnessIndexes id) : MirrorOf deps id index w' := by
  refine ⟨hstored.trans h.stored, h.canonical, (htree []).trans h.top, fun k hk => ?_,
    fun r b hr hb => h.files r b hr ((htree r).symm.trans hb)⟩
  obtain ⟨b, hb⟩ := h.bodies k hk
  exact ⟨b, (htree _).trans hb⟩

/-! ## What has not changed -/

/-- A file of `k` stands at `r` or on the way to it. -/
def Bears (deps : Deps) (k : Str) (r : List Name) : Prop :=
  names k <+: r ∨ sidecarNames deps k <+: r

/-- The same, or `r` is on the way to a file of `k`. -/
def Near (deps : Deps) (k : Str) (r : List Name) : Prop :=
  Bears deps k r ∨ r <+: names k ∨ r <+: sidecarNames deps k

theorem changed_of_changedPaths {old new : OriginFreshnessIndex} {k : Str}
    (hk : k ∈ (diffOriginIndexes (some old) new).changedPaths) :
    Changed (diffOriginIndexes (some old) new) k := by
  rw [OriginFreshnessDiff.changedPaths, List.mem_append, Std.TreeSet.mem_toList,
    Std.TreeSet.mem_toList] at hk
  exact hk.imp_right Or.inl

theorem mem_new_of_old {old new : OriginFreshnessIndex} {k : Str} (hk : k ∈ old.files)
    (hsame : ¬ Changed (diffOriginIndexes (some old) new) k) : k ∈ new.files := by
  by_contra hnew
  refine hsame (Or.inr (Or.inr ((mem_removed _ _ _).mpr ⟨hnew, ?_⟩)))
  exact Std.TreeMap.mem_iff_isSome_getElem?.mp hk

theorem mem_of_changed {old new : OriginFreshnessIndex} {k : Str}
    (hk : Changed (diffOriginIndexes (some old) new) k) : k ∈ old.files ∨ k ∈ new.files := by
  rcases hk with hk | hk | hk
  · exact Or.inr ((mem_added _ _ _).mp hk).1
  · obtain ⟨p, f, -, hf, -⟩ := (mem_modified _ _ _).mp hk
    exact Or.inr (Std.TreeMap.mem_iff_isSome_getElem?.mpr (by rw [hf]; rfl))
  · exact Or.inl (Std.TreeMap.mem_iff_isSome_getElem?.mpr ((mem_removed _ _ _).mp hk).2)

/-- No file stands on the way to a sidecar. -/
theorem sidecar_clear {keys : Str → Prop} {tree : List Name → Option (Node Bytes)}
    (hcanon : ∀ k, keys k → Canonical k)
    (hfiles : ∀ r b, r ≠ [] → tree r = some (.file b) → Place deps keys r) (n : Str) :
    ClearWay tree (sidecarNames deps n) := by
  intro s b hs hpre hne hb
  have hlen : s.length < 3 := Nat.lt_of_le_of_ne hpre.length_le fun h => hne (hpre.eq_of_length h)
  obtain ⟨k, hk, rfl | rfl⟩ := hfiles s b hs hb
  · obtain ⟨t, ht⟩ := hpre
    refine names_head_ne_meta (hcanon k hk).accepted (hcanon k hk).plain ?_
    rw [← List.head?_append_of_ne_nil _ hs, ht]
    rfl
  · exact absurd hlen (by simp [sidecarNames])

namespace Replaces

variable {old new : OriginFreshnessIndex} {tree tree' : List Name → Option (Node Bytes)}
  (h : Replaces deps old new tree tree')
include h

theorem kept_of_unchanged {k : Str} (hk : k ∈ new.files)
    (hsame : ¬ Changed (diffOriginIndexes (some old) new) k) :
    tree' (names k) = tree (names k) ∧ tree' (sidecarNames deps k) = tree (sidecarNames deps k) :=
  h.kept k hk fun hc => hsame (changed_of_changedPaths hc)

/-- A file is in both generations, unless it is that of a key that has changed. -/
theorem file_iff {r : List Name} (hr : r ≠ [])
    (hsame : ∀ k, Changed (diffOriginIndexes (some old) new) k → ¬ Bears deps k r) (b : Bytes) :
    tree' r = some (.file b) ↔ tree r = some (.file b) := by
  constructor
  · intro hb
    obtain ⟨k, hk, rfl | rfl⟩ := h.files' r b hr hb
    · rw [← (h.kept_of_unchanged hk fun hc => hsame k hc (Or.inl List.prefix_rfl)).1]
      exact hb
    · rw [← (h.kept_of_unchanged hk fun hc => hsame k hc (Or.inr List.prefix_rfl)).2]
      exact hb
  · intro hb
    obtain ⟨k, hk, rfl | rfl⟩ := h.files r b hr hb
    · have hc := fun hc => hsame k hc (Or.inl List.prefix_rfl)
      rw [(h.kept_of_unchanged (mem_new_of_old hk hc) hc).1]
      exact hb
    · have hc := fun hc => hsame k hc (Or.inr List.prefix_rfl)
      rw [(h.kept_of_unchanged (mem_new_of_old hk hc) hc).2]
      exact hb

/-- Where nothing that has changed is near, both generations have the same. -/
theorem node_same {r : List Name}
    (hsame : ∀ k, Changed (diffOriginIndexes (some old) new) k → ¬ Near deps k r) :
    tree' r = tree r := by
  by_cases hr : r = []
  · rw [hr, h.top, h.top']
  · rcases h.spared r hr fun k hk =>
        ⟨fun hp => hsame k (changed_of_changedPaths hk) (Or.inr (Or.inl hp)),
          fun hp => hsame k (changed_of_changedPaths hk) (Or.inr (Or.inr hp))⟩ with
      hs | ⟨⟨b, hb⟩, hs⟩
    · exact hs
    · have := (h.file_iff hr (fun k hk hbears => hsame k hk (Or.inl hbears)) b).mpr hb
      exact absurd (hs.symm.trans this) (by simp)

/-- The sidecar of a key that has not changed, or of no key, is as it was. -/
theorem sidecar_same {m : Str}
    (hdigest : ∀ k, k ∈ old.files ∨ k ∈ new.files → deps.sha256 (utf8 m) = deps.sha256 (utf8 k) → m = k)
    (hsame : ¬ Changed (diffOriginIndexes (some old) new) m) :
    tree' (sidecarNames deps m) = tree (sidecarNames deps m) := by
  by_cases hm : m ∈ new.files
  · exact (h.kept_of_unchanged hm hsame).2
  refine h.node_same fun k hk hnear => ?_
  have hcanon := h.canonical k (mem_of_changed hk)
  have hhead := names_head_ne_meta hcanon.accepted hcanon.plain
  have hne : ∀ {p q : List Name}, p ≠ [] → p <+: q → p.head? = q.head? := by
    rintro p q hp ⟨s, rfl⟩
    exact (List.head?_append_of_ne_nil _ hp).symm
  have hsidecar : sidecarNames deps m ≠ sidecarNames deps k := fun he =>
    hsame (hdigest k (mem_of_changed hk) (sidecarNames_inj.mp he) ▸ hk)
  rcases hnear with (hp | hp) | hp | hp
  · exact hhead (hne (names_ne_nil_of_plain hcanon.plain) hp)
  · exact hsidecar (hp.eq_of_length rfl).symm
  · exact hhead (hne (List.cons_ne_nil _ _) hp).symm
  · exact hsidecar (hp.eq_of_length rfl)

end Replaces

/-! ## One activation -/

section
variable {cdn : Option OriginCdnRefresh} {barrier : Option Str} {w w' : World}
  (href : Refreshed deps env id cdn barrier w w')
  (hprobes : ∀ e ∈ trace (step deps env) (stageOriginSync deps id (w.freshnessIndexes id)) w.tick,
    probeFails env id e.1 e.2 = false)
  (hkeys : ∀ k, WasListed env id k → Canonical k)
  (hinv : ∀ index, w.freshnessIndexes id = some index → MirrorOf deps id index w)
include href hprobes hkeys

/-- What an activation stored and built. -/
theorem built_of_refreshed : ∃ new, w'.freshnessIndexes id = some new ∧
    (∀ k ∈ new.files, WasListed env id k) ∧
    Built deps env id (w.freshnessIndexes id) new id w.clock w'.clock (w.under id) w' := by
  obtain ⟨new, hnew, hlisted, hbuilt⟩ := @refreshed_built deps env id _ _
    (fun o w => probeFails env id o w = true) _ _ (fun _ _ h => h)
    (fun e he => by simp [hprobes e he]) href
  exact ⟨new, hnew, hlisted.wasListed, hbuilt fun k hk => (hkeys k (hlisted.wasListed k hk)).plain⟩

include hinv

/-- An activation leaves the mirror of its index. -/
theorem mirrorOf_of_refreshed : ∃ new, MirrorOf deps id new w' := by
  obtain ⟨new, hnew, hlisted, hbuilt⟩ := built_of_refreshed href hprobes hkeys
  have hcanon : ∀ k ∈ new.files, Canonical k := fun k hk => hkeys k (hlisted k hk)
  refine ⟨new, hnew, hcanon, hbuilt.top, fun k hk => ?_, fun r b hr hb => ?_⟩
  · by_cases hc : k ∈ (diffOriginIndexes (w.freshnessIndexes id) new).changedPaths
    · obtain ⟨object, -, hbody, -⟩ := hbuilt.changed k hc
      exact ⟨_, hbody⟩
    · -- an unchanged key was in the generation before
      obtain ⟨st, hst⟩ := Option.isSome_iff_exists.mp (Std.TreeMap.mem_iff_isSome_getElem?.mp hk)
      obtain ⟨p, hp, -⟩ := previous_of_not_changed _ _ _ hst hc
      obtain ⟨old, hold, hpst⟩ := Option.bind_eq_some_iff.mp hp
      obtain ⟨b, hb⟩ := (hinv old hold).bodies k
        (Std.TreeMap.mem_iff_isSome_getElem?.mpr (by rw [hpst]; rfl))
      exact ⟨b, (hbuilt.unchanged k hk hc).1 b hb⟩
  · by_cases hmeta : r.head? = some metaName
    · obtain ⟨s, rfl⟩ : ∃ s, r = metaName :: s := by
        cases r with
        | nil => exact absurd rfl hr
        | cons x s => exact ⟨s, by rw [Option.some.inj hmeta]⟩
      have hs : s ≠ [] := by
        rintro rfl
        exact hbuilt.metadataDir b hb
      obtain ⟨k, hk, n, hn, he⟩ := href.sidecars hnew hs hb
      rw [(hcanon k hk).normalized] at hn
      exact ⟨k, hk, Or.inr (by rw [he, Except.ok.inj hn])⟩
    · obtain ⟨k, hk, he⟩ := hbuilt.files r b hr hmeta hb
      exact ⟨k, hk, Or.inl he⟩

/-- An activation replaces the generation before it. -/
theorem replaces_of_refreshed
    (hdigests : ∀ k k', WasListed env id k → WasListed env id k' →
      deps.sha256 (utf8 k) = deps.sha256 (utf8 k') → k = k') {old : OriginFreshnessIndex}
    (hold : w.freshnessIndexes id = some old) (hlisted : ∀ k ∈ old.files, WasListed env id k) :
    ∃ new, w'.freshnessIndexes id = some new ∧
      Replaces deps old new (w.under id) (w'.under id) := by
  obtain ⟨new, hmirror⟩ := mirrorOf_of_refreshed href hprobes hkeys hinv
  obtain ⟨new', hnew, hlisted', hbuilt⟩ := built_of_refreshed href hprobes hkeys
  obtain rfl := Option.some.inj (hmirror.stored.symm.trans hnew)
  have hwas : ∀ k, k ∈ old.files ∨ k ∈ new.files → WasListed env id k := fun k hk =>
    hk.elim (hlisted k) (hlisted' k)
  have hcanon : ∀ k, k ∈ old.files ∨ k ∈ new.files → Canonical k := fun k hk => hkeys k (hwas k hk)
  have hbase := hinv old hold
  rw [hold] at hbuilt
  have hsub : ∀ k ∈ (diffOriginIndexes (some old) new).changedPaths, k ∈ new.files := by
    intro k hk
    obtain ⟨f, hf, -⟩ := (mem_changedPaths (some old) new k).mp hk
    exact Std.TreeMap.mem_iff_isSome_getElem?.mpr (by rw [hf]; rfl)
  refine ⟨new, hnew, hcanon, hbase.top, hmirror.top, hbase.files, hmirror.files, fun k hk hc => ?_,
    fun r hr hoff => hbuilt.spared r hr fun k hk => ⟨(hoff k hk).1, fun n hn => ?_⟩⟩
  · obtain ⟨hbody, hside⟩ := hbuilt.unchanged k hk hc
    obtain ⟨st, hst⟩ := Option.isSome_iff_exists.mp (Std.TreeMap.mem_iff_isSome_getElem?.mp hk)
    obtain ⟨p, hp, -⟩ := previous_of_not_changed _ _ _ hst hc
    obtain ⟨b, hb⟩ := hbase.bodies k
      (Std.TreeMap.mem_iff_isSome_getElem?.mpr (by rw [show old.files[k]? = some p from hp]; rfl))
    refine ⟨(hbody b hb).trans hb.symm, hside k (hcanon k (Or.inr hk)).normalized ?_⟩
    refine @ownSidecar_of_files deps (fun k => k ∈ old.files ∨ k ∈ new.files) hcanon new
      (fun k hk => Or.inr hk) (fun k hk k' hk' => hdigests k k' (hwas k hk) (hlisted' k' hk'))
      _ (fun r b hr hb => ?_) _ hk
    obtain ⟨k, hk, hr⟩ := hbase.files r b hr hb
    exact ⟨k, Or.inl hk, hr⟩
  · rw [(hcanon k (Or.inr (hsub k hk))).normalized] at hn
    exact Except.ok.inj hn ▸ (hoff k hk).2

end

/-! ## Runs -/

/-- The next refresh of `id` finds its mirror, and does not stop half way through the swap. -/
structure Whole (deps : Deps) (env : Env) (service : OriginRefreshService) (id : Str) (w : World) :
    Prop where
  swap : ∀ e ∈ trace (step deps env) (pipeline deps service id) (w.lock id),
    tearsMirror env id (w.fs.lookup (names id)).isSome e.1 e.2 = false
  probe : ∀ e ∈ trace (step deps env) (stageOriginSync deps id (w.freshnessIndexes id))
    (w.lock id).tick, probeFails env id e.1 e.2 = false

/-- The mirror is that of the stored index, whose keys were listed. -/
def Settled (deps : Deps) (env : Env) (id : Str) (w : World) : Prop :=
  ∀ index, w.freshnessIndexes id = some index →
    MirrorOf deps id index w ∧ ∀ k ∈ index.files, WasListed env id k

theorem Settled.congr {w w' : World} (h : Settled deps env id w)
    (htree : ∀ r, w'.under id r = w.under id r)
    (hstored : w'.freshnessIndexes id = w.freshnessIndexes id) : Settled deps env id w' := by
  intro index hindex
  obtain ⟨hmirror, hlisted⟩ := h index (hstored.symm.trans hindex)
  exact ⟨hmirror.congr htree hstored, hlisted⟩

section
variable {service : OriginRefreshService} (hkeys : ∀ k, WasListed env id k → Canonical k)
  (hdigests : ∀ k k', WasListed env id k → WasListed env id k' →
    deps.sha256 (utf8 k) = deps.sha256 (utf8 k') → k = k')
include hkeys hdigests

/-- A refresh that returns, or does not stop half way through the swap, settles the mirror again. -/
theorem refreshOrigin_replaces {w : World} (hw : Settled deps env id w)
    (hprobe : ∀ e ∈ trace (step deps env) (stageOriginSync deps id (w.freshnessIndexes id))
      (w.lock id).tick, probeFails env id e.1 e.2 = false)
    (hswap : (∃ response, (refreshOrigin deps env service id w).1 = .ok response) ∨
      ∀ e ∈ trace (step deps env) (pipeline deps service id) (w.lock id),
        tearsMirror env id (w.fs.lookup (names id)).isSome e.1 e.2 = false) :
    Settled deps env id (refreshOrigin deps env service id w).2 ∧
      ∀ old new, w.freshnessIndexes id = some old →
        (refreshOrigin deps env service id w).2.freshnessIndexes id = some new →
        Replaces deps old new (w.under id) ((refreshOrigin deps env service id w).2.under id) := by
  have hkept : ∀ w', (∀ r, w'.under id r = w.under id r) →
      w'.freshnessIndexes id = w.freshnessIndexes id → Settled deps env id w' ∧
      ∀ old new, w.freshnessIndexes id = some old → w'.freshnessIndexes id = some new →
        Replaces deps old new (w.under id) (w'.under id) := by
    intro w' htree hstored
    refine ⟨hw.congr htree hstored, fun old new hold hnew => ?_⟩
    obtain rfl := Option.some.inj (hold.symm.trans (hstored.symm.trans hnew))
    rw [funext htree]
    exact (hw old hold).1.replaces
  rcases @refreshOrigin_cases deps env service id w with
    ⟨hsame, -⟩ | ⟨out, w', hrun, hdata, hout⟩
  · rw [hsame]
    exact hkept w (fun _ => rfl) rfl
  have htree : ∀ r, (refreshOrigin deps env service id w).2.under id r = w'.under id r := fun r => by
    rw [World.under, hdata.fs]
    rfl
  have hindex := congrFun hdata.freshnessIndexes id
  have hend : Refreshed deps env id (service.cdn id) (service.activationBarrier id) (w.lock id) w' ∨
      Kept id (w.lock id) w' := by
    rcases hswap with ⟨response, hok⟩ | hswap
    · cases (hout response).mp hok
      rcases refreshOriginSnapshot_stores hrun with ⟨-, href⟩ | ⟨hno, -⟩
      · exact Or.inl href
      · exact absurd rfl (hno response)
    · have hends := ends_iff.mp (@refreshOriginSnapshot_kept deps env id
        (fun o w' => tearsMirror env id (w.fs.lookup (names id)).isSome o w' = true)
        (w.lock id) (fun _ _ h => h) (service.cdn id) (service.activationBarrier id))
        fun e he => by rw [hswap e he]; simp
      unfold pipeline at hrun
      rw [hrun] at hends
      exact hends.imp And.right And.right
  rcases hend with href | hkeep
  · have hlock : Settled deps env id (w.lock id) := hw.congr (fun _ => rfl) rfl
    obtain ⟨new, hmirror⟩ := mirrorOf_of_refreshed href hprobe hkeys fun index hi => (hlock index hi).1
    obtain ⟨new', hnew, hlisted, -⟩ := built_of_refreshed href hprobe hkeys
    obtain rfl := Option.some.inj (hmirror.stored.symm.trans hnew)
    have hsettled : Settled deps env id w' := fun index hi => by
      obtain rfl := Option.some.inj (hnew.symm.trans hi)
      exact ⟨hmirror, hlisted⟩
    refine ⟨hsettled.congr htree hindex, fun old new' hold hnew' => ?_⟩
    obtain ⟨new'', hnew'', hreplaces⟩ := replaces_of_refreshed href hprobe hkeys
      (fun index hi => (hlock index hi).1) hdigests hold (hlock old hold).2
    obtain rfl := Option.some.inj (hnew''.symm.trans (hindex.symm.trans hnew'))
    rw [funext htree]
    exact hreplaces
  · exact hkept _ (fun r => (htree r).trans (hkeep.mirror _ (List.prefix_append _ _)))
      (hindex.trans (congrFun hkeep.stores.freshnessIndexes id))

end

end RenderMesh.Refresh
