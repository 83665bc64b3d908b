import RenderMesh.Refresh.Shadows

/-!
# A leftover file that takes a listed object's metadata with it

Behaviour (`src/src/repositories/sync.rs:400-454`, `local_mirror.rs:95-131`): for a
file that is not listed `remove_deleted_objects` also removes the sidecar of its
key. The sidecar's name is made from `normalize_object_path` of the key, which
trims it, so a leftover file ` a` leads to the sidecar of the listed key `a`.

Documented: "each object and its metadata" are mirrored together; the sidecars of
listed objects are those that `remove_orphan_metadata_sidecars` keeps.

Counterexample: the mirror of an earlier process has a file ` a`; the first refresh
lists `a`, writes it with its sidecar, and then removes that sidecar
(`first_refresh_drops_metadata`).

Condition: `activated_mirrors`. On a healthy disk, for canonical keys and digests
without collision, in a run where no listing has a key that is `Shadowed` by a file
of the mirror, every refresh that returns Ok leaves the listing: one file for each
key and no other, each with its sidecar from the same checked object.
-/
namespace RenderMesh.Bugs.ShadowedSidecar

open RenderMesh.Core RenderMesh.Mirror RenderMesh.Server RenderMesh.Refresh

theorem activated_mirrors (deps : Deps) (env : Env) (service : OriginRefreshService) (id : Str)
    (fs : Tree) (henv : Healthy env) (htidy : Tidy id (World.start fs))
    (hkeys : ∀ t summaries, env.listObjects t id = .ok summaries → ∀ s ∈ summaries, Canonical s.key)
    (hhash : ∀ k k', Occurs env id fs k → Occurs env id fs k' →
      deps.sha256 (utf8 k) = deps.sha256 (utf8 k') → k = k') (n : Nat)
    (hclear : ∀ i, i ≤ n → Clear deps env service id (refreshes deps env service id fs i))
    (response : OriginSyncResponse)
    (hok : (refreshOrigin deps env service id (refreshes deps env service id fs n)).1 =
      .ok response) :
    ∃ index config, Mirrors deps env id (refreshes deps env service id fs n).clock index config
      (refreshes deps env service id fs (n + 1)) :=
  (clear_step henv hkeys hhash (unshadowed_refreshes henv hkeys hhash htidy n fun i hi =>
    hclear i (Nat.le_of_lt hi)) (hclear n (Nat.le_refl n))).2 response hok

/-- A storage with the one object `a`, and a disk that takes any name. -/
def single : Env :=
  { calmEnv with
    long := fun _ => false
    listObjects := fun _ _ => .ok [⟨"a".toList, none, none, none, 1, none, none⟩]
    getObject := fun _ _ key => .ok ⟨key, [65], none, none, none, none⟩ }

theorem single_healthy : Healthy single := ⟨fun _ _ => rfl, fun _ => rfl⟩

theorem single_canonical : ∀ t summaries, single.listObjects t "web".toList = .ok summaries →
    ∀ s ∈ summaries, Canonical s.key := by
  rintro t summaries ⟨⟩ s hs
  rw [List.mem_singleton] at hs
  subst hs
  exact ⟨by decide, by decide, no_control_of_all (by decide), by decide⟩

/-- A storage from which `b` goes away. -/
def shrinking : Env :=
  { single with
    listObjects := fun t _ => .ok (if t < 40 then
        [⟨"a".toList, none, none, none, 1, none, none⟩, ⟨"b".toList, none, none, none, 1, none, none⟩]
      else [⟨"a".toList, none, none, none, 1, none, none⟩]) }

theorem shrinking_keys {t : Nat} {summaries : List RemoteObjectSummary} {s : RemoteObjectSummary}
    (hlist : shrinking.listObjects t "web".toList = .ok summaries) (hs : s ∈ summaries) :
    s.key = "a".toList ∨ s.key = "b".toList := by
  cases hlist
  split at hs
  · rw [List.mem_cons, List.mem_singleton] at hs
    exact hs.imp (congrArg RemoteObjectSummary.key) (congrArg RemoteObjectSummary.key)
  · exact Or.inl (congrArg RemoteObjectSummary.key (List.mem_singleton.mp hs))

theorem shrinking_canonical : ∀ t summaries, shrinking.listObjects t "web".toList = .ok summaries →
    ∀ s ∈ summaries, Canonical s.key := by
  intro t summaries hlist s hs
  rcases shrinking_keys hlist hs with h | h <;> rw [h] <;>
    exact ⟨by decide, by decide, no_control_of_all (by decide), by decide⟩

/-- The state after `n` refreshes with it. -/
def mirrored (n : Nat) : World :=
  refreshes smallDeps shrinking plainService "web".toList FileTree.empty n

/-- A mirror with files at `a` and `b` only shadows neither. -/
theorem clear_of_files {w : World} (hfiles : ∀ r b, r ≠ [] → r.head? ≠ some metaName →
      w.under "web".toList r = some (.file b) → r = names "a".toList ∨ r = names "b".toList) :
    Clear smallDeps shrinking plainService "web".toList w := by
  intro e _ hshadow
  unfold listsShadowed at hshadow
  split at hshadow
  · obtain ⟨summaries, hlist, s, hs, r, b, hr, hmeta, hfile, hne, hkey⟩ := hshadow
    have hown : ∀ k : Str, keyOf (names k) = k → normalizeObjectPath k = .ok k → r = names k → False := by
      rintro k hkk hnorm rfl
      rw [hkk, hnorm] at hkey
      exact hne (hkk.trans (Except.ok.inj hkey))
    rcases hfiles r b hr hmeta hfile with h | h
    · exact hown _ (by decide) (by decide) h
    · exact hown _ (by decide) (by decide) h
  · exact hshadow

/-- The second refresh finds `a` unchanged and `b` removed. -/
theorem activated_mirrors_shrinking :
    (∃ response, (refreshOrigin smallDeps shrinking plainService "web".toList (mirrored 1)).1 =
      .ok response ∧ response.unchangedFiles = 1 ∧ response.removedFiles = 1) ∧
    ∃ index config, Mirrors smallDeps shrinking "web".toList (mirrored 1).clock index config
      (mirrored (1 + 1)) := by
  have hfirst : (refreshOrigin smallDeps shrinking plainService "web".toList (mirrored 0)).1.ok?.isSome =
      true := by decide +kernel
  have hcounts : (refreshOrigin smallDeps shrinking plainService "web".toList (mirrored 1)).1.ok?.map
      (fun response => (response.unchangedFiles, response.removedFiles)) = some (1, 1) := by decide +kernel
  obtain ⟨first, hfirst⟩ := Outcome.ok?_isSome.mp hfirst
  obtain ⟨response, hr, hcount⟩ := Option.map_eq_some_iff.mp hcounts
  have hok := Outcome.ok?_eq_some.mp hr
  obtain ⟨hunchanged, hremoved⟩ := Prod.mk.inj hcount
  have hocc : ∀ k, Occurs shrinking "web".toList FileTree.empty k → k = "a".toList ∨ k = "b".toList := by
    intro k hk
    cases hk with
    | listed hlist hs => exact shrinking_keys hlist hs
    | leftover hr hmeta hfile hn => exact absurd hfile (empty_under _ _)
  have hhash : ∀ k k', Occurs shrinking "web".toList FileTree.empty k →
      Occurs shrinking "web".toList FileTree.empty k' →
      smallDeps.sha256 (utf8 k) = smallDeps.sha256 (utf8 k') → k = k' := by
    have hab : smallDeps.sha256 (utf8 "a".toList) ≠ smallDeps.sha256 (utf8 "b".toList) := by decide
    intro k k' hk hk' he
    rcases hocc k hk with rfl | rfl <;> rcases hocc k' hk' with rfl | rfl
    · rfl
    · exact absurd he hab
    · exact absurd he.symm hab
    · rfl
  have hempty : Clear smallDeps shrinking plainService "web".toList (mirrored 0) :=
    clear_of_files fun r b _ _ hfile => absurd hfile (empty_under r b)
  have hmirrors := activated_mirrors smallDeps shrinking plainService "web".toList FileTree.empty
    ⟨fun _ _ => rfl, fun _ => rfl⟩ (tidy_empty (by decide)) shrinking_canonical hhash
  refine ⟨⟨response, hok, hunchanged, hremoved⟩, hmirrors 1 (fun i hi => ?_) response hok⟩
  rcases Nat.le_one_iff_eq_zero_or_eq_one.mp hi with rfl | rfl
  · exact hempty
  · obtain ⟨index, config, hm⟩ := hmirrors 0 (fun i hi => Nat.le_zero.mp hi ▸ hempty) first hfirst
    refine clear_of_files fun r b hr hmeta hfile => ?_
    obtain ⟨k, hk, rfl⟩ := (hm.listing.files r hr hmeta).mp ⟨b, hfile⟩
    obtain ⟨wl, summaries, now, -, -, -, hlist, hbuild⟩ := hm.listing.listed
    obtain ⟨s, hs, rfl⟩ := (mem_files_iff hbuild k).mp hk
    exact (shrinking_keys hlist hs).imp (congrArg names) (congrArg names)

/-- What an earlier process left: a mirror of `web` with a file ` a`. -/
def leftover : Tree :=
  (FileTree.empty.insert (names "web".toList) .dir).insert (names "web/ a".toList) (.file [66])

def shadowing (n : Nat) : World := refreshes smallDeps single plainService "web".toList leftover n

theorem leftover_lookup (q : List Name) : leftover.lookup q =
    if q = names "web/ a".toList then some (.file [66])
    else if q = names "web".toList then some .dir else FileTree.empty.lookup q := by
  have hweb : ∀ r, ((FileTree.empty : Tree).insert (names "web".toList) .dir).lookup r =
      if r = names "web".toList then some .dir else FileTree.empty.lookup r :=
    FileTree.lookup_insert _ _ _ (by decide) (by decide)
  rw [leftover, FileTree.lookup_insert _ _ _ (by decide) (by decide), hweb]

theorem leftover_file {q : List Name} {b : Bytes} (h : leftover.lookup q = some (.file b)) :
    q = names "web/ a".toList := by
  by_contra hne
  rw [leftover_lookup, if_neg hne] at h
  split at h
  · cases h
  · cases q with
    | nil => cases h
    | cons n q => cases h

theorem leftover_tidy : Tidy "web".toList (World.start leftover) := by
  refine ⟨fun b h => ?_, fun now => ?_⟩
  · have := leftover_file h
    revert this
    decide
  · have hid : validateOriginId "web".toList = .ok () := by decide
    obtain ⟨n, hn, hdot, -⟩ := names_backupPath hid now
    have hweb : [n] ≠ names "web".toList := fun h => origin_ne_of_dot hid hdot h.symm
    have hfile : [n] ≠ names "web/ a".toList := by
      have hlen : (names "web/ a".toList).length = 2 := by decide
      intro h
      rw [← h] at hlen
      cases hlen
    show leftover.lookup _ = none
    rw [hn, leftover_lookup, if_neg hfile, if_neg hweb]
    rfl

theorem leftover_occurs (k : Str) (h : Occurs single "web".toList leftover k) : k = "a".toList := by
  cases h with
  | listed hlist hs =>
    cases hlist
    rw [List.mem_singleton.mp hs]
  | leftover hr hmeta hfile hn =>
    have hq := leftover_file hfile
    rw [show names "web/ a".toList = names "web".toList ++ names " a".toList from by decide] at hq
    rw [List.append_cancel_left hq] at hn
    have hna : normalizeObjectPath (keyOf (names " a".toList)) = .ok "a".toList := by decide
    exact Except.ok.inj (hn.symm.trans hna)

/-- **Counterexample**: the first refresh returns Ok, and the listed object `a` has
no metadata. -/
theorem first_refresh_drops_metadata :
    Healthy single ∧ Tidy "web".toList (World.start leftover) ∧
    (∀ t summaries, single.listObjects t "web".toList = .ok summaries →
      ∀ s ∈ summaries, Canonical s.key) ∧
    (∀ k k', Occurs single "web".toList leftover k → Occurs single "web".toList leftover k' →
      smallDeps.sha256 (utf8 k) = smallDeps.sha256 (utf8 k') → k = k') ∧
    ¬ ∀ n response, (refreshOrigin smallDeps single plainService "web".toList (shadowing n)).1 =
      .ok response → ∃ index config, Mirrors smallDeps single "web".toList (shadowing n).clock index
        config (shadowing (n + 1)) := by
  refine ⟨single_healthy, leftover_tidy, single_canonical,
    fun k k' hk hk' _ => (leftover_occurs k hk).trans (leftover_occurs k' hk').symm, fun h => ?_⟩
  have hok : (refreshOrigin smallDeps single plainService "web".toList (shadowing 0)).1.ok?.isSome =
      true := by decide +kernel
  have hlisted : ((shadowing (0 + 1)).freshnessIndexes "web".toList).any (fun index =>
      index.files.contains "a".toList) = true := by decide +kernel
  have hgone : (shadowing (0 + 1)).under "web".toList (sidecarNames smallDeps "a".toList) = none := by
    decide +kernel
  obtain ⟨response, hr⟩ := Outcome.ok?_isSome.mp hok
  obtain ⟨index, config, hm⟩ := h 0 response hr
  rw [hm.listing.stored, Option.any_some, Std.TreeMap.contains_iff_mem] at hlisted
  obtain ⟨st, hst⟩ := Option.isSome_iff_exists.mp (Std.TreeMap.mem_iff_isSome_getElem?.mp hlisted)
  obtain ⟨t, st', object, -, -, -, -, -, hside⟩ := hm.listing.held _ st hst
  obtain ⟨n, hn, hfile⟩ := hside trivial
  have hna : normalizeObjectPath "a".toList = .ok "a".toList := by decide
  rw [hna] at hn
  cases hn
  rw [hgone] at hfile
  cases hfile

end RenderMesh.Bugs.ShadowedSidecar
