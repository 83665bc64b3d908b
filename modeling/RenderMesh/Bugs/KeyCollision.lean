import RenderMesh.Refresh.Cleanup
import RenderMesh.Refresh.Snapshot

/-!
# Object keys that share a file or a sidecar

Behaviour (`src/src/repositories/sync.rs:512-569`,
`src/src/repositories/local_mirror.rs:95-131`): `normalize_remote_key` accepts keys
with empty and `.` segments and with white space around them, unchanged. The file
system drops the segments, so `a//b` is written to the file of `a/b` and
`relative_key` reads that file back as `a/b`. The sidecar is named after
`normalize_object_path` of the key, which trims it, so ` a` and `a` share one; the
sidecar path of the key ` ` does not exist at all.

Documented: `remove_deleted_objects` removes a "deleted local object", one that
is not among the listed keys it is given.

Counterexample: the listed key `a//b` is written and then removed as deleted
(`listed_object_removed`).

Condition: `one_to_one_iff`. Every key is free of empty and `.` segments, and any
two different keys are different texts, and acceptable ones, once
`normalize_object_path` has trimmed them.
-/
namespace RenderMesh.Bugs.KeyCollision

open RenderMesh.Core RenderMesh.Mirror RenderMesh.Server RenderMesh.Refresh

/-- Keys and files of an origin correspond one to one, and so do keys and
sidecars; what removes files keeps those of the keys it is given, from any state
and however it ends. -/
structure OneToOne (deps : Deps) (id : Str) (keys : List Str) : Prop where
  back : ∀ k ∈ keys, ∃ p, remoteObjectPath id k = .ok p ∧ relativeKey deps id p = .ok k
  files : ∀ k ∈ keys, ∀ k' ∈ keys, k ≠ k' → ∀ p p', remoteObjectPath id k = .ok p →
    remoteObjectPath id k' = .ok p' → names p ≠ names p'
  sidecars : ∀ k ∈ keys, ∀ k' ∈ keys, k ≠ k' → ∃ p p', metadataSidecarPath deps id k = .ok p ∧
    metadataSidecarPath deps id k' = .ok p' ∧ names p ≠ names p'
  objectsKept : ∀ env w, ∀ k ∈ keys, ∀ p, remoteObjectPath id k = .ok p →
    (run (step deps env) (removeDeletedObjects deps id (.ofList keys)) w).2.fs.lookup (names p) =
      w.fs.lookup (names p)
  sidecarsKept : ∀ env w, ∀ k ∈ keys, ∀ p, metadataSidecarPath deps id k = .ok p →
    (run (step deps env) (removeOrphanMetadataSidecars deps id (.ofList keys)) w).2.fs.lookup
      (names p) = w.fs.lookup (names p)

/-- No empty and no `.` segment, and trimmed apart. -/
def Apart (keys : List Str) : Prop :=
  (∀ k ∈ keys, ∀ s ∈ segments k, s ≠ [] ∧ s ≠ ['.']) ∧
    ∀ k ∈ keys, ∀ k' ∈ keys, k ≠ k' → ∃ n n', normalizeObjectPath k = .ok n ∧
      normalizeObjectPath k' = .ok n' ∧ n ≠ n'

theorem one_to_one_iff (deps : Deps) (id : Str) (hid : validateOriginId id = .ok ())
    (keys : List Str) (hkeys : ∀ k ∈ keys, normalizeRemoteKey k = .ok k)
    (hhash : ∀ k ∈ keys, ∀ k' ∈ keys, ∀ n n', normalizeObjectPath k = .ok n →
      normalizeObjectPath k' = .ok n' → deps.sha256 (utf8 n) = deps.sha256 (utf8 n') → n = n') :
    OneToOne deps id keys ↔ Apart keys := by
  have hd : id ≠ [] := origin_ne_nil hid
  have hacc : ∀ k ∈ keys, Accepted k := fun k hk => (normalizeRemoteKey_ok_iff.mp (hkeys k hk)).2
  have hpath : ∀ k ∈ keys, ∀ p, remoteObjectPath id k = .ok p ↔ p = join id k := fun k hk p => by
    rw [remoteObjectPath_ok_iff hd, and_iff_left (hacc k hk)]
  constructor
  · intro h
    refine ⟨fun k hk => ?_, fun k hk k' hk' hne => ?_⟩
    · obtain ⟨p, hp, hback⟩ := h.back k hk
      rw [(hpath k hk p).mp hp, relativeKey_objectPath_iff deps hd (hacc k hk)] at hback
      exact (hacc k hk).plain_iff.mp hback
    · obtain ⟨p, p', hp, hp', hne'⟩ := h.sidecars k hk k' hk' hne
      obtain ⟨n, hn, rfl⟩ := metadataSidecarPath_ok_iff.mp hp
      obtain ⟨n', hn', rfl⟩ := metadataSidecarPath_ok_iff.mp hp'
      exact ⟨n, n', hn, hn', fun he => hne' (by rw [he])⟩
  · rintro ⟨hseg, htrim⟩
    have hplain : ∀ k ∈ keys, Plain k := fun k hk => (hacc k hk).plain_iff.mpr (hseg k hk)
    refine ⟨fun k hk => ?_, fun k hk k' hk' hne p p' hp hp' he => ?_,
      fun k hk k' hk' hne => ?_, fun env w k hk p hp => ?_, fun env w k hk p hp => ?_⟩
    · exact ⟨_, (hpath k hk _).mpr rfl,
        (relativeKey_objectPath_iff deps hd (hacc k hk)).mpr (hplain k hk)⟩
    · rw [(hpath k hk p).mp hp, (hpath k' hk' p').mp hp', names_join, names_join] at he
      exact hne (names_injOn_plain (hplain k hk) (hplain k' hk') (List.append_cancel_left he))
    · obtain ⟨n, n', hn, hn', hne'⟩ := htrim k hk k' hk' hne
      refine ⟨_, _, metadataSidecarPath_ok_iff.mpr ⟨n, hn, rfl⟩,
        metadataSidecarPath_ok_iff.mpr ⟨n', hn', rfl⟩, fun he => hne' ?_⟩
      rw [names_joinNames, names_joinNames] at he
      exact hhash k hk k' hk' n n' hn hn' (sidecarNames_inj.mp (List.append_cancel_left he))
    · rw [(hpath k hk p).mp hp, names_join]
      exact run_spares deps env (removeDeletedObjects_spares hd fun k hk => ⟨hacc k hk, hplain k hk⟩)
        w ⟨k, hk, rfl⟩
    · obtain ⟨n, hn, rfl⟩ := metadataSidecarPath_ok_iff.mp hp
      rw [names_joinNames]
      exact run_spares deps env (removeOrphanMetadataSidecars_spares keys) w
        (Or.inl ⟨k, hk, n, hn, rfl⟩)

theorem one_to_one_a_b :
    OneToOne smallDeps "web".toList ["a".toList, "b".toList] ↔ Apart ["a".toList, "b".toList] := by
  refine one_to_one_iff smallDeps "web".toList (by decide) ["a".toList, "b".toList] (by decide) ?_
  intro k hk k' hk' n n' hn hn' h
  have hna : normalizeObjectPath "a".toList = .ok "a".toList := by decide
  have hnb : normalizeObjectPath "b".toList = .ok "b".toList := by decide
  have hab : smallDeps.sha256 (utf8 "a".toList) ≠ smallDeps.sha256 (utf8 "b".toList) := by
    decide +kernel
  simp only [List.mem_cons, List.not_mem_nil, or_false] at hk hk'
  rcases hk with rfl | rfl <;> rcases hk' with rfl | rfl
  · rw [hna] at hn hn'
    exact Except.ok.inj (hn.symm.trans hn')
  · rw [hna] at hn
    rw [hnb] at hn'
    cases hn
    cases hn'
    exact absurd h hab
  · rw [hnb] at hn
    rw [hna] at hn'
    cases hn
    cases hn'
    exact absurd h.symm hab
  · rw [hnb] at hn hn'
    exact Except.ok.inj (hn.symm.trans hn')

/-- The mirror of `web` after its only object was written. -/
def written : World :=
  (run (step smallDeps calmEnv)
    (writeObject smallDeps "web".toList ⟨"a//b".toList, [65], none, none, none, none⟩)
    (World.start FileTree.empty)).2

/-- **Counterexample**: the object `a//b` is listed and written, and its file is
removed as a deleted one. -/
theorem listed_object_removed :
    normalizeRemoteKey "a//b".toList = .ok "a//b".toList ∧
    written.fs.lookup (names "web/a//b".toList) = some (.file [65]) ∧
    (run (step smallDeps calmEnv)
      (removeDeletedObjects smallDeps "web".toList (.ofList ["a//b".toList])) written).2.fs.lookup
        (names "web/a//b".toList) = none ∧
    ¬ OneToOne smallDeps "web".toList ["a//b".toList] := by
  have h1 : written.fs.lookup (names "web/a//b".toList) = some (.file [65]) := by decide +kernel
  have h2 : (run (step smallDeps calmEnv)
      (removeDeletedObjects smallDeps "web".toList (.ofList ["a//b".toList])) written).2.fs.lookup
        (names "web/a//b".toList) = none := by decide +kernel
  refine ⟨by decide, h1, h2, fun h => ?_⟩
  have := h.objectsKept calmEnv written _ (List.mem_singleton_self _) "web/a//b".toList (by decide)
  rw [h1, h2] at this
  cases this

end RenderMesh.Bugs.KeyCollision
