import RenderMesh.Core.Results
import RenderMesh.Refresh.Snapshot

/-!
# The four sets of a diff

A diff says of every key of the old and of the new index exactly one thing
(`diffOriginIndexes_partition`). A refresh downloads what was added or modified, and the counts
of its response are the sizes of these sets (`refreshOriginSnapshot_counts`).
-/
namespace RenderMesh.Refresh

open RenderMesh.Core RenderMesh.Mirror RenderMesh.Server RenderMesh.Cdn

/-- The keys of an index that there may be. -/
def previousKeys (previous : Option OriginFreshnessIndex) (k : Str) : Prop :=
  ∃ index, previous = some index ∧ k ∈ index.files

/-- Two states that differ in their capture times at most. -/
def SameBut (a b : OriginFileState) : Prop := ∃ capturedAt, { a with capturedAt := capturedAt } = b

structure IsPartition (previous : Option OriginFreshnessIndex) (next : OriginFreshnessIndex)
    (diff : OriginFreshnessDiff) : Prop where
  added : ∀ k, k ∈ diff.added ↔ k ∈ next.files ∧ ¬ previousKeys previous k
  removed : ∀ k, k ∈ diff.removed ↔ k ∉ next.files ∧ previousKeys previous k
  unchanged : ∀ k, k ∈ diff.unchanged ↔ ∃ index before after, previous = some index ∧
    index.files[k]? = some before ∧ next.files[k]? = some after ∧ SameBut before after
  modified : ∀ k, k ∈ diff.modified ↔ ∃ index before after, previous = some index ∧
    index.files[k]? = some before ∧ next.files[k]? = some after ∧ ¬ SameBut before after
  covers : ∀ k, k ∈ diff.added ∨ k ∈ diff.modified ∨ k ∈ diff.removed ∨ k ∈ diff.unchanged ↔
    k ∈ next.files ∨ previousKeys previous k
  /-- a key is in one set only -/
  disjoint : ∀ k, (k ∈ diff.added → k ∉ diff.modified ∧ k ∉ diff.removed ∧ k ∉ diff.unchanged) ∧
    (k ∈ diff.modified → k ∉ diff.removed ∧ k ∉ diff.unchanged) ∧
    (k ∈ diff.removed → k ∉ diff.unchanged)

theorem sameSourceState_iff_sameBut {a b : OriginFileState} :
    sameSourceState a b = true ↔ SameBut a b := by
  rw [sameSourceState_iff]
  constructor
  · exact fun h => ⟨b.capturedAt, h⟩
  · rintro ⟨t, rfl⟩
    rfl

theorem sameSourceState_false_iff {a b : OriginFileState} :
    sameSourceState a b = false ↔ ¬ SameBut a b := by
  rw [← sameSourceState_iff_sameBut, Bool.not_eq_true]

section
variable {previous : Option OriginFreshnessIndex} {next : OriginFreshnessIndex} {k : Str}

theorem previousFile_eq_some {before : OriginFileState} : previousFile previous k = some before ↔
    ∃ index, previous = some index ∧ index.files[k]? = some before :=
  Option.bind_eq_some_iff

theorem previousFile_isSome : (previousFile previous k).isSome ↔ previousKeys previous k := by
  cases previous <;> simp [previousFile, previousKeys]

theorem previousFile_eq_none : previousFile previous k = none ↔ ¬ previousKeys previous k := by
  rw [← previousFile_isSome, Option.not_isSome_iff_eq_none]

theorem mem_files_iff_some : k ∈ next.files ↔ ∃ after, next.files[k]? = some after := by
  rw [Std.TreeMap.mem_iff_isSome_getElem?, Option.isSome_iff_exists]

theorem mem_unchanged_iff : k ∈ (diffOriginIndexes previous next).unchanged ↔
    ∃ before after, previousFile previous k = some before ∧ next.files[k]? = some after ∧
      SameBut before after := by
  simp only [mem_unchanged, sameSourceState_iff_sameBut]

theorem mem_modified_iff : k ∈ (diffOriginIndexes previous next).modified ↔
    ∃ before after, previousFile previous k = some before ∧ next.files[k]? = some after ∧
      ¬ SameBut before after := by
  simp only [mem_modified, sameSourceState_false_iff]

end

theorem diffOriginIndexes_partition (previous : Option OriginFreshnessIndex)
    (next : OriginFreshnessIndex) : IsPartition previous next (diffOriginIndexes previous next) := by
  have hmodified (k : Str) := @mem_modified_iff previous next k
  have hunchanged (k : Str) := @mem_unchanged_iff previous next k
  constructor
  case added =>
    intro k
    rw [mem_added, previousFile_eq_none]
  case removed =>
    intro k
    rw [mem_removed, previousFile_isSome]
  case unchanged =>
    intro k
    rw [hunchanged]
    grind [previousFile_eq_some]
  case modified =>
    intro k
    rw [hmodified]
    grind [previousFile_eq_some]
  case covers =>
    intro k
    rw [mem_added, mem_removed, hunchanged, hmodified, ← previousFile_isSome, mem_files_iff_some]
    cases previousFile previous k <;> cases next.files[k]? <;> simp
    tauto
  case disjoint =>
    intro k
    rw [mem_added, mem_removed, hunchanged, hmodified, mem_files_iff_some]
    cases previousFile previous k <;> cases next.files[k]? <;> simp

/-! ## The same listing again -/

section
variable {id id' : Str} {summaries : List RemoteObjectSummary} {t t' : Nat}
  {index index' : OriginFreshnessIndex}

theorem sameBut_of_listing (h : buildOriginIndex id summaries t = .ok index)
    (h' : buildOriginIndex id' summaries t' = .ok index') {k : Str} {after : OriginFileState}
    (hk : index'.files[k]? = some after) : ∃ before, index.files[k]? = some before ∧ SameBut before after := by
  rw [buildOriginIndex_get h'] at hk
  obtain ⟨s, hs, rfl⟩ := Option.map_eq_some_iff.mp hk
  exact ⟨fileState s k t, by rw [buildOriginIndex_get h, hs]; rfl, t', rfl⟩

/-- With the same listing, whenever it was taken, nothing but unchanged keys. -/
theorem diffOriginIndexes_same_listing (h : buildOriginIndex id summaries t = .ok index)
    (h' : buildOriginIndex id' summaries t' = .ok index') (k : Str) :
    k ∉ (diffOriginIndexes (some index) index').added ∧
      k ∉ (diffOriginIndexes (some index) index').modified ∧
      k ∉ (diffOriginIndexes (some index) index').removed ∧
      (k ∈ (diffOriginIndexes (some index) index').unchanged ↔ k ∈ index'.files) := by
  rw [mem_added, mem_modified_iff, mem_removed, mem_unchanged_iff]
  dsimp only [previousFile, Option.bind_some]
  have hmem : k ∈ index'.files ↔ k ∈ index.files := by
    rw [mem_files_iff h', mem_files_iff h]
  refine ⟨?_, ?_, ?_, ?_⟩
  · rintro ⟨hk, hnone⟩
    obtain ⟨before, hbefore⟩ := mem_files_iff_some.mp (hmem.mp hk)
    rw [hnone] at hbefore
    cases hbefore
  · rintro ⟨before, after, hbefore, hafter, hne⟩
    obtain ⟨before', hbefore', hsame⟩ := sameBut_of_listing h h' hafter
    obtain rfl := Option.some.inj (hbefore.symm.trans hbefore')
    exact hne hsame
  · rintro ⟨hk, hsome⟩
    exact hk (hmem.mpr (mem_files_iff_some.mpr (Option.isSome_iff_exists.mp hsome)))
  · constructor
    · rintro ⟨before, after, -, hafter, -⟩
      exact mem_files_iff_some.mpr ⟨after, hafter⟩
    · intro hk
      obtain ⟨after, hafter⟩ := mem_files_iff_some.mp hk
      obtain ⟨before, hbefore, hsame⟩ := sameBut_of_listing h h' hafter
      exact ⟨before, after, hbefore, hafter, hsame⟩

end

/-! ## The counts -/

theorem toList_nodup (s : Std.TreeSet Str) : s.toList.Nodup := by
  refine s.distinct_toList.imp ?_
  rintro a b hne rfl
  exact hne Std.ReflCmp.compare_self

theorem keys_nodup (files : Std.TreeMap Str OriginFileState) : files.keys.Nodup := by
  refine files.distinct_keys.imp ?_
  rintro a b hne rfl
  exact hne Std.ReflCmp.compare_self

theorem keys_perm (previous : Option OriginFreshnessIndex) (next : OriginFreshnessIndex) :
    next.files.keys.Perm ((diffOriginIndexes previous next).changedPaths ++
      (diffOriginIndexes previous next).unchanged.toList) := by
  apply (List.perm_ext_iff_of_nodup (keys_nodup next.files) ?_).mpr
  · intro k
    rw [Std.TreeMap.mem_keys, List.mem_append, Std.TreeSet.mem_toList]
    constructor
    · intro hk
      by_cases hchanged : k ∈ (diffOriginIndexes previous next).changedPaths
      · exact Or.inl hchanged
      · obtain ⟨after, hafter⟩ := mem_files_iff_some.mp hk
        obtain ⟨before, hbefore, hsame⟩ := previous_of_not_changed previous next k hafter hchanged
        exact Or.inr ((mem_unchanged previous next k).mpr ⟨before, after, hbefore, hafter, hsame⟩)
    · rintro (hchanged | hunchanged)
      · obtain ⟨after, hafter, -⟩ := (mem_changedPaths previous next k).mp hchanged
        exact mem_files_iff_some.mpr ⟨after, hafter⟩
      · obtain ⟨-, after, -, hafter, -⟩ := (mem_unchanged previous next k).mp hunchanged
        exact mem_files_iff_some.mpr ⟨after, hafter⟩
  · refine List.nodup_append.mpr ⟨changedPaths_nodup previous next, toList_nodup _, ?_⟩
    rintro k hchanged _ hunchanged rfl
    obtain ⟨after, hafter, hnew⟩ := (mem_changedPaths previous next k).mp hchanged
    obtain ⟨before, after', hbefore, hafter', hsame⟩ :=
      (mem_unchanged previous next k).mp (Std.TreeSet.mem_toList.mp hunchanged)
    obtain rfl := Option.some.inj (hafter.symm.trans hafter')
    rw [hnew before hbefore] at hsame
    cases hsame

theorem length_changedPaths (diff : OriginFreshnessDiff) :
    diff.changedPaths.length = diff.added.size + diff.modified.size := by
  rw [OriginFreshnessDiff.changedPaths, List.length_append, Std.TreeSet.length_toList,
    Std.TreeSet.length_toList]

theorem size_files (previous : Option OriginFreshnessIndex) (next : OriginFreshnessIndex) :
    next.files.size = (diffOriginIndexes previous next).added.size +
      (diffOriginIndexes previous next).modified.size +
      (diffOriginIndexes previous next).unchanged.size := by
  have hlength := (keys_perm previous next).length_eq
  rw [List.length_append, length_changedPaths, Std.TreeSet.length_toList,
    Std.TreeMap.length_keys] at hlength
  exact hlength

/-! ## A refresh -/

/-- What a staging has counted. -/
def StagedCounts (staged : StagedOriginSync) : Prop :=
  staged.index.files.size =
      staged.diff.added.size + staged.diff.modified.size + staged.diff.unchanged.size ∧
    staged.downloaded = staged.diff.added.size + staged.diff.modified.size

/-- What a response says. -/
def ResponseCounts (response : OriginSyncResponse) : Prop :=
  response.knownFiles = response.addedFiles + response.modifiedFiles + response.unchangedFiles ∧
    response.downloadedFiles = response.addedFiles + response.modifiedFiles

section
variable (deps : Deps) (originId : Str)

theorem downloadObject_counts (dir : PathBuf) (index : OriginFreshnessIndex) (n : Nat) (key : Str) :
    (downloadObject deps originId dir index n key).Gives (· = n + 1) := by
  refine Prog.gives_then fun r => Prog.gives_then fun object => Prog.gives_then fun summary =>
    Prog.gives_then fun _ => Prog.gives_then fun _ => ?_
  exact Prog.gives_pure rfl

theorem downloads_counts (dir : PathBuf) (index : OriginFreshnessIndex) (keys : List Str) :
    (Prog.fold (downloadObject deps originId dir index) 0 keys).Gives (· = keys.length) := by
  refine Prog.gives_fold (I := fun done n => n = done.length) ?_ rfl keys
  rintro done key n rfl
  simpa using downloadObject_counts deps originId dir index done.length key

theorem stageOriginDir_counts (dir : PathBuf) (previous : Option OriginFreshnessIndex) :
    (stageOriginDir deps originId dir previous).Gives fun staged =>
      staged.2.1 = diffOriginIndexes previous staged.1 ∧
        staged.2.2 = staged.2.1.changedPaths.length := by
  refine Prog.gives_then fun _ => Prog.gives_then fun r => Prog.gives_then fun summaries =>
    Prog.gives_then fun now => Prog.gives_then fun index => ?_
  refine Prog.gives_bind (downloads_counts deps originId dir index _) fun downloaded hdownloaded => ?_
  refine Prog.gives_then fun _ => Prog.gives_then fun _ => ?_
  exact Prog.gives_pure ⟨rfl, hdownloaded⟩

theorem stageOriginSync_counts (previous : Option OriginFreshnessIndex) :
    (stageOriginSync deps originId previous).Gives StagedCounts := by
  refine Prog.gives_then fun dir => Prog.gives_then fun staging => Prog.gives_then fun _ => ?_
  refine Prog.gives_bind (Prog.gives_attempt (stageOriginDir_counts deps originId staging previous))
    fun result hresult => ?_
  cases result with
  | error error => exact Prog.gives_then fun _ => trivial
  | ok staged =>
    obtain ⟨index, diff, downloaded⟩ := staged
    obtain ⟨hdiff, hdownloaded⟩ := hresult _ rfl
    dsimp only at hdiff hdownloaded
    rw [length_changedPaths] at hdownloaded
    exact Prog.gives_pure ⟨by rw [hdiff]; exact size_files previous index, hdownloaded⟩

/-- Whatever a refresh is answered, the counts of its response add up. -/
theorem refreshOriginSnapshot_counts (cdnRefresh : Option OriginCdnRefresh)
    (activationBarrierPath : Option Str) :
    (refreshOriginSnapshot deps originId cdnRefresh activationBarrierPath).Gives ResponseCounts := by
  refine Prog.gives_then fun previous => ?_
  refine Prog.gives_bind (stageOriginSync_counts deps originId previous) fun staged hstaged => ?_
  refine Prog.gives_then fun preparation => ?_
  cases preparation with
  | error error =>
    refine Prog.gives_then fun cleanup => ?_
    cases cleanup <;> trivial
  | ok prepared =>
    refine Prog.gives_then fun current => Prog.gives_then fun now => Prog.gives_then fun _ =>
      Prog.gives_then fun cdn => ?_
    exact Prog.gives_pure hstaged

end

/-- A diff is an exact partition of the keys, a listing that is taken again gives unchanged keys
only, and the counts of every refresh that returns are those of its diff. -/
theorem freshness_partition :
    (∀ previous next, IsPartition previous next (diffOriginIndexes previous next)) ∧
    (∀ (id id' : Str) (summaries : List RemoteObjectSummary) (t t' : Nat)
      (index index' : OriginFreshnessIndex), buildOriginIndex id summaries t = .ok index →
      buildOriginIndex id' summaries t' = .ok index' → ∀ k,
        k ∉ (diffOriginIndexes (some index) index').added ∧
        k ∉ (diffOriginIndexes (some index) index').modified ∧
        k ∉ (diffOriginIndexes (some index) index').removed ∧
        (k ∈ (diffOriginIndexes (some index) index').unchanged ↔ k ∈ index'.files)) ∧
    (∀ (deps : Deps) (originId : Str) (cdnRefresh : Option OriginCdnRefresh)
      (activationBarrierPath : Option Str),
      (refreshOriginSnapshot deps originId cdnRefresh activationBarrierPath).Gives ResponseCounts) ∧
    ∀ (deps : Deps) (env : Env) (service : OriginRefreshService) (originId : Str) (w w' : World)
      (response : OriginSyncResponse), refreshOrigin deps env service originId w = (.ok response, w') →
      ResponseCounts response := by
  refine ⟨diffOriginIndexes_partition, fun _ _ _ _ _ _ _ => diffOriginIndexes_same_listing,
    refreshOriginSnapshot_counts, ?_⟩
  intro deps env service originId w w' response h
  rw [refreshOrigin] at h
  split at h
  · cases h
  · split at h
    · cases h
    · split at h
      · rename_i hrun
        cases h
        exact run_gives (refreshOriginSnapshot_counts deps originId _ _) hrun
      · cases h
      · cases h

/-- A page that is listed twice. -/
theorem freshness_partition_page : ∃ index index',
    buildOriginIndex "web".toList [⟨"index.html".toList, none, none, none, 3, none, none⟩] 1 = .ok index ∧
    buildOriginIndex "web".toList [⟨"index.html".toList, none, none, none, 3, none, none⟩] 2 = .ok index' ∧
      "index.html".toList ∈ (diffOriginIndexes (some index) index').unchanged := by
  have hkeys : ∀ s ∈ [(⟨"index.html".toList, none, none, none, 3, none, none⟩ : RemoteObjectSummary)],
      Accepted s.key := by
    intro s hs
    rw [List.mem_singleton.mp hs]
    exact (normalizeRemoteKey_ok_iff.mp (rfl : normalizeRemoteKey "index.html".toList = .ok _)).2
  obtain ⟨index, h⟩ := @buildOriginIndex_succeeds "web".toList _ 1 hkeys
  obtain ⟨index', h'⟩ := @buildOriginIndex_succeeds "web".toList _ 2 hkeys
  obtain ⟨-, -, -, hunchanged⟩ := freshness_partition.2.1 _ _ _ _ _ index index' h h' "index.html".toList
  exact ⟨index, index', h, h', hunchanged.mpr ((mem_files_iff h' _).mpr ⟨_, List.mem_singleton_self _, rfl⟩)⟩

end RenderMesh.Refresh
