import RenderMesh.Mirror.Keys
import Std.Data.TreeMap.Lemmas
import Std.Data.TreeSet.Lemmas

/-!
# Freshness indexes

A refresh lists its origin, turns the listing into an index by key, and compares
that index with the one of the last activation (`src/src/services/freshness.rs`).

Results:
* `buildOriginIndex_get`: an index holds, for each listed key, the last summary
  with that key; every key in it was accepted by `normalize_remote_key`.
* `diffOriginIndexes_spec`: which of the four sets a key is in.
* `sameSourceState_iff`: equal in everything but the capture time.
-/
namespace RenderMesh.Refresh

open RenderMesh.Core RenderMesh.Mirror

/-- mirrors src/src/services/freshness.rs:15-25 -/
structure OriginFileState where
  path : Str
  createdAt : Option Str
  lastModified : Option Str
  capturedAt : Nat
  size : Nat
  etag : Option Str
  contentType : Option Str
  cacheControl : Option Str
  deriving DecidableEq, Repr

/-- mirrors src/src/services/freshness.rs:8-13 -/
structure OriginFreshnessIndex where
  originId : Str
  capturedAt : Nat
  files : Std.TreeMap Str OriginFileState

/-- mirrors src/src/services/freshness.rs:27-33 -/
structure OriginFreshnessDiff where
  added : Std.TreeSet Str
  modified : Std.TreeSet Str
  removed : Std.TreeSet Str
  unchanged : Std.TreeSet Str

def OriginFreshnessDiff.empty : OriginFreshnessDiff := ⟨∅, ∅, ∅, ∅⟩

/-- mirrors src/src/services/freshness.rs:44-46 -/
def OriginFreshnessDiff.changedPaths (diff : OriginFreshnessDiff) : List Str :=
  diff.added.toList ++ diff.modified.toList

/-- The state that `build_origin_index` stores for a summary. -/
def fileState (summary : RemoteObjectSummary) (path : Str) (capturedAt : Nat) : OriginFileState where
  path := path
  createdAt := summary.createdAt
  lastModified := summary.lastModified
  capturedAt := capturedAt
  size := summary.size
  etag := summary.etag
  contentType := summary.contentType
  cacheControl := summary.cacheControl

def insertSummaries (capturedAt : Nat) :
    Std.TreeMap Str OriginFileState → List RemoteObjectSummary →
      Except Error (Std.TreeMap Str OriginFileState)
  | files, [] => .ok files
  | files, summary :: rest => do
    let path ← normalizeRemoteKey summary.key
    insertSummaries capturedAt (files.insert path (fileState summary path capturedAt)) rest

/-- mirrors src/src/services/freshness.rs:63-92 -/
def buildOriginIndex (originId : Str) (summaries : List RemoteObjectSummary) (capturedAt : Nat) :
    Except Error OriginFreshnessIndex := do
  let files ← insertSummaries capturedAt ∅ summaries
  .ok ⟨originId, capturedAt, files⟩

/-- mirrors src/src/services/freshness.rs:132-140 -/
def sameSourceState (left right : OriginFileState) : Bool :=
  left.path = right.path && left.createdAt = right.createdAt &&
  left.lastModified = right.lastModified && left.size = right.size &&
  left.etag = right.etag && left.contentType = right.contentType &&
  left.cacheControl = right.cacheControl

/-- One turn of the loop over the new index. -/
def diffFile (previous : OriginFreshnessIndex) (diff : OriginFreshnessDiff)
    (file : Str × OriginFileState) : OriginFreshnessDiff :=
  match previous.files[file.1]? with
  | some previousFile =>
    if sameSourceState previousFile file.2 then
      { diff with unchanged := diff.unchanged.insert file.1 }
    else { diff with modified := diff.modified.insert file.1 }
  | none => { diff with added := diff.added.insert file.1 }

/-- One turn of the loop over the previous index. -/
def diffRemoved (next : OriginFreshnessIndex) (diff : OriginFreshnessDiff) (path : Str) :
    OriginFreshnessDiff :=
  if path ∈ next.files then diff else { diff with removed := diff.removed.insert path }

/-- mirrors src/src/services/freshness.rs:94-130 -/
def diffOriginIndexes (previous : Option OriginFreshnessIndex) (next : OriginFreshnessIndex) :
    OriginFreshnessDiff :=
  match previous with
  | none => { OriginFreshnessDiff.empty with added := .ofList next.files.keys }
  | some previous =>
    let diff := next.files.toList.foldl (diffFile previous) .empty
    previous.files.keys.foldl (diffRemoved next) diff

/-! ## The index of a listing -/

theorem insertSummaries_ok {t : Nat} {files out : Std.TreeMap Str OriginFileState}
    {summaries : List RemoteObjectSummary} (h : insertSummaries t files summaries = .ok out) :
    (∀ s ∈ summaries, Accepted s.key) ∧ ∀ k, out[k]? =
      ((summaries.reverse.find? fun s => s.key = k).map fun s => fileState s k t).or files[k]? := by
  induction summaries generalizing files with
  | nil => cases h; simp
  | cons s rest ih =>
    unfold insertSummaries at h
    cases hk : normalizeRemoteKey s.key with
    | error e => rw [hk] at h; cases h
    | ok path =>
      rw [hk] at h
      obtain ⟨rfl, ha⟩ := normalizeRemoteKey_ok_iff.mp hk
      obtain ⟨h1, h2⟩ := ih h
      refine ⟨by simpa using ⟨ha, h1⟩, fun k => ?_⟩
      rw [h2, List.reverse_cons, List.find?_append, Std.TreeMap.getElem?_insert]
      cases List.find? (fun s => decide (s.key = k)) rest.reverse with
      | some r => simp
      | none =>
        by_cases hsk : s.key = k
        · subst hsk; simp
        · simp [hsk]

/-- The last summary with the key decides its state. -/
theorem buildOriginIndex_get {id : Str} {summaries : List RemoteObjectSummary} {t : Nat}
    {index : OriginFreshnessIndex} (h : buildOriginIndex id summaries t = .ok index) (k : Str) :
    index.files[k]? = (summaries.reverse.find? fun s => s.key = k).map fun s => fileState s k t := by
  unfold buildOriginIndex at h
  cases hf : insertSummaries t ∅ summaries with
  | error e => rw [hf] at h; cases h
  | ok files =>
    rw [hf] at h
    cases h
    simpa using (insertSummaries_ok hf).2 k

theorem buildOriginIndex_accepted {id : Str} {summaries : List RemoteObjectSummary} {t : Nat}
    {index : OriginFreshnessIndex} (h : buildOriginIndex id summaries t = .ok index) :
    (∀ s ∈ summaries, Accepted s.key) ∧ index.originId = id ∧ index.capturedAt = t := by
  unfold buildOriginIndex at h
  cases hf : insertSummaries t ∅ summaries with
  | error e => rw [hf] at h; cases h
  | ok files =>
    rw [hf] at h
    cases h
    exact ⟨(insertSummaries_ok hf).1, rfl, rfl⟩

/-- A listing of accepted keys has an index. -/
theorem buildOriginIndex_succeeds {id : Str} {summaries : List RemoteObjectSummary} {t : Nat}
    (h : ∀ s ∈ summaries, Accepted s.key) : ∃ index, buildOriginIndex id summaries t = .ok index := by
  have key : ∀ files, ∃ out, insertSummaries t files summaries = .ok out := by
    induction summaries with
    | nil => exact fun files => ⟨files, rfl⟩
    | cons s rest ih =>
      intro files
      have hk := normalizeRemoteKey_ok_iff.mpr ⟨rfl, h s (by simp)⟩
      obtain ⟨out, hout⟩ := ih (fun r hr => h r (by simp [hr]))
        (files.insert s.key (fileState s s.key t))
      exact ⟨out, by simp only [insertSummaries, hk]; exact hout⟩
  obtain ⟨out, hout⟩ := key ∅
  exact ⟨_, by simp only [buildOriginIndex, hout]; rfl⟩

/-- Every state of an index carries its key. -/
theorem buildOriginIndex_state {id : Str} {summaries : List RemoteObjectSummary} {t : Nat}
    {index : OriginFreshnessIndex} (h : buildOriginIndex id summaries t = .ok index) {k : Str}
    {st : OriginFileState} (hk : index.files[k]? = some st) :
    ∃ s ∈ summaries, s.key = k ∧ st = fileState s k t := by
  rw [buildOriginIndex_get h] at hk
  obtain ⟨s, hs, rfl⟩ := Option.map_eq_some_iff.mp hk
  have := List.find?_some hs
  exact ⟨s, by simpa using List.mem_of_find?_eq_some hs, by simpa using this, rfl⟩

theorem mem_files_iff {id : Str} {summaries : List RemoteObjectSummary} {t : Nat}
    {index : OriginFreshnessIndex} (h : buildOriginIndex id summaries t = .ok index) (k : Str) :
    k ∈ index.files ↔ ∃ s ∈ summaries, s.key = k := by
  rw [Std.TreeMap.mem_iff_isSome_getElem?, buildOriginIndex_get h]
  simp [List.find?_isSome]

/-! ## Comparing two states -/

theorem sameSourceState_iff {a b : OriginFileState} :
    sameSourceState a b = true ↔ { a with capturedAt := b.capturedAt } = b := by
  cases a
  cases b
  simp [sameSourceState, and_assoc]

theorem sameSourceState_etag {a b : OriginFileState} (h : sameSourceState a b = true) :
    a.etag = b.etag := by
  rw [← sameSourceState_iff.mp h]

theorem sameSourceState_refl (a : OriginFileState) : sameSourceState a a = true := by
  rw [sameSourceState_iff]

theorem sameSourceState_trans {a b c : OriginFileState} (hab : sameSourceState a b = true)
    (hbc : sameSourceState b c = true) : sameSourceState a c = true := by
  rw [sameSourceState_iff] at *
  rw [← hbc, ← hab]

/-! ## The diff -/

section diff
variable (previous : OriginFreshnessIndex) (next : OriginFreshnessIndex)

theorem foldl_diffFile (l : List (Str × OriginFileState)) (d : OriginFreshnessDiff) :
    (∀ k, k ∈ (l.foldl (diffFile previous) d).added ↔
      k ∈ d.added ∨ ∃ f, (k, f) ∈ l ∧ previous.files[k]? = none) ∧
    (∀ k, k ∈ (l.foldl (diffFile previous) d).modified ↔
      k ∈ d.modified ∨ ∃ f, (k, f) ∈ l ∧ ∃ p, previous.files[k]? = some p ∧
        sameSourceState p f = false) ∧
    (∀ k, k ∈ (l.foldl (diffFile previous) d).unchanged ↔
      k ∈ d.unchanged ∨ ∃ f, (k, f) ∈ l ∧ ∃ p, previous.files[k]? = some p ∧
        sameSourceState p f = true) ∧
    (l.foldl (diffFile previous) d).removed = d.removed := by
  induction l generalizing d with
  | nil => simp
  | cons a l ih =>
    obtain ⟨h1, h2, h3, h4⟩ := ih (diffFile previous d a)
    obtain ⟨path, f⟩ := a
    simp only [List.foldl_cons]
    refine ⟨fun k => (h1 k).trans ?_, fun k => (h2 k).trans ?_, fun k => (h3 k).trans ?_,
      h4.trans ?_⟩
    all_goals
      unfold diffFile
      split
      · split <;> grind
      · grind

theorem foldl_diffRemoved (l : List Str) (d : OriginFreshnessDiff) :
    (l.foldl (diffRemoved next) d).added = d.added ∧
    (l.foldl (diffRemoved next) d).modified = d.modified ∧
    (l.foldl (diffRemoved next) d).unchanged = d.unchanged ∧
    ∀ k, k ∈ (l.foldl (diffRemoved next) d).removed ↔
      k ∈ d.removed ∨ (k ∈ l ∧ k ∉ next.files) := by
  induction l generalizing d with
  | nil => simp
  | cons a l ih =>
    obtain ⟨h1, h2, h3, h4⟩ := ih (diffRemoved next d a)
    simp only [List.foldl_cons]
    refine ⟨h1.trans ?_, h2.trans ?_, h3.trans ?_, fun k => (h4 k).trans ?_⟩
    all_goals
      unfold diffRemoved
      split
      · grind
      · grind

end diff

/-- The state a key had, when there is a previous index. -/
def previousFile (previous : Option OriginFreshnessIndex) (k : Str) : Option OriginFileState :=
  previous.bind fun index => index.files[k]?

section spec
variable (previous : Option OriginFreshnessIndex) (next : OriginFreshnessIndex) (k : Str)

theorem mem_added : k ∈ (diffOriginIndexes previous next).added ↔
    k ∈ next.files ∧ previousFile previous k = none := by
  cases previous with
  | none => simp [diffOriginIndexes, previousFile, Std.TreeSet.mem_ofList]
  | some previous =>
    have hnext : k ∈ next.files ↔ ∃ f, next.files[k]? = some f := by
      rw [Std.TreeMap.mem_iff_isSome_getElem?, Option.isSome_iff_exists]
    simp only [diffOriginIndexes, (foldl_diffRemoved next _ _).1,
      (foldl_diffFile previous _ _).1 k, Std.TreeMap.mem_toList_iff_getElem?_eq_some,
      previousFile, hnext]
    simp [OriginFreshnessDiff.empty]

theorem mem_modified : k ∈ (diffOriginIndexes previous next).modified ↔
    ∃ p f, previousFile previous k = some p ∧ next.files[k]? = some f ∧
      sameSourceState p f = false := by
  cases previous with
  | none => simp [diffOriginIndexes, previousFile, OriginFreshnessDiff.empty]
  | some previous =>
    simp only [diffOriginIndexes, (foldl_diffRemoved next _ _).2.1,
      (foldl_diffFile previous _ _).2.1 k, Std.TreeMap.mem_toList_iff_getElem?_eq_some,
      previousFile]
    simp only [OriginFreshnessDiff.empty, Std.TreeSet.not_mem_emptyc, false_or, Option.bind_some]
    constructor
    · rintro ⟨f, hf, p, hp, hs⟩
      exact ⟨p, f, hp, hf, hs⟩
    · rintro ⟨p, f, hp, hf, hs⟩
      exact ⟨f, hf, p, hp, hs⟩

theorem mem_unchanged : k ∈ (diffOriginIndexes previous next).unchanged ↔
    ∃ p f, previousFile previous k = some p ∧ next.files[k]? = some f ∧
      sameSourceState p f = true := by
  cases previous with
  | none => simp [diffOriginIndexes, previousFile, OriginFreshnessDiff.empty]
  | some previous =>
    simp only [diffOriginIndexes, (foldl_diffRemoved next _ _).2.2.1,
      (foldl_diffFile previous _ _).2.2.1 k, Std.TreeMap.mem_toList_iff_getElem?_eq_some,
      previousFile]
    simp only [OriginFreshnessDiff.empty, Std.TreeSet.not_mem_emptyc, false_or, Option.bind_some]
    constructor
    · rintro ⟨f, hf, p, hp, hs⟩
      exact ⟨p, f, hp, hf, hs⟩
    · rintro ⟨p, f, hp, hf, hs⟩
      exact ⟨f, hf, p, hp, hs⟩

theorem mem_removed : k ∈ (diffOriginIndexes previous next).removed ↔
    k ∉ next.files ∧ (previousFile previous k).isSome := by
  cases previous with
  | none => simp [diffOriginIndexes, previousFile, OriginFreshnessDiff.empty]
  | some previous =>
    simp only [diffOriginIndexes, (foldl_diffRemoved next _ _).2.2.2 k,
      (foldl_diffFile previous _ _).2.2.2, Std.TreeMap.mem_keys,
      Std.TreeMap.mem_iff_isSome_getElem?, previousFile]
    simp [OriginFreshnessDiff.empty, and_comm]

/-- What is downloaded: every listed key whose state is new. -/
theorem mem_changedPaths : k ∈ (diffOriginIndexes previous next).changedPaths ↔
    ∃ f, next.files[k]? = some f ∧
      ∀ p, previousFile previous k = some p → sameSourceState p f = false := by
  rw [OriginFreshnessDiff.changedPaths, List.mem_append, Std.TreeSet.mem_toList,
    Std.TreeSet.mem_toList, mem_added, mem_modified, Std.TreeMap.mem_iff_isSome_getElem?,
    Option.isSome_iff_exists]
  cases previousFile previous k with
  | none => simp
  | some p => simp

/-- A listed key that is not downloaded has the state it had. -/
theorem previous_of_not_changed {f : OriginFileState} (hf : next.files[k]? = some f)
    (h : k ∉ (diffOriginIndexes previous next).changedPaths) :
    ∃ p, previousFile previous k = some p ∧ sameSourceState p f = true := by
  by_contra hno
  refine h ((mem_changedPaths previous next k).mpr ⟨f, hf, fun p hp => ?_⟩)
  exact Bool.not_eq_true _ ▸ fun hs => hno ⟨p, hp, hs⟩

theorem changedPaths_nodup : (diffOriginIndexes previous next).changedPaths.Nodup := by
  rw [OriginFreshnessDiff.changedPaths, List.nodup_append]
  have hnd : ∀ t : Std.TreeSet Str, t.toList.Nodup := fun t =>
    t.distinct_toList.imp fun h he => h (by rw [he]; exact Std.ReflCmp.compare_self)
  refine ⟨hnd _, hnd _, ?_⟩
  intro a ha b hb
  rw [Std.TreeSet.mem_toList, mem_added] at ha
  rw [Std.TreeSet.mem_toList, mem_modified] at hb
  rintro rfl
  obtain ⟨p, f, hp, -⟩ := hb
  rw [ha.2] at hp
  cases hp

end spec

end RenderMesh.Refresh
