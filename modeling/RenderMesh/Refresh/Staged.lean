import RenderMesh.Refresh.Staging

/-!
# What a staging that returned has staged

From the copy of the mirror to the files of the new generation: the download loop
and the two removals after it.

* `download_ok`: each changed key has the body and the sidecar of an object that was
  fetched during the loop and checked against its state in the index (`Fetched`).
* `stageOriginDir_ok`, `stageOriginSync_ends`: with plain keys, the staged files
  outside the metadata directory are those of the listed keys; unchanged keys have
  what they had in the mirror.
-/
namespace RenderMesh.Refresh

open RenderMesh.Core RenderMesh.Mirror RenderMesh.Server

variable {deps : Deps} {env : Env}

/-! ## Downloads -/

/-- `object` is what the storage gave for `key` at a step from `lo` on and before
`hi`, and it passed the check against the state of `key` in `index`. -/
def Fetched (env : Env) (id : Str) (index : OriginFreshnessIndex) (lo hi : Nat) (key : Str)
    (object : RemoteObject) : Prop :=
  ∃ t st, lo ≤ t ∧ t < hi ∧ env.getObject t id key = .ok object ∧ index.files[key]? = some st ∧
    validateDownloadedObject key st object = .ok ()

theorem Fetched.mono {id : Str} {index : OriginFreshnessIndex} {lo hi lo' hi' : Nat} {key : Str}
    {object : RemoteObject} (h : Fetched env id index lo hi key object) (hlo : lo' ≤ lo)
    (hhi : hi ≤ hi') : Fetched env id index lo' hi' key object := by
  obtain ⟨t, st, h1, h2, h3⟩ := h
  exact ⟨t, st, by omega, by omega, h3⟩

theorem Fetched.key_eq {id : Str} {index : OriginFreshnessIndex} {lo hi : Nat} {key : Str}
    {object : RemoteObject} (h : Fetched env id index lo hi key object) : object.key = key := by
  obtain ⟨t, st, -, -, -, -, hv⟩ := h
  exact (validateDownloadedObject_ok hv).1

theorem downloadObject_ok {id : Str} {d : PathBuf} {index : OriginFreshnessIndex} {n n' : Nat}
    {key : Str} {w w' : World}
    (h : run (step deps env) (downloadObject deps id d index n key) w = (.ok n', w')) :
    n' = n + 1 ∧ w.clock ≤ w'.clock ∧ ∃ object w1, Fetched env id index w.clock w'.clock key object ∧
      w1.fs = w.fs ∧ run (step deps env) (writeObject deps d object) w1 = (.ok (), w') := by
  obtain ⟨r, w1, h1, h⟩ := run_bind_ok _ |>.mp h
  obtain ⟨object, w2, h2, h⟩ := run_bind_ok _ |>.mp h
  obtain ⟨st, w3, h3, h⟩ := run_bind_ok _ |>.mp h
  obtain ⟨_, w4, h4, h⟩ := run_bind_ok _ |>.mp h
  obtain ⟨_, w5, h5, h6⟩ := run_bind_ok _ |>.mp h
  have hget : env.getObject w.clock id key = .ok object ∧ w1 = w.tick ∧ w2 = w1 := by
    rw [call, run_perform] at h1
    simp only [step] at h1
    cases hg : env.getObject w.clock id key with
    | dropped => simp [hg, reply] at h1
    | err e =>
      simp only [hg, reply, Prod.mk.injEq, Outcome.ok.injEq] at h1
      obtain ⟨rfl, -⟩ := h1
      cases h2
    | ok o =>
      simp only [hg, reply, Prod.mk.injEq, Outcome.ok.injEq] at h1
      obtain ⟨rfl, rfl⟩ := h1
      cases h2
      exact ⟨rfl, rfl, rfl⟩
  obtain ⟨hget, rfl, rfl⟩ := hget
  have hst : index.files[key]? = some st ∧ w3 = w.tick := by
    rw [run_ofExcept] at h3
    cases hi : index.files[key]? with
    | none => rw [hi] at h3; cases h3
    | some s => rw [hi] at h3; cases h3; exact ⟨rfl, rfl⟩
  obtain ⟨hst, rfl⟩ := hst
  have hval : validateDownloadedObject key st object = .ok () ∧ w4 = w.tick := by
    rw [run_ofExcept] at h4
    cases hv : validateDownloadedObject key st object with
    | error e => rw [hv] at h4; cases h4
    | ok u => rw [hv] at h4; cases h4; exact ⟨rfl, rfl⟩
  obtain ⟨hval, rfl⟩ := hval
  cases h6
  have hlt : w.clock < w'.clock := run_clock deps env h5
  exact ⟨rfl, by omega, object, w.tick,
    ⟨w.clock, st, by omega, hlt, hget, hst, hval⟩, rfl, h5⟩

/-- The object of `key` stands in its file, and in its sidecar unless another of
the keys shares that. -/
def Placed (deps : Deps) (d : PathBuf) (keys : List Str) (w : World) (key : Str)
    (object : RemoteObject) : Prop :=
  w.under d (names key) = some (.file object.body) ∧
    ∀ n, normalizeObjectPath key = .ok n →
      (∀ k ∈ keys, ∀ n', normalizeObjectPath k = .ok n' →
        sidecarNames deps n' = sidecarNames deps n → k = key) →
      w.under d (sidecarNames deps n) = some (.file (deps.metadataToJson (objectMetadata object)))

section
variable {id : Str} {d : PathBuf} (hd : d ≠ []) {index : OriginFreshnessIndex}
include hd

theorem download_ok {keys : List Str} (hkeys : ∀ k ∈ keys, Accepted k ∧ Plain k)
    (hnodup : keys.Nodup) {n : Nat} {w w' : World}
    (h : run (step deps env) (Prog.fold (downloadObject deps id d index) 0 keys) w = (.ok n, w')) :
    (∀ k ∈ keys, ∃ object, Fetched env id index w.clock w'.clock k object ∧
        Placed deps d keys w' k object) ∧
      ∀ q, ¬ ObjectFiles d keys q → ¬ SidecarFiles deps d keys q → Grown w w' q := by
  have hloop := run_fold_ok _
    (fun done rest _ w' => done ++ rest = keys ∧ w.clock ≤ w'.clock ∧
      (∀ k ∈ done, ∃ object, Fetched env id index w.clock w'.clock k object ∧
        Placed deps d keys w' k object) ∧
      ∀ q, ¬ ObjectFiles d done q → ¬ SidecarFiles deps d done q → Grown w w' q)
    ?_ _ [] 0 w n w' ⟨rfl, Nat.le_refl _, (by simp), fun q _ _ => Grown.refl _ _⟩ h
  · simpa using hloop.2.2
  · rintro done key rest n w1 n' w2 ⟨hsplit, hclock, hdone, hrest⟩ hrun
    obtain ⟨-, hclock', object, w1', hfetched, hfs, hwrite⟩ := downloadObject_ok hrun
    obtain ⟨m, hm, hside, hbody, hgrown⟩ := writeObject_ok hd hwrite
    rw [hfetched.key_eq] at hm hbody hgrown
    have hmem : key ∈ keys := by rw [← hsplit]; simp
    have hmeta : ∀ k ∈ keys, ∀ x, names k ≠ sidecarNames deps x := fun k hk x hx =>
      names_head_ne_meta (hkeys k hk).1 (hkeys k hk).2 (by rw [hx]; rfl)
    have hgrown' : ∀ q, q ≠ names d ++ names key → q ≠ names d ++ sidecarNames deps m →
        Grown w1 w2 q := fun q h1 h2 => by
      have := hgrown q h1 h2
      unfold Grown at *
      rwa [hfs] at this
    refine ⟨by simpa using hsplit, by omega, fun k hk => ?_, fun q hq1 hq2 => ?_⟩
    · rw [List.mem_append, List.mem_singleton] at hk
      rcases hk with hk | rfl
      · -- an earlier object keeps its files
        obtain ⟨earlier, hf, hb, hs⟩ := hdone k hk
        have hkmem : k ∈ keys := by rw [← hsplit]; simp [hk]
        have hne : k ≠ key := by
          rintro rfl
          rw [← hsplit, List.nodup_append] at hnodup
          exact hnodup.2.2 k hk k (by simp) rfl
        refine ⟨earlier, hf.mono (Nat.le_refl _) hclock', ?_, fun x hx halone => ?_⟩
        · refine (hgrown' _ (fun he => hne ?_) (fun he => ?_)).file.mpr hb
          · exact names_injOn_plain (hkeys k hkmem).2 (hkeys key hmem).2 (List.append_cancel_left he)
          · exact hmeta k hkmem m (List.append_cancel_left he)
        · refine (hgrown' _ (fun he => ?_) (fun he => ?_)).file.mpr (hs x hx halone)
          · exact hmeta key hmem x (List.append_cancel_left he).symm
          · exact hne (halone key hmem m hm (List.append_cancel_left he).symm).symm
      · refine ⟨object, hfetched.mono hclock (Nat.le_refl _), hbody (hmeta k hmem m),
          fun x hx _ => ?_⟩
        rw [hm] at hx
        cases hx
        exact hside
    · have hq1' : ¬ ObjectFiles d done q := by
        rintro ⟨k, hk, he⟩
        exact hq1 ⟨k, by simp [hk], he⟩
      have hq2' : ¬ SidecarFiles deps d done q := by
        rintro ⟨k, hk, he⟩
        exact hq2 ⟨k, by simp [hk], he⟩
      refine (hrest q hq1' hq2').trans (hgrown' q (fun he => hq1 ⟨key, by simp, he⟩) fun he => ?_)
      exact hq2 ⟨key, by simp, m, hm, he⟩

end

/-- The paths that no file of an object with a key in `keys` is at or below. -/
def OffPath (deps : Deps) (d : PathBuf) (keys : List Str) (q : List Name) : Prop :=
  ∀ k ∈ keys, ¬ q <+: names d ++ names k ∧
    ∀ n, normalizeObjectPath k = .ok n → ¬ q <+: names d ++ sidecarNames deps n

omit env in
/-- Whatever is fetched, the downloads only touch the ways to the files of their keys. -/
theorem downloads_spare {id : Str} {d : PathBuf} (hd : d ≠ []) (index : OriginFreshnessIndex)
    (keys : List Str) (n : Nat) :
    (Prog.fold (downloadObject deps id d index) n keys).Uses (Op.Spares (OffPath deps d keys)) := by
  refine Prog.uses_fold (fun n key hkey => ?_) n
  refine Prog.uses_bind (uses_call trivial) fun r => ?_
  refine Prog.uses_ofExcept_bind fun object _ => ?_
  refine Prog.uses_ofExcept_bind fun st _ => ?_
  refine Prog.uses_ofExcept_bind fun _ hval => ?_
  refine Prog.uses_bind ?_ fun _ => trivial
  obtain ⟨hobject, -⟩ := validateDownloadedObject_ok hval
  refine Prog.uses_ofExcept_bind fun k hk => ?_
  obtain ⟨rfl, hacc⟩ := normalizeRemoteKey_ok_iff.mp hk
  refine Prog.uses_ofExcept_bind fun path hpath => ?_
  obtain ⟨rfl, -⟩ := (remoteObjectPath_ok_iff hd).mp hpath
  have hoff : ∀ q, OffPath deps d keys q → ¬ q <+: names (join d object.key) := by
    intro q hq
    rw [names_join, hobject]
    exact (hq key hkey).1
  refine Prog.uses_bind (uses_withParent fun parent hp => uses_ioContext (fun q hq hw =>
    hoff q hq (List.IsPrefix.trans hw (names_parent?_above hp))) _) fun _ => ?_
  refine Prog.uses_bind (uses_ioContext (fun q hq hw => hoff q hq (by
    rw [show q = names (join d object.key) from hw])) _) fun _ => ?_
  refine Prog.uses_ofExcept_bind fun sidecar hside => ?_
  obtain ⟨m, hm, rfl⟩ := metadataSidecarPath_ok_iff.mp hside
  have hoffside : ∀ q, OffPath deps d keys q → ¬ q <+: names (joinNames d (sidecarNames deps m)) := by
    intro q hq
    rw [names_joinNames]
    exact (hq key hkey).2 m (hobject ▸ hm)
  refine Prog.uses_bind (uses_withParent fun parent hp => uses_ioContext (fun q hq hw =>
    hoffside q hq (List.IsPrefix.trans hw (names_parent?_above hp))) _) fun _ => ?_
  refine uses_ioContext (fun q hq hw => hoffside q hq ?_) _
  rw [show q = names (joinNames d (sidecarNames deps m)) from hw]

/-! ## The staged generation -/

/-- The sidecar `n` of `k` belongs to no other listed key, and no file in `base`
that is not listed leads there. -/
structure OwnSidecar (deps : Deps) (index : OriginFreshnessIndex)
    (base : List Name → Option (Node Bytes)) (k n : Str) : Prop where
  listed : ∀ k' ∈ index.files, ∀ n', normalizeObjectPath k' = .ok n' →
    sidecarNames deps n' = sidecarNames deps n → k' = k
  stale : ∀ r b, r ≠ [] → r.head? ≠ some metaName → base r = some (.file b) →
    keyOf r ∉ index.files → ∀ n', normalizeObjectPath (keyOf r) = .ok n' →
    sidecarNames deps n' ≠ sidecarNames deps n

/-- What the directory `d` holds for the listing behind `index`, when it held
`base` before the changed keys were fetched, at steps from `lo` on and before `hi`. -/
structure Built (deps : Deps) (env : Env) (id : Str) (previous : Option OriginFreshnessIndex)
    (index : OriginFreshnessIndex) (d : PathBuf) (lo hi : Nat)
    (base : List Name → Option (Node Bytes)) (w : World) : Prop where
  top : w.under d [] = some .dir
  files : ∀ r b, r ≠ [] → r.head? ≠ some metaName → w.under d r = some (.file b) →
    ∃ k ∈ index.files, r = names k
  changed : ∀ k ∈ (diffOriginIndexes previous index).changedPaths, ∃ object,
    Fetched env id index lo hi k object ∧ w.under d (names k) = some (.file object.body) ∧
    ∀ n, normalizeObjectPath k = .ok n → OwnSidecar deps index base k n →
      w.under d (sidecarNames deps n) = some (.file (deps.metadataToJson (objectMetadata object)))
  unchanged : ∀ k ∈ index.files, k ∉ (diffOriginIndexes previous index).changedPaths →
    (∀ b, base (names k) = some (.file b) → w.under d (names k) = some (.file b)) ∧
    ∀ n, normalizeObjectPath k = .ok n → OwnSidecar deps index base k n →
      w.under d (sidecarNames deps n) = base (sidecarNames deps n)
  metadataDir : ∀ b, w.under d [metaName] ≠ some (.file b)
  clear : ∀ n, ClearWay base (sidecarNames deps n) → ClearWay (w.under d) (sidecarNames deps n)
  spared : ∀ r, r ≠ [] → (∀ k ∈ (diffOriginIndexes previous index).changedPaths,
      ¬ r <+: names k ∧ ∀ n, normalizeObjectPath k = .ok n → ¬ r <+: sidecarNames deps n) →
    w.under d r = base r ∨ (∃ b, base r = some (.file b)) ∧ w.under d r = none

/-- `index` was built from a listing at a step from `lo` on and before `hi`, one that
`T` does not speak of. -/
def Listed (T : Op → World → Prop) (env : Env) (id : Str) (index : OriginFreshnessIndex)
    (lo hi : Nat) : Prop :=
  ∃ w summaries now, lo ≤ w.clock ∧ w.clock < hi ∧ ¬ T (.listObjects id) w ∧
    env.listObjects w.clock id = .ok summaries ∧ buildOriginIndex id summaries now = .ok index

/-- `index` was built from the listing at `wl`, a step from `lo` on and before `hi` that `T` does
not speak of; for plain keys what `d` holds was built for it from `base`, and what was fetched
was fetched after the listing. -/
structure BuiltFrom (deps : Deps) (env : Env) (T : Op → World → Prop) (id : Str)
    (previous : Option OriginFreshnessIndex) (index : OriginFreshnessIndex) (d : PathBuf)
    (lo hi : Nat) (base : List Name → Option (Node Bytes)) (wl w : World) : Prop where
  first : lo ≤ wl.clock
  last : wl.clock < hi
  allowed : ¬ T (.listObjects id) wl
  listing : ∃ summaries now, env.listObjects wl.clock id = .ok summaries ∧
    buildOriginIndex id summaries now = .ok index
  built : (∀ k ∈ index.files, Plain k) →
    Built deps env id previous index d (wl.clock + 1) hi base w

theorem BuiltFrom.listed {T : Op → World → Prop} {id : Str} {previous : Option OriginFreshnessIndex}
    {index : OriginFreshnessIndex} {d : PathBuf} {lo hi : Nat}
    {base : List Name → Option (Node Bytes)} {wl w : World}
    (h : BuiltFrom deps env T id previous index d lo hi base wl w) : Listed T env id index lo hi := by
  obtain ⟨summaries, now, hlist, hb⟩ := h.listing
  exact ⟨wl, summaries, now, h.first, h.last, h.allowed, hlist, hb⟩

theorem Listed.accepted {T : Op → World → Prop} {id : Str} {index : OriginFreshnessIndex}
    {lo hi : Nat} (h : Listed T env id index lo hi) {k : Str} (hk : k ∈ index.files) :
    Accepted k := by
  obtain ⟨w, summaries, now, -, -, -, -, hb⟩ := h
  obtain ⟨s, hs, rfl⟩ := (mem_files_iff hb k).mp hk
  exact (buildOriginIndex_accepted hb).1 s hs

/-- A listing of `id` had the key. -/
def WasListed (env : Env) (id key : Str) : Prop :=
  ∃ t summaries, env.listObjects t id = .ok summaries ∧ ∃ s ∈ summaries, s.key = key

theorem Listed.wasListed {T : Op → World → Prop} {id : Str} {index : OriginFreshnessIndex}
    {lo hi : Nat} (h : Listed T env id index lo hi) : ∀ k ∈ index.files, WasListed env id k := by
  obtain ⟨w, summaries, now, -, -, -, hlist, hb⟩ := h
  intro k hk
  obtain ⟨s, hs, rfl⟩ := (mem_files_iff hb k).mp hk
  exact ⟨w.clock, summaries, hlist, s, hs, rfl⟩

section
variable {id : Str} {d : PathBuf} (hd : d ≠ []) {previous : Option OriginFreshnessIndex}
  {index : OriginFreshnessIndex} {diff : OriginFreshnessDiff} {n : Nat}
include hd

/-- The removals after the downloads keep what was placed. -/
theorem removals_ok (hkeys : ∀ k ∈ index.files, Accepted k ∧ Plain k) {w w' w'' : World}
    (h1 : run (step deps env) (removeDeletedObjects deps d (.ofList index.files.keys)) w =
      (.ok (), w'))
    (h2 : run (step deps env) (removeOrphanMetadataSidecars deps d (.ofList index.files.keys)) w' =
      (.ok (), w'')) :
    w''.under d [] = w.under d [] ∧
    (∀ r, w''.under d r = w.under d r ∨ (∃ b, w.under d r = some (.file b)) ∧ w''.under d r = none) ∧
    (∀ b, w''.under d [metaName] ≠ some (.file b)) ∧
    (∀ r b, r ≠ [] → r.head? ≠ some metaName → w''.under d r = some (.file b) →
      ∃ k ∈ index.files, r = names k) ∧
    (∀ k ∈ index.files, w''.under d (names k) = w.under d (names k)) ∧
    ∀ k ∈ index.files, ∀ n, normalizeObjectPath k = .ok n →
      (∀ r b, r ≠ [] → r.head? ≠ some metaName → w.under d r = some (.file b) →
        keyOf r ∉ index.files → ∀ n', normalizeObjectPath (keyOf r) = .ok n' →
        sidecarNames deps n' ≠ sidecarNames deps n) →
      w''.under d (sidecarNames deps n) = w.under d (sidecarNames deps n) := by
  have hset : ∀ k, k ∈ (Std.TreeSet.ofList index.files.keys : Std.TreeSet Str) ↔ k ∈ index.files :=
    fun k => by simp [Std.TreeSet.mem_ofList]
  have hlist : ∀ k ∈ index.files.keys, Accepted k ∧ Plain k := fun k hk => hkeys k (by simpa using hk)
  obtain ⟨hdel, hall⟩ := removeDeletedObjects_ok hd h1
  -- outside the metadata directory only the first removal removes anything
  have hspare : ∀ q, NoOrphan deps d index.files.keys q → w''.fs.lookup q = w'.fs.lookup q := by
    intro q hq
    have := run_spares deps env (@removeOrphanMetadataSidecars_spares deps d
      index.files.keys) w' hq
    rwa [h2] at this
  have hout : ∀ r, r.head? ≠ some metaName → w''.under d r = w'.under d r := by
    intro r hr
    refine hspare _ (Or.inr fun hp => hr ?_)
    rw [List.prefix_append_right_inj] at hp
    obtain ⟨s, rfl⟩ := hp
    rfl
  have hremoves : ∀ r, w''.under d r = w'.under d r ∨ w''.under d r = none := fun r => by
    have := @run_removes deps env _ _ (@removeOrphanMetadataSidecars_removes deps d
      (.ofList index.files.keys)) w' (names d ++ r)
    rwa [h2] at this
  refine ⟨?_, fun r => ?_, fun b hb => ?_, fun r b hr hmeta hb => ?_, fun k hk => ?_,
    fun k hk n hn hstale => ?_⟩
  · rw [hout [] (by simp)]
    rcases hdel (names d ++ []) with hq | ⟨-, r, b, hr, -, -, -, hq⟩
    · exact hq
    · rcases hq with hq | ⟨n, -, hq⟩
      · exact absurd (List.append_cancel_left hq).symm hr
      · exact absurd (List.append_cancel_left hq) (by intro h; cases h)
  · have hgone : w''.under d r = w.under d r ∨ w''.under d r = none := by
      rcases hremoves r with hq | hq
      · exact (hdel (names d ++ r)).imp (hq.trans ·) (hq.trans ·.1)
      · exact Or.inr hq
    refine hgone.elim Or.inl fun hnone => ?_
    cases hnode : w.under d r with
    | none => exact Or.inl hnone
    | some node =>
      cases node with
      | file b => exact Or.inr ⟨⟨b, rfl⟩, hnone⟩
      | dir =>
        -- neither removal removes a directory
        have h1' := @run_removes_dir deps env _ _ (@removeDeletedObjects_removes deps d
          (.ofList index.files.keys)) w _ hnode
        rw [h1] at h1'
        have h2' := @run_removes_dir deps env _ _ (@removeOrphanMetadataSidecars_removes deps d
          (.ofList index.files.keys)) w' _ h1'
        rw [h2] at h2'
        exact Or.inl h2'
  · rcases hremoves [metaName] with hq | hq
    · exact removeOrphanMetadataSidecars_opens h2 b (hq.symm.trans hb)
    · exact absurd (hq.symm.trans hb) (by simp)
  · rw [hout r hmeta] at hb
    by_contra hnone
    have hnot : keyOf r ∉ (Std.TreeSet.ofList index.files.keys : Std.TreeSet Str) := by
      rw [hset]
      exact fun hin => hnone ⟨keyOf r, hin, (names_keyOf r).symm⟩
    have hb' : w.under d r = some (.file b) := by
      rcases hdel (names d ++ r) with hq | hq
      · exact hq.symm.trans hb
      · exact absurd (hb.symm.trans hq.1) (by simp)
    exact absurd ((hall r b hr hmeta hb' hnot).symm.trans hb) (by simp)
  · rw [hout _ (names_head_ne_meta (hkeys k hk).1 (hkeys k hk).2)]
    have := run_spares deps env (@removeDeletedObjects_spares deps d hd _ hlist) w
      ⟨k, by simpa using hk, rfl⟩
    rwa [h1] at this
  · rw [World.under, hspare _ (Or.inl ⟨k, by simpa using hk, n, hn, rfl⟩)]
    rcases hdel (names d ++ sidecarNames deps n) with hq | ⟨-, r, b, hr, hmeta, hb, hnot, hq⟩
    · exact hq
    · rw [hset] at hnot
      rcases hq with hq | ⟨n', hn', hq⟩
      · exact absurd (by rw [← List.append_cancel_left hq]; rfl) hmeta
      · exact absurd (List.append_cancel_left hq).symm (hstale r b hr hmeta hb hnot n' hn')

omit hd in
/-- How a staging directory was filled: the listing, and the runs that followed it. -/
theorem stageOriginDir_phases {w w' : World}
    (h : run (step deps env) (stageOriginDir deps id d previous) w = (.ok (index, diff, n), w')) :
    diff = diffOriginIndexes previous index ∧ ∃ w1 summaries w2 w3,
      run (step deps env) (ioContext (.createDirAll d)
        ("create origin mirror ".toList ++ deps.display d)) w = (.ok (), w1) ∧
      env.listObjects w1.clock id = .ok summaries ∧
      buildOriginIndex id summaries (env.nanos w1.tick.clock) = .ok index ∧
      run (step deps env) (Prog.fold (downloadObject deps id d index) 0
        (diffOriginIndexes previous index).changedPaths) w1.tick.tick = (.ok n, w2) ∧
      run (step deps env) (removeDeletedObjects deps d (.ofList index.files.keys)) w2 = (.ok (), w3) ∧
      run (step deps env) (removeOrphanMetadataSidecars deps d (.ofList index.files.keys)) w3 =
        (.ok (), w') := by
  obtain ⟨_, w1, h1, k1⟩ := run_bind_ok _ |>.mp h
  obtain ⟨r, w2, h2, k2⟩ := run_bind_ok _ |>.mp k1
  obtain ⟨summaries, w3, h3, k3⟩ := run_bind_ok _ |>.mp k2
  obtain ⟨now, w4, h4, k4⟩ := run_bind_ok _ |>.mp k3
  obtain ⟨index', w5, h5, k5⟩ := run_bind_ok _ |>.mp k4
  obtain ⟨downloaded, w6, h6, k6⟩ := run_bind_ok _ |>.mp k5
  obtain ⟨_, w7, h7, k7⟩ := run_bind_ok _ |>.mp k6
  obtain ⟨_, w8, h8, k8⟩ := run_bind_ok _ |>.mp k7
  cases k8
  have hlist : env.listObjects w1.clock id = .ok summaries ∧ w3 = w1.tick := by
    rw [call, run_perform] at h2
    simp only [step] at h2
    cases hl : env.listObjects w1.clock id with
    | dropped => simp [hl, reply] at h2
    | err e =>
      simp only [hl, reply, Prod.mk.injEq, Outcome.ok.injEq] at h2
      obtain ⟨rfl, -⟩ := h2
      cases h3
    | ok l =>
      simp only [hl, reply, Prod.mk.injEq, Outcome.ok.injEq] at h2
      obtain ⟨rfl, rfl⟩ := h2
      cases h3
      exact ⟨rfl, rfl⟩
  obtain ⟨hlist, rfl⟩ := hlist
  cases h4
  have hindex : buildOriginIndex id summaries (env.nanos w1.tick.clock) = .ok index ∧
      w5 = w1.tick.tick := by
    rw [run_ofExcept] at h5
    cases hb : buildOriginIndex id summaries (env.nanos w1.tick.clock) with
    | error e => rw [hb] at h5; cases h5
    | ok i => rw [hb] at h5; cases h5; exact ⟨rfl, rfl⟩
  obtain ⟨hindex, rfl⟩ := hindex
  exact ⟨rfl, w1, summaries, w6, w7, h1, hlist, hindex, h6, h7, h8⟩

theorem stageOriginDir_ok {T : Op → World → Prop} {w w' : World}
    (htop : w.under d [] = some .dir)
    (ht : ∀ e ∈ trace (step deps env) (stageOriginDir deps id d previous) w, ¬ T e.1 e.2)
    (h : run (step deps env) (stageOriginDir deps id d previous) w = (.ok (index, diff, n), w')) :
    diff = diffOriginIndexes previous index ∧
      ∃ wl, BuiltFrom deps env T id previous index d w.clock w'.clock (w.under d) wl w' := by
  obtain ⟨hdiff, w1, summaries, w6, w7, h1, hlist, hindex, h6, h7, h8⟩ := stageOriginDir_phases h
  obtain ⟨-, hmk, hw1⟩ := ioContext_ok h1
  have hunder : ∀ r, w1.under d r = w.under d r := fun r => by
    rw [World.under, hw1]
    rcases @createDirAll_did_or env d w (names d ++ r) with hq | ⟨hq, hnone, -⟩
    · exact hq
    · -- the directory is there already
      have hr : r = [] := by
        have := hq.length_le
        rw [List.length_append] at this
        exact List.length_eq_zero_iff.mp (by omega)
      subst hr
      exact absurd (htop.symm.trans hnone) (by simp)
  have hclock1 : w1.clock = w.clock + 1 := by rw [hw1]; rfl
  have hclock6 := run_clock deps env h6
  have hclock7 := run_clock deps env h7
  have hclock8 := run_clock deps env h8
  simp only [World.tick] at hclock6
  have hallowed : ¬ T (.listObjects id) w1 :=
    ht (.listObjects id, w1) (mem_trace_bind _ h1 (mem_trace_perform _ _ _ w1))
  refine ⟨hdiff, w1, by omega, by omega, hallowed, ⟨summaries, _, hlist, hindex⟩, fun hplain => ?_⟩
  have hlisted : Listed T env id index w.clock w'.clock :=
    ⟨w1, summaries, _, by omega, by omega, hallowed, hlist, hindex⟩
  have hkeys : ∀ k ∈ index.files, Accepted k ∧ Plain k :=
    fun k hk => ⟨hlisted.accepted hk, hplain k hk⟩
  have hsub : ∀ k ∈ (diffOriginIndexes previous index).changedPaths, k ∈ index.files := by
    intro k hk
    obtain ⟨f, hf, -⟩ := (mem_changedPaths previous index k).mp hk
    exact Std.TreeMap.mem_iff_isSome_getElem?.mpr (by rw [hf]; rfl)
  obtain ⟨hplaced, hrest⟩ := download_ok hd (fun k hk => hkeys k (hsub k hk))
    (changedPaths_nodup previous index) h6
  obtain ⟨htop8, hgone, hmetaDir, hfiles, hbodies, hsidecars⟩ := removals_ok hd hkeys h7 h8
  have hgrown : ∀ r, ¬ ObjectFiles d (diffOriginIndexes previous index).changedPaths (names d ++ r) →
      ¬ SidecarFiles deps d (diffOriginIndexes previous index).changedPaths (names d ++ r) →
      ∀ b, w6.under d r = some (.file b) ↔ w.under d r = some (.file b) := by
    intro r h1 h2 b
    rw [← hunder]
    exact (hrest _ h1 h2).file
  have hspare : ∀ q, OffPath deps d (diffOriginIndexes previous index).changedPaths q →
      w6.fs.lookup q = w1.fs.lookup q := fun q hoff => by
    have := run_spares deps env (@downloads_spare deps id d hd index
      (diffOriginIndexes previous index).changedPaths 0) w1.tick.tick hoff
    rwa [h6] at this
  -- after the downloads no unlisted file leads to a sidecar either
  have hstale : ∀ k n, OwnSidecar deps index (w.under d) k n → ∀ r b, r ≠ [] →
      r.head? ≠ some metaName → w6.under d r = some (.file b) → keyOf r ∉ index.files →
      ∀ n', normalizeObjectPath (keyOf r) = .ok n' → sidecarNames deps n' ≠ sidecarNames deps n := by
    intro k n hown r b hr hmeta hb hnot
    refine hown.stale r b hr hmeta ((hgrown r ?_ ?_ b).mp hb) hnot
    · rintro ⟨k', hk', he⟩
      rw [List.append_cancel_left he, keyOf_names (hkeys k' (hsub k' hk')).2] at hnot
      exact hnot (hsub k' hk')
    · rintro ⟨k', hk', n', hn', he⟩
      exact hmeta (by rw [List.append_cancel_left he]; rfl)
  have htop' : w'.under d [] = some .dir := by
    rw [htop8]
    have hdir : w1.tick.tick.under d [] = some .dir := (hunder []).trans htop
    have hgrow : Grown w1.tick.tick w6 (names d ++ []) := by
      refine hrest _ ?_ ?_
      · rintro ⟨k, hk, he⟩
        exact names_ne_nil_of_plain (hkeys k (hsub k hk)).2 (List.append_cancel_left he).symm
      · rintro ⟨k, hk, n, hn, he⟩
        exact absurd (List.append_cancel_left he) (by intro h; cases h)
    rcases hgrow with hq | ⟨hq, -⟩
    · exact hq.trans hdir
    · exact absurd (hdir.symm.trans hq) (by simp)
  refine ⟨htop', hfiles, fun k hk => ?_, fun k hk hnot => ⟨fun b hb => ?_, fun n hn hown => ?_⟩,
    hmetaDir, fun n hc s b hs hp hne hb => ?_, fun r hr hoff => ?_⟩
  · obtain ⟨object, hfetched, hbody, hside⟩ := hplaced k hk
    refine ⟨object, hfetched.mono (by simp [World.tick]) (by omega),
      (hbodies k (hsub k hk)).trans hbody, fun n hn hown => ?_⟩
    rw [hsidecars k (hsub k hk) n hn (hstale k n hown)]
    exact hside n hn fun k' hk' n' hn' he => hown.listed k' (hsub k' hk') n' hn' he
  · rw [hbodies k hk]
    refine (hgrown (names k) ?_ ?_ b).mpr hb
    · rintro ⟨k', hk', he⟩
      rw [names_injOn_plain (hkeys k hk).2 (hkeys k' (hsub k' hk')).2
        (List.append_cancel_left he)] at hnot
      exact hnot hk'
    · rintro ⟨k', hk', n', hn', he⟩
      exact names_head_ne_meta (hkeys k hk).1 (hkeys k hk).2
        (by rw [List.append_cancel_left he]; rfl)
  · rw [hsidecars k hk n hn (hstale k n hown), ← hunder]
    have hoff : OffPath deps d (diffOriginIndexes previous index).changedPaths
        (names d ++ sidecarNames deps n) := by
      refine fun k' hk' => ⟨fun hp => ?_, fun n' hn' hp => ?_⟩
      · rw [List.prefix_append_right_inj] at hp
        obtain ⟨s, hs⟩ := hp
        exact names_head_ne_meta (hkeys k' (hsub k' hk')).1 (hkeys k' (hsub k' hk')).2
          (by rw [← hs]; rfl)
      · rw [List.prefix_append_right_inj] at hp
        have := hown.listed k' (hsub k' hk') n' hn' (hp.eq_of_length rfl).symm
        exact hnot (this ▸ hk')
    exact hspare _ hoff
  · rcases hgone s with hq | ⟨-, hq⟩
    · refine hc s b hs hp hne ((hgrown s ?_ ?_ b).mp (hq.symm.trans hb))
      · rintro ⟨k, hk, he⟩
        refine names_head_ne_meta (hkeys k (hsub k hk)).1 (hkeys k (hsub k hk)).2 ?_
        rw [← List.append_cancel_left he]
        obtain ⟨r, hr⟩ := hp
        cases s with
        | nil => exact absurd rfl hs
        | cons x s => exact congrArg some (List.cons.inj hr).1
      · rintro ⟨k, hk, n', hn', he⟩
        refine hne (hp.eq_of_length ?_)
        rw [List.append_cancel_left he]
        rfl
    · exact absurd (hq.symm.trans hb) (by simp)
  · have hsame : w6.under d r = w.under d r := by
      rw [← hunder]
      refine hspare _ fun k hk => ⟨fun hp => ?_, fun n hn hp => ?_⟩
      · exact (hoff k hk).1 ((List.prefix_append_right_inj _).mp hp)
      · exact (hoff k hk).2 n hn ((List.prefix_append_right_inj _).mp hp)
    rw [← hsame]
    exact hgone r

end

theorem Built.congr {id : Str} {previous : Option OriginFreshnessIndex}
    {index : OriginFreshnessIndex} {d : PathBuf} {lo hi : Nat}
    {base base' : List Name → Option (Node Bytes)} {w : World}
    (h : Built deps env id previous index d lo hi base w) (hplain : ∀ k ∈ index.files, Plain k)
    (hbase : ∀ r, r ≠ [] → base r = base' r) :
    Built deps env id previous index d lo hi base' w := by
  have hown : ∀ k n, OwnSidecar deps index base' k n → OwnSidecar deps index base k n :=
    fun k n ho => ⟨ho.listed, fun r b hr hmeta hb => ho.stale r b hr hmeta (hbase r hr ▸ hb)⟩
  refine ⟨h.top, h.files, fun k hk => ?_, fun k hk hnot => ⟨fun b hb => ?_, fun n hn ho => ?_⟩,
    h.metadataDir, fun n hc => h.clear n fun s b hs => hbase s hs ▸ hc s b hs,
    fun r hr hoff => hbase r hr ▸ h.spared r hr hoff⟩
  · obtain ⟨object, hf, hb, hs⟩ := h.changed k hk
    exact ⟨object, hf, hb, fun n hn ho => hs n hn (hown k n ho)⟩
  · exact (h.unchanged k hk hnot).1 b (by rw [hbase _ (names_ne_nil_of_plain (hplain k hk)), hb])
  · exact ((h.unchanged k hk hnot).2 n hn (hown k n ho)).trans
      (hbase (sidecarNames deps n) (List.cons_ne_nil _ _))

theorem Built.mono {id : Str} {previous : Option OriginFreshnessIndex}
    {index : OriginFreshnessIndex} {d : PathBuf} {lo hi lo' : Nat}
    {base : List Name → Option (Node Bytes)} {w : World}
    (h : Built deps env id previous index d lo hi base w) (hlo : lo' ≤ lo) :
    Built deps env id previous index d lo' hi base w := by
  refine ⟨h.top, h.files, fun k hk => ?_, h.unchanged, h.metadataDir, h.clear, h.spared⟩
  obtain ⟨object, hf, hrest⟩ := h.changed k hk
  exact ⟨object, hf.mono hlo (Nat.le_refl _), hrest⟩

/-- A staging that returned: its listing, and for plain keys the files it built
from the mirror, if the probe of the mirror did not fail. -/
theorem stageOriginSync_ends {id : Str} {previous : Option OriginFreshnessIndex}
    {T : Op → World → Prop} (hT : ∀ o w', probeFails env id o w' = true → T o w') (w : World) :
    Ends (step deps env) T
      (fun out w' => ∀ staged, out = .ok staged →
        staged.diff = diffOriginIndexes previous staged.index ∧
        ∃ wl, BuiltFrom deps env T id previous staged.index staged.stagingDir w.clock w'.clock
          (w.under id) wl w')
      (stageOriginSync deps id previous) w := by
  cases hdir : originDir storeRoot id with
  | error e => rw [stageOriginSync, hdir]; exact fun _ h => by cases h
  | ok dir =>
    obtain ⟨hdir', hid⟩ := originDir_ok_iff.mp hdir
    rw [stageOriginSync, hdir, show dir = id from hdir']
    refine Ends.bind (ends_iff.mpr fun _ => ?_)
    show Ends _ _ _ (stagingDir deps id >>= _) w
    refine Ends.bind (ends_iff.mpr fun _ => ?_)
    rw [stagingDir_run deps hid]
    have hs := stagingPath_inStaging deps hid (env.nanos w.clock)
    refine Ends.bind ((prepareStagingDir_ends hid hs hT w.tick).with_run.mono ?_)
    rintro out w1 ⟨hcopy, hrun1⟩
    cases out with
    | err e => simp
    | dropped => simp
    | ok u =>
      obtain ⟨htop, hbase⟩ := hcopy u rfl
      refine Ends.bind (Ends.attempt ?_)
      have hd := @stagingPath_ne_nil deps id (env.nanos w.clock)
      have hclock1 : w.clock ≤ w1.clock := by
        have := run_clock deps env hrun1
        simp only [World.tick] at this
        omega
      have hstage : Ends (step deps env) T
          (fun out w2 => ∀ v, out = .ok v → v.2.1 = diffOriginIndexes previous v.1 ∧
            ∃ wl, BuiltFrom deps env T id previous v.1 (stagingPath deps id (env.nanos w.clock))
              w1.clock w2.clock (w1.under _) wl w2)
          (stageOriginDir deps id (stagingPath deps id (env.nanos w.clock)) previous) w1 :=
        ends_iff.mpr fun ht v hv => stageOriginDir_ok hd htop ht (Prod.ext hv rfl)
      refine hstage.mono ?_
      intro out w2 hres
      cases out with
      | dropped => simp
      | err e =>
        refine Ends.bind (ends_iff.mpr fun _ => ?_)
        split <;> exact fun _ h => by cases h
      | ok v =>
        obtain ⟨hdiff, wl, h1, h2, hallowed, hlisting, hbuilt⟩ := hres v rfl
        rintro staged ⟨⟩
        exact ⟨hdiff, wl, by omega, h2, hallowed, hlisting,
          fun hplain => (hbuilt hplain).congr hplain hbase⟩

end RenderMesh.Refresh
