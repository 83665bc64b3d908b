import RenderMesh.Refresh.Cleanup
import RenderMesh.Refresh.Stops

/-!
# What a staging that returned has staged

Step by step through `stage_origin_sync`, for every storage and clock.

* `prepareStagingDir_ends`: the staging directory starts as a copy of the mirror,
  unless the probe of the mirror failed (`probeFails`).
* `writeObject_ok`, `download_ok`: what was downloaded stands in its files.
* `stageOriginDir_ok`: for plain keys, the staged files outside the metadata
  directory are those of the listed keys; a changed key has the body that was
  fetched and checked for it, an unchanged one what it had before.
-/
namespace RenderMesh.Refresh

open RenderMesh.Core RenderMesh.Mirror RenderMesh.Server

variable {deps : Deps} {env : Env}

/-! ## Copying the mirror -/

section copy
variable {source target : PathBuf} (hsrc : ∀ r, ¬ [syncName] <+: names source ++ r)
  (ht : InStaging target) {w0 w w' : World}
include hsrc ht

theorem copyEntry_ok {e : WalkEvent Name} (he : e ∈ w0.fs.itinerary (fun _ => false) (names source))
    (hsame : ∀ r, w.under source r = w0.under source r) (htop : w.under target [] = some .dir)
    (h : run (step deps env) (copyEntry deps source target e) w = (.ok (), w')) :
    (∀ r, w'.under target r = w.under target r ∨ r ≠ [] ∧ w'.under target r = w0.under source r) ∧
      (∀ r d, e = .entry r d → w'.under target r = w0.under source r) ∧
      (e = .readDir [] → w0.under source [] = some .dir) ∧
      ∀ r, w'.under source r = w0.under source r := by
  have hframe : ∀ r, w'.under source r = w0.under source r := fun r => by
    have := (@quiet_of_staged deps env _ _ (copyEntry_within deps source ht e) w).files _ (hsrc r)
    rw [h] at this
    exact this.trans (hsame r)
  cases e with
  | readDir rel =>
    obtain ⟨-, hok, rfl⟩ := ioContext_ok h
    refine ⟨fun r => Or.inl (did_frame fun hw => hw), (by simp), ?_, hframe⟩
    rintro ⟨⟩
    rw [← hsame]
    simpa [World.under, joinNames] using readDir_ok hok
  | entry rel isDir =>
    obtain ⟨_, w1, h1, h2⟩ := run_bind_ok _ |>.mp h
    obtain ⟨-, -, rfl⟩ := ioTry_ok h1
    have hvisit : ∀ q, (w.did env (.visit (joinNames source rel))).fs.lookup q = w.fs.lookup q :=
      fun q => did_frame fun hw => hw
    obtain ⟨hrel, hsome, hdir, -⟩ := FileTree.entry_mem_itinerary _ _ _ _ _ |>.mp he
    have hpath := names_joinNames target rel
    cases isDir with
    | true =>
      have hthere : w0.under source rel = some .dir := by
        simpa [FileTree.isDirAt, World.under] using hdir.symm
      obtain ⟨-, hok, rfl⟩ := ioContext_ok h2
      refine ⟨fun r => ?_, ?_, (by simp), hframe⟩
      · rcases @createDirAll_did_or env (joinNames target rel)
          (w.did env (.visit (joinNames source rel))) (names target ++ r) with hq | ⟨hq, hn, hd⟩
        · exact Or.inl (hq.trans (hvisit _))
        · -- a directory made on the way is one in the mirror
          rw [hpath, List.prefix_append_right_inj] at hq
          have hr : r ≠ [] := by
            rintro rfl
            rw [hvisit] at hn
            exact absurd (htop.symm.trans hn) (by simp)
          refine Or.inr ⟨hr, hd.trans ?_⟩
          obtain ⟨s, rfl⟩ := hq
          by_cases hs : s = []
          · subst hs
            simpa using hthere.symm
          · exact (w0.fs.above_dir (p := names source ++ r) hs
              (by rw [List.append_assoc]; exact hsome)).symm
      · rintro r d ⟨⟩
        rw [hthere, World.under, ← hpath]
        exact createDirAll_did hok
    | false =>
      obtain ⟨-, hok, hw'⟩ := ioContext_ok h2
      obtain ⟨body, hbody, hwr⟩ := copy_did hok
      have hsrcbody : w0.under source rel = some (.file body) := by
        rw [← hsame, World.under, ← names_joinNames, ← hvisit]
        exact hbody
      have hat : ∀ r, w'.under target r = if r = rel then w0.under source rel
          else w.under target r := fun r => by
        rw [World.under, hw', hwr, hpath, hsrcbody, hvisit]
        by_cases hr : r = rel
        · rw [if_pos hr, if_pos (by rw [hr])]
        · rw [if_neg hr, if_neg fun hq => hr (List.append_cancel_left hq)]
          rfl
      refine ⟨fun r => ?_, ?_, (by simp), hframe⟩
      · rw [hat]
        split
        · rename_i hr
          exact Or.inr ⟨hr ▸ hrel, by rw [hr]⟩
        · exact Or.inl rfl
      · rintro r d ⟨⟩
        rw [hat, if_pos rfl]

/-- How far a copy of what was at `source` has come after some events of its walk. -/
structure Copying (source target : PathBuf) (w0 : World) (done : List (WalkEvent Name)) (w : World) :
    Prop where
  top : w.under target [] = some .dir
  other : ∀ r, r ≠ [] → w.under target r = w0.under source r ∨ w.under target r = none
  visited : ∀ r d, .entry r d ∈ done → w.under target r = w0.under source r
  root : .readDir [] ∈ done → w0.under source [] = some .dir
  same : ∀ r, w.under source r = w0.under source r

theorem Copying.next {done : List (WalkEvent Name)} {e : WalkEvent Name}
    (hw : Copying source target w0 done w)
    (he : e ∈ w0.fs.itinerary (fun _ => false) (names source))
    (h : run (step deps env) (copyEntry deps source target e) w = (.ok (), w')) :
    Copying source target w0 (done ++ [e]) w' := by
  obtain ⟨hs1, hs2, hs3, hs4⟩ := copyEntry_ok hsrc ht he hw.same hw.top h
  refine ⟨?_, fun r hr => ?_, fun r d hr => ?_, fun hr => ?_, hs4⟩
  · exact (hs1 []).elim (fun h => h.trans hw.top) fun h => absurd rfl h.1
  · rcases hs1 r with hq | hq
    · rw [hq]; exact hw.other r hr
    · exact Or.inl hq.2
  · rw [List.mem_append, List.mem_singleton] at hr
    rcases hr with hr | hr
    · rcases hs1 r with hq | hq
      · rw [hq]; exact hw.visited r d hr
      · exact hq.2
    · exact hs2 r d hr.symm
  · rw [List.mem_append, List.mem_singleton] at hr
    exact hr.elim hw.root fun h => hs3 h.symm

/-- A copy starts with an empty target. -/
theorem Copying.start {context : Str} {w1 : World}
    (hclean : ∀ r, r ≠ [] → w.under target r = none)
    (h : run (step deps env) (ioContext (.createDirAll target) context) w = (.ok (), w1)) :
    Copying source target w1 [] w1 ∧ ∀ r, w1.under source r = w.under source r := by
  obtain ⟨-, hmk, hw1⟩ := ioContext_ok h
  have hsrc1 : ∀ r, w1.under source r = w.under source r := fun r => by
    have hmkdir := uses_ioContext (within_createDirAll ht) context
    have := (@quiet_of_staged deps env _ _ hmkdir w).files _ (hsrc r)
    rwa [h] at this
  have htop1 : w1.under target [] = some .dir := by
    rw [World.under, List.append_nil, hw1]
    exact createDirAll_did hmk
  have hclean1 : ∀ r, r ≠ [] → w1.under target r = none := fun r hr => by
    rw [World.under, hw1, did_frame, ← World.under, hclean r hr]
    intro hq
    have := hq.length_le
    rw [List.length_append] at this
    exact hr (List.length_eq_zero_iff.mp (by omega))
  exact ⟨⟨htop1, fun r hr => Or.inr (hclean1 r hr), (by simp), (by simp), fun _ => rfl⟩, hsrc1⟩

/-- A copy that returned is one. -/
theorem copyDirContents_ok (hclean : ∀ r, r ≠ [] → w.under target r = none)
    (h : run (step deps env) (copyDirContents deps source target) w = (.ok (), w')) :
    w'.under target [] = some .dir ∧ ∀ r, w'.under target r = w.under source r := by
  obtain ⟨_, w1, h1, h⟩ := run_bind_ok _ |>.mp h
  obtain ⟨hstart, hsrc1⟩ := Copying.start hsrc ht hclean h1
  obtain ⟨events, w2, h2, h⟩ := run_bind_ok _ |>.mp h
  have hev : events = w1.fs.itinerary (fun _ => false) (names source) ∧ w2 = w1 := by
    cases h2; exact ⟨rfl, rfl⟩
  obtain ⟨rfl, rfl⟩ := hev
  have hloop := run_fold_ok _
    (fun done rest _ w' => (∀ e ∈ rest, e ∈ w2.fs.itinerary (fun _ => false) (names source)) ∧
      Copying source target w2 done w')
    ?_ _ [] () w2 () w'
    ⟨fun e he => he, hstart⟩ h
  · obtain ⟨-, hcopied⟩ := hloop
    refine ⟨hcopied.top, fun r => ?_⟩
    rw [← hsrc1]
    by_cases hr : r = []
    · subst hr
      rw [hcopied.top, hcopied.root (FileTree.readDir_nil_mem_itinerary _ _ _)]
    · cases hs : w2.under source r with
      | none => exact (hcopied.other r hr).elim (fun h => h.trans hs) fun h => h
      | some n =>
        rw [← hs]
        refine hcopied.visited r (w2.fs.isDirAt (names source ++ r)) ?_
        rw [List.nil_append, FileTree.entry_mem_itinerary]
        exact ⟨hr, by rw [← World.under, hs]; rfl, rfl, fun _ _ _ _ => rfl⟩
  · rintro done e rest ⟨⟩ w3 ⟨⟩ w4 ⟨hrest, hcopying⟩ hrun
    exact ⟨fun e' he' => hrest e' (by simp [he']), hcopying.next hsrc ht (hrest e (by simp)) hrun⟩

end copy

/-! ## The staging directory before anything is downloaded -/

/-- The probe of a mirror that exists does not find it. -/
def probeFails (env : Env) (dir : PathBuf) : Op → World → Bool
  | .fs (.metadata p), w =>
    p = dir && (w.fs.lookup (names p)).isSome &&
      (env.fault w.clock (.metadata p) ≠ .none ||
        !((FsOp.metadata p).exec env.long w.fs).1.isOk)
  | _, _ => false

theorem removeDirIfExists_ok {p : PathBuf} (hp : names p ≠ []) {w w' : World}
    (h : run (step deps env) (removeDirIfExists deps p) w = (.ok (), w')) (r : List Name) :
    w'.under p r = none := by
  obtain ⟨-, hres, rfl⟩ := ioUnlessNotFound_ok h
  rcases hres with ⟨v, hv⟩ | hnf
  · have := (w.fs.removeDirAll_ok env.long hp (Prod.ext hv rfl)).2 (names p ++ r)
    rw [if_pos (List.prefix_append _ _)] at this
    exact this
  · have hsame := w.fs.removeDirAll_error env.long (p := names p) (Prod.ext hnf rfl)
    have hnone := w.fs.removeDirAll_notFound env.long (p := names p) hnf
    show ((FsOp.removeDirAll p).exec env.long w.fs).2.lookup _ = none
    rw [show ((FsOp.removeDirAll p).exec env.long w.fs).2 = w.fs from hsame]
    exact w.fs.below_none hnone

/-- The staging directory is a copy of the mirror. -/
def CopyOf (id : Str) (staging : PathBuf) (w w' : World) : Prop :=
  w'.under staging [] = some .dir ∧ ∀ r, r ≠ [] → w'.under staging r = w.under id r

section
variable {id : Str} (hid : validateOriginId id = .ok ()) {staging : PathBuf}
  (hs : InStaging staging)
include hid hs

theorem prepareStagingDir_ends {T : Op → World → Prop}
    (hT : ∀ o w', probeFails env id o w' = true → T o w') (w : World) :
    Ends (step deps env) T (fun out w' => ∀ u, out = .ok u → CopyOf id staging w w')
      (prepareStagingDir deps id staging) w := by
  have hsrc : ∀ r, ¬ [syncName] <+: names id ++ r :=
    fun r => staging_not_prefix_origin hid (List.prefix_append _ _)
  have hne : names staging ≠ [] := by
    rintro h
    rw [InStaging, h] at hs
    simp at hs
  have hrm : Ends (step deps env) T (fun out w1 => Quiet w w1 ∧
      ∀ u : Unit, out = .ok u → ∀ r, w1.under staging r = none) (removeDirIfExists deps staging) w :=
    ends_iff.mpr fun _ => ⟨quiet_of_staged (removeDirIfExists_within deps hs) w,
      fun u hu => removeDirIfExists_ok hne (Prod.ext hu rfl)⟩
  refine Ends.bind (hrm.mono fun out w1 hw1 => ?_)
  cases out with
  | err e => simp
  | dropped => simp
  | ok u =>
    have hclean := hw1.2 () rfl
    have hmirror : ∀ r, w1.under id r = w.under id r := fun r => hw1.1.files _ (hsrc r)
    refine Ends.bind (io_ends fun ht => ?_)
    have habsent : (env.fault w1.clock (.metadata id) ≠ .none ∨
        ((FsOp.metadata id).exec env.long w1.fs).1.isOk = false) → ∀ r, w.under id r = none := by
      intro hx r
      rw [← hmirror]
      by_contra hthere
      have hsome : (w1.fs.lookup (names id)).isSome = true := by
        rw [Option.isSome_iff_ne_none]
        exact fun h0 => hthere (w1.fs.below_none h0)
      refine ht (hT _ _ ?_)
      rcases hx with hx | hx
      · simp [probeFails, hsome, hx]
      · simp [probeFails, hsome, hx]
    -- without a mirror, a directory of its own
    have fresh : ∀ w2 : World, w2.fs = w1.fs → (∀ r, w.under id r = none) →
        Ends (step deps env) T (fun out w' => ∀ u, out = .ok u → CopyOf id staging w w')
          (ioContext (.createDirAll staging)
            ("create staging mirror ".toList ++ deps.display staging)) w2 := by
      intro w2 hw2 hnone
      refine Ends.of_ok (R := fun _ => CopyOf id staging w) fun u w3 h3 => ?_
      obtain ⟨-, hmk, rfl⟩ := ioContext_ok h3
      refine ⟨by rw [World.under, List.append_nil]; exact createDirAll_did hmk, fun r hr => ?_⟩
      rw [World.under, did_frame, hw2, hnone r]
      · exact hclean r
      · intro hq
        have := hq.length_le
        rw [List.length_append] at this
        exact hr (List.length_eq_zero_iff.mp (by omega))
    cases hf : env.fault w1.clock (.metadata id) with
    | drop ran left => cases ran <;> simp
    | fail left => exact fresh _ rfl (habsent (Or.inl (by simp [hf])))
    | none =>
      cases hm : ((FsOp.metadata id).exec env.long w1.fs).1 with
      | error e => exact fresh _ rfl (habsent (Or.inr (by rw [hm]; rfl)))
      | ok d =>
        refine Ends.of_ok (R := fun _ => CopyOf id staging w) fun u w3 h3 => ?_
        obtain ⟨htop, hcopy⟩ := copyDirContents_ok (w := w1.did env (.metadata id)) hsrc hs
          (fun r _ => hclean r) h3
        exact ⟨htop, fun r _ => (hcopy r).trans (hmirror r)⟩

end

/-! ## Writing objects -/

/-- At `q` at most a directory was added. -/
def Grown (w w' : World) (q : List Name) : Prop :=
  w'.fs.lookup q = w.fs.lookup q ∨ w.fs.lookup q = none ∧ w'.fs.lookup q = some .dir

theorem Grown.refl (w : World) (q : List Name) : Grown w w q := Or.inl rfl

theorem Grown.trans {a b c : World} {q : List Name} (h1 : Grown a b q) (h2 : Grown b c q) :
    Grown a c q := by
  rcases h1 with h1 | ⟨h1, h1'⟩
  · rcases h2 with h2 | ⟨h2, h2'⟩
    · exact Or.inl (h2.trans h1)
    · exact Or.inr ⟨h1 ▸ h2, h2'⟩
  · rcases h2 with h2 | ⟨h2, h2'⟩
    · exact Or.inr ⟨h1, h2.trans h1'⟩
    · exact Or.inr ⟨h1, h2'⟩

theorem Grown.file {w w' : World} {q : List Name} {b : Bytes} (h : Grown w w' q) :
    w'.fs.lookup q = some (.file b) ↔ w.fs.lookup q = some (.file b) := by
  rcases h with h | ⟨h, h'⟩
  · rw [h]
  · rw [h, h']
    simp

theorem createParent_ok {p : PathBuf} {context : PathBuf → Str} {w w' : World}
    (h : run (step deps env) (withParent p fun parent =>
      ioContext (.createDirAll parent) (context parent)) w = (.ok (), w')) (q : List Name) :
    Grown w w' q := by
  unfold withParent at h
  split at h
  · obtain ⟨-, -, rfl⟩ := ioContext_ok h
    rcases createDirAll_did_or _ w q with hq | ⟨-, hq⟩
    · exact Or.inl hq
    · exact Or.inr hq
  · cases h
    exact Grown.refl _ _

/-- The two files of an object, the sidecar last. -/
theorem writeObject_ok {d : PathBuf} (hd : d ≠ []) {object : RemoteObject} {w w' : World}
    (h : run (step deps env) (writeObject deps d object) w = (.ok (), w')) :
    ∃ n, normalizeObjectPath object.key = .ok n ∧
      w'.under d (sidecarNames deps n) =
        some (.file (deps.metadataToJson (objectMetadata object))) ∧
      (names object.key ≠ sidecarNames deps n →
        w'.under d (names object.key) = some (.file object.body)) ∧
      ∀ q, q ≠ names d ++ names object.key → q ≠ names d ++ sidecarNames deps n → Grown w w' q := by
  obtain ⟨key, w1, h1, h⟩ := run_bind_ok _ |>.mp h
  obtain ⟨path, w2, h2, h⟩ := run_bind_ok _ |>.mp h
  cases hkey : normalizeRemoteKey object.key with
  | error e => rw [hkey] at h1; cases h1
  | ok k =>
    obtain ⟨rfl, hacc⟩ := normalizeRemoteKey_ok_iff.mp hkey
    rw [hkey] at h1
    cases h1
    rw [remoteObjectPath_ok_iff hd |>.mpr ⟨rfl, hacc⟩] at h2
    cases h2
    obtain ⟨_, w3, h3, h⟩ := run_bind_ok _ |>.mp h
    obtain ⟨_, w4, h4, h⟩ := run_bind_ok _ |>.mp h
    obtain ⟨sidecar, w5, h5, h⟩ := run_bind_ok _ |>.mp h
    cases hside : metadataSidecarPath deps d object.key with
    | error e => rw [hside] at h5; cases h5
    | ok p =>
      rw [hside] at h5
      cases h5
      obtain ⟨n, hn, rfl⟩ := metadataSidecarPath_ok_iff.mp hside
      obtain ⟨_, w6, h6, h⟩ := run_bind_ok _ |>.mp h
      obtain ⟨-, hbody, hw4⟩ := ioContext_ok h4
      obtain ⟨-, hmeta, hw'⟩ := ioContext_ok h
      have hat4 : ∀ q, w4.fs.lookup q = if q = names d ++ names object.key then
          some (.file object.body) else w3.fs.lookup q := fun q => by
        rw [hw4, write_did hbody, names_join]
      have hat' : ∀ q, w'.fs.lookup q = if q = names d ++ sidecarNames deps n then
          some (.file (deps.metadataToJson (objectMetadata object))) else w6.fs.lookup q :=
        fun q => by rw [hw', write_did hmeta, names_joinNames]
      refine ⟨n, hn, ?_, fun hne => ?_, fun q hq1 hq2 => ?_⟩
      · rw [World.under, hat', if_pos rfl]
      · rw [World.under, hat', if_neg fun he => hne (List.append_cancel_left he)]
        refine (createParent_ok h6 _).file.mpr ?_
        rw [hat4, if_pos rfl]
      · have h46 : Grown w4 w' q := by
          have := createParent_ok h6 q
          unfold Grown at *
          rwa [hat', if_neg hq2]
        have h34 : Grown w3 w4 q := Or.inl (by rw [hat4, if_neg hq1])
        exact ((createParent_ok h3 q).trans h34).trans h46

theorem validateDownloadedObject_ok {key : Str} {st : OriginFileState} {object : RemoteObject}
    (h : validateDownloadedObject key st object = .ok ()) :
    object.key = key ∧ object.body.length = st.size ∧
      (st.etag.isSome → object.etag = st.etag) ∧
      (st.lastModified.isSome → object.lastModified = st.lastModified) := by
  unfold validateDownloadedObject at h
  cases hkey : normalizeRemoteKey object.key with
  | error e => rw [hkey] at h; cases h
  | ok k =>
    obtain ⟨rfl, -⟩ := normalizeRemoteKey_ok_iff.mp hkey
    rw [hkey] at h
    simp only [bind, Except.bind] at h
    split at h
    · cases h
    · split at h
      · cases h
      · split at h
        · cases h
        · split at h
          · cases h
          · rename_i h1 h2 h3 h4
            exact ⟨not_not.mp h1, not_not.mp h2, fun hs => by_contra fun hne => h3 ⟨hs, hne⟩,
              fun hs => by_contra fun hne => h4 ⟨hs, hne⟩⟩

end RenderMesh.Refresh
