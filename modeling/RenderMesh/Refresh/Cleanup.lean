import RenderMesh.Refresh.Isolation

/-!
# Removing what is no longer listed

The two loops that end a staging: `remove_deleted_objects` over the files outside
the metadata directory, `remove_orphan_metadata_sidecars` over those in it.

* `removeDeletedObjects_spares`, `removeOrphanMetadataSidecars_spares`: which files
  they do not touch, however they end.
* `removeDeletedObjects_ok`: what the first is sure to remove, and what else.
-/
namespace RenderMesh.Refresh

open RenderMesh.Core RenderMesh.Mirror RenderMesh.Server

variable {deps : Deps} {env : Env} {d : PathBuf}

theorem plain_ne_nil {k : Str} (hk : Plain k) : k ≠ [] := by
  rintro rfl
  exact (hk [] (by decide)).1 rfl

theorem keyOf_names {k : Str} (hk : Plain k) : keyOf (names k) = k :=
  (keyOf_names_iff (plain_ne_nil hk)).mpr hk

/-- No object's file is in the metadata directory. -/
theorem names_head_ne_meta {k : Str} (ha : Accepted k) (hk : Plain k) :
    (names k).head? ≠ some metaName := by
  rw [← keyOf_names hk, accepted_keyOf_iff] at ha
  exact ha.2.1

/-- The files of objects with keys in `keys`. -/
def ObjectFiles (d : PathBuf) (keys : List Str) (q : List Name) : Prop :=
  ∃ k ∈ keys, q = names d ++ names k

/-- The sidecars of objects with keys in `keys`. -/
def SidecarFiles (deps : Deps) (d : PathBuf) (keys : List Str) (q : List Name) : Prop :=
  ∃ k ∈ keys, ∃ n, normalizeObjectPath k = .ok n ∧ q = names d ++ sidecarNames deps n

theorem removeDeletedObjects_spares (hd : d ≠ []) {keys : List Str}
    (hkeys : ∀ k ∈ keys, Accepted k ∧ Plain k) :
    (removeDeletedObjects deps d (.ofList keys)).Uses (Op.Spares (ObjectFiles d keys)) := by
  refine Prog.uses_bind (uses_call trivial) fun events => ?_
  refine Prog.uses_each fun e _ => ?_
  cases e with
  | readDir rel => exact uses_ioUnlessNotFound (fun _ _ => id) _
  | entry rel isDir =>
    refine Prog.uses_bind (uses_ioTry fun _ _ => id) fun _ => ?_
    cases isDir with
    | true => trivial
    | false =>
      refine Prog.uses_ofExcept_bind fun key hkey => ?_
      rw [relativeKey_joinNames deps hd] at hkey
      obtain ⟨rfl, -⟩ := normalizeRemoteKey_ok_iff.mp hkey
      split
      · trivial
      · rename_i hnot
        have hfile : ∀ q, ObjectFiles d keys q → q ≠ names (joinNames d rel) := by
          rintro q ⟨k, hk, rfl⟩ hq
          rw [names_joinNames] at hq
          have hrel := List.append_cancel_left hq
          rw [← hrel, keyOf_names (hkeys k hk).2] at hnot
          exact hnot (by simpa [Std.TreeSet.mem_ofList] using hk)
        refine Prog.uses_bind (uses_ioContext (fun q hq hw => hfile q hq hw) _) fun _ => ?_
        refine Prog.uses_ofExcept_bind fun sidecar hside => ?_
        obtain ⟨n, -, rfl⟩ := metadataSidecarPath_ok_iff.mp hside
        refine uses_ioUnlessNotFound (fun q hq hw => ?_) _
        obtain ⟨k, hk, rfl⟩ := hq
        have hn : names d ++ names k = names (joinNames d (sidecarNames deps n)) := hw
        rw [names_joinNames] at hn
        have := List.append_cancel_left hn
        exact names_head_ne_meta (hkeys k hk).1 (hkeys k hk).2 (by rw [this]; rfl)

theorem forall₂_of_mapM_ok {α β ε : Type} {f : α → Except ε β} {l : List α} {r : List β}
    (h : l.mapM f = .ok r) : List.Forall₂ (fun a b => f a = .ok b) l r := by
  induction l generalizing r with
  | nil => cases h; exact .nil
  | cons x l ih =>
    rw [List.mapM_cons] at h
    cases hx : f x with
    | error e => rw [hx] at h; cases h
    | ok y =>
      cases hl : l.mapM f with
      | error e => rw [hx, hl] at h; cases h
      | ok s =>
        rw [hx, hl] at h
        cases h
        exact .cons hx (ih hl)

theorem mem_of_forall₂ {α β : Type} {R : α → β → Prop} {l : List α} {r : List β}
    (h : List.Forall₂ R l r) {a : α} (ha : a ∈ l) : ∃ b ∈ r, R a b := by
  induction h with
  | nil => cases ha
  | cons hxy _ ih =>
    rcases List.mem_cons.mp ha with rfl | ha
    · exact ⟨_, List.mem_cons_self, hxy⟩
    · obtain ⟨b, hb, hab⟩ := ih ha
      exact ⟨b, List.mem_cons_of_mem _ hb, hab⟩

/-- The paths that orphan removal leaves alone: sidecars of objects with keys in
`keys`, and all that is not in the metadata directory. -/
def NoOrphan (deps : Deps) (d : PathBuf) (keys : List Str) (q : List Name) : Prop :=
  SidecarFiles deps d keys q ∨ ¬ names d ++ [metaName] <+: q

theorem removeOrphanMetadataSidecars_spares (keys : List Str) :
    (removeOrphanMetadataSidecars deps d (.ofList keys)).Uses
      (Op.Spares (NoOrphan deps d keys)) := by
  refine Prog.uses_ofExcept_bind fun expected hexpected => ?_
  refine Prog.uses_bind (uses_call trivial) fun events => ?_
  refine Prog.uses_each fun e _ => ?_
  cases e with
  | readDir rel => exact uses_ioUnlessNotFound (fun _ _ => id) _
  | entry rel isDir =>
    refine Prog.uses_bind (uses_ioTry fun _ _ => id) fun _ => ?_
    cases isDir with
    | true => trivial
    | false =>
      simp only [Bool.false_eq_true, if_false]
      split
      · trivial
      · rename_i hnot
        refine uses_ioContext (fun q hq hw => ?_) _
        have hjoin : joinNames (join d METADATA_DIR_NAME) rel = joinNames d (metaName :: rel) := rfl
        have hpath : q = names d ++ metaName :: rel := by
          rw [← names_joinNames, ← hjoin]
          exact hw
        rcases hq with ⟨k, hk, n, hn, rfl⟩ | hq
        · -- a path with the names of an expected one has its components
          have hrel := List.append_cancel_left hpath
          have hmem : k ∈ (Std.TreeSet.ofList keys).toList := by
            simpa [Std.TreeSet.mem_toList, Std.TreeSet.mem_ofList] using hk
          obtain ⟨p, hp, hsp⟩ := mem_of_forall₂ (forall₂_of_mapM_ok hexpected) hmem
          obtain ⟨m, hm, rfl⟩ := metadataSidecarPath_ok_iff.mp hsp
          rw [hn] at hm
          cases hm
          exact hnot (List.mem_map.mpr ⟨_, hp, by rw [hjoin, ← hrel]⟩)
        · exact hq (by rw [hpath]; simp)

theorem removeOrphanMetadataSidecars_removes (keys : Std.TreeSet Str) :
    (removeOrphanMetadataSidecars deps d keys).Uses Op.Removes := by
  refine Prog.uses_ofExcept_bind fun expected _ => ?_
  refine Prog.uses_bind (uses_call trivial) fun events => ?_
  refine Prog.uses_each fun e _ => ?_
  cases e with
  | readDir rel => exact uses_ioUnlessNotFound (fun _ hw => hw) _
  | entry rel isDir =>
    refine Prog.uses_bind (uses_ioTry fun _ hw => hw) fun _ => ?_
    cases isDir with
    | true => trivial
    | false =>
      simp only [Bool.false_eq_true, if_false]
      split
      · trivial
      · exact uses_ioContext trivial _

theorem removeDeletedObjects_removes (keys : Std.TreeSet Str) :
    (removeDeletedObjects deps d keys).Uses Op.Removes := by
  refine Prog.uses_bind (uses_call trivial) fun events => ?_
  refine Prog.uses_each fun e _ => ?_
  cases e with
  | readDir rel => exact uses_ioUnlessNotFound (fun _ hw => hw) _
  | entry rel isDir =>
    refine Prog.uses_bind (uses_ioTry fun _ hw => hw) fun _ => ?_
    cases isDir with
    | true => trivial
    | false =>
      refine Prog.uses_ofExcept_bind fun key _ => ?_
      split
      · trivial
      · refine Prog.uses_bind (uses_ioContext trivial _) fun _ => ?_
        refine Prog.uses_ofExcept_bind fun sidecar _ => ?_
        exact uses_ioUnlessNotFound trivial _

theorem removeOrphanEntry_ok {expected : List PathBuf} {e : WalkEvent Name}
    {w w' : World}
    (h : run (step deps env) (removeOrphanEntry deps (join d METADATA_DIR_NAME) expected e) w =
      (.ok (), w')) :
    (∀ q, w'.fs.lookup q = w.fs.lookup q ∨ w'.fs.lookup q = none) ∧
      ∀ s, e = .entry s false →
          (∃ p ∈ expected, components p = components (joinNames d (metaName :: s))) ∨
        w'.under d (metaName :: s) = none := by
  cases e with
  | readDir rel =>
    obtain ⟨-, -, rfl⟩ := ioUnlessNotFound_ok h
    exact ⟨fun q => Or.inl (did_frame fun hw => hw), (by simp)⟩
  | entry rel isDir =>
    obtain ⟨_, w1, h1, h⟩ := run_bind_ok _ |>.mp h
    obtain ⟨-, -, rfl⟩ := ioTry_ok h1
    have hpath : joinNames (join d METADATA_DIR_NAME) rel = joinNames d (metaName :: rel) := rfl
    rw [hpath] at h
    have hvisit : ∀ q, (w.did env (.visit (joinNames d (metaName :: rel)))).fs.lookup q =
        w.fs.lookup q := fun q => did_frame fun hw => hw
    cases isDir with
    | true =>
      cases h
      exact ⟨fun q => Or.inl (hvisit q), (by simp)⟩
    | false =>
      simp only [Bool.false_eq_true, if_false] at h
      split at h
      · rename_i hin
        cases h
        refine ⟨fun q => Or.inl (hvisit q), fun s hs => Or.inl ?_⟩
        cases hs
        obtain ⟨p, hp, hc⟩ := List.mem_map.mp hin
        exact ⟨p, hp, hc⟩
      · obtain ⟨-, hrm, rfl⟩ := ioContext_ok h
        refine ⟨fun q => ?_, fun s hs => Or.inr ?_⟩
        · rw [removeFile_did hrm]
          split
          · exact Or.inr rfl
          · exact Or.inl (hvisit q)
        · cases hs
          rw [World.under, removeFile_did hrm, names_joinNames, if_pos rfl]

/-- After the orphan removal every file of the metadata directory is the sidecar of a key. -/
theorem removeOrphanMetadataSidecars_ok (hd : d ≠ []) {keys : List Str} {w w' : World}
    (h : run (step deps env) (removeOrphanMetadataSidecars deps d (.ofList keys)) w = (.ok (), w'))
    {s : List Name} (hs : s ≠ []) {b : Bytes}
    (hb : w'.under d (metaName :: s) = some (.file b)) :
    SidecarFiles deps d keys (names d ++ metaName :: s) := by
  obtain ⟨expected, w1, h1, h⟩ := run_bind_ok _ |>.mp h
  obtain ⟨events, w2, h2, h⟩ := run_bind_ok _ |>.mp h
  rw [run_ofExcept] at h1
  split at h1
  swap
  · cases h1
  rename_i hexpected
  cases h1
  cases h2
  have hstart : names (join d METADATA_DIR_NAME) = names d ++ [metaName] := names_joinNames d [metaName]
  have hloop := run_fold_ok _
    (fun done rest _ w' => (∀ q, w'.fs.lookup q = w.fs.lookup q ∨ w'.fs.lookup q = none) ∧
      ∀ s, .entry s false ∈ done →
        (∃ p ∈ expected, components p = components (joinNames d (metaName :: s))) ∨
          w'.under d (metaName :: s) = none)
    ?_ _ [] () w () w' ⟨fun q => Or.inl rfl, (by simp)⟩ h
  · obtain ⟨hsame, hdone⟩ := hloop
    have hw : w.under d (metaName :: s) = some (.file b) := by
      rcases hsame (names d ++ metaName :: s) with hq | hq
      · exact hq.symm.trans hb
      · exact absurd (hq.symm.trans hb) (by simp)
    have hmem : WalkEvent.entry s false ∈ w.fs.itinerary (fun _ => false)
        (names (join d METADATA_DIR_NAME)) := by
      have hw' : w.fs.lookup (names (join d METADATA_DIR_NAME) ++ s) = some (.file b) := by
        rw [hstart, List.append_assoc]
        exact hw
      rw [FileTree.entry_mem_itinerary]
      exact ⟨hs, by rw [hw']; rfl, by simp [FileTree.isDirAt, hw'], fun _ _ _ _ => rfl⟩
    rcases hdone s (by simpa using hmem) with ⟨p, hp, hpath⟩ | hnone
    · obtain ⟨k, hk, hside⟩ := mem_of_forall₂ (forall₂_of_mapM_ok hexpected).flip hp
      obtain ⟨n, hn, rfl⟩ := metadataSidecarPath_ok_iff.mp hside
      rw [components_joinNames hd, components_joinNames hd] at hpath
      have hinj : Function.Injective fun n : Name => Component.normal n.text := by
        rintro ⟨a, _⟩ ⟨b, _⟩ hab
        cases Component.normal.inj hab
        rfl
      have hnames := List.map_injective_iff.mpr hinj (List.append_cancel_left hpath)
      exact ⟨k, by simpa [Std.TreeSet.mem_toList, Std.TreeSet.mem_ofList] using hk, n, hn,
        by rw [hnames]⟩
    · exact absurd (hnone.symm.trans hb) (by simp)
  · rintro done e rest ⟨⟩ w2 ⟨⟩ w3 ⟨hI1, hI2⟩ hrun
    obtain ⟨hs1, hs2⟩ := removeOrphanEntry_ok hrun
    refine ⟨fun q => (hs1 q).elim (fun hq => hq ▸ hI1 q) Or.inr, fun s hs => ?_⟩
    rw [List.mem_append, List.mem_singleton] at hs
    rcases hs with hs | hs
    · refine (hI2 s hs).imp_right fun hnone => ?_
      rcases hs1 (names d ++ metaName :: s) with hq | hq
      · exact hq.trans hnone
      · exact hq
    · exact hs2 s hs.symm

/-- The orphan removal opens the metadata directory, or finds nothing in its place. -/
theorem removeOrphanMetadataSidecars_opens {keys : Std.TreeSet Str} {w w' : World}
    (h : run (step deps env) (removeOrphanMetadataSidecars deps d keys) w = (.ok (), w')) (b : Bytes) :
    w.under d [metaName] ≠ some (.file b) := by
  obtain ⟨expected, w1, h1, h2⟩ := run_bind_ok _ |>.mp h
  obtain ⟨events, w2, h3, h4⟩ := run_bind_ok _ |>.mp h2
  have hw : w1 = w := by
    rw [run_ofExcept] at h1
    split at h1
    · cases h1; rfl
    · cases h1
  cases h3
  subst hw
  obtain ⟨rest, hrest⟩ := w1.fs.itinerary_eq_cons (fun _ => false) (names (join d METADATA_DIR_NAME))
  rw [hrest] at h4
  obtain ⟨_, w3, h5, -⟩ := run_bind_ok _ |>.mp h4
  obtain ⟨-, hexec, -⟩ := ioUnlessNotFound_ok h5
  have hnames : names (joinNames (join d METADATA_DIR_NAME) []) = names d ++ [metaName] :=
    names_joinNames d [metaName]
  intro hfile
  rw [World.under, ← hnames] at hfile
  rcases hexec with ⟨_, hok⟩ | hnone
  · rw [readDir_ok hok] at hfile
    cases hfile
  · rw [readDir_notFound hnone] at hfile
    cases hfile

/-! ## Removing deleted objects -/

/-- What is gone once files with the keys `keys` are all that is kept: another
file, or the sidecar of another file. -/
def Deleted (deps : Deps) (d : PathBuf) (keys : Std.TreeSet Str) (w : World) (q : List Name) : Prop :=
  ∃ r b, r ≠ [] ∧ r.head? ≠ some metaName ∧ w.under d r = some (.file b) ∧ keyOf r ∉ keys ∧
    (q = names d ++ r ∨
      ∃ n, normalizeObjectPath (keyOf r) = .ok n ∧ q = names d ++ sidecarNames deps n)

theorem removeDeletedEntry_ok (hd : d ≠ []) {keys : Std.TreeSet Str} {w0 w w' : World}
    {e : WalkEvent Name} (he : e ∈ w0.fs.itinerary (fun rel => rel = [metaName]) (names d))
    (h : run (step deps env) (removeDeletedEntry deps d keys e) w = (.ok (), w')) :
    (∀ q, w'.fs.lookup q = w.fs.lookup q ∨ w'.fs.lookup q = none ∧ Deleted deps d keys w0 q) ∧
      ∀ r, e = .entry r false → keyOf r ∉ keys → w'.under d r = none := by
  cases e with
  | readDir rel =>
    obtain ⟨-, -, rfl⟩ := ioUnlessNotFound_ok h
    exact ⟨fun q => Or.inl (did_frame fun hw => hw), (by simp)⟩
  | entry rel isDir =>
    obtain ⟨_, w1, h1, h⟩ := run_bind_ok _ |>.mp h
    obtain ⟨-, -, rfl⟩ := ioTry_ok h1
    have hvisit : ∀ q, (w.did env (.visit (joinNames d rel))).fs.lookup q = w.fs.lookup q :=
      fun q => did_frame fun hw => hw
    cases isDir with
    | true =>
      cases h
      exact ⟨fun q => Or.inl (hvisit q), (by simp)⟩
    | false =>
      simp only [Bool.false_eq_true, if_false] at h
      obtain ⟨key, w2, h2, h⟩ := run_bind_ok _ |>.mp h
      rw [relativeKey_joinNames deps hd, run_ofExcept] at h2
      cases hkey : normalizeRemoteKey (keyOf rel) with
      | error e => rw [hkey] at h2; cases h2
      | ok k =>
        obtain ⟨rfl, hacc⟩ := normalizeRemoteKey_ok_iff.mp hkey
        rw [hkey] at h2
        cases h2
        by_cases hin : keyOf rel ∈ keys
        · rw [if_pos hin] at h
          cases h
          refine ⟨fun q => Or.inl (hvisit q), fun r hr hnot => ?_⟩
          cases hr
          exact absurd hin hnot
        · rw [if_neg hin] at h
          obtain ⟨_, w3, h3, h⟩ := run_bind_ok _ |>.mp h
          obtain ⟨-, hrm, rfl⟩ := ioContext_ok h3
          obtain ⟨sidecar, w4, h4, h⟩ := run_bind_ok _ |>.mp h
          obtain ⟨-, -, rfl⟩ := ioUnlessNotFound_ok h
          cases hside : metadataSidecarPath deps d (keyOf rel) with
          | error e => rw [hside] at h4; cases h4
          | ok p =>
            rw [hside] at h4
            cases h4
            obtain ⟨n, hn, rfl⟩ := metadataSidecarPath_ok_iff.mp hside
            obtain ⟨hr0, hmeta, -⟩ := accepted_keyOf_iff.mp hacc
            obtain ⟨-, hsome, hfile, -⟩ := FileTree.entry_mem_itinerary _ _ _ _ _ |>.mp he
            have hbody : ∃ b, w0.under d rel = some (.file b) := by
              obtain ⟨node, hnode⟩ := Option.isSome_iff_exists.mp hsome
              cases node with
              | dir => simp [FileTree.isDirAt, hnode] at hfile
              | file b => exact ⟨b, hnode⟩
            obtain ⟨b, hb⟩ := hbody
            have hdel : ∀ q, (q = names d ++ rel ∨ ∃ n, normalizeObjectPath (keyOf rel) = .ok n ∧
                q = names d ++ sidecarNames deps n) → Deleted deps d keys w0 q :=
              fun q hq => ⟨rel, b, hr0, hmeta, hb, hin, hq⟩
            have hpath := names_joinNames d rel
            refine ⟨fun q => ?_, fun r hr _ => ?_⟩
            · rcases @removeFile_did_or env (joinNames d (sidecarNames deps n))
                ((w.did env (.visit (joinNames d rel))).did env (.removeFile (joinNames d rel)))
                q with hq | ⟨hq, hnone⟩
              · rw [hq, removeFile_did hrm, hpath]
                split
                · rename_i hqr
                  exact Or.inr ⟨rfl, hdel q (Or.inl hqr)⟩
                · exact Or.inl (hvisit q)
              · rw [names_joinNames] at hq
                exact Or.inr ⟨hnone, hdel q (Or.inr ⟨n, hn, hq⟩)⟩
            · cases hr
              rcases @removeFile_did_or env (joinNames d (sidecarNames deps n))
                ((w.did env (.visit (joinNames d rel))).did env (.removeFile (joinNames d rel)))
                (names d ++ rel) with hq | ⟨-, hnone⟩
              · rw [World.under, hq, removeFile_did hrm, hpath, if_pos rfl]
              · exact hnone

/-- What a removal that returned took away, and that it took all it should. -/
theorem removeDeletedObjects_ok (hd : d ≠ []) {keys : Std.TreeSet Str} {w w' : World}
    (h : run (step deps env) (removeDeletedObjects deps d keys) w = (.ok (), w')) :
    (∀ q, w'.fs.lookup q = w.fs.lookup q ∨ w'.fs.lookup q = none ∧ Deleted deps d keys w q) ∧
      ∀ r b, r ≠ [] → r.head? ≠ some metaName → w.under d r = some (.file b) → keyOf r ∉ keys →
        w'.under d r = none := by
  obtain ⟨events, w1, h1, h⟩ := run_bind_ok _ |>.mp h
  have hev : events = w.fs.itinerary (fun rel => rel = [metaName]) (names d) ∧ w1 = w := by
    cases h1; exact ⟨rfl, rfl⟩
  obtain ⟨rfl, rfl⟩ := hev
  have hloop := run_fold_ok _
    (fun done rest _ w' => (∀ e ∈ rest, e ∈ w1.fs.itinerary (fun rel => rel = [metaName]) (names d)) ∧
      (∀ q, w'.fs.lookup q = w1.fs.lookup q ∨ w'.fs.lookup q = none ∧ Deleted deps d keys w1 q) ∧
      ∀ r, .entry r false ∈ done → keyOf r ∉ keys → w'.under d r = none)
    ?_ _ [] () w1 () w' ⟨fun e he => he, fun q => Or.inl rfl, (by simp)⟩ h
  · obtain ⟨-, h2, h3⟩ := hloop
    refine ⟨h2, fun r b hr hmeta hb hnot => h3 r ?_ hnot⟩
    rw [List.nil_append, FileTree.entry_mem_itinerary]
    have hb' : w1.fs.lookup (names d ++ r) = some (.file b) := hb
    refine ⟨hr, by rw [hb']; rfl, by simp [FileTree.isDirAt, hb'], fun u hu hur _ => ?_⟩
    rw [decide_eq_false_iff_not]
    rintro rfl
    obtain ⟨s, rfl⟩ := hur
    exact hmeta rfl
  · rintro done e rest ⟨⟩ w2 ⟨⟩ w3 ⟨hI1, hI2, hI3⟩ hrun
    obtain ⟨hs1, hs2⟩ := removeDeletedEntry_ok hd (hI1 e (by simp)) hrun
    refine ⟨fun e' he' => hI1 e' (by simp [he']), fun q => ?_, fun r hr hnot => ?_⟩
    · rcases hs1 q with hq | hq
      · rw [hq]; exact hI2 q
      · exact Or.inr hq
    · rw [List.mem_append, List.mem_singleton] at hr
      rcases hr with hr | hr
      · rcases hs1 (names d ++ r) with hq | hq
        · rw [World.under, hq]; exact hI3 r hr hnot
        · exact hq.1
      · exact hs2 r hr.symm hnot

end RenderMesh.Refresh
