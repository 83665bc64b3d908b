import RenderMesh.Refresh.Reload
import RenderMesh.Refresh.Places

/-!
# Stagings that cannot fail

On a healthy disk a staging makes its calls in an order that nothing in a mirror with
room at every place (`Sheltering`) can upset: what it copies was there, what it writes
has room, and what it removes is still there when it comes to it.

* `prepareStagingDir_returns`: the mirror is copied whatever it holds.
* `sweep_returns`: a walk that removes what it meets comes to its end.
* `stageOriginSync_returns`: when the storage stands still, the staging returns.
-/
namespace RenderMesh.Refresh

open RenderMesh.Core RenderMesh.Mirror RenderMesh.Server

variable {deps : Deps} {env : Env}

/-! ## Calls -/

section
variable (henv : Healthy env)
include henv

theorem createDirAll_returns {p : PathBuf} {w : World} (context : Str)
    (hway : ∀ s b, s <+: names p → w.fs.lookup s ≠ some (.file b)) :
    Returns (step deps env) (fun _ w' => w' = w.did env (.createDirAll p))
      (ioContext (.createDirAll p) context) w :=
  ⟨(), _, ioContext_run (henv.fault _ _) (w.fs.createDirAll_succeeds env.long (henv.names _) hway),
    rfl⟩

theorem readDir_succeeds {p : PathBuf} {t : Tree} (h : t.lookup (names p) = some .dir) :
    ((FsOp.readDir p).exec env.long t).1 = .ok () := by
  simp only [FsOp.exec, t.stat_succeeds env.long h (henv.names _)]

theorem write_succeeds {p : PathBuf} {t : Tree} {body : Bytes} (hp : asDir p = false)
    (hparent : t.lookup (names p).dropLast = some .dir) (hfree : t.lookup (names p) ≠ some .dir) :
    ((FsOp.write p body).exec env.long t).1 = .ok () := by
  simp only [FsOp.exec, hp, FileTree.writeFile_succeeds env.long hparent hfree (henv.names _)]

theorem copy_succeeds {a b : PathBuf} {t : Tree} {body : Bytes}
    (ha : t.lookup (names a) = some (.file body))
    (hparent : t.lookup (names b).dropLast = some .dir) (hfree : t.lookup (names b) ≠ some .dir) :
    ((FsOp.copy a b).exec env.long t).1 = .ok () := by
  simp only [FsOp.exec, FileTree.copyFile, FileTree.readFile_succeeds env.long ha (henv.names _),
    FileTree.writeFile_succeeds env.long hparent hfree (henv.names _)]

theorem removeFile_returns {p : PathBuf} {w : World} {body : Bytes} (context : Str)
    (h : w.fs.lookup (names p) = some (.file body)) :
    Returns (step deps env) (fun _ w' => w' = w.did env (.removeFile p))
      (ioContext (.removeFile p) context) w := by
  refine ⟨(), _, ioContext_run (henv.fault _ _) ?_, rfl⟩
  simp only [FsOp.exec, FileTree.removeFile_succeeds env.long h (henv.names _)]

theorem visit_returns (p : PathBuf) (w : World) :
    Returns (step deps env) (fun _ w' => w' = w.did env (.visit p)) (ioTry (.visit p)) w :=
  ⟨(), _, ioTry_run (henv.fault _ _) rfl, rfl⟩

/-- What is not a file is removed with all that is in it, or is not there. -/
theorem removeDirIfExists_returns {p : PathBuf} {w : World}
    (hway : ∀ s b, s <+: names p → w.fs.lookup s ≠ some (.file b)) :
    Returns (step deps env) (fun _ w' => w' = w.did env (.removeDirAll p))
      (removeDirIfExists deps p) w := by
  refine ⟨(), _, ioUnlessNotFound_run (henv.fault _ _) ?_, rfl⟩
  simp only [FsOp.exec, FileTree.removeDirAll]
  cases h : w.fs.lookup (names p) with
  | none =>
    rcases w.fs.stat_absent env.long h (henv.names _) with ⟨hs, -⟩ | ⟨-, s, b, hp, hb⟩
    · exact Or.inr (by rw [hs])
    · exact absurd hb (hway s b hp)
  | some n =>
    cases n with
    | dir => exact Or.inl ⟨(), by rw [w.fs.stat_succeeds env.long h (henv.names _)]⟩
    | file b => exact absurd h (hway _ b List.prefix_rfl)

end

/-! ## Copying the mirror -/

/-- A tree has no file above a directory. -/
theorem no_file_above {t : Tree} {p : List Name} (h : t.lookup p = some .dir) {s : List Name}
    {b : Bytes} (hs : s <+: p) : t.lookup s ≠ some (.file b) := by
  obtain ⟨r, rfl⟩ := hs
  intro hb
  by_cases hr : r = []
  · rw [hr, List.append_nil, hb] at h
    cases h
  · rw [t.above_dir hr (by rw [h]; rfl)] at hb
    cases hb

section
variable (henv : Healthy env) {source target : PathBuf}
  (hsrc : ∀ r, ¬ [syncName] <+: names source ++ r) (ht : InStaging target)
include henv hsrc ht

omit hsrc ht in
theorem copyEntry_returns {w0 w : World} {known : List (List Name)} {done rest : List (WalkEvent Name)}
    {e : WalkEvent Name} (he : e ∈ w0.fs.itinerary (fun _ => false) (names source))
    (hfirst : ParentsFirst known (e :: rest)) (hroot : w0.under source [] = some .dir)
    (hw : Copying source target w0 done w) (hknown : ∀ r ∈ known, w.under target r = some .dir) :
    Returns (step deps env) (fun _ _ => True) (copyEntry deps source target e) w := by
  cases e with
  | readDir rel =>
    have hdir : w.fs.lookup (names (joinNames source rel)) = some .dir := by
      rw [names_joinNames]
      refine (hw.same rel).trans ?_
      rcases w0.fs.readDir_mem_itineraryFrom _ _ _ _ _ he with rfl | h
      · exact hroot
      · exact h
    exact ⟨(), _, ioContext_run (henv.fault _ _) (readDir_succeeds henv hdir), trivial⟩
  | entry rel isDir =>
    obtain ⟨hrel, hsome, hd, -⟩ := FileTree.entry_mem_itinerary _ _ _ _ _ |>.mp he
    obtain ⟨hparent, -⟩ := hfirst
    refine Returns.bind ((visit_returns henv _ w).mono fun _ w1 hw1 => ?_)
    subst hw1
    have hvisit : ∀ q, (w.did env (.visit (joinNames source rel))).fs.lookup q = w.fs.lookup q :=
      fun q => did_frame fun hw => hw
    cases isDir with
    | true =>
      have hthere : w0.under source rel = some .dir := by
        simpa [FileTree.isDirAt, World.under] using hd.symm
      refine (createDirAll_returns henv _ fun s b hs hb => ?_).mono fun _ _ _ => trivial
      rw [hvisit] at hb
      rw [names_joinNames] at hs
      rcases prefix_append_cases hs with h | ⟨r, rfl, hr⟩
      · exact no_file_above (by simpa [World.under] using hw.top) h hb
      · -- what is on the way is a directory in the mirror
        have hr0 : r ≠ [] := by
          rintro rfl
          exact absurd (hw.top.symm.trans hb) (by simp)
        rcases hw.other r hr0 with h | h
        · exact no_file_above (p := names source ++ rel) hthere
            ((List.prefix_append_right_inj (names source)).mpr hr) (h.symm.trans hb)
        · exact absurd (h.symm.trans hb) (by simp)
    | false =>
      have hfile : ∃ body, w0.under source rel = some (.file body) := by
        cases hs : w0.fs.lookup (names source ++ rel) with
        | none => rw [hs] at hsome; cases hsome
        | some n =>
          cases n with
          | dir => simp [FileTree.isDirAt, hs] at hd
          | file body => exact ⟨body, hs⟩
      obtain ⟨body, hs⟩ := hfile
      have hsource : (w.did env (.visit (joinNames source rel))).fs.lookup
          (names (joinNames source rel)) = some (.file body) := by
        rw [hvisit, names_joinNames]
        exact (hw.same rel).trans hs
      refine ⟨(), _, ioContext_run (henv.fault _ _)
        (copy_succeeds henv hsource ?_ ?_), trivial⟩
      · rw [hvisit, names_joinNames, List.dropLast_append_of_ne_nil hrel]
        exact hknown _ hparent
      · rw [hvisit, names_joinNames]
        intro hdir
        rcases hw.other rel hrel with h | h
        · exact absurd (hdir.symm.trans (h.trans hs)) (by simp)
        · exact absurd (hdir.symm.trans h) (by simp)

/-- The copy returns, whatever the mirror holds. -/
theorem copyDirContents_returns {w : World} (hroot : w.under source [] = some .dir)
    (hway : ∀ s b, s <+: names target → w.fs.lookup s ≠ some (.file b))
    (hclean : ∀ r, r ≠ [] → w.under target r = none) :
    Returns (step deps env) (fun _ _ => True) (copyDirContents deps source target) w := by
  refine Returns.bind ((createDirAll_returns henv _ hway).with_run.mono fun _ w1 hw1 => ?_)
  obtain ⟨hstart, hsrc1⟩ := Copying.start hsrc ht hclean hw1.2
  refine Returns.bind ⟨_, w1, rfl, ?_⟩
  refine (Returns.fold (fun done rest _ w' =>
    done ++ rest = w1.fs.itinerary (fun _ => false) (names source) ∧
      Copying source target w1 done w' ∧
      ∃ known, ParentsFirst known rest ∧ ∀ r ∈ known, w'.under target r = some .dir) ?_ _ [] () w1
    ⟨rfl, hstart, [[]], w1.fs.itinerary_parentsFirst _ _, ?_⟩).mono fun _ _ _ => trivial
  · rintro done e rest ⟨⟩ w2 ⟨hsplit, hcopying, known, hfirst, hknown⟩
    have he : e ∈ w1.fs.itinerary (fun _ => false) (names source) := by rw [← hsplit]; simp
    refine (copyEntry_returns henv he hfirst ((hsrc1 []).trans hroot) hcopying
      hknown).with_run.mono fun _ w3 hw3 => ?_
    have hnext := hcopying.next hsrc ht he hw3.2
    have hkept : ∀ r ∈ known, w3.under target r = some .dir := fun r hr => by
      rcases (copyEntry_ok hsrc ht he hcopying.same hcopying.top hw3.2).1 r with h | ⟨hr0, h⟩
      · exact h.trans (hknown r hr)
      · rcases hcopying.other r hr0 with h' | h'
        · exact h.trans (h'.symm.trans (hknown r hr))
        · exact absurd ((hknown r hr).symm.trans h') (by simp)
    refine ⟨by simpa using hsplit, hnext, ?_⟩
    cases e with
    | readDir rel => exact ⟨known, hfirst, hkept⟩
    | entry rel isDir =>
      cases isDir with
      | false => exact ⟨known, hfirst.2, hkept⟩
      | true =>
        refine ⟨rel :: known, hfirst.2, fun r hr => ?_⟩
        rcases List.mem_cons.mp hr with rfl | hr
        · have hthere := (FileTree.entry_mem_itinerary _ _ _ _ _ |>.mp he).2.2.1
          rw [hnext.visited r true (by simp)]
          simpa [FileTree.isDirAt, World.under] using hthere.symm
        · exact hkept r hr
  · intro r hr
    rw [List.mem_singleton.mp hr]
    exact hstart.top

end

/-! ## The staging directory -/

section
variable (henv : Healthy env) {id : Str} (hid : validateOriginId id = .ok ()) {staging : PathBuf}
  (hs : InStaging staging)
include henv hid hs

/-- With a mirror or without, the staging directory is prepared. -/
theorem prepareStagingDir_returns {w : World} (hmirror : ∀ b, w.fs.lookup (names id) ≠ some (.file b))
    (hway : ∀ s b, s <+: names staging → w.fs.lookup s ≠ some (.file b)) :
    Returns (step deps env) (fun _ w' => CopyOf id staging w w')
      (prepareStagingDir deps id staging) w := by
  have hne : names staging ≠ [] := by
    rintro h
    rw [InStaging, h] at hs
    simp at hs
  have hsrc : ∀ r, ¬ [syncName] <+: names id ++ r :=
    fun r => staging_not_prefix_origin hid (List.prefix_append _ _)
  have hreturns : Returns (step deps env) (fun _ _ => True) (prepareStagingDir deps id staging) w := by
    refine Returns.bind ((removeDirIfExists_returns henv hway).with_run.mono fun _ w1 hw1 => ?_)
    obtain ⟨rfl, hrun⟩ := hw1
    have hclean := removeDirIfExists_ok hne hrun
    set w1 := w.did env (.removeDirAll staging)
    have hway1 : ∀ s b, s <+: names staging → w1.fs.lookup s ≠ some (.file b) := fun s b hp hb => by
      by_cases hs' : names staging <+: s
      · obtain ⟨r, rfl⟩ := hs'
        exact absurd (hb.symm.trans (hclean r)) (by simp)
      · rw [did_frame (o := .removeDirAll staging) hs'] at hb
        exact hway s b hp hb
    have hmirror1 : ∀ r, w1.under id r = w.under id r := fun r => by
      have := (@quiet_of_staged deps env _ _ (removeDirIfExists_within deps hs) w).files _ (hsrc r)
      rwa [hrun] at this
    have hprobe := henv.metadata (t := w1.fs) (origin_asDir hid)
    refine Returns.bind ⟨_, _, io_run (henv.fault _ _), ?_⟩
    have hw2 : (w1.did env (.metadata id)).fs = w1.fs := rfl
    cases hr : ((FsOp.metadata id).exec env.long w1.fs).1 with
    | error e =>
      exact (createDirAll_returns henv (w := w1.did env (.metadata id)) _ hway1).mono
        fun _ _ _ => trivial
    | ok d =>
      have hthere : w1.under id [] = some .dir := by
        rw [hr] at hprobe
        rw [World.under, List.append_nil]
        cases hl : w1.fs.lookup (names id) with
        | none => rw [hl] at hprobe; cases hprobe
        | some n =>
          cases n with
          | dir => rfl
          | file b =>
            have := hmirror1 []
            rw [World.under, World.under, List.append_nil, hl] at this
            exact absurd this.symm (hmirror b)
      exact copyDirContents_returns henv hsrc hs (w := w1.did env (.metadata id)) hthere hway1
        fun r _ => hclean r
  obtain ⟨u, w', hrun, -⟩ := hreturns
  have hends := ends_iff.mp (@prepareStagingDir_ends deps env id hid staging hs (fun _ _ => False)
    (henv.not_probeFails hid) w) fun _ _ => not_false
  rw [hrun] at hends
  exact ⟨u, w', hrun, hends u rfl⟩

end

/-! ## Files put at their places -/

section
variable (henv : Healthy env) {d : PathBuf} {q : List Name} {w : World}
  (htop : w.under d [] = some .dir)
include htop

theorem Room.way_to (h : Room (w.under d) q) (hq : q ≠ []) {s : List Name} {b : Bytes}
    (hs : s <+: (names d ++ q).dropLast) : w.fs.lookup s ≠ some (.file b) := by
  rw [List.dropLast_append_of_ne_nil hq] at hs
  rcases prefix_append_cases hs with h' | ⟨r, rfl, hr⟩
  · exact no_file_above (by simpa [World.under] using htop) h'
  · by_cases hr0 : r = []
    · rw [hr0]
      exact fun hb => absurd (htop.symm.trans hb) (by simp)
    · refine h.way r b hr0 (hr.trans (List.dropLast_prefix q)) ?_
      rintro rfl
      have := hr.length_le
      rw [List.length_dropLast] at this
      have := List.length_pos_iff.mpr hq
      omega

include henv

/-- A file is put where there is room. -/
theorem put_returns {p : PathBuf} (context : PathBuf → Str) (context' : Str) (body : Bytes)
    (hpath : names p = names d ++ q) (hq : q ≠ []) (hg : GoodSegments p) (hp : asDir p = false)
    (hroom : Room (w.under d) q) :
    Returns (step deps env) (fun _ w1 => Returns (step deps env)
        (fun _ w2 => w2.under d [] = some .dir ∧ Placing q (w.under d) (w2.under d))
        (ioContext (.write p body) context') w1)
      (withParent p fun parent => ioContext (.createDirAll parent) (context parent)) w := by
  have hparent : ∃ parent, parent? p = some parent ∧ names parent = names d ++ q.dropLast := by
    cases hpar : parent? p with
    | some parent =>
      exact ⟨parent, rfl, by rw [names_parent? hg hpar, hpath, List.dropLast_append_of_ne_nil hq]⟩
    | none =>
      -- a path without a parent has no names
      have hnil : (segments p).rdropWhile blank = [] := by
        unfold parent? at hpar
        split at hpar
        · assumption
        · cases hpar
      have hnames : names p = [] := by rw [names, ← filterMap_rdropWhile_blank, hnil]; rfl
      rw [hpath] at hnames
      exact absurd (List.append_eq_nil_iff.mp hnames).2 hq
  obtain ⟨parent, hpar, hnames⟩ := hparent
  have hway : ∀ s b, s <+: names parent → w.fs.lookup s ≠ some (.file b) := fun s b hs => by
    rw [hnames] at hs
    exact Room.way_to htop hroom hq (by rwa [List.dropLast_append_of_ne_nil hq])
  rw [withParent, hpar]
  refine (createDirAll_returns henv _ hway).with_run.mono fun _ w1 hw1 => ?_
  obtain ⟨rfl, hrun⟩ := hw1
  obtain ⟨-, hmk, -⟩ := ioContext_ok hrun
  have hgrow : ∀ r, (w.did env (.createDirAll parent)).under d r = w.under d r ∨
      (r <+: q.dropLast ∧ w.under d r = none ∧
        (w.did env (.createDirAll parent)).under d r = some .dir) := fun r => by
    have := @createDirAll_did_or env parent w (names d ++ r)
    rwa [hnames, List.prefix_append_right_inj] at this
  have hup : ∀ r, r <+: q.dropLast → r <+: q ∧ r ≠ q := fun r hr => by
    refine ⟨hr.trans (List.dropLast_prefix q), ?_⟩
    rintro rfl
    have hlen := hr.length_le
    rw [List.length_dropLast] at hlen
    have := List.length_pos_iff.mpr hq
    omega
  have hfree : (w.did env (.createDirAll parent)).under d q ≠ some .dir := by
    rcases hgrow q with h | ⟨h, -⟩
    · exact h ▸ hroom.free
    · exact absurd rfl (hup q h).2
  have hput : ((FsOp.write p body).exec env.long (w.did env (.createDirAll parent)).fs).1 = .ok () := by
    refine write_succeeds henv hp ?_ ?_
    · rw [hpath, List.dropLast_append_of_ne_nil hq, ← hnames]
      exact createDirAll_did hmk
    · rw [hpath]
      exact hfree
  refine ⟨(), _, ioContext_run (henv.fault _ _) hput, ?_, fun r => ?_⟩
  · rw [World.under, write_did hput, if_neg (by rw [hpath]; simpa using hq.symm)]
    rcases hgrow [] with h | ⟨-, -, h⟩
    · exact h.trans htop
    · exact h
  · rw [World.under, write_did hput, hpath]
    by_cases hr : r = q
    · exact Or.inr (Or.inl ⟨hr, body, if_pos (by rw [hr])⟩)
    · rw [if_neg fun he => hr (List.append_cancel_left he)]
      rcases hgrow r with h | ⟨hr', hnone, h⟩
      · exact Or.inl h
      · exact Or.inr (Or.inr ⟨(hup r hr').1, hr, hnone, h⟩)

end

theorem returns_ofExcept_bind {α β : Type} {x : Except Error α} {a : α} {f : α → Async β}
    {Q : β → World → Prop} {w : World} (hx : x = .ok a) (h : Returns (step deps env) Q (f a) w) :
    Returns (step deps env) Q (Prog.ofExcept x >>= f) w :=
  Returns.bind ⟨a, w, by rw [hx]; rfl, h⟩

/-- The staging directory `d` is there, with a tree of the kind `I`. -/
structure Stage (I : (List Name → Option (Node Bytes)) → Prop) (d : PathBuf) (w : World) : Prop where
  top : w.under d [] = some .dir
  tree : I (w.under d)

/-- From step `t0` on the storage lists `summaries` and has their objects. -/
structure Steady (env : Env) (id : Str) (t0 : Nat) (summaries : List RemoteObjectSummary) : Prop where
  listing : ∀ t, t0 ≤ t → env.listObjects t id = .ok summaries
  objects : ∀ s ∈ summaries, ∃ object, (∀ t, t0 ≤ t → env.getObject t id s.key = .ok object) ∧
    ∀ now, validateDownloadedObject s.key (fileState s s.key now) object = .ok ()

section
variable (henv : Healthy env) {keys : Str → Prop} (hkeys : Storable keys)
  {I : (List Name → Option (Node Bytes)) → Prop} (hI : Sheltering deps keys I) {d : PathBuf}
  (hd : d ≠ []) (hg : GoodSegments d)
include henv hkeys hI hd hg

/-- Both files of an object are put at their places. -/
theorem writeObject_returns {object : RemoteObject} (hk : keys object.key) {w : World}
    (hw : Stage I d w) :
    Returns (step deps env) (fun _ => Stage I d) (writeObject deps d object) w := by
  have hc := hkeys.canonical _ hk
  have hbody : Place deps keys (names object.key) := ⟨_, hk, Or.inl rfl⟩
  have hside : Place deps keys (sidecarNames deps object.key) := ⟨_, hk, Or.inr rfl⟩
  refine returns_ofExcept_bind (normalizeRemoteKey_ok_iff.mpr ⟨rfl, hc.accepted⟩) ?_
  refine returns_ofExcept_bind ((remoteObjectPath_ok_iff hd).mpr ⟨rfl, hc.accepted⟩) ?_
  refine Returns.bind ((put_returns henv hw.top _ _ _ (names_join d _) (hkeys.names_ne_nil hk)
    (hg.join hc.accepted) ((asDir_join _ _).trans (asDir_of_plain hc.plain))
    (hI.room hw.tree hbody)).mono fun _ w1 h1 => Returns.bind (h1.mono fun _ w2 h2 => ?_))
  have hw2 := hI.placing hw.tree hbody h2.2
  refine returns_ofExcept_bind (metadataSidecarPath_ok_iff.mpr ⟨_, hc.normalized, rfl⟩) ?_
  refine Returns.bind ((put_returns henv h2.1 _ _ _ (names_joinNames d _) (List.cons_ne_nil _ _)
    (hg.joinNames _) (asDir_joinNames d (List.cons_ne_nil _ _))
    (hI.room hw2 hside)).mono fun _ w3 h3 => h3.mono fun _ w4 h4 => ?_)
  exact ⟨h4.1, hI.placing hw2 hside h4.2⟩

variable {id : Str} {t0 : Nat} {summaries : List RemoteObjectSummary}
  (hsteady : Steady env id t0 summaries) (hlisted : ∀ s ∈ summaries, keys s.key)
include hsteady hlisted

/-- A listed object is downloaded. -/
theorem downloadObject_returns {index : OriginFreshnessIndex} {now : Nat}
    (hindex : buildOriginIndex id summaries now = .ok index) {key : Str} (hkey : key ∈ index.files)
    (n : Nat) {w : World} (hw : Stage I d w) (hclock : t0 ≤ w.clock) :
    Returns (step deps env) (fun _ w' => Stage I d w' ∧ t0 ≤ w'.clock)
      (downloadObject deps id d index n key) w := by
  obtain ⟨st, hst⟩ := Option.isSome_iff_exists.mp (Std.TreeMap.mem_iff_isSome_getElem?.mp hkey)
  obtain ⟨s, hs, rfl, rfl⟩ := buildOriginIndex_state hindex hst
  obtain ⟨object, hget, hvalid⟩ := hsteady.objects s hs
  have hcall : run (step deps env) (call (.getObject id s.key)) w = (.ok (.ok object), w.tick) := by
    rw [call, run_perform]
    simp [step, hget w.clock hclock, reply]
  have hw1 : Stage I d w.tick := ⟨hw.top, hw.tree⟩
  have hobject : keys object.key := (validateDownloadedObject_ok (hvalid now)).1 ▸ hlisted s hs
  refine Returns.bind ⟨_, _, hcall, ?_⟩
  refine returns_ofExcept_bind (a := object) rfl ?_
  refine returns_ofExcept_bind (a := fileState s s.key now) (by rw [hst]) ?_
  refine returns_ofExcept_bind (hvalid now) ?_
  refine Returns.bind ((writeObject_returns henv hkeys hI hd hg hobject hw1).with_run.mono
    fun _ w2 hw2 => ⟨_, _, rfl, hw2.1, ?_⟩)
  have := run_clock deps env hw2.2
  exact (Nat.le_succ_of_le hclock).trans this

theorem downloads_returns {index : OriginFreshnessIndex} {now : Nat}
    (hindex : buildOriginIndex id summaries now = .ok index) {changed : List Str}
    (hchanged : ∀ k ∈ changed, k ∈ index.files) (n : Nat) {w : World} (hw : Stage I d w)
    (hclock : t0 ≤ w.clock) :
    Returns (step deps env) (fun _ => Stage I d)
      (Prog.fold (downloadObject deps id d index) n changed) w := by
  refine (Returns.fold (fun _ rest _ w' => (∀ k ∈ rest, k ∈ index.files) ∧
    Stage I d w' ∧ t0 ≤ w'.clock) ?_ changed [] n w ⟨hchanged, hw, hclock⟩).mono
    fun _ _ h => h.2.1
  rintro _ key rest n w1 ⟨hrest, hw1, hclock1⟩
  exact (downloadObject_returns henv hkeys hI hd hg hsteady hlisted hindex (hrest key (by simp)) n hw1
    hclock1).mono fun _ w2 h2 => ⟨fun k hk => hrest k (by simp [hk]), h2⟩

end

/-! ## Removals -/

section
variable (henv : Healthy env) {keys : Str → Prop} (hkeys : Storable keys)
  {I : (List Name → Option (Node Bytes)) → Prop} (hI : Sheltering deps keys I) {d : PathBuf}
include henv

/-- A file goes that is there, or may be missing. -/
theorem removeFileUnless_returns {q : List Name} {w : World} (context : Str)
    (htop : w.under d [] = some .dir) (hroom : Room (w.under d) q) :
    Returns (step deps env) (fun _ w' => w' = w.did env (.removeFile (joinNames d q)))
      (ioUnlessNotFound (.removeFile (joinNames d q)) context) w := by
  refine ⟨(), _, ioUnlessNotFound_run (henv.fault _ _) ?_, rfl⟩
  have hnames := names_joinNames d q
  simp only [FsOp.exec, hnames]
  cases hq : w.under d q with
  | none =>
    refine Or.inr ?_
    rcases w.fs.stat_absent env.long hq (henv.names _) with ⟨hs, -⟩ | ⟨-, s, b, hp, hb⟩
    · rw [FileTree.removeFile, hs]
    · exact absurd hb (no_file_of_clearWay hroom.way htop hq s b hp)
  | some node =>
    cases node with
    | dir => exact absurd hq hroom.free
    | file b => exact Or.inl ⟨(), by rw [FileTree.removeFile_succeeds env.long hq (henv.names _)]⟩

theorem readDirUnless_returns {p : PathBuf} {w : World} (context : Str)
    (hway : ∀ s b, s <+: names p → w.fs.lookup s ≠ some (.file b)) :
    Returns (step deps env) (fun _ w' => w' = w.did env (.readDir p))
      (ioUnlessNotFound (.readDir p) context) w := by
  refine ⟨(), _, ioUnlessNotFound_run (henv.fault _ _) ?_, rfl⟩
  simp only [FsOp.exec]
  cases hp : w.fs.lookup (names p) with
  | none =>
    rcases w.fs.stat_absent env.long hp (henv.names _) with ⟨hs, -⟩ | ⟨-, s, b, hp', hb⟩
    · exact Or.inr (by rw [hs])
    · exact absurd hb (hway s b hp')
  | some node =>
    cases node with
    | dir => exact Or.inl ⟨(), by rw [w.fs.stat_succeeds env.long hp (henv.names _)]⟩
    | file b => exact absurd hp (hway _ b List.prefix_rfl)


/-- From `w` to `w'` at most files went, of those that `gone` speaks of. -/
def Removing (d : PathBuf) (gone : List Name → Prop) (w w' : World) : Prop :=
  ∀ q, w'.under d q = w.under d q ∨ (gone q ∧ w.under d q ≠ some .dir ∧ w'.under d q = none)

omit henv in
include hI in
theorem Stage.removing {gone : List Name → Prop} {w w' : World} (hw : Stage I d w)
    (h : Removing d gone w w') : Stage I d w' := by
  refine ⟨?_, hI.thin hw.tree fun r _ => (h r).imp_right fun h => h.2.2⟩
  rcases h [] with hs | ⟨-, hs, -⟩
  · exact hs.trans hw.top
  · exact absurd hw.top hs

omit henv in
theorem removing_did (o : FsOp) (ho : (Op.fs o).Reads) (gone : List Name → Prop) (w : World) :
    Removing d gone w (w.did env o) := fun _ => Or.inl (did_frame (ho _))

omit henv in
theorem Removing.trans {gone : List Name → Prop} {a b c : World} (h1 : Removing d gone a b)
    (h2 : Removing d gone b c) : Removing d gone a c := by
  intro q
  rcases h2 q with hs | ⟨hg, hd, hn⟩
  · rcases h1 q with hs' | ⟨hg, hd, hn⟩
    · exact Or.inl (hs.trans hs')
    · exact Or.inr ⟨hg, hd, hs.trans hn⟩
  · rcases h1 q with hs' | ⟨-, hd', -⟩
    · exact Or.inr ⟨hg, hs' ▸ hd, hn⟩
    · exact Or.inr ⟨hg, hd', hn⟩

omit henv in
theorem removing_removeFile {p : PathBuf} {q : List Name} (hp : names p = names d ++ q) {w : World}
    (hq : w.under d q ≠ some .dir) {gone : List Name → Prop} (hgone : gone q) :
    Removing d gone w (w.did env (.removeFile p)) := by
  intro r
  rcases @removeFile_did_or env p w (names d ++ r) with hs | ⟨hr, hs⟩
  · exact Or.inl hs
  · rw [hp] at hr
    obtain rfl := List.append_cancel_left hr
    exact Or.inr ⟨hgone, hq, hs⟩

omit henv in
include hI in
/-- A walk over the stage that removes the file at hand, and perhaps one where the walk
does not go, returns when each of its turns does. -/
theorem sweep_returns (base : List Name) (beside : List Name → Prop)
    {f : WalkEvent Name → Async Unit} {start : PathBuf} (hstart : names start = names d ++ base)
    {skip : List Name → Bool} {w0 : World} (hw0 : Stage I d w0)
    (hbeside : ∀ r b, r ≠ [] → w0.under d (base ++ r) = some (.file b) →
      (∀ u, u ≠ [] → u <+: r → u ≠ r → skip u = false) → ¬ beside (base ++ r))
    (hstep : ∀ e w, Stage I d w →
      (∀ r, e = .readDir r → r = [] ∨ w.under d (base ++ r) = some .dir) →
      (∀ r, e = .entry r false → r ≠ [] ∧ ¬ beside (base ++ r) ∧
        ∃ b, w.under d (base ++ r) = some (.file b)) →
      Returns (step deps env) (fun _ w' => Removing d
        (fun q => beside q ∨ ∃ r, e = .entry r false ∧ q = base ++ r) w w') (f e) w) :
    Returns (step deps env) (fun _ => Stage I d)
      (Prog.each f (w0.fs.itinerary skip (names start))) w0 := by
  have hat : ∀ r, w0.fs.lookup (names start ++ r) = w0.under d (base ++ r) := fun r => by
    rw [hstart, List.append_assoc]
    rfl
  have hentry : ∀ r, .entry r false ∈ w0.fs.itinerary skip (names start) → r ≠ [] ∧
      ¬ beside (base ++ r) ∧ ∃ b, w0.under d (base ++ r) = some (.file b) := fun r hr => by
    obtain ⟨hr0, hsome, hfile, hskip⟩ := FileTree.entry_mem_itinerary _ _ _ _ _ |>.mp hr
    obtain ⟨node, hnode⟩ := Option.isSome_iff_exists.mp hsome
    cases node with
    | dir => simp [FileTree.isDirAt, hnode] at hfile
    | file b => exact ⟨hr0, hbeside r b hr0 (hat r ▸ hnode) hskip, b, hat r ▸ hnode⟩
  refine (Returns.fold (fun _ rest _ w' => (∀ e ∈ rest, e ∈ w0.fs.itinerary skip (names start)) ∧
    rest.Nodup ∧ Stage I d w' ∧
    (∀ r, .entry r false ∈ rest → w'.under d (base ++ r) = w0.under d (base ++ r)) ∧
    ∀ r, w0.under d r = some .dir → w'.under d r = some .dir) ?_ _ [] () w0
    ⟨fun e he => he, w0.fs.itinerary_nodup _ _, hw0, fun _ _ => rfl, fun _ h => h⟩).mono
    fun _ _ h => h.2.2.1
  rintro _ e rest ⟨⟩ w ⟨hrest, hnodup, hw, hfiles, hdirs⟩
  refine (hstep e w hw ?_ ?_).mono fun _ w' hrem => ?_
  · rintro r rfl
    exact (w0.fs.readDir_mem_itineraryFrom _ _ _ _ _ (hrest _ (by simp))).imp_right
      fun h => hdirs _ (hat r ▸ h)
  · rintro r rfl
    obtain ⟨hr0, hoff, hb⟩ := hentry r (hrest _ (by simp))
    exact ⟨hr0, hoff, by rwa [hfiles r (by simp)]⟩
  · refine ⟨fun e' he' => hrest e' (by simp [he']), (List.nodup_cons.mp hnodup).2,
      hw.removing hI hrem, fun r hr => ?_, fun r hr => ?_⟩
    · -- what is still to come is not what went
      rcases hrem (base ++ r) with hs | ⟨hb | ⟨r', rfl, he⟩, -, -⟩
      · exact hs.trans (hfiles r (by simp [hr]))
      · exact absurd hb (hentry r (hrest _ (by simp [hr]))).2.1
      · obtain rfl := List.append_cancel_left he
        exact absurd hr (List.nodup_cons.mp hnodup).1
    · rcases hrem r with hs | ⟨-, hs, -⟩
      · exact hs.trans (hdirs r hr)
      · exact absurd (hdirs r hr) hs

include hkeys hI

/-- Whatever is listed now, the files of the other keys go. -/
theorem removeDeletedObjects_returns (hd : d ≠ []) (remote : Std.TreeSet Str) {w : World}
    (hw : Stage I d w) :
    Returns (step deps env) (fun _ => Stage I d) (removeDeletedObjects deps d remote) w := by
  refine Returns.bind ⟨_, w, rfl, ?_⟩
  refine sweep_returns hI [] (fun q => q.head? = some metaName) (by rw [List.append_nil]) hw ?_ ?_
  · intro r b hr hb hskip hmeta
    obtain ⟨s, rfl⟩ := List.singleton_prefix_iff_head?_eq_some.mpr hmeta
    by_cases hs : s = []
    · rw [hs] at hb
      exact metadata_not_file (hI.files hw.tree) hkeys b hb
    · simpa using hskip [metaName] (by simp) (List.prefix_append _ _) (by simpa using hs)
  · intro e w1 hw1 hdir hfile
    cases e with
    | readDir rel =>
      have hthere : w1.under d rel = some .dir := by
        rcases hdir rel rfl with rfl | h
        · exact hw1.top
        · exact h
      refine (readDirUnless_returns henv _ fun s b hs => ?_).mono fun _ w2 h2 => ?_
      · rw [names_joinNames] at hs
        exact no_file_above hthere hs
      · rw [h2]
        exact removing_did (.readDir _) (fun _ hw => hw) _ _
    | entry rel isDir =>
      refine Returns.bind ((visit_returns henv _ w1).mono fun _ w2 h2 => ?_)
      subst h2
      have hvisit : Removing d (fun q => q.head? = some metaName ∨
          ∃ r, WalkEvent.entry rel isDir = .entry r false ∧ q = [] ++ r) w1
          (w1.did env (.visit (joinNames d rel))) := removing_did (.visit _) (fun _ hw => hw) _ _
      have hw2 := hw1.removing hI hvisit
      cases isDir with
      | true => exact ⟨(), _, rfl, hvisit⟩
      | false =>
        obtain ⟨hrel, hmeta, b, hb⟩ := hfile rel rfl
        obtain ⟨k, hk, rfl⟩ := key_of_file (hI.files hw1.tree) hrel hmeta hb
        have hc := hkeys.canonical k hk
        refine returns_ofExcept_bind (a := k) ?_ ?_
        · rw [relativeKey_joinNames deps hd, keyOf_names hc.plain]
          exact normalizeRemoteKey_ok_iff.mpr ⟨rfl, hc.accepted⟩
        · split
          · exact ⟨(), _, rfl, hvisit⟩
          · have hb2 : (w1.did env (.visit (joinNames d (names k)))).under d (names k) =
                some (.file b) := hb
            have hthere : (w1.did env (.visit (joinNames d (names k)))).fs.lookup
                (names (joinNames d (names k))) = some (.file b) := by
              rw [names_joinNames]
              exact hb2
            refine Returns.bind ((removeFile_returns henv _ hthere).mono fun _ w3 h3 => ?_)
            subst h3
            have hgone := hvisit.trans (@removing_removeFile env d _ _ (names_joinNames d (names k)) _
              (by rw [hb2]; simp) _ (Or.inr ⟨_, rfl, rfl⟩))
            have hw3 := hw1.removing hI hgone
            have hroom := hI.room hw3.tree (q := sidecarNames deps k) ⟨k, hk, Or.inr rfl⟩
            refine returns_ofExcept_bind (metadataSidecarPath_ok_iff.mpr ⟨_, hc.normalized, rfl⟩) ?_
            refine (removeFileUnless_returns henv _ hw3.top hroom).mono fun _ w4 h4 => ?_
            subst h4
            exact hgone.trans (removing_removeFile (names_joinNames d _) hroom.free (Or.inl rfl))

omit henv hkeys hI in
theorem mapM_succeeds {α β ε : Type} {f : α → Except ε β} {l : List α} (h : ∀ x ∈ l, ∃ y, f x = .ok y) :
    ∃ ys, l.mapM f = .ok ys := by
  induction l with
  | nil => exact ⟨[], rfl⟩
  | cons x l ih =>
    obtain ⟨y, hy⟩ := h x (by simp)
    obtain ⟨ys, hys⟩ := ih fun z hz => h z (by simp [hz])
    exact ⟨y :: ys, by rw [List.mapM_cons, hy]; simp [bind, Except.bind, hys, pure, Except.pure]⟩

theorem removeOrphanMetadataSidecars_returns {listed : List Str} (hlisted : ∀ k ∈ listed, keys k)
    {w : World} (hw : Stage I d w) :
    Returns (step deps env) (fun _ => Stage I d)
      (removeOrphanMetadataSidecars deps d (.ofList listed)) w := by
  obtain ⟨expected, hexpected⟩ := mapM_succeeds (f := metadataSidecarPath deps d)
    (l := (Std.TreeSet.ofList listed).toList) fun k hk => by
      have hk' : k ∈ listed := by
        simpa [Std.TreeSet.mem_toList, Std.TreeSet.mem_ofList] using hk
      exact ⟨_, metadataSidecarPath_ok_iff.mpr ⟨k, (hkeys.canonical k (hlisted k hk')).normalized, rfl⟩⟩
  refine returns_ofExcept_bind hexpected (Returns.bind ⟨_, w, rfl, ?_⟩)
  have hmeta : names (join d METADATA_DIR_NAME) = names d ++ [metaName] := names_joinNames d [metaName]
  refine sweep_returns hI [metaName] (fun _ => False) hmeta hw (fun _ _ _ _ _ h => h) ?_
  intro e w1 hw1 hdir hfile
  cases e with
  | readDir rel =>
    refine (readDirUnless_returns henv _ fun s b hs hb => ?_).mono fun _ w2 h2 => ?_
    · -- the metadata directory may be missing
      rw [names_joinNames, hmeta, List.append_assoc] at hs
      rcases hdir rel rfl with rfl | h
      · rcases prefix_append_cases hs with h | ⟨r, rfl, hr⟩
        · exact no_file_above (by simpa [World.under] using hw1.top) h hb
        · rcases prefix_singleton hr with rfl | rfl
          · exact metadata_not_file (hI.files hw1.tree) hkeys b hb
          · exact absurd (hw1.top.symm.trans hb) (by simp)
      · exact no_file_above h hs hb
    · rw [h2]
      exact removing_did (.readDir _) (fun _ hw => hw) _ _
  | entry rel isDir =>
    refine Returns.bind ((visit_returns henv _ w1).mono fun _ w2 h2 => ?_)
    subst h2
    have hvisit : Removing d (fun q => False ∨
        ∃ r, WalkEvent.entry rel isDir = .entry r false ∧ q = [metaName] ++ r) w1
        (w1.did env (.visit (joinNames (join d METADATA_DIR_NAME) rel))) :=
      removing_did (.visit _) (fun _ hw => hw) _ _
    cases isDir with
    | true => exact ⟨(), _, rfl, hvisit⟩
    | false =>
      simp only [Bool.false_eq_true, if_false]
      split
      · exact ⟨(), _, rfl, hvisit⟩
      · obtain ⟨-, -, b, hb⟩ := hfile rel rfl
        have hpath : names (joinNames (join d METADATA_DIR_NAME) rel) = names d ++ ([metaName] ++ rel) := by
          rw [names_joinNames, hmeta, List.append_assoc]
        have hb2 : (w1.did env (.visit (joinNames (join d METADATA_DIR_NAME) rel))).under d
            ([metaName] ++ rel) = some (.file b) := hb
        have hthere : (w1.did env (.visit (joinNames (join d METADATA_DIR_NAME) rel))).fs.lookup
            (names (joinNames (join d METADATA_DIR_NAME) rel)) = some (.file b) := by
          rw [hpath]
          exact hb2
        refine (removeFile_returns henv _ hthere).mono fun _ w3 h3 => ?_
        subst h3
        exact hvisit.trans (removing_removeFile hpath (by rw [hb2]; simp) (Or.inr ⟨rel, rfl, rfl⟩))

end

/-! ## The staging -/

section
variable (henv : Healthy env) {keys : Str → Prop} (hkeys : Storable keys)
  {I : (List Name → Option (Node Bytes)) → Prop} (hI : Sheltering deps keys I) {d : PathBuf}
  (hd : d ≠ []) (hg : GoodSegments d)
include henv hkeys hI hd hg

omit henv hkeys hd hg in
theorem Stage.createDirAll {w : World} (hw : Stage I d w) :
    Stage I d (w.did env (.createDirAll d)) := by
  have hunder : ∀ r, (w.did env (.createDirAll d)).under d r = w.under d r := fun r => by
    rcases @createDirAll_did_or env d w (names d ++ r) with hq | ⟨hq, hnone, -⟩
    · exact hq
    · -- the directory is there already
      have hr : r = [] := by
        have := hq.length_le
        rw [List.length_append] at this
        exact List.length_eq_zero_iff.mp (by omega)
      subst hr
      exact absurd (hw.top.symm.trans hnone) (by simp)
  exact ⟨(hunder []).trans hw.top, hI.thin hw.tree fun r _ => Or.inl (hunder r)⟩

/-- A listing is staged when the storage stands still. -/
theorem stageOriginDir_returns {id : Str} (previous : Option OriginFreshnessIndex)
    {t0 : Nat} {summaries : List RemoteObjectSummary} (hsteady : Steady env id t0 summaries)
    (hlisted : ∀ s ∈ summaries, keys s.key) {w : World} (hw : Stage I d w)
    (hclock : t0 ≤ w.clock) :
    Returns (step deps env) (fun _ => Stage I d) (stageOriginDir deps id d previous) w := by
  refine Returns.bind ((createDirAll_returns henv _ fun s b hs =>
    no_file_above (by simpa [World.under] using hw.top) hs).mono fun _ w1 h1 => ?_)
  subst h1
  have hw1 : Stage I d (w.did env (.createDirAll d)) := hw.createDirAll hI
  have hclock1 : t0 ≤ (w.did env (.createDirAll d)).clock := Nat.le_succ_of_le hclock
  generalize w.did env (.createDirAll d) = w1 at hw1 hclock1
  have hcall : run (step deps env) (call (.listObjects id)) w1 = (.ok (.ok summaries), w1.tick) := by
    rw [call, run_perform]
    simp [step, hsteady.listing w1.clock hclock1, reply]
  have hw2 : Stage I d w1.tick.tick := ⟨hw1.top, hw1.tree⟩
  have hclock2 : t0 ≤ w1.tick.tick.clock := Nat.le_succ_of_le (Nat.le_succ_of_le hclock1)
  obtain ⟨index, hindex⟩ := @buildOriginIndex_succeeds id summaries (env.nanos w1.tick.clock)
    fun s hs => (hkeys.canonical _ (hlisted s hs)).accepted
  have hin : ∀ k ∈ index.files, keys k := fun k hk => by
    obtain ⟨s, hs, rfl⟩ := (mem_files_iff hindex k).mp hk
    exact hlisted s hs
  refine Returns.bind ⟨_, _, hcall, ?_⟩
  refine returns_ofExcept_bind (a := summaries) rfl ?_
  refine Returns.bind ⟨_, _, rfl, ?_⟩
  refine returns_ofExcept_bind hindex ?_
  refine Returns.bind ((downloads_returns henv hkeys hI hd hg hsteady hlisted hindex
    (fun k hk => ?_) 0 hw2 hclock2).mono fun _ w3 hw3 => ?_)
  · obtain ⟨f, hf, -⟩ := (mem_changedPaths previous index k).mp hk
    exact Std.TreeMap.mem_iff_isSome_getElem?.mpr (by rw [hf]; rfl)
  · refine Returns.bind ((removeDeletedObjects_returns henv hkeys hI hd _ hw3).mono fun _ w4 hw4 => ?_)
    refine Returns.bind ((removeOrphanMetadataSidecars_returns henv hkeys hI (fun k hk => hin k (by
      simpa using hk)) hw4).mono fun _ w5 hw5 => ?_)
    exact ⟨_, _, rfl, hw5⟩

end

/-- No file stands on the way to a staging directory of `id`, or in its place. -/
def StagingOpen (deps : Deps) (id : Str) (w : World) : Prop :=
  ∀ t s b, s <+: names (stagingPath deps id t) → w.fs.lookup s ≠ some (.file b)

/-- Work in one staging directory that is there leaves the others open. -/
theorem StagingOpen.within {id : Str} (hid : validateOriginId id = .ok ()) {w w' : World} {t : Nat}
    (hw : StagingOpen deps id w) (htop : w'.under (stagingPath deps id t) [] = some .dir)
    (hsame : ∀ q, ¬ names (stagingPath deps id t) <+: q → ¬ q <+: names (stagingPath deps id t) →
      w'.fs.lookup q = w.fs.lookup q) : StagingOpen deps id w' := by
  intro t' s b hs
  by_cases h1 : s <+: names (stagingPath deps id t)
  · exact no_file_above (by simpa [World.under] using htop) h1
  · by_cases h2 : names (stagingPath deps id t) <+: s
    · -- both paths have two names
      refine absurd ?_ h1
      rw [h2.eq_of_length_le]
      exact hs.length_le.trans (by rw [names_stagingPath deps hid, names_stagingPath deps hid]; rfl)
    · rw [hsame s h2 h1]
      exact hw t' s b hs

/-- A mirror with files at the places of storable keys is staged for whatever the storage
lists of them. -/
theorem stageOriginSync_returns (henv : Healthy env) {keys : Str → Prop} (hkeys : Storable keys)
    {I : (List Name → Option (Node Bytes)) → Prop} (hI : Sheltering deps keys I) {id : Str}
    (hid : validateOriginId id = .ok ()) (previous : Option OriginFreshnessIndex) {t0 : Nat}
    {summaries : List RemoteObjectSummary} (hsteady : Steady env id t0 summaries)
    (hlisted : ∀ s ∈ summaries, keys s.key) {w : World} (hclock : t0 ≤ w.clock)
    (hmirror : ∀ b, w.fs.lookup (names id) ≠ some (.file b))
    (horder : I (w.under id)) (hopen : StagingOpen deps id w) :
    Returns (step deps env)
      (fun staged w' => Stage I staged.stagingDir w' ∧ StagingOpen deps id w')
      (stageOriginSync deps id previous) w := by
  refine returns_ofExcept_bind (originDir_ok_iff.mpr ⟨rfl, hid⟩) ?_
  refine Returns.bind ⟨_, _, stagingDir_run deps hid w, ?_⟩
  generalize env.nanos w.clock = t
  have hs := stagingPath_inStaging deps hid t
  have hprepare := (run_within deps env (@prepareStagingDir_within deps _ id
    (stagingPath deps id t) List.prefix_rfl) w.tick).2
  refine Returns.bind ((prepareStagingDir_returns henv hid hs (w := w.tick) hmirror
    (hopen t)).with_run.mono fun _ w1 hw1 => ?_)
  obtain ⟨⟨htop, hcopy⟩, hrun⟩ := hw1
  rw [hrun] at hprepare
  have hclock1 := run_clock deps env hrun
  have hw1 : Stage I (stagingPath deps id t) w1 :=
    ⟨htop, hI.thin horder fun r hr => Or.inl (hcopy r hr)⟩
  have hstage := (run_within deps env (stageOriginDir_within deps id (stagingPath_ne_nil deps t)
    List.prefix_rfl (stagingPath_goodSegments deps hid t) previous) w1).2
  refine Returns.bind (Returns.attempt ((stageOriginDir_returns henv hkeys hI (stagingPath_ne_nil deps t)
    (stagingPath_goodSegments deps hid t) previous hsteady hlisted hw1
    (Nat.le_trans (Nat.le_succ_of_le hclock) hclock1)).with_run.mono fun v w2 hw2 => ?_))
  rw [hw2.2] at hstage
  exact ⟨_, _, rfl, hw2.1, StagingOpen.within hid hopen hw2.1.top
    fun q h1 h2 => (hstage q h1 h2).trans (hprepare q h1 h2)⟩

end RenderMesh.Refresh
