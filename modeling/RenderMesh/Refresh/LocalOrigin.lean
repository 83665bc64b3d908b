import RenderMesh.Mirror.LocalListing
import RenderMesh.Refresh.Delivery

/-!
# Refreshes of a local origin

The storage of an origin is a directory of the server's own disk. A refresh that finds it
standing still leaves a copy of it in the mirror.

* `listObjects_complete`: a listing leaves out nothing, and what it lists can be fetched; a call
  that fails leaves no listing rather than a part of one.
* `refreshes_copy_directory`: after each refresh the files of the mirror are those of the
  directory, bytes and all.
-/
namespace RenderMesh.Refresh

open RenderMesh.Core RenderMesh.Mirror RenderMesh.Mirror.LocalDirectoryStorageRepository RenderMesh.Server

/-- A listing of a disk that stands still is complete, and each object that it lists can be
fetched as it was listed, unless a call fails for a reason of its own: then there is no listing,
or no object, rather than a part of it. -/
theorem listObjects_complete (deps : Deps) (mimeGuess : Str → Option Str)
    (self : LocalDirectoryStorageRepository) (dir : Directory) (fault : Nat → Option IoErr)
    (hroot : dir.tree.lookup (names self.root) = some .dir) (turns : Nat)
    (hturns : reads (dir.tree.itinerary reserved (names self.root)) < turns) (calls : Nat) :
    (∃ l calls', run (dir.step fault) (self.listObjects deps mimeGuess turns) calls =
        (.ok (some l), calls') ∧ Complete self dir l ∧
      ∀ s ∈ l, Accepted s.key → ∀ calls,
        (∃ object calls', run (dir.step fault) (self.getObject deps mimeGuess s.key) calls =
          (.ok object, calls') ∧ Agrees self dir s object) ∨
        Directory.Faulty fault ∧ ∃ e calls',
          run (dir.step fault) (self.getObject deps mimeGuess s.key) calls = (.err e, calls')) ∨
    Directory.Faulty fault ∧ ∃ e calls',
      run (dir.step fault) (self.listObjects deps mimeGuess turns) calls = (.err e, calls') := by
  have hlist : Yields (dir.step fault) (Directory.Faulty fault)
      (self.listObjects deps mimeGuess turns) (some (self.listing deps mimeGuess dir)) :=
    listObjects_yields hroot hturns
  rcases hlist calls with ⟨calls', hrun⟩ | hfails
  · refine Or.inl ⟨_, calls', hrun, listing_complete, fun s hs hkey calls => ?_⟩
    obtain ⟨body, hdir, hbody, hagrees⟩ := fileObject_agrees hs
    have hget : Yields (dir.step fault) (Directory.Faulty fault)
        (self.getObject deps mimeGuess s.key) (self.fileObject deps mimeGuess dir s.key body) :=
      getObject_yields hkey hdir hbody
    rcases hget calls with ⟨calls', hrun⟩ | hfails
    · exact Or.inl ⟨_, calls', hrun, hagrees⟩
    · exact Or.inr hfails
  · exact Or.inr hfails

/-! ## A disk with one page -/

def siteName : Name := ⟨"site".toList, by decide⟩

/-- `/site/a`, and a file in the reserved directory. -/
def siteTree : Tree :=
  (((FileTree.empty.insert [siteName] .dir).insert [siteName, ⟨"a".toList, by decide⟩]
    (.file [65])).insert [siteName, metaName] .dir).insert
      [siteName, metaName, ⟨"a".toList, by decide⟩] (.file [66])

def siteDirectory : Directory where
  tree := siteTree
  long := fun _ => false
  modified := fun _ => some 0
  created := fun _ => none
  short := fun _ _ _ _ => rfl

def siteStorage : LocalDirectoryStorageRepository := ⟨"/site".toList, by decide⟩

def htmlOnly (_ : Str) : Option Str := some "text/html".toList

theorem listObjects_complete_site :
    ∃ l calls', run (siteDirectory.step fun _ => none) (siteStorage.listObjects smallDeps htmlOnly 2) 0 =
      (.ok (some l), calls') ∧ Complete siteStorage siteDirectory l := by
  have hroot : siteTree.lookup [siteName] = some .dir := by decide +kernel
  have hnames : names siteStorage.root = [siteName] := by decide
  have hturns : reads (siteTree.itinerary reserved [siteName]) < 2 := by decide +kernel
  rcases listObjects_complete smallDeps htmlOnly siteStorage siteDirectory (fun _ => none)
    (by rw [hnames]; exact hroot) 2 (by rw [hnames]; exact hturns) 0 with
    ⟨l, calls', hrun, hcomplete, -⟩ | ⟨⟨calls, hfault⟩, -⟩
  · exact ⟨l, calls', hrun, hcomplete⟩
  · exact absurd rfl hfault

/-! ## The directory as a storage -/

/-- The reply of a local origin that lists `dir`. -/
def localListing (deps : Deps) (mimeGuess : Str → Option Str)
    (storage : LocalDirectoryStorageRepository) (dir : Directory) :
    Outcome Error (List RemoteObjectSummary) :=
  let turns := reads (dir.tree.itinerary reserved (names storage.root)) + 1
  match (run (dir.step fun _ => none) (storage.listObjects deps mimeGuess turns) 0).1 with
  | .ok (some l) => .ok l
  | .ok none => .dropped
  | .err e => .err e
  | .dropped => .dropped

/-- The storage of `id` is a local origin, whose disk at step `t` is `disk t`. -/
structure Serves (deps : Deps) (mimeGuess : Str → Option Str) (env : Env) (id : Str)
    (storage : LocalDirectoryStorageRepository) (disk : Nat → Directory) : Prop where
  root : ∀ t, (disk t).tree.lookup (names storage.root) = some .dir
  lists : ∀ t, env.listObjects t id = localListing deps mimeGuess storage (disk t)
  gets : ∀ t key, env.getObject t id key =
    (run ((disk t).step fun _ => none) (storage.getObject deps mimeGuess key) 0).1

section
variable {deps : Deps} {mimeGuess : Str → Option Str} {env : Env} {id : Str}
  {storage : LocalDirectoryStorageRepository} {disk : Nat → Directory}

theorem not_faulty : ¬ Directory.Faulty fun _ => none := fun ⟨_, h⟩ => h rfl

theorem Yields.run_of_calm {α : Type} {dir : Directory} {m : LocalProg α} {a : α}
    (h : Yields (dir.step fun _ => none) (Directory.Faulty fun _ => none) m a) :
    (run (dir.step fun _ => none) m 0).1 = .ok a := by
  rcases h 0 with ⟨calls, hrun⟩ | ⟨hfault, -⟩
  · rw [hrun]
  · exact absurd hfault not_faulty

theorem Serves.listing (h : Serves deps mimeGuess env id storage disk) (t : Nat) :
    env.listObjects t id = .ok (storage.listing deps mimeGuess (disk t)) := by
  have hrun := Yields.run_of_calm
    (@listObjects_yields deps mimeGuess storage (disk t) (fun _ => none) (h.root t) _ (Nat.lt_succ_self _))
  rw [h.lists, localListing]
  simp only [hrun]

theorem Serves.object (h : Serves deps mimeGuess env id storage disk) {t : Nat}
    {s : RemoteObjectSummary} (hs : s ∈ storage.listing deps mimeGuess (disk t))
    (hkey : Accepted s.key) :
    ∃ object, env.getObject t id s.key = .ok object ∧ Agrees storage (disk t) s object := by
  obtain ⟨body, hdir, hbody, hagrees⟩ := fileObject_agrees hs
  exact ⟨_, (h.gets t s.key).trans (Yields.run_of_calm (getObject_yields hkey hdir hbody)), hagrees⟩

theorem Serves.got (h : Serves deps mimeGuess env id storage disk) {t : Nat} {key : Str}
    {object : RemoteObject} (hget : env.getObject t id key = .ok object) : ∃ body,
      (disk t).tree.lookup (names storage.root ++ names key) = some (.file body) ∧
      object = storage.fileObject deps mimeGuess (disk t) key body := by
  rw [h.gets] at hget
  have hrun : run ((disk t).step fun _ => none) (storage.getObject deps mimeGuess key) 0 =
      (.ok object, _) := Prod.ext hget rfl
  exact (getObject_ok hrun).2.2

/-- An object as it was listed passes the check on downloads. -/
theorem validate_of_agrees {dir : Directory} {s : RemoteObjectSummary} {object : RemoteObject}
    (h : Agrees storage dir s object) (hkey : Accepted s.key) (now : Nat) :
    validateDownloadedObject s.key (fileState s s.key now) object = .ok () := by
  rw [validateDownloadedObject, h.key, normalizeRemoteKey_ok_iff.mpr ⟨rfl, hkey⟩]
  simp [bind, Except.bind, fileState, h.size, h.etag, h.lastModified]

/-- A disk that stands still is a storage that stands still. -/
theorem Serves.still (h : Serves deps mimeGuess env id storage disk) {lo hi : Nat}
    (hdisk : ∀ t, lo ≤ t → t < hi → disk t = disk lo)
    (hkeys : ∀ s ∈ storage.listing deps mimeGuess (disk lo), Accepted s.key) :
    Still env id lo hi (storage.listing deps mimeGuess (disk lo)) := by
  refine ⟨fun t hlo hhi => by rw [h.listing, hdisk t hlo hhi], fun s hs => ?_⟩
  obtain ⟨object, hget, hagrees⟩ := h.object hs (hkeys s hs)
  refine ⟨object, fun t hlo hhi => ?_, validate_of_agrees hagrees (hkeys s hs)⟩
  rw [h.gets, hdisk t hlo hhi, ← h.gets, hget]

/-- A tag tells the contents of a file apart when their digests do. -/
theorem etagOf_inj {body body' : Bytes} (h : etagOf deps body = etagOf deps body') :
    deps.sha256 body = deps.sha256 body' := by
  have hhex := encodeHex_injective (List.append_cancel_left h)
  cases hd : deps.sha256 body
  cases hd' : deps.sha256 body'
  rw [hd, hd'] at hhex
  cases hhex
  rfl

/-- A mirror of a listing of the directory is the directory. -/
theorem MirrorsListing.copy (hserves : Serves deps mimeGuess env id storage disk)
    (hdigest : ∀ t t' q b b', (disk t).tree.lookup (names storage.root ++ q) = some (.file b) →
      (disk t').tree.lookup (names storage.root ++ q) = some (.file b') →
      deps.sha256 b = deps.sha256 b' → b = b')
    {lo : Nat} {index : OriginFreshnessIndex} {w : World}
    (hmirrors : MirrorsListing deps env id True lo index w)
    (hdisk : ∀ t, lo ≤ t → t < w.clock → disk t = disk lo) {rel : List Name} (hrel : rel ≠ [])
    (hmeta : rel.head? ≠ some metaName) (body : Bytes) :
    w.under id rel = some (.file body) ↔
      (disk lo).tree.lookup (names storage.root ++ rel) = some (.file body) := by
  obtain ⟨wl, summaries, now, hlo, hhi, -, hlist, hindex⟩ := hmirrors.listed
  rw [hserves.listing, hdisk _ hlo hhi] at hlist
  cases hlist
  have hcomplete := @listing_complete deps mimeGuess storage (disk lo)
  -- a listed file is held with the body that its tag was made of
  have hheld : ∀ b, (disk lo).tree.lookup (names storage.root ++ rel) = some (.file b) →
      w.under id rel = some (.file b) := by
    intro b hb
    obtain ⟨s, hs, hkey⟩ := (hcomplete.files rel hrel hmeta).mpr ⟨b, hb⟩
    have hmem : keyOf rel ∈ index.files := (mem_files_iff hindex _).mpr ⟨s, hs, hkey⟩
    obtain ⟨st, hst⟩ := Option.isSome_iff_exists.mp (Std.TreeMap.mem_iff_isSome_getElem?.mp hmem)
    obtain ⟨s', hs', hkey', rfl⟩ := buildOriginIndex_state hindex hst
    obtain ⟨rel', b', -, -, hb', rfl⟩ := (mem_listing s').mp hs'
    have hrel' : rel' = rel := keyOf_inj hkey'
    subst hrel'
    rw [hb] at hb'
    cases hb'
    obtain ⟨t, st', object, -, hget, hvalid, hsame, hunder, -⟩ := hmirrors.held _ _ hst
    obtain ⟨old, hold, rfl⟩ := hserves.got hget
    rw [names_keyOf] at hold hunder
    have hetag : st'.etag = some (etagOf deps b) := sameSourceState_etag hsame
    have htag : etagOf deps old = etagOf deps b := by
      obtain ⟨-, -, hobject, -⟩ := validateDownloadedObject_ok hvalid
      rw [hetag] at hobject
      exact Option.some.inj (hobject rfl)
    rw [hunder, hdigest t lo rel' old b hold hb (etagOf_inj htag)]
    rfl
  refine ⟨fun hunder => ?_, hheld body⟩
  obtain ⟨k, hk, rfl⟩ := (hmirrors.files rel hrel hmeta).mp ⟨body, hunder⟩
  obtain ⟨s, hs, rfl⟩ := (mem_files_iff hindex k).mp hk
  obtain ⟨rel, b, -, -, hb, rfl⟩ := (mem_listing s).mp hs
  have hnames : names (storage.fileSummary deps mimeGuess (disk lo) rel b).key = rel := names_keyOf rel
  rw [hnames] at hheld hunder ⊢
  have := hheld b hb
  rw [hunder] at this
  cases this
  exact hb

end

/-- In a run in which the directory stands still during each refresh and what it has passes the
barrier, every refresh returns, and the files of the mirror are those of the directory. -/
theorem refreshes_copy_directory (deps : Deps) (mimeGuess : Str → Option Str) (env : Env)
    (service : OriginRefreshService) (id : Str) (keys : Str → Prop) (fs : Tree)
    (storage : LocalDirectoryStorageRepository) (disk : Nat → Directory) (henv : Healthy env)
    (hserves : Serves deps mimeGuess env id storage disk) (hsound : Sound deps env id keys)
    (hid : validateOriginId id = .ok ()) (hknown : service.hasOrigin id = true)
    (hpurge : ∀ t request, env.purge t request ≠ .dropped)
    (hfs : Ready deps env id keys (World.start fs))
    (hdigest : ∀ t t' q b b', (disk t).tree.lookup (names storage.root ++ q) = some (.file b) →
      (disk t').tree.lookup (names storage.root ++ q) = some (.file b') →
      deps.sha256 b = deps.sha256 b' → b = b')
    (n : Nat)
    (hdisk : ∀ i, i ≤ n → ∀ t, (refreshes deps env service id fs i).clock ≤ t →
      t < (refreshes deps env service id fs (i + 1)).clock →
      disk t = disk (refreshes deps env service id fs i).clock)
    (hpasses : ∀ i, i ≤ n → Passes id ((refreshes deps env service id fs i).freshnessIndexes id)
      (service.activationBarrier id)
      (storage.listing deps mimeGuess (disk (refreshes deps env service id fs i).clock))) :
    (∃ response, (refreshOrigin deps env service id (refreshes deps env service id fs n)).1 =
      .ok response) ∧
      ∀ rel body, rel ≠ [] → rel.head? ≠ some metaName →
        ((refreshes deps env service id fs (n + 1)).under id rel = some (.file body) ↔
          (disk (refreshes deps env service id fs n).clock).tree.lookup (names storage.root ++ rel) =
            some (.file body)) := by
  have hkeys : ∀ t, ∀ s ∈ storage.listing deps mimeGuess (disk t), Accepted s.key := fun t s hs =>
    (hsound.storable.canonical _ (hsound.listed _ ⟨t, _, hserves.listing t, s, hs, rfl⟩)).accepted
  obtain ⟨hok, index, hmirrors⟩ := refreshes_return deps env service id keys fs henv hsound hid hknown
    hpurge hfs n fun i hi => ⟨_, hserves.still (hdisk i hi) (hkeys _), hpasses i hi⟩
  exact ⟨hok, fun rel body hrel hmeta =>
    MirrorsListing.copy hserves hdigest hmirrors (hdisk n (Nat.le_refl n)) hrel hmeta body⟩

/-- The site is the storage, and does not change. -/
def localSite : Env :=
  { calmPage with
    listObjects := fun _ _ => localListing smallDeps htmlOnly siteStorage siteDirectory
    getObject := fun _ _ key =>
      (run (siteDirectory.step fun _ => none) (siteStorage.getObject smallDeps htmlOnly key) 0).1 }

theorem localSite_serves :
    Serves smallDeps htmlOnly localSite "web".toList siteStorage fun _ => siteDirectory :=
  ⟨fun _ => by decide +kernel, fun _ => rfl, fun _ _ => rfl⟩

theorem siteTree_file {q : List Name} {b : Bytes} (h : siteTree.lookup q = some (.file b)) :
    q = [siteName, ⟨"a".toList, by decide⟩] ∧ b = [65] ∨
      q = [siteName, metaName, ⟨"a".toList, by decide⟩] := by
  have hentries : siteTree.entries = [([siteName, metaName, ⟨"a".toList, by decide⟩], .file [66]),
      ([siteName, metaName], .dir), ([siteName, ⟨"a".toList, by decide⟩], .file [65]),
      ([siteName], .dir)] := rfl
  have hq : q ≠ [] := fun hq => by subst hq; cases h
  rw [FileTree.lookup_of_ne_nil _ hq, hentries] at h
  simp only [find] at h
  split at h
  · rename_i he
    exact Or.inr he.symm
  · split at h
    · cases h
    · split at h
      · rename_i he
        cases h
        exact Or.inl ⟨he.symm, rfl⟩
      · split at h <;> cases h

theorem localSite_listed {k : Str} (h : WasListed localSite "web".toList k) : k = "a".toList := by
  obtain ⟨t, summaries, hlist, s, hs, rfl⟩ := h
  rw [localSite_serves.listing] at hlist
  cases hlist
  obtain ⟨rel, body, -, hmeta, hbody, rfl⟩ := (mem_listing s).mp hs
  have hroot : names siteStorage.root = [siteName] := by decide
  rw [hroot] at hbody
  rcases siteTree_file hbody with ⟨hrel, -⟩ | hrel
  · rw [List.singleton_append, List.cons.injEq] at hrel
    show keyOf rel = _
    rw [hrel.2]
    decide
  · rw [List.singleton_append, List.cons.injEq] at hrel
    rw [hrel.2] at hmeta
    exact absurd rfl hmeta

theorem localSite_got {t : Nat} {k : Str} {object : RemoteObject} (hk : WasListed localSite "web".toList k)
    (hget : localSite.getObject t "web".toList k = .ok object) :
    object = siteStorage.fileObject smallDeps htmlOnly siteDirectory "a".toList [65] := by
  obtain ⟨body, hbody, rfl⟩ := localSite_serves.got hget
  rw [localSite_listed hk] at hbody ⊢
  have hpath : names siteStorage.root ++ names "a".toList = [siteName, ⟨"a".toList, by decide⟩] := by
    decide
  rw [hpath] at hbody
  rcases siteTree_file hbody with ⟨-, rfl⟩ | h
  · rfl
  · exact absurd h (by decide)

/-- What the page of the site needs, from what a page that never changes needs. -/
theorem localSite_sound : Sound smallDeps localSite "web".toList (· ∈ pageKeys) := by
  have hjson : (fromUtf8 (smallDeps.metadataToJson (objectMetadata
      (siteStorage.fileObject smallDeps htmlOnly siteDirectory "a".toList [65])))).map
      smallDeps.metadataOfJson = some (.ok (objectMetadata
        (siteStorage.fileObject smallDeps htmlOnly siteDirectory "a".toList [65]))) := by
    decide +kernel
  refine ⟨⟨calmPage_sound.storable, fun k hk => ?_, fun k k' hk hk' => ?_,
    fun t k object hk hget => ?_, fun t k object hk hget _ => ?_⟩, calmPage_sound.candidates,
    fun t c object hc hk _ => ?_⟩
  · rw [localSite_listed hk]
    exact List.mem_cons_self
  · exact calmPage_sound.digests k k' hk ⟨0, _, rfl, _, List.mem_cons_self, (localSite_listed hk').symm⟩
  · rw [localSite_got hk hget]
    obtain ⟨content, hutf8, hok⟩ := Option.map_eq_some_iff.mp hjson
    exact ⟨content, hutf8, hok⟩
  · rw [localSite_got hk hget]
    have hbody : fromUtf8 [65] = some "A".toList := by decide +kernel
    exact ⟨"A".toList, hbody, (), rfl⟩
  · have hnone : ∀ c ∈ EDGE_CONFIG_PATHS, c.1.drop 1 ≠ "a".toList := by decide
    exact absurd (localSite_listed hk) (hnone c hc)

/-- The second mirror of the site is the site. -/
theorem refreshes_copy_directory_site :
    (∃ response, (refreshOrigin smallDeps localSite plainService "web".toList
      (refreshes smallDeps localSite plainService "web".toList FileTree.empty 1)).1 = .ok response) ∧
      ∀ rel body, rel ≠ [] → rel.head? ≠ some metaName →
        ((refreshes smallDeps localSite plainService "web".toList FileTree.empty (1 + 1)).under
          "web".toList rel = some (.file body) ↔
          siteDirectory.tree.lookup (names siteStorage.root ++ rel) = some (.file body)) := by
  have hid : validateOriginId "web".toList = .ok () := by decide
  have hdigest : ∀ t t' : Nat, ∀ q b b',
      siteDirectory.tree.lookup (names siteStorage.root ++ q) = some (.file b) →
      siteDirectory.tree.lookup (names siteStorage.root ++ q) = some (.file b') →
      smallDeps.sha256 b = smallDeps.sha256 b' → b = b' := fun t t' q b b' hb hb' _ => by
    rw [hb] at hb'
    cases hb'
    rfl
  exact refreshes_copy_directory smallDeps htmlOnly localSite plainService "web".toList (· ∈ pageKeys)
    FileTree.empty siteStorage (fun _ => siteDirectory) ⟨fun _ _ => rfl, fun _ => rfl⟩
    localSite_serves localSite_sound hid rfl (fun _ _ h => by cases h) (ready_empty hid _) hdigest 1
    (fun _ _ _ _ _ => rfl) (fun _ _ _ _ _ => rfl)

end RenderMesh.Refresh
