import RenderMesh.Mirror.LocalDirectory

/-!
# Listings of local origins

What `list_objects` and `get_object` of a local origin make of a disk that stands still.

* `listObjects_yields`: the walk collects every file outside the reserved directory, or fails.
* `mem_listing`, `listing_sorted`: which summaries those are, and their order.
* `getObject_yields`, `getObject_ok`: an object is the file of its key.
* `listing_complete`, `fileObject_agrees`: the listing leaves out nothing, and its objects are as
  they were listed.
-/
namespace RenderMesh.Mirror

open RenderMesh.Core RenderMesh.Server

namespace LocalDirectoryStorageRepository

variable (deps : Deps) (mimeGuess : Str → Option Str) (self : LocalDirectoryStorageRepository)
  (dir : Directory)

/-- The path of `rel` below the root. -/
def place (rel : List Name) : PathBuf := absolute (names self.root ++ rel)

theorem place_nil : self.place [] = self.root := by
  rw [place, List.append_nil]
  exact self.canonical.symm

theorem push_place (rel : List Name) (x : Name) :
    push (self.place rel) x.text = self.place (rel ++ [x]) := by
  rw [place, push_absolute, List.append_assoc, place]

theorem relativeKey_place (rel : List Name) :
    relativeKey self.root (self.place rel) = .ok (keyOf rel) := by
  have h := relativeKey_absolute (names self.root) rel
  rw [← self.canonical] at h
  exact h

/-- What is not listed. -/
def reserved (rel : List Name) : Bool := reservedMetadataKey (keyOf rel)

def fileSummary (rel : List Name) (body : Bytes) : RemoteObjectSummary where
  key := keyOf rel
  createdAt := (dir.created (names self.root ++ rel)).map deps.rfc3339
  etag := some (etagOf deps body)
  lastModified := (dir.modified (names self.root ++ rel)).map deps.rfc3339
  size := body.length
  contentType := mimeGuess (keyOf rel)
  cacheControl := none

/-- What the loop collects when it visits an entry. -/
def eventSummary : WalkEvent Name → Option RemoteObjectSummary
  | .readDir _ => none
  | .entry rel _ =>
    if reserved rel then none
    else match dir.tree.lookup (names self.root ++ rel) with
      | some (.file body) => some (self.fileSummary deps mimeGuess dir rel body)
      | _ => none

/-- The loop's variables after the events `es`. -/
def vars (es : List (WalkEvent Name)) (rels : List (List Name)) : Listing where
  output := es.filterMap (self.eventSummary deps mimeGuess dir)
  stack := rels.map self.place

/-- The files that a listing has, in the order of their keys. -/
def listing : List RemoteObjectSummary :=
  ((dir.tree.itinerary reserved (names self.root)).filterMap
    (self.eventSummary deps mimeGuess dir)).mergeSort keyLe

/-- The variables after the entry `rel`. -/
def visited (l : Listing) (rel : List Name) : Listing where
  output := l.output ++ (self.eventSummary deps mimeGuess dir (.entry rel false)).toList
  stack := (if dir.tree.isDirAt (names self.root ++ rel) && !reserved rel then [self.place rel]
    else []) ++ l.stack

section
variable {deps mimeGuess self dir} {fault : Nat → Option IoErr}

theorem summaryForPath_yields {rel : List Name} {body : Bytes}
    (h : dir.tree.lookup (names self.root ++ rel) = some (.file body)) :
    Yields (dir.step fault) (Directory.Faulty fault)
      (summaryForPath deps mimeGuess (self.place rel) (keyOf rel)
        (dir.metadataAt (names self.root ++ rel) (.file body)))
      (self.fileSummary deps mimeGuess dir rel body) := by
  have hread : Yields (dir.step fault) (Directory.Faulty fault) (localContext
      (.read (self.place rel)) ("hash local origin object ".toList ++ self.place rel)) body :=
    localContext_yields (Directory.exec_read h) _
  have hetag : Yields (dir.step fault) (Directory.Faulty fault)
      (contentEtag deps (self.place rel)) (etagOf deps body) :=
    hread.bind (f := fun body => pure (etagOf deps body)) (.ret _)
  refine hetag.bind ?_
  exact .ret _

theorem listEntry_yields {rel : List Name} {x : Name}
    (hx : x ∈ dir.tree.names (names self.root ++ rel)) (l : Listing) :
    Yields (dir.step fault) (Directory.Faulty fault)
      (listEntry deps mimeGuess self (self.place rel) l x)
      (self.visited deps mimeGuess dir l (rel ++ [x])) := by
  obtain ⟨node, hnode⟩ := Option.isSome_iff_exists.mp ((dir.tree.mem_names _ x).mp hx)
  rw [List.append_assoc] at hnode
  unfold listEntry
  rw [push_place]
  refine (localTry_yields (Directory.exec_visit hnode)).bind ?_
  rw [relativeKey_place]
  by_cases hres : reserved (rel ++ [x]) = true
  · have hkey : reservedMetadataKey (keyOf (rel ++ [x])) = true := hres
    have hvisited : self.visited deps mimeGuess dir l (rel ++ [x]) = l := by
      simp [visited, eventSummary, hres]
    rw [hvisited]
    exact (Yields.ret _).bind (by rw [if_pos hkey]; exact .ret l)
  · have hkey : ¬ reservedMetadataKey (keyOf (rel ++ [x])) = true := hres
    refine (Yields.ret (keyOf (rel ++ [x]))).bind ?_
    rw [if_neg hkey]
    cases node with
    | dir =>
      have hvisited : self.visited deps mimeGuess dir l (rel ++ [x]) =
          { l with stack := self.place (rel ++ [x]) :: l.stack } := by
        simp [visited, eventSummary, hres, hnode, FileTree.isDirAt]
      rw [hvisited]
      exact .ret _
    | file body =>
      have hvisited : self.visited deps mimeGuess dir l (rel ++ [x]) =
          { l with output := l.output ++ [self.fileSummary deps mimeGuess dir (rel ++ [x]) body] } := by
        simp [visited, eventSummary, hres, hnode, FileTree.isDirAt]
      rw [hvisited]
      exact (localTry_yields (Directory.exec_metadata hnode)).bind
        ((summaryForPath_yields hnode).bind (.ret _))

/-- The entries of a directory, one after another. -/
theorem visited_all (l : Listing) (rel : List Name) (xs : List Name) :
    xs.foldl (fun l x => self.visited deps mimeGuess dir l (rel ++ [x])) l =
      { output := l.output ++ (xs.map fun x => WalkEvent.entry (rel ++ [x])
          (dir.tree.isDirAt (names self.root ++ (rel ++ [x])))).filterMap
            (self.eventSummary deps mimeGuess dir)
        stack := ((xs.filter fun x => dir.tree.isDirAt (names self.root ++ (rel ++ [x])) &&
          !reserved (rel ++ [x])).reverse.map fun x => self.place (rel ++ [x])) ++ l.stack } := by
  induction xs generalizing l with
  | nil => simp
  | cons x xs ih =>
    rw [List.foldl_cons, ih]
    simp only [visited, List.map_cons, List.filterMap_cons, List.filter_cons]
    -- whether the entry is a directory is read off the tree again
    have hflag : self.eventSummary deps mimeGuess dir (.entry (rel ++ [x])
          (dir.tree.isDirAt (names self.root ++ (rel ++ [x])))) =
      self.eventSummary deps mimeGuess dir (.entry (rel ++ [x]) false) := rfl
    rw [hflag]
    congr 1
    · cases self.eventSummary deps mimeGuess dir (.entry (rel ++ [x]) false) <;> simp
    · by_cases hd : (dir.tree.isDirAt (names self.root ++ (rel ++ [x])) && !reserved (rel ++ [x])) = true
      · simp [hd]
      · simp [hd]

/-- A turn of the loop reads the directory on top of the stack. -/
theorem listDirectory_yields (es : List (WalkEvent Name)) {rel : List Name} (rels : List (List Name))
    (hdir : dir.tree.lookup (names self.root ++ rel) = some .dir) :
    Yields (dir.step fault) (Directory.Faulty fault)
      (listDirectory deps mimeGuess self (self.vars deps mimeGuess dir es (rel :: rels)))
      (.inl (self.vars deps mimeGuess dir (es ++ dir.tree.visit (names self.root) rel)
        (dir.tree.subdirs reserved (names self.root) rel ++ rels))) := by
  have hread : Yields (dir.step fault) (Directory.Faulty fault) (localContext
      (.readDir (self.place rel)) ("read local origin directory ".toList ++ self.place rel))
      (dir.tree.names (names self.root ++ rel)) :=
    localContext_yields (Directory.exec_readDir hdir) _
  have hfold : Yields (dir.step fault) (Directory.Faulty fault)
      (Prog.fold (listEntry deps mimeGuess self (self.place rel))
        (self.vars deps mimeGuess dir es rels) (dir.tree.names (names self.root ++ rel)))
      ((dir.tree.names (names self.root ++ rel)).foldl
        (fun l x => self.visited deps mimeGuess dir l (rel ++ [x]))
        (self.vars deps mimeGuess dir es rels)) :=
    Yields.fold (fun l x hx => listEntry_yields hx l) _
  rw [visited_all] at hfold
  have hvars : self.vars deps mimeGuess dir (es ++ dir.tree.visit (names self.root) rel)
      (dir.tree.subdirs reserved (names self.root) rel ++ rels) =
      { output := (self.vars deps mimeGuess dir es rels).output ++
          ((dir.tree.names (names self.root ++ rel)).map fun x => WalkEvent.entry (rel ++ [x])
            (dir.tree.isDirAt (names self.root ++ (rel ++ [x])))).filterMap
              (self.eventSummary deps mimeGuess dir)
        stack := (((dir.tree.names (names self.root ++ rel)).filter fun x =>
          dir.tree.isDirAt (names self.root ++ (rel ++ [x])) &&
            !reserved (rel ++ [x])).reverse.map fun x => self.place (rel ++ [x])) ++
              (self.vars deps mimeGuess dir es rels).stack } := by
    simp only [vars, FileTree.visit, FileTree.subdirs, List.filterMap_append, List.map_append,
      List.map_map, Function.comp_def]
    rfl
  rw [hvars]
  exact hread.bind (hfold.bind (.ret _))

/-- A listing has every file outside the reserved directory, or it fails; it is over after as
many turns as there are directories. -/
theorem listObjects_yields (hroot : dir.tree.lookup (names self.root) = some .dir) {turns : Nat}
    (hturns : reads (dir.tree.itinerary reserved (names self.root)) < turns) :
    Yields (dir.step fault) (Directory.Faulty fault) (listObjects deps mimeGuess self turns)
      (some (self.listing deps mimeGuess dir)) := by
  have hturn : ∀ es rel rels, dir.tree.lookup (names self.root ++ rel) = some .dir →
      Yields (dir.step fault) (Directory.Faulty fault)
        (listDirectory deps mimeGuess self (self.vars deps mimeGuess dir es (rel :: rels)))
        (.inl (self.vars deps mimeGuess dir (es ++ dir.tree.visit (names self.root) rel)
          (dir.tree.subdirs reserved (names self.root) rel ++ rels))) :=
    fun es rel rels hdir => listDirectory_yields es rels hdir
  have hend : ∀ es, Yields (dir.step fault) (Directory.Faulty fault)
      (listDirectory deps mimeGuess self (self.vars deps mimeGuess dir es []))
      (.inr ((es.filterMap (self.eventSummary deps mimeGuess dir)).mergeSort keyLe)) :=
    fun es => .ret _
  have hloop := Yields.iterate_itinerary (self.vars deps mimeGuess dir) hturn hend hroot hturns
  have hstart : self.vars deps mimeGuess dir [] [[]] = ⟨[], [self.root]⟩ := by
    simp [vars, place_nil]
  rw [hstart] at hloop
  exact hloop

/-! ## What is listed -/

theorem reservedMetadataKey_iff (key : Str) :
    reservedMetadataKey key = true ↔ (segments key).head? = some METADATA_DIR_NAME := by
  rw [segments_head_iff (by decide), reservedMetadataKey]
  simp only [Bool.or_eq_true, decide_eq_true_eq, Bool.and_eq_true, List.isPrefixOf_iff_prefix,
    List.head?_drop]
  constructor
  · rintro (rfl | h)
    · exact ⟨List.prefix_refl _, Or.inl rfl⟩
    · exact ⟨h.1, Or.inr h.2⟩
  · rintro ⟨hstarts, hlength | hslash⟩
    · exact Or.inl (hstarts.eq_of_length hlength.symm).symm
    · exact Or.inr ⟨hstarts, hslash⟩

theorem reserved_iff {rel : List Name} (h : rel ≠ []) :
    reserved rel = true ↔ rel.head? = some metaName := by
  obtain ⟨x, rel, rfl⟩ := List.exists_cons_of_ne_nil h
  rw [reserved, reservedMetadataKey_iff, segments_keyOf h, List.map_cons, List.head?_cons,
    List.head?_cons, Option.some.injEq, Option.some.injEq]
  constructor
  · intro hx
    cases x
    cases hx
    rfl
  · rintro rfl
    rfl

theorem eventSummary_eq_some {rel : List Name} {d : Bool} {s : RemoteObjectSummary} :
    self.eventSummary deps mimeGuess dir (.entry rel d) = some s ↔ reserved rel = false ∧
      ∃ body, dir.tree.lookup (names self.root ++ rel) = some (.file body) ∧
        s = self.fileSummary deps mimeGuess dir rel body := by
  rw [eventSummary]
  by_cases hres : reserved rel = true
  · simp [hres]
  · rw [if_neg hres]
    cases hnode : dir.tree.lookup (names self.root ++ rel) with
    | none => simp
    | some node =>
      cases node with
      | dir => simp
      | file body =>
        constructor
        · rintro ⟨⟩
          exact ⟨by simpa using hres, body, rfl, rfl⟩
        · rintro ⟨-, body', hbody, rfl⟩
          cases hbody
          rfl

/-- What is listed: each file that is not in the reserved directory. -/
theorem mem_listing (s : RemoteObjectSummary) :
    s ∈ self.listing deps mimeGuess dir ↔ ∃ rel body, rel ≠ [] ∧ rel.head? ≠ some metaName ∧
      dir.tree.lookup (names self.root ++ rel) = some (.file body) ∧
      s = self.fileSummary deps mimeGuess dir rel body := by
  rw [listing, List.mem_mergeSort, List.mem_filterMap]
  constructor
  · rintro ⟨_ | ⟨rel, d⟩, hevent, hs⟩
    · cases hs
    · obtain ⟨hres, body, hbody, rfl⟩ := eventSummary_eq_some.mp hs
      obtain ⟨hrel, -⟩ := (dir.tree.entry_mem_itinerary _ _ _ _).mp hevent
      refine ⟨rel, body, hrel, fun hmeta => ?_, hbody, rfl⟩
      rw [(reserved_iff hrel).mpr hmeta] at hres
      cases hres
  · rintro ⟨rel, body, hrel, hmeta, hbody, rfl⟩
    have hopen : ∀ u : List Name, u ≠ [] → u <+: rel → reserved u = false := by
      intro u hu hpre
      rw [← Bool.not_eq_true, reserved_iff hu]
      obtain ⟨v, rfl⟩ := hpre
      rwa [List.head?_append_of_ne_nil _ hu] at hmeta
    refine ⟨.entry rel (dir.tree.isDirAt (names self.root ++ rel)), ?_,
      eventSummary_eq_some.mpr ⟨hopen rel hrel (List.prefix_refl _), body, hbody, rfl⟩⟩
    exact (dir.tree.entry_mem_itinerary _ _ _ _).mpr
      ⟨hrel, by rw [hbody]; rfl, rfl, fun u hu hpre _ => hopen u hu hpre⟩

theorem keyOf_inj {rel rel' : List Name} (h : keyOf rel = keyOf rel') : rel = rel' := by
  rw [← names_keyOf rel, h, names_keyOf]

theorem keyLe_total (s s' : RemoteObjectSummary) : (keyLe s s' || keyLe s' s) = true := by
  have hswap : compare s'.key s.key = (compare s.key s'.key).swap := Std.OrientedCmp.eq_swap
  rw [Bool.or_eq_true, keyLe, keyLe, hswap]
  cases compare s.key s'.key <;> simp

theorem keyLe_trans (a b c : RemoteObjectSummary) (hab : keyLe a b = true) (hbc : keyLe b c = true) :
    keyLe a c = true := by
  unfold keyLe at *
  exact Std.TransOrd.isLE_trans hab hbc

/-- The keys of a listing are in order, and no two are the same. -/
theorem listing_sorted : (self.listing deps mimeGuess dir).Pairwise
    fun s s' => compare s.key s'.key = .lt := by
  have hsorted : (self.listing deps mimeGuess dir).Pairwise fun s s' => keyLe s s' = true :=
    List.pairwise_mergeSort keyLe_trans keyLe_total _
  have hevents : ((dir.tree.itinerary reserved (names self.root)).filterMap
      (self.eventSummary deps mimeGuess dir)).Pairwise fun s s' => s.key ≠ s'.key := by
    rw [List.pairwise_filterMap]
    refine (dir.tree.itinerary_nodup reserved (names self.root)).imp_of_mem ?_
    rintro (_ | ⟨rel, d⟩) (_ | ⟨rel', d'⟩) he he' hne s hs s' hs' hkey
    · cases hs
    · cases hs
    · cases hs'
    · obtain ⟨-, body, -, rfl⟩ := eventSummary_eq_some.mp hs
      obtain ⟨-, body', -, rfl⟩ := eventSummary_eq_some.mp hs'
      have hrel : rel = rel' := keyOf_inj hkey
      obtain ⟨-, -, hd, -⟩ := (dir.tree.entry_mem_itinerary _ _ _ _).mp he
      obtain ⟨-, -, hd', -⟩ := (dir.tree.entry_mem_itinerary _ _ _ _).mp he'
      exact hne (by rw [hd, hd', hrel])
  have hdistinct : (self.listing deps mimeGuess dir).Pairwise fun s s' => s.key ≠ s'.key :=
    (List.mergeSort_perm _ _).symm.pairwise hevents fun h => Ne.symm h
  refine (hsorted.and hdistinct).imp fun {s s'} h => ?_
  cases hcompare : compare s.key s'.key with
  | lt => rfl
  | eq => exact absurd (Std.LawfulEqOrd.eq_of_compare hcompare) h.2
  | gt =>
    have hle : (compare s.key s'.key).isLE = true := h.1
    rw [hcompare] at hle
    cases hle

end

/-! ## Objects -/

/-- The object of a key whose file has this body. -/
def fileObject (key : Str) (body : Bytes) : RemoteObject where
  key := key
  body := body
  etag := some (etagOf deps body)
  lastModified := (dir.modified (names self.root ++ names key)).map deps.rfc3339
  contentType := mimeGuess key
  cacheControl := none

section
variable {deps mimeGuess self dir} {fault : Nat → Option IoErr}

/-- A path below the root is the root joined with its key. -/
theorem push_root (key : Str) :
    ∃ p, names p = names self.root ∧ push self.root key = join p key := by
  by_cases h : names self.root = []
  · have hroot : self.root = ['/'] := by rw [self.canonical, h]; rfl
    exact ⟨[], h.symm, by rw [hroot]; rfl⟩
  · refine ⟨self.root, rfl, ?_⟩
    rw [push, if_neg]
    have hlast := getLast?_absolute h
    rwa [← self.canonical] at hlast

theorem names_push_root (key : Str) : names (push self.root key) = names self.root ++ names key := by
  obtain ⟨p, hp, hpush⟩ := self.push_root key
  rw [hpush, names_join, hp]

theorem asDir_push_root (key : Str) : asDir (push self.root key) = asDir key := by
  obtain ⟨p, -, hpush⟩ := self.push_root key
  rw [hpush, asDir_join]

theorem exec_canonicalize {key : Str} {body : Bytes} (hdir : asDir key = false)
    (h : dir.tree.lookup (names self.root ++ names key) = some (.file body)) :
    dir.exec (.canonicalize (push self.root key)) = .ok (self.place (names key)) := by
  have hshort := dir.short _ (by rw [h]; rfl)
  rw [Directory.exec, Directory.resolve, names_push_root, asDir_push_root, hdir,
    FileTree.stat_succeeds dir.long h hshort]
  rfl

theorem objectPath_yields {key : Str} {body : Bytes} (hkey : Accepted key) (hdir : asDir key = false)
    (h : dir.tree.lookup (names self.root ++ names key) = some (.file body)) :
    Yields (dir.step fault) (Directory.Faulty fault) (objectPath self key)
      (self.place (names key)) := by
  have hinside : startsWith (self.place (names key)) self.root = true := by
    have h := startsWith_absolute (names self.root) (names key)
    rwa [← self.canonical] at h
  have hcanonical : Yields (dir.step fault) (Directory.Faulty fault) (localContext
      (.canonicalize (push self.root key))
      ("canonicalize local origin object ".toList ++ push self.root key)) (self.place (names key)) :=
    localContext_yields (exec_canonicalize hdir h) _
  unfold objectPath
  rw [normalizeRemoteKey_ok_iff.mpr ⟨rfl, hkey⟩]
  refine (Yields.ret key).bind (hcanonical.bind ?_)
  rw [if_pos hinside]
  exact .ret _

/-- The file of a key is its object, or the call fails. -/
theorem getObject_yields {key : Str} {body : Bytes} (hkey : Accepted key) (hdir : asDir key = false)
    (h : dir.tree.lookup (names self.root ++ names key) = some (.file body)) :
    Yields (dir.step fault) (Directory.Faulty fault) (getObject deps mimeGuess self key)
      (self.fileObject deps mimeGuess dir key body) := by
  have hread : ∀ context, Yields (dir.step fault) (Directory.Faulty fault)
      (localContext (.read (self.place (names key))) context) body :=
    localContext_yields (Directory.exec_read h)
  have hmetadata : ∀ context, Yields (dir.step fault) (Directory.Faulty fault)
      (localContext (.metadata (self.place (names key))) context)
      (dir.metadataAt (names self.root ++ names key) (.file body)) :=
    localContext_yields (Directory.exec_metadata h)
  have hetag : Yields (dir.step fault) (Directory.Faulty fault)
      (contentEtag deps (self.place (names key))) (etagOf deps body) :=
    (hread _).bind (f := fun body => pure (etagOf deps body)) (.ret _)
  unfold getObject
  rw [normalizeRemoteKey_ok_iff.mpr ⟨rfl, hkey⟩]
  refine (Yields.ret key).bind ((objectPath_yields hkey hdir h).bind ((hmetadata _).bind ?_))
  rw [if_neg (by simp [Directory.metadataAt])]
  exact (hread _).bind (hetag.bind (.ret _))

theorem resolve_ok {p : PathBuf} {node : Node Bytes} (h : dir.resolve p = .ok node) :
    dir.tree.lookup (names p) = some node ∧ (asDir p = true → node = .dir) := by
  rw [Directory.resolve] at h
  cases hstat : dir.tree.stat dir.long (names p) with
  | error e =>
    rw [hstat] at h
    cases h
  | ok found =>
    have hlookup := FileTree.stat_ok dir.long hstat
    rw [hstat] at h
    cases found with
    | dir =>
      cases h
      exact ⟨hlookup, fun _ => rfl⟩
    | file body =>
      cases hdir : asDir p with
      | true => simp [hdir] at h
      | false =>
        simp only [hdir, Bool.false_eq_true, if_false, Except.ok.injEq] at h
        subst h
        exact ⟨hlookup, fun h => by cases h⟩

theorem objectPath_ok {key : Str} {p : PathBuf} {calls calls' : Nat}
    (h : run (dir.step fault) (objectPath self key) calls = (.ok p, calls')) :
    p = self.place (names key) ∧ ∃ node,
      dir.tree.lookup (names self.root ++ names key) = some node ∧ (asDir key = true → node = .dir) := by
  unfold objectPath at h
  obtain ⟨k, s1, hk, hrest⟩ := (run_bind_ok _).mp h
  obtain ⟨canonical, s2, hcanonical, hlast⟩ := (run_bind_ok _).mp hrest
  obtain ⟨rfl, -⟩ := normalizeRemoteKey_ok_iff.mp (run_ofExcept_ok _ hk).1
  have hexec := localContext_ok hcanonical
  rw [Directory.exec] at hexec
  cases hnode : dir.resolve (push self.root k) with
  | error e =>
    rw [hnode] at hexec
    cases hexec
  | ok node =>
    rw [hnode] at hexec
    have hcan : canonical = absolute (names (push self.root k)) := (Except.ok.inj hexec).symm
    obtain ⟨hlookup, hdir⟩ := resolve_ok hnode
    rw [names_push_root] at hlookup hcan
    rw [asDir_push_root] at hdir
    refine ⟨?_, node, hlookup, hdir⟩
    split at hlast
    · cases hlast
      exact hcan
    · cases hlast

/-- What is given is the file of the key. -/
theorem getObject_ok {key : Str} {object : RemoteObject} {calls calls' : Nat}
    (h : run (dir.step fault) (getObject deps mimeGuess self key) calls = (.ok object, calls')) :
    Accepted key ∧ asDir key = false ∧ ∃ body,
      dir.tree.lookup (names self.root ++ names key) = some (.file body) ∧
      object = self.fileObject deps mimeGuess dir key body := by
  unfold getObject at h
  obtain ⟨k, s1, hk, h⟩ := (run_bind_ok _).mp h
  obtain ⟨path, s2, hpath, h⟩ := (run_bind_ok _).mp h
  obtain ⟨metadata, s3, hmetadata, h⟩ := (run_bind_ok _).mp h
  obtain ⟨rfl, hkey⟩ := normalizeRemoteKey_ok_iff.mp (run_ofExcept_ok _ hk).1
  obtain ⟨rfl, node, hnode, hdir⟩ := objectPath_ok hpath
  have hmeta := localContext_ok hmetadata
  rw [place, Directory.exec_metadata hnode] at hmeta
  cases hmeta
  cases node with
  | dir => cases h
  | file body =>
    rw [if_neg (by simp [Directory.metadataAt])] at h
    obtain ⟨read, s4, hread, h⟩ := (run_bind_ok _).mp h
    obtain ⟨etag, s5, hetag, h⟩ := (run_bind_ok _).mp h
    obtain ⟨hashed, s6, hhashed, hetag⟩ := (run_bind_ok _).mp hetag
    have hbody := localContext_ok hread
    have hbody' := localContext_ok hhashed
    rw [place, Directory.exec_read hnode] at hbody hbody'
    cases hbody
    cases hbody'
    cases hetag
    cases h
    refine ⟨hkey, ?_, body, hnode, rfl⟩
    cases hd : asDir k with
    | false => rfl
    | true => cases hdir hd

/-- A listing that leaves out nothing: the files outside the reserved directory, each once, in
the order of their keys. -/
structure Complete (storage : LocalDirectoryStorageRepository) (dir : Directory)
    (l : List RemoteObjectSummary) : Prop where
  sorted : l.Pairwise fun s s' => compare s.key s'.key = .lt
  files : ∀ rel, rel ≠ [] → rel.head? ≠ some metaName → ((∃ s ∈ l, s.key = keyOf rel) ↔
    ∃ body, dir.tree.lookup (names storage.root ++ rel) = some (.file body))
  keys : ∀ s ∈ l, ∃ rel, rel ≠ [] ∧ rel.head? ≠ some metaName ∧ s.key = keyOf rel

/-- The object of a summary. -/
structure Agrees (storage : LocalDirectoryStorageRepository) (dir : Directory)
    (s : RemoteObjectSummary) (object : RemoteObject) : Prop where
  key : object.key = s.key
  body : dir.tree.lookup (names storage.root ++ names s.key) = some (.file object.body)
  size : object.body.length = s.size
  etag : object.etag = s.etag
  lastModified : object.lastModified = s.lastModified
  contentType : object.contentType = s.contentType

theorem listing_complete : Complete self dir (self.listing deps mimeGuess dir) := by
  refine ⟨listing_sorted, fun rel hrel hmeta => ⟨?_, ?_⟩, fun s hs => ?_⟩
  · rintro ⟨s, hs, hkey⟩
    obtain ⟨rel', body, -, -, hbody, rfl⟩ := (mem_listing s).mp hs
    have hrel' : rel' = rel := keyOf_inj hkey
    exact ⟨body, hrel' ▸ hbody⟩
  · rintro ⟨body, hbody⟩
    exact ⟨_, (mem_listing _).mpr ⟨rel, body, hrel, hmeta, hbody, rfl⟩, rfl⟩
  · obtain ⟨rel, body, hrel, hmeta, -, rfl⟩ := (mem_listing s).mp hs
    exact ⟨rel, hrel, hmeta, rfl⟩

theorem fileObject_agrees {s : RemoteObjectSummary} (hs : s ∈ self.listing deps mimeGuess dir) :
    ∃ body, asDir s.key = false ∧
      dir.tree.lookup (names self.root ++ names s.key) = some (.file body) ∧
      Agrees self dir s (self.fileObject deps mimeGuess dir s.key body) := by
  obtain ⟨rel, body, hrel, -, hbody, rfl⟩ := (mem_listing s).mp hs
  have hnames : names (self.fileSummary deps mimeGuess dir rel body).key = rel := names_keyOf rel
  have hplain : Plain (keyOf rel) :=
    (keyOf_names_iff (keyOf_ne_nil hrel)).mp (by rw [names_keyOf])
  refine ⟨body, asDir_of_plain hplain, by rw [hnames]; exact hbody, rfl, by rw [hnames]; exact hbody,
    rfl, rfl, ?_, rfl⟩
  rw [fileObject, hnames]
  rfl

end

end LocalDirectoryStorageRepository

end RenderMesh.Mirror
