import RenderMesh.Gateway.Missing
import RenderMesh.Gateway.Reachable

/-!
# Reserved files behind a dot

Behaviour (`src/src/services/render_gateway.rs:698-725, 920-926`, `repositories/local_mirror.rs`):
a public path is refused when its text begins, after its slashes, with `.rendermesh/` or
`_rendermesh/`. The file is then found as a path, for which a leading `.` segment is nothing, and
after blanks have been trimmed. The test for the metadata directory looks at the first component,
which for a leading `.` is that dot.

Documented: the paths of the reserved directories are not served to public requests
(`docs/edge-config.md`); `is_reserved_rendermesh_path` and `is_reserved_metadata_key` are there to
refuse them.

Counterexample: a refresh mirrors the object `_rendermesh/a`, and `GET /./_rendermesh/a` is answered
with it (`dotted_path_discloses`).

Condition: `reserved_never_served_iff`. The first of the paths that the request tries at which the
tree has an object does not conceal a reserved directory, which is said of its text (`Conceals`):
a reserved name comes first once blanks, slashes and `.` segments have been dropped, and the path
does not begin with it. On a disk with failures it is enough that no path which is tried does.
-/
namespace RenderMesh.Bugs.DottedReserved

open RenderMesh.Core RenderMesh.Mirror RenderMesh.Server RenderMesh.Domains RenderMesh.Gateway
open RenderMesh.Refresh

/-- The directories that hold configuration and metadata. -/
def reservedDirs : List Str :=
  [".rendermesh".toList, "_rendermesh".toList, METADATA_DIR_NAME]

/-- The object's file is in a reserved directory. -/
def Reserved (m : Str) : Prop := ∃ n, (names m).head? = some n ∧ n.text ∈ reservedDirs

/-- What is left of a path when blanks around it and slashes before it have been dropped twice, as
on the way to its file. -/
def stripped (path : Str) : Str := trimStartSlashes (trim (trimStartSlashes (trim path)))

/-- The first segment that names something. -/
def firstDirectory (path : Str) : Option Str :=
  (segments (stripped path)).find? fun s => s ≠ [] ∧ s ≠ ['.']

/-- The path leads into a reserved directory, and is not written with that directory right after
its slashes: there are blanks or `.` segments before it, or blanks behind it. -/
def Conceals (path : Str) : Prop :=
  ∃ dir ∈ reservedDirs, firstDirectory path = some dir ∧
    (segments (trimStartSlashes path)).head? ≠ some dir

instance (path : Str) : Decidable (Conceals path) :=
  inferInstanceAs (Decidable (∃ dir ∈ reservedDirs, _))

/-! ## What is found -/

section
variable (deps : GatewayDeps) (env : Env) (hooks : Hooks) (originId : Str)

/-- Reading the paths one after another, the first object is found at `path`. -/
def ReadsFirst : List Read → World → Str → LocalObject → World → Prop
  | [], _, _, _, _ => False
  | r :: reads, w, path, object, w' =>
    (r = (.pub, path) ∧ run (gatewayStep deps.toDeps env hooks) (readObject deps originId r.2 r.1) w =
      (.ok (some object), w')) ∨
    ∃ w1, run (gatewayStep deps.toDeps env hooks) (readObject deps originId r.2 r.1) w =
      (.ok none, w1) ∧ ReadsFirst reads w1 path object w'

end

section
variable {deps : GatewayDeps} {env : Env} {hooks : Hooks} {originId : Str}

theorem readsFirst_append {reads reads' : List Read} {path : Str} {object : LocalObject}
    {w w' : World} (h : ReadsFirst deps env hooks originId (reads ++ reads') w path object w') :
    ReadsFirst deps env hooks originId reads w path object w' ∨
      ∃ w1, ReadsNothing deps env hooks originId reads w w1 ∧
        ReadsFirst deps env hooks originId reads' w1 path object w' := by
  induction reads generalizing w with
  | nil => exact Or.inr ⟨w, rfl, h⟩
  | cons r reads ih =>
    rcases h with h | ⟨w1, hnone, h⟩
    · exact Or.inl (Or.inl h)
    · rcases ih h with h | ⟨w2, hnothing, h⟩
      · exact Or.inl (Or.inr ⟨w1, hnone, h⟩)
      · exact Or.inr ⟨w2, ⟨w1, hnone, hnothing⟩, h⟩

/-- The object was read from the file that the path leads to. -/
theorem readsFirst_read {reads : List Read} {path : Str} {object : LocalObject} {w w' : World}
    (h : ReadsFirst deps env hooks originId reads w path object w') : ∃ w1,
      run (gatewayStep deps.toDeps env hooks) (readObject deps originId path .pub) w1 =
        (.ok (some object), w') := by
  induction reads generalizing w with
  | nil => exact h.elim
  | cons r reads ih =>
    rcases h with ⟨rfl, h⟩ | ⟨w1, -, h⟩
    · exact ⟨w, h⟩
    · exact ih h

theorem readsFirst_mem {reads : List Read} {path : Str} {object : LocalObject} {w w' : World}
    (h : ReadsFirst deps env hooks originId reads w path object w') : (.pub, path) ∈ reads := by
  induction reads generalizing w with
  | nil => exact h.elim
  | cons r reads ih =>
    rcases h with ⟨rfl, -⟩ | ⟨w1, -, h⟩
    · exact List.mem_cons_self
    · exact List.mem_cons_of_mem r (ih h)

theorem finds_cons {s : Scene} {r r' : Read} {reads : List Read} {object : LocalObject} :
    s.Finds deps.toDeps originId (r :: reads) r' object ↔
      (r' = r ∧ s.Holds deps.toDeps originId r.1 r.2 object ∧ ¬ s.Fails deps.toDeps originId r.1 r.2) ∨
        s.Empty deps.toDeps originId r ∧ s.Finds deps.toDeps originId reads r' object := by
  constructor
  · rintro ⟨before, after, hreads, hbefore, hholds, hfails⟩
    cases before with
    | nil =>
      cases hreads
      exact Or.inl ⟨rfl, hholds, hfails⟩
    | cons b before =>
      cases hreads
      rw [Scene.AllEmpty, List.forall_mem_cons] at hbefore
      exact Or.inr ⟨hbefore.1, before, after, rfl, hbefore.2, hholds, hfails⟩
  · rintro (⟨rfl, hholds, hfails⟩ | ⟨hempty, before, after, rfl, hbefore, hholds, hfails⟩)
    · exact ⟨[], reads, rfl, by simp [Scene.AllEmpty], hholds, hfails⟩
    · exact ⟨r :: before, after, rfl, List.forall_mem_cons.mpr ⟨hempty, hbefore⟩, hholds, hfails⟩

/-- On a healthy disk, where the first object is found is a matter of the tree. -/
theorem readsFirst_iff (henv : NoFaults env) {reads : List Read} {path : Str} {object : LocalObject}
    (hpub : ∀ r ∈ reads, r.1 = .pub) {w : World} :
    (∃ w', ReadsFirst deps env hooks originId reads w path object w') ↔
      (sceneOf w env hooks).Finds deps.toDeps originId reads (.pub, path) object := by
  induction reads generalizing w with
  | nil =>
    refine iff_of_false (fun ⟨_, h⟩ => h) ?_
    rintro ⟨before, after, hnil, -⟩
    exact absurd hnil.symm (by simp)
  | cons r reads ih =>
    rw [List.forall_mem_cons] at hpub
    obtain ⟨w1, hrun, hscene⟩ := @run_readObject deps env hooks originId henv r.1 r.2 w
    have hrest := @ih hpub.2 w1
    rw [hscene] at hrest
    rw [finds_cons, ← hrest]
    have hsplit : (∃ w', ReadsFirst deps env hooks originId (r :: reads) w path object w') ↔
        (r = (.pub, path) ∧ (sceneOf w env hooks).value (readObject deps originId r.2 r.1) =
          .ok (some object)) ∨
        ((sceneOf w env hooks).value (readObject deps originId r.2 r.1) = .ok none ∧
          ∃ w', ReadsFirst deps env hooks originId reads w1 path object w') := by
      simp only [ReadsFirst, hrun, Prod.mk.injEq]
      constructor
      · rintro ⟨w', ⟨hr, hvalue, -⟩ | ⟨w2, ⟨hvalue, rfl⟩, hfirst⟩⟩
        · exact Or.inl ⟨hr, hvalue⟩
        · exact Or.inr ⟨hvalue, w', hfirst⟩
      · rintro (⟨hr, hvalue⟩ | ⟨hvalue, w', hfirst⟩)
        · exact ⟨w1, Or.inl ⟨hr, hvalue, rfl⟩⟩
        · exact ⟨w', Or.inr ⟨w1, ⟨hvalue, rfl⟩, hfirst⟩⟩
    rw [hsplit, eq_comm]
    rcases (sceneOf w env hooks).readObject_cases deps originId r.2 r.1 with
      ⟨found, hr, hh, hf⟩ | ⟨hr, hno, hf⟩ | ⟨e, hr, hf⟩
    · rw [hr]
      refine or_congr (and_congr_right fun _ => ⟨fun h => ?_, fun h => ?_⟩) (iff_of_false (by simp) ?_)
      · cases h
        exact ⟨hh, hf⟩
      · rw [holds_unique h.1 hh]
      · exact fun h => h.1.2 found hh
    · rw [hr]
      refine or_congr (iff_of_false (by simp) fun h => hno object h.2.1) ?_
      exact and_congr_left fun _ => iff_of_true rfl ⟨hf, hno⟩
    · rw [hr]
      refine or_congr (iff_of_false (by simp) fun h => h.2.2 hf) (iff_of_false (by simp) ?_)
      exact fun h => h.1.1 hf

theorem serveObject_of_read {path : Str} {status : StatusCode} {headers : Headers}
    {access : ObjectReadAccess} {object : Option LocalObject} {w w' : World}
    (h : run (gatewayStep deps.toDeps env hooks) (readObject deps originId path access) w =
      (.ok object, w')) :
    run (gatewayStep deps.toDeps env hooks)
        (serveObjectWithOptions deps originId path status none headers access) w =
      (.ok (object.map (objectResponse status headers)), w') := by
  rw [serveObject_run, h]
  rfl

theorem serveStatic_of_first {config : EdgeConfig} {target path : Str} {status : StatusCode}
    {headers : Headers} {access : ObjectReadAccess} {object : LocalObject} {w w' : World}
    (h : ReadsFirst deps env hooks originId (staticReads config access target) w path object w') :
    run (gatewayStep deps.toDeps env hooks) (serveStaticPathWithOptions deps originId config target
        status none headers access) w = (.ok (some (objectResponse status headers object)), w') := by
  rw [serveStaticPathWithOptions, run_bind]
  rcases h with ⟨-, h⟩ | ⟨w1, hnone, h⟩
  · rw [serveObject_of_read h]
    rfl
  · rw [serveObject_of_read hnone]
    by_cases hauto : config.edge.autoRewriteIndex = true
    · simp only [hauto, if_true] at h ⊢
      rcases h with ⟨-, h⟩ | ⟨w2, -, h⟩
      · exact serveObject_of_read h
      · exact h.elim
    · simp only [hauto, if_false, Bool.false_eq_true] at h
      exact h.elim

theorem handleMissing_of_first {config : EdgeConfig} {path : Str} {headers : Headers}
    {object : LocalObject} {w w' : World}
    (h : ReadsFirst deps env hooks originId (missingReads config) w path object w') :
    run (gatewayStep deps.toDeps env hooks) (handleMissing deps originId config headers) w =
      (.ok (some (objectResponse (missingStatus config) headers object)), w') := by
  rcases @run_handleMissing deps env hooks originId config headers w with
    ⟨hredirect, -⟩ | ⟨-, hnone, -⟩ | ⟨r, -, hone, hrun⟩
  · rw [missingReads, hredirect] at h
    exact h.elim
  · rw [hnone] at h
    exact h.elim
  · rw [hone] at h
    rcases h with ⟨-, h⟩ | ⟨w1, -, h⟩
    · rw [hrun, h]
      rfl
    · exact h.elim

/-! ## What the check sees -/

/-- A path that begins with a directory of configuration files is refused. -/
theorem refused_of_head {path dir : Str} (hdir : dir ∈ [".rendermesh".toList, "_rendermesh".toList])
    (h : (segments (trimStartSlashes path)).head? = some dir) : isReservedRendermeshPath path = true := by
  have hslash : '/' ∉ dir := by
    rcases List.mem_cons.mp hdir with rfl | hdir
    · decide
    · rw [List.mem_singleton.mp hdir]
      decide
  obtain ⟨⟨rest, hrest⟩, hend⟩ := (segments_head_iff hslash).mp h
  have hcases : trimStartSlashes path = dir ∨ dir ++ ['/'] <+: trimStartSlashes path := by
    rw [← hrest] at hend ⊢
    cases rest with
    | nil => exact Or.inl (List.append_nil dir)
    | cons c rest =>
      have hc : c = '/' := by simpa using hend
      rw [hc]
      exact Or.inr ⟨rest, by simp⟩
  simp only [isReservedRendermeshPath, Bool.or_eq_true, decide_eq_true_eq]
  simp only [List.mem_cons, List.not_mem_nil, or_false] at hdir
  rcases hdir with rfl | rfl
  · exact Or.inl (Or.inl hcases)
  · rcases hcases with hcase | hcase
    · exact Or.inl (Or.inr hcase)
    · exact Or.inr hcase

/-- Dropping from the end stops at the latest at a character that stays. -/
theorem rdropWhile_append {p : Char → Bool} {s : Str} {c : Char} (hc : p c = false) (t : Str) :
    (s ++ c :: t).rdropWhile p = s ++ c :: t.rdropWhile p := by
  induction t using List.reverseRecOn with
  | nil =>
    rw [List.rdropWhile_nil, List.rdropWhile_concat, hc]
    rfl
  | append_singleton t x ih =>
    rw [← List.cons_append, ← List.append_assoc, List.rdropWhile_concat, List.rdropWhile_concat, ih]
    split <;> simp

/-- Neither is a path that begins with the metadata directory accepted. -/
theorem rejected_of_head {path n : Str} (hn : normalizeObjectPath path = .ok n) :
    (segments (trimStartSlashes path)).head? ≠ some METADATA_DIR_NAME := by
  obtain ⟨hn, hacc⟩ := normalizeObjectPath_ok_iff.mp hn
  intro h
  obtain ⟨⟨rest, hrest⟩, hend⟩ := (segments_head_iff (by decide)).mp h
  -- the directory's name ends in a letter, so that only what follows it is trimmed
  have hslashes : ∃ slashes : Str, path = slashes ++ METADATA_DIR_NAME ++ rest ∧
      ∀ c ∈ slashes, c = '/' := by
    refine ⟨path.takeWhile (· == '/'), ?_, fun c hc => by simpa using List.mem_takeWhile_imp hc⟩
    rw [List.append_assoc, hrest]
    exact (List.takeWhile_append_dropWhile).symm
  obtain ⟨slashes, rfl, hslash⟩ := hslashes
  have hstart : (slashes ++ METADATA_DIR_NAME ++ rest).dropWhile isWhitespace =
      slashes ++ METADATA_DIR_NAME ++ rest := by
    cases slashes with
    | nil => exact List.dropWhile_cons_of_neg (by decide)
    | cons c slashes =>
      rw [hslash c List.mem_cons_self]
      exact List.dropWhile_cons_of_neg (by decide)
  have htrim : trim (slashes ++ METADATA_DIR_NAME ++ rest) =
      slashes ++ METADATA_DIR_NAME ++ rest.rdropWhile isWhitespace := by
    have hname : METADATA_DIR_NAME = ".rendermesh-met".toList ++ ['a'] := by decide
    rw [trim, hstart, hname]
    simpa using @rdropWhile_append isWhitespace (slashes ++ ".rendermesh-met".toList) 'a' (by decide) rest
  have hstrip : trimStartSlashes (slashes ++ METADATA_DIR_NAME ++ rest.rdropWhile isWhitespace) =
      METADATA_DIR_NAME ++ rest.rdropWhile isWhitespace := by
    rw [trimStartSlashes, List.append_assoc, List.dropWhile_append_of_pos
      (fun c hc => by simpa using hslash c hc)]
    exact List.dropWhile_cons_of_neg (by decide)
  rw [htrim, hstrip] at hn
  refine hacc.no_meta ((segments_head_iff (by decide)).mpr ?_)
  rw [← hrest] at hend
  rw [hn]
  refine ⟨List.prefix_append _ _, ?_⟩
  cases rest with
  | nil => exact Or.inl (by simp)
  | cons c rest =>
    have hc : c = '/' := by simpa using hend
    rw [hc, show '/' :: rest = [] ++ '/' :: rest from rfl, rdropWhile_append (by decide)]
    exact Or.inr (by simp)

/-- The first directory of the file is the first segment that names something. -/
theorem head_names {m : Str} (hm : Accepted m) :
    (names m).head?.map Name.text = (segments m).find? fun s => s ≠ [] ∧ s ≠ ['.'] := by
  have hblank : ∀ x ∈ segments m, x = [] ∨ x = ['.'] ∨ ValidName x := fun x hx => hm.segment hx
  unfold names
  generalize segments m = l at hblank
  induction l with
  | nil => rfl
  | cons x l ih =>
    rw [List.forall_mem_cons] at hblank
    rw [List.find?_cons, List.filterMap_cons]
    rcases hblank.1 with rfl | rfl | hvalid
    · exact ih hblank.2
    · exact ih hblank.2
    · rw [nameOf?, dif_pos hvalid]
      simp [hvalid.1, hvalid.2.1]

/-- Where an object can be read, the text of the path tells whether it is reserved. -/
theorem reserved_iff_conceals {path n m : Str} (hpath : isReservedRendermeshPath path = false)
    (hreads : ReadsAs path n m) : Reserved m ↔ Conceals path := by
  obtain ⟨rfl, hn⟩ := normalizeObjectPath_ok_iff.mp hreads.once
  obtain ⟨rfl, hm⟩ := normalizeObjectPath_ok_iff.mp hreads.twice
  have hhead := head_names hm
  rw [show segments (trimStartSlashes (trim (trimStartSlashes (trim path)))) = segments (stripped path)
    from rfl, ← firstDirectory] at hhead
  constructor
  · rintro ⟨dir, hdir, hreserved⟩
    rw [hdir, Option.map_some] at hhead
    refine ⟨dir.text, hreserved, hhead.symm, fun hfirst => ?_⟩
    -- a path that begins with the directory is refused
    rw [reservedDirs, List.mem_cons, List.mem_cons, List.mem_singleton] at hreserved
    have hmeta := rejected_of_head hreads.once
    rw [hfirst, Ne, Option.some.injEq] at hmeta
    have hconfig : dir.text ∈ [".rendermesh".toList, "_rendermesh".toList] := by
      simpa [hmeta, ← or_assoc] using hreserved
    rw [refused_of_head hconfig hfirst] at hpath
    cases hpath
  · rintro ⟨dir, hreserved, hdir, -⟩
    rw [hdir] at hhead
    obtain ⟨name, hname, rfl⟩ := Option.map_eq_some_iff.mp hhead
    exact ⟨name, hname, hreserved⟩

/-- An object that a public request has read is in a reserved directory exactly if its path conceals
one. -/
theorem reserved_of_read {path n m : Str} {object : LocalObject} {w w' : World}
    (hread : run (gatewayStep deps.toDeps env hooks) (readObject deps originId path .pub) w =
      (.ok (some object), w'))
    (hreads : ReadsAs path n m) : Reserved m ↔ Conceals path := by
  refine reserved_iff_conceals ?_ hreads
  by_contra hrefused
  rw [Gateway.readObject, Bool.not_eq_false _ |>.mp hrefused] at hread
  cases hread

end

/-! ## Requests -/

section
variable (deps : GatewayDeps) (env : Env) (hooks : Hooks) (service : RenderGatewayService)
  (request : RenderRequest) (resolved : ResolvedHost) (config : EdgeConfig)

/-- The paths that a request tries and that no hook chose: the target of the request, its
auto-index candidate and the missing page. -/
def triedReads : List Read :=
  match requestEnd deps hooks service request resolved config with
  | .continued _ =>
    if (findRedirect config request.path request.query).isSome then []
    else targetReads config request.path ++ missingReads config
  | .answered (.serveFile _ _ _) _ => missingReads config
  | _ => []

/-- The request finds its object at `path`, which no hook chose. -/
def FoundAt (w : World) (path : Str) (object : LocalObject) : Prop :=
  match requestEnd deps hooks service request resolved config with
  | .continued _ => findRedirect config request.path request.query = none ∧ ∃ w',
      ReadsFirst deps env hooks resolved.originId
        (targetReads config request.path ++ missingReads config)
        (afterHooks deps hooks service request resolved config w) path object w'
  | .answered (.serveFile _ filePath _) _ => ∃ w1 w',
      ReadsNothing deps env hooks resolved.originId (staticReads config .internal filePath)
        (afterHooks deps hooks service request resolved config w) w1 ∧
      ReadsFirst deps env hooks resolved.originId (missingReads config) w1 path object w'
  | _ => False

/-- In the tree the first object on these paths is at `path`. -/
def LiesAt (s : Scene) (path : Str) (object : LocalObject) : Prop :=
  match requestEnd deps hooks service request resolved config with
  | .continued _ => findRedirect config request.path request.query = none ∧
    s.Finds deps.toDeps resolved.originId (targetReads config request.path ++ missingReads config)
      (.pub, path) object
  | .answered (.serveFile _ filePath _) _ =>
    s.AllEmpty deps.toDeps resolved.originId (staticReads config .internal filePath) ∧
      s.Finds deps.toDeps resolved.originId (missingReads config) (.pub, path) object
  | _ => False

/-- The body of the response to a `GET` is that of the mirror's file `m`. -/
def IsBodyOf (w : World) (response : RenderResponse) (m : Str) : Prop :=
  request.method = .get ∧ ∃ path n object,
    FoundAt deps env hooks service request resolved config w path object ∧ ReadsAs path n m ∧
    response.body = object.body

end

section
variable {deps : GatewayDeps} {env : Env} {hooks : Hooks} {service : RenderGatewayService}
  {request : RenderRequest} {resolved : ResolvedHost} {config : EdgeConfig} {w w' : World}
  {response : RenderResponse} {path : Str} {object : LocalObject}

theorem found_read (hfound : FoundAt deps env hooks service request resolved config w path object) :
    ∃ w1 w2, run (gatewayStep deps.toDeps env hooks) (readObject deps resolved.originId path .pub) w1 =
      (.ok (some object), w2) := by
  unfold FoundAt at hfound
  split at hfound
  · obtain ⟨-, w2, hfirst⟩ := hfound
    obtain ⟨w1, hread⟩ := readsFirst_read hfirst
    exact ⟨w1, w2, hread⟩
  · obtain ⟨w3, w2, -, hfirst⟩ := hfound
    obtain ⟨w1, hread⟩ := readsFirst_read hfirst
    exact ⟨w1, w2, hread⟩
  · exact hfound.elim

/-- The object that a request finds is what it is answered with. -/
theorem found_response (hresolve : service.resolver.resolve request.host = some resolved)
    (hmethod : request.method = .get ∨ request.method = .head)
    (hstored : w.edgeConfigs resolved.originId = some (.valid config))
    (hfound : FoundAt deps env hooks service request resolved config w path object)
    (hrun : run (gatewayStep deps.toDeps env hooks) (service.handle deps request) w =
      (.ok response, w')) :
    ∃ status headers, response = finalizeResponse request (objectResponse status headers object) := by
  rw [run_of_chain hresolve hmethod hstored] at hrun
  unfold FoundAt at hfound
  cases hend : requestEnd deps hooks service request resolved config with
  | failed status =>
    rw [hend] at hfound
    exact hfound.elim
  | continued state =>
    rw [hend] at hfound hrun
    obtain ⟨hredirect, w2, hfirst⟩ := hfound
    rcases readsFirst_append hfirst with hfirst | ⟨w1, hnothing, hfirst⟩
    · rw [requestAnswer, handleStatic, hredirect] at hrun
      simp only at hrun
      rw [run_bind, serveStaticPath, serveStatic_of_first hfirst] at hrun
      cases hrun
      exact ⟨_, _, rfl⟩
    · have hlookup : lookupReads config request (.continued state) =
          some (targetReads config request.path) := by
        simp [lookupReads, hredirect]
      rw [run_continued_missing hlookup hnothing, missingAnswer, run_bind,
        handleMissing_of_first hfirst] at hrun
      cases hrun
      exact ⟨_, _, rfl⟩
  | answered outcome state =>
    rw [hend] at hfound hrun
    cases outcome with
    | serveFile status filePath params =>
      obtain ⟨w1, w2, hnothing, hfirst⟩ := hfound
      rw [run_serveFile_missing hnothing, missingAnswer, run_bind,
        handleMissing_of_first hfirst] at hrun
      cases hrun
      exact ⟨_, _, rfl⟩
    | _ => exact hfound.elim

end

theorem missingReads_pub {config : EdgeConfig} : ∀ r ∈ missingReads config, r.1 = .pub := by
  unfold missingReads
  split <;> simp

theorem targetReads_pub {config : EdgeConfig} {path : Str} : ∀ r ∈ targetReads config path, r.1 = .pub := by
  unfold targetReads staticReads
  split <;> simp

section
variable {deps : GatewayDeps} {env : Env} {hooks : Hooks} {service : RenderGatewayService}
  {request : RenderRequest} {resolved : ResolvedHost} {config : EdgeConfig} {w : World} {path : Str}
  {object : LocalObject}

/-- What is found was tried. -/
theorem found_tried (hfound : FoundAt deps env hooks service request resolved config w path object) :
    (.pub, path) ∈ triedReads deps hooks service request resolved config := by
  unfold FoundAt at hfound
  unfold triedReads
  split at hfound
  · obtain ⟨hredirect, w', hfirst⟩ := hfound
    rw [hredirect]
    exact readsFirst_mem hfirst
  · obtain ⟨w1, w', -, hfirst⟩ := hfound
    exact readsFirst_mem hfirst
  · exact hfound.elim

/-- On a healthy disk a request finds what lies there. -/
theorem found_iff (henv : NoFaults env) :
    FoundAt deps env hooks service request resolved config w path object ↔
      LiesAt deps hooks service request resolved config (sceneOf w env hooks) path object := by
  have hscene : sceneOf (afterHooks deps hooks service request resolved config w) env hooks =
      sceneOf w env hooks := rfl
  unfold FoundAt LiesAt
  split
  · rw [← hscene, ← readsFirst_iff henv fun r hr =>
      (List.mem_append.mp hr).elim (targetReads_pub r) (missingReads_pub r)]
  · rw [← hscene, ← readsNothing_iff henv]
    constructor
    · rintro ⟨w1, w', hnothing, hfirst⟩
      refine ⟨⟨w1, hnothing⟩, ?_⟩
      rw [← readsNothing_scene henv hnothing, ← readsFirst_iff henv missingReads_pub]
      exact ⟨w', hfirst⟩
    · rintro ⟨⟨w1, hnothing⟩, hfinds⟩
      rw [← readsNothing_scene henv hnothing, ← readsFirst_iff henv missingReads_pub] at hfinds
      obtain ⟨w', hfirst⟩ := hfinds
      exact ⟨w1, w', hnothing, hfirst⟩
  · exact Iff.rfl

end

/-- A request is never answered with a file of a reserved directory if no path that it tries
conceals one. On a healthy disk it is not, exactly if the path at which it finds its object does
not. -/
theorem reserved_never_served_iff (deps : GatewayDeps) (env : Env) (hooks : Hooks)
    (service : RenderGatewayService) {request : RenderRequest} {resolved : ResolvedHost}
    {config : EdgeConfig} {w w' : World} {response : RenderResponse}
    (hresolve : service.resolver.resolve request.host = some resolved)
    (hmethod : request.method = .get ∨ request.method = .head)
    (hstored : w.edgeConfigs resolved.originId = some (.valid config))
    (hrun : run (gatewayStep deps.toDeps env hooks) (service.handle deps request) w =
      (.ok response, w')) :
    ((∀ r ∈ triedReads deps hooks service request resolved config, ¬ Conceals r.2) →
      ∀ m, IsBodyOf deps env hooks service request resolved config w response m → ¬ Reserved m) ∧
    (NoFaults env →
      ((∀ m, IsBodyOf deps env hooks service request resolved config w response m → ¬ Reserved m) ↔
        request.method = .head ∨ ∀ path object,
          LiesAt deps hooks service request resolved config (sceneOf w env hooks) path object →
          ¬ Conceals path)) := by
  refine ⟨fun hclear => ?_, fun henv => ⟨fun h => ?_, ?_⟩⟩
  · rintro m ⟨-, path, n, object, hfound, hreads, -⟩ hreserved
    obtain ⟨w1, w2, hread⟩ := found_read hfound
    exact hclear _ (found_tried hfound) ((reserved_of_read hread hreads).mp hreserved)
  · refine hmethod.symm.imp_right fun hget path object hlies hconceals => ?_
    have hfound := (found_iff henv).mpr hlies
    obtain ⟨status, headers, rfl⟩ := found_response hresolve hmethod hstored hfound hrun
    obtain ⟨w1, w2, hread⟩ := found_read hfound
    obtain ⟨⟨n, m, hn, hm, -⟩, -⟩ := readObject_some hread
    refine h m ⟨hget, path, n, object, hfound, ⟨hn, hm⟩, ?_⟩ ((reserved_of_read hread ⟨hn, hm⟩).mpr hconceals)
    simp [finalizeResponse, hget, objectResponse]
  · rintro (hhead | h) m ⟨hget, path, n, object, hfound, hreads, -⟩ hreserved
    · rw [hhead] at hget
      cases hget
    · obtain ⟨w1, w2, hread⟩ := found_read hfound
      exact h path object ((found_iff henv).mp hfound) ((reserved_of_read hread hreads).mp hreserved)

/-! ## The small site -/

/-- The mirror with one object, in a reserved directory. -/
def reservedWorld : World := activated "_rendermesh/a".toList

theorem reservedWorld_stored :
    reservedWorld.edgeConfigs "web".toList = some (.valid defaultEdgeConfig) := by decide +kernel

/-- What a `GET` is answered with. -/
def answered (path : String) (resolver : HostResolver) (w : World) :
    Outcome Error RenderResponse × World :=
  run (gatewayStep smallDeps (holding "_rendermesh/a".toList) noHooks)
    ((siteService resolver).handle smallGatewayDeps (getRequest path)) w

/-- What a public request reads. -/
def looked (path : String) (w : World) : Outcome Error (Option LocalObject) × World :=
  run (gatewayStep smallDeps (holding "_rendermesh/a".toList) noHooks)
    (Gateway.readObject smallGatewayDeps "web".toList path.toList .pub) w

/-- The response shows the file `m` of the site. -/
def Shows (path : String) (resolver : HostResolver) (w : World) (response : RenderResponse)
    (m : Str) : Prop :=
  IsBodyOf smallGatewayDeps (holding "_rendermesh/a".toList) noHooks (siteService resolver)
    (getRequest path) ⟨"a.com".toList, "a.com".toList, "web".toList⟩ defaultEdgeConfig w response m

/-- Without rewrites a request looks at its path, below it, and for the missing page. -/
theorem siteReads {path : String} (hpath : resolveRequestTarget defaultEdgeConfig path.toList = path.toList) :
    targetReads defaultEdgeConfig path.toList ++ missingReads defaultEdgeConfig =
      [(.pub, path.toList), (.pub, autoIndexCandidate path.toList), (.pub, "/index.html".toList)] := by
  rw [targetReads, hpath]
  rfl

theorem foundAt_site {resolver : HostResolver} {path : String} {p : Str} {object : LocalObject}
    {w : World} (hpath : resolveRequestTarget defaultEdgeConfig path.toList = path.toList) :
    FoundAt smallGatewayDeps (holding "_rendermesh/a".toList) noHooks (siteService resolver)
        (getRequest path) ⟨"a.com".toList, "a.com".toList, "web".toList⟩ defaultEdgeConfig w p
        object ↔ ∃ w', ReadsFirst smallGatewayDeps (holding "_rendermesh/a".toList) noHooks "web".toList
      [(.pub, path.toList), (.pub, autoIndexCandidate path.toList), (.pub, "/index.html".toList)]
      (later w 1) p object w' := by
  rw [← siteReads hpath]
  exact ⟨fun h => h.2, fun h => ⟨rfl, h⟩⟩

/-- What lies at one of these. -/
theorem liesAt_site {resolver : HostResolver} {path : String} {p : Str} {object : LocalObject} {s : Scene}
    (hpath : resolveRequestTarget defaultEdgeConfig path.toList = path.toList)
    (h : LiesAt smallGatewayDeps noHooks (siteService resolver) (getRequest path)
      ⟨"a.com".toList, "a.com".toList, "web".toList⟩ defaultEdgeConfig s p object) :
    p ∈ [path.toList, autoIndexCandidate path.toList, "/index.html".toList] := by
  obtain ⟨-, before, after, hreads, -⟩ := h
  have hreads := (siteReads hpath).symm.trans hreads
  have hmem : (.pub, p) ∈ before ++ ((.pub, p) : Read) :: after := by simp
  rw [← hreads] at hmem
  simpa using hmem

/-- Without the dot it is refused, and nothing else that the request looks at is reserved. -/
theorem reserved_never_served_plain : ∃ resolver,
    HostResolver.new (smallManifest [("a.com", "web")]) = .ok resolver ∧
    ∃ response w', answered "/_rendermesh/a" resolver reservedWorld = (.ok response, w') ∧
      ∀ m, Shows "/_rendermesh/a" resolver reservedWorld response m → ¬ Reserved m := by
  obtain ⟨resolver, hnew, hres⟩ := site_resolver
  have hanswer : (HostResolver.new (smallManifest [("a.com", "web")])).toOption.map (fun resolver =>
      (answered "/_rendermesh/a" resolver reservedWorld).1.ok?.isSome) = some true := by decide +kernel
  rw [hnew] at hanswer
  have hstored := reservedWorld_stored
  -- only the stored config of the world matters from here on
  generalize reservedWorld = w at hanswer hstored ⊢
  obtain ⟨response, hok⟩ := Outcome.ok?_isSome.mp (Option.some.inj hanswer)
  have hrun : answered "/_rendermesh/a" resolver w =
    (.ok response, (answered "/_rendermesh/a" resolver w).2) := Prod.ext hok rfl
  refine ⟨resolver, hnew, response, _, hrun, ?_⟩
  have hresolve : (siteService resolver).resolver.resolve (getRequest "/_rendermesh/a").host =
    some ⟨"a.com".toList, "a.com".toList, "web".toList⟩ := hres
  refine ((reserved_never_served_iff smallGatewayDeps (holding "_rendermesh/a".toList) noHooks
    (siteService resolver) hresolve (Or.inl rfl) hstored hrun).2 fun _ _ => rfl).mpr (Or.inr ?_)
  intro path object hlies
  have hplain : ∀ p ∈ ["/_rendermesh/a".toList, autoIndexCandidate "/_rendermesh/a".toList,
      "/index.html".toList], ¬ Conceals p := by decide
  exact hplain path (liesAt_site (by decide) hlies)

/-- What is read at the path and answered is shown. -/
theorem shows_of_looked {resolver : HostResolver} {path : String} {n m : Str} {w : World}
    {status : StatusCode} {body : List UInt8}
    (hpath : resolveRequestTarget defaultEdgeConfig path.toList = path.toList)
    (hreads : ReadsAs path.toList n m)
    (hlooked : (looked path (later w 1)).1.ok?.join.map (·.body) = some body)
    (hanswer : (answered path resolver w).1.ok?.map (fun response => (response.status, response.body)) =
      some (status, body)) :
    ∃ response w', answered path resolver w = (.ok response, w') ∧ response.status = status ∧
      response.body = body ∧ Shows path resolver w response m := by
  obtain ⟨response, hok, hshown⟩ := Option.map_eq_some_iff.mp hanswer
  obtain ⟨hstatus, hbody⟩ := Prod.mk.inj hshown
  obtain ⟨object, hobject, hfile⟩ := Option.map_eq_some_iff.mp hlooked
  have hfirst : looked path (later w 1) = (.ok (some object), (looked path (later w 1)).2) :=
    Prod.ext (Outcome.ok?_eq_some.mp (Option.join_eq_some_iff.mp hobject)) rfl
  refine ⟨response, (answered path resolver w).2, Prod.ext (Outcome.ok?_eq_some.mp hok) rfl, hstatus,
    hbody, rfl, path.toList, n, object, ?_, hreads, hbody.trans hfile.symm⟩
  exact (foundAt_site hpath).mpr ⟨_, Or.inl ⟨rfl, hfirst⟩⟩

/-- **Counterexample**: the object of a reserved directory, behind a dot. -/
theorem dotted_path_discloses : ∃ resolver,
    HostResolver.new (smallManifest [("a.com", "web")]) = .ok resolver ∧
    validateEdgeConfig smallDeps defaultEdgeConfig = .ok () ∧
    ∃ response w', answered "/./_rendermesh/a" resolver reservedWorld = (.ok response, w') ∧
      response.status = .ok ∧ response.body = [65] ∧
      Shows "/./_rendermesh/a" resolver reservedWorld response "./_rendermesh/a".toList ∧
      Reserved "./_rendermesh/a".toList := by
  obtain ⟨resolver, hnew, -⟩ := site_resolver
  have hlooked : (looked "/./_rendermesh/a" (later reservedWorld 1)).1.ok?.join.map (·.body) =
      some [65] := by decide +kernel
  have hanswer : (HostResolver.new (smallManifest [("a.com", "web")])).toOption.map (fun resolver =>
      (answered "/./_rendermesh/a" resolver reservedWorld).1.ok?.map fun response =>
        (response.status, response.body)) = some (some (.ok, [65])) := by decide +kernel
  rw [hnew] at hanswer
  have hreads : ReadsAs "/./_rendermesh/a".toList "./_rendermesh/a".toList "./_rendermesh/a".toList :=
    ⟨by decide, by decide⟩
  obtain ⟨response, w', hrun, hstatus, hbody, hshows⟩ :=
    shows_of_looked (by decide) hreads hlooked (Option.some.inj hanswer)
  exact ⟨resolver, hnew, rfl, response, w', hrun, hstatus, hbody, hshows,
    ⟨"_rendermesh".toList, by decide⟩, by decide, by decide⟩

end RenderMesh.Bugs.DottedReserved
