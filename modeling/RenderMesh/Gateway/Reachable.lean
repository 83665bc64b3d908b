import RenderMesh.Core.Percent
import RenderMesh.Gateway.Route
import RenderMesh.Refresh.Shadows

/-!
# The objects of an activated generation

How the keys of a bucket are reached through the route. With the default edge
configuration a path `/k` leads to the object `k` of the mirror, for every canonical key
`k` outside the internal namespaces (`value_of_key`). The path of a URI is not decoded on
the way, so a percent-encoded path leads to the key that is spelled like the encoding.

`served_by_own_path` puts it together with the mirror of an activated generation and with the
router, which has `/health` and `/echo` for itself. A key that a URI has to escape is not reached
through its encoding (`encoded_key_not_found`).
-/
namespace RenderMesh.Gateway

open RenderMesh.Core RenderMesh.Mirror RenderMesh.Server RenderMesh.Domains RenderMesh.Refresh

/-- A key of an internal namespace. -/
def ReservedKey (k : Str) : Prop :=
  (segments k).head? = some ".rendermesh".toList ∨ (segments k).head? = some "_rendermesh".toList

section
variable {k : Str} (hk : Canonical k)
include hk

theorem canonical_ne_nil : k ≠ [] := hk.accepted.nonempty

theorem canonical_getLast : k.getLast? ≠ some '/' := by
  intro hlast
  obtain ⟨t, ht⟩ := List.getLast?_eq_some_iff.mp hlast
  refine (hk.segment [] ?_).1 rfl
  rw [ht, show t ++ ['/'] = t ++ '/' :: [] from rfl, segments_join]
  exact List.mem_append_right _ (by decide)

/-- Trimming leaves `/k` as it is. -/
theorem trim_slash : trim ('/' :: k) = '/' :: k := by
  have hlen : (k.dropWhile isWhitespace).length ≤ k.length := (List.dropWhile_suffix _).length_le
  have hlen' : (trim k).length ≤ (k.dropWhile isWhitespace).length :=
    (List.rdropWhile_prefix _ _).length_le
  rw [hk.trimmed] at hlen'
  have hd : k.dropWhile isWhitespace = k :=
    (List.dropWhile_suffix _).eq_of_length (Nat.le_antisymm hlen hlen')
  have hr : k.rdropWhile isWhitespace = k := by
    have := hk.trimmed
    rwa [trim, hd] at this
  have hlast := List.rdropWhile_eq_self_iff.mp hr (canonical_ne_nil hk)
  rw [trim, List.dropWhile_cons_of_neg (by decide), List.rdropWhile_eq_self_iff]
  intro hne
  rwa [List.getLast_cons (canonical_ne_nil hk)]

theorem normalize_slash : normalizeObjectPath ('/' :: k) = .ok k := by
  have hn := normalizeObjectPath_ok_iff.mp hk.normalized
  refine normalizeObjectPath_ok_iff.mpr ⟨?_, hk.accepted⟩
  rw [trim_slash hk]
  have h := hn.1
  rw [hk.trimmed] at h
  rw [trimStartSlashes, List.dropWhile_cons_of_pos (by decide)]
  exact h

theorem not_denied (hres : ¬ ReservedKey k) : ¬ Denied .pub ('/' :: k) := by
  intro ⟨_, h⟩
  have htrim : trimStartSlashes ('/' :: k) = k := by
    have h := (normalizeObjectPath_ok_iff.mp (normalize_slash hk)).1
    rwa [trim_slash hk, eq_comm] at h
  have hhead : ∀ start : Str, '/' ∉ start →
      (k = start ∨ start ++ ['/'] <+: k) → (segments k).head? = some start := by
    intro start hs h
    refine (segments_head_iff hs).mpr ?_
    rcases h with rfl | ⟨t, rfl⟩
    · exact ⟨List.prefix_refl _, Or.inl rfl⟩
    · exact ⟨⟨'/' :: t, by simp⟩, Or.inr (by simp)⟩
  rw [isReservedRendermeshPath, htrim] at h
  simp only [Bool.or_eq_true, decide_eq_true_eq] at h
  rcases h with ((h | h) | h) | h
  · exact hres (Or.inl (hhead _ (by decide) (Or.inl h)))
  · exact hres (Or.inl (hhead _ (by decide) (Or.inr h)))
  · exact hres (Or.inr (hhead _ (by decide) (Or.inl h)))
  · exact hres (Or.inr (hhead _ (by decide) (Or.inr h)))

omit hk in
/-- The router leaves all but two of these paths to the gateway. -/
theorem routeOf_slash (hres : ¬ ReservedKey k) (hhealth : k ≠ "health".toList)
    (hecho : k ≠ "echo".toList) : routeOf ('/' :: k) = .render := by
  have hhead : ∀ rest : Str, k = "_rendermesh".toList ++ '/' :: rest → ReservedKey k := by
    rintro rest rfl
    exact Or.inr ((segments_head_iff (by decide)).mpr ⟨List.prefix_append _ _, Or.inr (by simp)⟩)
  have h1 : '/' :: k ≠ "/health".toList := fun h => hhealth (List.cons.inj h).2
  have h2 : '/' :: k ≠ "/echo".toList := fun h => hecho (List.cons.inj h).2
  have h3 : '/' :: k ≠ "/_rendermesh/origins".toList := fun h =>
    hres (hhead "origins".toList (List.cons.inj h).2)
  have hnone : stripPrefix? "/_rendermesh/origins/".toList ('/' :: k) = none := by
    refine if_neg ?_
    rintro ⟨rest, h⟩
    exact hres (hhead ("origins/".toList ++ rest) (List.cons.inj h).2.symm)
  rw [routeOf, if_neg h1, if_neg h2, if_neg h3, hnone]

/-- The object of a canonical key, with readable metadata, is what its path holds. -/
theorem holds_of_file {s : Scene} {deps : Deps} {id : Str} {body : Bytes} {content : Str}
    {metadata : ObjectMetadata} {sidecar : Bytes} (hres : ¬ ReservedKey k)
    (hid : validateOriginId id = .ok ())
    (hlong : ∀ q, (s.fs.lookup q).isSome → ∀ n ∈ q, s.long n = false)
    (hfile : s.fs.lookup (objectNames id k) = some (.file body))
    (hside : s.fs.lookup (sidecarAt deps id k) = some (.file sidecar))
    (hutf8 : fromUtf8 sidecar = some content) (hjson : deps.metadataOfJson content = .ok metadata) :
    s.Holds deps id .pub ('/' :: k) ⟨body, metadata⟩ ∧ ¬ s.Fails deps id .pub ('/' :: k) := by
  have hdir : ¬ s.IsDir id k := by
    intro h
    exact absurd (hfile.symm.trans h.1) (by simp)
  refine ⟨⟨not_denied hk hres, hid, k, k, normalize_slash hk, hdir, hk.normalized, hfile,
    Or.inr ⟨sidecar, content, hside, hutf8, hjson⟩⟩, ?_⟩
  intro ⟨_, _, n, hn, _, h⟩
  rw [normalize_slash hk] at hn
  cases hn
  rcases h with ⟨e, h⟩ | ⟨m, hm, h⟩
  · rw [hk.normalized] at h
    cases h
  · rw [hk.normalized] at hm
    cases hm
    rcases h with h | ⟨-, h | ⟨body', h, h'⟩⟩
    · rw [asDir_of_plain hk.plain] at h
      exact FileTree.not_unreadable s.long (Or.inl ⟨body, FileTree.readFile_succeeds s.long hfile
        (hlong _ (by rw [hfile]; rfl))⟩) h
    · exact FileTree.not_unreadable s.long (Or.inl ⟨sidecar, FileTree.readFile_succeeds s.long hside
        (hlong _ (by rw [hside]; rfl))⟩) h
    · rw [hside] at h
      cases h
      rcases h' with h' | ⟨content', e, h', hj⟩
      · rw [hutf8] at h'
        cases h'
      · rw [hutf8] at h'
        cases h'
        rw [hjson] at hj
        cases hj

end

/-! ## The request for a key -/

/-- The names on the disk are names it takes. -/
def FitsDisk (env : Env) (w : World) : Prop :=
  ∀ q, (w.fs.lookup q).isSome → ∀ n ∈ q, env.long n = false

/-- The metadata of what the storage gives is read back as it was written. -/
def MetadataReadsBack (deps : Deps) (env : Env) (id : Str) : Prop :=
  ∀ t k object, env.getObject t id k = .ok object →
    ∃ content, fromUtf8 (deps.metadataToJson (objectMetadata object)) = some content ∧
      deps.metadataOfJson content = .ok (objectMetadata object)

/-- The response has the body of an object that the storage gave for `k` and that was checked
against the state `st` of the index. -/
def ServesKey (env : Env) (id : Str) (w : World) (k : Str) (st : OriginFileState)
    (response : HttpResponse) : Prop :=
  response.status = .ok ∧ ∃ t st' object, t < w.clock ∧ env.getObject t id k = .ok object ∧
    validateDownloadedObject k st' object = .ok () ∧ sameSourceState st' st = true ∧
    response.body = object.body

section
variable {s : Scene} {deps : GatewayDeps} {id : Str}

theorem value_readObject {access : ObjectReadAccess} {path : Str} {object : LocalObject}
    (hholds : s.Holds deps.toDeps id access path object)
    (hfails : ¬ s.Fails deps.toDeps id access path) :
    ∃ object', s.value (readObject deps id path access) = .ok (some object') ∧
      object'.body = object.body := by
  rcases s.readObject_cases deps id path access with ⟨object', hr, hh, -⟩ | ⟨-, hno, -⟩ | ⟨e, -, hf⟩
  · obtain ⟨-, -, n, m, hn, -, hm, hfile, -⟩ := hholds
    obtain ⟨-, -, n', m', hn', -, hm', hfile', -⟩ := hh
    obtain rfl := Except.ok.inj (hn.symm.trans hn')
    obtain rfl := Except.ok.inj (hm.symm.trans hm')
    have hbody := hfile'.symm.trans hfile
    exact ⟨object', hr, by simpa using hbody⟩
  · exact absurd hholds (hno object)
  · exact absurd hf hfails

/-- A path that holds an object is answered with it. -/
theorem value_serveStaticPath (config : EdgeConfig) {path : Str} {object : LocalObject}
    (hholds : s.Holds deps.toDeps id .pub path object) (hfails : ¬ s.Fails deps.toDeps id .pub path)
    (status : StatusCode) (headers : Headers) : ∃ response,
      s.value (serveStaticPath deps id config path status none headers) = .ok (some response) ∧
      response.status = status ∧ response.body = object.body := by
  obtain ⟨object', hr, hbody⟩ := value_readObject hholds hfails
  refine ⟨⟨status, applyHeaders (headersFromMetadata object'.metadata) headers, object'.body⟩,
    ?_, rfl, hbody⟩
  rw [serveStaticPath, serveStaticPathWithOptions, Scene.value, eval_bind, serveObjectWithOptions,
    eval_bind, show eval s.answer (readObject deps id path .pub) = _ from hr]
  rfl

/-- With the default configuration `/k` is its own target. -/
theorem value_of_key {service : RenderGatewayService} {request : RenderRequest}
    {resolved : ResolvedHost} {k : Str} {object : LocalObject} (hk : Canonical k)
    (hresolve : service.resolver.resolve request.host = some resolved)
    (hmethod : request.method = .get) (hpath : request.path = '/' :: k)
    (hstored : s.edgeConfigs resolved.originId = some (.valid defaultEdgeConfig))
    (hholds : s.Holds deps.toDeps resolved.originId .pub ('/' :: k) object)
    (hfails : ¬ s.Fails deps.toDeps resolved.originId .pub ('/' :: k)) :
    ∃ response, s.value (service.handle deps request) = .ok response ∧ response.status = .ok ∧
      response.body = object.body := by
  have htarget : resolveRequestTarget defaultEdgeConfig request.path = '/' :: k := by
    rw [resolveRequestTarget, resolveRewrite_of_no_rules rfl, hpath]
    refine resolveRootObject_of_no_slash ?_
    rw [List.getLast?_cons_of_ne_nil (canonical_ne_nil hk)]
    exact canonical_getLast hk
  obtain ⟨response, hr, hstatus, hbody⟩ := value_serveStaticPath defaultEdgeConfig hholds hfails .ok
    (combinedResponseHeaders (filteredHeaders ∅) (service.corsHeaders deps resolved.originId request))
  refine ⟨response, ?_, hstatus, hbody⟩
  have hredirect := @findRedirect_of_no_rules defaultEdgeConfig rfl request.path request.query
  rw [value_handle hresolve (Or.inl hmethod), value_serve hstored]
  refine (value_handleStatic hredirect _).trans ?_
  rw [htarget, hr]
  simp [finalizeResponse, hmethod]

end

/-! ## Activated generations -/

section
variable {deps : GatewayDeps} {env : Env} {hooks : Hooks} {service : RenderGatewayService}
  {id : Str} {lo : Nat} {index : OriginFreshnessIndex} {w : World}

/-- The objects of a generation are reached by their own paths, but for the two that the router has
for itself, and no two paths are the same. -/
theorem served_by_own_path (bodyLimitBytes : Nat)
    (system : Route → HttpRequest → Handling HttpResponse) (henv : NoFaults env) (hdisk : FitsDisk env w)
    (hjson : MetadataReadsBack deps.toDeps env id) (hid : validateOriginId id = .ok ())
    (hgen : MirrorsListing deps.toDeps env id True lo index w)
    (hstored : w.edgeConfigs id = some (.valid defaultEdgeConfig)) :
    (∀ k st, index.files[k]? = some st → Canonical k → ¬ ReservedKey k →
      k ≠ "health".toList → k ≠ "echo".toList → ∀ (request : HttpRequest) resolved, request.method = .get → request.uri.path = '/' :: k →
        service.resolver.resolve (renderRequest request).host = some resolved →
        resolved.originId = id → request.body.length ≤ bodyLimitBytes →
        ∃ response w', run (gatewayStep deps.toDeps env hooks)
            (createRouter deps service bodyLimitBytes system request) w = (.ok response, w') ∧
          ServesKey env id w k st response) ∧
    (∀ k, encodePath k = k ↔ k.all isLiteral = true) ∧
    ∀ k k', k ≠ k' → encodePath k ≠ encodePath k' := by
  refine ⟨?_, fun k => encodePath_eq_self_iff, fun k k' hne he => hne (encodePath_injective he)⟩
  intro k st hst hk hres hhealth hecho request resolved hmethod hpath hresolve horigin hlen
  subst horigin
  have hroute : routeOf request.uri.path = .render := by
    rw [hpath]
    exact routeOf_slash hres hhealth hecho
  obtain ⟨t, st', object, ht, hget, hval, hsame, hfile, hside⟩ := hgen.held k st hst
  obtain ⟨n, hn, hsidecar⟩ := hside trivial
  obtain rfl := Except.ok.inj (hk.normalized.symm.trans hn)
  obtain ⟨content, hutf8, hmeta⟩ := hjson t k object hget
  obtain ⟨hholds, hfails⟩ := @holds_of_file k hk (sceneOf w env hooks) deps.toDeps resolved.originId
    object.body content (objectMetadata object) _ hres hid hdisk hfile hsidecar hutf8 hmeta
  obtain ⟨response, hv, hstatus, hbody⟩ := value_of_key hk hresolve hmethod hpath hstored hholds
    hfails
  obtain ⟨w', hrun, -⟩ := @run_scene deps.toDeps env hooks henv _ _
    (render_looks deps service bodyLimitBytes request) w
  refine ⟨renderResponse response, w', ?_, hstatus, t, st', object, ht, hget, hval, hsame, hbody⟩
  rw [createRouter_render _ _ _ _ hroute, hrun, value_render hlen hv]

end

/-! ## A storage with one object -/

/-- A storage with one object, of this key, and a disk that takes any name. -/
def holding (key : Str) : Env :=
  { calmEnv with
    long := fun _ => false
    listObjects := fun _ _ => .ok [⟨key, none, none, none, 1, none, none⟩]
    getObject := fun _ _ key => .ok ⟨key, [65], none, none, none, none⟩ }

/-- The state after its first refresh. -/
def activated (key : Str) : World :=
  (refreshOrigin smallDeps (holding key) plainService "web".toList (World.start FileTree.empty)).2

/-- `GET` of a path at `a.com`. -/
def getUri (path : Str) : HttpRequest where
  method := .get
  uri := ⟨path, none⟩
  headers := [("host".toList, utf8 "a.com".toList)]
  body := []

/-- The system routes have nothing to say here. -/
def noSystem : Route → HttpRequest → Handling HttpResponse := fun _ _ => pure ⟨.notFound, [], []⟩

theorem activated_lists {key : Str} (hk : Canonical key)
    (hok : (refreshOrigin smallDeps (holding key) plainService "web".toList
      (World.start FileTree.empty)).1.ok?.isSome = true) :
    ∃ index st, MirrorsListing smallDeps (holding key) "web".toList True 0 index (activated key) ∧
      index.files[key]? = some st := by
  obtain ⟨response, hr⟩ := Outcome.ok?_isSome.mp hok
  have hid : validateOriginId "web".toList = .ok () := by decide
  have htidy := tidy_empty hid
  have hkeys : ∀ t summaries, (holding key).listObjects t "web".toList = .ok summaries →
      ∀ s ∈ summaries, Canonical s.key := by
    intro t summaries h s hs
    cases h
    rwa [List.mem_singleton.mp hs]
  have hocc : ∀ k, Occurs (holding key) "web".toList FileTree.empty k →
      k = key := by
    intro k hk
    cases hk with
    | listed hlist hs =>
      cases hlist
      rw [List.mem_singleton.mp hs]
    | leftover hr hmeta hfile hn => exact absurd hfile (empty_under _ _)
  have hclear : Clear smallDeps (holding key) plainService "web".toList
      (World.start FileTree.empty) := by
    intro e _ hshadow
    unfold listsShadowed at hshadow
    split at hshadow
    · obtain ⟨-, -, s, -, r, b, -, -, hfile, -⟩ := hshadow
      exact empty_under r b hfile
    · exact hshadow
  obtain ⟨-, hmirrors⟩ := clear_step ⟨fun _ _ => rfl, fun _ => rfl⟩ hkeys
    (fun k k' hk hk' _ => (hocc k hk).trans (hocc k' hk').symm)
    (unshadowed_start htidy) hclear
  obtain ⟨index, config, hm⟩ := hmirrors response hr
  obtain ⟨wl, summaries, now, -, -, -, hlist, hb⟩ := hm.listing.listed
  cases hlist
  have hmem : key ∈ index.files := (mem_files_iff hb key).mpr ⟨_, List.mem_singleton_self _, rfl⟩
  obtain ⟨st, hst⟩ := Option.isSome_iff_exists.mp (Std.TreeMap.mem_iff_isSome_getElem?.mp hmem)
  exact ⟨index, st, hm.listing, hst⟩

/-- `a` is reached by `/a`. -/
theorem served_by_own_path_a : ∃ resolver,
    HostResolver.new (smallManifest [("a.com", "web")]) = .ok resolver ∧
    ∃ index st, MirrorsListing smallDeps (holding "a".toList) "web".toList True 0 index
        (activated "a".toList) ∧ index.files["a".toList]? = some st ∧
      ∃ response w', run (gatewayStep smallDeps (holding "a".toList) noHooks)
          (createRouter smallGatewayDeps (siteService resolver) 1000 noSystem (getUri "/a".toList))
          (activated "a".toList) = (.ok response, w') ∧
        ServesKey (holding "a".toList) "web".toList (activated "a".toList) "a".toList st response := by
  obtain ⟨resolver, hnew, hres⟩ := site_resolver
  have hk : Canonical "a".toList := ⟨by decide, by decide, no_control_of_all (by decide), by decide⟩
  obtain ⟨index, st, hm, hst⟩ := activated_lists hk (by decide +kernel)
  have hjson : MetadataReadsBack smallDeps (holding "a".toList) "web".toList := by
    intro t k object h
    cases h
    have htext : fromUtf8 (utf8 (metadataJson ObjectMetadata.empty)) =
        some (metadataJson ObjectMetadata.empty) := by decide +kernel
    have hback : smallDeps.metadataOfJson (metadataJson ObjectMetadata.empty) =
        .ok ObjectMetadata.empty := by decide +kernel
    exact ⟨_, htext, hback⟩
  have hstored : (activated "a".toList).edgeConfigs "web".toList =
      some (.valid defaultEdgeConfig) := by decide +kernel
  have hserved := @served_by_own_path smallGatewayDeps (holding "a".toList) noHooks
    (siteService resolver) "web".toList 0 index (activated "a".toList) 1000 noSystem
    (fun _ _ => rfl) (fun _ _ _ _ => rfl) hjson (by decide) hm hstored
  refine ⟨resolver, hnew, index, st, hm, hst, ?_⟩
  exact hserved.1 "a".toList st hst hk (by unfold ReservedKey; decide) (by decide) (by decide)
    (getUri "/a".toList) _ rfl rfl
    hres rfl (by decide)

/-- **Counterexample**: `a b.html` is listed, and its encoded path is not found. -/
theorem encoded_key_not_found : ∃ resolver,
    HostResolver.new (smallManifest [("a.com", "web")]) = .ok resolver ∧
    Canonical "a b.html".toList ∧ ¬ ReservedKey "a b.html".toList ∧
    (activated "a b.html".toList).edgeConfigs "web".toList = some (.valid defaultEdgeConfig) ∧
    (∃ index st, MirrorsListing smallDeps (holding "a b.html".toList) "web".toList True 0 index
      (activated "a b.html".toList) ∧ index.files["a b.html".toList]? = some st) ∧
    '/' :: encodePath "a b.html".toList = "/a%20b.html".toList ∧
    ∃ response w', run (gatewayStep smallDeps (holding "a b.html".toList) noHooks)
        (createRouter smallGatewayDeps (siteService resolver) 1000 noSystem
          (getUri "/a%20b.html".toList))
        (activated "a b.html".toList) = (.ok response, w') ∧ response.status = .notFound := by
  obtain ⟨resolver, hnew, -⟩ := site_resolver
  have hk : Canonical "a b.html".toList :=
    ⟨by decide, by decide, no_control_of_all (by decide), by decide⟩
  have hstatus : (HostResolver.new (smallManifest [("a.com", "web")])).toOption.map (fun resolver =>
      (run (gatewayStep smallDeps (holding "a b.html".toList) noHooks)
        (createRouter smallGatewayDeps (siteService resolver) 1000 noSystem
          (getUri "/a%20b.html".toList))
        (activated "a b.html".toList)).1.ok?.map (·.status)) = some (some .notFound) := by
    decide +kernel
  rw [hnew] at hstatus
  obtain ⟨response, hok, hs⟩ := Option.map_eq_some_iff.mp (Option.some.inj hstatus)
  refine ⟨resolver, hnew, hk, (by unfold ReservedKey; decide), (by decide +kernel),
    activated_lists hk (by decide +kernel), (by decide +kernel), response, _,
    Prod.ext (Outcome.ok?_eq_some.mp hok) rfl, hs⟩

end RenderMesh.Gateway
