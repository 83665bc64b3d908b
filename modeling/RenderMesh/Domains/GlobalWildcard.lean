import RenderMesh.Domains.Derived

/-!
# Adding the global wildcard

A manifest with and without a host `*`. Every reader of the host table has its own
test for that key; together they must not let it reach anything but the resolver's
fallback. Each reads the entries in order and passes over `*`
(`withGlobal_toList`), so that what it derives is the same list, map or set.

* `global_wildcard_isolated`: CORS, tenants, URL prefixes, CDN domains and all hosts
  resolved before are as they were; every other valid host resolves to `*`.
-/
namespace RenderMesh.Domains

open RenderMesh.Core RenderMesh.Server

/-- The manifest with the further host key `star` for `originId`. -/
def withGlobal (manifest : RenderMeshManifest) (star originId : Str) : RenderMeshManifest :=
  { manifest with hosts := manifest.hosts.insert star ⟨originId⟩ }

/-- An entry whose key is not `*`. -/
def notGlobal (entry : Str × HostConfig) : Bool := trim entry.1 ≠ ['*']

/-- A list read by a function that passes over what `p` leaves out. -/
theorem filterMap_filter_eq {α β : Type} {f : α → Option β} {p : α → Bool}
    (hf : ∀ a, p a = false → f a = none) (l : List α) : (l.filter p).filterMap f = l.filterMap f := by
  rw [List.filterMap_filter]
  congr 1
  funext a
  cases h : p a with
  | false => simp [hf a h]
  | true => simp

theorem foldl_filter_eq {α β : Type} {f : β → α → β} {p : α → Bool}
    (hf : ∀ b a, p a = false → f b a = b) (l : List α) (b : β) :
    (l.filter p).foldl f b = l.foldl f b := by
  rw [List.foldl_filter]
  congr 1
  funext b a
  cases h : p a with
  | false => simp [hf b a h]
  | true => simp

section
variable {manifest : RenderMeshManifest} {star : Str} (hstar : trim star = ['*'])
  (hno : ∀ host ∈ manifest.hosts, trim host ≠ ['*'])
include hstar hno

theorem withGlobal_toList (originId : Str) :
    (withGlobal manifest star originId).hosts.toList.filter notGlobal = manifest.hosts.toList := by
  have hfilter : ((withGlobal manifest star originId).hosts.filter fun host config =>
      notGlobal (host, config)).toList =
        (withGlobal manifest star originId).hosts.toList.filter notGlobal :=
    Std.TreeMap.toList_filter
  rw [← hfilter]
  refine Std.TreeMap.Equiv.toList_eq (Std.TreeMap.Equiv.of_forall_constGet?_eq fun host => ?_)
  rw [Std.TreeMap.getElem?_filter', withGlobal, Std.TreeMap.getElem?_insert]
  by_cases he : star = host
  · subst he
    have hnone : manifest.hosts[star]? = none :=
      Std.TreeMap.getElem?_eq_none fun h => hno star h hstar
    simp [hnone, hstar, notGlobal]
  · have hcmp : compare star host ≠ .eq := fun h => he (Std.LawfulEqCmp.eq_of_compare h)
    rw [if_neg hcmp]
    cases hg : manifest.hosts[host]? with
    | none => rfl
    | some config =>
      have := hno host (Std.TreeMap.mem_iff_isSome_getElem?.mpr (by rw [hg]; rfl))
      simp [notGlobal, this]

/-- What passes over `*` reads the same list. -/
theorem withGlobal_filterMap (originId : Str) {α : Type} {f : Str × HostConfig → Option α}
    (hf : ∀ entry, trim entry.1 = ['*'] → f entry = none) :
    (withGlobal manifest star originId).hosts.toList.filterMap f =
      manifest.hosts.toList.filterMap f := by
  rw [← withGlobal_toList hstar hno originId, filterMap_filter_eq]
  intro entry h
  exact hf entry (by simpa [notGlobal] using h)

theorem withGlobal_filter_filterMap (originId : Str) {α : Type} {p : Str × HostConfig → Bool}
    {f : Str × HostConfig → Option α}
    (hf : ∀ entry, trim entry.1 = ['*'] → p entry = true → f entry = none) :
    ((withGlobal manifest star originId).hosts.toList.filter p).filterMap f =
      (manifest.hosts.toList.filter p).filterMap f := by
  simp only [List.filterMap_filter]
  refine withGlobal_filterMap hstar hno originId fun entry h => ?_
  cases hp : p entry with
  | true => simpa using hf entry h hp
  | false => rfl

theorem withGlobal_exactHosts (o originId : Str) :
    exactHostsForOrigin (withGlobal manifest star o) originId =
      exactHostsForOrigin manifest originId := by
  unfold exactHostsForOrigin
  rw [withGlobal_filter_filterMap hstar hno]
  intro entry h hp
  simp [startsWithStar, h] at hp

theorem withGlobal_urlPrefixes (o originId : Str) :
    exactUrlPrefixesForOrigin (withGlobal manifest star o) originId =
      exactUrlPrefixesForOrigin manifest originId := by
  unfold exactUrlPrefixesForOrigin
  rw [withGlobal_filter_filterMap hstar hno]
  intro entry h hp
  simp [startsWithStar, h] at hp

theorem withGlobal_desiredDomains (o originId : Str) (config : CdnDomainConfig) :
    desiredDomainsForOrigin (withGlobal manifest star o) originId config =
      desiredDomainsForOrigin manifest originId config := by
  unfold desiredDomainsForOrigin
  rw [withGlobal_filter_filterMap hstar hno]
  intro entry h _
  rw [normalizeCdnHost_eq (hostRule?_fallback_iff.mpr h), if_pos rfl]

theorem withGlobal_cors (o : Str) :
    CorsPolicy.fromManifest (withGlobal manifest star o) = CorsPolicy.fromManifest manifest := by
  unfold CorsPolicy.fromManifest
  rw [← withGlobal_toList hstar hno o, foldl_filter_eq]
  intro rules entry h
  have h : trim entry.1 = ['*'] := by simpa [notGlobal] using h
  have hlower : toAsciiLower ['*'] = ['*'] := rfl
  simp [addCorsHost, corsRule?, h, hlower]

/-- The resolver of the larger manifest: the same rules, and `*` as fallback. -/
theorem withGlobal_new (o : Str) {resolver : HostResolver}
    (hnew : HostResolver.new manifest = .ok resolver) :
    resolver.fallback = none ∧
      HostResolver.new (withGlobal manifest star o) = .ok { resolver with fallback := some o } := by
  obtain ⟨hrules, -, hr⟩ := HostResolver.new_ok_iff.mp hnew
  have hnofallback : ∀ entry ∈ manifest.hosts.toList, fallbackOf entry = none := by
    intro entry he
    have hkey : entry.1 ∈ manifest.hosts := Std.TreeMap.mem_iff_isSome_getElem?.mpr
      (by rw [Std.TreeMap.mem_toList_iff_getElem?_eq_some.mp he]; rfl)
    unfold fallbackOf
    split
    · rename_i hrule
      exact absurd (hostRule?_fallback_iff.mp hrule) (hno _ hkey)
    · rfl
  have hfallback : (withGlobal manifest star o).hosts.toList.filterMap fallbackOf = [o] := by
    have hperm := (Std.TreeMap.toList_insert_perm (t := manifest.hosts) (k := star)
      (v := (⟨o⟩ : HostConfig))).filterMap fallbackOf
    have hrest : ((manifest.hosts.toList.filter fun entry => ¬ (star == entry.1) = true).filterMap
        fallbackOf) = [] :=
      List.filterMap_eq_nil_iff.mpr fun entry he => hnofallback entry (List.mem_of_mem_filter he)
    have hstarRule : fallbackOf (star, ⟨o⟩) = some o := by
      simp [fallbackOf, hostRule?_fallback_iff.mpr hstar]
    rw [List.filterMap_cons, hstarRule] at hperm
    dsimp only at hperm
    rw [hrest] at hperm
    exact List.perm_singleton.mp hperm
  have hexact : ∀ entry, trim entry.1 = ['*'] → exactOf entry = none := fun entry h => by
    simp [exactOf, hostRule?_fallback_iff.mpr h]
  have hwild : ∀ entry, trim entry.1 = ['*'] → wildcardOf entry = none := fun entry h => by
    simp [wildcardOf, hostRule?_fallback_iff.mpr h]
  refine ⟨?_, HostResolver.new_ok_iff.mpr ⟨fun entry he => ?_, ?_, ?_⟩⟩
  · rw [hr, List.filterMap_eq_nil_iff.mpr hnofallback]
    rfl
  · by_cases h : trim entry.1 = ['*']
    · rw [hostRule?_fallback_iff.mpr h]
      rfl
    · refine hrules entry ?_
      rw [← withGlobal_toList hstar hno o, List.mem_filter]
      exact ⟨he, by simp [notGlobal, h]⟩
  · rw [hfallback]
    exact Nat.le_refl 1
  · rw [hfallback, withGlobal_filterMap hstar hno o hexact, withGlobal_filterMap hstar hno o hwild, hr]
    rfl

end

/-- A resolver that is given a fallback: what it did not find now resolves to `*`. -/
theorem resolve_withFallback {resolver : HostResolver} (hnone : resolver.fallback = none)
    (o h : Str) :
    { resolver with fallback := some o }.resolve h =
      (resolver.resolve h).or ((normalizeHost h).map fun n => ⟨n, ['*'], o⟩) := by
  unfold HostResolver.resolve
  cases normalizeHost h with
  | none => rfl
  | some n =>
    dsimp only
    cases resolver.exact[n]? with
    | some originId => rfl
    | none =>
      dsimp only
      cases resolver.wildcards.find? fun wildcard =>
          wildcard.suffix <:+ n && byteLen wildcard.suffix < byteLen n with
      | some wildcard => rfl
      | none => simp [hnone]

/-- Adding `*` for any origin changes nothing but what unknown hosts resolve to. -/
theorem global_wildcard_isolated {manifest : RenderMeshManifest} {resolver : HostResolver}
    (hnew : HostResolver.new manifest = .ok resolver)
    (hno : ∀ host ∈ manifest.hosts, trim host ≠ ['*']) {star : Str} (hstar : trim star = ['*'])
    (o : Str) :
    (∀ parseUrl originId requestOrigin,
      (CorsPolicy.fromManifest (withGlobal manifest star o)).allowedOriginFor parseUrl originId
        requestOrigin =
      (CorsPolicy.fromManifest manifest).allowedOriginFor parseUrl originId requestOrigin) ∧
    (∀ originId, exactHostsForOrigin (withGlobal manifest star o) originId =
      exactHostsForOrigin manifest originId) ∧
    (∀ originId, exactUrlPrefixesForOrigin (withGlobal manifest star o) originId =
      exactUrlPrefixesForOrigin manifest originId) ∧
    (∀ originId config, desiredDomainsForOrigin (withGlobal manifest star o) originId config =
      desiredDomainsForOrigin manifest originId config) ∧
    ∃ resolver', HostResolver.new (withGlobal manifest star o) = .ok resolver' ∧
      (∀ h res, resolver.resolve h = some res → resolver'.resolve h = some res) ∧
      (∀ h, resolver.resolve h = none →
        resolver'.resolve h = (normalizeHost h).map fun n => ⟨n, ['*'], o⟩) := by
  obtain ⟨hnone, hnew'⟩ := withGlobal_new hstar hno o hnew
  refine ⟨fun parseUrl originId requestOrigin => ?_, withGlobal_exactHosts hstar hno o,
    withGlobal_urlPrefixes hstar hno o, withGlobal_desiredDomains hstar hno o, _, hnew', ?_, ?_⟩
  · rw [withGlobal_cors hstar hno o]
  · intro h res hres
    rw [resolve_withFallback hnone, hres]
    rfl
  · intro h hres
    rw [resolve_withFallback hnone, hres]
    rfl

theorem global_wildcard_isolated_small :
    ∃ resolver, HostResolver.new (smallManifest [("a.com", "web"), ("*.b.com", "api")]) =
        .ok resolver ∧
      ∃ resolver', HostResolver.new (withGlobal (smallManifest [("a.com", "web"), ("*.b.com", "api")])
          " *".toList "api".toList) = .ok resolver' ∧
        resolver'.resolve "c.com".toList =
          some ⟨"c.com".toList, "*".toList, "api".toList⟩ := by
  cases hnew : HostResolver.new (smallManifest [("a.com", "web"), ("*.b.com", "api")]) with
  | error e =>
    have : (HostResolver.new (smallManifest [("a.com", "web"), ("*.b.com", "api")])).toOption.isSome =
      true := by decide
    rw [hnew] at this
    cases this
  | ok resolver =>
    have hno : ∀ host ∈ (smallManifest [("a.com", "web"), ("*.b.com", "api")]).hosts,
        trim host ≠ ['*'] := by
      intro host hmem
      have hkeys : host ∈ ["*.b.com".toList, "a.com".toList] := Std.TreeMap.mem_keys.mpr hmem
      simp only [List.mem_cons, List.not_mem_nil, or_false] at hkeys
      rcases hkeys with rfl | rfl <;> decide
    obtain ⟨-, -, -, -, resolver', hnew', -, hother⟩ :=
      @global_wildcard_isolated _ _ hnew hno " *".toList (by decide) "api".toList
    refine ⟨resolver, rfl, resolver', hnew', ?_⟩
    have hnone : ((HostResolver.new (smallManifest [("a.com", "web"), ("*.b.com", "api")])).toOption.bind
        (·.resolve "c.com".toList)) = none := by decide
    rw [hnew] at hnone
    change resolver.resolve "c.com".toList = none at hnone
    rw [hother _ hnone]
    decide

end RenderMesh.Domains
