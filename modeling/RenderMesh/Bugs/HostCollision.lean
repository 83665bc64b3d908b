import RenderMesh.Domains.Derived

/-!
# Two host keys for one host

Behaviour (`src/src/services/manifest.rs:34-70`): `HostResolver::new` puts the exact
hosts into a map under their normalized names, and a later key overwrites an
earlier one without a word. Host keys that differ in case, in surrounding
whitespace or by a port are different keys of the manifest but one host.

Documented: a second `*` is refused with "duplicate global wildcard host"
(`src/src/services/manifest.rs:42-44`). Tenants, URL prefixes and CDN domains of an
origin are read off the same keys, each host for the origin that its key names.

Counterexample: `a.com` for `web` and `a.com:80` for `api` are accepted. The host
`a.com` is a tenant of both origins and is served from `api` (`two_keys_one_host`).

Condition: `hostSetsAgree_iff`. Host keys that normalize to the same host name the
same origin.
-/
namespace RenderMesh.Bugs.HostCollision

open RenderMesh.Core RenderMesh.Server RenderMesh.Domains

/-- Every host that an origin's tenants, URL prefixes or CDN domains hold without a
wildcard is served from that origin, by its own rule. -/
def HostSetsAgree (manifest : RenderMeshManifest) (resolver : HostResolver) : Prop :=
  ∀ originId host,
    (host ∈ exactHostsForOrigin manifest originId ∨
      "https://".toList ++ host ∈ exactUrlPrefixesForOrigin manifest originId ∨
      ∃ config, host ∈ desiredDomainsForOrigin manifest originId config ∧ ¬ ['*', '.'] <+: host) →
    resolver.resolve host = some ⟨host, host, originId⟩

/-- Each of the three sets holds the hosts of an origin's exact rules. -/
theorem rule_of_host {manifest : RenderMeshManifest} {resolver : HostResolver}
    (hnew : HostResolver.new manifest = .ok resolver) {originId host : Str}
    (h : host ∈ exactHostsForOrigin manifest originId ∨
      "https://".toList ++ host ∈ exactUrlPrefixesForOrigin manifest originId ∨
      ∃ config, host ∈ desiredDomainsForOrigin manifest originId config ∧ ¬ ['*', '.'] <+: host) :
    HasRule manifest (.exact host) originId := by
  rcases h with h | h | h
  · exact mem_exactHostsForOrigin.mp h
  · obtain ⟨host', he, hrule⟩ := mem_exactUrlPrefixesForOrigin.mp h
    rw [List.append_cancel_left he]
    exact hrule
  · obtain ⟨config, hd, hstar⟩ := h
    obtain ⟨hrules, -, -⟩ := HostResolver.new_ok_iff.mp hnew
    obtain ⟨rule, hrule, rfl, hne, -⟩ := (mem_desiredDomainsForOrigin hrules).mp hd
    cases rule with
    | exact n => exact hrule
    | wildcard suffix => exact absurd ⟨suffix, rfl⟩ hstar
    | fallback => exact absurd rfl hne

/-- A host with an exact rule is served by an exact rule for it. -/
theorem resolve_of_rule {manifest : RenderMeshManifest} {resolver : HostResolver}
    (hnew : HostResolver.new manifest = .ok resolver) {originId host : Str}
    (h : HasRule manifest (.exact host) originId) :
    ∃ o, HasRule manifest (.exact host) o ∧ resolver.resolve host = some ⟨host, host, o⟩ := by
  obtain ⟨o, ho⟩ := exact_isSome hnew h
  obtain ⟨entry, -, hrule, -⟩ := h
  obtain ⟨hvalid, hlower⟩ := normalizeHost_some (hostRule?_exact_iff.mp hrule)
  refine ⟨o, exact_some hnew ho, ?_⟩
  simp [HostResolver.resolve, normalizeHost_of_valid hvalid hlower, ho]

theorem hostSetsAgree_iff {manifest : RenderMeshManifest} {resolver : HostResolver}
    (hnew : HostResolver.new manifest = .ok resolver) :
    HostSetsAgree manifest resolver ↔
      ∀ entry ∈ manifest.hosts.toList, ∀ entry' ∈ manifest.hosts.toList, ∀ host,
        normalizeHost entry.1 = some host → normalizeHost entry'.1 = some host →
          entry.2.origin = entry'.2.origin := by
  constructor
  · intro hagree entry he entry' he' host hn hn'
    have hrule : HasRule manifest (.exact host) entry.2.origin :=
      ⟨entry, he, hostRule?_exact_iff.mpr hn, rfl⟩
    have hrule' : HasRule manifest (.exact host) entry'.2.origin :=
      ⟨entry', he', hostRule?_exact_iff.mpr hn', rfl⟩
    have hres := hagree _ host (Or.inl (mem_exactHostsForOrigin.mpr hrule))
    have hres' := hagree _ host (Or.inl (mem_exactHostsForOrigin.mpr hrule'))
    rw [hres] at hres'
    simpa using hres'
  · intro hone originId host h
    have hrule := rule_of_host hnew h
    obtain ⟨o, hrule', hres⟩ := resolve_of_rule hnew hrule
    obtain ⟨entry, he, hr, ho⟩ := hrule
    obtain ⟨entry', he', hr', ho'⟩ := hrule'
    rw [hres, ← ho, ← ho', hone entry he entry' he' host (hostRule?_exact_iff.mp hr)
      (hostRule?_exact_iff.mp hr')]

/-- The manifest of the counterexample. -/
def twoKeys : RenderMeshManifest := smallManifest [("a.com", "web"), ("a.com:80", "api")]

theorem two_keys_one_host :
    parseManifestConfig (fun _ => .ok twoKeys) (fun _ => .ok twoKeys) [] = .ok twoKeys ∧
      ∃ resolver, HostResolver.new twoKeys = .ok resolver ∧
        "a.com".toList ∈ exactHostsForOrigin twoKeys "web".toList ∧
        resolver.resolve "a.com".toList = some ⟨"a.com".toList, "a.com".toList, "api".toList⟩ ∧
        ¬ HostSetsAgree twoKeys resolver := by
  refine ⟨rfl, ?_⟩
  have hres : ((HostResolver.new twoKeys).toOption.bind (·.resolve "a.com".toList)) =
      some ⟨"a.com".toList, "a.com".toList, "api".toList⟩ := by decide
  cases hnew : HostResolver.new twoKeys with
  | error e =>
    rw [hnew] at hres
    cases hres
  | ok resolver =>
    rw [hnew] at hres
    have hmem : "a.com".toList ∈ exactHostsForOrigin twoKeys "web".toList := by decide
    refine ⟨resolver, rfl, hmem, hres, fun hagree => ?_⟩
    have hres' := hagree "web".toList "a.com".toList (Or.inl hmem)
    change resolver.resolve "a.com".toList = _ at hres
    rw [hres] at hres'
    exact absurd hres' (by decide)

/-- The condition is met by a manifest with an exact host and a wildcard. -/
theorem hostSetsAgree_one_key :
    ∃ resolver, HostResolver.new (smallManifest [("a.com", "web"), ("*.a.com", "api")]) =
        .ok resolver ∧
      HostSetsAgree (smallManifest [("a.com", "web"), ("*.a.com", "api")]) resolver := by
  cases hnew : HostResolver.new (smallManifest [("a.com", "web"), ("*.a.com", "api")]) with
  | error e =>
    have : (HostResolver.new (smallManifest [("a.com", "web"), ("*.a.com", "api")])).toOption.isSome =
      true := by decide
    rw [hnew] at this
    cases this
  | ok resolver =>
    refine ⟨resolver, rfl, (hostSetsAgree_iff hnew).mpr ?_⟩
    have hkeys : (smallManifest [("a.com", "web"), ("*.a.com", "api")]).hosts.toList =
        [("*.a.com".toList, ⟨"api".toList⟩), ("a.com".toList, ⟨"web".toList⟩)] := by decide
    rw [hkeys]
    intro entry he entry' he' host hn hn'
    have hstar : normalizeHost "*.a.com".toList = none := by decide
    simp only [List.mem_cons, List.not_mem_nil, or_false] at he he'
    rcases he with rfl | rfl
    · rw [hstar] at hn
      cases hn
    · rcases he' with rfl | rfl
      · rw [hstar] at hn'
        cases hn'
      · rfl

end RenderMesh.Bugs.HostCollision
