import RenderMesh.Domains.Derived

/-!
# The hosts that a CORS policy allows

The policy reads the host keys of the manifest as the resolver does (`corsRule?_eq`), so what it
allows can be said with the rules of the resolver: an origin allows exactly the `https` origins
whose host has an exact or a wildcard rule of its own (`allowedOriginFor_iff`), and every host
that is resolved to it by such a rule is among them (`resolved_allowed`).
-/
namespace RenderMesh.Domains

open RenderMesh.Core RenderMesh.Server

/-! ## The rules of a policy -/

/-- What the policy makes of a rule. -/
def HostRule.cors : HostRule → Option CorsHostRule
  | .exact host => some (.exact host)
  | .wildcard suffix => some (.wildcardSuffix ('.' :: suffix))
  | .fallback => none

theorem corsRule?_eq (host : Str) : corsRule? host = (hostRule? host).bind HostRule.cors := by
  unfold corsRule? hostRule?
  dsimp only
  split
  · rfl
  · cases stripPrefix? ['*', '.'] (toAsciiLower (trim host)) with
    | none =>
      dsimp only
      cases normalizeHost (toAsciiLower (trim host)) <;> rfl
    | some suffix =>
      dsimp only
      cases normalizeHost suffix with
      | none => simp
      | some n =>
        by_cases hsuffix : n = suffix
        · simp [hsuffix, Option.filter, HostRule.cors]
        · simp [hsuffix, Option.filter]

theorem mem_addCorsHost {rules : Std.TreeMap Str (List CorsHostRule)} {entry : Str × HostConfig}
    {originId : Str} {rule : CorsHostRule} :
    rule ∈ (addCorsHost rules entry)[originId]?.getD [] ↔
      rule ∈ rules[originId]?.getD [] ∨ corsRule? entry.1 = some rule ∧ entry.2.origin = originId := by
  rw [addCorsHost]
  cases hrule : corsRule? entry.1 with
  | none => simp
  | some r =>
    by_cases ho : entry.2.origin = originId
    · simp [ho, eq_comm]
    · simp [ho, Std.TreeMap.getElem?_insert]

theorem mem_foldl_addCorsHost (entries : List (Str × HostConfig))
    (rules : Std.TreeMap Str (List CorsHostRule)) {originId : Str} {rule : CorsHostRule} :
    rule ∈ (entries.foldl addCorsHost rules)[originId]?.getD [] ↔
      rule ∈ rules[originId]?.getD [] ∨
        ∃ entry ∈ entries, corsRule? entry.1 = some rule ∧ entry.2.origin = originId := by
  induction entries generalizing rules with
  | nil => simp
  | cons entry entries ih =>
    rw [List.foldl_cons, ih, mem_addCorsHost]
    simp [or_assoc]

variable {manifest : RenderMeshManifest} {originId host : Str}

/-- The rules of an origin are those that its host keys state. -/
theorem mem_corsRules {rule : CorsHostRule} :
    rule ∈ (CorsPolicy.fromManifest manifest).rulesByOrigin[originId]?.getD [] ↔
      ∃ hostRule, HasRule manifest hostRule originId ∧ hostRule.cors = some rule := by
  rw [CorsPolicy.fromManifest, mem_foldl_addCorsHost]
  simp only [corsRule?_eq, Option.bind_eq_some_iff, Std.TreeMap.getElem?_emptyc, Option.getD_none,
    List.not_mem_nil, false_or]
  constructor
  · rintro ⟨entry, hentry, ⟨hostRule, hrule, hcors⟩, ho⟩
    exact ⟨hostRule, ⟨entry, hentry, hrule, ho⟩, hcors⟩
  · rintro ⟨hostRule, ⟨entry, hentry, hrule, ho⟩, hcors⟩
    exact ⟨entry, hentry, ⟨hostRule, hrule, hcors⟩, ho⟩

/-! ## What is allowed -/

/-- The origin has an exact key for the host, or a wildcard key that the host is below. -/
def AllowedHost (manifest : RenderMeshManifest) (originId host : Str) : Prop :=
  HasRule manifest (.exact host) originId ∨
    ∃ suffix, HasRule manifest (.wildcard suffix) originId ∧ (HostRule.wildcard suffix).Matches host

theorem allows_iff (hvalid : isValidHost host = true) :
    (∃ rule ∈ (CorsPolicy.fromManifest manifest).rulesByOrigin[originId]?.getD [],
      rule.allows host = true) ↔ AllowedHost manifest originId host := by
  constructor
  · rintro ⟨rule, hmem, hallows⟩
    obtain ⟨hostRule, hrule, hcors⟩ := mem_corsRules.mp hmem
    cases hostRule with
    | exact h =>
      cases hcors
      rw [← (of_decide_eq_true hallows : h = host)]
      exact Or.inl hrule
    | wildcard suffix =>
      cases hcors
      rw [CorsHostRule.allows, Bool.and_eq_true, decide_eq_true_eq, decide_eq_true_eq] at hallows
      exact Or.inr ⟨suffix, hrule, (wildcard_matches_iff hvalid).mp hallows⟩
    | fallback => cases hcors
  · rintro (hrule | ⟨suffix, hrule, hmatches⟩)
    · exact ⟨.exact host, mem_corsRules.mpr ⟨_, hrule, rfl⟩, decide_eq_true rfl⟩
    · refine ⟨.wildcardSuffix ('.' :: suffix), mem_corsRules.mpr ⟨_, hrule, rfl⟩, ?_⟩
      rw [CorsHostRule.allows, Bool.and_eq_true, decide_eq_true_eq, decide_eq_true_eq]
      exact (wildcard_matches_iff hvalid).mpr hmatches

/-- A parsed `https` origin and nothing else. -/
structure ParsedUrl.IsHttpsOrigin (url : ParsedUrl) : Prop where
  scheme : url.scheme = "https".toList
  path : url.path = ['/']
  query : url.query = none
  fragment : url.fragment = none
  username : url.username = []
  password : url.password = none
  port : url.port = none ∨ url.port = some 443

theorem parseHttpsOriginHost_iff {parseUrl : Str → Option ParsedUrl} {requestOrigin : Str} :
    parseHttpsOriginHost parseUrl requestOrigin = some host ↔
      ∃ url name, parseUrl requestOrigin = some url ∧ url.IsHttpsOrigin ∧ url.host = some name ∧
        normalizeHost name = some host := by
  rw [parseHttpsOriginHost]
  cases parseUrl requestOrigin with
  | none => simp
  | some url =>
    dsimp only
    split
    · rename_i hbad
      constructor
      · intro h
        cases h
      · rintro ⟨_, name, ⟨⟩, hurl, -, -⟩
        simp [hurl.scheme, hurl.path, hurl.query, hurl.fragment, hurl.username, hurl.password,
          hurl.port] at hbad
    · rename_i hgood
      simp only [not_or, Decidable.not_not, Bool.not_eq_true, Option.isSome_eq_false_iff,
        Option.isNone_iff_eq_none] at hgood
      obtain ⟨hscheme, hpath, hquery, hfragment, husername, hpassword, hport⟩ := hgood
      rw [Option.bind_eq_some_iff]
      constructor
      · rintro ⟨name, hname, hhost⟩
        exact ⟨url, name, rfl, ⟨hscheme, hpath, hquery, hfragment, husername, hpassword,
          Decidable.or_iff_not_not_and_not.mpr hport⟩, hname, hhost⟩
      · rintro ⟨_, name, ⟨⟩, -, hname, hhost⟩
        exact ⟨name, hname, hhost⟩

/-- The request's origin is a plain `https` origin whose host is allowed. -/
def AllowedOrigin (parseUrl : Str → Option ParsedUrl) (manifest : RenderMeshManifest)
    (originId requestOrigin : Str) : Prop :=
  ∃ url name host, parseUrl requestOrigin = some url ∧ url.IsHttpsOrigin ∧ url.host = some name ∧
    normalizeHost name = some host ∧ AllowedHost manifest originId host

theorem allowedOriginFor_cases (parseUrl : Str → Option ParsedUrl) (manifest : RenderMeshManifest)
    (originId requestOrigin : Str) :
    (AllowedOrigin parseUrl manifest originId requestOrigin ∧
      (CorsPolicy.fromManifest manifest).allowedOriginFor parseUrl originId requestOrigin =
        some requestOrigin) ∨
    (¬ AllowedOrigin parseUrl manifest originId requestOrigin ∧
      (CorsPolicy.fromManifest manifest).allowedOriginFor parseUrl originId requestOrigin = none) := by
  rw [CorsPolicy.allowedOriginFor]
  cases hparse : parseHttpsOriginHost parseUrl requestOrigin with
  | none =>
    refine Or.inr ⟨?_, rfl⟩
    rintro ⟨url, name, host, hurl, his, hname, hhost, -⟩
    rw [parseHttpsOriginHost_iff.mpr ⟨url, name, hurl, his, hname, hhost⟩] at hparse
    cases hparse
  | some host =>
    obtain ⟨url, name, hurl, his, hname, hhost⟩ := parseHttpsOriginHost_iff.mp hparse
    have hvalid := (normalizeHost_some hhost).1
    have hallowed : AllowedOrigin parseUrl manifest originId requestOrigin ↔
        AllowedHost manifest originId host := by
      constructor
      · rintro ⟨url', name', host', hurl', -, hname', hhost', h⟩
        obtain rfl := Option.some.inj (hurl.symm.trans hurl')
        obtain rfl := Option.some.inj (hname.symm.trans hname')
        obtain rfl := Option.some.inj (hhost.symm.trans hhost')
        exact h
      · exact fun h => ⟨url, name, host, hurl, his, hname, hhost, h⟩
    rw [hallowed, ← allows_iff hvalid]
    dsimp only
    cases (CorsPolicy.fromManifest manifest).rulesByOrigin[originId]? with
    | none => simp
    | some rules =>
      cases hfind : rules.find? (·.allows host) with
      | none => exact Or.inr ⟨by simpa using hfind, by simp [hfind]⟩
      | some rule =>
        exact Or.inl ⟨⟨rule, List.mem_of_find?_eq_some hfind, List.find?_some hfind⟩, by simp [hfind]⟩

/-! ## The hosts of the resolver -/

/-- A host that the resolver maps to an origin by a key of its own is allowed for that origin. -/
theorem resolve_allowedHost {resolver : HostResolver} (hnew : HostResolver.new manifest = .ok resolver)
    {hostHeader : Str} {resolved : ResolvedHost} (h : resolver.resolve hostHeader = some resolved)
    (hkey : resolved.matchedHost ≠ ['*']) :
    normalizeHost resolved.normalizedHost = some resolved.normalizedHost ∧
      AllowedHost manifest resolved.originId resolved.normalizedHost := by
  cases hn : normalizeHost hostHeader with
  | none =>
    rw [HostResolver.resolve, hn] at h
    cases h
  | some n =>
    obtain ⟨rule, o, hprefers, hrule, hres⟩ | ⟨-, hres⟩ := resolve_cases hnew hn
    · rw [hres] at h
      obtain rfl := Option.some.inj h
      obtain ⟨hvalid, hlower⟩ := normalizeHost_some hn
      refine ⟨normalizeHost_of_valid hvalid hlower, ?_⟩
      cases rule with
      | exact m =>
        obtain rfl : n = m := hprefers.2.1
        exact Or.inl hrule
      | wildcard suffix => exact Or.inr ⟨suffix, hrule, hprefers.2.1⟩
      | fallback => exact absurd rfl hkey
    · rw [hres] at h
      cases h

/-- The policy of a manifest that the resolver accepts allows exactly the `https` origins of the
mapped hosts, among them every host that is resolved by a key of its own. -/
theorem allowedOriginFor_exact {resolver : HostResolver}
    (hnew : HostResolver.new manifest = .ok resolver) (parseUrl : Str → Option ParsedUrl) :
    (∀ originId requestOrigin,
      (AllowedOrigin parseUrl manifest originId requestOrigin →
        (CorsPolicy.fromManifest manifest).allowedOriginFor parseUrl originId requestOrigin =
          some requestOrigin) ∧
      (¬ AllowedOrigin parseUrl manifest originId requestOrigin →
        (CorsPolicy.fromManifest manifest).allowedOriginFor parseUrl originId requestOrigin = none)) ∧
    ∀ hostHeader resolved, resolver.resolve hostHeader = some resolved →
      resolved.matchedHost ≠ ['*'] →
      (∃ url, parseUrl ("https://".toList ++ resolved.normalizedHost) = some url ∧
        url.IsHttpsOrigin ∧ url.host = some resolved.normalizedHost) →
      ((CorsPolicy.fromManifest manifest).allowedOriginFor parseUrl resolved.originId
        ("https://".toList ++ resolved.normalizedHost)).isSome := by
  constructor
  · intro originId requestOrigin
    obtain ⟨h, hallowed⟩ | ⟨h, hallowed⟩ := allowedOriginFor_cases parseUrl manifest originId requestOrigin
    · exact ⟨fun _ => hallowed, fun hno => absurd h hno⟩
    · exact ⟨fun hyes => absurd hyes h, fun _ => hallowed⟩
  · rintro hostHeader resolved hres hkey ⟨url, hurl, his, hhost⟩
    obtain ⟨hnormal, hallowed⟩ := resolve_allowedHost hnew hres hkey
    obtain ⟨-, hsome⟩ | ⟨hno, -⟩ := allowedOriginFor_cases parseUrl manifest resolved.originId
      ("https://".toList ++ resolved.normalizedHost)
    · rw [hsome]
      rfl
    · exact absurd ⟨url, _, _, hurl, his, hhost, hnormal, hallowed⟩ hno

/-- A manifest with a wildcard key. -/
def shopManifest : RenderMeshManifest := smallManifest [("*", "web"), ("*.Shop.com", "api")]

/-- `Url::parse` of one origin. -/
def shopParse (s : Str) : Option ParsedUrl :=
  if s = "https://www.shop.com".toList then
    some ⟨"https".toList, ['/'], none, none, [], none, none, some "www.shop.com".toList⟩
  else none

theorem allowedOriginFor_exact_shop :
    ((CorsPolicy.fromManifest shopManifest).allowedOriginFor shopParse "api".toList
      "https://www.shop.com".toList).isSome := by
  have hresolve : ((HostResolver.new shopManifest).toOption.bind fun resolver =>
      resolver.resolve "www.shop.com".toList) =
        some ⟨"www.shop.com".toList, "*.shop.com".toList, "api".toList⟩ := by decide
  cases hnew : HostResolver.new shopManifest with
  | error e =>
    rw [hnew] at hresolve
    cases hresolve
  | ok resolver =>
    rw [hnew] at hresolve
    exact (allowedOriginFor_exact hnew shopParse).2 "www.shop.com".toList _ hresolve (by decide)
      ⟨_, rfl, ⟨rfl, rfl, rfl, rfl, rfl, rfl, Or.inl rfl⟩, rfl⟩

end RenderMesh.Domains
