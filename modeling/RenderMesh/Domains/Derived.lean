import Std.Data.ExtTreeSet
import RenderMesh.Domains.Resolver

/-!
# Who else reads the host table

Besides the resolver, four parts of the server derive something from the
manifest's host keys, each on its own: the tenants of an origin
(`src/src/services/cdn_tenants.rs`), the URL prefixes it purges
(`src/src/services/startup/cdn.rs`), its CDN domains
(`src/src/services/cdn_domains.rs`) and the origins its CORS policy allows
(`src/src/services/cors.rs`).

* `mem_exactHostsForOrigin`, `mem_exactUrlPrefixesForOrigin`,
  `mem_desiredDomainsForOrigin`: for a manifest that the resolver accepts, what they
  hold in terms of its rules.
-/
namespace RenderMesh.Domains

open RenderMesh.Core RenderMesh.Server

/-- `host.trim().starts_with('*')`. -/
def startsWithStar (host : Str) : Bool := (trim host).head? = some '*'

/-- mirrors src/src/services/cdn_tenants.rs:45-52 -/
def exactHostsForOrigin (manifest : RenderMeshManifest) (originId : Str) : Std.TreeSet Str :=
  Std.TreeSet.ofList ((manifest.hosts.toList.filter fun entry =>
    entry.2.origin = originId && !startsWithStar entry.1).filterMap fun entry =>
      normalizeHost entry.1)

/-- mirrors src/src/services/startup/cdn.rs:174-181 -/
def exactUrlPrefixesForOrigin (manifest : RenderMeshManifest) (originId : Str) : List Str :=
  (manifest.hosts.toList.filter fun entry =>
    entry.2.origin = originId && !startsWithStar entry.1).filterMap fun entry =>
      (normalizeHost entry.1).map fun host => "https://".toList ++ host

/-- mirrors src/src/services/cdn_domains.rs:136-145 -/
def normalizeCdnHost (host : Str) : Option Str :=
  let host := toAsciiLower (trim host)
  if host = ['*'] then none
  else
    match stripPrefix? ['*', '.'] host with
    | some suffix => (normalizeHost suffix).map fun normalized => '*' :: '.' :: normalized
    | none => normalizeHost host

/-- mirrors src/src/services/cdn_domains.rs:120-134 -/
def desiredDomainsForOrigin (manifest : RenderMeshManifest) (originId : Str)
    (config : CdnDomainConfig) : Std.ExtTreeSet Str :=
  Std.ExtTreeSet.ofList ((manifest.hosts.toList.filter fun entry =>
    entry.2.origin = originId &&
      (config.includeWildcards || !(['*', '.'] <+: trim entry.1))).filterMap fun entry =>
        normalizeCdnHost entry.1)

/-! ## CORS -/

/-- The parts of a parsed URL that the policy looks at. -/
structure ParsedUrl where
  scheme : Str
  path : Str
  query : Option Str
  fragment : Option Str
  username : Str
  password : Option Str
  port : Option Nat
  host : Option Str
  deriving DecidableEq, Repr

inductive CorsHostRule where
  | exact (host : Str)
  | wildcardSuffix (suffix : Str)
  deriving DecidableEq, Repr

structure CorsPolicy where
  rulesByOrigin : Std.TreeMap Str (List CorsHostRule)

/-- The rule of one host key, `none` where the loop goes on to the next. -/
def corsRule? (host : Str) : Option CorsHostRule :=
  let normalized := toAsciiLower (trim host)
  if normalized = ['*'] then none
  else
    match stripPrefix? ['*', '.'] normalized with
    | some suffix => ((normalizeHost suffix).filter (· = suffix)).map fun suffix =>
        .wildcardSuffix ('.' :: suffix)
    | none => (normalizeHost normalized).map .exact

/-- The turn of the loop of `from_manifest`. -/
def addCorsHost (rules : Std.TreeMap Str (List CorsHostRule)) (entry : Str × HostConfig) :
    Std.TreeMap Str (List CorsHostRule) :=
  match corsRule? entry.1 with
  | none => rules
  | some rule => rules.insert entry.2.origin (rules[entry.2.origin]?.getD [] ++ [rule])

/-- mirrors src/src/services/cors.rs:17-42 -/
def CorsPolicy.fromManifest (manifest : RenderMeshManifest) : CorsPolicy :=
  ⟨manifest.hosts.toList.foldl addCorsHost ∅⟩

/-- `Url::parse` is outside the repository; mirrors src/src/services/cors.rs:66-80 -/
def parseHttpsOriginHost (parseUrl : Str → Option ParsedUrl) (requestOrigin : Str) : Option Str :=
  match parseUrl requestOrigin with
  | none => none
  | some parsed =>
    if parsed.scheme ≠ "https".toList ∨ parsed.path ≠ ['/'] ∨ parsed.query.isSome ∨
        parsed.fragment.isSome ∨ parsed.username ≠ [] ∨ parsed.password.isSome ∨
        ¬ (parsed.port = none ∨ parsed.port = some 443) then none
    else parsed.host.bind normalizeHost

def CorsHostRule.allows (host : Str) : CorsHostRule → Bool
  | .exact exactHost => exactHost = host
  | .wildcardSuffix suffix => suffix <:+ host && byteLen suffix < byteLen host

/-- mirrors src/src/services/cors.rs:44-63 -/
def CorsPolicy.allowedOriginFor (parseUrl : Str → Option ParsedUrl) (policy : CorsPolicy)
    (originId requestOrigin : Str) : Option Str :=
  match parseHttpsOriginHost parseUrl requestOrigin with
  | none => none
  | some host =>
    match policy.rulesByOrigin[originId]? with
    | none => none
    | some rules =>
      match rules.find? (·.allows host) with
      | some _ => some requestOrigin
      | none => none

/-! ## What they read off the rules -/

theorem normalizeHost_of_star {host : Str} (h : startsWithStar host = true) :
    normalizeHost host = none := by
  simp only [startsWithStar, decide_eq_true_eq] at h
  obtain ⟨v, hv⟩ : ∃ v, trim host = '*' :: v := by
    cases ht : trim host with
    | nil => simp [ht] at h
    | cons c v => exact ⟨v, by simpa [ht] using h⟩
  have hbad : ∀ s : Str, isValidHost (toAsciiLower (trim ('*' :: s))) = false := by
    intro s
    refine Bool.eq_false_iff.mpr fun hvalid => ?_
    refine not_mem_of_isValidHost hvalid (c := '*') (by decide) (by decide) (by decide) ?_
    have hstar : isWhitespace '*' = false := by decide
    have hmem : '*' ∈ trim ('*' :: s) := by
      simp only [trim, List.dropWhile_cons, hstar, Bool.false_eq_true, if_false]
      obtain ⟨t, ht⟩ := List.rdropWhile_prefix isWhitespace ('*' :: s)
      cases hr : ('*' :: s).rdropWhile isWhitespace with
      | nil => simp [List.rdropWhile_eq_nil_iff, hstar] at hr
      | cons c u =>
        rw [hr] at ht
        simp only [List.cons_append, List.cons.injEq] at ht
        rw [ht.1]
        exact List.mem_cons_self
    exact List.mem_map.mpr ⟨'*', hmem, by decide⟩
  rw [normalizeHost_eq, hv]
  cases hp : withoutPort ('*' :: v) with
  | none => rfl
  | some b =>
    obtain ⟨b', rfl⟩ : ∃ b', b = '*' :: b' := by
      unfold withoutPort at hp
      split at hp
      · rename_i r hr
        split at hp
        · cases hp
        · cases hp
          obtain ⟨hsplit, -⟩ := rsplitOnce_eq_some.mp hr
          cases hr1 : r.1 with
          | nil => simp [hr1] at hsplit
          | cons c b' =>
            simp only [hr1, List.cons_append, List.cons.injEq] at hsplit
            exact ⟨b', by rw [hsplit.1]⟩
      · cases hp
        exact ⟨v, rfl⟩
    simp [hbad]

theorem hostRule?_of_not_star {host : Str} (h : startsWithStar host = false) :
    hostRule? host = (normalizeHost host).map .exact := by
  have hhead : (toAsciiLower (trim host)).head? ≠ some '*' := by
    simp only [startsWithStar, decide_eq_false_iff_not] at h
    rw [toAsciiLower, List.head?_map]
    cases ht : (trim host).head? with
    | none => simp
    | some c =>
      rw [ht] at h
      simpa [toLower_eq_iff (c := c) (d := '*') (by decide)] using h
  unfold hostRule?
  dsimp only
  rw [if_neg (fun he => hhead (by rw [he]; rfl))]
  split
  · rename_i suffix hs
    refine absurd ?_ hhead
    rw [stripPrefix?_eq_some.mp hs]
    rfl
  · rw [normalizeHost_toAsciiLower, normalizeHost_trim]

/-- A key that states an exact rule normalizes to its host. -/
theorem hostRule?_exact_iff {host n : Str} :
    hostRule? host = some (.exact n) ↔ normalizeHost host = some n := by
  cases hstar : startsWithStar host with
  | false =>
    rw [hostRule?_of_not_star hstar]
    simp
  | true =>
    have hnone := normalizeHost_of_star hstar
    have hlower : normalizeHost (toAsciiLower (trim host)) = none := by
      rw [normalizeHost_toAsciiLower, normalizeHost_trim, hnone]
    rw [hnone]
    unfold hostRule?
    dsimp only
    split
    · simp
    · split
      · split <;> simp
      · simp [hlower]

theorem hostRule?_wildcard {host suffix : Str} (h : hostRule? host = some (.wildcard suffix)) :
    toAsciiLower (trim host) = '*' :: '.' :: suffix ∧ normalizeHost suffix = some suffix := by
  unfold hostRule? at h
  dsimp only at h
  split at h
  · simp at h
  · split at h
    · rename_i s hs
      split at h
      · rename_i hn
        cases h
        exact ⟨stripPrefix?_eq_some.mp hs, hn⟩
      · cases h
    · cases hn : normalizeHost (toAsciiLower (trim host)) <;> simp [hn] at h

theorem hostRule?_fallback_iff {host : Str} :
    hostRule? host = some .fallback ↔ trim host = ['*'] := by
  have hlower : toAsciiLower (trim host) = ['*'] ↔ trim host = ['*'] := by
    constructor
    · intro h
      cases ht : trim host with
      | nil => simp [ht, toAsciiLower] at h
      | cons c v =>
        simp only [ht, toAsciiLower, List.map_cons, List.cons.injEq, List.map_eq_nil_iff,
          toLower_eq_iff (c := c) (d := '*') (by decide)] at h
        rw [h.1, h.2]
    · intro h
      rw [h]
      rfl
  unfold hostRule?
  simp only [hlower]
  split
  · rename_i h
    simp [h]
  · rename_i h
    simp only [h, iff_false]
    split
    · split <;> simp
    · cases normalizeHost (toAsciiLower (trim host)) <;> simp

theorem normalizeCdnHost_eq {host : Str} {rule : HostRule} (h : hostRule? host = some rule) :
    normalizeCdnHost host = if rule = .fallback then none else some rule.pattern := by
  unfold normalizeCdnHost
  unfold hostRule? at h
  dsimp only at h ⊢
  split at h
  · rename_i hstar
    cases h
    simp [hstar]
  · rename_i hstar
    rw [if_neg hstar]
    generalize stripPrefix? ['*', '.'] (toAsciiLower (trim host)) = suffix? at h ⊢
    cases suffix? with
    | some suffix =>
      simp only at h
      split at h
      · rename_i hn
        cases h
        simp [hn, HostRule.pattern]
      · cases h
    | none =>
      obtain ⟨n, hn, rfl⟩ := Option.map_eq_some_iff.mp h
      simp [hn, HostRule.pattern]

variable {manifest : RenderMeshManifest}

theorem mem_exactHosts_entry {originId host : Str} :
    (∃ entry ∈ manifest.hosts.toList, (entry.2.origin = originId ∧ startsWithStar entry.1 = false) ∧
      normalizeHost entry.1 = some host) ↔ HasRule manifest (.exact host) originId := by
  refine exists_congr fun entry => and_congr_right fun _ => ?_
  rw [hostRule?_exact_iff]
  constructor
  · intro h
    exact ⟨h.2, h.1.1⟩
  · intro h
    refine ⟨⟨h.2, ?_⟩, h.1⟩
    cases hstar : startsWithStar entry.1 with
    | false => rfl
    | true =>
      rw [normalizeHost_of_star hstar] at h
      cases h.1

theorem mem_exactHostsForOrigin {originId host : Str} :
    host ∈ exactHostsForOrigin manifest originId ↔ HasRule manifest (.exact host) originId := by
  rw [exactHostsForOrigin, Std.TreeSet.mem_ofList, List.contains_iff_mem,
    ← mem_exactHosts_entry]
  simp [List.mem_filterMap, and_assoc]

theorem mem_exactUrlPrefixesForOrigin {originId url : Str} :
    url ∈ exactUrlPrefixesForOrigin manifest originId ↔
      ∃ host, url = "https://".toList ++ host ∧ HasRule manifest (.exact host) originId := by
  rw [exactUrlPrefixesForOrigin, List.mem_filterMap]
  constructor
  · intro h
    obtain ⟨entry, he, hu⟩ := h
    obtain ⟨host, hn, rfl⟩ := Option.map_eq_some_iff.mp hu
    refine ⟨host, rfl, (mem_exactHosts_entry).mp ?_⟩
    simp only [List.mem_filter, Bool.and_eq_true, decide_eq_true_eq, Bool.not_eq_true'] at he
    exact ⟨entry, he.1, he.2, hn⟩
  · intro h
    obtain ⟨host, rfl, hrule⟩ := h
    obtain ⟨entry, he, hf, hn⟩ := (mem_exactHosts_entry).mpr hrule
    refine ⟨entry, ?_, by rw [hn]; rfl⟩
    simp only [List.mem_filter, Bool.and_eq_true, decide_eq_true_eq, Bool.not_eq_true']
    exact ⟨he, hf⟩

/-- The CDN domains of an origin: its hosts, and its wildcards where they are included. -/
theorem mem_desiredDomainsForOrigin
    (hrules : ∀ entry ∈ manifest.hosts.toList, (hostRule? entry.1).isSome) {originId domain : Str} {config : CdnDomainConfig} :
    domain ∈ desiredDomainsForOrigin manifest originId config ↔
      ∃ rule, HasRule manifest rule originId ∧ domain = rule.pattern ∧ rule ≠ .fallback ∧
        (config.includeWildcards = false → ∀ suffix, rule ≠ .wildcard suffix) := by
  rw [desiredDomainsForOrigin, Std.ExtTreeSet.mem_ofList, List.contains_iff_mem, List.mem_filterMap]
  have hpre : ∀ entry ∈ manifest.hosts.toList, ∀ rule, hostRule? entry.1 = some rule →
      rule ≠ .fallback → (['*', '.'] <+: trim entry.1 ↔ ∃ suffix, rule = .wildcard suffix) := by
    intro entry he rule hrule hne
    constructor
    · intro h
      obtain ⟨v, hv⟩ := h
      cases rule with
      | exact n =>
        have hstar : startsWithStar entry.1 = true := by simp [startsWithStar, ← hv]
        rw [hostRule?_exact_iff, normalizeHost_of_star hstar] at hrule
        cases hrule
      | wildcard suffix => exact ⟨suffix, rfl⟩
      | fallback => exact absurd rfl hne
    · intro h
      obtain ⟨suffix, rfl⟩ := h
      obtain ⟨hlower, -⟩ := hostRule?_wildcard hrule
      rcases ht : trim entry.1 with _ | ⟨a, _ | ⟨b, v⟩⟩
      · simp [ht, toAsciiLower] at hlower
      · simp [ht, toAsciiLower] at hlower
      · simp only [ht, toAsciiLower, List.map_cons, List.cons.injEq,
          toLower_eq_iff (c := a) (d := '*') (by decide),
          toLower_eq_iff (c := b) (d := '.') (by decide)] at hlower
        rw [hlower.1, hlower.2.1]
        exact ⟨v, rfl⟩
  constructor
  · intro h
    obtain ⟨entry, he, hd⟩ := h
    simp only [List.mem_filter, Bool.and_eq_true, decide_eq_true_eq, Bool.or_eq_true,
      Bool.not_eq_true', decide_eq_false_iff_not] at he
    obtain ⟨he, ho, hw⟩ := he
    obtain ⟨rule, hrule⟩ := Option.isSome_iff_exists.mp (hrules entry he)
    rw [normalizeCdnHost_eq hrule] at hd
    split at hd
    · cases hd
    · rename_i hne
      cases hd
      refine ⟨rule, ⟨entry, he, hrule, ho⟩, rfl, hne, fun hinclude suffix hs => ?_⟩
      rw [hinclude] at hw
      simp only [Bool.false_eq_true, false_or] at hw
      exact hw ((hpre entry he rule hrule hne).mpr ⟨suffix, hs⟩)
  · intro h
    obtain ⟨rule, ⟨entry, he, hrule, ho⟩, rfl, hne, hw⟩ := h
    refine ⟨entry, ?_, by rw [normalizeCdnHost_eq hrule, if_neg hne]⟩
    simp only [List.mem_filter, Bool.and_eq_true, decide_eq_true_eq, Bool.or_eq_true,
      Bool.not_eq_true', decide_eq_false_iff_not]
    refine ⟨he, ho, ?_⟩
    cases hinclude : config.includeWildcards with
    | true => exact Or.inl rfl
    | false =>
      right
      intro hp
      obtain ⟨suffix, hs⟩ := (hpre entry he rule hrule hne).mp hp
      exact hw hinclude suffix hs

end RenderMesh.Domains
