import RenderMesh.Domains.Hosts

/-!
# Host resolution

`HostResolver` (`src/src/services/manifest.rs`): which origin a `Host` header is
served from. A host key of the manifest is an exact host, `*.suffix`, or `*`.

The specification speaks of rules. `hostRule?` reads a host key as the rule it
states, `HostRule.Matches` says which host names a rule is for, and `Prefers` that
a rule is the first choice among the manifest's rules for a name.

* `HostResolver.new_ok_iff`: when a resolver is built, and from which rules.
* `resolve_cases`: `resolve` finds a preferred rule, for every manifest.
* `resolve_spec`: what it finds when no two host keys state the same rule, and what
  of the header does not matter.
-/
namespace RenderMesh.Domains

open RenderMesh.Core RenderMesh.Server

/-! ## The resolver -/

structure ResolvedHost where
  normalizedHost : Str
  matchedHost : Str
  originId : Str
  deriving DecidableEq, Repr

structure WildcardHost where
  pattern : Str
  suffix : Str
  originId : Str
  deriving DecidableEq, Repr

structure HostResolver where
  exact : Std.TreeMap Str Str
  wildcards : List WildcardHost
  fallback : Option Str

/-- The turn of the loop of `HostResolver::new`. -/
def HostResolver.insertHost (resolver : HostResolver) (host : Str) (config : HostConfig) :
    Except Error HostResolver :=
  let normalized := toAsciiLower (trim host)
  if normalized = ['*'] then
    if resolver.fallback.isSome then .error (anyhow "duplicate global wildcard host".toList)
    else .ok { resolver with fallback := some config.origin }
  else
    match stripPrefix? ['*', '.'] normalized with
    | some suffix =>
      if normalizeHost suffix ≠ some suffix then
        .error (anyhow ("invalid wildcard host ".toList ++ host))
      else .ok { resolver with
        wildcards := resolver.wildcards ++ [⟨normalized, '.' :: suffix, config.origin⟩] }
    | none =>
      match normalizeHost normalized with
      | none => .error (anyhow ("invalid host ".toList ++ host))
      | some normalizedHost =>
        .ok { resolver with exact := resolver.exact.insert normalizedHost config.origin }

/-- The loop of `HostResolver::new`. -/
def insertHosts (hosts : List (Str × HostConfig)) (resolver : HostResolver) :
    Except Error HostResolver :=
  hosts.foldlM (fun resolver entry => resolver.insertHost entry.1 entry.2) resolver

/-- The order of the wildcards, longest suffix first. -/
def LongerSuffix (left right : WildcardHost) : Prop := byteLen right.suffix ≤ byteLen left.suffix

instance : DecidableRel LongerSuffix := fun left right =>
  inferInstanceAs (Decidable (byteLen right.suffix ≤ byteLen left.suffix))

instance : Std.Total LongerSuffix := 
  ⟨fun left right => Nat.le_total (byteLen right.suffix) (byteLen left.suffix)⟩

/-- mirrors src/src/services/manifest.rs:34-70; the sort is stable. -/
def HostResolver.new (manifest : RenderMeshManifest) : Except Error HostResolver := do
  let resolver ← insertHosts manifest.hosts.toList ⟨∅, [], none⟩
  .ok { resolver with wildcards := resolver.wildcards.insertionSort LongerSuffix }

/-- mirrors src/src/services/manifest.rs:72-100 -/
def HostResolver.resolve (resolver : HostResolver) (hostHeader : Str) : Option ResolvedHost :=
  match normalizeHost hostHeader with
  | none => none
  | some normalizedHost =>
    match resolver.exact[normalizedHost]? with
    | some originId => some ⟨normalizedHost, normalizedHost, originId⟩
    | none =>
      match resolver.wildcards.find? fun wildcard =>
          wildcard.suffix <:+ normalizedHost && byteLen wildcard.suffix < byteLen normalizedHost with
      | some wildcard => some ⟨normalizedHost, wildcard.pattern, wildcard.originId⟩
      | none => resolver.fallback.map fun originId => ⟨normalizedHost, ['*'], originId⟩

/-! ## Rules -/

/-- What a host key of the manifest states. -/
inductive HostRule where
  | exact (host : Str)
  | wildcard (suffix : Str)
  | fallback
  deriving DecidableEq, Repr

/-- The rule that a host key is read as. -/
def hostRule? (host : Str) : Option HostRule :=
  let normalized := toAsciiLower (trim host)
  if normalized = ['*'] then some .fallback
  else
    match stripPrefix? ['*', '.'] normalized with
    | some suffix => if normalizeHost suffix = some suffix then some (.wildcard suffix) else none
    | none => (normalizeHost normalized).map .exact

/-- The host that a resolution by the rule names. -/
def HostRule.pattern : HostRule → Str
  | .exact host => host
  | .wildcard suffix => '*' :: '.' :: suffix
  | .fallback => ['*']

/-- The host names that a rule is for. -/
def HostRule.Matches : HostRule → Str → Prop
  | .exact host, n => n = host
  | .wildcard suffix, n => ∃ labels : List Str, labels ≠ [] ∧
      (∀ l ∈ labels, isValidHostLabel l = true) ∧ n = joinLabels labels ++ '.' :: suffix
  | .fallback, _ => True

def exactOf (entry : Str × HostConfig) : Option (Str × Str) :=
  match hostRule? entry.1 with
  | some (.exact host) => some (host, entry.2.origin)
  | _ => none

def wildcardOf (entry : Str × HostConfig) : Option WildcardHost :=
  match hostRule? entry.1 with
  | some (.wildcard suffix) => some ⟨'*' :: '.' :: suffix, '.' :: suffix, entry.2.origin⟩
  | _ => none

def fallbackOf (entry : Str × HostConfig) : Option Str :=
  match hostRule? entry.1 with
  | some .fallback => some entry.2.origin
  | _ => none

theorem stripPrefix?_eq_some {pre s r : Str} : stripPrefix? pre s = some r ↔ s = pre ++ r := by
  unfold stripPrefix?
  constructor
  · intro h
    split at h
    · rename_i hp
      obtain ⟨t, rfl⟩ := hp
      cases h
      simp
    · cases h
  · intro h
    subst h
    simp

def HostResolver.addRule (resolver : HostResolver) (originId : Str) : HostRule → HostResolver
  | .exact host => { resolver with exact := resolver.exact.insert host originId }
  | .wildcard suffix => { resolver with
      wildcards := resolver.wildcards ++ [⟨'*' :: '.' :: suffix, '.' :: suffix, originId⟩] }
  | .fallback => { resolver with fallback := some originId }

theorem insertHost_ok_iff {r r' : HostResolver} {host : Str} {config : HostConfig} :
    r.insertHost host config = .ok r' ↔ ∃ rule, hostRule? host = some rule ∧
      (rule = .fallback → r.fallback = none) ∧ r' = r.addRule config.origin rule := by
  unfold HostResolver.insertHost hostRule?
  dsimp only
  split
  · cases hf : r.fallback with
    | some o => simp
    | none => simp [HostResolver.addRule, eq_comm]
  · split
    · rename_i suffix hs
      by_cases hn : normalizeHost suffix = some suffix
      · simp [hn, HostResolver.addRule, stripPrefix?_eq_some.mp hs, eq_comm]
      · simp [hn]
    · cases normalizeHost (toAsciiLower (trim host)) with
      | none => simp
      | some n => simp [HostResolver.addRule, eq_comm]

theorem insertHosts_cons {entry : Str × HostConfig} {l : List (Str × HostConfig)}
    {r r' : HostResolver} :
    insertHosts (entry :: l) r = .ok r' ↔
      ∃ r1, r.insertHost entry.1 entry.2 = .ok r1 ∧ insertHosts l r1 = .ok r' := by
  unfold insertHosts
  rw [List.foldlM_cons]
  cases r.insertHost entry.1 entry.2 <;> simp [bind, Except.bind]

/-- What the loop of `HostResolver::new` makes of the hosts still to come. -/
theorem insertHosts_ok_iff (l : List (Str × HostConfig)) (r r' : HostResolver) :
    insertHosts l r = .ok r' ↔
      (∀ entry ∈ l, (hostRule? entry.1).isSome) ∧
        (r.fallback.toList ++ l.filterMap fallbackOf).length ≤ 1 ∧
        r' = ⟨(l.filterMap exactOf).foldl (fun m e => m.insert e.1 e.2) r.exact,
          r.wildcards ++ l.filterMap wildcardOf,
          (r.fallback.toList ++ l.filterMap fallbackOf).head?⟩ := by
  induction l generalizing r with
  | nil =>
    have hlen : r.fallback.toList.length ≤ 1 := by cases r.fallback <;> simp
    have hhead : r.fallback.toList.head? = r.fallback := by cases r.fallback <;> rfl
    have hnil : insertHosts [] r = .ok r := rfl
    simp only [hnil, List.filterMap_nil, List.append_nil, List.foldl_nil, hhead, hlen,
      Except.ok.injEq, List.not_mem_nil, false_implies, implies_true, true_and]
    exact eq_comm
  | cons entry l ih =>
    simp only [insertHosts_cons, insertHost_ok_iff, ih, List.forall_mem_cons]
    cases hrule : hostRule? entry.1 with
    | none => simp
    | some rule =>
      cases rule with
      | exact host =>
        have h1 : exactOf entry = some (host, entry.2.origin) := by simp [exactOf, hrule]
        have h2 : wildcardOf entry = none := by simp [wildcardOf, hrule]
        have h3 : fallbackOf entry = none := by simp [fallbackOf, hrule]
        simp [h1, h2, h3, HostResolver.addRule]
      | wildcard suffix =>
        have h1 : exactOf entry = none := by simp [exactOf, hrule]
        have h2 : wildcardOf entry = some ⟨'*' :: '.' :: suffix, '.' :: suffix, entry.2.origin⟩ := by
          simp [wildcardOf, hrule]
        have h3 : fallbackOf entry = none := by simp [fallbackOf, hrule]
        simp [h1, h2, h3, HostResolver.addRule]
      | fallback =>
        have h1 : exactOf entry = none := by simp [exactOf, hrule]
        have h2 : wildcardOf entry = none := by simp [wildcardOf, hrule]
        have h3 : fallbackOf entry = some entry.2.origin := by simp [fallbackOf, hrule]
        cases hf : r.fallback with
        | some o => simp [h1, h2, h3]
        | none => simp [h1, h2, h3, HostResolver.addRule]

/-- A resolver is built when every host key states a rule, at most one of them `*`. -/
theorem HostResolver.new_ok_iff {manifest : RenderMeshManifest} {resolver : HostResolver} :
    HostResolver.new manifest = .ok resolver ↔
      (∀ entry ∈ manifest.hosts.toList, (hostRule? entry.1).isSome) ∧
        (manifest.hosts.toList.filterMap fallbackOf).length ≤ 1 ∧
        resolver = ⟨(manifest.hosts.toList.filterMap exactOf).foldl (fun m e => m.insert e.1 e.2) ∅,
          (manifest.hosts.toList.filterMap wildcardOf).insertionSort LongerSuffix,
          (manifest.hosts.toList.filterMap fallbackOf).head?⟩ := by
  unfold HostResolver.new
  have hall := insertHosts_ok_iff manifest.hosts.toList ⟨∅, [], none⟩
  simp only [Option.toList_none, List.nil_append] at hall
  cases hr : insertHosts manifest.hosts.toList ⟨∅, [], none⟩ with
  | error e =>
    simp only [bind, Except.bind, reduceCtorEq, false_iff]
    intro h
    have := (hall _).mpr ⟨h.1, h.2.1, rfl⟩
    rw [hr] at this
    cases this
  | ok r =>
    obtain ⟨h1, h2, h3⟩ := (hall r).mp hr
    simp only [bind, Except.bind, Except.ok.injEq, h3]
    constructor
    · intro h
      exact ⟨h1, h2, h.symm⟩
    · intro h
      exact h.2.2.symm

/-! ## Resolution -/

/-- The manifest has a host key that states `rule`, for the origin `originId`. -/
def HasRule (manifest : RenderMeshManifest) (rule : HostRule) (originId : Str) : Prop :=
  ∃ entry ∈ manifest.hosts.toList, hostRule? entry.1 = some rule ∧ entry.2.origin = originId

theorem mem_exactOf {manifest : RenderMeshManifest} {host originId : Str} :
    (host, originId) ∈ manifest.hosts.toList.filterMap exactOf ↔
      HasRule manifest (.exact host) originId := by
  rw [List.mem_filterMap]
  refine exists_congr fun entry => and_congr_right fun _ => ?_
  unfold exactOf
  split
  · rename_i n hrule
    simp [hrule]
  · rename_i hno
    simp only [reduceCtorEq, false_iff]
    exact fun h => hno _ h.1

theorem mem_wildcardOf {manifest : RenderMeshManifest} {wildcard : WildcardHost} :
    wildcard ∈ manifest.hosts.toList.filterMap wildcardOf ↔
      ∃ suffix, HasRule manifest (.wildcard suffix) wildcard.originId ∧
        wildcard = ⟨'*' :: '.' :: suffix, '.' :: suffix, wildcard.originId⟩ := by
  rw [List.mem_filterMap]
  constructor
  · intro h
    obtain ⟨entry, he, hw⟩ := h
    unfold wildcardOf at hw
    split at hw
    · rename_i suffix hrule
      cases hw
      exact ⟨suffix, ⟨entry, he, hrule, rfl⟩, rfl⟩
    · cases hw
  · intro h
    obtain ⟨suffix, ⟨entry, he, hrule, ho⟩, hw⟩ := h
    exact ⟨entry, he, by rw [hw]; simp [wildcardOf, hrule, ho]⟩

theorem mem_fallbackOf {manifest : RenderMeshManifest} {originId : Str} :
    originId ∈ manifest.hosts.toList.filterMap fallbackOf ↔ HasRule manifest .fallback originId := by
  rw [List.mem_filterMap]
  refine exists_congr fun entry => and_congr_right fun _ => ?_
  unfold fallbackOf
  split
  · rename_i hrule
    simp [hrule]
  · rename_i hno
    simp only [reduceCtorEq, false_iff]
    exact fun h => hno h.1

/-- Successive insertions: what is found was there or was inserted. -/
theorem getElem?_foldl_insert {l : List (Str × Str)} {m : Std.TreeMap Str Str} {k v : Str}
    (h : (l.foldl (fun m e => m.insert e.1 e.2) m)[k]? = some v) : (k, v) ∈ l ∨ m[k]? = some v := by
  induction l generalizing m with
  | nil => exact Or.inr h
  | cons e l ih =>
    rcases ih h with h | h
    · exact Or.inl (List.mem_cons_of_mem _ h)
    · rw [Std.TreeMap.getElem?_insert] at h
      split at h
      · rename_i he
        have he := Std.LawfulEqCmp.eq_of_compare he
        cases h
        exact Or.inl (by rw [← he]; exact List.mem_cons_self)
      · exact Or.inr h

theorem isSome_foldl_insert {l : List (Str × Str)} {m : Std.TreeMap Str Str} {k : Str}
    (h : (∃ v, (k, v) ∈ l) ∨ m[k]?.isSome) :
    (l.foldl (fun m e => m.insert e.1 e.2) m)[k]?.isSome := by
  induction l generalizing m with
  | nil => simpa using h
  | cons e l ih =>
    refine ih ?_
    rw [Std.TreeMap.getElem?_insert]
    by_cases he : compare e.1 k = .eq
    · right
      simp [he]
    · rcases h with ⟨v, hv⟩ | h
      · rcases List.mem_cons.mp hv with rfl | hv
        · exact absurd (Std.ReflCmp.compare_self) he
        · exact Or.inl ⟨v, hv⟩
      · right
        simpa [he] using h

/-- In a list sorted by `r`, the first that satisfies `p` is before every other. -/
theorem find?_sorted {α : Type} {r : α → α → Prop} {p : α → Bool} {l : List α} {x : α}
    (hl : l.Pairwise r) (hx : l.find? p = some x) {y : α} (hy : y ∈ l) (hp : p y = true) :
    y = x ∨ r x y := by
  obtain ⟨-, before, after, rfl, hbefore⟩ := List.find?_eq_some_iff_append.mp hx
  rcases List.mem_append.mp hy with h | h
  · have := hbefore y h
    simp [hp] at this
  · rcases List.mem_cons.mp h with h | h
    · exact Or.inl h
    · exact Or.inr ((List.pairwise_cons.mp (List.pairwise_append.mp hl).2.1).1 y h)

/-- A rule that the resolver would choose for the name `n`: its own host, else the
wildcard with the longest suffix, else `*`. -/
def Prefers (manifest : RenderMeshManifest) (n : Str) (rule : HostRule) : Prop :=
  (∃ o, HasRule manifest rule o) ∧ rule.Matches n ∧
    match rule with
    | .exact _ => True
    | .wildcard suffix => (∀ o, ¬ HasRule manifest (.exact n) o) ∧
        ∀ suffix' o, HasRule manifest (.wildcard suffix') o → (HostRule.wildcard suffix').Matches n →
          suffix' = suffix ∨ suffix'.length < suffix.length
    | .fallback => ∀ rule' o, HasRule manifest rule' o → rule'.Matches n → rule' = .fallback

theorem Prefers.unique {manifest : RenderMeshManifest} {n : Str} {rule rule' : HostRule}
    (h : Prefers manifest n rule) (h' : Prefers manifest n rule') : rule = rule' := by
  obtain ⟨⟨o, ho⟩, hm, hp⟩ := h
  obtain ⟨⟨o', ho'⟩, hm', hp'⟩ := h'
  cases rule with
  | exact host =>
    cases rule' with
    | exact host' => rw [← hm, ← hm']
    | wildcard suffix' => exact absurd (hm ▸ ho) (hp'.1 o)
    | fallback => exact hp' _ _ ho hm
  | wildcard suffix =>
    cases rule' with
    | exact host' => exact absurd (hm' ▸ ho') (hp.1 o')
    | wildcard suffix' =>
      rcases hp.2 _ _ ho' hm' with h | h
      · rw [h]
      · rcases hp'.2 _ _ ho hm with h' | h'
        · rw [h']
        · omega
    | fallback => exact hp' _ _ ho hm
  | fallback => exact (hp _ _ ho' hm').symm

/-- The test on a wildcard's suffix, for a name that is a valid host. -/
theorem wildcard_matches_iff {n suffix : Str} (hn : isValidHost n = true) :
    ('.' :: suffix <:+ n ∧ byteLen ('.' :: suffix) < byteLen n) ↔
      (HostRule.wildcard suffix).Matches n := by
  constructor
  · intro h
    exact (suffix_labels_iff (isValidHost_labels hn)).mp h.1
  · intro h
    have hs := (suffix_labels_iff (isValidHost_labels hn)).mpr h
    refine ⟨hs, byteLen_lt_of_suffix hs ?_⟩
    intro he
    rw [← he] at hn
    simp [isValidHost] at hn

section
variable {manifest : RenderMeshManifest} {resolver : HostResolver}
  (hnew : HostResolver.new manifest = .ok resolver)
include hnew

theorem exact_some {n o : Str} (h : resolver.exact[n]? = some o) :
    HasRule manifest (.exact n) o := by
  obtain ⟨-, -, hr⟩ := HostResolver.new_ok_iff.mp hnew
  rw [hr] at h
  rcases getElem?_foldl_insert h with h | h
  · exact mem_exactOf.mp h
  · simp at h

theorem exact_isSome {n o : Str} (h : HasRule manifest (.exact n) o) :
    ∃ o', resolver.exact[n]? = some o' := by
  obtain ⟨-, -, hr⟩ := HostResolver.new_ok_iff.mp hnew
  rw [← Option.isSome_iff_exists, hr]
  exact isSome_foldl_insert (Or.inl ⟨o, mem_exactOf.mpr h⟩)

theorem mem_wildcards {wildcard : WildcardHost} :
    wildcard ∈ resolver.wildcards ↔
      ∃ suffix, HasRule manifest (.wildcard suffix) wildcard.originId ∧
        wildcard = ⟨'*' :: '.' :: suffix, '.' :: suffix, wildcard.originId⟩ := by
  obtain ⟨-, -, hr⟩ := HostResolver.new_ok_iff.mp hnew
  rw [hr, ← mem_wildcardOf]
  exact (List.perm_insertionSort LongerSuffix _).mem_iff

theorem wildcards_sorted : resolver.wildcards.Pairwise LongerSuffix := by
  obtain ⟨-, -, hr⟩ := HostResolver.new_ok_iff.mp hnew
  rw [hr]
  have : IsTrans WildcardHost LongerSuffix := ⟨fun _ _ _ h1 h2 => Nat.le_trans h2 h1⟩
  exact List.pairwise_insertionSort LongerSuffix _

theorem fallback_iff {o : Str} : resolver.fallback = some o ↔ HasRule manifest .fallback o := by
  obtain ⟨-, hlen, hr⟩ := HostResolver.new_ok_iff.mp hnew
  rw [hr, ← mem_fallbackOf]
  rcases hl : manifest.hosts.toList.filterMap fallbackOf with _ | ⟨a, _ | ⟨b, l⟩⟩
  · simp
  · simp [eq_comm]
  · rw [hl] at hlen
    simp at hlen

/-- What `resolve` returns for a header that is a valid host: the preferred rule's
resolution, or nothing because no rule is for that host. -/
theorem resolve_cases {h n : Str} (hn : normalizeHost h = some n) :
    (∃ rule o, Prefers manifest n rule ∧ HasRule manifest rule o ∧
      resolver.resolve h = some ⟨n, rule.pattern, o⟩) ∨
    (∀ rule o, HasRule manifest rule o → ¬ rule.Matches n) ∧ resolver.resolve h = none := by
  obtain ⟨hvalid, -⟩ := normalizeHost_some hn
  unfold HostResolver.resolve
  rw [hn]
  dsimp only
  cases hexact : resolver.exact[n]? with
  | some o =>
    have ho := exact_some hnew hexact
    exact Or.inl ⟨.exact n, o, ⟨⟨o, ho⟩, rfl, trivial⟩, ho, rfl⟩
  | none =>
    have hno : ∀ o, ¬ HasRule manifest (.exact n) o := by
      intro o ho
      obtain ⟨o', ho'⟩ := exact_isSome hnew ho
      rw [hexact] at ho'
      cases ho'
    cases hfind : resolver.wildcards.find? fun wildcard =>
        wildcard.suffix <:+ n && byteLen wildcard.suffix < byteLen n with
    | some wildcard =>
      obtain ⟨suffix, hrule, hw⟩ := (mem_wildcards hnew).mp (List.mem_of_find?_eq_some hfind)
      have htest := List.find?_some hfind
      rw [hw] at htest
      simp only [Bool.and_eq_true, decide_eq_true_eq] at htest
      refine Or.inl ⟨.wildcard suffix, wildcard.originId,
        ⟨⟨_, hrule⟩, (wildcard_matches_iff hvalid).mp htest, hno, ?_⟩, hrule, ?_⟩
      · intro suffix' o' hrule' hm'
        have htest' := (wildcard_matches_iff hvalid).mpr hm'
        have hmem' : ⟨'*' :: '.' :: suffix', '.' :: suffix', o'⟩ ∈ resolver.wildcards :=
          (mem_wildcards hnew).mpr ⟨suffix', hrule', rfl⟩
        have hle : byteLen ('.' :: suffix') ≤ byteLen ('.' :: suffix) := by
          rcases find?_sorted (wildcards_sorted hnew) hfind hmem' (by simp [htest']) with he | he
          · rw [hw] at he
            simp only [WildcardHost.mk.injEq] at he
            rw [he.2.1]
          · rw [hw] at he
            exact he
        have hsuffix := suffix_of_byteLen_le htest'.1 htest.1 hle
        by_cases he : suffix' = suffix
        · exact Or.inl he
        · right
          have hlen := hsuffix.length_le
          simp only [List.length_cons] at hlen
          have hne : suffix'.length ≠ suffix.length := by
            intro hl
            have := hsuffix.eq_of_length (by simp [hl])
            simp only [List.cons.injEq, true_and] at this
            exact he this
          omega
      · rw [hw]
        rfl
    | none =>
      have hnowild : ∀ suffix o, HasRule manifest (.wildcard suffix) o →
          ¬ (HostRule.wildcard suffix).Matches n := by
        intro suffix o hrule hm
        have hmem : ⟨'*' :: '.' :: suffix, '.' :: suffix, o⟩ ∈ resolver.wildcards :=
          (mem_wildcards hnew).mpr ⟨suffix, hrule, rfl⟩
        have htest := (wildcard_matches_iff hvalid).mpr hm
        have := List.find?_eq_none.mp hfind _ hmem
        simp [htest] at this
      have honly : ∀ rule o, HasRule manifest rule o → rule.Matches n → rule = .fallback := by
        intro rule o hrule hm
        cases rule with
        | exact host => exact absurd (hm ▸ hrule) (hno o)
        | wildcard suffix => exact absurd hm (hnowild suffix o hrule)
        | fallback => rfl
      cases hf : resolver.fallback with
      | some o =>
        have ho := (fallback_iff hnew).mp hf
        exact Or.inl ⟨.fallback, o, ⟨⟨o, ho⟩, trivial, honly⟩, ho, rfl⟩
      | none =>
        refine Or.inr ⟨fun rule o hrule hm => ?_, rfl⟩
        rw [honly rule o hrule hm] at hrule
        rw [(fallback_iff hnew).mpr hrule] at hf
        cases hf

end

theorem resolve_congr (resolver : HostResolver) {h h' : Str}
    (hn : normalizeHost h = normalizeHost h') : resolver.resolve h = resolver.resolve h' := by
  unfold HostResolver.resolve
  rw [hn]

theorem HasRule.origin_eq {manifest : RenderMeshManifest} {rule : HostRule} {o o' : Str}
    (h : HasRule manifest rule o)
    (hapart : ∀ host ∈ manifest.hosts, ∀ host' ∈ manifest.hosts,
      hostRule? host = hostRule? host' → host = host')
    (h' : HasRule manifest rule o') : o = o' := by
  obtain ⟨entry, he, hr, ho⟩ := h
  obtain ⟨entry', he', hr', ho'⟩ := h'
  have hget := Std.TreeMap.mem_toList_iff_getElem?_eq_some.mp he
  have hget' := Std.TreeMap.mem_toList_iff_getElem?_eq_some.mp he'
  have hkey : entry.1 = entry'.1 :=
    hapart _ (Std.TreeMap.mem_iff_isSome_getElem?.mpr (by rw [hget]; rfl))
      _ (Std.TreeMap.mem_iff_isSome_getElem?.mpr (by rw [hget']; rfl)) (by rw [hr, hr'])
  rw [hkey, hget'] at hget
  rw [← ho, ← ho', Option.some.inj hget]

/-- Host resolution meets its specification, for a manifest in which no two host
keys state the same rule. -/
theorem resolve_spec {manifest : RenderMeshManifest} {resolver : HostResolver}
    (hnew : HostResolver.new manifest = .ok resolver)
    (hapart : ∀ host ∈ manifest.hosts, ∀ host' ∈ manifest.hosts,
      hostRule? host = hostRule? host' → host = host') (h : Str) :
    -- nothing is found exactly for what is no host and for hosts without a rule
    (resolver.resolve h = none ↔ normalizeHost h = none ∨
      ∃ n, normalizeHost h = some n ∧ ∀ rule o, HasRule manifest rule o → ¬ rule.Matches n) ∧
    -- what is found is the one preferred rule, with its one origin
    (∀ res, resolver.resolve h = some res → normalizeHost h = some res.normalizedHost ∧
      ∃ rule, Prefers manifest res.normalizedHost rule ∧ res.matchedHost = rule.pattern ∧
        HasRule manifest rule res.originId ∧
        (∀ rule', Prefers manifest res.normalizedHost rule' → rule' = rule) ∧
        ∀ o, HasRule manifest rule o → o = res.originId) ∧
    -- case, surrounding whitespace and a numeric port make no difference
    (∀ h', toAsciiLower h' = toAsciiLower h → resolver.resolve h' = resolver.resolve h) ∧
    (∀ pre post : Str, (∀ c ∈ pre, isWhitespace c = true) → (∀ c ∈ post, isWhitespace c = true) →
      resolver.resolve (pre ++ h ++ post) = resolver.resolve h) ∧
    (∀ port port' : Str, port ≠ [] → port.all Char.isDigit = true → port' ≠ [] →
      port'.all Char.isDigit = true →
      resolver.resolve (withPort h port) = resolver.resolve (withPort h port')) ∧
    (∀ port : Str, port ≠ [] → port.all Char.isDigit = true → ':' ∉ h →
      resolver.resolve (withPort h port) = resolver.resolve h) := by
  refine ⟨?_, ?_, ?_, ?_, ?_, ?_⟩
  · cases hn : normalizeHost h with
    | none => simp [HostResolver.resolve, hn]
    | some n =>
      rcases resolve_cases hnew hn with ⟨rule, o, hp, hrule, hres⟩ | ⟨hno, hres⟩
      · simp only [hres, reduceCtorEq, false_or, Option.some.injEq, false_iff]
        intro hall
        obtain ⟨n', rfl, hall⟩ := hall
        exact hall rule o hrule hp.2.1
      · simp only [hres, reduceCtorEq, false_or, Option.some.injEq, true_iff]
        exact ⟨n, rfl, hno⟩
  · intro res hres
    cases hn : normalizeHost h with
    | none => simp [HostResolver.resolve, hn] at hres
    | some n =>
      rcases resolve_cases hnew hn with ⟨rule, o, hp, hrule, hres'⟩ | ⟨-, hres'⟩
      · rw [hres'] at hres
        cases hres
        refine ⟨rfl, rule, hp, rfl, hrule, fun rule' hp' => hp'.unique hp, fun o' hrule' => ?_⟩
        exact hrule'.origin_eq hapart hrule
      · rw [hres'] at hres
        cases hres
  · intro h' hh
    refine resolve_congr resolver ?_
    rw [← normalizeHost_toAsciiLower h', hh, normalizeHost_toAsciiLower]
  · intro pre post hpre hpost
    refine resolve_congr resolver ?_
    rw [← normalizeHost_trim, trim_pad hpre hpost, normalizeHost_trim]
  · intro port port' hne hd hne' hd'
    refine resolve_congr resolver ?_
    rw [normalizeHost_withPort hne hd, normalizeHost_withPort hne' hd']
  · intro port hne hd hcolon
    exact resolve_congr resolver (normalizeHost_port hne hd hcolon)

theorem resolve_spec_www :
    ∃ resolver, HostResolver.new (smallManifest [("*", "web"), ("*.A.com", "api"),
        ("a.com", "web")]) = .ok resolver ∧
      resolver.resolve " WWW.a.com:8080".toList =
        some ⟨"www.a.com".toList, "*.a.com".toList, "api".toList⟩ ∧
      resolver.resolve "WWW.a.com".toList = resolver.resolve "www.a.com".toList := by
  have hresolve : ((HostResolver.new (smallManifest [("*", "web"), ("*.A.com", "api"),
      ("a.com", "web")])).toOption.bind fun resolver => resolver.resolve " WWW.a.com:8080".toList) =
        some ⟨"www.a.com".toList, "*.a.com".toList, "api".toList⟩ := by decide
  cases hnew : HostResolver.new (smallManifest [("*", "web"), ("*.A.com", "api"),
      ("a.com", "web")]) with
  | error e =>
    rw [hnew] at hresolve
    cases hresolve
  | ok resolver =>
    rw [hnew] at hresolve
    refine ⟨resolver, rfl, hresolve, ?_⟩
    refine (resolve_spec hnew ?_ "www.a.com".toList).2.2.1 "WWW.a.com".toList (by decide)
    have hkeys : ∀ host ∈ (smallManifest [("*", "web"), ("*.A.com", "api"), ("a.com", "web")]).hosts,
        host = "*".toList ∨ host = "*.A.com".toList ∨ host = "a.com".toList := by
      intro host hmem
      have := Std.TreeMap.mem_keys.mpr hmem
      simpa using (show host ∈ ["*".toList, "*.A.com".toList, "a.com".toList] from this)
    intro host hmem host' hmem' he
    rcases hkeys host hmem with rfl | rfl | rfl <;> rcases hkeys host' hmem' with rfl | rfl | rfl <;>
      first | rfl | exact absurd he (by decide)

end RenderMesh.Domains
