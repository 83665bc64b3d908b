import RenderMesh.Gateway.RuleSelection
import RenderMesh.Server.EdgeConfig
import RenderMesh.Refresh.Snapshot

/-!
# Where a redirect leads

Behaviour (`src/src/services/static_rules.rs:9-32`): the splat is put into the target as it is,
and the query is appended to the result, unless that has a `?` in it.

Intended: a target is checked to be an absolute path (`validate_absolute_path`,
`src/src/services/edge_config.rs`), so a redirect is meant to stay on the host. And "Query string
is preserved by default unless the target already contains a query string"
(`docs/superpowers/specs/2026-05-18-rendermesh-mvp-design.md`).

Counterexamples:
* `redirect_leaves_host`: from `/old/*` to `/:splat` the path `/old//evil.com` is sent to
  `//evil.com`, which is another host. The target was checked, the result is not.
* `query_lost_in_fragment`: from `/docs` to `/guide#start` the query `v=1` comes out in the
  fragment, `/guide#start?v=1`.

Conditions: `redirect_stays_on_host_iff`, `query_preserved_iff`.
-/
namespace RenderMesh.Bugs.RedirectTargets

open RenderMesh.Core RenderMesh.Server RenderMesh.Gateway RenderMesh.Refresh

/-! ## The host -/

/-- A client takes either slash for a slash. -/
def Slashed (s : Str) : Prop := s.head? = some '/' ∨ s.head? = some '\\'

instance (s : Str) : Decidable (Slashed s) := by unfold Slashed; infer_instance

/-- An absolute path, which a client resolves to the host that sent it. -/
def OnHost (location : Str) : Prop := ∃ rest, location = '/' :: rest ∧ ¬ Slashed rest

/-- What the splat makes of the target begins with two slashes. -/
inductive LeavesHost (target splat : Str) : Prop where
  /-- the splat comes first, and begins with a slash -/
  | slashed {rest : Str} (htarget : target = '/' :: ":splat".toList ++ rest) (hsplat : Slashed splat)
  /-- the splat is empty, and what comes after it begins with a slash -/
  | empty {n : Nat} {rest : Str} (hsplat : splat = [])
    (htarget : target = '/' :: (List.replicate (n + 1) ":splat".toList).flatten ++ rest)
    (hrest : Slashed rest)

section
variable {splat : Option Str}

theorem applySplat_slash (target : Str) :
    applySplat ('/' :: target) splat = '/' :: applySplat target splat := by
  simp [applySplat, replaceFrom]

theorem applySplat_splat (target : Str) :
    applySplat (":splat".toList ++ target) splat = splat.getD [] ++ applySplat target splat := by
  simp [applySplat, replaceFrom]

theorem applySplat_cons {c : Char} {target : Str} (h : ¬ ":splat".toList <+: c :: target) :
    applySplat (c :: target) splat = c :: applySplat target splat := by
  rw [applySplat, replaceFrom, if_neg h, applySplat]

end

theorem slashed_append {s t : Str} : Slashed (s ++ t) ↔ Slashed s ∨ s = [] ∧ Slashed t := by
  cases s <;> simp [Slashed]

theorem not_slashed_splat (rest : Str) : ¬ Slashed (":splat".toList ++ rest) := by
  simp [Slashed]

/-- How a substituted text comes to begin with a slash. -/
theorem slashed_applySplat (splat : Option Str) (target : Str) :
    Slashed (applySplat target splat) ↔ Slashed target ∨
      (∃ rest, target = ":splat".toList ++ rest ∧ Slashed (splat.getD [])) ∨
      (splat.getD [] = [] ∧ ∃ n rest, Slashed rest ∧
        target = (List.replicate (n + 1) ":splat".toList).flatten ++ rest) := by
  induction hlen : target.length using Nat.strongRecOn generalizing target with
  | ind n ih =>
    by_cases hpre : ":splat".toList <+: target
    · obtain ⟨rest, rfl⟩ := hpre
      have hlt : rest.length < n := by
        rw [← hlen, List.length_append]
        simp
      rw [applySplat_splat, slashed_append, ih rest.length hlt rest rfl]
      constructor
      · rintro (hsplat | ⟨hempty, hrest | ⟨-, -, hslashed⟩ | ⟨-, m, after, hafter, rfl⟩⟩)
        · exact Or.inr (Or.inl ⟨rest, rfl, hsplat⟩)
        · exact Or.inr (Or.inr ⟨hempty, 0, rest, hrest, by simp⟩)
        · rw [hempty] at hslashed
          exact absurd hslashed (by decide)
        · refine Or.inr (Or.inr ⟨hempty, m + 1, after, hafter, ?_⟩)
          simp only [List.replicate_succ, List.flatten_cons, List.append_assoc]
      · rintro (hslashed | ⟨-, -, hsplat⟩ | ⟨hempty, m, after, hafter, htarget⟩)
        · exact absurd hslashed (not_slashed_splat rest)
        · exact Or.inl hsplat
        · rw [List.replicate_succ, List.flatten_cons, List.append_assoc] at htarget
          have hrest := List.append_cancel_left htarget
          refine Or.inr ⟨hempty, ?_⟩
          cases m with
          | zero => exact Or.inl (by rwa [hrest])
          | succ m => exact Or.inr (Or.inr ⟨hempty, m, after, hafter, hrest⟩)
    · have hsplat : ¬ ∃ rest, target = ":splat".toList ++ rest ∧ Slashed (splat.getD []) := by
        rintro ⟨rest, rfl, -⟩
        exact hpre (List.prefix_append _ _)
      have hsplats : ¬ ∃ n rest, Slashed rest ∧
          target = (List.replicate (n + 1) ":splat".toList).flatten ++ rest := by
        rintro ⟨m, rest, -, rfl⟩
        rw [List.replicate_succ, List.flatten_cons, List.append_assoc] at hpre
        exact hpre (List.prefix_append _ _)
      simp only [hsplat, hsplats, and_false, or_false]
      cases target with
      | nil => rfl
      | cons c target =>
        rw [applySplat_cons hpre]
        simp [Slashed]

/-- A target with one slash in front leads to another host exactly if the splat makes it. -/
theorem slashed_iff_leavesHost {target : Str} (htarget : ¬ Slashed target) (splat : Option Str) :
    Slashed (applySplat target splat) ↔ LeavesHost ('/' :: target) (splat.getD []) := by
  rw [slashed_applySplat]
  constructor
  · rintro (h | ⟨rest, rfl, hsplat⟩ | ⟨hempty, n, rest, hrest, rfl⟩)
    · exact absurd h htarget
    · exact .slashed rfl hsplat
    · exact .empty hempty rfl hrest
  · rintro (⟨htarget, hsplat⟩ | ⟨hempty, htarget, hrest⟩)
    · exact Or.inr (Or.inl ⟨_, (List.cons.inj htarget).2, hsplat⟩)
    · exact Or.inr (Or.inr ⟨hempty, _, _, hrest, (List.cons.inj htarget).2⟩)

/-- The query does not matter. -/
theorem onHost_locationWith (query : Option Str) (target : Str) :
    OnHost (locationWith query ('/' :: target)) ↔ ¬ Slashed target := by
  have hlocation : locationWith query ('/' :: target) = '/' :: target ∨
      ∃ q, locationWith query ('/' :: target) = '/' :: (target ++ '?' :: q) := by
    unfold locationWith
    split
    · exact Or.inl rfl
    · split
      · exact Or.inr ⟨_, rfl⟩
      · exact Or.inl rfl
  have honHost (rest : Str) : OnHost ('/' :: rest) ↔ ¬ Slashed rest := by
    constructor
    · rintro ⟨_, ⟨⟩, h⟩
      exact h
    · exact fun h => ⟨rest, rfl, h⟩
  obtain h | ⟨q, h⟩ := hlocation
  · rw [h, honHost]
  · rw [h, honHost, slashed_append]
    simp [Slashed]

theorem findRedirect_of_selects {config : EdgeConfig} {path : Str} {rule : RedirectRule}
    {splat : Option Str} (h : Selects RedirectRule.from_ config.redirects path rule splat)
    (query : Option Str) : findRedirect config path query =
      some ⟨rule.status, locationWith query (applySplat rule.to_ splat)⟩ := by
  obtain ⟨m, hbest, rfl⟩ := selects_iff.mp h
  rw [findRedirect, hbest]
  rfl

theorem selects_of_findRedirect {config : EdgeConfig} {path : Str} {query : Option Str}
    {redirect : RedirectDecision} (h : findRedirect config path query = some redirect) :
    ∃ rule splat, Selects RedirectRule.from_ config.redirects path rule splat := by
  obtain ⟨best, hbest, -⟩ := Option.map_eq_some_iff.mp h
  exact ⟨best.1, best.2.splat, selects_iff.mpr ⟨best.2, hbest, rfl⟩⟩

theorem redirect_target_absolute {deps : Deps} {config : EdgeConfig}
    (hvalid : validateEdgeConfig deps config = .ok ()) {rule : RedirectRule}
    (hrule : rule ∈ config.redirects) : ∃ rest, rule.to_ = '/' :: rest := by
  have hredirect := (validateEdgeConfig_ok hvalid).2.2.1 rule hrule
  simp only [validateRedirect, exceptBind_ok] at hredirect
  obtain ⟨_, _, _, hto, _⟩ := hredirect
  unfold validateAbsolutePath at hto
  split at hto
  · cases hto
  · rename_i hgood
    have hslash : rule.to_.head? = some '/' := by
      by_contra hno
      exact hgood (Or.inr (Or.inl hno))
    cases hcons : rule.to_ with
    | nil => simp [hcons] at hslash
    | cons c rest =>
      rw [hcons] at hslash
      exact ⟨rest, by rw [Option.some.inj hslash]⟩

/-- A redirect of an accepted config whose targets begin with one slash stays on the host exactly
if its splat does not put a second slash behind the first. -/
theorem redirect_stays_on_host_iff {deps : Deps} {config : EdgeConfig}
    (hvalid : validateEdgeConfig deps config = .ok ())
    (htargets : ∀ rule ∈ config.redirects, ¬ "//".toList <+: rule.to_ ∧ ¬ "/\\".toList <+: rule.to_)
    (path : Str) (query : Option Str) :
    (∀ redirect, findRedirect config path query = some redirect → OnHost redirect.location) ↔
      ∀ rule splat, Selects RedirectRule.from_ config.redirects path rule splat →
        ¬ LeavesHost rule.to_ (splat.getD []) := by
  have hiff (rule : RedirectRule) (splat : Option Str)
      (h : Selects RedirectRule.from_ config.redirects path rule splat) :
      OnHost (locationWith query (applySplat rule.to_ splat)) ↔ ¬ LeavesHost rule.to_ (splat.getD []) := by
    obtain ⟨rest, hrest⟩ := redirect_target_absolute hvalid h.mem
    have hslashed : ¬ Slashed rest := by
      obtain ⟨hslash, hbackslash⟩ := htargets rule h.mem
      rw [hrest] at hslash hbackslash
      cases rest with
      | nil => decide
      | cons c rest =>
        rintro (hc | hc)
        · obtain rfl := Option.some.inj hc
          exact hslash ⟨rest, rfl⟩
        · obtain rfl := Option.some.inj hc
          exact hbackslash ⟨rest, rfl⟩
    rw [hrest, applySplat_slash, onHost_locationWith, slashed_iff_leavesHost hslashed]
  constructor
  · intro hall rule splat h
    exact (hiff rule splat h).mp (hall _ (findRedirect_of_selects h query))
  · intro hall redirect hredirect
    obtain ⟨rule, splat, h⟩ := selects_of_findRedirect hredirect
    obtain rfl := Option.some.inj (hredirect.symm.trans (findRedirect_of_selects h query))
    exact (hiff rule splat h).mpr (hall rule splat h)

/-- A config with one redirect. -/
def redirectConfig (from_ to_ : String) : EdgeConfig :=
  { defaultEdgeConfig with redirects := [⟨from_.toList, to_.toList, 301⟩] }

theorem redirect_leaves_host :
    validateEdgeConfig smallDeps (redirectConfig "/old/*" "/:splat") = .ok () ∧
      (∀ rule ∈ (redirectConfig "/old/*" "/:splat").redirects,
        ¬ "//".toList <+: rule.to_ ∧ ¬ "/\\".toList <+: rule.to_) ∧
      findRedirect (redirectConfig "/old/*" "/:splat") "/old//evil.com".toList none =
        some ⟨301, "//evil.com".toList⟩ ∧ ¬ OnHost "//evil.com".toList := by
  refine ⟨by decide, by decide, by decide, ?_⟩
  rintro ⟨rest, hrest, hslashed⟩
  exact hslashed (by rw [← (List.cons.inj hrest).2]; decide)

theorem redirect_stays_on_host_docs :
    findRedirect (redirectConfig "/old/*" "/new/:splat") "/old/a".toList none =
      some ⟨301, "/new/a".toList⟩ ∧
    ∀ rule splat, Selects RedirectRule.from_ (redirectConfig "/old/*" "/new/:splat").redirects
      "/old/a".toList rule splat → ¬ LeavesHost rule.to_ (splat.getD []) := by
  have hlocation : findRedirect (redirectConfig "/old/*" "/new/:splat") "/old/a".toList none =
      some ⟨301, "/new/a".toList⟩ := by decide
  refine ⟨hlocation, (@redirect_stays_on_host_iff smallDeps _ (by decide) (by decide) "/old/a".toList
    none).mp ?_⟩
  intro redirect hredirect
  obtain rfl := Option.some.inj (hredirect.symm.trans hlocation)
  exact ⟨"new/a".toList, rfl, by decide⟩

/-! ## The query -/

/-- A reference taken apart as in RFC 3986: the fragment begins at the first `#`, the query at the
first `?` before it. -/
structure UriParts where
  hierarchical : Str
  query : Option Str
  fragment : Option Str
  deriving DecidableEq

/-- The text before the first separator, and the text after it, if there is one. -/
def cutAt (sep : Char) : Str → Str × Option Str
  | [] => ([], none)
  | c :: s => if c = sep then ([], some s) else (c :: (cutAt sep s).1, (cutAt sep s).2)

def uriParts (reference : Str) : UriParts where
  hierarchical := (cutAt '?' (cutAt '#' reference).1).1
  query := (cutAt '?' (cutAt '#' reference).1).2
  fragment := (cutAt '#' reference).2

/-- The location has the query of the request if the target has none, and is the target
otherwise. -/
def PreservesQuery (target query location : Str) : Prop :=
  ((uriParts target).query = none →
    uriParts location = { uriParts target with query := some query }) ∧
  ((uriParts target).query ≠ none → location = target)

theorem cutAt_of_not_mem {sep : Char} {s : Str} (h : sep ∉ s) : cutAt sep s = (s, none) := by
  induction s with
  | nil => rfl
  | cons c s ih =>
    have hne : c ≠ sep := fun he => h (he ▸ List.mem_cons_self)
    rw [cutAt, if_neg hne, ih fun hs => h (List.mem_cons_of_mem c hs)]

theorem cutAt_append {sep : Char} {s : Str} (h : sep ∉ s) (t : Str) :
    cutAt sep (s ++ sep :: t) = (s, some t) := by
  induction s with
  | nil => rw [List.nil_append, cutAt, if_pos rfl]
  | cons c s ih =>
    have hne : c ≠ sep := fun he => h (he ▸ List.mem_cons_self)
    rw [List.cons_append, cutAt, if_neg hne, ih fun hs => h (List.mem_cons_of_mem c hs)]

theorem uriParts_of_hash {s : Str} (h : '#' ∉ s) (fragment : Str) :
    uriParts (s ++ '#' :: fragment) = ⟨(cutAt '?' s).1, (cutAt '?' s).2, some fragment⟩ := by
  simp [uriParts, cutAt_append h]

theorem uriParts_of_no_hash {s : Str} (h : '#' ∉ s) :
    uriParts s = ⟨(cutAt '?' s).1, (cutAt '?' s).2, none⟩ := by
  simp [uriParts, cutAt_of_not_mem h]

theorem cutAt_none_iff {sep : Char} {s : Str} : (cutAt sep s).2 = none ↔ sep ∉ s := by
  constructor
  · intro hnone hmem
    obtain ⟨a, b, rfl, ha⟩ := List.eq_append_cons_of_mem hmem
    rw [cutAt_append ha] at hnone
    cases hnone
  · intro h
    rw [cutAt_of_not_mem h]

theorem locationWith_eq {target query : Str} (hquery : query ≠ []) :
    locationWith (some query) target =
      if '?' ∈ target then target else target ++ '?' :: query := by
  unfold locationWith
  by_cases hmem : '?' ∈ target
  · rw [if_pos hmem, if_pos (List.contains_iff_mem.mpr hmem)]
  · have hsome : (some query).filter (fun value => value ≠ []) = some query := by
      simp [Option.filter, hquery]
    rw [if_neg hmem, if_neg fun h => hmem (List.contains_iff_mem.mp h), hsome]

/-- Behind a `#` nothing is a query. -/
theorem query_locationWith_of_hash {target query : Str} (hquery : query ≠ []) (hhash : '#' ∈ target) :
    (uriParts (locationWith (some query) target)).query = (uriParts target).query := by
  obtain ⟨a, fragment, rfl, ha⟩ := List.eq_append_cons_of_mem hhash
  rw [locationWith_eq hquery]
  split
  · rfl
  · rw [List.append_assoc, List.cons_append, uriParts_of_hash ha, uriParts_of_hash ha]

theorem preservesQuery_iff {target query : Str} (hquery : query ≠ []) :
    PreservesQuery target query (locationWith (some query) target) ↔
      (uriParts target).query ≠ none ∨ ('#' ∉ target ∧ '#' ∉ query) := by
  by_cases hnone : (uriParts target).query = none
  · have htarget : PreservesQuery target query (locationWith (some query) target) ↔
        uriParts (locationWith (some query) target) = { uriParts target with query := some query } :=
      ⟨fun h => h.1 hnone, fun h => ⟨fun _ => h, fun hsome => absurd hnone hsome⟩⟩
    rw [htarget]
    simp only [hnone, ne_eq, not_true_eq_false, false_or]
    by_cases hhash : '#' ∈ target
    · -- the query, if it is appended at all, is in the fragment
      have hlost := query_locationWith_of_hash hquery hhash
      rw [hnone] at hlost
      constructor
      · intro h
        rw [h] at hlost
        cases hlost
      · exact fun h => absurd hhash h.1
    · rw [uriParts_of_no_hash hhash] at hnone
      have hno : '?' ∉ target := cutAt_none_iff.mp hnone
      rw [locationWith_eq hquery, if_neg hno, uriParts_of_no_hash hhash, cutAt_of_not_mem hno]
      by_cases hq : '#' ∈ query
      · obtain ⟨a, fragment, rfl, ha⟩ := List.eq_append_cons_of_mem hq
        have hfront : '#' ∉ target ++ '?' :: a := by simp [hhash, ha]
        have hsplit : target ++ '?' :: (a ++ '#' :: fragment) = (target ++ '?' :: a) ++ '#' :: fragment := by
          simp
        rw [hsplit, uriParts_of_hash hfront]
        simp
      · have hfront : '#' ∉ target ++ '?' :: query := by simp [hhash, hq]
        rw [uriParts_of_no_hash hfront, cutAt_append hno]
        simp [hhash, hq]
  · have hmem : '?' ∈ target := by
      by_contra hno
      have hpart : '?' ∉ (cutAt '#' target).1 := by
        by_cases hhash : '#' ∈ target
        · obtain ⟨a, fragment, rfl, ha⟩ := List.eq_append_cons_of_mem hhash
          rw [cutAt_append ha]
          exact fun h => hno (List.mem_append_left _ h)
        · rw [cutAt_of_not_mem hhash]
          exact hno
      exact hnone (cutAt_none_iff.mpr hpart)
    rw [locationWith_eq hquery, if_pos hmem]
    exact iff_of_true ⟨fun h => absurd h hnone, fun _ => rfl⟩ (Or.inl hnone)

theorem hash_mem_applySplat (splat : Option Str) (target : Str) : '#' ∈ applySplat target splat ↔
    '#' ∈ target ∨ ":splat".toList <:+: target ∧ '#' ∈ splat.getD [] := by
  induction hlen : target.length using Nat.strongRecOn generalizing target with
  | ind n ih =>
    by_cases hpre : ":splat".toList <+: target
    · obtain ⟨rest, rfl⟩ := hpre
      have hlt : rest.length < n := by
        rw [← hlen, List.length_append]
        simp
      have hinfix : ":splat".toList <:+: ":splat".toList ++ rest := (List.prefix_append _ _).isInfix
      have hplain : '#' ∉ ":splat".toList := by decide
      rw [applySplat_splat, List.mem_append, ih rest.length hlt rest rfl, List.mem_append]
      tauto
    · cases target with
      | nil => exact iff_of_false List.not_mem_nil (by simp)
      | cons c target =>
        have hlt : target.length < n := by
          rw [← hlen, List.length_cons]
          exact Nat.lt_succ_self _
        rw [applySplat_cons hpre, List.mem_cons, ih target.length hlt target rfl, List.mem_cons,
          List.infix_cons_iff]
        tauto

/-- A redirect preserves the query exactly if its target has a query component already, or no `#`
comes into the location: from the rule, from the splat or from the query. -/
theorem query_preserved_iff {config : EdgeConfig} {path query : Str} (hquery : query ≠ [])
    {rule : RedirectRule} {splat : Option Str}
    (hrule : Selects RedirectRule.from_ config.redirects path rule splat) :
    (∃ redirect, findRedirect config path (some query) = some redirect ∧
        PreservesQuery (applySplat rule.to_ splat) query redirect.location) ↔
      (uriParts (applySplat rule.to_ splat)).query ≠ none ∨
        ('#' ∉ rule.to_ ∧ (":splat".toList <:+: rule.to_ → '#' ∉ splat.getD []) ∧ '#' ∉ query) := by
  have hhash : '#' ∉ applySplat rule.to_ splat ↔
      '#' ∉ rule.to_ ∧ (":splat".toList <:+: rule.to_ → '#' ∉ splat.getD []) := by
    rw [hash_mem_applySplat]
    tauto
  rw [← and_assoc, ← hhash, ← preservesQuery_iff hquery, findRedirect_of_selects hrule]
  simp

theorem query_lost_in_fragment :
    validateEdgeConfig smallDeps (redirectConfig "/docs" "/guide#start") = .ok () ∧
      findRedirect (redirectConfig "/docs" "/guide#start") "/docs".toList (some "v=1".toList) =
        some ⟨301, "/guide#start?v=1".toList⟩ ∧
      (uriParts "/guide#start".toList).query = none ∧
      (uriParts "/guide#start?v=1".toList).query ≠ some "v=1".toList := by
  decide

theorem query_preserved_docs :
    ∃ redirect, findRedirect (redirectConfig "/docs" "/docs/") "/docs".toList (some "v=1".toList) =
        some redirect ∧ PreservesQuery "/docs/".toList "v=1".toList redirect.location :=
  (@query_preserved_iff (redirectConfig "/docs" "/docs/") "/docs".toList "v=1".toList (by decide)
    ⟨"/docs".toList, "/docs/".toList, 301⟩ none (selects_iff.mpr ⟨_, rfl, rfl⟩)).mpr
      (Or.inr ⟨by decide, by decide, by decide⟩)

end RenderMesh.Bugs.RedirectTargets
