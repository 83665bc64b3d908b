import RenderMesh.Dto
import RenderMesh.Core.Labels

/-!
# Static rules

Redirects, rewrites, the root object and the auto-index candidate of an edge
configuration (`src/src/services/static_rules.rs`). All of it is on text: no rule
looks at the mirror.

`resolveRewrite_of_no_rules` and `resolveRootObject_of_no_slash` say when a path
is left as it is.
-/
namespace RenderMesh.Gateway

open RenderMesh.Core

structure RedirectDecision where
  status : Nat
  location : Str
  deriving DecidableEq, Repr

inductive MatchKind where
  | wildcard
  | exact
  deriving DecidableEq, Repr

/-- mirrors src/src/services/static_rules.rs:61-66 -/
structure PatternMatch where
  kind : MatchKind
  specificity : Nat
  splat : Option Str
  deriving DecidableEq, Repr

/-- `Ord` of `(MatchKind, usize)`, which `rank` returns. -/
def PatternMatch.rankLe (left right : PatternMatch) : Bool :=
  match left.kind, right.kind with
  | .wildcard, .exact => true
  | .exact, .wildcard => false
  | _, _ => left.specificity ≤ right.specificity

/-- mirrors src/src/services/static_rules.rs:80-95 -/
def matchPattern (pattern path : Str) : Option PatternMatch :=
  if pattern = path then some ⟨.exact, byteLen pattern, none⟩
  else
    match stripSuffix? ['*'] pattern with
    | none => none
    | some start => (stripPrefix? start path).map fun splat =>
        ⟨.wildcard, byteLen start, some splat⟩

/-- `str::replace` of a pattern that is not empty; `skip` characters of a match
are still to be dropped. -/
def replaceFrom (pattern with_ : Str) : Nat → Str → Str
  | _, [] => []
  | skip + 1, _ :: s => replaceFrom pattern with_ skip s
  | 0, c :: s =>
    if pattern <+: c :: s then with_ ++ replaceFrom pattern with_ (pattern.length - 1) s
    else c :: replaceFrom pattern with_ 0 s

/-- mirrors src/src/services/static_rules.rs:57-59 -/
def applySplat (target : Str) (splat : Option Str) : Str :=
  replaceFrom ":splat".toList (splat.getD []) 0 target

/-- `Iterator::max_by_key`: the last of the greatest. -/
def lastMax {α : Type} (le : α → α → Bool) : List α → Option α
  | [] => none
  | x :: xs => some (xs.foldl (fun best y => if le best y then y else best) x)

/-- The rule that matches best, of those that match. -/
def bestMatch {α : Type} (pattern : α → Str) (rules : List α) (path : Str) :
    Option (α × PatternMatch) :=
  lastMax (fun a b => a.2.rankLe b.2)
    (rules.filterMap fun rule => (matchPattern (pattern rule) path).map fun matched => (rule, matched))

/-- mirrors src/src/services/static_rules.rs:9-32 -/
def findRedirect (config : EdgeConfig) (path : Str) (query : Option Str) :
    Option RedirectDecision :=
  (bestMatch RedirectRule.from_ config.redirects path).map fun best =>
    let location := applySplat best.1.to_ best.2.splat
    let location :=
      if location.contains '?' then location
      else
        match query.filter (· ≠ []) with
        | some query => location ++ '?' :: query
        | none => location
    ⟨best.1.status, location⟩

/-- mirrors src/src/services/static_rules.rs:34-42 -/
def resolveRewrite (config : EdgeConfig) (path : Str) : Str :=
  match bestMatch RewriteRule.from_ config.rewrites path with
  | some best => applySplat best.1.to_ best.2.splat
  | none => path

/-- mirrors src/src/services/static_rules.rs:44-51 -/
def resolveRootObject (config : EdgeConfig) (path : Str) : Str :=
  if path.getLast? ≠ some '/' then path
  else trimEndSlashes path ++ config.edge.rootObject

/-- mirrors src/src/services/static_rules.rs:53-55 -/
def autoIndexCandidate (path : Str) : Str := trimEndSlashes path ++ "/index.html".toList

theorem lastMax_mem {α : Type} {le : α → α → Bool} {l : List α} {x : α} (h : lastMax le l = some x) :
    x ∈ l := by
  cases l with
  | nil => cases h
  | cons y ys =>
    have hfold : ∀ (zs : List α) (b : α),
        zs.foldl (fun best y => if le best y then y else best) b = b ∨
          zs.foldl (fun best y => if le best y then y else best) b ∈ zs := by
      intro zs
      induction zs with
      | nil => exact fun b => Or.inl rfl
      | cons z zs ih =>
        intro b
        rw [List.foldl_cons]
        split
        · rcases ih z with hz | hz
          · rw [hz]; exact Or.inr List.mem_cons_self
          · exact Or.inr (List.mem_cons_of_mem _ hz)
        · exact (ih b).imp_right (List.mem_cons_of_mem _)
    rcases hfold ys y with hy | hy
    · rw [lastMax, hy] at h
      cases h
      exact List.mem_cons_self
    · cases h
      exact List.mem_cons_of_mem _ hy

/-- The best match is a rule of the list, and it does match. -/
theorem bestMatch_mem {α : Type} {pattern : α → Str} {rules : List α} {path : Str} {rule : α}
    {matched : PatternMatch} (h : bestMatch pattern rules path = some (rule, matched)) :
    rule ∈ rules ∧ matchPattern (pattern rule) path = some matched := by
  obtain ⟨r, hr, hm⟩ := List.mem_filterMap.mp (lastMax_mem h)
  obtain ⟨m, hm, he⟩ := Option.map_eq_some_iff.mp hm
  cases he
  exact ⟨hr, hm⟩

theorem findRedirect_status {config : EdgeConfig} {path : Str} {query : Option Str}
    {redirect : RedirectDecision} (h : findRedirect config path query = some redirect) :
    ∃ rule ∈ config.redirects, redirect.status = rule.status := by
  obtain ⟨⟨rule, matched⟩, hb, rfl⟩ := Option.map_eq_some_iff.mp h
  exact ⟨rule, (bestMatch_mem hb).1, rfl⟩

theorem resolveRewrite_of_no_rules {config : EdgeConfig} (h : config.rewrites = []) (path : Str) :
    resolveRewrite config path = path := by
  rw [resolveRewrite, h]
  rfl

theorem findRedirect_of_no_rules {config : EdgeConfig} (h : config.redirects = []) (path : Str)
    (query : Option Str) : findRedirect config path query = none := by
  rw [findRedirect, h]
  rfl

theorem resolveRootObject_of_no_slash {config : EdgeConfig} {path : Str}
    (h : path.getLast? ≠ some '/') : resolveRootObject config path = path := if_pos h

end RenderMesh.Gateway
