import RenderMesh.Gateway.StaticRules

/-!
# Which rule is selected

Redirects and rewrites are selected by the greatest rank among the rules that match.
`Selects` says which rule that is, on the texts: the one whose pattern is the path, else the
one with the longest wildcard that leads to it, and the last of those with one pattern.

* `lastMax_spec`: the selection by rank, over any order.
* `matchPattern_tie`: two matches of equal rank have the same pattern.
* `replaceFrom_replaces`: what `str::replace` does to a target.
* `rule_selection`: what `find_redirect` and `resolve_rewrite` return.
-/
namespace RenderMesh.Gateway

open RenderMesh.Core

/-! ## The last of the greatest -/

section
variable {α : Type} {le : α → α → Bool}

theorem foldl_max_spec (htrans : ∀ a b c, le a b = true → le b c = true → le a c = true)
    (htotal : ∀ a b, le a b = true ∨ le b a = true) (l : List α) (b : α) :
    ∃ x before after, l.foldl (fun best y => if le best y then y else best) b = x ∧
      b :: l = before ++ x :: after ∧ (∀ y ∈ before, le y x = true) ∧ ∀ y ∈ after, le x y = false := by
  induction l using List.reverseRecOn with
  | nil => exact ⟨b, [], [], rfl, rfl, by simp, by simp⟩
  | append_singleton l y ih =>
    obtain ⟨x, before, after, hx, he, hbefore, hafter⟩ := ih
    rw [List.foldl_append, List.foldl_cons, List.foldl_nil, hx]
    have hcons : b :: (l ++ [y]) = (before ++ x :: after) ++ [y] := by rw [← he, List.cons_append]
    by_cases hxy : le x y = true
    · rw [if_pos hxy]
      refine ⟨y, before ++ x :: after, [], rfl, hcons, fun z hz => ?_, by simp⟩
      rcases List.mem_append.mp hz with hz | hz
      · exact htrans _ _ _ (hbefore z hz) hxy
      · rcases List.mem_cons.mp hz with rfl | hz
        · exact hxy
        · refine htrans _ _ _ ((htotal z x).resolve_right ?_) hxy
          rw [hafter z hz]
          simp
    · rw [if_neg hxy]
      refine ⟨x, before, after ++ [y], rfl, by rw [hcons, List.append_assoc]; rfl, hbefore, ?_⟩
      intro z hz
      rcases List.mem_append.mp hz with hz | hz
      · exact hafter z hz
      · rw [List.mem_singleton.mp hz]
        simpa using hxy

/-- The last of the greatest: nothing before it is above it, and all after it is below. -/
theorem lastMax_spec (htrans : ∀ a b c, le a b = true → le b c = true → le a c = true)
    (htotal : ∀ a b, le a b = true ∨ le b a = true) {l : List α} {x : α} (h : lastMax le l = some x) :
    ∃ before after, l = before ++ x :: after ∧ (∀ y ∈ before, le y x = true) ∧
      ∀ y ∈ after, le x y = false := by
  cases l with
  | nil => cases h
  | cons y ys =>
    obtain ⟨z, before, after, hz, hrest⟩ := foldl_max_spec htrans htotal ys y
    obtain rfl : z = x := hz.symm.trans (Option.some.inj h)
    exact ⟨before, after, hrest⟩

theorem lastMax_eq_none {l : List α} : lastMax le l = none ↔ l = [] := by
  cases l <;> simp [lastMax]

end

/-! ## Matches -/

theorem byteLen_lt_of_prefix {s t : Str} (h : s <+: t) (hne : s ≠ t) : byteLen s < byteLen t := by
  obtain ⟨r, rfl⟩ := h
  have hr : r ≠ [] := by
    rintro rfl
    exact hne (List.append_nil s).symm
  have := byteLen_pos hr
  rw [byteLen_append]
  omega

/-- Of two prefixes of one text the shorter is a prefix of the longer. -/
theorem prefix_of_byteLen_le {s t n : Str} (hs : s <+: n) (ht : t <+: n)
    (hlen : byteLen s ≤ byteLen t) : s <+: t := by
  rcases List.prefix_or_prefix_of_prefix hs ht with h | h
  · exact h
  · by_cases he : t = s
    · rw [he]
    · have := byteLen_lt_of_prefix h he
      omega

theorem matchPattern_eq_some {pattern path : Str} {m : PatternMatch} :
    matchPattern pattern path = some m ↔
      (pattern = path ∧ m = ⟨.exact, byteLen pattern, none⟩) ∨
      (pattern ≠ path ∧ ∃ start splat, pattern = start ++ ['*'] ∧ start ++ splat = path ∧
        m = ⟨.wildcard, byteLen start, some splat⟩) := by
  unfold matchPattern
  by_cases he : pattern = path
  · simp [he, eq_comm]
  · simp only [he, if_false, false_and, false_or, ne_eq, not_false_eq_true, true_and]
    by_cases hs : ['*'] <:+ pattern
    · obtain ⟨start, rfl⟩ := hs
      have hstrip : stripSuffix? ['*'] (start ++ ['*']) = some start := by simp [stripSuffix?]
      rw [hstrip]
      constructor
      · intro h
        obtain ⟨splat, hsplat, rfl⟩ := Option.map_eq_some_iff.mp h
        unfold stripPrefix? at hsplat
        split at hsplat
        · rename_i hpre
          obtain ⟨rest, rfl⟩ := hpre
          cases hsplat
          exact ⟨start, rest, rfl, rfl, by simp⟩
        · cases hsplat
      · rintro ⟨start', splat, hstart, rfl, rfl⟩
        obtain rfl := List.append_cancel_right hstart
        simp [stripPrefix?]
    · have hstrip : stripSuffix? ['*'] pattern = none := if_neg hs
      rw [hstrip]
      constructor
      · intro h
        cases h
      · rintro ⟨start, splat, rfl, -⟩
        exact absurd (List.suffix_append start ['*']) hs

theorem matchPattern_eq_none {pattern path : Str} : matchPattern pattern path = none ↔
    pattern ≠ path ∧ ∀ start, pattern = start ++ ['*'] → ¬ start <+: path := by
  constructor
  · intro h
    have hno : ∀ m, matchPattern pattern path ≠ some m := by simp [h]
    refine ⟨fun he => hno _ (matchPattern_eq_some.mpr (Or.inl ⟨he, rfl⟩)), ?_⟩
    rintro start hpattern ⟨splat, hsplat⟩
    by_cases he : pattern = path
    · exact hno _ (matchPattern_eq_some.mpr (Or.inl ⟨he, rfl⟩))
    · exact hno _ (matchPattern_eq_some.mpr (Or.inr ⟨he, start, splat, hpattern, hsplat, rfl⟩))
  · rintro ⟨hne, hno⟩
    by_contra h
    obtain ⟨m, hm⟩ := Option.ne_none_iff_exists'.mp h
    rcases matchPattern_eq_some.mp hm with ⟨he, -⟩ | ⟨-, start, splat, hpattern, hsplat, -⟩
    · exact hne he
    · exact hno start hpattern ⟨splat, hsplat⟩

theorem rankLe_iff {a b : PatternMatch} : a.rankLe b = true ↔
    (a.kind = .wildcard ∧ b.kind = .exact) ∨ (a.kind = b.kind ∧ a.specificity ≤ b.specificity) := by
  obtain ⟨ka, na, -⟩ := a
  obtain ⟨kb, nb, -⟩ := b
  cases ka <;> cases kb <;> simp [PatternMatch.rankLe]

theorem rankLe_trans (a b c : PatternMatch) (hab : a.rankLe b = true) (hbc : b.rankLe c = true) :
    a.rankLe c = true := by
  rw [rankLe_iff] at *
  rcases hab with ⟨ha, hb⟩ | ⟨hkind, hle⟩
  · rcases hbc with ⟨hb', -⟩ | ⟨hkind', -⟩
    · rw [hb] at hb'
      cases hb'
    · exact Or.inl ⟨ha, hkind'.symm.trans hb⟩
  · rcases hbc with ⟨hb, hc⟩ | ⟨hkind', hle'⟩
    · exact Or.inl ⟨hkind.trans hb, hc⟩
    · exact Or.inr ⟨hkind.trans hkind', Nat.le_trans hle hle'⟩

theorem rankLe_total (a b : PatternMatch) : a.rankLe b = true ∨ b.rankLe a = true := by
  rw [rankLe_iff, rankLe_iff]
  cases ha : a.kind <;> cases hb : b.kind <;> simp <;> omega

/-- Two matches of equal rank have the same pattern. -/
theorem matchPattern_tie {p p' path : Str} {m m' : PatternMatch}
    (h : matchPattern p path = some m) (h' : matchPattern p' path = some m')
    (hle : m.rankLe m' = true) (hge : m'.rankLe m = true) : p = p' := by
  rcases matchPattern_eq_some.mp h with ⟨rfl, rfl⟩ | ⟨-, start, splat, rfl, hs, rfl⟩ <;>
    rcases matchPattern_eq_some.mp h' with ⟨rfl, rfl⟩ | ⟨-, start', splat', rfl, hs', rfl⟩
  · rfl
  · cases hle
  · cases hge
  · have hpre : start <+: path := ⟨splat, hs⟩
    have hpre' : start' <+: path := ⟨splat', hs'⟩
    simp only [PatternMatch.rankLe, decide_eq_true_eq] at hle hge
    have h1 := prefix_of_byteLen_le hpre hpre' hle
    have h2 := prefix_of_byteLen_le hpre' hpre hge
    rw [h1.eq_of_length (Nat.le_antisymm h1.length_le h2.length_le)]

/-! ## The selected rule -/

section
variable {α : Type} (pattern : α → Str) (rules : List α) (path : Str)

/-- How `rule` leads to `path`: it is the path, or no rule is and its wildcard is the longest
that leads there. -/
inductive Leads (rule : α) : Option Str → Prop
  | exact (h : pattern rule = path) : Leads rule none
  | wildcard {start splat : Str} (hno : ∀ r ∈ rules, pattern r ≠ path)
      (hpattern : pattern rule = start ++ ['*']) (hsplat : start ++ splat = path)
      (hlongest : ∀ r ∈ rules, ∀ start', pattern r = start' ++ ['*'] → start' <+: path →
        start' <+: start) : Leads rule (some splat)

/-- The rule that is selected, and its splat: it leads to the path, and no rule after it
has its pattern. -/
def Selects (rule : α) (splat : Option Str) : Prop :=
  (∃ before after, rules = before ++ rule :: after ∧ ∀ r ∈ after, pattern r ≠ pattern rule) ∧
    Leads pattern rules path rule splat

/-- No rule is the path, and no wildcard leads to it. -/
def NoneMatches : Prop :=
  ∀ r ∈ rules, pattern r ≠ path ∧ ∀ start, pattern r = start ++ ['*'] → ¬ start <+: path

variable {pattern rules path}

theorem Selects.mem {rule : α} {splat : Option Str} (h : Selects pattern rules path rule splat) :
    rule ∈ rules := by
  obtain ⟨⟨before, after, rfl, -⟩, -⟩ := h
  simp

theorem bestMatch_eq_none : bestMatch pattern rules path = none ↔ NoneMatches pattern rules path := by
  rw [bestMatch, lastMax_eq_none, List.filterMap_eq_nil_iff]
  simp only [Option.map_eq_none_iff, matchPattern_eq_none]
  rfl

theorem bestMatch_selects {rule : α} {m : PatternMatch}
    (h : bestMatch pattern rules path = some (rule, m)) :
    Selects pattern rules path rule m.splat := by
  obtain ⟨hmem, hm⟩ := bestMatch_mem h
  obtain ⟨before, after, he, hbefore, hafter⟩ := lastMax_spec
    (fun a b c => rankLe_trans a.2 b.2 c.2) (fun a b => rankLe_total a.2 b.2) h
  -- the rank of every rule that matches is at most that of the selected one
  have hmax : ∀ r ∈ rules, ∀ m', matchPattern (pattern r) path = some m' → m'.rankLe m = true := by
    intro r hr m' hm'
    have hin : (r, m') ∈ rules.filterMap fun rule =>
        (matchPattern (pattern rule) path).map fun matched => (rule, matched) :=
      List.mem_filterMap.mpr ⟨r, hr, by rw [hm']; rfl⟩
    rw [he] at hin
    rcases List.mem_append.mp hin with hin | hin
    · exact hbefore _ hin
    · rcases List.mem_cons.mp hin with hin | hin
      · cases hin
        exact rankLe_iff.mpr (Or.inr ⟨rfl, Nat.le_refl _⟩)
      · have := hafter _ hin
        exact (rankLe_total m' m).resolve_right (by rw [this]; simp)
  refine ⟨?_, ?_⟩
  · obtain ⟨l1, l2, rfl, h1, h2⟩ := List.filterMap_eq_append_iff.mp he
    obtain ⟨l3, x, l4, rfl, h3, hx, h4⟩ := List.filterMap_eq_cons_iff.mp h2
    obtain ⟨m', hm', hpair⟩ := Option.map_eq_some_iff.mp hx
    cases hpair
    refine ⟨l1 ++ l3, l4, by simp, fun r hr hsame => ?_⟩
    -- a later rule with the same pattern would have the same rank
    have hlater : (r, m) ∈ after := by
      rw [← h4]
      exact List.mem_filterMap.mpr ⟨r, hr, by rw [hsame, hm]; rfl⟩
    have hrefl : m.rankLe m = true := rankLe_iff.mpr (Or.inr ⟨rfl, Nat.le_refl _⟩)
    rw [hafter _ hlater] at hrefl
    cases hrefl
  · rcases matchPattern_eq_some.mp hm with ⟨hexact, rfl⟩ | ⟨hne, start, splat, hstart, hsplat, rfl⟩
    · exact .exact hexact
    · refine .wildcard (fun r hr hexact => ?_) hstart hsplat fun r hr start' hstart' hpre' => ?_
      · have := hmax r hr _ (matchPattern_eq_some.mpr (Or.inl ⟨hexact, rfl⟩))
        cases this
      · obtain ⟨splat', hsplat'⟩ := hpre'
        by_cases hexact : pattern r = path
        · have := hmax r hr _ (matchPattern_eq_some.mpr (Or.inl ⟨hexact, rfl⟩))
          cases this
        · have := hmax r hr _ (matchPattern_eq_some.mpr
            (Or.inr ⟨hexact, start', splat', hstart', hsplat', rfl⟩))
          simp only [PatternMatch.rankLe, decide_eq_true_eq] at this
          exact prefix_of_byteLen_le ⟨splat', hsplat'⟩ ⟨splat, hsplat⟩ this

/-- Two selections among the same rules are for one pattern and one splat. -/
theorem Leads.unique {rule rule' : α} {splat splat' : Option Str} (hmem : rule ∈ rules)
    (hmem' : rule' ∈ rules) (h : Leads pattern rules path rule splat)
    (h' : Leads pattern rules path rule' splat') : pattern rule = pattern rule' ∧ splat = splat' := by
  cases h with
  | exact h =>
    cases h' with
    | exact h' => exact ⟨h.trans h'.symm, rfl⟩
    | wildcard hno _ _ _ => exact absurd h (hno rule hmem)
  | wildcard hno hpattern hsplat hlongest =>
    cases h' with
    | exact h' => exact absurd h' (hno rule' hmem')
    | wildcard hno' hpattern' hsplat' hlongest' =>
      have h1 := hlongest rule' hmem' _ hpattern' ⟨_, hsplat'⟩
      have h2 := hlongest' rule hmem _ hpattern ⟨_, hsplat⟩
      have he := h1.eq_of_length (Nat.le_antisymm h1.length_le h2.length_le)
      subst he
      rw [hpattern, hpattern', List.append_cancel_left (hsplat.trans hsplat'.symm)]
      exact ⟨rfl, rfl⟩

theorem Selects.unique {rule rule' : α} {splat splat' : Option Str}
    (h : Selects pattern rules path rule splat) (h' : Selects pattern rules path rule' splat') :
    rule = rule' ∧ splat = splat' := by
  obtain ⟨hpattern, hsplat⟩ := h.2.unique h.mem h'.mem h'.2
  obtain ⟨⟨before, after, hrules, hafter⟩, -⟩ := h
  obtain ⟨⟨before', after', hrules', hafter'⟩, -⟩ := h'
  refine ⟨?_, hsplat⟩
  -- neither stands behind the other
  obtain ⟨between, hbefore, hrest⟩ | ⟨between, hbefore, hrest⟩ :=
    List.append_eq_append_iff.mp (hrules.symm.trans hrules')
  · cases between with
    | nil => exact (List.cons.inj hrest).1
    | cons r between =>
      obtain ⟨-, hrest⟩ := List.cons.inj hrest
      exact absurd hpattern.symm (hafter rule' (by simp [hrest]))
  · cases between with
    | nil => exact (List.cons.inj hrest).1.symm
    | cons r between =>
      obtain ⟨-, hrest⟩ := List.cons.inj hrest
      exact absurd hpattern (hafter' rule (by simp [hrest]))

theorem selects_iff {rule : α} {splat : Option Str} : Selects pattern rules path rule splat ↔
    ∃ m, bestMatch pattern rules path = some (rule, m) ∧ m.splat = splat := by
  constructor
  · intro h
    cases hbest : bestMatch pattern rules path with
    | none =>
      have hnone := bestMatch_eq_none.mp hbest rule h.mem
      cases h.2 with
      | exact he => exact absurd he hnone.1
      | wildcard _ hpattern hsplat _ => exact absurd ⟨_, hsplat⟩ (hnone.2 _ hpattern)
    | some best =>
      obtain ⟨hrule, hsplat⟩ := (@bestMatch_selects _ _ _ _ best.1 best.2 hbest).unique h
      exact ⟨best.2, by rw [← hrule], hsplat⟩
  · rintro ⟨m, hbest, rfl⟩
    exact bestMatch_selects hbest

/-- The order of the rules does not matter when no two have one pattern. -/
theorem bestMatch_perm {rules' : List α} (hperm : rules'.Perm rules)
    (hnodup : (rules.map pattern).Nodup) :
    (bestMatch pattern rules' path).map (fun best => (best.1, best.2.splat)) =
      (bestMatch pattern rules path).map fun best => (best.1, best.2.splat) := by
  have hmem : ∀ r, r ∈ rules' ↔ r ∈ rules := fun r => hperm.mem_iff
  have hleads : ∀ rule splat, Leads pattern rules' path rule splat →
      Leads pattern rules path rule splat := by
    intro rule splat h
    cases h with
    | exact h => exact .exact h
    | wildcard hno hpattern hsplat hlongest =>
      exact .wildcard (fun r hr => hno r ((hmem r).mpr hr)) hpattern hsplat
        fun r hr => hlongest r ((hmem r).mpr hr)
  cases h : bestMatch pattern rules path with
  | none =>
    have hnone : bestMatch pattern rules' path = none :=
      bestMatch_eq_none.mpr fun r hr => bestMatch_eq_none.mp h r ((hmem r).mp hr)
    rw [hnone]
  | some best =>
    cases h' : bestMatch pattern rules' path with
    | none =>
      have hnone : bestMatch pattern rules path = none :=
        bestMatch_eq_none.mpr fun r hr => bestMatch_eq_none.mp h' r ((hmem r).mpr hr)
      rw [hnone] at h
      cases h
    | some best' =>
      have hs := @bestMatch_selects _ _ _ _ best.1 best.2 h
      have hs' := @bestMatch_selects _ _ _ _ best'.1 best'.2 h'
      have hin' := (hmem best'.1).mp hs'.mem
      obtain ⟨hpattern, hsplat⟩ := (hleads _ _ hs'.2).unique hin' hs.mem hs.2
      have hrule := List.inj_on_of_nodup_map hnodup hin' hs.mem hpattern
      simp only [Option.map_some, hrule, hsplat]

end

/-! ## The target -/

/-- `out` is `target` with every occurrence of `pattern` replaced. -/
def ReplacesAll (pattern with_ target out : Str) : Prop :=
  ∃ pieces : List Str, target = pattern.intercalate pieces ∧ out = with_.intercalate pieces ∧
    ∀ piece ∈ pieces, ¬ pattern <:+: piece

theorem replaceFrom_skip (pattern with_ : Str) (n : Nat) (s : Str) :
    replaceFrom pattern with_ n s = replaceFrom pattern with_ 0 (s.drop n) := by
  induction s generalizing n with
  | nil => cases n <;> simp [replaceFrom]
  | cons c s ih =>
    cases n with
    | zero => rfl
    | succ n => rw [replaceFrom, ih, List.drop_succ_cons]

theorem replaceFrom_replaces {pattern with_ : Str} (hpattern : pattern ≠ []) (s : Str) :
    ∃ piece pieces, s = pattern.intercalate (piece :: pieces) ∧
      replaceFrom pattern with_ 0 s = with_.intercalate (piece :: pieces) ∧
      ∀ p ∈ piece :: pieces, ¬ pattern <:+: p := by
  induction hlen : s.length using Nat.strongRecOn generalizing s with
  | ind n ih =>
    cases s with
    | nil => exact ⟨[], [], rfl, rfl, by simpa using hpattern⟩
    | cons c s =>
      by_cases hpre : pattern <+: c :: s
      · -- an occurrence starts here: the first piece is empty
        obtain ⟨rest, hrest⟩ := hpre
        have hpos : 0 < pattern.length := List.length_pos_iff.mpr hpattern
        have hlt : rest.length < n := by
          rw [← hlen, ← hrest, List.length_append]
          omega
        obtain ⟨piece, pieces, h1, h2, h3⟩ := ih rest.length hlt rest rfl
        have hdrop : s.drop (pattern.length - 1) = rest := by
          have := congrArg (List.drop pattern.length) hrest
          rw [List.drop_left, show pattern.length = (pattern.length - 1) + 1 from by omega,
            List.drop_succ_cons] at this
          exact this.symm
        refine ⟨[], piece :: pieces, ?_, ?_, ?_⟩
        · rw [← hrest, h1]
          simp [List.intercalate]
        · rw [replaceFrom, if_pos ⟨rest, hrest⟩, replaceFrom_skip, hdrop, h2]
          simp [List.intercalate]
        · intro p hp
          rcases List.mem_cons.mp hp with rfl | hp
          · simpa using hpattern
          · exact h3 p hp
      · obtain ⟨piece, pieces, h1, h2, h3⟩ := ih s.length (by rw [← hlen]; simp) s rfl
        have hpiece : piece <+: s := by
          rw [h1]
          cases pieces with
          | nil => simp [List.intercalate]
          | cons p ps => exact ⟨pattern ++ pattern.intercalate (p :: ps), by simp [List.intercalate]⟩
        have hcons : ∀ sep : Str, sep.intercalate ((c :: piece) :: pieces) =
            c :: sep.intercalate (piece :: pieces) := by
          intro sep
          cases pieces <;> simp [List.intercalate]
        refine ⟨c :: piece, pieces, by rw [hcons, ← h1], by rw [hcons, ← h2, replaceFrom, if_neg hpre], ?_⟩
        intro p hp
        rcases List.mem_cons.mp hp with rfl | hp
        · intro hin
          rcases List.infix_cons_iff.mp hin with hin | hin
          · exact hpre (hin.trans (List.cons_prefix_cons.mpr ⟨rfl, hpiece⟩))
          · exact h3 piece List.mem_cons_self hin
        · exact h3 p (List.mem_cons_of_mem _ hp)

theorem applySplat_replaces (target : Str) (splat : Option Str) :
    ReplacesAll ":splat".toList (splat.getD []) target (applySplat target splat) := by
  obtain ⟨piece, pieces, h⟩ := @replaceFrom_replaces ":splat".toList (splat.getD []) (by decide) target
  exact ⟨piece :: pieces, h⟩

/-! ## Redirects and rewrites -/

/-- The location of a redirect: the target with the query, unless it has one. -/
def locationWith (query : Option Str) (target : Str) : Str :=
  if target.contains '?' then target
  else
    match query.filter (· ≠ []) with
    | some query => target ++ '?' :: query
    | none => target

/-- Both selections: which rule wins, what it makes of the path, that ties are between equal
patterns, and that the order of rules with different patterns does not matter. -/
theorem rule_selection (config : EdgeConfig) (path : Str) (query : Option Str) :
    ((∃ rule splat target, Selects RedirectRule.from_ config.redirects path rule splat ∧
        ReplacesAll ":splat".toList (splat.getD []) rule.to_ target ∧
        findRedirect config path query = some ⟨rule.status, locationWith query target⟩) ∨
      NoneMatches RedirectRule.from_ config.redirects path ∧ findRedirect config path query = none) ∧
    ((∃ rule splat, Selects RewriteRule.from_ config.rewrites path rule splat ∧
        ReplacesAll ":splat".toList (splat.getD []) rule.to_ (resolveRewrite config path)) ∨
      NoneMatches RewriteRule.from_ config.rewrites path ∧ resolveRewrite config path = path) ∧
    (∀ p p' m m', matchPattern p path = some m → matchPattern p' path = some m' →
      m.rankLe m' = true → m'.rankLe m = true → p = p') ∧
    (∀ config' : EdgeConfig, config'.redirects.Perm config.redirects →
      (config.redirects.map RedirectRule.from_).Nodup →
      findRedirect config' path query = findRedirect config path query) ∧
    ∀ config' : EdgeConfig, config'.rewrites.Perm config.rewrites →
      (config.rewrites.map RewriteRule.from_).Nodup →
      resolveRewrite config' path = resolveRewrite config path := by
  refine ⟨?_, ?_, fun p p' m m' => matchPattern_tie, fun config' hperm hnodup => ?_,
    fun config' hperm hnodup => ?_⟩
  · cases h : bestMatch RedirectRule.from_ config.redirects path with
    | none => exact Or.inr ⟨bestMatch_eq_none.mp h, by rw [findRedirect, h]; rfl⟩
    | some best =>
      refine Or.inl ⟨best.1, best.2.splat, applySplat best.1.to_ best.2.splat,
        bestMatch_selects h, applySplat_replaces _ _, ?_⟩
      rw [findRedirect, h]
      rfl
  · cases h : bestMatch RewriteRule.from_ config.rewrites path with
    | none => exact Or.inr ⟨bestMatch_eq_none.mp h, by rw [resolveRewrite, h]⟩
    | some best =>
      refine Or.inl ⟨best.1, best.2.splat, bestMatch_selects h, ?_⟩
      rw [resolveRewrite, h]
      exact applySplat_replaces _ _
  · have hdecision : ∀ c : EdgeConfig, findRedirect c path query =
        ((bestMatch RedirectRule.from_ c.redirects path).map fun best => (best.1, best.2.splat)).map
          fun best => ⟨best.1.status, locationWith query (applySplat best.1.to_ best.2)⟩ := by
      intro c
      rw [findRedirect, Option.map_map]
      rfl
    rw [hdecision, hdecision, bestMatch_perm hperm hnodup]
  · have htarget : ∀ c : EdgeConfig, resolveRewrite c path =
        ((bestMatch RewriteRule.from_ c.rewrites path).map fun best => (best.1, best.2.splat)).elim
          path fun best => applySplat best.1.to_ best.2 := by
      intro c
      rw [resolveRewrite]
      cases bestMatch RewriteRule.from_ c.rewrites path <;> rfl
    rw [htarget, htarget, bestMatch_perm hperm hnodup]

end RenderMesh.Gateway
