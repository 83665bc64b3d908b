import RenderMesh.Cdn.Cloud
import RenderMesh.Core.Along
import RenderMesh.Core.Paging
import RenderMesh.Refresh.Snapshot

/-!
# The tenant listing ends

A client that gives each marker one page, with finitely many markers, is listed to its last
page or to a marker that it has given before, whichever comes first: the set of seen markers
grows with each turn.

* `listing_run`: where the loop is after so many turns, and how it ends.
* `purge_pagination`: the list calls of a purge, when it fails with the repeated marker, and
  what it has collected otherwise.
-/
namespace RenderMesh.Cdn

open RenderMesh.Core

/-- The client lists by a function of the marker, without faults. -/
structure ListsBy (env : SaasEnv) (pages : Option Str → DistributionTenantPage) : Prop where
  page : ∀ n marker, env.page n marker = .ok (pages marker)
  calls : ∀ n id marker, env.fault n (.listDistributionTenants id marker) = .none

/-- The marker that comes with a page. -/
def nextMarker (pages : Option Str → DistributionTenantPage) (key : Option Str) : Option Str :=
  (pages key).nextMarker

/-- The tenants of the first `n` pages, in their order. -/
def tenantsOf (pages : Option Str → DistributionTenantPage) (n : Nat) : List DistributionTenant :=
  (List.range n).flatMap fun i => (pages (pageKey (nextMarker pages) i)).tenants

def isList : SaasOp → Bool
  | .listDistributionTenants _ _ => true
  | _ => false

namespace CloudFrontSaasCdnRepository

variable {env : SaasEnv} {pages : Option Str → DistributionTenantPage}
  {self : CloudFrontSaasCdnRepository}

variable (self) in
def repeatedMarker : CdnPurgeError :=
  .other (anyhow ("CloudFront SaaS tenant pagination for distribution ".toList ++
    self.config.distributionId ++ " returned a repeated marker".toList))

/-- The service after a list call. -/
def listed (env : SaasEnv) (c : Cloud) : Cloud := (env.arrives c).tick

/-- The loop's variables after `i` turns that went on. -/
def pagination (pages : Option Str → DistributionTenantPage) : Nat → Pagination
  | 0 => ⟨none, ∅, []⟩
  | i + 1 =>
    let p := pagination pages i
    ⟨nextMarker pages p.marker, (nextMarker pages p.marker).elim p.seenMarkers p.seenMarkers.insert,
      p.tenants ++ (pages p.marker).tenants⟩

/-- One turn. -/
theorem listPage_run (hlist : ListsBy env pages) (p : Pagination) (c : Cloud) :
    run (saasStep env) (self.listPage p) c =
      match nextMarker pages p.marker with
      | none => (.ok (.inr (p.tenants ++ (pages p.marker).tenants)), listed env c)
      | some m =>
        if m ∈ p.seenMarkers then (.err self.repeatedMarker, listed env c)
        else (.ok (.inl ⟨some m, p.seenMarkers.insert m, p.tenants ++ (pages p.marker).tenants⟩),
          listed env c) := by
  have hstep : saasStep env (.listDistributionTenants self.config.distributionId p.marker) c =
      (some (.ok (pages p.marker)), listed env c) := by
    rw [saasStep, hlist.calls]
    simp only [SaasOp.exec, hlist.page]
    rfl
  rw [listPage, run_bind, run_clientTry, hstep, nextMarker]
  simp only
  cases (pages p.marker).nextMarker with
  | none => rfl
  | some m =>
    simp only
    split <;> rfl

/-- After `i` turns the loop is at the `i`-th page, has seen the markers before it, and has the
tenants of the pages before. -/
theorem pagination_spec {i : Nat} (hi : ∀ j < i, markers (nextMarker pages) j ≠ none) :
    (pagination pages i).marker = pageKey (nextMarker pages) i ∧
      (∀ m, m ∈ (pagination pages i).seenMarkers ↔ ∃ j < i, markers (nextMarker pages) j = some m) ∧
      (pagination pages i).tenants = tenantsOf pages i := by
  induction i with
  | zero => exact ⟨rfl, by simp [pagination], rfl⟩
  | succ i ih =>
    obtain ⟨hmarker, hseen, htenants⟩ := ih fun j hj => hi j (by omega)
    have hnext : nextMarker pages (pagination pages i).marker = markers (nextMarker pages) i := by
      rw [hmarker, markers_eq i fun j hj => hi j (by omega)]
    obtain ⟨m, hm⟩ := Option.ne_none_iff_exists'.mp (hi i (by omega))
    refine ⟨hnext, fun m' => ?_, ?_⟩
    · simp only [pagination, hnext, hm, Option.elim_some, Std.ExtTreeSet.mem_insert,
        Std.compare_eq_iff_eq, hseen]
      constructor
      · rintro (rfl | ⟨j, hj, he⟩)
        · exact ⟨i, by omega, hm⟩
        · exact ⟨j, by omega, he⟩
      · rintro ⟨j, hj, he⟩
        rcases Nat.lt_succ_iff_lt_or_eq.mp hj with hlt | rfl
        · exact Or.inr ⟨j, hlt, he⟩
        · exact Or.inl (Option.some.inj (hm.symm.trans he))
    · rw [pagination, htenants, hmarker, tenantsOf, tenantsOf, List.range_succ, List.flatMap_append]
      simp

/-- A turn at a marker that is new goes on. -/
theorem listPage_turn (hlist : ListsBy env pages) {n : Nat} (hstop : Stops (nextMarker pages) n)
    (c : Cloud) : ∀ i < n, run (saasStep env) (self.listPage (pagination pages i)) ((listed env)^[i] c) =
      (.ok (.inl (pagination pages (i + 1))), (listed env)^[i + 1] c) := by
  intro i hi
  have hbefore : ∀ j < i, markers (nextMarker pages) j ≠ none := by
    intro j hj hnone
    obtain ⟨m, hm, -⟩ := hstop.before j (by omega)
    rw [hm] at hnone
    cases hnone
  obtain ⟨hmarker, hseen, -⟩ := pagination_spec hbefore
  obtain ⟨m, hm, hne⟩ := hstop.before i hi
  have hnext : nextMarker pages (pagination pages i).marker = some m := by
    rw [hmarker, ← markers_eq i hbefore, hm]
  have hnew : m ∉ (pagination pages i).seenMarkers := by
    rw [hseen]
    intro ⟨j, hj, he⟩
    exact hne j hj he
  rw [listPage_run hlist, hnext, Function.iterate_succ_apply']
  simp only [if_neg hnew, pagination, hnext, Option.elim_some]

/-- The turn at which the listing stops. -/
theorem listPage_last (hlist : ListsBy env pages) {n : Nat} (hstop : Stops (nextMarker pages) n)
    (c : Cloud) : run (saasStep env) (self.listPage (pagination pages n)) c =
      match markers (nextMarker pages) n with
      | none => (.ok (.inr (tenantsOf pages (n + 1))), listed env c)
      | some _ => (.err self.repeatedMarker, listed env c) := by
  have hbefore : ∀ j < n, markers (nextMarker pages) j ≠ none := by
    intro j hj hnone
    obtain ⟨m, hm, -⟩ := hstop.before j hj
    rw [hm] at hnone
    cases hnone
  obtain ⟨hmarker, hseen, htenants⟩ := pagination_spec hbefore
  have hnext : nextMarker pages (pagination pages n).marker = markers (nextMarker pages) n := by
    rw [hmarker, ← markers_eq n hbefore]
  rw [listPage_run hlist, hnext]
  cases hm : markers (nextMarker pages) n with
  | none =>
    simp only [htenants, hmarker]
    rw [tenantsOf, tenantsOf, List.range_succ, List.flatMap_append]
    simp
  | some m' =>
    have hmem : m' ∈ (pagination pages n).seenMarkers := by
      rw [hseen]
      rcases hstop.last with hnone | ⟨j, hj, he⟩
      · rw [hm] at hnone
        cases hnone
      · exact ⟨j, hj, he.trans hm⟩
    simp only [if_pos hmem]

theorem listing_run (hlist : ListsBy env pages) {n : Nat} (hstop : Stops (nextMarker pages) n)
    {turns : Nat} (hturns : n < turns) (c : Cloud) :
    run (saasStep env) (Prog.iterate self.listPage turns ⟨none, ∅, []⟩) c =
      match markers (nextMarker pages) n with
      | none => (.ok (some (tenantsOf pages (n + 1))), (listed env)^[n + 1] c)
      | some _ => (.err self.repeatedMarker, (listed env)^[n + 1] c) := by
  obtain ⟨m, rfl⟩ := Nat.exists_eq_add_of_lt hturns
  rw [Nat.add_assoc]
  refine (run_iterate_turns (pagination pages) (fun i => (listed env)^[i] c)
    (listPage_turn hlist hstop c) (m + 1)).trans ?_
  rw [run_iterate_succ, listPage_last hlist hstop, Function.iterate_succ_apply']
  cases markers (nextMarker pages) n <;> rfl

/-- A turn makes one call. -/
theorem listPage_trace (p : Pagination) (c : Cloud) : trace (saasStep env) (self.listPage p) c =
    [(.listDistributionTenants self.config.distributionId p.marker, c)] := by
  rw [listPage, trace_bind, trace_clientTry, run_clientTry]
  rcases saasStep env (.listDistributionTenants self.config.distributionId p.marker) c with
    ⟨_ | e | page, c'⟩
  · rfl
  · rfl
  · simp only
    cases page.nextMarker with
    | none => rfl
    | some m =>
      simp only
      split <;> rfl

/-- The calls of the listing: one for each page it reads. -/
theorem listing_trace (hlist : ListsBy env pages) {n : Nat} (hstop : Stops (nextMarker pages) n)
    {turns : Nat} (hturns : n < turns) (c : Cloud) :
    (trace (saasStep env) (Prog.iterate self.listPage turns ⟨none, ∅, []⟩) c).countP
      (fun e => isList e.1) = n + 1 := by
  obtain ⟨m, rfl⟩ := Nat.exists_eq_add_of_lt hturns
  have hcalls := trace_iterate_turns (pagination pages) (fun i => (listed env)^[i] c)
    (@listPage_turn env pages self hlist n hstop c) (m + 1)
  rw [Nat.add_assoc]
  refine (congrArg _ hcalls).trans ?_
  rw [List.countP_append, List.countP_flatMap, trace_iterate_succ, List.countP_append,
    listPage_last hlist hstop]
  have hone : ∀ p c, (trace (saasStep env) (self.listPage p) c).countP (fun e => isList e.1) = 1 := by
    intro p c
    rw [listPage_trace]
    rfl
  simp only [Function.comp_def, hone]
  cases markers (nextMarker pages) n <;> simp

variable (self) in
/-- What a purge does with the listing. -/
def afterListing (deps : Deps) (request : CdnPurgeRequest) (paths : List Str) :
    Option (List DistributionTenant) → Saas CdnPurgeError (Option CdnPurgeResult)
  | none => pure none
  | some tenants => do
    let result ← self.invalidateTenants deps request paths tenants
    pure (some result)

theorem purge_eq {deps : Deps} {request : CdnPurgeRequest} {paths : List Str}
    (hpaths : ensurePathsMode request.mode "CloudFront SaaS".toList = .ok paths) (turns : Nat) :
    self.purge deps turns request =
      Prog.iterate self.listPage turns ⟨none, ∅, []⟩ >>= self.afterListing deps request paths := by
  rw [purge, hpaths]
  refine congrArg (Prog.bind (Prog.iterate self.listPage turns ⟨none, ∅, []⟩)) (funext fun tenants => ?_)
  cases tenants <;> rfl

variable (self) in
theorem afterListing_uses (deps : Deps) (request : CdnPurgeRequest) (paths : List Str)
    (tenants : List DistributionTenant) :
    (self.afterListing deps request paths (some tenants)).Uses fun o => isList o = false := by
  refine Prog.uses_bind ?_ fun _ => trivial
  unfold invalidateTenants
  simp only
  split
  · trivial
  · refine Prog.uses_bind (Prog.uses_fold (fun ids tenant _ => ?_) _) fun _ => trivial
    refine Prog.uses_bind (Prog.uses_bind ((Prog.uses_perform _ _).mpr rfl) fun r => ?_) fun _ => trivial
    cases r <;> trivial

variable (self) in
/-- Invalidations fail with a `CdnPurgeFailure`. -/
theorem afterListing_error (deps : Deps) (request : CdnPurgeRequest) (paths : List Str)
    (tenants : List DistributionTenant) (c : Cloud) :
    Along (saasStep env) (fun _ _ => True) (fun out _ => ∀ e, out = .err e → ∃ f, e = .failure f)
      (self.afterListing deps request paths (some tenants)) c := by
  refine Along.bind ?_
  unfold invalidateTenants
  simp only
  split
  · exact fun e he => by cases he
  · refine Along.bind (Along.fold (fun _ _ _ _ => True) ?_ ?_ _ [] _ _ trivial)
    · intro done tenant rest ids c' _
      refine along_iff.mpr ⟨fun _ _ => trivial, ?_⟩
      rw [invalidateTenant, run_bind, run_clientTry]
      rcases saasStep env _ c' with ⟨_ | e | id, c1⟩
      · exact fun e he => by cases he
      · intro e' he
        cases he
        exact ⟨_, rfl⟩
      · trivial
    · intro done ids c' _ e he
      cases he

/-- A purge makes at most one list call more than there are markers. It fails with the repeated
marker exactly when the chain of markers comes back to one; otherwise the chain has a last page,
no page comes twice, and the tenants of all of them, in their order, are what is invalidated. -/
theorem purge_pagination {M : Finset Str} (hM : ∀ key m, nextMarker pages key = some m → m ∈ M)
    (hlist : ListsBy env pages) {deps : Deps} {request : CdnPurgeRequest} {paths : List Str}
    (hpaths : ensurePathsMode request.mode "CloudFront SaaS".toList = .ok paths)
    {turns : Nat} (hturns : M.card < turns) (c : Cloud) :
    (trace (saasStep env) (self.purge deps turns request) c).countP (fun e => isList e.1) ≤ M.card + 1 ∧
    ((∃ c', run (saasStep env) (self.purge deps turns request) c = (.err self.repeatedMarker, c')) ↔
      Revisits (nextMarker pages)) ∧
    (¬ Revisits (nextMarker pages) → ∃ n c',
      markers (nextMarker pages) n = none ∧
      (∀ i j, i < j → j ≤ n → pageKey (nextMarker pages) i ≠ pageKey (nextMarker pages) j) ∧
      run (saasStep env) (self.purge deps turns request) c =
        run (saasStep env) (self.afterListing deps request paths (some (tenantsOf pages (n + 1)))) c') := by
  obtain ⟨n, hn, hstop⟩ := exists_stop M hM
  have hlisting := @listing_run env pages self hlist n hstop turns (by omega) c
  have hcalls := @listing_trace env pages self hlist n hstop turns (by omega) c
  rw [purge_eq hpaths, trace_bind, run_bind, hlisting, List.countP_append, hcalls, hstop.revisits_iff]
  cases hm : markers (nextMarker pages) n with
  | some m =>
    refine ⟨by simp; omega, iff_of_true ⟨_, rfl⟩ ⟨m, rfl⟩, fun hno => absurd ⟨m, rfl⟩ hno⟩
  | none =>
    refine ⟨?_, iff_of_false ?_ (by simp), fun _ => ⟨n, _, hm, ?_, rfl⟩⟩
    · have hrest := mem_trace_of_uses (h := saasStep env)
        (self.afterListing_uses deps request paths (tenantsOf pages (n + 1))) ((listed env)^[n + 1] c)
      rw [List.countP_eq_zero.mpr fun e he => by simp [hrest e he]]
      omega
    · intro ⟨c', hrun⟩
      have hfailure := (along_iff.mp (self.afterListing_error deps request paths
        (tenantsOf pages (n + 1)) ((listed env)^[n + 1] c))).2 _ (congrArg Prod.fst hrun)
      obtain ⟨f, hf⟩ := hfailure
      cases hf
    · intro i j hij hj
      obtain ⟨j, rfl⟩ := Nat.exists_eq_succ_of_ne_zero (show j ≠ 0 by omega)
      obtain ⟨m, hm, hne⟩ := hstop.before j (by omega)
      cases i with
      | zero =>
        intro he
        exact absurd (he.trans hm) (by simp [pageKey])
      | succ i => exact hstop.pairwise (by omega) (by omega)

/-- Two pages, with a disabled tenant on the first. -/
def twoPages : Option Str → DistributionTenantPage
  | none => ⟨[siteTenant "dt_3" (some true), disabledTenant], some "2".toList⟩
  | some _ => ⟨[siteTenant "dt_2" none], none⟩

/-- A purge over two pages: it collects three tenants and invalidates two. -/
theorem purge_two_pages :
    (tenantsOf twoPages 2).map (·.id) = ["dt_3".toList, "dt_1".toList, "dt_2".toList] ∧
    (run (saasStep (quietService twoPages))
      (smallRepository.purge Refresh.smallDeps 2 ⟨"site".toList, 1, .all⟩) Cloud.empty).1.ok? =
        some (some ⟨"cloudfront_saas".toList, ["Idt_2".toList, "Idt_3".toList], "submitted".toList, 2⟩) ∧
    (trace (saasStep (quietService twoPages))
      (smallRepository.purge Refresh.smallDeps 2 ⟨"site".toList, 1, .all⟩) Cloud.empty).countP
        (fun e => isList e.1) ≤ 2 ∧
    ((∃ c', run (saasStep (quietService twoPages))
        (smallRepository.purge Refresh.smallDeps 2 ⟨"site".toList, 1, .all⟩) Cloud.empty =
          (.err smallRepository.repeatedMarker, c')) ↔ Revisits (nextMarker twoPages)) ∧
    (¬ Revisits (nextMarker twoPages) → ∃ n c',
      markers (nextMarker twoPages) n = none ∧
      (∀ i j, i < j → j ≤ n → pageKey (nextMarker twoPages) i ≠ pageKey (nextMarker twoPages) j) ∧
      run (saasStep (quietService twoPages))
          (smallRepository.purge Refresh.smallDeps 2 ⟨"site".toList, 1, .all⟩) Cloud.empty =
        run (saasStep (quietService twoPages)) (smallRepository.afterListing Refresh.smallDeps
          ⟨"site".toList, 1, .all⟩ ["/*".toList] (some (tenantsOf twoPages (n + 1)))) c') := by
  have hM : ∀ key m, nextMarker twoPages key = some m → m ∈ ({"2".toList} : Finset Str) := by
    intro key m hm
    cases key with
    | none => simp [← Option.some.inj hm]
    | some k => cases hm
  refine ⟨by decide, by decide +kernel, ?_⟩
  exact purge_pagination hM ⟨fun _ _ => rfl, fun _ _ _ => rfl⟩ rfl (by decide) Cloud.empty

end CloudFrontSaasCdnRepository

end RenderMesh.Cdn
