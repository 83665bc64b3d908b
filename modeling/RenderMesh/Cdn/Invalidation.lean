import Mathlib.Data.List.Sort
import RenderMesh.Cdn.Pagination

/-!
# One invalidation for each tenant

What a purge submits once its listing is over: the purged tenants in the order of their ids,
one invalidation each, up to the first call that fails. `purge_submits` speaks of every run
whose listing ended, for whatever pages and answers the service gave.
-/
namespace RenderMesh.Cdn

open RenderMesh.Core RenderMesh.Mirror RenderMesh.Server

/-- The invalidation that a call submits. -/
def invalidationOf : SaasOp × Cloud → Option TenantInvalidationRequest
  | (.createInvalidation request, _) => some request
  | _ => none

section
variable (env : SaasEnv)

/-- The id with which the service accepted an invalidation. -/
def acceptedOf : SaasOp × Cloud → Option Str
  | (.createInvalidation request, c) =>
    match (saasStep env (.createInvalidation request) c).1 with
    | some (.ok id) => some id
    | _ => none
  | _ => none

/-- The tenants on the page that a list call returned. -/
def listedOf : SaasOp × Cloud → List DistributionTenant
  | (.listDistributionTenants id marker, c) =>
    match (saasStep env (.listDistributionTenants id marker) c).1 with
    | some (.ok page) => page.tenants
    | _ => []
  | _ => []

variable {ε α β : Type} (m : Saas ε α) (c : Cloud)

/-- The invalidations that a run submits, in their order. -/
def submitted : List TenantInvalidationRequest := (trace (saasStep env) m c).filterMap invalidationOf

/-- The ids of the invalidations that the service accepted in a run. -/
def accepted : List Str := (trace (saasStep env) m c).filterMap (acceptedOf env)

/-- The tenants on the pages of a run. -/
def pagesOf : List DistributionTenant := (trace (saasStep env) m c).flatMap (listedOf env)

end

section
variable {env : SaasEnv} {ε α β : Type}

@[simp] theorem submitted_pure (a : α) (c : Cloud) : submitted env (pure a : Saas ε α) c = [] := rfl

@[simp] theorem accepted_pure (a : α) (c : Cloud) : accepted env (pure a : Saas ε α) c = [] := rfl

theorem submitted_bind (m : Saas ε α) (f : α → Saas ε β) (c : Cloud) :
    submitted env (m >>= f) c = submitted env m c ++
      match run (saasStep env) m c with
      | (.ok a, c') => submitted env (f a) c'
      | _ => [] := by
  rw [submitted, submitted, trace_bind, List.filterMap_append]
  rcases run (saasStep env) m c with ⟨a | e | _, c'⟩ <;> rfl

theorem accepted_bind (m : Saas ε α) (f : α → Saas ε β) (c : Cloud) :
    accepted env (m >>= f) c = accepted env m c ++
      match run (saasStep env) m c with
      | (.ok a, c') => accepted env (f a) c'
      | _ => [] := by
  rw [accepted, accepted, trace_bind, List.filterMap_append]
  rcases run (saasStep env) m c with ⟨a | e | _, c'⟩ <;> rfl

end

namespace CloudFrontSaasCdnRepository

section
variable (deps : Deps) (self : CloudFrontSaasCdnRepository) (request : CdnPurgeRequest)
  (paths : List Str)

/-- The calls stop at one of the tenants: those before it were accepted. -/
def StopsAt (tenants : List DistributionTenant) (submitted : List TenantInvalidationRequest)
    (accepted : List Str) (tenant : DistributionTenant) : Prop :=
  ∃ before after, tenants = before ++ tenant :: after ∧
    submitted = (before ++ [tenant]).map (self.invalidationRequest deps request paths) ∧
    accepted.length = before.length

/-- What the failure of an invalidation says, when the calls before it came back with `ids`. -/
def invalidationFailure (ids : List Str) (tenant : DistributionTenant) (error : Error) : CdnFailure where
  provider := "cloudfront_saas".toList
  requestIds := ids
  submittedItems := paths.length * ids.length
  message := "invalidate CloudFront SaaS tenant ".toList ++ tenant.id ++ ": ".toList ++ showChain error

theorem invalidationFailure_message_ne_nil {ids : List Str} {tenant : DistributionTenant} {error : Error} :
    (invalidationFailure paths ids tenant error).message ≠ [] :=
  List.append_ne_nil_of_left_ne_nil (List.append_ne_nil_of_left_ne_nil
    (List.append_ne_nil_of_left_ne_nil (by decide) _) _) _

/-- How a purge of `tenants` ends, with what it submitted and what was accepted: it gets through
all of them, or it stops at one. -/
def Submits (tenants : List DistributionTenant) (submitted : List TenantInvalidationRequest)
    (accepted : List Str) : Outcome CdnPurgeError (Option CdnPurgeResult) → Prop
  | .ok none => False
  | .ok (some result) =>
    submitted = tenants.map (self.invalidationRequest deps request paths) ∧
      accepted.length = tenants.length ∧ result.provider = "cloudfront_saas".toList ∧
      result.requestIds = accepted ∧ result.submittedItems = paths.length * tenants.length
  | .err e => ∃ tenant error, e = .failure (invalidationFailure paths accepted tenant error) ∧
      StopsAt deps self request paths tenants submitted accepted tenant
  | .dropped => ∃ tenant, StopsAt deps self request paths tenants submitted accepted tenant

variable (env : SaasEnv)

/-- The calls for one tenant after another. -/
theorem invalidations_run (tenants : List DistributionTenant) (ids : List Str) (c : Cloud) :
    let m := Prog.fold (self.invalidateTenant deps request paths) ids tenants
    match (run (saasStep env) m c).1 with
    | .ok ids' => submitted env m c = tenants.map (self.invalidationRequest deps request paths) ∧
        ids' = ids ++ accepted env m c ∧ (accepted env m c).length = tenants.length
    | .err e => ∃ tenant error, e = .failure (invalidationFailure paths (ids ++ accepted env m c) tenant error) ∧
        StopsAt deps self request paths tenants (submitted env m c) (accepted env m c) tenant
    | .dropped => ∃ tenant,
        StopsAt deps self request paths tenants (submitted env m c) (accepted env m c) tenant := by
  simp only
  induction tenants generalizing ids c with
  | nil => exact ⟨rfl, (List.append_nil _).symm, rfl⟩
  | cons tenant tenants ih =>
    have hcall : run (saasStep env) (self.invalidateTenant deps request paths ids tenant) c =
        match saasStep env (.createInvalidation (self.invalidationRequest deps request paths tenant)) c with
        | (some (.ok id), c') => (.ok (ids ++ [id]), c')
        | (some (.error e), c') => (.err (.failure (invalidationFailure paths ids tenant e)), c')
        | (none, c') => (.dropped, c') := by
      rw [invalidateTenant, run_bind, run_clientTry]
      rcases saasStep env _ c with ⟨_ | e | id, c'⟩ <;> rfl
    have htrace : trace (saasStep env) (self.invalidateTenant deps request paths ids tenant) c =
        [(.createInvalidation (self.invalidationRequest deps request paths tenant), c)] := by
      rw [invalidateTenant, trace_bind, trace_clientTry]
      split <;> rfl
    have hsubmitted : submitted env (self.invalidateTenant deps request paths ids tenant) c =
        [self.invalidationRequest deps request paths tenant] := by
      rw [submitted, htrace]
      rfl
    have haccepted : accepted env (self.invalidateTenant deps request paths ids tenant) c =
        (acceptedOf env (.createInvalidation (self.invalidationRequest deps request paths tenant), c)).toList := by
      rw [accepted, htrace, List.filterMap_cons, List.filterMap_nil]
      cases acceptedOf env _ <;> rfl
    rw [run_fold_cons, run_bind, submitted_bind, accepted_bind, hsubmitted, haccepted, hcall, acceptedOf]
    rcases saasStep env _ c with ⟨_ | e | id, c'⟩
    · exact ⟨tenant, [], tenants, rfl, rfl, rfl⟩
    · exact ⟨tenant, e, by simp, [], tenants, rfl, rfl, rfl⟩
    · simp only
      have hrest := ih (ids ++ [id]) c'
      generalize hm : Prog.fold (self.invalidateTenant deps request paths) (ids ++ [id]) tenants = m at hrest ⊢
      generalize run (saasStep env) m c' = r at hrest ⊢
      obtain ⟨ids' | e | _, c1⟩ := r
      · obtain ⟨hall, hids, hlength⟩ := hrest
        refine ⟨by simp [hall], by simp [hids], by simp [hlength]⟩
      · obtain ⟨t, error, he, before, after, htenants, hsub, hlength⟩ := hrest
        refine ⟨t, error, by simp [he], tenant :: before, after, by simp [htenants], by simp [hsub], by simp [hlength]⟩
      · obtain ⟨t, before, after, htenants, hsub, hlength⟩ := hrest
        exact ⟨t, tenant :: before, after, by simp [htenants], by simp [hsub], by simp [hlength]⟩

variable {env}

/-- A turn of the listing adds the tenants on its page. -/
theorem listPage_tenants {p : Pagination} {c c' : Cloud} {r : Pagination ⊕ List DistributionTenant}
    (h : run (saasStep env) (self.listPage p) c = (.ok r, c')) :
    r.elim (·.tenants) id =
      p.tenants ++ listedOf env (.listDistributionTenants self.config.distributionId p.marker, c) := by
  rw [listPage, run_bind, run_clientTry] at h
  rw [listedOf]
  rcases hstep : saasStep env (.listDistributionTenants self.config.distributionId p.marker) c with
    ⟨_ | e | page, c1⟩
  · rw [hstep] at h
    cases h
  · rw [hstep] at h
    cases h
  · rw [hstep] at h
    simp only at h ⊢
    split at h
    · cases h
      rfl
    · split at h
      · cases h
      · cases h
        rfl

/-- The listing submits nothing, and what it comes to are the tenants on its pages. -/
theorem listing_pages {turns : Nat} {p : Pagination} {c c' : Cloud} {tenants : List DistributionTenant}
    (h : run (saasStep env) (Prog.iterate self.listPage turns p) c = (.ok (some tenants), c')) :
    tenants = p.tenants ++ pagesOf env (Prog.iterate self.listPage turns p) c ∧
      submitted env (Prog.iterate self.listPage turns p) c = [] ∧
      accepted env (Prog.iterate self.listPage turns p) c = [] := by
  induction turns generalizing p c with
  | zero => cases h
  | succ turns ih =>
    rw [run_iterate_succ] at h
    simp only [pagesOf, submitted, accepted, trace_iterate_succ, listPage_trace, List.flatMap_append,
      List.filterMap_append, List.flatMap_singleton] at ih ⊢
    rcases hturn : run (saasStep env) (self.listPage p) c with ⟨(p' | ts) | e | _, c1⟩
    · rw [hturn] at h
      obtain ⟨htenants, hsubmitted, haccepted⟩ := ih h
      have hpage : p'.tenants = _ := self.listPage_tenants hturn
      exact ⟨by rw [htenants, hpage, List.append_assoc], hsubmitted, haccepted⟩
    · rw [hturn] at h
      cases h
      have hpage : tenants = _ := self.listPage_tenants hturn
      exact ⟨by simpa using hpage, rfl, rfl⟩
    · rw [hturn] at h
      cases h
    · rw [hturn] at h
      cases h

theorem purged_iff (tenant : DistributionTenant) :
    self.purged tenant = true ↔ tenant.enabled ≠ some false ∧
      tenant.distributionId = self.config.distributionId ∧
      ∃ domain ∈ tenant.domains, domain ∈ self.exactHosts := by
  simp [purged, and_assoc]

theorem purgeOrder_perm (tenants : List DistributionTenant) :
    (self.purgeOrder tenants).Perm (tenants.filter self.purged) := List.perm_insertionSort ..

/-- The purged tenants come in the order of their ids. -/
theorem purgeOrder_sorted (tenants : List DistributionTenant) :
    (self.purgeOrder tenants).Pairwise fun left right => (compare left.id right.id).isLE := by
  have htotal : Std.Total fun left right : DistributionTenant => (compare left.id right.id).isLE := by
    refine ⟨fun left right => ?_⟩
    rw [Std.OrientedOrd.eq_swap (a := right.id), Ordering.isLE_swap]
    cases compare left.id right.id <;> simp
  have htrans : IsTrans _ fun left right : DistributionTenant => (compare left.id right.id).isLE :=
    ⟨fun _ _ _ h h' => Std.TransOrd.isLE_trans h h'⟩
  exact List.pairwise_insertionSort _ _

/-- What a purge submits after its listing. -/
theorem purge_submits {turns : Nat} {c c1 : Cloud} {tenants : List DistributionTenant}
    (hpaths : ensurePathsMode request.mode "CloudFront SaaS".toList = .ok paths)
    (hlisting : run (saasStep env) (Prog.iterate self.listPage turns ⟨none, ∅, []⟩) c =
      (.ok (some tenants), c1)) :
    Submits deps self request paths (self.purgeOrder tenants)
      (submitted env (self.purge deps turns request) c) (accepted env (self.purge deps turns request) c)
      (run (saasStep env) (self.purge deps turns request) c).1 := by
  obtain ⟨-, hsubmitted, haccepted⟩ := self.listing_pages hlisting
  rw [purge_eq hpaths, submitted_bind, accepted_bind, run_bind, hlisting, hsubmitted, haccepted]
  simp only [List.nil_append]
  rw [afterListing, submitted_bind, accepted_bind, run_bind, invalidateTenants]
  by_cases hnone : self.purgeOrder tenants = []
  · simp only [hnone]
    exact ⟨rfl, rfl, rfl, rfl, rfl⟩
  · have hall := self.invalidations_run deps request paths env (self.purgeOrder tenants) [] c1
    simp only [if_neg hnone]
    rw [submitted_bind, accepted_bind, run_bind]
    simp only at hall
    generalize Prog.fold (self.invalidateTenant deps request paths) [] (self.purgeOrder tenants) = m at hall ⊢
    generalize run (saasStep env) m c1 = r at hall ⊢
    obtain ⟨ids | e | _, c2⟩ := r
    · obtain ⟨hsub, hids, hlength⟩ := hall
      simp only [run_pure, submitted_pure, accepted_pure, List.append_nil]
      exact ⟨hsub, hlength, rfl, by simpa using hids, rfl⟩
    · obtain ⟨t, error, he, hstop⟩ := hall
      refine ⟨t, error, ?_, ?_⟩
      · simpa using he
      · simpa using hstop
    · simpa [Submits] using hall

end

end CloudFrontSaasCdnRepository

end RenderMesh.Cdn
