import RenderMesh.Cdn.Cloud
import RenderMesh.Core.Along

/-!
# What a reconciliation writes

`Merged old new` says what `merged_tenant` changes of a tenant and what it keeps. A tenant that
matches is a merged one with its certificate (`tenantMatches_iff`), and merging again changes
nothing (`mergedTenant_idem`), nor does it change a tenant just created
(`mergedTenant_created`).
-/
namespace RenderMesh.Cdn

open RenderMesh.Core RenderMesh.Mirror

namespace CloudFrontSaasCdnRepository

/-- `new` is `old` with the configured parameters, the configured connection group and without
being disabled. -/
structure Merged (repository : CloudFrontSaasCdnRepository) (old new : DistributionTenant) : Prop where
  id : new.id = old.id
  name : new.name = old.name
  distributionId : new.distributionId = old.distributionId
  domains : new.domains = old.domains
  customizations : new.customizations = old.customizations
  parameters : ∀ key : Str, new.parameters[key]? = (repository.config.parameters[key]?).or old.parameters[key]?
  connectionGroupId : new.connectionGroupId = repository.config.connectionGroupId.or old.connectionGroupId
  enabled : new.enabled = old.enabled.map fun _ => true

/-- A tenant of the distribution for exactly this domain, as both verifications ask. -/
def Exact (self : CloudFrontSaasCdnRepository) (domain : Str) (tenant : DistributionTenant) : Prop :=
  tenant.distributionId = self.config.distributionId ∧ tenant.domains = {domain}

section
variable {self : CloudFrontSaasCdnRepository} {domain : Str} {tenant : DistributionTenant}

theorem merged_mergedTenant (h : self.Exact domain tenant) :
    self.Merged tenant (self.mergedTenant tenant domain) where
  id := rfl
  name := rfl
  distributionId := h.1.symm
  domains := h.2.symm
  customizations := rfl
  parameters := fun _ => Std.ExtTreeMap.getElem?_union
  connectionGroupId := rfl
  enabled := rfl

theorem exact_mergedTenant : self.Exact domain (self.mergedTenant tenant domain) := ⟨rfl, rfl⟩

theorem union_absorb (p q : Parameters) : p ∪ q ∪ q = p ∪ q := by
  refine Std.ExtTreeMap.ext_getElem? fun key => ?_
  simp only [Std.ExtTreeMap.getElem?_union]
  cases q[key]? <;> rfl

theorem union_same (p : Parameters) : p ∪ p = p := by
  refine Std.ExtTreeMap.ext_getElem? fun key => ?_
  simp only [Std.ExtTreeMap.getElem?_union]
  cases p[key]? <;> rfl

/-- A merged tenant is not changed by merging again. -/
theorem mergedTenant_idem : self.mergedTenant (self.mergedTenant tenant domain) domain =
    self.mergedTenant tenant domain := by
  simp only [mergedTenant, union_absorb, Option.map_map, DistributionTenant.mk.injEq, true_and]
  refine ⟨?_, rfl⟩
  cases self.config.connectionGroupId <;> rfl

/-- Nor is a tenant that was created. -/
theorem mergedTenant_created (deps : Deps) (env : SaasEnv) (n : Nat) :
    self.mergedTenant (createdTenant env n (self.createRequest deps domain)) domain =
      createdTenant env n (self.createRequest deps domain) := by
  simp only [mergedTenant, createdTenant, createRequest, union_same, Option.map_some,
    DistributionTenant.mk.injEq, true_and, and_true]
  cases self.config.connectionGroupId <;> rfl

theorem exact_created (deps : Deps) (env : SaasEnv) (n : Nat) :
    self.Exact domain (createdTenant env n (self.createRequest deps domain)) := ⟨rfl, rfl⟩

theorem tenantMatches_iff {certificate : Option ManagedCertificateLookup} :
    self.tenantMatches tenant domain certificate = true ↔
      self.mergedTenant tenant domain = tenant ∧ self.managedCertificateMatches certificate = true := by
  simp only [tenantMatches, Bool.and_eq_true, decide_eq_true_eq]
  exact and_congr_left fun _ => eq_comm

theorem verifyDistribution_ok {u : Unit} :
    self.verifyDistribution tenant domain = .ok u ↔ tenant.distributionId = self.config.distributionId := by
  rw [verifyDistribution]
  split
  · rename_i h
    exact iff_of_false (by simp) h
  · rename_i h
    exact iff_of_true rfl (not_not.mp h)

theorem verifyExactHost_ok {u : Unit} :
    verifyExactHost tenant domain = .ok u ↔ tenant.domains = {domain} := by
  rw [verifyExactHost]
  split
  · rename_i h
    exact iff_of_false (by simp) h
  · rename_i h
    exact iff_of_true rfl (not_not.mp h)

end

end CloudFrontSaasCdnRepository

/-! ## Answered calls -/

section
variable {env : SaasEnv} {o : SaasOp} {c c' : Cloud}

/-- A call that was answered did what it does. -/
theorem saasStep_ok {v : o.Val} (h : saasStep env o c = (some (.ok v), c')) :
    (o.exec env (env.arrives c)).1 = .ok v ∧ c' = (o.exec env (env.arrives c)).2.tick := by
  rw [saasStep] at h
  cases hfault : env.fault (env.arrives c).clock o with
  | none =>
    rw [hfault] at h
    obtain ⟨h1, h2⟩ := Prod.mk.inj h
    exact ⟨Option.some.inj h1, h2.symm⟩
  | failed ran error =>
    rw [hfault] at h
    cases ran <;> cases h
  | dropped ran =>
    rw [hfault] at h
    cases ran <;> cases h

/-- Whatever the caller hears, a call did what it does or nothing. -/
theorem saasStep_state : (saasStep env o c).2 = (o.exec env (env.arrives c)).2.tick ∨
    (saasStep env o c).2 = (env.arrives c).tick := by
  rw [saasStep]
  cases env.fault (env.arrives c).clock o with
  | none => exact Or.inl rfl
  | failed ran error => cases ran <;> simp
  | dropped ran => cases ran <;> simp

/-- A creation puts a new tenant, or does nothing. -/
theorem exec_create (env : SaasEnv) (request : CreateDistributionTenantRequest) (c : Cloud) :
    (∃ h : c.free (createdTenant env c.clock request) = true,
      c.store.entry (env.newId c.clock) = none ∧
      SaasOp.exec env c (.createDistributionTenant request) = (.ok (createdTenant env c.clock request),
        (c.put _ h).requestCertificate (env.newId c.clock) request.managedCertificate)) ∨
    ∃ e, SaasOp.exec env c (.createDistributionTenant request) = (.error e, c) := by
  simp only [SaasOp.exec]
  split
  · rename_i h
    exact Or.inl ⟨h.2, Option.isNone_iff_eq_none.mp h.1, rfl⟩
  · exact Or.inr ⟨_, rfl⟩

/-- An update whose `If-Match` is the current ETag replaces the tenant, or nothing happens. -/
theorem exec_update (env : SaasEnv) (request : UpdateDistributionTenantRequest) (c : Cloud) :
    (∃ v, c.store.entry request.id = some v ∧ env.etag request.id v.version = request.ifMatch ∧
      ∃ h : c.free { request.tenant with id := request.id, name := v.value.name } = true,
      SaasOp.exec env c (.updateDistributionTenant request) =
        (.ok { request.tenant with id := request.id, name := v.value.name },
          (c.put _ h).requestCertificate request.id request.managedCertificate)) ∨
    ∃ e, SaasOp.exec env c (.updateDistributionTenant request) = (.error e, c) := by
  simp only [SaasOp.exec]
  cases c.store.entry request.id with
  | none => exact Or.inr ⟨_, rfl⟩
  | some v =>
    simp only
    split
    · rename_i hmatch
      split
      · rename_i h
        exact Or.inl ⟨v, rfl, hmatch, h, rfl⟩
      · exact Or.inr ⟨_, rfl⟩
    · exact Or.inr ⟨_, rfl⟩

end

/-- A call, and what follows when it succeeds. -/
theorem along_clientTry_bind {env : SaasEnv} {ε α : Type} {P : SaasOp → Cloud → Prop}
    {Q : Outcome ε α → Cloud → Prop} {o : SaasOp} {f : Error → ε} {k : o.Val → Saas ε α} {c : Cloud}
    (hP : P o c)
    (hok : ∀ v c', saasStep env o c = (some (.ok v), c') → Along (saasStep env) P Q (k v) c')
    (hstop : ∀ out, (∀ a, out ≠ .ok a) → Q out (saasStep env o c).2) :
    Along (saasStep env) P Q (clientTry o f >>= k) c := by
  refine Along.bind (along_iff.mpr ⟨by simpa [trace_clientTry] using hP, ?_⟩)
  rw [run_clientTry]
  rcases hstep : saasStep env o c with ⟨_ | e | v, c'⟩
  · rw [hstep] at hstop
    exact hstop .dropped (by simp)
  · rw [hstep] at hstop
    exact hstop (.err (f e)) (by simp)
  · exact hok v c' hstep

/-- The calls that write. -/
def SaasOp.Writes : SaasOp → Prop
  | .createDistributionTenant _ | .updateDistributionTenant _ => True
  | _ => False

/-- A call that reads leaves the service as it was. -/
theorem exec_of_reads {o : SaasOp} (h : ¬ o.Writes) (env : SaasEnv) (c : Cloud) :
    (o.exec env c).2 = c := by
  cases o with
  | createDistributionTenant request => exact absurd trivial h
  | updateDistributionTenant request => exact absurd trivial h
  | getDistributionTenant id =>
    rw [SaasOp.exec]
    split <;> rfl
  | _ => rfl

end RenderMesh.Cdn
