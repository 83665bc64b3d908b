import RenderMesh.Cdn.Merge
import RenderMesh.Refresh.Snapshot

/-!
# Reconciliation among other writers

Other writers may do anything before each call. An update is accepted only under the ETag that the
re-read of the tenant came with, and since every write changes the ETag, what it replaces is what
was read (`update_replaces_read`): nothing of the lookup before, and no write in between, gets
lost.

* `updates_lose_nothing`: every accepted update of a run merges into the tenant it replaces.
-/
namespace RenderMesh.Cdn

open RenderMesh.Core RenderMesh.Mirror

namespace CloudFrontSaasCdnRepository

/-- An update that is accepted where it arrives, in `c`, replaces a tenant of the distribution
with exactly a desired domain, and merges into it. -/
def LosesNothing (env : SaasEnv) (self : CloudFrontSaasCdnRepository) (desired : Str → Prop)
    (c : Cloud) (update : UpdateDistributionTenantRequest) : Prop :=
  ∀ tenant c', SaasOp.exec env c (.updateDistributionTenant update) = (.ok tenant, c') →
    ∃ v domain, desired domain ∧ c.store.entry update.id = some v ∧
      v.value.distributionId = self.config.distributionId ∧ v.value.domains = {domain} ∧
      self.Merged v.value tenant ∧
      (update.managedCertificate = none ∨ update.managedCertificate = self.config.managedCertificate) ∧
      (∃ v', c'.store.entry update.id = some v' ∧ v'.value = tenant) ∧
      ∀ id, id ≠ update.id → c'.store.entry id = c.store.entry id ∧ c'.certificates id = c.certificates id

section
variable {env : SaasEnv} {self : CloudFrontSaasCdnRepository} {desired : Str → Prop} {domain : Str}

/-- An update under the ETag of a read, whatever was written since. -/
theorem update_replaces_read (hdomain : desired domain) {read c : Cloud} {id : Str}
    {v : Versioned DistributionTenant} (hread : read.store.entry id = some v)
    (hexact : self.Exact domain v.value) (hlater : Store.Later read.store c.store)
    {certificate : Option ManagedCertificateRequest}
    (hcertificate : certificate = none ∨ certificate = self.config.managedCertificate) :
    LosesNothing env self desired c
      ⟨v.value.id, env.etag id v.version, self.mergedTenant v.value domain, certificate⟩ := by
  obtain rfl := read.ids id v hread
  intro tenant c' h
  rcases exec_update env ⟨v.value.id, env.etag v.value.id v.version, self.mergedTenant v.value domain,
    certificate⟩ c with ⟨v', hentry, hmatch, hfree, he⟩ | ⟨e, he⟩
  · obtain rfl := hlater.same_version hread hentry (env.etag_injective _ hmatch)
    rw [he] at h
    cases h
    refine ⟨v', domain, hdomain, hentry, hexact.1, hexact.2, merged_mergedTenant hexact, hcertificate,
      ⟨⟨c.store.writes + 1, _⟩, ?_, rfl⟩, fun id' hid' => ⟨?_, requestCertificate_ne _ _ hid'⟩⟩
    · rw [requestCertificate_store]
      exact put_entry_self hfree
    · rw [requestCertificate_store]
      exact put_entry_ne hfree hid'
  · rw [he] at h
    cases h

variable (env self desired) in
/-- What a step of the reconciliation may do among other writers. -/
def Harmless (o : SaasOp) (c : Cloud) : Prop :=
  ∀ update, o = .updateDistributionTenant update → LosesNothing env self desired (env.arrives c) update

theorem harmless_of_ne {o : SaasOp} (h : ∀ update, o ≠ .updateDistributionTenant update) (c : Cloud) :
    Harmless env self desired o c := fun update ho => absurd ho (h update)

theorem updateTenant_harmless (hdomain : desired domain) (counts : TenantCounts)
    (existing : DistributionTenant) (certificate : Option ManagedCertificateLookup) (c : Cloud) :
    Along (saasStep env) (Harmless env self desired) (fun _ _ => True)
      (self.updateTenant counts domain existing certificate) c := by
  rw [updateTenant]
  refine along_clientTry_bind (harmless_of_ne (by simp) _) (fun current read hget => ?_) fun _ _ => trivial
  obtain ⟨hok, rfl⟩ := saasStep_ok hget
  simp only [SaasOp.exec] at hok ⊢
  cases hread : (env.arrives c).store.entry existing.id with
  | none =>
    rw [hread] at hok
    cases hok
  | some v =>
    rw [hread] at hok
    obtain rfl := Except.ok.inj hok
    refine along_ofExcept_bind (fun _ hdistribution => ?_) fun _ _ => trivial
    refine along_ofExcept_bind (fun _ hdomains => ?_) fun _ _ => trivial
    have hexact : self.Exact domain v.value :=
      ⟨verifyDistribution_ok.mp hdistribution, verifyExactHost_ok.mp hdomains⟩
    split
    · trivial
    · refine along_clientTry_bind (fun update hupdate => ?_) (fun _ _ _ => trivial) fun _ _ => trivial
      cases hupdate
      refine update_replaces_read hdomain hread hexact (later_arrives env (env.arrives c).tick) ?_
      split
      · exact Or.inl rfl
      · exact Or.inr rfl

theorem reconcileTenant_harmless (deps : Deps) (hdomain : desired domain) (counts : TenantCounts)
    (c : Cloud) :
    Along (saasStep env) (Harmless env self desired) (fun _ _ => True)
      (self.reconcileTenant deps counts domain) c := by
  rw [reconcileTenant]
  refine along_clientTry_bind (harmless_of_ne (by simp) _) (fun lookup c1 _ => ?_) fun _ _ => trivial
  cases lookup with
  | none => exact along_clientTry_bind (harmless_of_ne (by simp) _) (fun _ _ _ => trivial) fun _ _ => trivial
  | some existing =>
    refine along_ofExcept_bind (fun _ _ => ?_) fun _ _ => trivial
    refine along_ofExcept_bind (fun _ _ => ?_) fun _ _ => trivial
    have hrest : ∀ certificate c2, Along (saasStep env) (Harmless env self desired) (fun _ _ => True)
        (if self.tenantMatches existing domain certificate then
          pure { counts with unchanged := counts.unchanged + 1 }
        else self.updateTenant counts domain existing certificate) c2 := by
      intro certificate c2
      split
      · trivial
      · exact updateTenant_harmless hdomain counts existing certificate c2
    rw [observeCertificate]
    split
    · exact Along.bind (along_clientTry_bind (harmless_of_ne (by simp) _)
        (fun certificate c2 _ => hrest (some certificate) c2) fun out hout => by
          cases out with
          | ok a => exact absurd rfl (hout a)
          | _ => trivial)
    · exact hrest none c1

/-- Every update of a run that the service accepts merges into the tenant it replaces. -/
theorem updates_lose_nothing (deps : Deps) (env : SaasEnv) (self : CloudFrontSaasCdnRepository)
    (request : CdnTenantReconcileRequest) (start : Cloud) :
    ∀ update c, (.updateDistributionTenant update, c) ∈
        trace (saasStep env) (self.reconcileTenants deps request) start →
      LosesNothing env self (· ∈ request.desiredDomains) (env.arrives c) update := by
  have hall : Along (saasStep env) (Harmless env self (· ∈ request.desiredDomains)) (fun _ _ => True)
      (self.reconcileTenants deps request) start := by
    refine Along.bind (Along.fold (fun _ rest _ _ => ∀ domain ∈ rest, domain ∈ request.desiredDomains)
      ?_ (fun _ _ _ _ => trivial) _ [] _ _ fun domain h => Std.ExtTreeSet.mem_toList.mp h)
    intro done domain rest counts c hrest
    refine (reconcileTenant_harmless deps (hrest domain List.mem_cons_self) counts c).mono
      (fun _ _ h => h) fun out c' _ => ?_
    cases out with
    | ok counts' => exact fun x hx => hrest x (List.mem_cons_of_mem _ hx)
    | err e => trivial
    | dropped => trivial
  intro update c hmem
  exact (along_iff.mp hall).1 _ hmem update rfl

/-- The update of the disabled tenant is accepted, and loses nothing. -/
theorem disabled_update :
    let service := quietService fun _ => ⟨[], none⟩
    let update : UpdateDistributionTenantRequest :=
      ⟨"dt_1".toList, ['e'], smallRepository.mergedTenant disabledTenant "www.example.com".toList, none⟩
    LosesNothing service smallRepository (· ∈ ({"www.example.com".toList} : Hosts)) disabledCloud.tick.tick update ∧
      ∃ tenant c', SaasOp.exec service disabledCloud.tick.tick (.updateDistributionTenant update) = (.ok tenant, c') :=
  ⟨updates_lose_nothing Refresh.smallDeps (quietService fun _ => ⟨[], none⟩) smallRepository
      ⟨"site".toList, {"www.example.com".toList}⟩ disabledCloud _ disabledCloud.tick.tick
      (List.mem_cons_of_mem _ (List.mem_cons_of_mem _ List.mem_cons_self)), _, _, rfl⟩
end

end CloudFrontSaasCdnRepository

end RenderMesh.Cdn
