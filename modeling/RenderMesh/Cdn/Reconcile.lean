import RenderMesh.Cdn.Merge
import RenderMesh.Refresh.Snapshot

/-!
# Reconciliation with nobody else writing

What `reconcile_tenants` makes of the tenants when nobody else writes them. `Reconciled` says what
may have become of each tenant, at any point and however the run ends: a tenant is as it was,
or had exactly a desired domain and was merged, or is new for a desired domain nobody owned. A
turn that returns leaves its domain settled, a settled domain stays so in the turns for others
(`Settled.of_reconciled`), and a settled domain is only looked at (`settled_turn`).

* `reconcile_converges`: all of it for a whole run.
-/
namespace RenderMesh.Cdn

open RenderMesh.Core RenderMesh.Mirror

def TenantCounts.total (counts : TenantCounts) : Nat := counts.added + counts.updated + counts.unchanged

namespace CloudFrontSaasCdnRepository

/-- What became of the tenant of an id. -/
inductive Touched (deps : Deps) (env : SaasEnv) (self : CloudFrontSaasCdnRepository)
    (desired : Str → Prop) (c c' : Cloud) (id : Str) : Prop
  | kept (entry : c'.store.entry id = c.store.entry id)
      (certificate : c'.certificates id = c.certificates id)
  | merged (domain : Str) (wanted : desired domain) (v v' : Versioned DistributionTenant)
      (before : c.store.entry id = some v) (exact : self.Exact domain v.value)
      (after : c'.store.entry id = some v') (value : v'.value = self.mergedTenant v.value domain)
  | created (domain : Str) (wanted : desired domain) (v' : Versioned DistributionTenant) (n : Nat)
      (before : c.store.entry id = none) (unowned : c.store.owner domain = none)
      (after : c'.store.entry id = some v')
      (value : v'.value = createdTenant env n (self.createRequest deps domain))

/-- Every tenant as `Touched` says. -/
def Reconciled (deps : Deps) (env : SaasEnv) (self : CloudFrontSaasCdnRepository)
    (desired : Str → Prop) (c c' : Cloud) : Prop :=
  ∀ id, Touched deps env self desired c c' id

/-- What a certificate lookup would find, when one is made. -/
def observed (self : CloudFrontSaasCdnRepository) (c : Cloud) (id : Str) :
    Option ManagedCertificateLookup :=
  if self.config.managedCertificate.isSome then some (c.lookupCertificate id) else none

/-- The domain's tenant is as the configuration wants it. -/
def Settled (self : CloudFrontSaasCdnRepository) (c : Cloud) (domain : Str) : Prop :=
  ∃ id v, c.store.entry id = some v ∧ self.Exact domain v.value ∧
    self.tenantMatches v.value domain (self.observed c id) = true

section
variable {deps : Deps} {env : SaasEnv} {self : CloudFrontSaasCdnRepository} {desired : Str → Prop}
  {domain : Str} {c c' c'' : Cloud}

theorem Reconciled.refl (c : Cloud) : Reconciled deps env self desired c c := fun _ => .kept rfl rfl

theorem Reconciled.tick (c : Cloud) : Reconciled deps env self desired c c.tick := fun _ => .kept rfl rfl

theorem Exact.domain_unique {domain' : Str} {tenant : DistributionTenant} (h : self.Exact domain tenant)
    (h' : self.Exact domain' tenant) : domain = domain' := by
  have hmem : domain ∈ ({domain'} : Hosts) := by
    rw [← h'.2, h.2]
    simp
  exact (Std.compare_eq_iff_eq.mp (by simpa using hmem)).symm

/-- A domain that had an owner still has one. -/
theorem Reconciled.owned (h : Reconciled deps env self desired c c')
    (howner : c'.store.owner domain = none) : c.store.owner domain = none := by
  by_contra hne
  obtain ⟨id, hid⟩ := Option.ne_none_iff_exists'.mp hne
  obtain ⟨v, hentry, hmem⟩ := (c.store.owner_iff domain id).mp hid
  have hno : ∀ v', c'.store.entry id = some v' → domain ∉ v'.value.domains := by
    intro v' hv' hd
    rw [(c'.store.owner_iff domain id).mpr ⟨v', hv', hd⟩] at howner
    cases howner
  cases h id with
  | kept entry _ => exact hno v (entry.trans hentry) hmem
  | merged d _ v0 v' before exact after value =>
    rw [hentry] at before
    cases before
    refine hno v' after ?_
    rw [value]
    rw [exact.2] at hmem
    exact hmem
  | created d _ v' n before unowned after value =>
    rw [hentry] at before
    cases before

/-- One turn after a run. -/
theorem Reconciled.trans (h : Reconciled deps env self desired c c') (hdomain : desired domain)
    (h' : Reconciled deps env self (· = domain) c' c'') : Reconciled deps env self desired c c'' := by
  intro id
  cases h' id with
  | kept entry' certificate' =>
    cases h id with
    | kept entry certificate => exact .kept (entry'.trans entry) (certificate'.trans certificate)
    | merged d hd v v' before exact after value => exact .merged d hd v v' before exact (entry'.trans after) value
    | created d hd v' n before unowned after value =>
      exact .created d hd v' n before unowned (entry'.trans after) value
  | merged d hd v1 v2 before' exact' after' value' =>
    subst hd
    cases h id with
    | kept entry certificate => exact .merged d hdomain v1 v2 (entry.symm.trans before') exact' after' value'
    | merged d0 hd0 v v' before exact after value =>
      rw [after] at before'
      cases before'
      rw [value] at exact' value'
      obtain rfl := exact_mergedTenant.domain_unique exact'
      exact .merged d0 hd0 v v2 before exact after' (value'.trans mergedTenant_idem)
    | created d0 hd0 v' n before unowned after value =>
      rw [after] at before'
      cases before'
      rw [value] at exact' value'
      obtain rfl := (exact_created deps env n).domain_unique exact'
      exact .created d0 hd0 v2 n before unowned after' (value'.trans (mergedTenant_created deps env n))
  | created d hd v2 n before' unowned' after' value' =>
    subst hd
    cases h id with
    | kept entry certificate =>
      exact .created d hdomain v2 n (entry.symm.trans before') (h.owned unowned') after' value'
    | merged d0 hd0 v v' before exact after value =>
      rw [after] at before'
      cases before'
    | created d0 hd0 v' n0 before unowned after value =>
      rw [after] at before'
      cases before'

theorem Reconciled.of_tick (h : Reconciled deps env self (· = domain) c.tick c') :
    Reconciled deps env self (· = domain) c c' :=
  @Reconciled.trans deps env self (· = domain) domain c c.tick c' (.tick c) rfl h

/-- A settled domain stays so while others have their turn. -/
theorem Settled.of_reconciled {domain' : Str} (hs : self.Settled c domain') (hne : domain' ≠ domain)
    (h : Reconciled deps env self (· = domain) c c') : self.Settled c' domain' := by
  obtain ⟨id, v, hentry, hexact, hmatches⟩ := hs
  cases h id with
  | kept entry certificate =>
    refine ⟨id, v, entry.trans hentry, hexact, ?_⟩
    rwa [observed, Cloud.lookupCertificate, certificate]
  | merged d hd v1 v' before exact after value =>
    rw [hentry] at before
    cases before
    exact absurd (hexact.domain_unique exact) (hd ▸ hne)
  | created d hd v' n before unowned after value =>
    rw [hentry] at before
    cases before

/-! ## One call -/

theorem reconciled_read {o : SaasOp} (halone : Alone env) (ho : ¬ o.Writes) (c : Cloud) :
    (saasStep env o c).2 = c.tick := by
  rcases @saasStep_state env o c with h | h
  · rw [h, exec_of_reads ho, arrives_alone halone]
  · rw [h, arrives_alone halone]

/-- A write of one tenant leaves the others. -/
theorem written_ne {tenant : DistributionTenant} (h : c.free tenant = true) {id : Str}
    (hne : id ≠ tenant.id) (certificate : Option ManagedCertificateRequest) :
    ((c.put tenant h).requestCertificate tenant.id certificate).tick.store.entry id = c.store.entry id ∧
      ((c.put tenant h).requestCertificate tenant.id certificate).tick.certificates id =
        c.certificates id := by
  refine ⟨?_, requestCertificate_ne _ _ hne⟩
  rw [Cloud.tick, requestCertificate_store, put_entry_ne h hne]

theorem written_self {tenant : DistributionTenant} (h : c.free tenant = true)
    (certificate : Option ManagedCertificateRequest) :
    ((c.put tenant h).requestCertificate tenant.id certificate).tick.store.entry tenant.id =
      some ⟨c.store.writes + 1, tenant⟩ := by
  rw [Cloud.tick, requestCertificate_store, put_entry_self]

theorem reconciled_create (halone : Alone env) (c : Cloud) :
    Reconciled deps env self (· = domain) c
      (saasStep env (.createDistributionTenant (self.createRequest deps domain)) c).2 := by
  rcases @saasStep_state env (.createDistributionTenant (self.createRequest deps domain)) c with h | h
  · rw [h, arrives_alone halone]
    rcases exec_create env (self.createRequest deps domain) c with ⟨hfree, hnew, he⟩ | ⟨e, he⟩
    · rw [he]
      intro id
      by_cases hid : id = env.newId c.clock
      · subst hid
        refine .created domain rfl _ c.clock hnew ?_ (written_self hfree _) rfl
        -- the new id owns nothing yet
        by_contra hne
        obtain ⟨id', howner⟩ := Option.ne_none_iff_exists'.mp hne
        obtain rfl := Cloud.free_iff.mp hfree domain (by simp [createdTenant, createRequest]) id' howner
        obtain ⟨v, hv, -⟩ := (c.store.owner_iff domain _).mp howner
        exact absurd (hnew.symm.trans hv) (by simp)
      · obtain ⟨hentry, hcertificate⟩ := written_ne hfree hid (self.createRequest deps domain).managedCertificate
        exact .kept hentry hcertificate
    · rw [he]
      exact .tick c
  · rw [h, arrives_alone halone]
    exact .tick c

theorem reconciled_update {v : Versioned DistributionTenant} {id : Str} (halone : Alone env)
    (hentry : c.store.entry id = some v) (hexact : self.Exact domain v.value) (ifMatch : Str)
    (certificate : Option ManagedCertificateRequest) :
    Reconciled deps env self (· = domain) c (saasStep env (.updateDistributionTenant
      ⟨v.value.id, ifMatch, self.mergedTenant v.value domain, certificate⟩) c).2 := by
  have hid := c.ids id v hentry
  rcases @saasStep_state env (.updateDistributionTenant
    ⟨v.value.id, ifMatch, self.mergedTenant v.value domain, certificate⟩) c with h | h
  · rw [h, arrives_alone halone]
    rcases exec_update env ⟨v.value.id, ifMatch, self.mergedTenant v.value domain, certificate⟩ c with
      ⟨v', hv', -, hfree, he⟩ | ⟨e, he⟩
    · rw [he]
      simp only [hid] at hv'
      rw [hentry] at hv'
      cases hv'
      intro id'
      by_cases hid' : id' = v.value.id
      · subst hid'
        exact .merged domain rfl v _ (hid ▸ hentry) hexact (written_self hfree _) rfl
      · obtain ⟨hentry', hcertificate⟩ := written_ne hfree hid' certificate
        exact .kept hentry' hcertificate
    · rw [he]
      exact .tick c
  · rw [h, arrives_alone halone]
    exact .tick c

/-! ## One turn -/

/-- The certificate that was requested with a write is found. -/
theorem observed_requested {c : Cloud} {id : Str} :
    self.managedCertificateMatches
      (self.observed (c.requestCertificate id self.config.managedCertificate).tick id) = true := by
  rw [managedCertificateMatches, observed]
  cases self.config.managedCertificate with
  | none => rfl
  | some request => simp [Cloud.lookupCertificate, Cloud.requestCertificate, Cloud.tick]

theorem created_settled (halone : Alone env) {tenant : DistributionTenant}
    (h : saasStep env (.createDistributionTenant (self.createRequest deps domain)) c = (some (.ok tenant), c')) :
    self.Settled c' domain := by
  obtain ⟨hok, rfl⟩ := saasStep_ok h
  rw [arrives_alone halone] at hok ⊢
  rcases exec_create env (self.createRequest deps domain) c with ⟨hfree, -, he⟩ | ⟨e, he⟩
  · rw [he]
    exact ⟨_, _, written_self hfree _, exact_created deps env c.clock,
      tenantMatches_iff.mpr ⟨mergedTenant_created deps env c.clock, observed_requested⟩⟩
  · rw [he] at hok
    cases hok

/-- The certificate that goes with an update: none when the one that was seen will do. -/
theorem updated_settled {v : Versioned DistributionTenant} {id : Str} (halone : Alone env)
    (hentry : c.store.entry id = some v) (ifMatch : Str) {tenant : DistributionTenant}
    (h : saasStep env (.updateDistributionTenant ⟨v.value.id, ifMatch, self.mergedTenant v.value domain,
      if self.managedCertificateMatches (self.observed c id) then none else self.config.managedCertificate⟩) c =
        (some (.ok tenant), c')) :
    self.Settled c' domain := by
  obtain rfl := c.ids id v hentry
  obtain ⟨hok, rfl⟩ := saasStep_ok h
  rw [arrives_alone halone] at hok ⊢
  rcases exec_update env ⟨v.value.id, ifMatch, self.mergedTenant v.value domain,
    if self.managedCertificateMatches (self.observed c v.value.id) then none else self.config.managedCertificate⟩ c with
    ⟨v', hv', -, hfree, he⟩ | ⟨e, he⟩
  · simp only at hv'
    rw [hentry] at hv'
    cases hv'
    rw [he]
    refine ⟨v.value.id, _, written_self hfree _, exact_mergedTenant,
      tenantMatches_iff.mpr ⟨mergedTenant_idem, ?_⟩⟩
    by_cases hmatches : self.managedCertificateMatches (self.observed c v.value.id) = true
    · simp only [if_pos hmatches]
      exact hmatches
    · simp only [if_neg hmatches]
      exact observed_requested
  · rw [he] at hok
    cases hok

/-- The lookup of a domain finds the tenant that has it. -/
theorem lookup_ok (halone : Alone env) {lookup : Option DistributionTenant}
    (h : saasStep env (.getDistributionTenantByDomain domain) c = (some (.ok lookup), c')) :
    c' = c.tick ∧ (lookup = none ∧ c.store.owner domain = none ∨ ∃ id v,
      c.store.owner domain = some id ∧ c.store.entry id = some v ∧ lookup = some v.value) := by
  obtain ⟨hok, rfl⟩ := saasStep_ok h
  rw [arrives_alone halone] at hok ⊢
  refine ⟨rfl, ?_⟩
  obtain rfl := Except.ok.inj hok
  cases howner : c.store.owner domain with
  | none => exact Or.inl ⟨rfl, rfl⟩
  | some id =>
    obtain ⟨v, hv, -⟩ := (c.store.owner_iff domain id).mp howner
    exact Or.inr ⟨id, v, rfl, hv, by simp [hv]⟩

/-- The certificate lookup, when there is one to make. -/
theorem observe_bind (halone : Alone env) {α : Type} {P : SaasOp → Cloud → Prop}
    {Q : Outcome Error α → Cloud → Prop} {v : Versioned DistributionTenant} {id : Str}
    (hentry : c.store.entry id = some v) {k : Option ManagedCertificateLookup → Saas Error α}
    (hP : P (.getManagedCertificate v.value.id) c)
    (hok : ∀ c', c' = c ∨ c' = c.tick → Along (saasStep env) P Q (k (self.observed c id)) c')
    (hstop : ∀ out, (∀ a, out ≠ .ok a) → Q out c.tick) :
    Along (saasStep env) P Q (self.observeCertificate v.value >>= k) c := by
  have hid := c.ids id v hentry
  rw [observeCertificate]
  by_cases hconfig : self.config.managedCertificate.isSome = true
  · rw [if_pos hconfig]
    refine Along.bind (along_clientTry_bind hP (fun certificate c1 h => ?_) fun out hout => ?_)
    · obtain ⟨hcertificate, rfl⟩ := saasStep_ok h
      rw [arrives_alone halone] at hcertificate ⊢
      have hobserved : some certificate = self.observed c id := by
        rw [observed, if_pos hconfig, ← hid]
        exact congrArg some (Except.ok.inj hcertificate).symm
      show Along _ _ _ (k (some certificate)) _
      rw [hobserved]
      exact hok _ (Or.inr rfl)
    · rw [reconciled_read halone (by simp [SaasOp.Writes])]
      cases out with
      | ok a => exact absurd rfl (hout a)
      | err e => exact hstop _ (by simp)
      | dropped => exact hstop _ (by simp)
  · rw [if_neg hconfig]
    have hobserved : none = self.observed c id := by rw [observed, if_neg hconfig]
    show Along _ _ _ (k none) _
    rw [hobserved]
    exact hok _ (Or.inl rfl)

/-- The write of an existing tenant. -/
theorem updateTurn (halone : Alone env) {v : Versioned DistributionTenant} {id : Str}
    (hentry : c.store.entry id = some v) (counts : TenantCounts) :
    Along (saasStep env) (fun _ _ => True)
      (fun out c' => Reconciled deps env self (· = domain) c c' ∧
        ∀ counts', out = .ok counts' → self.Settled c' domain ∧ counts'.total = counts.total + 1)
      (self.updateTenant counts domain v.value (self.observed c id)) c := by
  obtain rfl := c.ids id v hentry
  rw [updateTenant]
  refine along_clientTry_bind trivial (fun current c1 hget => ?_) fun out hout => ?_
  · obtain ⟨hok, rfl⟩ := saasStep_ok hget
    rw [arrives_alone halone] at hok ⊢
    simp only [SaasOp.exec, hentry] at hok ⊢
    obtain rfl := Except.ok.inj hok
    refine along_ofExcept_bind (fun _ hdistribution => ?_) fun e _ => ⟨.tick c, by simp⟩
    refine along_ofExcept_bind (fun _ hdomains => ?_) fun e _ => ⟨.tick c, by simp⟩
    have hexact : self.Exact domain v.value :=
      ⟨verifyDistribution_ok.mp hdistribution, verifyExactHost_ok.mp hdomains⟩
    by_cases hmatches : self.tenantMatches v.value domain (self.observed c v.value.id) = true
    · rw [if_pos hmatches]
      refine ⟨.tick c, fun counts' h => ?_⟩
      cases h
      exact ⟨⟨v.value.id, v, hentry, hexact, hmatches⟩, by simp [TenantCounts.total]; omega⟩
    · rw [if_neg hmatches]
      have htouched : Reconciled deps env self (· = domain) c (saasStep env (.updateDistributionTenant
          ⟨v.value.id, env.etag v.value.id v.version, self.mergedTenant v.value domain,
            if self.managedCertificateMatches (self.observed c v.value.id) then none
            else self.config.managedCertificate⟩) c.tick).2 :=
        Reconciled.of_tick (@reconciled_update deps env self domain c.tick v _ halone hentry hexact _ _)
      refine along_clientTry_bind trivial (fun tenant c2 hupdate => ?_) fun out hout => ?_
      · rw [hupdate] at htouched
        refine ⟨htouched, fun counts' h => ?_⟩
        cases h
        exact ⟨@updated_settled env self domain c.tick c2 v _ halone hentry _ _ hupdate,
          by simp [TenantCounts.total]; omega⟩
      · exact ⟨htouched, fun counts' h => absurd h (hout counts')⟩
  · rw [reconciled_read halone (by simp [SaasOp.Writes])]
    exact ⟨.tick c, fun counts' h => absurd h (hout counts')⟩

/-- A turn for a domain: it touches only the domain's tenant, and leaves it settled when it
returns. -/
theorem turn (halone : Alone env) (counts : TenantCounts) (c : Cloud) :
    Along (saasStep env) (fun _ _ => True)
      (fun out c' => Reconciled deps env self (· = domain) c c' ∧
        ∀ counts', out = .ok counts' → self.Settled c' domain ∧ counts'.total = counts.total + 1)
      (self.reconcileTenant deps counts domain) c := by
  rw [reconcileTenant]
  refine along_clientTry_bind trivial (fun lookup c1 hlookup => ?_) fun out hout => ?_
  · obtain ⟨rfl, ⟨hnone, -⟩ | ⟨id, v, -, hentry, hsome⟩⟩ := lookup_ok halone hlookup
    · subst hnone
      have htouched : Reconciled deps env self (· = domain) c
          (saasStep env (.createDistributionTenant (self.createRequest deps domain)) c.tick).2 :=
        Reconciled.of_tick (reconciled_create halone c.tick)
      refine along_clientTry_bind trivial (fun tenant c2 hcreate => ?_) fun out hout => ?_
      · rw [hcreate] at htouched
        refine ⟨htouched, fun counts' h => ?_⟩
        cases h
        exact ⟨created_settled halone hcreate, by simp [TenantCounts.total]; omega⟩
      · exact ⟨htouched, fun counts' h => absurd h (hout counts')⟩
    · subst hsome
      refine along_ofExcept_bind (fun _ hdistribution => ?_) fun e _ => ⟨.tick c, by simp⟩
      refine along_ofExcept_bind (fun _ hdomains => ?_) fun e _ => ⟨.tick c, by simp⟩
      have hexact : self.Exact domain v.value :=
        ⟨verifyDistribution_ok.mp hdistribution, verifyExactHost_ok.mp hdomains⟩
      have htick : Reconciled deps env self (· = domain) c c.tick.tick := Reconciled.of_tick (.tick c.tick)
      refine observe_bind (c := c.tick) halone hentry trivial (fun c2 hc2 => ?_) fun out hout => ?_
      · have hstate : c2.store = c.store ∧ c2.certificates = c.certificates ∧
            Reconciled deps env self (· = domain) c c2 := by
          rcases hc2 with rfl | rfl
          · exact ⟨rfl, rfl, .tick c⟩
          · exact ⟨rfl, rfl, htick⟩
        obtain ⟨hstore, hcertificates, htouched⟩ := hstate
        have hentry2 : c2.store.entry id = some v := by rw [hstore, hentry]
        have hobserved : self.observed c.tick id = self.observed c2 id := by
          rw [observed, observed, Cloud.lookupCertificate, Cloud.lookupCertificate, hcertificates]
          rfl
        rw [hobserved]
        split
        · rename_i hmatches
          refine ⟨htouched, fun counts' h => ?_⟩
          cases h
          exact ⟨⟨id, v, hentry2, hexact, hmatches⟩, by simp [TenantCounts.total]; omega⟩
        · refine (@updateTurn deps env self domain c2 halone v id hentry2 counts).mono (fun _ _ h => h) fun out c' hout => ?_
          exact ⟨@Reconciled.trans deps env self (· = domain) domain c c2 c' htouched rfl hout.1, hout.2⟩
      · exact ⟨htick, fun counts' h => absurd h (hout counts')⟩
  · rw [reconciled_read halone (by simp [SaasOp.Writes])]
    exact ⟨.tick c, fun counts' h => absurd h (hout counts')⟩

/-- A turn for a settled domain only looks. -/
theorem settled_turn (halone : Alone env) (hs : self.Settled c domain) (counts : TenantCounts) :
    Along (saasStep env) (fun o _ => ¬ o.Writes)
      (fun _ c' => c'.store = c.store ∧ c'.certificates = c.certificates)
      (self.reconcileTenant deps counts domain) c := by
  obtain ⟨id, v, hentry, hexact, hmatches⟩ := hs
  have howner : c.store.owner domain = some id :=
    (c.store.owner_iff domain id).mpr ⟨v, hentry, by rw [hexact.2]; simp⟩
  rw [reconcileTenant]
  refine along_clientTry_bind (by simp [SaasOp.Writes]) (fun lookup c1 hlookup => ?_) fun out hout => ?_
  · obtain ⟨rfl, ⟨-, hnone⟩ | ⟨id', v', howner', hentry', hsome⟩⟩ := lookup_ok halone hlookup
    · rw [howner] at hnone
      cases hnone
    · rw [howner] at howner'
      cases howner'
      rw [hentry] at hentry'
      cases hentry'
      subst hsome
      simp only
      rw [(verifyDistribution_ok (u := ())).mpr hexact.1, (verifyExactHost_ok (u := ())).mpr hexact.2]
      refine observe_bind (c := c.tick) halone hentry (by simp [SaasOp.Writes]) (fun c2 hc2 => ?_)
        fun out hout => ⟨rfl, rfl⟩
      have hobserved : self.observed c.tick id = self.observed c id := rfl
      rw [hobserved, if_pos hmatches]
      rcases hc2 with rfl | rfl <;> exact ⟨rfl, rfl⟩
  · rw [reconciled_read halone (by simp [SaasOp.Writes])]
    exact ⟨rfl, rfl⟩

/-! ## A run -/

/-- All the turns. -/
theorem turns (halone : Alone env) (domains : List Str) (c : Cloud) :
    Along (saasStep env) (fun _ _ => True)
      (fun out c' => Reconciled deps env self (· ∈ domains) c c' ∧
        ∀ counts, out = .ok counts → (∀ domain ∈ domains, self.Settled c' domain) ∧
          counts.total = domains.length)
      (Prog.fold (self.reconcileTenant deps) ⟨0, 0, 0⟩ domains) c := by
  refine Along.fold (fun done rest counts c' => domains = done ++ rest ∧
    Reconciled deps env self (· ∈ domains) c c' ∧ (∀ domain ∈ done, self.Settled c' domain) ∧
      counts.total = done.length) ?_ ?_ domains [] _ c ⟨rfl, .refl c, by simp, rfl⟩
  · intro done domain rest counts c' ⟨hsplit, hrun, hsettled, htotal⟩
    have hdomain : domain ∈ domains := by simp [hsplit]
    refine (@turn deps env self domain halone counts c').mono (fun _ _ h => h) fun out c2 ⟨hturn, hok⟩ => ?_
    have hrun2 := hrun.trans hdomain hturn
    cases out with
    | err e => exact ⟨hrun2, by simp⟩
    | dropped => exact ⟨hrun2, by simp⟩
    | ok counts' =>
      obtain ⟨hdone, hcount⟩ := hok counts' rfl
      refine ⟨by simp [hsplit], hrun2, fun x hx => ?_, by simp [hcount, htotal]⟩
      by_cases hne : x = domain
      · exact hne ▸ hdone
      · have hbefore : x ∈ done := by simpa [hne] using hx
        exact (hsettled x hbefore).of_reconciled hne hturn
  · intro done counts c' ⟨hsplit, hrun, hsettled, htotal⟩
    rw [List.append_nil] at hsplit
    subst hsplit
    refine ⟨hrun, fun counts' h => ?_⟩
    cases h
    exact ⟨hsettled, htotal⟩

theorem Settled.congr (hs : self.Settled c domain) (hstore : c'.store = c.store)
    (hcertificates : c'.certificates = c.certificates) : self.Settled c' domain := by
  obtain ⟨id, v, hentry, hexact, hmatches⟩ := hs
  refine ⟨id, v, by rw [hstore, hentry], hexact, ?_⟩
  rwa [observed, Cloud.lookupCertificate, hcertificates]

/-- A run over settled domains only looks. -/
theorem settled_run (halone : Alone env) {request : CdnTenantReconcileRequest}
    (hs : ∀ domain ∈ request.desiredDomains, self.Settled c domain) :
    ∀ e ∈ trace (saasStep env) (self.reconcileTenants deps request) c, ¬ e.1.Writes := by
  have hall : Along (saasStep env) (fun o _ => ¬ o.Writes) (fun _ _ => True)
      (self.reconcileTenants deps request) c := by
    refine Along.bind (Along.fold (fun _ rest _ c' => (∀ domain ∈ rest, self.Settled c domain) ∧
      c'.store = c.store ∧ c'.certificates = c.certificates) ?_ (fun _ _ _ _ => trivial) _ [] _ c
        ⟨fun domain h => hs domain (Std.ExtTreeSet.mem_toList.mp h), rfl, rfl⟩)
    intro done domain rest counts c' ⟨hrest, hstore, hcertificates⟩
    have hdomain := (hrest domain List.mem_cons_self).congr hstore hcertificates
    refine (settled_turn halone hdomain counts).mono (fun _ _ h => h) fun out c2 ⟨hstore2, hcertificates2⟩ => ?_
    cases out with
    | ok counts' => exact ⟨fun x hx => hrest x (List.mem_cons_of_mem _ hx), hstore2.trans hstore,
        hcertificates2.trans hcertificates⟩
    | err e => trivial
    | dropped => trivial
  exact (along_iff.mp hall).1

/-- The tenant of a domain as the configuration wants it. -/
structure Owned (repository : CloudFrontSaasCdnRepository) (c : Cloud) (domain id : Str)
    (tenant : DistributionTenant) : Prop where
  distributionId : tenant.distributionId = repository.config.distributionId
  domains : tenant.domains = {domain}
  parameters : ∀ key ∈ repository.config.parameters, tenant.parameters[key]? = repository.config.parameters[key]?
  connectionGroupId : ∀ group, repository.config.connectionGroupId = some group →
    tenant.connectionGroupId = some group
  enabled : tenant.enabled ≠ some false
  certificate : repository.managedCertificateMatches (repository.observed c id) = true

/-- A tenant that merging does not change, and its certificate. -/
theorem owned_of_matches {c : Cloud} {id : Str} {tenant : DistributionTenant}
    (hexact : self.Exact domain tenant)
    (hmatches : self.tenantMatches tenant domain (self.observed c id) = true) :
    self.Owned c domain id tenant := by
  obtain ⟨hmerged, hcertificate⟩ := tenantMatches_iff.mp hmatches
  have h := merged_mergedTenant hexact
  rw [hmerged] at h
  refine ⟨hexact.1, hexact.2, fun key hkey => ?_, fun group hgroup => ?_, fun hdisabled => ?_, hcertificate⟩
  · obtain ⟨value, hvalue⟩ := Std.ExtTreeMap.mem_iff_isSome_getElem?.mp hkey |> Option.isSome_iff_exists.mp
    rw [h.parameters key, hvalue]
    rfl
  · rw [h.connectionGroupId, hgroup]
    rfl
  · have henabled := h.enabled
    rw [hdisabled] at henabled
    cases henabled

/-- However a reconciliation ends, it has changed only tenants of its distribution with exactly a
desired domain, by merging them, and added tenants for desired domains that had none. When it
returns, every desired domain has its tenant, each is counted once, and another reconciliation
writes nothing. -/
theorem reconcile_converges (halone : Alone env) (request : CdnTenantReconcileRequest) (c : Cloud) :
    (∀ id v, c.store.entry id = some v →
      ∃ v', (run (saasStep env) (self.reconcileTenants deps request) c).2.store.entry id = some v' ∧
        (v' = v ∧ (run (saasStep env) (self.reconcileTenants deps request) c).2.certificates id =
            c.certificates id ∨
          ∃ domain ∈ request.desiredDomains, self.Exact domain v.value ∧ self.Merged v.value v'.value)) ∧
    (∀ id v', c.store.entry id = none →
      (run (saasStep env) (self.reconcileTenants deps request) c).2.store.entry id = some v' →
      ∃ domain ∈ request.desiredDomains, c.store.owner domain = none ∧ self.Exact domain v'.value) ∧
    ∀ result c', run (saasStep env) (self.reconcileTenants deps request) c = (.ok result, c') →
      (∀ domain ∈ request.desiredDomains, ∃ id v', c'.store.entry id = some v' ∧
        self.Owned c' domain id v'.value ∧
        ∀ v, c.store.entry id = some v → self.Merged v.value v'.value) ∧
      result.added + result.updated + result.unchanged = request.desiredDomains.size ∧
      ∀ env', Alone env' →
        ∀ e ∈ trace (saasStep env') (self.reconcileTenants deps request) c', ¬ e.1.Writes := by
  have hall := @turns deps env self halone request.desiredDomains.toList c
  have hrun : run (saasStep env) (self.reconcileTenants deps request) c = _ := run_bind ..
  obtain ⟨-, htouched, hok⟩ := along_iff.mp hall
  have hstate : (run (saasStep env) (self.reconcileTenants deps request) c).2 =
      (run (saasStep env) (Prog.fold (self.reconcileTenant deps) ⟨0, 0, 0⟩
        request.desiredDomains.toList) c).2 := by
    rw [hrun]
    rcases run (saasStep env) (Prog.fold (self.reconcileTenant deps) ⟨0, 0, 0⟩
      request.desiredDomains.toList) c with ⟨_ | _ | _, _⟩ <;> rfl
  rw [hstate]
  refine ⟨fun id v hv => ?_, fun id v' hnone hv' => ?_, fun result c' hresult => ?_⟩
  · cases htouched id with
    | kept entry certificate => exact ⟨v, entry.trans hv, Or.inl ⟨rfl, certificate⟩⟩
    | merged domain wanted v0 v' before exact after value =>
      rw [hv] at before
      cases before
      refine ⟨v', after, Or.inr ⟨domain, Std.ExtTreeSet.mem_toList.mp wanted, exact, ?_⟩⟩
      rw [value]
      exact merged_mergedTenant exact
    | created domain wanted v' n before unowned after value =>
      rw [hv] at before
      cases before
  · cases htouched id with
    | kept entry certificate =>
      rw [entry, hnone] at hv'
      cases hv'
    | merged domain wanted v0 v1 before exact after value =>
      rw [hnone] at before
      cases before
    | created domain wanted v1 n before unowned after value =>
      rw [hv'] at after
      cases after
      exact ⟨domain, Std.ExtTreeSet.mem_toList.mp wanted, unowned, value ▸ exact_created deps env n⟩
  · rw [hrun] at hresult
    rcases hfold : run (saasStep env) (Prog.fold (self.reconcileTenant deps) ⟨0, 0, 0⟩
      request.desiredDomains.toList) c with ⟨counts | e | _, c2⟩
    · rw [hfold] at hresult hok htouched
      cases hresult
      obtain ⟨hsettled, htotal⟩ := hok counts rfl
      refine ⟨fun domain hdomain => ?_, htotal.trans Std.ExtTreeSet.length_toList, fun env' halone' =>
        settled_run halone' fun domain hdomain => hsettled domain (Std.ExtTreeSet.mem_toList.mpr hdomain)⟩
      obtain ⟨id, v', hentry, hexact, hmatches⟩ := hsettled domain (Std.ExtTreeSet.mem_toList.mpr hdomain)
      refine ⟨id, v', hentry, owned_of_matches hexact hmatches, fun v hv => ?_⟩
      cases htouched id with
      | kept entry certificate =>
        rw [entry, hv] at hentry
        cases hentry
        have hmerged := merged_mergedTenant hexact
        rwa [(tenantMatches_iff.mp hmatches).1] at hmerged
      | merged domain' wanted v0 v1 before exact after value =>
        rw [hv] at before
        cases before
        rw [hentry] at after
        cases after
        rw [value]
        exact merged_mergedTenant exact
      | created domain' wanted v1 n before unowned after value =>
        rw [hv] at before
        cases before
    · rw [hfold] at hresult
      cases hresult
    · rw [hfold] at hresult
      cases hresult

/-- A repository whose tenants have a parameter. -/
def themedRepository : CloudFrontSaasCdnRepository :=
  { smallRepository with
    config := { smallRepository.config with parameters := .ofList [("theme".toList, "dark".toList)] } }

/-- The disabled tenant, with a parameter that somebody gave it. -/
def localeTenant : DistributionTenant :=
  { disabledTenant with parameters := .ofList [("locale".toList, "de".toList)] }

def localeCloud : Cloud := Cloud.empty.put localeTenant (by decide)

/-- The tenants of two hosts. -/
def twoHosts : CdnTenantReconcileRequest :=
  ⟨"site".toList, {"api.example.com".toList, "www.example.com".toList}⟩

/-- Two hosts, one of which has a tenant: that one is enabled and keeps its parameter. -/
theorem reconcile_two_hosts :
    let env := quietService fun _ => ⟨[], none⟩
    let program := themedRepository.reconcileTenants Refresh.smallDeps twoHosts
    ∃ c', run (saasStep env) program localeCloud =
        (.ok ⟨"cloudfront_saas".toList, "submitted".toList, 1, 1, 0, 0⟩, c') ∧
      (c'.store.entry "dt_1".toList).map (fun v => (v.value.enabled, v.value.parameters.toList)) =
        some (some true, [("locale".toList, "de".toList), ("theme".toList, "dark".toList)]) ∧
      (∀ domain ∈ twoHosts.desiredDomains, ∃ id v', c'.store.entry id = some v' ∧
        themedRepository.Owned c' domain id v'.value ∧
        ∀ v, localeCloud.store.entry id = some v → themedRepository.Merged v.value v'.value) ∧
      ∀ env', Alone env' → ∀ e ∈ trace (saasStep env') program c', ¬ e.1.Writes := by
  have hcomputed : (run (saasStep (quietService fun _ => ⟨[], none⟩))
      (themedRepository.reconcileTenants Refresh.smallDeps twoHosts) localeCloud).1.ok? =
        some ⟨"cloudfront_saas".toList, "submitted".toList, 1, 1, 0, 0⟩ ∧
      ((run (saasStep (quietService fun _ => ⟨[], none⟩))
        (themedRepository.reconcileTenants Refresh.smallDeps twoHosts) localeCloud).2.store.entry
          "dt_1".toList).map (fun v => (v.value.enabled, v.value.parameters.toList)) =
        some (some true, [("locale".toList, "de".toList), ("theme".toList, "dark".toList)]) := by
    decide +kernel
  obtain ⟨hok, hmerged⟩ := hcomputed
  have hrun := Prod.ext (Outcome.ok?_eq_some.mp hok) rfl
  obtain ⟨hdesired, -, hagain⟩ := (reconcile_converges (fun _ _ => rfl) twoHosts localeCloud).2.2 _ _ hrun
  exact ⟨_, hrun, hmerged, hdesired, hagain⟩

end

end CloudFrontSaasCdnRepository

end RenderMesh.Cdn
