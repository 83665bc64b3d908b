import RenderMesh.Cdn.CloudFront

/-!
# A CloudFront distribution

`reconcile_domains` of `src/src/repositories/cloudfront_cdn.rs`: the config of a distribution is
read with its ETag, reconciled, and written back whole if the ETag is still the one that was read.
-/
namespace RenderMesh.Cdn

open RenderMesh.Core RenderMesh.Mirror RenderMesh.Domains

variable {ω β γ : Type}

inductive DistributionOp (ω β γ : Type) where
  | getDistributionConfig
  | updateDistribution (ifMatch : Str) (config : DistributionConfig ω β γ)

abbrev DistributionOp.Val : DistributionOp ω β γ → Type
  | .getDistributionConfig => Option Str × Option (DistributionConfig ω β γ)
  | .updateDistribution _ _ => Unit

abbrev DistributionOp.Res (o : DistributionOp ω β γ) : Type := Except Error o.Val

abbrev Distributing (ω β γ α : Type) := Prog (DistributionOp ω β γ) DistributionOp.Res Error α

/-- A call, whose error is the caller's. -/
def distributionTry (o : DistributionOp ω β γ) : Distributing ω β γ o.Val := do
  let r ← Prog.perform o
  .ofExcept r

/-- `ok_or_else` -/
def okOr {α : Type} (x : Option α) (message : String) : Except Error α :=
  match x with
  | some a => .ok a
  | none => .error (anyhow message.toList)

/-- mirrors src/src/repositories/cloudfront_cdn.rs:88-118 -/
def reconcileDistribution (request : CdnDomainReconcileRequest) :
    Distributing ω β γ CdnDomainReconcileResult := do
  let response ← distributionTry .getDistributionConfig
  let etag ← .ofExcept
    (okOr response.1 "CloudFront get_distribution_config response missing ETag")
  let config ← .ofExcept
    (okOr response.2 "CloudFront get_distribution_config response missing DistributionConfig")
  let reconciled ← .ofExcept (reconcileDistributionConfig config request)
  distributionTry (.updateDistribution etag reconciled.1)
  pure reconciled.2

/-! ## The distribution -/

structure Distribution (ω β γ : Type) where
  config : DistributionConfig ω β γ
  eTag : Str
  /-- calls made so far -/
  clock : Nat

structure DistributionEnv (ω β γ : Type) where
  /-- the ETag that an update leaves -/
  newETag : Nat → Str
  /-- the answer to a read has the field -/
  hasETag : Nat → Bool
  hasConfig : Nat → Bool
  fault : Nat → DistributionOp ω β γ → CallFault

def Distribution.tick (d : Distribution ω β γ) : Distribution ω β γ := { d with clock := d.clock + 1 }

section
variable (env : DistributionEnv ω β γ)

/-- A call that reaches the distribution. -/
def DistributionOp.exec (d : Distribution ω β γ) :
    (o : DistributionOp ω β γ) → Except Error o.Val × Distribution ω β γ
  | .getDistributionConfig =>
    (.ok (if env.hasETag d.clock then some d.eTag else none,
      if env.hasConfig d.clock then some d.config else none), d)
  | .updateDistribution ifMatch config =>
    if ifMatch = d.eTag then (.ok (), { d with config := config, eTag := env.newETag d.clock })
    else (.error (anyhow "PreconditionFailed".toList), d)

/-- One call. -/
def distributionStep :
    Handler (DistributionOp ω β γ) DistributionOp.Res (Distribution ω β γ) := fun o d =>
  match env.fault d.clock o with
  | .none => (some (o.exec env d).1, (o.exec env d).2.tick)
  | .failed true error => (some (.error error), (o.exec env d).2.tick)
  | .failed false error => (some (.error error), d.tick)
  | .dropped true => (none, (o.exec env d).2.tick)
  | .dropped false => (none, d.tick)

end

section
variable {env : DistributionEnv ω β γ} {d d' : Distribution ω β γ}

/-- A call that is answered has reached the distribution. -/
theorem run_distributionTry_ok {o : DistributionOp ω β γ} {v : o.Val}
    (h : run (distributionStep env) (distributionTry o) d = (.ok v, d')) :
    (o.exec env d).1 = .ok v ∧ d' = (o.exec env d).2.tick := by
  rw [distributionTry, run_bind, run_perform, distributionStep] at h
  cases hfault : env.fault d.clock o with
  | none =>
    simp only [hfault, run_ofExcept] at h
    cases hexec : (o.exec env d).1 with
    | ok v' =>
      rw [hexec] at h
      cases h
      exact ⟨rfl, rfl⟩
    | error e =>
      rw [hexec] at h
      cases h
  | failed ran error =>
    rw [hfault] at h
    cases ran <;> cases h
  | dropped ran =>
    rw [hfault] at h
    cases ran <;> cases h

/-- An update that names the ETag that is there. -/
theorem exec_updateDistribution (d : Distribution ω β γ) (config : DistributionConfig ω β γ) :
    DistributionOp.exec env d (.updateDistribution d.eTag config) =
      (.ok (), { d with config := config, eTag := env.newETag d.clock }) := if_pos rfl

/-- A reconciliation that returns has written the reconciled config. -/
theorem reconcileDistribution_ok {request : CdnDomainReconcileRequest} {result : CdnDomainReconcileResult}
    (h : run (distributionStep env) (reconcileDistribution request) d = (.ok result, d')) :
    reconcileDistributionConfig d.config request = .ok (d'.config, result) := by
  rw [reconcileDistribution] at h
  obtain ⟨response, d1, hread, h⟩ := run_bind_ok _ |>.mp h
  obtain ⟨etag, d2, hetag, h⟩ := run_bind_ok _ |>.mp h
  obtain ⟨config, d3, hconfig, h⟩ := run_bind_ok _ |>.mp h
  obtain ⟨reconciled, d4, hreconciled, h⟩ := run_bind_ok _ |>.mp h
  obtain ⟨u, d5, hwrite, h⟩ := run_bind_ok _ |>.mp h
  obtain ⟨hresponse, rfl⟩ := run_distributionTry_ok hread
  cases hresponse
  rw [run_ofExcept] at hetag hconfig hreconciled
  by_cases hhas : env.hasETag d.clock = true ∧ env.hasConfig d.clock = true
  · simp only [hhas.1, hhas.2, if_true, okOr] at hetag hconfig
    cases hetag
    cases hconfig
    cases hr : reconcileDistributionConfig d.config request with
    | error e =>
      rw [hr] at hreconciled
      cases hreconciled
    | ok r =>
      rw [hr] at hreconciled
      cases hreconciled
      obtain ⟨-, rfl⟩ := run_distributionTry_ok hwrite
      cases h
      have hwritten := @exec_updateDistribution ω β γ env d.tick reconciled.1
      show _ = Except.ok ((DistributionOp.exec env d.tick
        (.updateDistribution d.tick.eTag reconciled.1)).2.tick.config, reconciled.2)
      rw [hwritten]
      rfl
  · exfalso
    rcases not_and_or.mp hhas with hno | hno
    · simp only [if_neg hno, okOr] at hetag
      cases hetag
    · simp only [if_neg hno, okOr] at hconfig
      cases hconfig

end

theorem updateDefaultOriginDomain_aliases {config config' : DistributionConfig ω β γ} {originDomain : Str}
    (h : updateDefaultOriginDomain config originDomain = .ok config') : config'.aliases = config.aliases := by
  unfold updateDefaultOriginDomain at h
  split at h
  · cases h
    rfl
  · split at h
    · cases h
      rfl
    · cases h
      rfl

/-- The aliases that a reconciliation leaves. -/
theorem aliasNames_of_reconciled {config config' : DistributionConfig ω β γ}
    {request : CdnDomainReconcileRequest} {result : CdnDomainReconcileResult}
    (h : reconcileDistributionConfig config request = .ok (config', result)) :
    config'.aliasNames = (finalAliases config request).toList := by
  rw [reconcileDistributionConfig] at h
  by_cases hcertificate : (!request.desiredDomains.isEmpty && request.certificateArn.isNone) = true
  · rw [if_pos hcertificate] at h
    cases h
  · rw [if_neg hcertificate] at h
    have hbind {α β : Type} (a : α) (f : α → Except Error β) : (Except.ok a >>= f) = f a := rfl
    simp only [Aliases.build, hbind] at h
    generalize hupdate : updateDefaultOriginDomain _ request.originDomain = updated at h
    cases updated with
    | error e => cases h
    | ok config1 =>
      cases h
      rw [DistributionConfig.aliasNames, updateDefaultOriginDomain_aliases hupdate]
      cases (finalAliases config request).toList <;> rfl

end RenderMesh.Cdn
