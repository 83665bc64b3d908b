import RenderMesh.Cdn.Cloudflare

/-!
# CloudFront distribution config

`reconcile_distribution_config` of `src/src/repositories/cloudfront_cdn.rs`: the config of a
distribution, which others own, is read, its aliases, its certificate and the domain of its
default origin are set, and it is written back whole. What the function does not name of a
config, an origin or a cache behaviour is a parameter.

* `reconcile_exact`: what changes, what the counters say, and that nothing else changes.
* `reconcile_again`: a second run changes nothing.
-/
namespace RenderMesh.Cdn

open RenderMesh.Core RenderMesh.Mirror RenderMesh.Domains

/-! ## The config -/

structure Aliases where
  quantity : Int32
  items : Option (List Str)
  deriving DecidableEq

inductive SslSupportMethod where
  | sniOnly
  | other (name : Str)
  deriving DecidableEq

inductive MinimumProtocolVersion where
  | tlSv122021
  | other (name : Str)
  deriving DecidableEq

structure ViewerCertificate where
  cloudFrontDefaultCertificate : Option Bool
  iamCertificateId : Option Str
  acmCertificateArn : Option Str
  sslSupportMethod : Option SslSupportMethod
  minimumProtocolVersion : Option MinimumProtocolVersion
  certificate : Option Str
  certificateSource : Option Str
  deriving DecidableEq

structure Origin (ω : Type) where
  id : Str
  domainName : Str
  other : ω

structure Origins (ω : Type) where
  quantity : Int32
  items : List (Origin ω)

structure DefaultCacheBehavior (β : Type) where
  targetOriginId : Str
  other : β

structure DistributionConfig (ω β γ : Type) where
  aliases : Option Aliases
  origins : Option (Origins ω)
  defaultCacheBehavior : Option (DefaultCacheBehavior β)
  viewerCertificate : Option ViewerCertificate
  other : γ

variable {ω β γ : Type}

/-- The builder's `build`, which requires a quantity. -/
def Aliases.build (quantity : Option Int32) (items : Option (List Str)) : Except Error Aliases :=
  match quantity with
  | some quantity => .ok ⟨quantity, items⟩
  | none => .error (anyhow "`quantity` was not specified".toList)

/-- The builder's `build`, which requires a quantity and items. -/
def Origins.build (quantity : Option Int32) (items : Option (List (Origin ω))) :
    Except Error (Origins ω) :=
  match quantity, items with
  | some quantity, some items => .ok ⟨quantity, items⟩
  | _, _ => .error (anyhow "`quantity` or `items` was not specified".toList)

/-! ## The first element that meets a condition -/

section
variable {α : Type} {p : α → Bool} {g : α → α}

/-- The list with the first element that meets `p` replaced. -/
def replaceFirst (p : α → Bool) (g : α → α) (l : List α) : List α :=
  l.replaceF fun a => if p a then some (g a) else none

theorem replaceFirst_cons (a : α) (l : List α) :
    replaceFirst p g (a :: l) = if p a then g a :: l else a :: replaceFirst p g l := by
  cases h : p a <;> simp [replaceFirst, h]

theorem replaceFirst_none {l : List α} (h : ∀ a ∈ l, p a = false) : replaceFirst p g l = l := by
  induction l with
  | nil => rfl
  | cons a l ih =>
    rw [replaceFirst_cons, h a List.mem_cons_self, ih fun b hb => h b (List.mem_cons_of_mem a hb)]
    rfl

theorem replaceFirst_append {pre post : List α} {a : α} (hpre : ∀ b ∈ pre, p b = false)
    (ha : p a = true) : replaceFirst p g (pre ++ a :: post) = pre ++ g a :: post := by
  induction pre with
  | nil => rw [List.nil_append, replaceFirst_cons, if_pos ha, List.nil_append]
  | cons b pre ih =>
    rw [List.cons_append, replaceFirst_cons, hpre b List.mem_cons_self,
      ih fun c hc => hpre c (List.mem_cons_of_mem b hc)]
    rfl

/-- Either nothing meets the condition, or the list splits at the first element that does. -/
theorem first_cases (p : α → Bool) (l : List α) :
    (∀ a ∈ l, p a = false) ∨
      ∃ pre a post, l = pre ++ a :: post ∧ (∀ b ∈ pre, p b = false) ∧ p a = true := by
  cases h : l.find? p with
  | none => exact Or.inl (by simpa using h)
  | some a =>
    obtain ⟨ha, pre, post, hl, hpre⟩ := List.find?_eq_some_iff_append.mp h
    exact Or.inr ⟨pre, a, post, hl, by simpa using hpre, ha⟩

theorem length_replaceFirst (l : List α) : (replaceFirst p g l).length = l.length := by
  obtain h | ⟨pre, a, post, rfl, hpre, ha⟩ := first_cases p l
  · rw [replaceFirst_none h]
  · rw [replaceFirst_append hpre ha]
    simp

theorem replaceFirst_again (hp : ∀ a, p (g a) = p a) (hg : ∀ a, g (g a) = g a) (l : List α) :
    replaceFirst p g (replaceFirst p g l) = replaceFirst p g l := by
  obtain h | ⟨pre, a, post, rfl, hpre, ha⟩ := first_cases p l
  · rw [replaceFirst_none h, replaceFirst_none h]
  · rw [replaceFirst_append hpre ha, replaceFirst_append hpre ((hp a).trans ha), hg]

end

/-! ## The code -/

/-- The origin that the default behaviour asks, and any origin where there is no such behaviour. -/
def isDefaultOrigin (behavior : Option (DefaultCacheBehavior β)) (origin : Origin ω) : Bool :=
  (behavior.map fun behavior => behavior.targetOriginId).all
    fun targetOriginId => origin.id = targetOriginId

def withDomain (originDomain : Str) (origin : Origin ω) : Origin ω :=
  { origin with domainName := originDomain }

/-- mirrors src/src/repositories/cloudfront_cdn.rs:184-211 -/
def updateDefaultOriginDomain (config : DistributionConfig ω β γ) (originDomain : Str) :
    Except Error (DistributionConfig ω β γ) :=
  match config.origins with
  | none => .ok config
  | some origins =>
    match origins.items.find? (isDefaultOrigin config.defaultCacheBehavior) with
    | none => .ok config
    | some _ => do
      let items := replaceFirst (isDefaultOrigin config.defaultCacheBehavior)
        (withDomain originDomain) origins.items
      let rebuilt ← Origins.build (some (Int32.ofNat items.length)) (some items)
      pure { config with origins := some rebuilt }

/-- The certificate of a request in a config. -/
def viewerCertificateFor (certificateArn : Str) : ViewerCertificate where
  cloudFrontDefaultCertificate := some false
  iamCertificateId := none
  acmCertificateArn := some certificateArn
  sslSupportMethod := some .sniOnly
  minimumProtocolVersion := some .tlSv122021
  certificate := none
  certificateSource := none

def existingAliases (config : DistributionConfig ω β γ) : Hosts :=
  (config.aliases.map fun aliases => .ofList (aliases.items.getD [])).getD ∅

def finalAliases (config : DistributionConfig ω β γ) (request : CdnDomainReconcileRequest) : Hosts :=
  if request.removeExtraDomains then request.desiredDomains
  else existingAliases config ∪ request.desiredDomains

/-- mirrors src/src/repositories/cloudfront_cdn.rs:121-182 -/
def reconcileDistributionConfig (config : DistributionConfig ω β γ)
    (request : CdnDomainReconcileRequest) :
    Except Error (DistributionConfig ω β γ × CdnDomainReconcileResult) := do
  if !request.desiredDomains.isEmpty && request.certificateArn.isNone then
    throw (anyhow "CloudFront domain reconciliation requires certificate_arn".toList)
  let existing := existingAliases config
  let desired := request.desiredDomains
  let aliases := (finalAliases config request).toList
  let built ← Aliases.build (some (Int32.ofNat aliases.length))
    (if aliases.isEmpty then none else some aliases)
  let config := { config with
    aliases := some built
    viewerCertificate := match request.certificateArn with
      | some certificateArn => some (viewerCertificateFor certificateArn)
      | none => config.viewerCertificate }
  let config ← updateDefaultOriginDomain config request.originDomain
  return (config, {
    provider := "cloudfront".toList
    status := "submitted".toList
    added := (desired \ existing).size
    updated := 0
    removed := if request.removeExtraDomains then (existing \ desired).size else 0
    unchanged := (desired ∩ existing).size })

/-! ## What a run does -/

/-- The aliases of a config as they are listed. -/
def DistributionConfig.aliasNames (config : DistributionConfig ω β γ) : List Str :=
  (config.aliases.bind fun aliases => aliases.items).getD []

/-- The quantities are the lengths of their lists, no alias is there twice, and there are fewer
than `2 ^ 31` aliases and origins. -/
structure DistributionConfig.WellFormed (config : DistributionConfig ω β γ) : Prop where
  aliasQuantity : ∀ aliases ∈ config.aliases, aliases.quantity.toInt = config.aliasNames.length
  aliasesDistinct : config.aliasNames.Nodup
  aliasesFit : config.aliasNames.length < 2 ^ 31
  originQuantity : ∀ origins ∈ config.origins, origins.quantity.toInt = origins.items.length
  originsFit : ∀ origins ∈ config.origins, origins.items.length < 2 ^ 31

variable {config config' : DistributionConfig ω β γ} {request : CdnDomainReconcileRequest}
  {result : CdnDomainReconcileResult}

theorem existingAliases_eq (config : DistributionConfig ω β γ) :
    existingAliases config = .ofList config.aliasNames := by
  rw [existingAliases, DistributionConfig.aliasNames]
  cases config.aliases <;> rfl

theorem mem_existingAliases {domain : Str} :
    domain ∈ existingAliases config ↔ domain ∈ config.aliasNames := by
  rw [existingAliases_eq, Std.ExtTreeSet.mem_ofList, List.contains_iff_mem]

theorem size_ofList_of_nodup {l : List Str} (h : l.Nodup) :
    (Std.ExtTreeSet.ofList l : Hosts).size = l.length :=
  Std.ExtTreeSet.size_ofList (h.imp fun hne heq => hne (Std.LawfulEqCmp.eq_of_compare heq))

/-- A size survives the cast to `i32` exactly if it fits. -/
theorem toInt_ofNat_iff {n : Nat} : (Int32.ofNat n).toInt = n ↔ n < 2 ^ 31 := by
  constructor
  · intro h
    have hlt := Int32.toInt_lt (Int32.ofNat n)
    omega
  · exact Int32.toInt_ofNat_of_lt

theorem ofNat_of_toInt {q : Int32} {n : Nat} (hq : q.toInt = n) (h : n < 2 ^ 31) : Int32.ofNat n = q :=
  Int32.toInt.inj ((toInt_ofNat_iff.mpr h).trans hq.symm)

/-- The origins with the domain of the default one set. -/
def Origins.reconciled (behavior : Option (DefaultCacheBehavior β)) (originDomain : Str)
    (origins : Origins ω) : Origins ω :=
  { origins with
    items := replaceFirst (isDefaultOrigin behavior) (withDomain originDomain) origins.items }

theorem updateDefaultOriginDomain_eq (hconfig : ∀ origins ∈ config.origins,
      Int32.ofNat origins.items.length = origins.quantity) (originDomain : Str) :
    updateDefaultOriginDomain config originDomain =
      .ok { config with
        origins := config.origins.map (.reconciled config.defaultCacheBehavior originDomain) } := by
  obtain ⟨aliases, origins, behavior, certificate, other⟩ := config
  cases origins with
  | none => rfl
  | some origins =>
    rw [updateDefaultOriginDomain]
    dsimp only
    split
    · rename_i hnone
      have hnone := List.find?_eq_none.mp hnone
      have hitems := replaceFirst_none (g := withDomain originDomain) fun a ha =>
        Bool.not_eq_true _ ▸ hnone a ha
      simp only [Option.map_some, Origins.reconciled, hitems]
    · simp only [Origins.build, length_replaceFirst, hconfig origins rfl]
      rfl

/-- The aliases that a run writes. -/
def aliasesOf (hosts : Hosts) : Aliases where
  quantity := Int32.ofNat hosts.toList.length
  items := if hosts.toList.isEmpty then none else some hosts.toList

/-- The config that a run leaves. -/
def DistributionConfig.reconciled (config : DistributionConfig ω β γ)
    (request : CdnDomainReconcileRequest) : DistributionConfig ω β γ where
  aliases := some (aliasesOf (finalAliases config request))
  origins := config.origins.map (.reconciled config.defaultCacheBehavior request.originDomain)
  defaultCacheBehavior := config.defaultCacheBehavior
  viewerCertificate := match request.certificateArn with
    | some certificateArn => some (viewerCertificateFor certificateArn)
    | none => config.viewerCertificate
  other := config.other

def countsOf (existing : Hosts) (request : CdnDomainReconcileRequest) : CdnDomainReconcileResult where
  provider := "cloudfront".toList
  status := "submitted".toList
  added := (request.desiredDomains \ existing).size
  updated := 0
  removed := if request.removeExtraDomains then (existing \ request.desiredDomains).size else 0
  unchanged := (request.desiredDomains ∩ existing).size

/-- A run fails only where hosts are desired and there is no certificate for them. -/
theorem reconcileDistributionConfig_eq (hconfig : ∀ origins ∈ config.origins,
      Int32.ofNat origins.items.length = origins.quantity) (request : CdnDomainReconcileRequest) :
    reconcileDistributionConfig config request =
      if !request.desiredDomains.isEmpty && request.certificateArn.isNone then
        .error (anyhow "CloudFront domain reconciliation requires certificate_arn".toList)
      else .ok (config.reconciled request, countsOf (existingAliases config) request) := by
  rw [reconcileDistributionConfig]
  split
  · rfl
  · have hbind {α : Type} (a : α) (f : α → Except Error (DistributionConfig ω β γ × CdnDomainReconcileResult)) :
        (Except.ok a >>= f) = f a := rfl
    simp only [Aliases.build, hbind]
    rw [updateDefaultOriginDomain_eq (by exact hconfig), hbind]
    rfl

theorem DistributionConfig.WellFormed.quantities (hconfig : config.WellFormed) :
    ∀ origins ∈ config.origins, Int32.ofNat origins.items.length = origins.quantity :=
  fun origins h => ofNat_of_toInt (hconfig.originQuantity origins h) (hconfig.originsFit origins h)

theorem quantities_reconciled (hconfig : ∀ origins ∈ config.origins,
      Int32.ofNat origins.items.length = origins.quantity) (request : CdnDomainReconcileRequest) :
    ∀ origins ∈ (config.reconciled request).origins,
      Int32.ofNat origins.items.length = origins.quantity := by
  intro origins h
  obtain ⟨origins, horigins, rfl⟩ := Option.map_eq_some_iff.mp h
  rw [Origins.reconciled, length_replaceFirst]
  exact hconfig origins horigins

theorem reconcileDistributionConfig_ok (hconfig : ∀ origins ∈ config.origins,
      Int32.ofNat origins.items.length = origins.quantity)
    (h : reconcileDistributionConfig config request = .ok (config', result)) :
    (!request.desiredDomains.isEmpty && request.certificateArn.isNone) = false ∧
      config' = config.reconciled request ∧ result = countsOf (existingAliases config) request := by
  rw [reconcileDistributionConfig_eq hconfig] at h
  split at h
  · cases h
  · rename_i hcertificate
    cases h
    exact ⟨Bool.not_eq_true _ ▸ hcertificate, rfl, rfl⟩

/-! ### The aliases -/

theorem aliasNames_reconciled (config : DistributionConfig ω β γ) (request : CdnDomainReconcileRequest) :
    (config.reconciled request).aliasNames = (finalAliases config request).toList := by
  unfold DistributionConfig.aliasNames DistributionConfig.reconciled aliasesOf
  cases (finalAliases config request).toList <;> rfl

theorem existingAliases_reconciled (config : DistributionConfig ω β γ)
    (request : CdnDomainReconcileRequest) :
    existingAliases (config.reconciled request) = finalAliases config request := by
  apply Std.ExtTreeSet.ext_mem
  intro domain
  rw [mem_existingAliases, aliasNames_reconciled, Std.ExtTreeSet.mem_toList]

theorem mem_finalAliases {domain : Str} : domain ∈ finalAliases config request ↔
    domain ∈ request.desiredDomains ∨
      request.removeExtraDomains = false ∧ domain ∈ config.aliasNames := by
  rw [finalAliases]
  cases request.removeExtraDomains
  · simp [Std.ExtTreeSet.mem_union_iff, mem_existingAliases, or_comm]
  · simp

theorem finalAliases_again (config : DistributionConfig ω β γ) (request : CdnDomainReconcileRequest) :
    finalAliases (config.reconciled request) request = finalAliases config request := by
  apply Std.ExtTreeSet.ext_mem
  intro domain
  rw [mem_finalAliases, aliasNames_reconciled, Std.ExtTreeSet.mem_toList, mem_finalAliases]
  tauto

/-! ### The counters -/

section
variable (existing : Hosts) (request : CdnDomainReconcileRequest)

theorem size_diff_add (a b : Hosts) : (a \ b).size + (a ∩ b).size = a.size :=
  Std.ExtTreeSet.size_diff_add_size_inter_eq_size_left

theorem size_inter_comm (a b : Hosts) : (a ∩ b).size = (b ∩ a).size := by
  have h : a ∩ b = b ∩ a := Std.ExtTreeSet.ext_mem fun domain => by
    rw [Std.ExtTreeSet.mem_inter_iff, Std.ExtTreeSet.mem_inter_iff, and_comm]
  rw [h]

theorem size_diff_of_subset {a b : Hosts} (h : ∀ domain ∈ a, domain ∈ b) : (a \ b).size = 0 := by
  have hinter : (a ∩ b).size = a.size := Std.ExtTreeSet.size_inter_eq_size_left h
  exact Nat.add_eq_right.mp ((size_diff_add a b).trans hinter.symm)

theorem countsOf_desired :
    (countsOf existing request).added + (countsOf existing request).unchanged =
      request.desiredDomains.size :=
  size_diff_add request.desiredDomains existing

theorem size_union_add (a b : Hosts) : (a ∪ b).size + (a ∩ b).size = a.size + b.size :=
  Std.ExtTreeSet.size_add_size_eq_size_union_add_size_inter.symm

theorem size_add_diff (a b : Hosts) : a.size + (b \ a).size = (a ∪ b).size := by
  have hdiff := size_diff_add b a
  have hcomm := size_inter_comm a b
  have hunion := size_union_add a b
  omega

theorem size_exchange (a b : Hosts) : a.size + (b \ a).size = b.size + (a \ b).size := by
  have hleft := size_diff_add a b
  have hright := size_diff_add b a
  have hcomm := size_inter_comm a b
  omega

theorem countsOf_total (hexisting : existingAliases config = existing) :
    existing.size + (countsOf existing request).added =
      (finalAliases config request).size + (countsOf existing request).removed := by
  unfold finalAliases countsOf
  by_cases hr : request.removeExtraDomains = true
  · rw [if_pos hr, if_pos hr]
    exact size_exchange existing request.desiredDomains
  · rw [if_neg hr, if_neg hr, hexisting]
    exact size_add_diff existing request.desiredDomains

/-- Nothing is added to aliases that have the desired ones, or removed from those that have no
others. -/
theorem countsOf_settled (hdesired : ∀ domain ∈ request.desiredDomains, domain ∈ existing)
    (hextra : request.removeExtraDomains = true →
      ∀ domain ∈ existing, domain ∈ request.desiredDomains) :
    countsOf existing request = {
      provider := "cloudfront".toList, status := "submitted".toList
      added := 0, updated := 0, removed := 0, unchanged := request.desiredDomains.size } := by
  have hunchanged : (request.desiredDomains ∩ existing).size = request.desiredDomains.size :=
    Std.ExtTreeSet.size_inter_eq_size_left hdesired
  unfold countsOf
  rw [size_diff_of_subset hdesired, hunchanged]
  by_cases hr : request.removeExtraDomains = true
  · rw [if_pos hr, size_diff_of_subset (hextra hr)]
  · rw [if_neg hr]

end

/-! ### The whole run -/

/-- The origin that the default behaviour names; any where there is no such behaviour. -/
def DistributionConfig.Default (config : DistributionConfig ω β γ) (origin : Origin ω) : Prop :=
  ∀ behavior ∈ config.defaultCacheBehavior, origin.id = behavior.targetOriginId

/-- Of the origins only the first default one gets another domain. -/
inductive OriginMoved (config : DistributionConfig ω β γ) (originDomain : Str) :
    List (Origin ω) → List (Origin ω) → Prop where
  | absent {items : List (Origin ω)} (h : ∀ origin ∈ items, ¬ config.Default origin) :
    OriginMoved config originDomain items items
  | first {before after : List (Origin ω)} {origin : Origin ω}
    (hbefore : ∀ other ∈ before, ¬ config.Default other) (hdefault : config.Default origin) :
    OriginMoved config originDomain (before ++ origin :: after)
      (before ++ { origin with domainName := originDomain } :: after)

/-- What a run that returns has done to a config. -/
structure Reconciled (config : DistributionConfig ω β γ) (request : CdnDomainReconcileRequest)
    (config' : DistributionConfig ω β γ) (result : CdnDomainReconcileResult) : Prop where
  aliases : ∀ domain, domain ∈ config'.aliasNames ↔ domain ∈ request.desiredDomains ∨
    request.removeExtraDomains = false ∧ domain ∈ config.aliasNames
  distinct : config'.aliasNames.Nodup
  /-- the size, cast to `i32` -/
  quantity : ∃ aliases, config'.aliases = some aliases ∧
    aliases.quantity = Int32.ofNat config'.aliasNames.length
  quantityFits : (∀ aliases ∈ config'.aliases, aliases.quantity.toInt = config'.aliasNames.length) ↔
    config'.aliasNames.length < 2 ^ 31
  desired : result.added + result.unchanged = request.desiredDomains.size
  total : config.aliasNames.length + result.added = config'.aliasNames.length + result.removed
  certificate : ∀ certificateArn ∈ request.certificateArn,
    config'.viewerCertificate = some (viewerCertificateFor certificateArn)
  certificateKept : request.certificateArn = none →
    config'.viewerCertificate = config.viewerCertificate
  noOrigins : config.origins = none → config'.origins = none
  origins : ∀ origins ∈ config.origins, ∃ origins' ∈ config'.origins,
    origins'.quantity = origins.quantity ∧
      OriginMoved config request.originDomain origins.items origins'.items
  defaultCacheBehavior : config'.defaultCacheBehavior = config.defaultCacheBehavior
  other : config'.other = config.other
  again : reconcileDistributionConfig config' request = .ok (config', {
    provider := result.provider, status := result.status
    added := 0, updated := 0, removed := 0, unchanged := request.desiredDomains.size })

theorem isDefaultOrigin_iff {origin : Origin ω} :
    isDefaultOrigin config.defaultCacheBehavior origin = true ↔ config.Default origin := by
  rw [isDefaultOrigin, DistributionConfig.Default]
  cases config.defaultCacheBehavior <;> simp

theorem isDefaultOrigin_false {origin : Origin ω} :
    isDefaultOrigin config.defaultCacheBehavior origin = false ↔ ¬ config.Default origin := by
  rw [← isDefaultOrigin_iff, Bool.not_eq_true]

theorem originMoved_replaceFirst (config : DistributionConfig ω β γ) (originDomain : Str)
    (items : List (Origin ω)) : OriginMoved config originDomain items
      (replaceFirst (isDefaultOrigin config.defaultCacheBehavior) (withDomain originDomain) items) := by
  obtain h | ⟨before, origin, after, rfl, hbefore, hdefault⟩ :=
    first_cases (isDefaultOrigin config.defaultCacheBehavior) items
  · rw [replaceFirst_none h]
    exact .absent fun origin horigin => isDefaultOrigin_false.mp (h origin horigin)
  · rw [replaceFirst_append hbefore hdefault]
    exact .first (fun other hother => isDefaultOrigin_false.mp (hbefore other hother))
      (isDefaultOrigin_iff.mp hdefault)

theorem Origins.reconciled_again (behavior : Option (DefaultCacheBehavior β)) (originDomain : Str)
    (origins : Origins ω) : (origins.reconciled behavior originDomain).reconciled behavior originDomain =
      origins.reconciled behavior originDomain := by
  have hitems := @replaceFirst_again _ (isDefaultOrigin behavior) (withDomain (ω := ω) originDomain)
    (fun _ => rfl) (fun _ => rfl) origins.items
  rw [Origins.reconciled, Origins.reconciled, hitems]

theorem reconciled_again (config : DistributionConfig ω β γ) (request : CdnDomainReconcileRequest) :
    (config.reconciled request).reconciled request = config.reconciled request := by
  have haliases := finalAliases_again config request
  have horigins : Origins.reconciled config.defaultCacheBehavior request.originDomain ∘
        Origins.reconciled (ω := ω) config.defaultCacheBehavior request.originDomain =
      Origins.reconciled config.defaultCacheBehavior request.originDomain :=
    funext fun origins => origins.reconciled_again config.defaultCacheBehavior request.originDomain
  apply DistributionConfig.mk.injEq .. |>.mpr
  refine ⟨congrArg (fun hosts => some (aliasesOf hosts)) haliases, ?_, rfl, ?_, rfl⟩
  · exact (Option.map_map ..).trans (congrArg (Option.map · config.origins) horigins)
  · cases hcertificate : request.certificateArn <;> simp [DistributionConfig.reconciled, hcertificate]

/-- A run sets the aliases, the certificate and the domain of the default origin, counts what it
did, leaves the rest, and has nothing to do a second time. -/
theorem reconcile_exact (hconfig : config.WellFormed)
    (h : reconcileDistributionConfig config request = .ok (config', result)) :
    Reconciled config request config' result := by
  obtain ⟨hcertificate, rfl, rfl⟩ := reconcileDistributionConfig_ok hconfig.quantities h
  have hnames := aliasNames_reconciled config request
  have hlength : (config.reconciled request).aliasNames.length = (finalAliases config request).size := by
    rw [hnames, Std.ExtTreeSet.length_toList]
  have hexisting : (existingAliases config).size = config.aliasNames.length := by
    rw [existingAliases_eq, size_ofList_of_nodup hconfig.aliasesDistinct]
  constructor
  case aliases =>
    intro domain
    rw [hnames, Std.ExtTreeSet.mem_toList, mem_finalAliases]
  case distinct =>
    rw [hnames]
    refine Std.ExtTreeSet.distinct_toList.imp ?_
    rintro a b hne rfl
    exact hne Std.ReflCmp.compare_self
  case quantity =>
    rw [hnames]
    exact ⟨aliasesOf (finalAliases config request), rfl, rfl⟩
  case quantityFits =>
    rw [hnames, ← toInt_ofNat_iff]
    exact ⟨fun hquantity => hquantity (aliasesOf (finalAliases config request)) rfl,
      fun hquantity aliases haliases => Option.some.inj haliases ▸ hquantity⟩
  case desired => exact countsOf_desired (existingAliases config) request
  case total =>
    rw [hlength, ← hexisting]
    exact countsOf_total (existingAliases config) request rfl
  case certificate =>
    intro certificateArn harn
    rw [DistributionConfig.reconciled, Option.mem_def.mp harn]
  case certificateKept =>
    intro hnone
    rw [DistributionConfig.reconciled, hnone]
  case noOrigins =>
    intro hnone
    rw [DistributionConfig.reconciled, hnone]
    rfl
  case origins =>
    intro origins horigins
    refine ⟨origins.reconciled config.defaultCacheBehavior request.originDomain, ?_, rfl,
      originMoved_replaceFirst config request.originDomain origins.items⟩
    rw [DistributionConfig.reconciled, Option.mem_def.mp horigins]
    rfl
  case defaultCacheBehavior => rfl
  case other => rfl
  case again =>
    have hsettled := countsOf_settled (finalAliases config request) request
      (fun domain hdomain => mem_finalAliases.mpr (Or.inl hdomain)) fun hremove domain hdomain =>
        (mem_finalAliases.mp hdomain).resolve_right fun hkept => by simp [hremove] at hkept
    rw [reconcileDistributionConfig_eq (quantities_reconciled hconfig.quantities request),
      hcertificate, reconciled_again, existingAliases_reconciled, hsettled]
    rfl

/-- A distribution with one alias of its own and two origins, the second of them asked. -/
def wwwConfig : DistributionConfig Unit Unit Unit where
  aliases := some ⟨1, some ["old.example.com".toList]⟩
  origins := some ⟨2, [⟨"assets".toList, "assets.example.com".toList, ()⟩,
    ⟨"pages".toList, "old-origin.example.com".toList, ()⟩]⟩
  defaultCacheBehavior := some ⟨"pages".toList, ()⟩
  viewerCertificate := none
  other := ()

theorem wwwConfig_wellFormed : wwwConfig.WellFormed where
  aliasQuantity := by
    intro aliases h
    obtain rfl := Option.some.inj h
    rfl
  aliasesDistinct := List.nodup_singleton _
  aliasesFit := by decide
  originQuantity := by
    intro origins h
    obtain rfl := Option.some.inj h
    rfl
  originsFit := by
    intro origins h
    obtain rfl := Option.some.inj h
    decide

def wwwRequest (desiredDomains : Hosts) : CdnDomainReconcileRequest where
  originId := "web".toList
  desiredDomains := desiredDomains
  originDomain := "rendermesh.example.com".toList
  certificateArn := some "arn:aws:acm:us-east-1:123:certificate/abc".toList
  proxied := false
  removeExtraDomains := false

theorem wwwConfig_ok (desiredDomains : Hosts) :
    reconcileDistributionConfig wwwConfig (wwwRequest desiredDomains) =
      .ok (wwwConfig.reconciled (wwwRequest desiredDomains),
        countsOf (existingAliases wwwConfig) (wwwRequest desiredDomains)) := by
  rw [reconcileDistributionConfig_eq wwwConfig_wellFormed.quantities]
  simp [wwwRequest]

theorem reconcile_exact_www : wwwConfig.WellFormed ∧
    Reconciled wwwConfig (wwwRequest (.ofList ["new.example.com".toList]))
      (wwwConfig.reconciled (wwwRequest (.ofList ["new.example.com".toList])))
      (countsOf (existingAliases wwwConfig) (wwwRequest (.ofList ["new.example.com".toList]))) :=
  ⟨wwwConfig_wellFormed, reconcile_exact wwwConfig_wellFormed (wwwConfig_ok _)⟩

/-! ## More aliases than an `i32` counts -/

/-- `n` hosts, numbered: `0.example.com`, `1.example.com` and so on. -/
def hostsBelow (n : Nat) : Hosts :=
  .ofList ((List.range n).map fun i => showNat i ++ ".example.com".toList)

theorem size_hostsBelow (n : Nat) : (hostsBelow n).size = n := by
  have hnodup : ((List.range n).map fun i => showNat i ++ ".example.com".toList).Nodup :=
    List.nodup_range.map fun i j h => showNat_injective (List.append_cancel_right h)
  rw [hostsBelow, size_ofList_of_nodup hnodup]
  simp

theorem quantity_wrong {hosts : Hosts} (h : 2 ^ 31 ≤ hosts.size) :
    ¬ ∀ aliases ∈ (wwwConfig.reconciled (wwwRequest hosts)).aliases,
      aliases.quantity.toInt = (wwwConfig.reconciled (wwwRequest hosts)).aliasNames.length := by
  intro hquantity
  have hfits := hquantity (aliasesOf (finalAliases wwwConfig (wwwRequest hosts))) rfl
  rw [aliasNames_reconciled, aliasesOf, toInt_ofNat_iff, Std.ExtTreeSet.length_toList] at hfits
  have hle : hosts.size ≤ (existingAliases wwwConfig ∪ hosts).size :=
    Std.ExtTreeSet.size_right_le_size_union
  exact absurd (h.trans hle) (Nat.not_le.mpr hfits)

/-- With `2 ^ 31` desired hosts the quantity that is written is not the number of aliases. -/
theorem quantity_wraps : ∃ config' result, wwwConfig.WellFormed ∧
    reconcileDistributionConfig wwwConfig (wwwRequest (hostsBelow (2 ^ 31))) = .ok (config', result) ∧
      ¬ ∀ aliases ∈ config'.aliases, aliases.quantity.toInt = config'.aliasNames.length :=
  ⟨_, _, wwwConfig_wellFormed, wwwConfig_ok (hostsBelow (2 ^ 31)),
    quantity_wrong (size_hostsBelow (2 ^ 31)).ge⟩

end RenderMesh.Cdn
