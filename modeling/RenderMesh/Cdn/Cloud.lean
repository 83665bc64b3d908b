import RenderMesh.Cdn.Saas
import RenderMesh.Core.Versions

/-!
# The CloudFront service

What the calls of the SaaS client do: a map of tenants by their ids, in which a domain belongs
to one tenant, with an ETag for each write of a tenant and an `If-Match` update. A managed
certificate that was requested is found by later lookups.

The surroundings of a run are a `SaasEnv`, read by the number of calls made so far: what other
writers do before a call, the calls that fail (before they had their effect, or with their
answer lost), the pages of the listing and the replies to invalidations.
-/
namespace RenderMesh.Cdn

open RenderMesh.Core

/-- The tenants and their managed certificates: the validation host of each, if it is known. -/
structure Cloud where
  store : Store Str DistributionTenant Str (fun tenant domain => domain ∈ tenant.domains)
  ids : ∀ id v, store.entry id = some v → v.value.id = id
  certificates : Str → Option (Option Str)
  /-- calls made so far -/
  clock : Nat

namespace Cloud

def tick (c : Cloud) : Cloud := { c with clock := c.clock + 1 }

/-- No other tenant has one of the domains. -/
def free (c : Cloud) (tenant : DistributionTenant) : Bool :=
  tenant.domains.toList.all fun domain => (c.store.owner domain).all (· = tenant.id)

theorem free_iff {c : Cloud} {tenant : DistributionTenant} :
    c.free tenant = true ↔ c.store.Free tenant.id tenant := by
  simp only [free, List.all_eq_true, Std.ExtTreeSet.mem_toList, Option.all_eq_true, decide_eq_true_eq,
    Store.Free]

/-- A write of a tenant. -/
def put (c : Cloud) (tenant : DistributionTenant) (h : c.free tenant = true) : Cloud where
  store := c.store.put tenant.id tenant (free_iff.mp h)
  ids := by
    intro id v hv
    by_cases hid : id = tenant.id
    · subst hid
      rw [Store.put_entry_self] at hv
      cases hv
      rfl
    · rw [Store.put_entry_ne _ hid] at hv
      exact c.ids id v hv
  certificates := c.certificates
  clock := c.clock

def remove (c : Cloud) (id : Str) : Cloud where
  store := c.store.remove id
  ids := by
    intro id' v hv
    by_cases hid : id' = id
    · subst hid
      rw [Store.remove_entry_self] at hv
      cases hv
    · exact c.ids id' v ((Function.update_of_ne hid ..).symm.trans hv)
  certificates := c.certificates
  clock := c.clock

/-- A managed certificate is requested with a write, or none. -/
def requestCertificate (c : Cloud) (id : Str) (request : Option ManagedCertificateRequest) : Cloud :=
  match request with
  | none => c
  | some request =>
    { c with certificates := Function.update c.certificates id (some (some request.validationTokenHost)) }

def lookupCertificate (c : Cloud) (id : Str) : ManagedCertificateLookup :=
  match c.certificates id with
  | some host => .found host
  | none => .notFound

end Cloud

/-- What another writer does. -/
inductive CloudWrite where
  | put (tenant : DistributionTenant)
  | remove (id : Str)
  | certificate (id : Str) (host : Option (Option Str))

/-- Another writer's write; one that would take a domain from its owner is refused. -/
def CloudWrite.apply (c : Cloud) : CloudWrite → Cloud
  | .put tenant => if h : c.free tenant = true then c.put tenant h else c
  | .remove id => c.remove id
  | .certificate id host => { c with certificates := Function.update c.certificates id host }

/-- What becomes of a call besides its answer. -/
inductive CallFault where
  | none
  /-- the caller gets an error; `ran` when the call had its effect -/
  | failed (ran : Bool) (error : Error)
  /-- the caller goes away -/
  | dropped (ran : Bool)

structure SaasEnv where
  etag : Str → Nat → Str
  /-- every write of a tenant changes its ETag -/
  etag_injective : ∀ id, Function.Injective (etag id)
  /-- the id of a tenant that is created -/
  newId : Nat → Str
  /-- the connection group of a tenant that is created without one -/
  newGroup : Nat → Option Str
  outside : Nat → Cloud → List CloudWrite
  fault : Nat → SaasOp → CallFault
  page : Nat → Option Str → Except Error DistributionTenantPage
  invalidate : Nat → TenantInvalidationRequest → Except Error Str

section
variable (env : SaasEnv)

/-- The tenant that a request creates. -/
def createdTenant (n : Nat) (request : CreateDistributionTenantRequest) : DistributionTenant where
  id := env.newId n
  name := request.name
  distributionId := request.distributionId
  domains := request.domains
  connectionGroupId := request.connectionGroupId.or (env.newGroup n)
  parameters := request.parameters
  customizations := none
  enabled := some request.enabled

/-- A call that reaches the service. -/
def SaasOp.exec (c : Cloud) : (o : SaasOp) → Except Error o.Val × Cloud
  | .getDistributionTenantByDomain domain =>
    (.ok ((c.store.owner domain).bind fun id => (c.store.entry id).map (·.value)), c)
  | .getDistributionTenant id =>
    match c.store.entry id with
    | some v => (.ok ⟨v.value, env.etag id v.version⟩, c)
    | none => (.error (anyhow "EntityNotFound".toList), c)
  | .getManagedCertificate id => (.ok (c.lookupCertificate id), c)
  | .listDistributionTenants _ marker => (env.page c.clock marker, c)
  | .createDistributionTenant request =>
    let tenant := createdTenant env c.clock request
    if h : (c.store.entry tenant.id).isNone = true ∧ c.free tenant = true then
      (.ok tenant, (c.put tenant h.2).requestCertificate tenant.id request.managedCertificate)
    else (.error (anyhow "CNAMEAlreadyExists".toList), c)
  | .updateDistributionTenant request =>
    match c.store.entry request.id with
    | none => (.error (anyhow "EntityNotFound".toList), c)
    | some v =>
      if env.etag request.id v.version = request.ifMatch then
        let tenant := { request.tenant with id := request.id, name := v.value.name }
        if h : c.free tenant = true then
          (.ok tenant, (c.put tenant h).requestCertificate request.id request.managedCertificate)
        else (.error (anyhow "CNAMEAlreadyExists".toList), c)
      else (.error (anyhow "PreconditionFailed".toList), c)
  | .createInvalidation request => (env.invalidate c.clock request, c)

/-- The service when a call arrives. -/
def SaasEnv.arrives (c : Cloud) : Cloud := (env.outside c.clock c).foldl CloudWrite.apply c

/-- One call. -/
def saasStep : Handler SaasOp SaasOp.Res Cloud := fun o c =>
  let c := env.arrives c
  match env.fault c.clock o with
  | .none => (some (o.exec env c).1, (o.exec env c).2.tick)
  | .failed true error => (some (.error error), (o.exec env c).2.tick)
  | .failed false error => (some (.error error), c.tick)
  | .dropped true => (none, (o.exec env c).2.tick)
  | .dropped false => (none, c.tick)

end

/-! ## The service between calls -/

/-- Other writers do nothing. -/
def Alone (env : SaasEnv) : Prop := ∀ n c, env.outside n c = []

theorem arrives_alone {env : SaasEnv} (h : Alone env) (c : Cloud) : env.arrives c = c := by
  rw [SaasEnv.arrives, h]
  rfl

theorem later_apply (c : Cloud) (write : CloudWrite) : Store.Later c.store (write.apply c).store := by
  cases write with
  | put tenant =>
    rw [CloudWrite.apply]
    split
    · rename_i h
      exact Store.later_put (Cloud.free_iff.mp h)
    · exact Store.Later.refl _
  | remove id => exact Store.later_remove id
  | certificate id host => exact Store.Later.refl _

theorem later_arrives (env : SaasEnv) (c : Cloud) : Store.Later c.store (env.arrives c).store := by
  unfold SaasEnv.arrives
  generalize env.outside c.clock c = writes
  induction writes generalizing c with
  | nil => exact Store.Later.refl _
  | cons write writes ih => exact (later_apply c write).trans (ih _)

@[simp] theorem requestCertificate_store (c : Cloud) (id : Str)
    (request : Option ManagedCertificateRequest) : (c.requestCertificate id request).store = c.store := by
  cases request <;> rfl

theorem put_entry_self {c : Cloud} {tenant : DistributionTenant} (h : c.free tenant = true) :
    (c.put tenant h).store.entry tenant.id = some ⟨c.store.writes + 1, tenant⟩ :=
  Store.put_entry_self (Cloud.free_iff.mp h)

theorem put_entry_ne {c : Cloud} {tenant : DistributionTenant} (h : c.free tenant = true) {id : Str}
    (hne : id ≠ tenant.id) : (c.put tenant h).store.entry id = c.store.entry id :=
  Store.put_entry_ne (Cloud.free_iff.mp h) hne

theorem requestCertificate_ne (c : Cloud) (request : Option ManagedCertificateRequest) {id id' : Str}
    (hne : id' ≠ id) : (c.requestCertificate id request).certificates id' = c.certificates id' := by
  cases request with
  | none => rfl
  | some request => exact Function.update_of_ne hne ..

/-- No tenants yet. -/
def Cloud.empty : Cloud where
  store := Store.empty
  ids := fun _ _ h => by cases h
  certificates := fun _ => none
  clock := 0

/-- A service with nobody else, no faults, and these pages. -/
def quietService (pages : Option Str → DistributionTenantPage) : SaasEnv where
  etag := fun _ n => List.replicate n 'e'
  etag_injective := fun _ _ _ h => by simpa using h
  newId := fun n => "dt_".toList ++ List.replicate n 'n'
  newGroup := fun _ => none
  outside := fun _ _ => []
  fault := fun _ _ => .none
  page := fun _ marker => .ok (pages marker)
  invalidate := fun _ request => .ok ("I".toList ++ request.tenantId)

def smallRepository : CloudFrontSaasCdnRepository where
  config := ⟨"EDIST".toList, none, ∅, none⟩
  exactHosts := {"www.example.com".toList}
  callerReferenceNamespace := []

/-- A tenant of its distribution for its host. -/
def siteTenant (id : String) (enabled : Option Bool) : DistributionTenant :=
  ⟨id.toList, "www".toList, "EDIST".toList, {"www.example.com".toList}, none, ∅, none, enabled⟩

/-- A tenant that somebody disabled. -/
def disabledTenant : DistributionTenant := siteTenant "dt_1" (some false)

def disabledCloud : Cloud := Cloud.empty.put disabledTenant (by decide)

end RenderMesh.Cdn
