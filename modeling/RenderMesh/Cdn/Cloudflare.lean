import RenderMesh.Cdn.Cloud
import RenderMesh.Domains.Derived

/-!
# Cloudflare DNS records

`reconcile_domains` of `src/src/repositories/cloudflare_cdn.rs`: a zone's CNAME records are
listed, each desired domain is created, updated or found unchanged, and the records that point
to the origin for other domains are removed if the configuration says so. The domains come from
the manifest (`src/src/services/cdn_domains.rs`), in lower case (`desiredDomains_lower`).

A `Zone` is what the calls work on. The fields of a response and the texts of its errors are
the client's, which a call returns as a whole.
-/
namespace RenderMesh.Cdn

open RenderMesh.Core RenderMesh.Mirror RenderMesh.Domains

structure CloudflareDnsRecord where
  id : Str
  recordType : Str
  name : Str
  content : Str
  proxied : Bool
  deriving DecidableEq

structure CdnDomainReconcileRequest where
  originId : Str
  desiredDomains : Hosts
  originDomain : Str
  certificateArn : Option Str
  proxied : Bool
  removeExtraDomains : Bool

/-! ## The desired domains -/

theorem normalizeCdnHost_lower {host n : Str} (h : normalizeCdnHost host = some n) :
    toAsciiLower n = n := by
  rw [normalizeCdnHost] at h
  split at h
  · cases h
  · split at h
    · obtain ⟨m, hm, rfl⟩ := Option.map_eq_some_iff.mp h
      rw [show '*' :: '.' :: m = ['*', '.'] ++ m from rfl, toAsciiLower_append,
        (normalizeHost_some hm).2]
      rfl
    · exact (normalizeHost_some h).2

/-- The desired domains of an origin are in lower case. -/
theorem desiredDomains_lower {manifest : RenderMeshManifest} {originId : Str} {config : CdnDomainConfig}
    {domain : Str} (h : domain ∈ desiredDomainsForOrigin manifest originId config) :
    toAsciiLower domain = domain := by
  rw [desiredDomainsForOrigin, Std.ExtTreeSet.mem_ofList, List.contains_iff_mem] at h
  obtain ⟨host, -, hhost⟩ := List.mem_filterMap.mp h
  exact normalizeCdnHost_lower hhost

/-! ## The repository -/

inductive DnsOp where
  | listDnsRecords
  | createDnsRecord (name content : Str) (proxied : Bool)
  | updateDnsRecord (record : CloudflareDnsRecord) (content : Str) (proxied : Bool)
  | deleteDnsRecord (recordId : Str)

abbrev DnsOp.Val : DnsOp → Type
  | .listDnsRecords => List CloudflareDnsRecord
  | _ => Unit

abbrev DnsOp.Res (o : DnsOp) : Type := Except Error o.Val

abbrev Dns (α : Type) := Prog DnsOp DnsOp.Res Error α

/-- A call, whose error is the caller's. -/
def dnsTry (o : DnsOp) : Dns o.Val := do
  let r ← Prog.perform o
  .ofExcept r

section
variable {σ : Type} {h : Handler DnsOp DnsOp.Res σ} (o : DnsOp) (s : σ)

theorem run_dnsTry : run h (dnsTry o) s =
    match h o s with
    | (some (.ok v), s') => (.ok v, s')
    | (some (.error e), s') => (.err e, s')
    | (none, s') => (.dropped, s') := by
  rw [dnsTry, run_bind, run_perform]
  rcases h o s with ⟨_ | e | v, s'⟩ <;> rfl

theorem trace_dnsTry : trace h (dnsTry o) s = [(o, s)] := by
  rw [dnsTry, trace_bind, trace_perform, run_perform]
  rcases h o s with ⟨_ | e | v, s'⟩ <;> rfl

end

/-- The counters of `reconcile_domains`. -/
structure DnsCounts where
  added : Nat
  updated : Nat
  removed : Nat
  unchanged : Nat

/-- `eq_ignore_ascii_case` -/
def eqIgnoreAsciiCase (a b : Str) : Bool := toAsciiLower a = toAsciiLower b

section
variable (request : CdnDomainReconcileRequest)

/-- A CNAME record to the origin, with the flag. -/
def upToDate (record : CloudflareDnsRecord) : Bool :=
  record.recordType = "CNAME".toList && record.content = request.originDomain &&
    record.proxied = request.proxied

/-- A turn of the first loop; mirrors src/src/repositories/cloudflare_cdn.rs:128-149 -/
def upsertDomain (records : List CloudflareDnsRecord) (counts : DnsCounts) (domain : Str) :
    Dns DnsCounts :=
  match records.find? fun record => eqIgnoreAsciiCase record.name domain with
  | some record =>
    if upToDate request record then pure { counts with unchanged := counts.unchanged + 1 }
    else do
      dnsTry (.updateDnsRecord record request.originDomain request.proxied)
      pure { counts with updated := counts.updated + 1 }
  | none => do
    dnsTry (.createDnsRecord domain request.originDomain request.proxied)
    pure { counts with added := counts.added + 1 }

/-- A record that the second loop removes; mirrors
src/src/repositories/cloudflare_cdn.rs:154-157 -/
def isExtra (record : CloudflareDnsRecord) : Bool :=
  record.recordType = "CNAME".toList && record.content = request.originDomain &&
    !request.desiredDomains.contains record.name

/-- A turn of the second loop; mirrors src/src/repositories/cloudflare_cdn.rs:153-161 -/
def removeExtra (counts : DnsCounts) (record : CloudflareDnsRecord) : Dns DnsCounts :=
  if isExtra request record then do
    dnsTry (.deleteDnsRecord record.id)
    pure { counts with removed := counts.removed + 1 }
  else pure counts

/-- mirrors src/src/repositories/cloudflare_cdn.rs:117-172 -/
def reconcileDomains : Dns CdnDomainReconcileResult := do
  let records ← dnsTry .listDnsRecords
  let counts ← Prog.fold (upsertDomain request records) ⟨0, 0, 0, 0⟩ request.desiredDomains.toList
  let counts ←
    if request.removeExtraDomains then Prog.fold (removeExtra request) counts records
    else pure counts
  pure ⟨"cloudflare".toList, "submitted".toList, counts.added, counts.updated, counts.removed,
    counts.unchanged⟩

end

/-! ## The zone -/

structure Zone where
  records : List CloudflareDnsRecord
  ids : (records.map (·.id)).Nodup
  /-- calls made so far -/
  clock : Nat

structure ZoneEnv where
  /-- the id of a record that is created -/
  newId : Nat → List Str → Str
  newId_fresh : ∀ n ids, newId n ids ∉ ids
  fault : Nat → DnsOp → CallFault

namespace Zone

def tick (z : Zone) : Zone := { z with clock := z.clock + 1 }

def create (z : Zone) (record : CloudflareDnsRecord) (h : record.id ∉ z.records.map (·.id)) : Zone where
  records := z.records ++ [record]
  ids := by
    rw [List.map_append, List.map_singleton]
    exact List.nodup_append.mpr ⟨z.ids, List.nodup_singleton _, fun a ha b hb hab =>
      h (List.mem_singleton.mp hb ▸ hab ▸ ha)⟩
  clock := z.clock

/-- The record takes the place of the one with its id. -/
def replace (z : Zone) (record : CloudflareDnsRecord) : Zone where
  records := z.records.map fun x => if x.id = record.id then record else x
  ids := by
    have hids : (z.records.map fun x => if x.id = record.id then record else x).map (·.id) =
        z.records.map (·.id) := by
      rw [List.map_map]
      refine List.map_congr_left fun x _ => ?_
      simp only [Function.comp_apply]
      split
      · rename_i h
        exact h.symm
      · rfl
    rw [hids]
    exact z.ids
  clock := z.clock

def delete (z : Zone) (id : Str) : Zone where
  records := z.records.filter fun x => x.id ≠ id
  ids := z.ids.sublist (List.filter_sublist.map _)
  clock := z.clock

end Zone

section
variable (env : ZoneEnv)

/-- A call that reaches the zone. -/
def DnsOp.exec (z : Zone) : (o : DnsOp) → Except Error o.Val × Zone
  | .listDnsRecords => (.ok (z.records.filter fun x => x.recordType = "CNAME".toList), z)
  | .createDnsRecord name content proxied =>
    (.ok (), z.create ⟨env.newId z.clock (z.records.map (·.id)), "CNAME".toList, name, content, proxied⟩
      (env.newId_fresh _ _))
  | .updateDnsRecord record content proxied =>
    if (z.records.map (·.id)).contains record.id then
      (.ok (), z.replace ⟨record.id, "CNAME".toList, record.name, content, proxied⟩)
    else (.error (anyhow "Record does not exist.".toList), z)
  | .deleteDnsRecord id =>
    if (z.records.map (·.id)).contains id then (.ok (), z.delete id)
    else (.error (anyhow "Record does not exist.".toList), z)

/-- One call. -/
def zoneStep : Handler DnsOp DnsOp.Res Zone := fun o z =>
  match env.fault z.clock o with
  | .none => (some (o.exec env z).1, (o.exec env z).2.tick)
  | .failed true error => (some (.error error), (o.exec env z).2.tick)
  | .failed false error => (some (.error error), z.tick)
  | .dropped true => (none, (o.exec env z).2.tick)
  | .dropped false => (none, z.tick)

end

end RenderMesh.Cdn
