import RenderMesh.Cdn.Cloudflare
import RenderMesh.Core.Along

/-!
# What becomes of a zone

A reconciliation that returns has revised the records it found for the desired domains, created
one for each domain it found none for, and removed the extra ones of the records that it listed
at the start (`reconcileDomains_along`, `ZoneAfter`); without faults it does return. Its counts
are those of the calls it made (`reconcileDomains_counts`).
-/
namespace RenderMesh.Cdn

open RenderMesh.Core

/-- No call fails. -/
def ZoneEnv.Healthy (env : ZoneEnv) : Prop := ∀ n o, env.fault n o = .none

/-- The records that a listing gives. -/
def Zone.listed (z : Zone) : List CloudflareDnsRecord :=
  z.records.filter fun record => record.recordType = "CNAME".toList

/-- The listed record that is taken for a domain. -/
def firstNamed (records : List CloudflareDnsRecord) (domain : Str) : Option CloudflareDnsRecord :=
  records.find? fun record => eqIgnoreAsciiCase record.name domain

section
variable (request : CdnDomainReconcileRequest)

/-- A record after its update. -/
def revise (record : CloudflareDnsRecord) : CloudflareDnsRecord :=
  ⟨record.id, "CNAME".toList, record.name, request.originDomain, request.proxied⟩

/-- A record after the turns for `domains`: revised if it was taken for one of them. -/
def revised (records : List CloudflareDnsRecord) (domains : List Str) (record : CloudflareDnsRecord) :
    CloudflareDnsRecord :=
  if domains.any fun domain => firstNamed records domain = some record then revise request record
  else record

/-- A record that the second loop leaves. -/
def kept (record : CloudflareDnsRecord) : Bool :=
  !(request.removeExtraDomains && isExtra request record)

/-- The records that were created for `domains`. -/
structure Created (z : Zone) (domains : List Str) (created : List CloudflareDnsRecord) : Prop where
  names : created.map (·.name) = domains.filter fun domain => (firstNamed z.listed domain).isNone
  upToDate : ∀ record ∈ created, upToDate request record = true
  fresh : ∀ record ∈ created, record.id ∉ z.records.map (·.id)

/-- The records after the turns for `domains`. -/
def Upserted (z : Zone) (domains : List Str) (z' : Zone) : Prop :=
  ∃ created, Created request z domains created ∧
    z'.records = z.records.map (revised request z.listed domains) ++ created

/-- What a reconciliation makes of the records. -/
def ZoneAfter (z z' : Zone) : Prop :=
  ∃ created, Created request z request.desiredDomains.toList created ∧
    z'.records = (z.records.filter (kept request)).map
      (revised request z.listed request.desiredDomains.toList) ++ created

end

section
variable {env : ZoneEnv} {request : CdnDomainReconcileRequest} {z z' : Zone}

theorem mem_listed {record : CloudflareDnsRecord} :
    record ∈ z.listed ↔ record ∈ z.records ∧ record.recordType = "CNAME".toList := by
  simp [Zone.listed]

theorem listed_nodup : z.listed.Nodup := (List.Nodup.of_map _ z.ids).sublist List.filter_sublist

/-- Two records with one id are one record. -/
theorem Zone.eq_of_id {r r' : CloudflareDnsRecord} (hr : r ∈ z.records) (hr' : r' ∈ z.records)
    (h : r.id = r'.id) : r = r' := List.inj_on_of_nodup_map z.ids hr hr' h

theorem firstNamed_mem {domain : Str} {record : CloudflareDnsRecord}
    (h : firstNamed z.listed domain = some record) :
    record ∈ z.records ∧ record.recordType = "CNAME".toList ∧
      eqIgnoreAsciiCase record.name domain = true := by
  rw [firstNamed] at h
  obtain ⟨hmem, htype⟩ := mem_listed.mp (List.mem_of_find?_eq_some h)
  exact ⟨hmem, htype, by simpa using List.find?_some h⟩

@[simp] theorem revised_id (records : List CloudflareDnsRecord) (domains : List Str)
    (record : CloudflareDnsRecord) : (revised request records domains record).id = record.id := by
  rw [revised]
  split <;> rfl

@[simp] theorem revised_name (records : List CloudflareDnsRecord) (domains : List Str)
    (record : CloudflareDnsRecord) : (revised request records domains record).name = record.name := by
  rw [revised]
  split <;> rfl

theorem revise_of_upToDate {record : CloudflareDnsRecord} (h : upToDate request record = true) :
    revise request record = record := by
  simp only [upToDate, Bool.and_eq_true, decide_eq_true_eq] at h
  obtain ⟨⟨htype, hcontent⟩, hproxied⟩ := h
  rw [revise, ← htype, ← hcontent, ← hproxied]

theorem eqIgnoreAsciiCase_iff {a b : Str} : eqIgnoreAsciiCase a b = true ↔ toAsciiLower a = toAsciiLower b := by
  simp [eqIgnoreAsciiCase]

/-- What the second loop removes of the CNAME records. -/
theorem not_kept_iff {record : CloudflareDnsRecord} (htype : record.recordType = "CNAME".toList) :
    kept request record = false ↔ request.removeExtraDomains = true ∧
      record.content = request.originDomain ∧ record.name ∉ request.desiredDomains := by
  have hcontains : (!request.desiredDomains.contains record.name) = true ↔
      record.name ∉ request.desiredDomains := by
    rw [Bool.not_eq_true', ← Bool.not_eq_true, Std.ExtTreeSet.contains_iff_mem]
  rw [kept, Bool.not_eq_false', isExtra, Bool.and_eq_true, Bool.and_eq_true, hcontains]
  simp [htype]

/-- A record taken for no domain, or for one whose turn changed nothing. -/
theorem revised_append_of_ne {records : List CloudflareDnsRecord} {done : List Str} {domain : Str}
    {record : CloudflareDnsRecord}
    (h : firstNamed records domain = some record → revise request record = record) :
    revised request records (done ++ [domain]) record = revised request records done record := by
  simp only [revised, List.any_append, List.any_cons, List.any_nil, Bool.or_false, Bool.or_eq_true,
    decide_eq_true_eq]
  by_cases hfirst : firstNamed records domain = some record
  · simp only [hfirst, or_true, if_true, h hfirst]
    split <;> rfl
  · simp [hfirst]

theorem revised_append_self {records : List CloudflareDnsRecord} {done : List Str} {domain : Str}
    {record : CloudflareDnsRecord} (h : firstNamed records domain = some record) :
    revised request records (done ++ [domain]) record = revise request record := by
  simp [revised, h]

/-! ## One call -/

/-- A call that has what it needs, and what follows it. -/
theorem along_dnsTry {α : Type} {Q : Outcome Error α → Zone → Prop} {o : DnsOp} {k : o.Val → Dns α}
    (hexec : ∃ v, (o.exec env z).1 = .ok v ∧
      Along (zoneStep env) (fun _ _ => True) Q (k v) (o.exec env z).2.tick)
    (hstop : ¬ env.Healthy → ∀ out z', (∀ a, out ≠ .ok a) → Q out z') :
    Along (zoneStep env) (fun _ _ => True) Q (dnsTry o >>= k) z := by
  obtain ⟨v, hv, hrest⟩ := hexec
  refine Along.bind (along_iff.mpr ⟨fun _ _ => trivial, ?_⟩)
  rw [run_dnsTry, zoneStep]
  cases hfault : env.fault z.clock o with
  | none =>
    simp only [hv]
    exact hrest
  | failed ran error =>
    have hno : ¬ env.Healthy := fun h => by rw [h] at hfault; cases hfault
    cases ran <;> exact hstop hno _ _ (by simp)
  | dropped ran =>
    have hno : ¬ env.Healthy := fun h => by rw [h] at hfault; cases hfault
    cases ran <;> exact hstop hno _ _ (by simp)

/-! ## The first loop -/

theorem upserted_nil : Upserted request z [] z := by
  refine ⟨[], ⟨rfl, by simp, by simp⟩, ?_⟩
  have hid : revised request z.listed [] = id := funext fun record => by simp [revised]
  simp [hid]

/-- Nothing to do for a domain. -/
theorem Upserted.unchanged {done : List Str} {domain : Str} {record : CloudflareDnsRecord}
    (h : Upserted request z done z') (hfirst : firstNamed z.listed domain = some record)
    (hdate : upToDate request record = true) : Upserted request z (done ++ [domain]) z' := by
  obtain ⟨created, hcreated, hrecords⟩ := h
  refine ⟨created, ⟨?_, hcreated.upToDate, hcreated.fresh⟩, ?_⟩
  · rw [hcreated.names, List.filter_append]
    simp [hfirst]
  · rw [hrecords]
    refine congrArg (· ++ created) (List.map_congr_left fun r _ => (revised_append_of_ne fun hr => ?_).symm)
    obtain rfl := Option.some.inj (hfirst.symm.trans hr)
    exact revise_of_upToDate hdate

/-- The record that is found is updated. -/
theorem Upserted.replace {done : List Str} {domain : Str} {record : CloudflareDnsRecord}
    (h : Upserted request z done z') (hfirst : firstNamed z.listed domain = some record) :
    Upserted request z (done ++ [domain]) (z'.replace (revise request record)) := by
  obtain ⟨created, hcreated, hrecords⟩ := h
  obtain ⟨hmem, -, -⟩ := firstNamed_mem hfirst
  refine ⟨created, ⟨?_, hcreated.upToDate, hcreated.fresh⟩, ?_⟩
  · rw [hcreated.names, List.filter_append]
    simp [hfirst]
  · rw [Zone.replace]
    simp only [hrecords, List.map_append, List.map_map]
    congr 1
    · refine List.map_congr_left fun r hr => ?_
      simp only [Function.comp_apply, revised_id]
      by_cases hid : r.id = (revise request record).id
      · obtain rfl := z.eq_of_id hr hmem hid
        rw [if_pos hid, revised_append_self hfirst]
      · rw [if_neg hid, revised_append_of_ne fun hother => ?_]
        obtain rfl := Option.some.inj (hfirst.symm.trans hother)
        exact absurd rfl hid
    · refine (List.map_congr_left fun r hr => ?_).trans (List.map_id _)
      have hne : r.id ≠ (revise request record).id := by
        intro hid
        refine hcreated.fresh r hr ?_
        exact List.mem_map.mpr ⟨record, hmem, hid.symm⟩
      rw [if_neg hne, id]

/-- A record is created for a domain that has none. -/
theorem Upserted.create {done : List Str} {domain id : Str} (h : Upserted request z done z')
    (hfirst : firstNamed z.listed domain = none) (hid : id ∉ z'.records.map (·.id)) :
    Upserted request z (done ++ [domain])
      (z'.create ⟨id, "CNAME".toList, domain, request.originDomain, request.proxied⟩ hid) := by
  obtain ⟨created, hcreated, hrecords⟩ := h
  refine ⟨created ++ [⟨id, "CNAME".toList, domain, request.originDomain, request.proxied⟩],
    ⟨?_, ?_, ?_⟩, ?_⟩
  · rw [List.map_append, hcreated.names, List.filter_append]
    simp [hfirst]
  · intro r hr
    rcases List.mem_append.mp hr with hold | hnew
    · exact hcreated.upToDate r hold
    · rw [List.mem_singleton.mp hnew]
      simp [upToDate]
  · intro r hr
    rcases List.mem_append.mp hr with hold | hnew
    · exact hcreated.fresh r hold
    · rw [List.mem_singleton.mp hnew]
      intro hin
      refine hid ?_
      rw [hrecords, List.map_append, List.map_map, List.mem_append]
      refine Or.inl ?_
      simpa [Function.comp_def] using hin
  · rw [Zone.create]
    simp only [hrecords, List.append_assoc]
    congr 1
    refine List.map_congr_left fun r _ => (revised_append_of_ne fun hr => ?_).symm
    rw [hfirst] at hr
    cases hr

/-- The records that there were keep their ids. -/
theorem Upserted.id_mem {done : List Str} {record : CloudflareDnsRecord}
    (h : Upserted request z done z') (hr : record ∈ z.records) : record.id ∈ z'.records.map (·.id) := by
  obtain ⟨created, -, hrecords⟩ := h
  rw [hrecords, List.map_append, List.map_map, List.mem_append]
  exact Or.inl (List.mem_map.mpr ⟨record, hr, by simp⟩)

theorem upsertDomain_along {done : List Str} (h : Upserted request z done z') (counts : DnsCounts)
    (domain : Str) :
    Along (zoneStep env) (fun _ _ => True)
      (fun out z' => match out with
        | .ok _ => Upserted request z (done ++ [domain]) z'
        | _ => ¬ env.Healthy) (upsertDomain request z.listed counts domain) z' := by
  rw [upsertDomain]
  have hstop : ∀ (hno : ¬ env.Healthy) (out : Outcome Error DnsCounts) (z' : Zone), (∀ a, out ≠ .ok a) →
      match out with
      | .ok _ => Upserted request z (done ++ [domain]) z'
      | _ => ¬ env.Healthy := by
    intro hno out z' hout
    cases out with
    | ok a => exact absurd rfl (hout a)
    | err e => exact hno
    | dropped => exact hno
  cases hfirst : z.listed.find? fun record => eqIgnoreAsciiCase record.name domain with
  | none =>
    refine along_dnsTry ⟨(), rfl, ?_⟩ hstop
    exact h.create hfirst (env.newId_fresh _ _)
  | some record =>
    simp only
    split
    · rename_i hdate
      exact h.unchanged hfirst hdate
    · have hexec : DnsOp.exec env z' (.updateDnsRecord record request.originDomain request.proxied) =
          (.ok (), z'.replace (revise request record)) :=
        if_pos (List.contains_iff_mem.mpr (h.id_mem (firstNamed_mem hfirst).1))
      refine along_dnsTry ⟨(), by rw [hexec], ?_⟩ hstop
      rw [hexec]
      exact h.replace hfirst

theorem upserts_along (counts : DnsCounts) (domains : List Str) {start : Zone} (hstart : start.records = z.records) :
    Along (zoneStep env) (fun _ _ => True)
      (fun out z' => match out with
        | .ok _ => Upserted request z domains z'
        | _ => ¬ env.Healthy) (Prog.fold (upsertDomain request z.listed) counts domains) start := by
  have hnil : Upserted request z [] start := by
    obtain ⟨created, hcreated, hrecords⟩ := @upserted_nil request z
    exact ⟨created, hcreated, hstart.trans hrecords⟩
  refine Along.fold (fun done rest _ z' => domains = done ++ rest ∧ Upserted request z done z') ?_ ?_
    domains [] counts start ⟨rfl, hnil⟩
  · intro done domain rest counts z' ⟨hsplit, h⟩
    refine (upsertDomain_along h counts domain).mono (fun _ _ h => h) fun out z2 hout => ?_
    cases out with
    | ok counts' => exact ⟨by simp [hsplit], hout⟩
    | err e => exact hout
    | dropped => exact hout
  · intro done counts z' ⟨hsplit, h⟩
    rw [List.append_nil] at hsplit
    rw [hsplit]
    exact h

/-! ## The second loop -/

variable (request) in
/-- The records after the turns for the listed records in `seen`. -/
def Removed (z : Zone) (seen : List CloudflareDnsRecord) (z' : Zone) : Prop :=
  ∃ created, Created request z request.desiredDomains.toList created ∧
    z'.records = (z.records.filter fun r => !(isExtra request r && decide (r ∈ seen))).map
      (revised request z.listed request.desiredDomains.toList) ++ created

theorem Upserted.removed (h : Upserted request z request.desiredDomains.toList z') :
    Removed request z [] z' := by
  obtain ⟨created, hcreated, hrecords⟩ := h
  exact ⟨created, hcreated, by simp [hrecords]⟩

/-- A record that stays. -/
theorem Removed.keep {seen : List CloudflareDnsRecord} {record : CloudflareDnsRecord}
    (h : Removed request z seen z') (hextra : isExtra request record = false) :
    Removed request z (seen ++ [record]) z' := by
  obtain ⟨created, hcreated, hrecords⟩ := h
  refine ⟨created, hcreated, ?_⟩
  rw [hrecords]
  congr 2
  refine List.filter_congr fun r _ => ?_
  by_cases hr : r = record
  · simp [hr, hextra]
  · simp [hr]

/-- An extra record is deleted. -/
theorem Removed.delete {seen : List CloudflareDnsRecord} {record : CloudflareDnsRecord}
    (h : Removed request z seen z') (hmem : record ∈ z.records) (hextra : isExtra request record = true) :
    Removed request z (seen ++ [record]) (z'.delete record.id) := by
  obtain ⟨created, hcreated, hrecords⟩ := h
  refine ⟨created, hcreated, ?_⟩
  rw [Zone.delete]
  simp only [hrecords, List.filter_append, List.filter_map, List.filter_filter]
  congr 1
  · congr 1
    refine List.filter_congr fun r hr => ?_
    simp only [Function.comp_apply, revised_id]
    by_cases hid : r.id = record.id
    · obtain rfl := z.eq_of_id hr hmem hid
      simp [hextra]
    · have hne : r ≠ record := fun he => hid (by rw [he])
      simp [hid, hne]
  · refine List.filter_eq_self.mpr fun r hr => ?_
    have hne : r.id ≠ record.id := fun hid => hcreated.fresh r hr (List.mem_map.mpr ⟨record, hmem, hid.symm⟩)
    simpa using hne

theorem Removed.id_mem {seen : List CloudflareDnsRecord} {record : CloudflareDnsRecord}
    (h : Removed request z seen z') (hmem : record ∈ z.records) (hseen : record ∉ seen) :
    record.id ∈ z'.records.map (·.id) := by
  obtain ⟨created, -, hrecords⟩ := h
  rw [hrecords, List.map_append, List.map_map, List.mem_append]
  exact Or.inl (List.mem_map.mpr ⟨record, by simp [hmem, hseen], by simp⟩)

theorem removeExtra_along {seen : List CloudflareDnsRecord} {record : CloudflareDnsRecord}
    (h : Removed request z seen z') (hmem : record ∈ z.records) (hseen : record ∉ seen) (counts : DnsCounts) :
    Along (zoneStep env) (fun _ _ => True)
      (fun out z' => match out with
        | .ok _ => Removed request z (seen ++ [record]) z'
        | _ => ¬ env.Healthy) (removeExtra request counts record) z' := by
  rw [removeExtra]
  split
  · rename_i hextra
    have hexec : DnsOp.exec env z' (.deleteDnsRecord record.id) = (.ok (), z'.delete record.id) :=
      if_pos (List.contains_iff_mem.mpr (h.id_mem hmem hseen))
    refine along_dnsTry ⟨(), by rw [hexec], ?_⟩ fun hno out z2 hout => ?_
    · rw [hexec]
      exact h.delete hmem hextra
    · cases out with
      | ok a => exact absurd rfl (hout a)
      | err e => exact hno
      | dropped => exact hno
  · rename_i hextra
    exact h.keep (by simpa using hextra)

theorem removes_along (counts : DnsCounts) {start : Zone} (hstart : Removed request z [] start) :
    Along (zoneStep env) (fun _ _ => True)
      (fun out z' => match out with
        | .ok _ => Removed request z z.listed z'
        | _ => ¬ env.Healthy) (Prog.fold (removeExtra request) counts z.listed) start := by
  refine Along.fold (fun done rest _ z' => z.listed = done ++ rest ∧ Removed request z done z') ?_ ?_
    z.listed [] counts start ⟨rfl, hstart⟩
  · intro done record rest counts z' ⟨hsplit, h⟩
    have hmem : record ∈ z.records := (mem_listed.mp (by rw [hsplit]; simp)).1
    have hseen : record ∉ done := by
      have hnodup := hsplit ▸ listed_nodup (z := z)
      intro hin
      exact (List.nodup_append.mp hnodup).2.2 record hin record List.mem_cons_self rfl
    refine (removeExtra_along h hmem hseen counts).mono (fun _ _ h => h) fun out z2 hout => ?_
    cases out with
    | ok counts' => exact ⟨by simp [hsplit], hout⟩
    | err e => exact hout
    | dropped => exact hout
  · intro done counts z' ⟨hsplit, h⟩
    rw [List.append_nil] at hsplit
    rw [hsplit]
    exact h

/-! ## A run -/

theorem Upserted.zoneAfter (hremove : request.removeExtraDomains = false)
    (h : Upserted request z request.desiredDomains.toList z') : ZoneAfter request z z' := by
  obtain ⟨created, hcreated, hrecords⟩ := h
  refine ⟨created, hcreated, ?_⟩
  rw [hrecords, List.filter_eq_self.mpr fun r _ => by simp [kept, hremove]]

theorem Removed.zoneAfter (hremove : request.removeExtraDomains = true)
    (h : Removed request z z.listed z') : ZoneAfter request z z' := by
  obtain ⟨created, hcreated, hrecords⟩ := h
  refine ⟨created, hcreated, ?_⟩
  rw [hrecords]
  congr 2
  refine List.filter_congr fun r hr => ?_
  rw [kept, hremove, Bool.true_and]
  by_cases hextra : isExtra request r = true
  · have hlisted : r ∈ z.listed := mem_listed.mpr ⟨hr, by
      simp only [isExtra, Bool.and_eq_true, decide_eq_true_eq] at hextra
      exact hextra.1.1⟩
    simp [hlisted]
  · simp [hextra]

/-- A reconciliation that returns has done what `ZoneAfter` says, and without faults it returns. -/
theorem reconcileDomains_along (env : ZoneEnv) (request : CdnDomainReconcileRequest) (z : Zone) :
    Along (zoneStep env) (fun _ _ => True)
      (fun out z' => match out with
        | .ok _ => ZoneAfter request z z'
        | _ => ¬ env.Healthy) (reconcileDomains request) z := by
  rw [reconcileDomains]
  refine along_dnsTry ⟨z.listed, rfl, ?_⟩ fun hno out z' hout => ?_
  · have hlisting : (DnsOp.exec env z .listDnsRecords).2.tick.records = z.records := rfl
    refine Along.bind ((upserts_along ⟨0, 0, 0, 0⟩ request.desiredDomains.toList hlisting).mono
      (fun _ _ h => h) fun out z1 hout => ?_)
    cases out with
    | err e => exact hout
    | dropped => exact hout
    | ok counts =>
      by_cases hremove : request.removeExtraDomains = true
      · simp only [if_pos hremove]
        refine Along.bind ((removes_along counts hout.removed).mono (fun _ _ h => h) fun out z2 hout => ?_)
        cases out with
        | err e => exact hout
        | dropped => exact hout
        | ok counts' => exact hout.zoneAfter hremove
      · simp only [if_neg hremove]
        exact hout.zoneAfter (by simpa using hremove)
  · cases out with
    | ok a => exact absurd rfl (hout a)
    | err e => exact hno
    | dropped => exact hno

theorem reconcileDomains_ok {result : CdnDomainReconcileResult}
    (h : run (zoneStep env) (reconcileDomains request) z = (.ok result, z')) : ZoneAfter request z z' := by
  have hall := (along_iff.mp (reconcileDomains_along env request z)).2
  rw [h] at hall
  exact hall

theorem reconcileDomains_returns (henv : env.Healthy) (request : CdnDomainReconcileRequest) (z : Zone) :
    ∃ result z', run (zoneStep env) (reconcileDomains request) z = (.ok result, z') := by
  have hall := (along_iff.mp (reconcileDomains_along env request z)).2
  generalize run (zoneStep env) (reconcileDomains request) z = r at hall
  obtain ⟨result | e | _, z'⟩ := r
  · exact ⟨result, z', rfl⟩
  · exact absurd henv hall
  · exact absurd henv hall

/-! ## Counts -/

/-- The calls that change a zone. -/
inductive Mutation where
  | create
  | update
  | delete

def Mutation.isOf : Mutation → DnsOp × Zone → Bool
  | .create, (.createDnsRecord _ _ _, _) => true
  | .update, (.updateDnsRecord _ _ _, _) => true
  | .delete, (.deleteDnsRecord _, _) => true
  | _, _ => false

def Mutation.count : Mutation → DnsCounts → Nat
  | .create, counts => counts.added
  | .update, counts => counts.updated
  | .delete, counts => counts.removed

def Mutation.reported : Mutation → CdnDomainReconcileResult → Nat
  | .create, result => result.added
  | .update, result => result.updated
  | .delete, result => result.removed

/-- A turn that made one call. -/
theorem dnsTry_pure {α : Type} {o : DnsOp} {a b : α}
    (h : run (zoneStep env) (dnsTry o >>= fun _ => pure a) z = (.ok b, z')) :
    b = a ∧ trace (zoneStep env) (dnsTry o >>= fun _ => pure a) z = [(o, z)] := by
  obtain ⟨v, z1, h1, h2⟩ := run_bind_ok _ |>.mp h
  cases h2
  rw [trace_bind, trace_dnsTry, h1]
  exact ⟨rfl, rfl⟩

theorem upsertDomain_counts (m : Mutation) {records : List CloudflareDnsRecord} {counts counts' : DnsCounts}
    {domain : Str} (h : run (zoneStep env) (upsertDomain request records counts domain) z = (.ok counts', z')) :
    m.count counts' = m.count counts +
      (trace (zoneStep env) (upsertDomain request records counts domain) z).countP m.isOf := by
  rw [upsertDomain] at h ⊢
  cases hfind : records.find? fun record => eqIgnoreAsciiCase record.name domain with
  | none =>
    simp only [hfind] at h
    obtain ⟨rfl, htrace⟩ := dnsTry_pure h
    simp only [htrace]
    cases m <;> rfl
  | some record =>
    simp only [hfind] at h
    by_cases hdate : upToDate request record = true
    · rw [if_pos hdate] at h
      simp only [if_pos hdate]
      cases h
      cases m <;> rfl
    · rw [if_neg hdate] at h
      simp only [if_neg hdate]
      obtain ⟨rfl, htrace⟩ := dnsTry_pure h
      rw [htrace]
      cases m <;> rfl

theorem removeExtra_counts (m : Mutation) {counts counts' : DnsCounts} {record : CloudflareDnsRecord}
    (h : run (zoneStep env) (removeExtra request counts record) z = (.ok counts', z')) :
    m.count counts' = m.count counts +
      (trace (zoneStep env) (removeExtra request counts record) z).countP m.isOf := by
  rw [removeExtra] at h ⊢
  by_cases hextra : isExtra request record = true
  · rw [if_pos hextra] at h ⊢
    obtain ⟨rfl, htrace⟩ := dnsTry_pure h
    rw [htrace]
    cases m <;> rfl
  · rw [if_neg hextra] at h ⊢
    cases h
    rfl

/-- The counts of a reconciliation that returns are those of its calls. -/
theorem reconcileDomains_counts (m : Mutation) {result : CdnDomainReconcileResult}
    (h : run (zoneStep env) (reconcileDomains request) z = (.ok result, z')) :
    m.reported result = (trace (zoneStep env) (reconcileDomains request) z).countP m.isOf := by
  rw [reconcileDomains] at h ⊢
  obtain ⟨records, z1, hlist, h⟩ := run_bind_ok _ |>.mp h
  obtain ⟨counts, z2, hupserts, h⟩ := run_bind_ok _ |>.mp h
  have hupserted := fold_counts m.count m.isOf (fun c x s c' s' h => upsertDomain_counts m h) hupserts
  have hzero : m.count ⟨0, 0, 0, 0⟩ = 0 := by cases m <;> rfl
  have hlisting : m.isOf (.listDnsRecords, z) = false := by cases m <;> rfl
  rw [trace_bind, trace_dnsTry, hlist]
  simp only [List.countP_append, trace_bind, hupserts]
  by_cases hremove : request.removeExtraDomains = true
  · simp only [if_pos hremove] at h ⊢
    obtain ⟨counts', z3, hremoves, h⟩ := run_bind_ok _ |>.mp h
    have hremoved := fold_counts m.count m.isOf (fun c x s c' s' h => removeExtra_counts m h) hremoves
    cases h
    rw [trace_bind, hremoves]
    have hreported : m.reported ⟨"cloudflare".toList, "submitted".toList, counts'.added, counts'.updated,
        counts'.removed, counts'.unchanged⟩ = m.count counts' := by cases m <;> rfl
    rw [hreported, hremoved, hupserted, hzero]
    simp [hlisting, trace_pure]
  · simp only [if_neg hremove] at h ⊢
    cases h
    have hreported : m.reported ⟨"cloudflare".toList, "submitted".toList, counts.added, counts.updated,
        counts.removed, counts.unchanged⟩ = m.count counts := by cases m <;> rfl
    rw [hreported, hupserted, hzero]
    simp [hlisting, trace_bind, trace_pure]

end

end RenderMesh.Cdn
