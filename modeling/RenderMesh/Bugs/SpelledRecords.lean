import RenderMesh.Cdn.Zone

/-!
# Desired records that are removed for their spelling

Behaviour (`src/src/repositories/cloudflare_cdn.rs:127-163`): the first loop finds the record of a
desired domain with `eq_ignore_ascii_case`; the second looks the record's name up in the set of
desired domains as it is spelled, in the listing from before the first loop.

Documented: `remove_extra_domains` removes "provider domains that point to this origin but are no
longer in RenderMesh `hosts`" (`docs/configuration.md`).

Counterexample: a zone with the one record `WWW.a.com`, which points to the origin, for the
desired domain `www.a.com`. It is counted as unchanged and then removed, and the domain has no
record left (`desired_record_removed`).

Condition: `converges_iff`. Among the records of a desired domain in whatever spelling, if there
are any, one stays: it is spelled as a desired domain if extra records are removed, it is the
first of them or needs no update, and all others are removed for their spelling. If there are
none, no other desired domain differs in case only, which a manifest's never do
(`desiredDomains_lower`).
-/
namespace RenderMesh.Bugs.SpelledRecords

open RenderMesh.Core RenderMesh.Cdn RenderMesh.Domains

/-- The zone's CNAME records of a domain; DNS compares names without case. -/
def recordsNamed (z : Zone) (domain : Str) : List CloudflareDnsRecord :=
  z.records.filter fun record =>
    record.recordType = "CNAME".toList && eqIgnoreAsciiCase record.name domain

/-- The calls that change a zone. -/
def Mutates (o : DnsOp) : Prop := o ≠ .listDnsRecords

/-- What a record of a desired domain must hold. -/
def Right (request : CdnDomainReconcileRequest) (record : CloudflareDnsRecord) : Prop :=
  record.content = request.originDomain ∧ record.proxied = request.proxied

/-- A reconciliation of the zone that returns Ok does what was asked, and a second one nothing. -/
def Converges (request : CdnDomainReconcileRequest) (z : Zone) : Prop :=
  ∀ env result z', run (zoneStep env) (reconcileDomains request) z = (.ok result, z') →
    (∀ domain ∈ request.desiredDomains, ∃ record, recordsNamed z' domain = [record] ∧
      Right request record) ∧
    (∀ record ∈ z.records, record.content ≠ request.originDomain →
      (∀ domain ∈ request.desiredDomains, eqIgnoreAsciiCase record.name domain = false) →
      record ∈ z'.records) ∧
    (∀ m : Mutation, m.reported result =
      (trace (zoneStep env) (reconcileDomains request) z).countP m.isOf) ∧
    ∀ env', ∀ e ∈ trace (zoneStep env') (reconcileDomains request) z', ¬ Mutates e.1

/-- One of the records of each desired domain stays, and no other. -/
def OneStays (request : CdnDomainReconcileRequest) (z : Zone) : Prop :=
  ∀ domain ∈ request.desiredDomains,
    (recordsNamed z domain = [] ∧
      ∀ other ∈ request.desiredDomains, eqIgnoreAsciiCase other domain = true → other = domain) ∨
    ∃ record ∈ recordsNamed z domain,
      (request.removeExtraDomains = true → record.name ∈ request.desiredDomains) ∧
      ((recordsNamed z domain).head? = some record ∨ Right request record) ∧
      ∀ other ∈ recordsNamed z domain, other ≠ record →
        request.removeExtraDomains = true ∧ other.content = request.originDomain ∧
          other.name ∉ request.desiredDomains

section
variable {request : CdnDomainReconcileRequest} {z z' : Zone}

theorem mem_recordsNamed {domain : Str} {record : CloudflareDnsRecord} :
    record ∈ recordsNamed z domain ↔ record ∈ z.records ∧ record.recordType = "CNAME".toList ∧
      eqIgnoreAsciiCase record.name domain = true := by
  simp [recordsNamed]

theorem recordsNamed_nodup (domain : Str) : (recordsNamed z domain).Nodup :=
  (List.Nodup.of_map _ z.ids).sublist List.filter_sublist

/-- The first record of a domain is the one that is taken for it. -/
theorem head_recordsNamed (domain : Str) : (recordsNamed z domain).head? = firstNamed z.listed domain := by
  rw [recordsNamed, firstNamed, Zone.listed, List.head?_filter, List.find?_filter]
  refine congrArg (List.find? · z.records) (funext fun record => ?_)
  simp

theorem firstNamed_congr {records : List CloudflareDnsRecord} {domain other : Str}
    (h : eqIgnoreAsciiCase other domain = true) : firstNamed records other = firstNamed records domain := by
  rw [eqIgnoreAsciiCase_iff] at h
  simp only [firstNamed, eqIgnoreAsciiCase, h]

/-- A list without repetitions whose elements are all one. -/
theorem eq_singleton {α : Type} {l : List α} {a : α} (hl : l.Nodup) (ha : a ∈ l) (hall : ∀ b ∈ l, b = a) :
    l = [a] := by
  cases l with
  | nil => cases ha
  | cons b rest =>
    obtain rfl := hall b List.mem_cons_self
    have hrest : rest = [] := by
      apply List.eq_nil_iff_forall_not_mem.mpr
      intro c hc
      obtain rfl := hall c (List.mem_cons_of_mem _ hc)
      exact (List.nodup_cons.mp hl).1 hc
    rw [hrest]

/-! ## The records of a domain after a run -/

theorem revised_of_unchosen {record : CloudflareDnsRecord}
    (h : ∀ domain ∈ request.desiredDomains, firstNamed z.listed domain ≠ some record) :
    revised request z.listed request.desiredDomains.toList record = record := by
  rw [revised, if_neg]
  intro hany
  obtain ⟨domain, hdomain, hfirst⟩ := List.any_eq_true.mp hany
  exact h domain (by simpa using hdomain) (by simpa using hfirst)

/-- A record taken for a domain is revised, and the others of the domain stay as they are. -/
theorem revised_eq {domain : Str} (hdomain : domain ∈ request.desiredDomains) {record : CloudflareDnsRecord}
    (hname : eqIgnoreAsciiCase record.name domain = true) :
    revised request z.listed request.desiredDomains.toList record =
      if firstNamed z.listed domain = some record then revise request record else record := by
  by_cases hfirst : firstNamed z.listed domain = some record
  · have hany : (request.desiredDomains.toList.any fun d => firstNamed z.listed d = some record) = true :=
      List.any_eq_true.mpr ⟨domain, by simpa using hdomain, by simpa using hfirst⟩
    rw [revised, if_pos hany, if_pos hfirst]
  · rw [if_neg hfirst]
    refine revised_of_unchosen fun other _ hother => ?_
    have hsame : eqIgnoreAsciiCase other domain = true := by
      have h := (firstNamed_mem hother).2.2
      rw [eqIgnoreAsciiCase_iff] at h hname ⊢
      exact h.symm.trans hname
    exact hfirst ((firstNamed_congr hsame).symm.trans hother)

theorem revised_type (domains : List Str) (record : CloudflareDnsRecord) :
    (revised request z.listed domains record).recordType = record.recordType := by
  rw [revised]
  split
  · rename_i h
    obtain ⟨domain, -, hfirst⟩ := List.any_eq_true.mp h
    rw [decide_eq_true_eq] at hfirst
    exact (firstNamed_mem hfirst).2.1.symm
  · rfl

/-- The records of a domain: those that there were, less the removed ones, and the created ones. -/
theorem recordsNamed_after {created : List CloudflareDnsRecord}
    (hcreated : Created request z request.desiredDomains.toList created)
    (h : z'.records = (z.records.filter (kept request)).map
      (revised request z.listed request.desiredDomains.toList) ++ created) (domain : Str) :
    recordsNamed z' domain = ((recordsNamed z domain).filter (kept request)).map
      (revised request z.listed request.desiredDomains.toList) ++
        created.filter fun record => eqIgnoreAsciiCase record.name domain := by
  rw [recordsNamed, h, List.filter_append, List.filter_map]
  congr 1
  · rw [recordsNamed, List.filter_filter, List.filter_filter]
    congr 1
    refine List.filter_congr fun record _ => ?_
    simp only [Function.comp_apply, revised_type, revised_name]
    exact Bool.and_comm _ _
  · refine List.filter_congr fun record hrecord => ?_
    have hdate := hcreated.upToDate record hrecord
    simp only [upToDate, Bool.and_eq_true, decide_eq_true_eq] at hdate
    simp [hdate.1.1]

theorem created_mem {created : List CloudflareDnsRecord} {record : CloudflareDnsRecord}
    (h : Created request z request.desiredDomains.toList created) (hrecord : record ∈ created) :
    record.name ∈ request.desiredDomains ∧ firstNamed z.listed record.name = none := by
  have hmem := List.mem_map_of_mem (f := (·.name)) hrecord
  rw [h.names, List.mem_filter] at hmem
  simpa using hmem

theorem created_nodup {created : List CloudflareDnsRecord}
    (h : Created request z request.desiredDomains.toList created) : (created.map (·.name)).Nodup := by
  rw [h.names]
  refine List.Nodup.filter _ (request.desiredDomains.distinct_toList.imp fun hne heq => hne ?_)
  rw [heq]
  exact Std.ReflCmp.compare_self

/-- Nothing is created for a domain that has records. -/
theorem created_eq_nil {created : List CloudflareDnsRecord} {domain : Str}
    (h : Created request z request.desiredDomains.toList created) (hsome : firstNamed z.listed domain ≠ none) :
    (created.filter fun record => eqIgnoreAsciiCase record.name domain) = [] := by
  apply List.filter_eq_nil_iff.mpr
  intro record hrecord hname
  exact hsome ((firstNamed_congr hname).symm.trans (created_mem h hrecord).2)

/-- One record is created for a domain that has none, if no other differs in case only. -/
theorem created_one_iff {created : List CloudflareDnsRecord} {domain : Str}
    (h : Created request z request.desiredDomains.toList created) (hdomain : domain ∈ request.desiredDomains)
    (hnone : firstNamed z.listed domain = none) :
    (∃ record, (created.filter fun record => eqIgnoreAsciiCase record.name domain) = [record]) ↔
      ∀ other ∈ request.desiredDomains, eqIgnoreAsciiCase other domain = true → other = domain := by
  have hexists : ∀ other ∈ request.desiredDomains, eqIgnoreAsciiCase other domain = true →
      ∃ record ∈ created.filter fun record => eqIgnoreAsciiCase record.name domain, record.name = other := by
    intro other hother heq
    have hmem : other ∈ created.map (·.name) := by
      rw [h.names, List.mem_filter, firstNamed_congr heq, hnone]
      simpa using hother
    obtain ⟨record, hrecord, hname⟩ := List.mem_map.mp hmem
    exact ⟨record, List.mem_filter.mpr ⟨hrecord, by simpa [hname] using heq⟩, hname⟩
  obtain ⟨first, hfirst, hname⟩ := hexists domain hdomain (eqIgnoreAsciiCase_iff.mpr rfl)
  constructor
  · intro ⟨record, hone⟩ other hother heq
    obtain ⟨second, hsecond, hname'⟩ := hexists other hother heq
    rw [hone, List.mem_singleton] at hfirst hsecond
    rw [← hname, ← hname', hfirst, hsecond]
  · intro hunique
    have hnodup := (List.Nodup.of_map _ (created_nodup h)).filter fun record => eqIgnoreAsciiCase record.name domain
    refine ⟨first, eq_singleton hnodup hfirst fun record hrecord => ?_⟩
    obtain ⟨hmem, heq⟩ := List.mem_filter.mp hrecord
    have hsame := hunique record.name (created_mem h hmem).1 heq
    exact List.inj_on_of_nodup_map (created_nodup h) hmem (List.mem_filter.mp hfirst).1 (hsame.trans hname.symm)

/-- A record that is removed is gone. -/
theorem not_mem_after (h : ZoneAfter request z z') {record : CloudflareDnsRecord} (hin : record ∈ z.records)
    (hremoved : kept request record = false) : record ∉ z'.records := by
  obtain ⟨created, hcreated, hrecords⟩ := h
  intro hafter
  rw [hrecords, List.mem_append] at hafter
  rcases hafter with hold | hnew
  · obtain ⟨before, hbefore, rfl⟩ := List.mem_map.mp hold
    obtain ⟨hmem, hkept⟩ := List.mem_filter.mp hbefore
    rw [z.eq_of_id hin hmem (revised_id _ _ _), hkept] at hremoved
    cases hremoved
  · exact hcreated.fresh record hnew (List.mem_map_of_mem hin)

/-- One record of a domain that holds what it must: which records there were before. -/
theorem one_iff (h : ZoneAfter request z z') {domain : Str} (hdomain : domain ∈ request.desiredDomains) :
    (∃ record, recordsNamed z' domain = [record] ∧ Right request record) ↔
      (recordsNamed z domain = [] ∧
        ∀ other ∈ request.desiredDomains, eqIgnoreAsciiCase other domain = true → other = domain) ∨
      ∃ record ∈ recordsNamed z domain, kept request record = true ∧
        ((recordsNamed z domain).head? = some record ∨ Right request record) ∧
        ∀ other ∈ recordsNamed z domain, other ≠ record → kept request other = false := by
  obtain ⟨created, hcreated, hrecords⟩ := h
  rw [recordsNamed_after hcreated hrecords]
  cases hfirst : firstNamed z.listed domain with
  | none =>
    have hempty : recordsNamed z domain = [] := by
      rw [← List.head?_eq_none_iff, head_recordsNamed, hfirst]
    rw [hempty, List.filter_nil, List.map_nil, List.nil_append]
    have hright : ∀ record, (created.filter fun r => eqIgnoreAsciiCase r.name domain) = [record] →
        Right request record := by
      intro record hone
      have hmem : record ∈ created := (List.mem_filter.mp (hone ▸ List.mem_singleton_self record)).1
      have hdate := hcreated.upToDate record hmem
      simp only [upToDate, Bool.and_eq_true, decide_eq_true_eq] at hdate
      exact ⟨hdate.1.2, hdate.2⟩
    constructor
    · rintro ⟨record, hone, -⟩
      exact Or.inl ⟨rfl, (created_one_iff hcreated hdomain hfirst).mp ⟨record, hone⟩⟩
    · intro h
      rcases h with ⟨-, hunique⟩ | ⟨record, hrecord, -⟩
      · obtain ⟨record, hone⟩ := (created_one_iff hcreated hdomain hfirst).mpr hunique
        exact ⟨record, hone, hright record hone⟩
      · cases hrecord
  | some first =>
    have hnonempty : recordsNamed z domain ≠ [] := by
      intro hempty
      have hhead := head_recordsNamed (z := z) domain
      rw [hempty, hfirst] at hhead
      cases hhead
    rw [created_eq_nil hcreated (by simp [hfirst]), List.append_nil]
    -- what the revision of a record of the domain holds
    have hright : ∀ record ∈ recordsNamed z domain,
        (Right request (revised request z.listed request.desiredDomains.toList record) ↔
          (recordsNamed z domain).head? = some record ∨ Right request record) := by
      intro record hrecord
      rw [revised_eq hdomain (mem_recordsNamed.mp hrecord).2.2, head_recordsNamed]
      by_cases hrecordFirst : firstNamed z.listed domain = some record
      · simp [hrecordFirst, Right, revise]
      · simp [hrecordFirst]
    constructor
    · rintro ⟨_, hone, hholds⟩
      obtain ⟨record, hkeptOne, rfl⟩ := List.map_eq_singleton_iff.mp hone
      have hmem := List.mem_filter.mp (hkeptOne ▸ List.mem_singleton_self record)
      refine Or.inr ⟨record, hmem.1, hmem.2, (hright record hmem.1).mp hholds, fun other hother hne => ?_⟩
      by_contra hkept
      have hin := List.mem_filter.mpr ⟨hother, by simpa using hkept⟩
      rw [hkeptOne, List.mem_singleton] at hin
      exact hne hin
    · intro h
      rcases h with ⟨hempty, -⟩ | ⟨record, hrecord, hkept, hholds, hothers⟩
      · exact absurd hempty hnonempty
      · have hone : (recordsNamed z domain).filter (kept request) = [record] := by
          refine eq_singleton ((recordsNamed_nodup domain).filter _)
            (List.mem_filter.mpr ⟨hrecord, hkept⟩) fun other hother => ?_
          obtain ⟨hin, hotherKept⟩ := List.mem_filter.mp hother
          by_contra hne
          rw [hothers other hin hne] at hotherKept
          cases hotherKept
        rw [hone]
        exact ⟨_, rfl, (hright record hrecord).mpr hholds⟩

/-! ## The second run -/

theorem listed_ok {env : ZoneEnv} {records : List CloudflareDnsRecord}
    (h : run (zoneStep env) (dnsTry .listDnsRecords) z = (.ok records, z')) : records = z.listed := by
  rw [run_dnsTry, zoneStep] at h
  cases hfault : env.fault z.clock .listDnsRecords with
  | none =>
    rw [hfault] at h
    cases h
    rfl
  | failed ran error => cases ran <;> simp [hfault] at h
  | dropped ran => cases ran <;> simp [hfault] at h

/-- A reconciliation that finds every domain's record up to date and no extra one changes nothing. -/
theorem settled_run (env : ZoneEnv)
    (hfirst : ∀ domain ∈ request.desiredDomains, ∃ record, firstNamed z.listed domain = some record ∧
      upToDate request record = true)
    (hextra : request.removeExtraDomains = true → ∀ record ∈ z.listed, isExtra request record = false) :
    ∀ e ∈ trace (zoneStep env) (reconcileDomains request) z, ¬ Mutates e.1 := by
  intro e he
  rw [reconcileDomains, trace_bind, trace_dnsTry] at he
  rcases List.mem_append.mp he with hlist | hrest
  · rw [List.mem_singleton.mp hlist]
    simp [Mutates]
  · exfalso
    generalize hrun : run (zoneStep env) (dnsTry .listDnsRecords) z = r at hrest
    obtain ⟨records | error | _, z1⟩ := r
    · obtain rfl := listed_ok hrun
      -- no turn of either loop makes a call
      have hupsert : ∀ counts, ∀ domain ∈ request.desiredDomains.toList,
          ∃ counts', upsertDomain request z.listed counts domain = pure counts' := by
        intro counts domain hdomain
        obtain ⟨record, hrecord, hdate⟩ := hfirst domain (by simpa using hdomain)
        rw [firstNamed] at hrecord
        exact ⟨_, by rw [upsertDomain, hrecord]; exact if_pos hdate⟩
      obtain ⟨counts, hcounts⟩ := fold_eq_pure hupsert ⟨0, 0, 0, 0⟩
      by_cases hremove : request.removeExtraDomains = true
      · have hkeep : ∀ counts, ∀ record ∈ z.listed, ∃ counts', removeExtra request counts record = pure counts' := by
          intro counts record hrecord
          exact ⟨counts, by rw [removeExtra, hextra hremove record hrecord]; rfl⟩
        obtain ⟨counts', hcounts'⟩ := fold_eq_pure hkeep counts
        simp only [hcounts, hremove, if_true, trace_bind, trace_pure, run_pure, hcounts'] at hrest
        cases hrest
      · simp only [hcounts, hremove, trace_bind, trace_pure, run_pure] at hrest
        cases hrest
    · cases hrest
    · cases hrest

/-- A run without a mutation leaves the records as they are. -/
theorem records_of_no_mutation {env : ZoneEnv}
    (h : ∀ e ∈ trace (zoneStep env) (reconcileDomains request) z, ¬ Mutates e.1) :
    (run (zoneStep env) (reconcileDomains request) z).2.records = z.records := by
  refine keeps_of_trace (P := fun o => ¬ Mutates o) (I := fun z' => z'.records = z.records)
    (fun o z' ho hz' => ?_) h rfl
  obtain rfl : o = .listDnsRecords := not_not.mp ho
  rw [zoneStep]
  split <;> exact hz'

/-! ## When it converges -/

/-- An id that no record has: longer than all of them. -/
def freshId (ids : List Str) : Str := List.replicate (ids.flatten.length + 1) 'r'

theorem freshId_not_mem (ids : List Str) : freshId ids ∉ ids := by
  intro hmem
  have hle := (List.sublist_flatten_of_mem hmem).length_le
  rw [freshId, List.length_replicate] at hle
  omega

/-- No call fails. -/
def quietZone : ZoneEnv where
  newId := fun _ => freshId
  newId_fresh := fun _ => freshId_not_mem
  fault := fun _ _ => .none

theorem quietZone_healthy : quietZone.Healthy := fun _ _ => rfl

/-- The condition is enough for each domain to have its one record. -/
theorem OneStays.one (h : OneStays request z) (hafter : ZoneAfter request z z') {domain : Str}
    (hdomain : domain ∈ request.desiredDomains) :
    ∃ record, recordsNamed z' domain = [record] ∧ Right request record := by
  rw [one_iff hafter hdomain]
  rcases h domain hdomain with hnone | ⟨record, hrecord, hspelled, hholds, hothers⟩
  · exact Or.inl hnone
  · refine Or.inr ⟨record, hrecord, ?_, hholds, fun other hother hne => ?_⟩
    · by_contra hnot
      obtain ⟨hremove, -, hextra⟩ := (not_kept_iff (mem_recordsNamed.mp hrecord).2.1).mp (by simpa using hnot)
      exact hextra (hspelled hremove)
    · exact (not_kept_iff (mem_recordsNamed.mp hother).2.1).mpr (hothers other hother hne)

/-- No record that the run leaves is an extra one to the next. -/
theorem OneStays.no_extra (h : OneStays request z) (hafter : ZoneAfter request z z')
    (hremove : request.removeExtraDomains = true) {record : CloudflareDnsRecord} (hrecord : record ∈ z'.listed) :
    isExtra request record = false := by
  obtain ⟨created, hcreated, hrecords⟩ := hafter
  by_contra hextra
  rw [Bool.not_eq_false, isExtra, Bool.and_eq_true, Bool.not_eq_true', ← Bool.not_eq_true,
    Std.ExtTreeSet.contains_iff_mem] at hextra
  obtain ⟨hpoints, hname⟩ := hextra
  have hmem := (mem_listed.mp hrecord).1
  rw [hrecords, List.mem_append] at hmem
  rcases hmem with hold | hnew
  · obtain ⟨before, hbefore, rfl⟩ := List.mem_map.mp hold
    obtain ⟨hin, hkept⟩ := List.mem_filter.mp hbefore
    rw [revised_name] at hname
    by_cases hchosen : ∃ domain ∈ request.desiredDomains, firstNamed z.listed domain = some before
    · -- the record that stays for the domain is spelled as a desired one
      obtain ⟨domain, hdomain, hfirst⟩ := hchosen
      have hof : before ∈ recordsNamed z domain := mem_recordsNamed.mpr (firstNamed_mem hfirst)
      rcases h domain hdomain with ⟨hempty, -⟩ | ⟨stays, -, hspelled, -, hothers⟩
      · rw [hempty] at hof
        cases hof
      · by_cases hsame : before = stays
        · exact hname (hsame ▸ hspelled hremove)
        · rw [(not_kept_iff (mem_recordsNamed.mp hof).2.1).mpr (hothers before hof hsame)] at hkept
          cases hkept
    · have hid : revised request z.listed request.desiredDomains.toList before = before :=
        revised_of_unchosen fun domain hdomain hfirst => hchosen ⟨domain, hdomain, hfirst⟩
      rw [hid, Bool.and_eq_true, decide_eq_true_eq, decide_eq_true_eq] at hpoints
      rw [(not_kept_iff hpoints.1).mpr ⟨hremove, hpoints.2, hname⟩] at hkept
      cases hkept
  · exact hname (created_mem hcreated hnew).1

theorem OneStays.converges (h : OneStays request z) : Converges request z := by
  intro env result z' hrun
  have hafter := reconcileDomains_ok hrun
  refine ⟨fun domain hdomain => h.one hafter hdomain, fun record hrecord hforeign hunnamed => ?_,
    fun m => reconcileDomains_counts m hrun, fun env' => settled_run env' (fun domain hdomain => ?_)
      fun hremove record hrecord => h.no_extra hafter hremove hrecord⟩
  · obtain ⟨created, -, hrecords⟩ := hafter
    have hkept : kept request record = true := by simp [kept, isExtra, hforeign]
    have hid : revised request z.listed request.desiredDomains.toList record = record := by
      refine revised_of_unchosen fun domain hdomain hfirst => ?_
      have hnamed := (firstNamed_mem hfirst).2.2
      rw [hunnamed domain hdomain] at hnamed
      cases hnamed
    rw [hrecords, List.mem_append]
    exact Or.inl (List.mem_map.mpr ⟨record, List.mem_filter.mpr ⟨hrecord, hkept⟩, hid⟩)
  · obtain ⟨record, hone, hright⟩ := h.one hafter hdomain
    have htype := (mem_recordsNamed.mp (hone ▸ List.mem_singleton_self record)).2.1
    refine ⟨record, ?_, by simp [upToDate, htype, hright.1, hright.2]⟩
    rw [← head_recordsNamed, hone]
    rfl

/-- Had the record that stays another spelling, the next run would remove it. -/
theorem Converges.spelled (h : Converges request z) {domain : Str} {record : CloudflareDnsRecord}
    (hdomain : domain ∈ request.desiredDomains) (hrecord : record ∈ recordsNamed z domain)
    (hkept : kept request record = true)
    (hholds : (recordsNamed z domain).head? = some record ∨ Right request record)
    (hremove : request.removeExtraDomains = true) : record.name ∈ request.desiredDomains := by
  by_contra hname
  obtain ⟨result, z1, hrun⟩ := reconcileDomains_returns quietZone_healthy request z
  obtain ⟨-, -, -, hsecond⟩ := h quietZone result z1 hrun
  have hsame := records_of_no_mutation (hsecond quietZone)
  obtain ⟨created, -, hrecords⟩ := reconcileDomains_ok hrun
  obtain ⟨hin, htype, hnamed⟩ := mem_recordsNamed.mp hrecord
  -- the record as the first run leaves it is an extra one
  have hleft := List.mem_map_of_mem (f := revised request z.listed request.desiredDomains.toList)
    (List.mem_filter.mpr ⟨hin, hkept⟩)
  generalize hafter : revised request z.listed request.desiredDomains.toList record = after at hleft
  have hin1 : after ∈ z1.records := by
    rw [hrecords]
    exact List.mem_append_left _ hleft
  have hremoved : kept request after = false := by
    rw [← hafter]
    refine (not_kept_iff ((revised_type _ _).trans htype)).mpr ⟨hremove, ?_, by simpa using hname⟩
    rw [revised_eq hdomain hnamed]
    rw [head_recordsNamed] at hholds
    split
    · rfl
    · exact (hholds.resolve_left ‹_›).1
  -- so the second one removes it
  obtain ⟨result2, z2, hrun2⟩ := reconcileDomains_returns quietZone_healthy request z1
  rw [hrun2] at hsame
  exact not_mem_after (reconcileDomains_ok hrun2) hin1 hremoved (hsame ▸ hin1)

/-- Exactly then does a reconciliation do what was asked. -/
theorem converges_iff : Converges request z ↔ OneStays request z := by
  refine ⟨fun h domain hdomain => ?_, OneStays.converges⟩
  obtain ⟨result, z1, hrun⟩ := reconcileDomains_returns quietZone_healthy request z
  have hone := (h quietZone result z1 hrun).1 domain hdomain
  rcases (one_iff (reconcileDomains_ok hrun) hdomain).mp hone with hnone | ⟨record, hrecord, hkept, hholds, hothers⟩
  · exact Or.inl hnone
  · refine Or.inr ⟨record, hrecord, h.spelled hdomain hrecord hkept hholds, hholds, fun other hother hne => ?_⟩
    exact (not_kept_iff (mem_recordsNamed.mp hother).2.1).mp (hothers other hother hne)

end

/-! ## A record in capital letters -/

def wwwRequest : CdnDomainReconcileRequest where
  originId := "site".toList
  desiredDomains := .ofList ["www.a.com".toList]
  originDomain := "edge.a.com".toList
  certificateArn := none
  proxied := true
  removeExtraDomains := true

def capitalZone : Zone where
  records := [⟨"1".toList, "CNAME".toList, "WWW.a.com".toList, "edge.a.com".toList, true⟩]
  ids := List.nodup_singleton _
  clock := 0

/-- The record is counted as unchanged and removed: `www.a.com` has none left. -/
theorem desired_record_removed : ¬ Converges wwwRequest capitalZone := by
  have hcounts : (run (zoneStep quietZone) (reconcileDomains wwwRequest) capitalZone).1.ok?.map
      (fun result => (result.unchanged, result.removed)) = some (1, 1) := by decide +kernel
  have hempty : (run (zoneStep quietZone) (reconcileDomains wwwRequest) capitalZone).2.records = [] := by
    decide +kernel
  intro h
  generalize hrun : run (zoneStep quietZone) (reconcileDomains wwwRequest) capitalZone = r at hcounts hempty
  obtain ⟨result | e | _, z'⟩ := r
  · obtain ⟨record, hone, -⟩ := (h quietZone result z' hrun).1 "www.a.com".toList (by decide +kernel)
    rw [recordsNamed, hempty] at hone
    cases hone
  · cases hcounts
  · cases hcounts

end RenderMesh.Bugs.SpelledRecords
