import RenderMesh.Bugs.StaleMirror
import RenderMesh.Refresh.Barrier

/-!
# A listing that a publication overtakes

Behaviour (`src/src/services/origin_refresh.rs:440-472`, `repositories/sync.rs:153-187`):
the barrier is compared with the one of the last activation, by its state in the
listing. Keys that are listed with their old state are not fetched, so nothing looks
at them again. A listing that sees such a key before a publication and the barrier
after it passes, with the old object and the new barrier.

Documented: "a publication that overlaps a refresh is rejected instead of activating
a mixed generation" (`README.md:150-152`).

Counterexample: the listing sees `a` before the second publication and the barrier
after it; the generation has the first `a` and the second barrier
(`overtaken_generation`).

Condition: `one_publication`. In a run whose listings are not `Overtaken`, and see
something at first, and whose refreshes meet what `StaleMirror` asks for, the mirror
is always one complete publication.
-/
namespace RenderMesh.Bugs.OvertakenListing

open RenderMesh.Core RenderMesh.Mirror RenderMesh.Server RenderMesh.Refresh
open RenderMesh.Bugs.StaleMirror

/-- The mirror of `id` has these objects and no other. -/
def MirrorOf (id : Str) (objects : Objects) (w : World) : Prop :=
  ∀ r b, r ≠ [] → r.head? ≠ some metaName → (w.under id r = some (.file b) ↔
    ∃ k object, objects k = some object ∧ r = names k ∧ object.body = b)

/-- A listing that a publication overtakes, or one that sees nothing when nothing was activated. -/
def Divides (env : Env) (id : Str) {deps : Deps} (h : History deps) (seen : Nat → Str → Nat)
    (index : Option OriginFreshnessIndex) (o : Op) (w : World) : Prop :=
  o = .listObjects id ∧
    (Overtaken h seen w.clock ∨ index = none ∧ env.listObjects w.clock id = .ok [])

/-- The next refresh of `id` has no listing that divides it, and no step that tears its mirror or
misleads its staging. -/
structure Undivided (deps : Deps) (env : Env) (service : OriginRefreshService) (id : Str)
    (h : History deps) (seen : Nat → Str → Nat) (w : World) : Prop
    extends Clean deps env service id w where
  listing : ∀ e ∈ trace (step deps env) (stageOriginSync deps id (w.freshnessIndexes id))
    (w.lock id).tick, ¬ Divides env id h seen (w.freshnessIndexes id) e.1 e.2

/-- The index has the ETags of these objects. -/
def Describes (objects : Objects) (index : OriginFreshnessIndex) : Prop :=
  ∀ k, (index.files[k]?).map (·.etag) = (objects k).map (·.etag)

section
variable {deps : Deps} {env : Env} {service : OriginRefreshService} {id : Str} {h : History deps}
  {start : Nat → Nat} {seen : Nat → Str → Nat}

/-- What was activated: its files are those of the index, which describes a publication. -/
structure Whole (h : History deps) (start : Nat → Nat) (id : Str) (index : OriginFreshnessIndex)
    (w : World) : Prop where
  files : ∀ r b, r ≠ [] → r.head? ≠ some metaName → w.under id r = some (.file b) →
    ∃ k ∈ index.files, r = names k
  complete : ∃ i ≤ start w.clock, (h.state i).Complete ∧ Describes (h.state i).objects index

/-- The invariant of a run. -/
structure Invariant (deps : Deps) (env : Env) (h : History deps) (start : Nat → Nat) (id : Str)
    (w : World) : Prop where
  held : AllHeld deps env id False w
  whole : ∀ index, w.freshnessIndexes id = some index → Whole h start id index w

theorem Whole.same {index : OriginFreshnessIndex} {w w' : World} (hw : Whole h start id index w)
    (hstart : Monotone start) (hfiles : ∀ r, w'.under id r = w.under id r)
    (hclock : w.clock ≤ w'.clock) : Whole h start id index w' := by
  refine ⟨fun r b hr hmeta hb => hw.files r b hr hmeta ((hfiles r).symm.trans hb), ?_⟩
  obtain ⟨i, hi, hcomplete⟩ := hw.complete
  exact ⟨i, hi.trans (hstart hclock), hcomplete⟩

theorem Invariant.kept {w w' : World} (hinv : Invariant deps env h start id w)
    (hstart : Monotone start) (hk : Kept id w w') (hclock : w.clock ≤ w'.clock) :
    Invariant deps env h start id w' := by
  refine ⟨hinv.held.kept hk hclock, fun index hindex => ?_⟩
  rw [hk.stores.freshnessIndexes] at hindex
  exact (hinv.whole index hindex).same hstart (fun r => hk.mirror _ (List.prefix_append _ _)) hclock

theorem Invariant.data {w w' : World} (hinv : Invariant deps env h start id w)
    (hstart : Monotone start) (hd : SameData w w') : Invariant deps env h start id w' := by
  refine ⟨hinv.held.data hd, fun index hindex => ?_⟩
  rw [hd.freshnessIndexes] at hindex
  exact (hinv.whole index hindex).same hstart (fun r => by simp only [World.under, hd.fs]) hd.clock

/-! ## One activation -/

/-- An index has the ETags that its listing saw. -/
theorem etag_of_listed (hobs : Observes env id h start seen) {n now : Nat}
    {summaries : List RemoteObjectSummary} {index : OriginFreshnessIndex}
    (hlist : env.listObjects n id = .ok summaries)
    (hindex : buildOriginIndex id summaries now = .ok index) (k : Str) :
    (index.files[k]?).map (·.etag) = ((h.state (seen n k)).objects k).map (·.etag) := by
  obtain ⟨hsome, hall⟩ := hobs.lists n summaries hlist k
  cases hst : index.files[k]? with
  | some st =>
    obtain ⟨s, hs, hkey, rfl⟩ := buildOriginIndex_state hindex hst
    obtain ⟨object, hobject, hetag⟩ := hsome s hs hkey
    rw [hobject]
    exact congrArg some hetag
  | none =>
    cases hobject : (h.state (seen n k)).objects k with
    | none => rfl
    | some object =>
      have hmem := (mem_files_iff hindex k).mpr (hall object hobject)
      rw [Std.TreeMap.mem_iff_isSome_getElem?, hst] at hmem
      cases hmem

/-- Without a change an index describes what the one before it did. -/
theorem describes_of_no_change {previous index : OriginFreshnessIndex} {objects : Objects}
    (hd : Describes objects previous)
    (hchanged : ∀ k, k ∉ (diffOriginIndexes (some previous) index).changedPaths)
    (hremoved : ∀ k, k ∉ (diffOriginIndexes (some previous) index).removed) :
    Describes objects index := by
  intro k
  rw [← hd k]
  cases hst : index.files[k]? with
  | some st =>
    obtain ⟨st', hst', hsame⟩ := previous_of_not_changed _ _ k hst (hchanged k)
    rw [show previous.files[k]? = some st' from hst']
    exact congrArg some (sameSourceState_etag hsame).symm
  | none =>
    cases hst' : previous.files[k]? with
    | none => rfl
    | some st' =>
      refine absurd ((mem_removed _ _ k).mpr ⟨fun hk => ?_, ?_⟩) (hremoved k)
      · rw [Std.TreeMap.mem_iff_isSome_getElem?, hst] at hk
        cases hk
      · rw [show previousFile (some previous) k = some st' from hst']
        rfl

/-- When the barrier that was listed is fetched later with the same content, the listing saw one
publication. -/
theorem describes_of_barrier (hobs : Observes env id h start seen) {n : Nat}
    {index : OriginFreshnessIndex}
    (hetags : ∀ k, (index.files[k]?).map (·.etag) = ((h.state (seen n k)).objects k).map (·.etag))
    (hnot : ¬ Overtaken h seen n) (hsettled : (h.state (seen n edgeYaml)).Settled deps)
    {barrier barrier' : RemoteObject}
    (hb : (h.state (seen n edgeYaml)).objects edgeYaml = some barrier) {i : Nat}
    (hi : start (n + 1) ≤ i) (hb' : (h.state i).objects edgeYaml = some barrier')
    (hbody : barrier'.body = barrier.body) :
    Describes (h.state (seen n edgeYaml)).objects index := by
  intro k
  rw [hetags k]
  refine congrArg (Option.map _) ?_
  by_cases horder : seen n edgeYaml ≤ seen n k
  · -- seen after the barrier, and before the barrier was fetched
    have hk := (hobs.during n k).2.trans hi
    rw [h.same_of_barrier horder hk hsettled hb hb' hbody]
  · by_contra hne
    by_cases hcount : (h.state (seen n k)).published.length <
        (h.state (seen n edgeYaml)).published.length
    · exact hnot ⟨k, hcount, hne⟩
    · rw [h.same_of_count (by omega) hsettled.1 (by omega)] at hne
      exact hne rfl

/-- An activation that was not divided keeps the invariant. -/
theorem invariant_of_refreshed (hobs : Observes env id h start seen)
    {cdn : Option OriginCdnRefresh} {w w' : World} (hinv : Invariant deps env h start id w)
    (hclock : w.clock ≤ w'.clock) (href : Refreshed deps env id cdn (some edgeYaml) w w')
    (hstaging : ∀ e ∈ trace (step deps env) (stageOriginSync deps id (w.freshnessIndexes id)) w.tick,
      misleads env id e.1 e.2 = false)
    (hlisting : ∀ e ∈ trace (step deps env) (stageOriginSync deps id (w.freshnessIndexes id)) w.tick,
      ¬ Divides env id h seen (w.freshnessIndexes id) e.1 e.2) :
    Invariant deps env h start id w' := by
  obtain ⟨index, wl, hindex, hfrom⟩ := refreshed_builtFrom
    (T := fun o wl => misleads env id o wl = true ∨
      Divides env id h seen (w.freshnessIndexes id) o wl)
    (fun o wl hprobe => Or.inl (by rw [misleads, hprobe, Bool.true_or]))
    (fun e he => not_or.mpr ⟨by rw [hstaging e he]; simp, hlisting e he⟩) href
  obtain ⟨hmisleads, hdivides⟩ := not_or.mp hfrom.allowed
  obtain ⟨summaries, now, hlist, hbuild⟩ := hfrom.listing
  have hfirst := hfrom.first
  have hlast := hfrom.last
  have hplain := plain_of_listed
    ⟨wl, summaries, now, hfirst, hlast, hmisleads, hlist, hbuild⟩
  have hbuilt := hfrom.built hplain
  have hetags := etag_of_listed hobs hlist hbuild
  have hpassed := href.barrier (fun e he hprobe => by
    have := hstaging e he
    rw [misleads, hprobe] at this
    cases this) hindex
  refine ⟨allHeld_of_built hinv.held hindex hclock (hbuilt.mono (by omega)) False.elim, ?_⟩
  intro index' hindex'
  rw [hindex] at hindex'
  cases hindex'
  refine ⟨hbuilt.files, ?_⟩
  rcases validateActivationBarrier_ok hpassed with ⟨hchanged, hremoved⟩ | hbarrier
  · -- nothing changed: the publication is the one before
    cases hprevious : w.freshnessIndexes id with
    | none =>
      refine absurd ⟨rfl, Or.inr ⟨hprevious, ?_⟩⟩ hdivides
      rw [hlist]
      cases summaries with
      | nil => rfl
      | cons s rest =>
        have hmem := (mem_files_iff hbuild s.key).mpr ⟨s, List.mem_cons_self, rfl⟩
        rw [Std.TreeMap.mem_iff_isSome_getElem?] at hmem
        obtain ⟨st, hst⟩ := Option.isSome_iff_exists.mp hmem
        refine absurd ((mem_changedPaths _ _ _).mpr ⟨st, hst, ?_⟩) (hchanged s.key)
        rw [hprevious]
        intro p hp
        cases hp
    | some previous =>
      rw [hprevious] at hchanged hremoved
      obtain ⟨i, hi, hcomplete, hd⟩ := (hinv.whole previous hprevious).complete
      exact ⟨i, hi.trans (hobs.order hclock), hcomplete,
        describes_of_no_change hd hchanged hremoved⟩
  · -- the barrier was fetched after the listing, as it was listed
    obtain ⟨fetched, ⟨t, st, ht, hlt, hget, hst, hval⟩, hbody, -⟩ := hbuilt.changed _ hbarrier
    obtain ⟨i, hi, -, hfetched⟩ := hobs.gets t edgeYaml fetched hget
    have hlisted := hetags edgeYaml
    rw [hst] at hlisted
    obtain ⟨barrier, hb, hetag⟩ := Option.map_eq_some_iff.mp hlisted.symm
    change barrier.etag = st.etag at hetag
    obtain ⟨htag, hsame⟩ := hobs.etags _ _ _ _ _ hb hfetched
    have hsameBody := hsame (hetag.trans
      ((validateDownloadedObject_ok hval).2.2.1 (by rw [← hetag]; exact htag)).symm)
    have hconf := href.configures hbody
    have hbefore : seen wl.clock edgeYaml ≤ start w'.clock :=
      (hobs.during wl.clock edgeYaml).2.trans (hobs.order (by omega))
    rcases h.between (seen wl.clock edgeYaml) with hsettled | ⟨-, blocked, hblocked, hno⟩
    · refine ⟨seen wl.clock edgeYaml, hbefore, ?_, describes_of_barrier hobs hetags
        (fun ho => hdivides ⟨rfl, Or.inl ho⟩) hsettled hb ((hobs.order ht).trans hi) hfetched
        hsameBody.symm⟩
      obtain ⟨hclosed, ⟨-, hnone⟩ | ⟨hpublished, -⟩⟩ := hsettled
      · rw [hnone] at hb
        cases hb
      · exact ⟨hclosed, hpublished⟩
    · -- a blocked barrier does not configure anything
      rw [hb] at hblocked
      cases hblocked
      rw [hsameBody, hconf] at hno
      cases hno

/-! ## Runs -/

theorem invariant_step (hobs : Observes env id h start seen)
    (hbarrier : service.activationBarrier id = some edgeYaml) {w : World}
    (hinv : Invariant deps env h start id w) (hw : Undivided deps env service id h seen w) :
    Invariant deps env h start id (refreshOrigin deps env service id w).2 := by
  rcases @refreshOrigin_cases deps env service id w with
    ⟨hsame, -⟩ | ⟨out, w', hrun, hdata, -⟩
  · rwa [hsame]
  have hlock : SameData w (w.lock id) := ⟨rfl, rfl, rfl, rfl, Nat.le_refl _⟩
  have hends := ends_iff.mp (@refreshOriginSnapshot_kept deps env id
    (fun o w' => tearsMirror env id (w.fs.lookup (names id)).isSome o w' = true)
    (w.lock id) (fun o w' h => h) (service.cdn id) (service.activationBarrier id))
    fun e he => by rw [hw.swap e he]; simp
  have hclock : (w.lock id).clock ≤ w'.clock := run_clock deps env hrun
  unfold pipeline at hrun
  rw [hrun] at hends
  have hstart := hinv.data hobs.order hlock
  rcases hends with ⟨-, href⟩ | ⟨-, hkept⟩
  · rw [hbarrier] at href
    exact (invariant_of_refreshed hobs hstart hclock href hw.staging hw.listing).data hobs.order hdata
  · exact (hstart.kept hobs.order hkept hclock).data hobs.order hdata

theorem invariant_refreshes (hobs : Observes env id h start seen)
    (hbarrier : service.activationBarrier id = some edgeYaml) {fs : Tree} (n : Nat)
    (hrun : ∀ i, i < n → Undivided deps env service id h seen (refreshes deps env service id fs i)) :
    Invariant deps env h start id (refreshes deps env service id fs n) := by
  induction n with
  | zero => constructor <;> (intro index hnone; cases hnone)
  | succ n ih =>
    exact invariant_step hobs hbarrier (ih fun i hi => hrun i (Nat.lt_succ_of_lt hi))
      (hrun n n.lt_succ_self)

/-- Where the index describes a publication, the mirror is it. -/
theorem mirrorOf_of_invariant (hobs : Observes env id h start seen) {w : World}
    (hinv : Invariant deps env h start id w) {index : OriginFreshnessIndex}
    (hindex : w.freshnessIndexes id = some index) :
    ∃ i ≤ start w.clock, (h.state i).Complete ∧ MirrorOf id (h.state i).objects w := by
  obtain ⟨hfiles, i, hi, hcomplete, hd⟩ := hinv.whole index hindex
  -- an object of the publication is what the mirror holds for its key
  have hbody : ∀ k st object, index.files[k]? = some st → (h.state i).objects k = some object →
      w.under id (names k) = some (.file object.body) := by
    intro k st object hst hobject
    obtain ⟨t, st', fetched, -, hget, hval, hsame, hfile, -⟩ := hinv.held index hindex k st hst
    obtain ⟨j, -, -, hfetched⟩ := hobs.gets t k fetched hget
    obtain ⟨htag, hcontent⟩ := hobs.etags _ _ _ _ _ hobject hfetched
    have hetag : st.etag = object.etag := by
      have := hd k
      rw [hst, hobject] at this
      exact Option.some.inj this
    have hst' : st'.etag = st.etag := sameSourceState_etag hsame
    have hf : fetched.etag = st'.etag :=
      (validateDownloadedObject_ok hval).2.2.1 (by rw [hst', hetag]; exact htag)
    rw [hcontent (by rw [hf, hst', hetag])]
    exact hfile
  refine ⟨i, hi, hcomplete, fun r b hr hmeta => ⟨fun hb => ?_, ?_⟩⟩
  · obtain ⟨k, hk, rfl⟩ := hfiles r b hr hmeta hb
    obtain ⟨st, hst⟩ := Option.isSome_iff_exists.mp (Std.TreeMap.mem_iff_isSome_getElem?.mp hk)
    have hlisted := hd k
    rw [hst] at hlisted
    obtain ⟨object, hobject, -⟩ := Option.map_eq_some_iff.mp hlisted.symm
    refine ⟨k, object, hobject, rfl, ?_⟩
    rw [hbody k st object hst hobject] at hb
    cases hb
    rfl
  · rintro ⟨k, object, hobject, rfl, rfl⟩
    have hlisted := hd k
    rw [hobject] at hlisted
    obtain ⟨st, hst, -⟩ := Option.map_eq_some_iff.mp hlisted
    exact hbody k st object hst hobject

end

theorem one_publication (deps : Deps) (env : Env) (service : OriginRefreshService) (id : Str)
    (h : History deps) (start : Nat → Nat) (seen : Nat → Str → Nat) (fs : Tree)
    (hobs : Observes env id h start seen)
    (hbarrier : service.activationBarrier id = some edgeYaml) (n : Nat)
    (hrun : ∀ i, i < n → Undivided deps env service id h seen (refreshes deps env service id fs i))
    (index : OriginFreshnessIndex)
    (hindex : (refreshes deps env service id fs n).freshnessIndexes id = some index) :
    ∃ i ≤ start (refreshes deps env service id fs n).clock, (h.state i).Complete ∧
      MirrorOf id (h.state i).objects (refreshes deps env service id fs n) :=
  mirrorOf_of_invariant hobs (invariant_refreshes hobs hbarrier n hrun) hindex

/-! ## A publication -/

/-- An object with the body `n` and an ETag of its own. -/
def stored (key : Str) (n : UInt8) : RemoteObject :=
  ⟨key, [n], some (List.replicate n.toNat 'v'), none, none, none⟩

/-- A publication of two objects. -/
def site (n : UInt8) : Objects := fun k =>
  if k = edgeYaml ∨ k = "a".toList then some (stored k n) else none

def siteDeps : Deps :=
  { smallDeps with
    edgeConfigOfYaml := fun content =>
      if content = ['\x00'] then .error "invalid type".toList else .ok defaultEdgeConfig }

def guardedService : OriginRefreshService :=
  { plainService with activationBarrier := fun _ => some edgeYaml }

def firstSite : Publisher := ⟨site 1, false, [[1]], [site 1]⟩

/-- The first publication is replaced by the second. -/
def replacement : List Write :=
  [.block (stored edgeYaml 0), .change "a".toList (some (stored "a".toList 2)),
    .complete (stored edgeYaml 2)]

theorem firstSite_settled : firstSite.Settled siteDeps :=
  ⟨rfl, Or.inr ⟨List.mem_cons_self, stored edgeYaml 1, by decide, by decide +kernel, by decide⟩⟩

theorem replacement_follows : firstSite.Follows siteDeps replacement :=
  ⟨⟨rfl, by decide +kernel⟩, ⟨rfl, by decide⟩, ⟨rfl, by decide +kernel, by decide⟩, trivial⟩

def siteHistory : History siteDeps :=
  .ofWrites firstSite firstSite_settled replacement replacement_follows

theorem siteHistory_stored (i : Nat) (k : Str) (object : RemoteObject)
    (hobject : (siteHistory.state i).objects k = some object) :
    k ∈ [edgeYaml, "a".toList] ∧ ∃ n, object = stored k n := by
  have hupdate : ∀ (objects : Objects) (key : Str) (n : UInt8), key ∈ [edgeYaml, "a".toList] →
      (∀ k object, objects k = some object → k ∈ [edgeYaml, "a".toList] ∧ ∃ n, object = stored k n) →
      ∀ k object, Function.update objects key (some (stored key n)) k = some object →
        k ∈ [edgeYaml, "a".toList] ∧ ∃ n, object = stored k n := by
    intro objects key n hkey hold k object hk
    by_cases hsame : k = key
    · subst hsame
      rw [Function.update_self] at hk
      cases hk
      exact ⟨hkey, n, rfl⟩
    · rw [Function.update_of_ne hsame] at hk
      exact hold k object hk
  refine List.foldlRecOn (motive := fun p => ∀ k object, p.objects k = some object →
    k ∈ [edgeYaml, "a".toList] ∧ ∃ n, object = stored k n) (replacement.take i) Publisher.write
    (fun k object hk => ?_) (fun p hp action ha => ?_) k object hobject
  · simp only [firstSite, site] at hk
    split at hk
    · rename_i hkey
      cases hk
      exact ⟨by simpa using hkey, 1, rfl⟩
    · cases hk
  · rcases List.mem_cons.mp (List.mem_of_mem_take ha) with rfl | ha
    · exact hupdate p.objects edgeYaml 0 (by simp) hp
    rcases List.mem_cons.mp ha with rfl | ha
    · exact hupdate p.objects "a".toList 2 (by simp) hp
    · rw [List.mem_singleton.mp ha]
      exact hupdate p.objects edgeYaml 2 (by simp) hp

/-- Between publications the storage has the first or the second. -/
theorem siteHistory_complete (i : Nat) (hi : (siteHistory.state i).Complete) :
    ∃ n, (siteHistory.state i).objects = site n := by
  match i with
  | 0 => exact ⟨1, rfl⟩
  | 1 => exact absurd hi.1 (by decide)
  | 2 => exact absurd hi.1 (by decide)
  | i + 3 =>
    refine ⟨2, funext fun k => ?_⟩
    have hall : replacement.take (i + 3) = replacement := List.take_of_length_le (by simp [replacement])
    show (firstSite.after (replacement.take (i + 3))).objects k = _
    rw [hall]
    simp only [Publisher.after, replacement, List.foldl, Publisher.write, firstSite, site,
      Function.update_apply]
    by_cases hk : k = edgeYaml
    · rw [if_pos hk, if_pos (Or.inl hk), hk]
    by_cases ha : k = "a".toList
    · rw [if_neg hk, if_pos ha, if_pos (Or.inr ha), ha]
    · have hneither : ¬ (k = edgeYaml ∨ k = "a".toList) := not_or.mpr ⟨hk, ha⟩
      rw [if_neg hk, if_neg ha, if_neg hk, if_neg hneither, if_neg hneither]

/-- A storage that answers from the history of the site. -/
def siteEnv (start : Nat → Nat) (seen : Nat → Str → Nat) : Env :=
  { calmEnv with
    listObjects := fun n _ => .ok ([edgeYaml, "a".toList].filterMap fun k =>
      ((siteHistory.state (seen n k)).objects k).map fun object =>
        ⟨k, none, object.etag, object.lastModified, object.body.length, none, none⟩)
    getObject := fun n _ k =>
      match (siteHistory.state (start (n + 1))).objects k with
      | some object => .ok object
      | none => .err (anyhow "no such key".toList) }

theorem siteEnv_observes {start : Nat → Nat} {seen : Nat → Str → Nat} (id : Str)
    (horder : Monotone start) (hduring : ∀ n k, start n ≤ seen n k ∧ seen n k ≤ start (n + 1)) :
    Observes (siteEnv start seen) id siteHistory start seen := by
  refine ⟨horder, hduring, fun n summaries hlist k => ⟨fun s hs hkey => ?_, fun object hobject => ?_⟩,
    fun n k object hget => ?_, fun i j k object object' h1 h2 => ?_⟩
  · cases hlist
    obtain ⟨k', -, hk'⟩ := List.mem_filterMap.mp hs
    obtain ⟨object, hobject, rfl⟩ := Option.map_eq_some_iff.mp hk'
    cases hkey
    exact ⟨object, hobject, rfl⟩
  · cases hlist
    exact ⟨_, List.mem_filterMap.mpr ⟨k, (siteHistory_stored _ k object hobject).1,
      Option.map_eq_some_iff.mpr ⟨object, hobject, rfl⟩⟩, rfl⟩
  · refine ⟨start (n + 1), horder n.le_succ, Nat.le_refl _, ?_⟩
    simp only [siteEnv] at hget
    split at hget
    · rename_i found hfound
      cases hget
      exact hfound
    · cases hget
  · obtain ⟨-, n, rfl⟩ := siteHistory_stored i k object h1
    obtain ⟨-, m, rfl⟩ := siteHistory_stored j k object' h2
    refine ⟨rfl, fun hetag => ?_⟩
    have hlen := congrArg List.length (Option.some.inj hetag)
    rw [List.length_replicate, List.length_replicate] at hlen
    rw [stored, stored, UInt8.toNat_inj.mp hlen]

/-- The replacement happens in the call at clock `l`. -/
def replacedAt (l n : Nat) : Nat := if n ≤ l then 0 else 3

theorem replacedAt_monotone (l : Nat) : Monotone (replacedAt l) := by
  intro n m hnm
  unfold replacedAt
  split
  · exact Nat.zero_le _
  · rw [if_neg (by omega)]

/-- The states after the refreshes of the site. -/
def served (seen : Nat → Str → Nat) (l n : Nat) : World :=
  refreshes siteDeps (siteEnv (replacedAt l) seen) guardedService "web".toList FileTree.empty n

/-- Listings that see all keys at once. -/
def atOnce (l : Nat) : Nat → Str → Nat := fun n _ => replacedAt l n

/-- A listing at once is not divided: the site always has two objects. -/
theorem atOnce_undivided (l : Nat) (index : Option OriginFreshnessIndex) (o : Op) (w : World) :
    ¬ Divides (siteEnv (replacedAt l) (atOnce l)) "web".toList siteHistory (atOnce l) index o w := by
  rintro ⟨-, ⟨k, hlt, -⟩ | ⟨-, hnone⟩⟩
  · exact absurd hlt (Nat.lt_irrefl _)
  · have hsome : ∀ i, i = 0 ∨ i = 3 → ([edgeYaml, "a".toList].filterMap fun k =>
        ((siteHistory.state i).objects k).map fun object => object.key) ≠ [] := by
      rintro i (rfl | rfl) <;> decide
    refine hsome (replacedAt l w.clock) ?_ ?_
    · unfold replacedAt
      split
      · exact Or.inl rfl
      · exact Or.inr rfl
    · simp only [siteEnv, atOnce, Outcome.ok.injEq, List.filterMap_eq_nil_iff,
        Option.map_eq_none_iff] at hnone ⊢
      exact hnone

/-- Which leaves what `StaleMirror` asks for. -/
theorem undivided_of_clean {l : Nat} {w : World}
    (hswap : ∀ e ∈ trace (step siteDeps (siteEnv (replacedAt l) (atOnce l)))
      (pipeline siteDeps guardedService "web".toList) (w.lock "web".toList),
      tearsMirror (siteEnv (replacedAt l) (atOnce l)) "web".toList
        (w.fs.lookup (names "web".toList)).isSome e.1 e.2 = false)
    (hstaging : ∀ e ∈ trace (step siteDeps (siteEnv (replacedAt l) (atOnce l)))
      (stageOriginSync siteDeps "web".toList (w.freshnessIndexes "web".toList))
      (w.lock "web".toList).tick,
      misleads (siteEnv (replacedAt l) (atOnce l)) "web".toList e.1 e.2 = false) :
    Undivided siteDeps (siteEnv (replacedAt l) (atOnce l)) guardedService "web".toList siteHistory
      (atOnce l) w :=
  ⟨⟨hswap, hstaging⟩, fun e _ => atOnce_undivided l (w.freshnessIndexes "web".toList) e.1 e.2⟩

/-- With the replacement between two refreshes the second activates the second publication. -/
theorem one_publication_between :
    ∃ index, (served (atOnce 60) 60 2).freshnessIndexes "web".toList = some index ∧
      ∃ i ≤ replacedAt 60 (served (atOnce 60) 60 2).clock, (siteHistory.state i).Complete ∧
        MirrorOf "web".toList (siteHistory.state i).objects (served (atOnce 60) 60 2) := by
  have hindex : ((served (atOnce 60) 60 2).freshnessIndexes "web".toList).isSome = true := by
    decide +kernel
  have hobs : Observes (siteEnv (replacedAt 60) (atOnce 60)) "web".toList siteHistory (replacedAt 60)
      (atOnce 60) := siteEnv_observes _ (replacedAt_monotone 60) fun n _ =>
    ⟨Nat.le_refl _, replacedAt_monotone 60 n.le_succ⟩
  have hall : ∀ n, (∀ i, i < n → Undivided siteDeps (siteEnv (replacedAt 60) (atOnce 60))
        guardedService "web".toList siteHistory (atOnce 60) (served (atOnce 60) 60 i)) →
      ∀ index, (served (atOnce 60) 60 n).freshnessIndexes "web".toList = some index →
      ∃ i ≤ replacedAt 60 (served (atOnce 60) 60 n).clock, (siteHistory.state i).Complete ∧
        MirrorOf "web".toList (siteHistory.state i).objects (served (atOnce 60) 60 n) :=
    fun n hrun => one_publication siteDeps (siteEnv (replacedAt 60) (atOnce 60)) guardedService
      "web".toList siteHistory (replacedAt 60) (atOnce 60) FileTree.empty hobs rfl n hrun
  obtain ⟨index, hindex⟩ := Option.isSome_iff_exists.mp hindex
  refine ⟨index, hindex, hall 2 (fun i hi => ?_) index hindex⟩
  obtain rfl | rfl : i = 0 ∨ i = 1 := by omega
  · exact undivided_of_clean (by decide +kernel) (by decide +kernel)
  · exact undivided_of_clean (by decide +kernel) (by decide +kernel)

/-! ## The counterexample -/

/-- The listing of the second refresh sees `a` before the replacement and the barrier after it. -/
def overtaken : Nat → Str → Nat := fun n k =>
  if k = edgeYaml then replacedAt 76 (n + 1) else replacedAt 76 n

theorem overtaken_during (n : Nat) (k : Str) :
    replacedAt 76 n ≤ overtaken n k ∧ overtaken n k ≤ replacedAt 76 (n + 1) := by
  have hle := replacedAt_monotone 76 n.le_succ
  unfold overtaken
  split
  · exact ⟨hle, Nat.le_refl _⟩
  · exact ⟨Nat.le_refl _, hle⟩

/-- A mirror of a site has one number in both files. -/
theorem number_of_site {id : Str} {n m : UInt8} {k : Str} {w : World}
    (hw : MirrorOf id (site n) w) (hk : names k ≠ []) (hmeta : (names k).head? ≠ some metaName)
    (hfile : w.under id (names k) = some (.file [m])) : m = n := by
  obtain ⟨k', object, hobject, -, hbody⟩ := (hw (names k) [m] hk hmeta).mp hfile
  unfold site at hobject
  split at hobject
  · cases hobject
    exact (List.cons.inj hbody).1.symm
  · cases hobject

/-- **Counterexample**: the generation that the second refresh activates has the first `a` and
the second barrier. -/
theorem overtaken_generation :
    Observes (siteEnv (replacedAt 76) overtaken) "web".toList siteHistory (replacedAt 76) overtaken ∧
    guardedService.activationBarrier "web".toList = some edgeYaml ∧
    ¬ ∀ n index, (served overtaken 76 n).freshnessIndexes "web".toList = some index →
      ∃ i ≤ replacedAt 76 (served overtaken 76 n).clock, (siteHistory.state i).Complete ∧
        MirrorOf "web".toList (siteHistory.state i).objects (served overtaken 76 n) := by
  refine ⟨siteEnv_observes _ (replacedAt_monotone 76) overtaken_during, rfl, fun hall => ?_⟩
  have hserved : ((served overtaken 76 2).freshnessIndexes "web".toList).isSome = true ∧
      (served overtaken 76 2).under "web".toList (names "a".toList) = some (.file [1]) ∧
      (served overtaken 76 2).under "web".toList (names edgeYaml) = some (.file [2]) := by
    decide +kernel
  obtain ⟨hindex, ha, hbarrier⟩ := hserved
  obtain ⟨index, hindex⟩ := Option.isSome_iff_exists.mp hindex
  obtain ⟨i, -, hcomplete, hmirror⟩ := hall 2 index hindex
  obtain ⟨n, hn⟩ := siteHistory_complete i hcomplete
  rw [hn] at hmirror
  have h1 := number_of_site hmirror (by decide) (by decide) ha
  have h2 := number_of_site hmirror (by decide) (by decide) hbarrier
  rw [← h1] at h2
  cases h2

end RenderMesh.Bugs.OvertakenListing
