import RenderMesh.Refresh.PurgeRecord
import RenderMesh.Refresh.Reload
import RenderMesh.Refresh.Shadows

/-!
# Purges that failed are not made again

Behaviour (`src/src/services/origin_refresh.rs:347-423`): a refresh stores the new index before it
asks the CDN to purge what changed. When the call fails the error is recorded and the refresh
returns; the next refresh compares with the new index, and its purge has the paths of its own
changes only.

Documented (`docs/superpowers/specs/2026-09-09-cloudfront-saas-design.md`): after a failure
"the next origin refresh can retry with a caller reference for its new generation and path set".

Counterexample: the purge of `/a` fails; the next refresh finds `b` added, and the provider
accepts a purge of `/b`. There is no purge of `/a` (`first_purge_lost`).

Condition: `no_invalidation_lost_iff`. The strategy is to purge all. Or the refreshes compare with
the index of the mirror they replace (`InStep`): none stops between the mirror and the index, and the
first one lists what an earlier process left; and after every purge that was not accepted the next
accepted one is of a refresh that finds the same paths (or URLs) changed again.
-/
namespace RenderMesh.Bugs.LostPurges

open RenderMesh.Core RenderMesh.Mirror RenderMesh.Server RenderMesh.Refresh RenderMesh.Cdn

/-! ## What a refresh changes -/

/-- The file of a key and its sidecar, if there is a file. -/
def objectAt (deps : Deps) (id k : Str) (w : World) : Option (Bytes × Option (Node Bytes)) :=
  match w.under id (names k) with
  | some (.file body) =>
    some (body, (normalizeObjectPath k).toOption.bind fun n => w.under id (sidecarNames deps n))
  | _ => none

/-- The mirror has another object at `k` in `w'` than in `w`, or none. -/
def Altered (deps : Deps) (id : Str) (w w' : World) (k : Str) : Prop :=
  Plain k ∧ Accepted k ∧ objectAt deps id k w' ≠ objectAt deps id k w

/-- A listing that leaves out a file of the mirror. -/
def leavesOut (env : Env) (mirror : List Name → Option (Node Bytes)) : Op → World → Prop
  | .listObjects id, w => ∃ summaries, env.listObjects w.clock id = .ok summaries ∧
      ∃ r b, r ≠ [] ∧ r.head? ≠ some metaName ∧ mirror r = some (.file b) ∧
        ∀ s ∈ summaries, r ≠ names s.key
  | _, _ => False

/-- While nothing is stored for the origin, a refresh lists the files of the mirror that it finds. -/
def Accounted (deps : Deps) (env : Env) (service : OriginRefreshService) (id : Str) (w : World) : Prop :=
  w.freshnessIndexes id = none →
    ∀ e ∈ trace (step deps env) (pipeline deps service id) (w.lock id),
      ¬ leavesOut env (w.under id) e.1 e.2

/-- The stored index is that of the mirror. -/
structure Matched (deps : Deps) (env : Env) (id : Str) (w : World) : Prop where
  registered : Registered deps env id w
  held : AllHeld deps env id False w

theorem objectAt_congr {deps : Deps} {id k : Str} {w w' : World}
    (h : ∀ r, w'.under id r = w.under id r) : objectAt deps id k w' = objectAt deps id k w := by
  simp only [objectAt, h]

theorem objectAt_none {deps : Deps} {id k : Str} {w : World}
    (h : ∀ b, w.under id (names k) ≠ some (.file b)) : objectAt deps id k w = none := by
  unfold objectAt
  split
  · rename_i body hfile
    exact absurd hfile (h body)
  · rfl

section
variable {deps : Deps} {env : Env} {service : OriginRefreshService} {id : Str}
  (hkeys : ∀ k, WasListed env id k → Canonical k)
  (hhash : ∀ k k', WasListed env id k → WasListed env id k' →
    deps.sha256 (utf8 k) = deps.sha256 (utf8 k') → k = k')
include hkeys hhash

/-- What a staging must not meet: a probe that fails, or, with no index to compare with, a listing
that leaves out a file. -/
def Misses (env : Env) (id : Str) (w : World) (o : Op) (w' : World) : Prop :=
  probeFails env id o w' = true ∨ w.freshnessIndexes id = none ∧ leavesOut env (w.under id) o w'

/-- A refresh that activated finds changed what it alters. -/
theorem changed_of_altered {cdn : Option OriginCdnRefresh} {barrier : Option Str} {w w' : World}
    (hinv : Matched deps env id w)
    (hsteps : ∀ e ∈ trace (step deps env) (stageOriginSync deps id (w.freshnessIndexes id)) w.tick,
      ¬ Misses env id w e.1 e.2)
    (href : Refreshed deps env id cdn barrier w w') {k : Str} (hk : Altered deps id w w' k) :
    Changed (indexDiff id w w') k := by
  obtain ⟨index, wl, hindex, hfrom⟩ := refreshed_builtFrom
    (T := Misses env id w) (fun _ _ h => Or.inl h) hsteps href
  obtain ⟨summaries, now, hlist, hbuild⟩ := hfrom.listing
  have hwas := hfrom.listed.wasListed
  have hbuilt := hfrom.built fun k hk => (hkeys k (hwas k hk)).plain
  obtain ⟨hplain, haccepted, hne⟩ := hk
  have hnil := names_ne_nil_of_plain hplain
  have hmeta := names_head_ne_meta haccepted hplain
  rw [indexDiff, hindex]
  by_contra hsame
  refine hne ?_
  by_cases hnew : k ∈ index.files
  · -- listed as it was: the file and the sidecar are kept
    have hnot : k ∉ (diffOriginIndexes (w.freshnessIndexes id) index).changedPaths := fun hc =>
      hsame (by
        rw [OriginFreshnessDiff.changedPaths, List.mem_append, Std.TreeSet.mem_toList,
          Std.TreeSet.mem_toList] at hc
        exact hc.imp_right Or.inl)
    obtain ⟨st, hst⟩ := Option.isSome_iff_exists.mp (Std.TreeMap.mem_iff_isSome_getElem?.mp hnew)
    obtain ⟨p, hp, -⟩ := previous_of_not_changed _ _ _ hst hnot
    obtain ⟨previous, hprevious, hpst⟩ := Option.bind_eq_some_iff.mp hp
    obtain ⟨-, -, object, -, -, -, -, hbody, -⟩ := hinv.held previous hprevious k p hpst
    obtain ⟨hkeep, hside⟩ := hbuilt.unchanged k hnew hnot
    have hown := hinv.registered.ownSidecar hkeys hhash hprevious hwas hnew
    have hn := (hkeys k (hwas k hnew)).normalized
    simp only [objectAt, hkeep _ hbody, hbody, hn, Except.toOption, Option.bind_some, hside k hn hown]
  · -- not listed: there is no file any more, and there was none
    have hafter : ∀ b, w'.under id (names k) ≠ some (.file b) := by
      intro b hb
      obtain ⟨k', hk', hnames⟩ := hbuilt.files _ b hnil hmeta hb
      exact hnew (names_injOn_plain hplain (hkeys k' (hwas k' hk')).plain hnames ▸ hk')
    have hbefore : ∀ b, w.under id (names k) ≠ some (.file b) := by
      intro b hb
      cases hprevious : w.freshnessIndexes id with
      | some previous =>
        have hactive := hinv.registered.active previous hprevious
        obtain ⟨k', hk', hnames⟩ := hactive.files _ b hnil hmeta hb
        have hold : k ∈ previous.files :=
          names_injOn_plain hplain (hkeys k' (hactive.listed k' hk')).plain hnames ▸ hk'
        rw [hprevious] at hsame
        exact hsame (Or.inr (Or.inr ((mem_removed _ _ _).mpr
          ⟨hnew, Std.TreeMap.mem_iff_isSome_getElem?.mp hold⟩)))
      | none =>
        refine hfrom.allowed (Or.inr ⟨hprevious, summaries, hlist, _, b, hnil, hmeta, hb,
          fun s hs hnames => hnew ?_⟩)
        have hcanon := hkeys s.key ⟨wl.clock, summaries, hlist, s, hs, rfl⟩
        exact (mem_files_iff hbuild k).mpr ⟨s, hs, (names_injOn_plain hplain hcanon.plain hnames).symm⟩
    rw [objectAt_none hafter, objectAt_none hbefore]

/-- One call: the index stays that of the mirror, and what is altered is found changed. -/
theorem matched_step {w : World} (hinv : Matched deps env id w)
    (hcalm : Undisturbed deps env service id w) (hnew : Accounted deps env service id w) :
    Matched deps env id (refreshOrigin deps env service id w).2 ∧
      ∀ k, Altered deps id w (refreshOrigin deps env service id w).2 k →
        Changed (indexDiff id w (refreshOrigin deps env service id w).2) k := by
  have hregistered := (registered_step hkeys hhash hinv.registered hcalm).1
  suffices h : AllHeld deps env id False (refreshOrigin deps env service id w).2 ∧
      ∀ k, Altered deps id w (refreshOrigin deps env service id w).2 k →
        Changed (indexDiff id w (refreshOrigin deps env service id w).2) k from
    ⟨⟨hregistered, h.1⟩, h.2⟩
  rcases @refreshOrigin_cases deps env service id w with
    ⟨hsame, -⟩ | ⟨out, w', hrun, hdata, -⟩
  · rw [hsame]
    exact ⟨hinv.held, fun k hk => absurd rfl hk.2.2⟩
  have hlock : SameData w (w.lock id) := ⟨rfl, rfl, rfl, rfl, Nat.le_refl _⟩
  have hclock : (w.lock id).clock ≤ w'.clock := run_clock deps env hrun
  have hends := ends_iff.mp (@refreshOriginSnapshot_kept deps env id
    (fun o w' => tearsMirror env id (w.fs.lookup (names id)).isSome o w' = true)
    (w.lock id) (fun o w' h => h) (service.cdn id) (service.activationBarrier id))
    fun e he => by rw [hcalm.swap e he]; simp
  unfold pipeline at hrun
  rw [hrun] at hends
  have hunder : ∀ r, (refreshOrigin deps env service id w).2.under id r = w'.under id r := fun r => by
    rw [World.under, hdata.fs, World.under]
  rcases hends with ⟨-, href⟩ | ⟨-, hkept⟩
  · have hsteps : ∀ e ∈ trace (step deps env) (stageOriginSync deps id
        ((w.lock id).freshnessIndexes id)) (w.lock id).tick, ¬ Misses env id (w.lock id) e.1 e.2 := by
      rintro e he (hprobe | ⟨hnone, hleaves⟩)
      · rw [hcalm.staging e (mem_trace_pipeline he)] at hprobe
        cases hprobe
      · exact hnew hnone e (mem_trace_pipeline he) hleaves
    have hinv' : Matched deps env id (w.lock id) :=
      ⟨hinv.registered.data hlock, hinv.held.data hlock⟩
    obtain ⟨hheld, -⟩ := href.mirrors (T := Misses env id (w.lock id)) hinv'.held hclock
      (fun _ _ h => Or.inl h) hsteps
      (fun index hl k hk => (hkeys k (hl.wasListed k hk)).plain) False.elim
    refine ⟨hheld.data hdata, fun k hk => ?_⟩
    have hdiff : indexDiff id w (refreshOrigin deps env service id w).2 = indexDiff id (w.lock id) w' := by
      rw [indexDiff, indexDiff, hdata.freshnessIndexes]
      rfl
    rw [hdiff]
    refine changed_of_altered hkeys hhash hinv' hsteps href ⟨hk.1, hk.2.1, fun he => hk.2.2 ?_⟩
    exact (objectAt_congr hunder).trans he
  · refine ⟨((hinv.held.data hlock).kept hkept hclock).data hdata, fun k hk => absurd ?_ hk.2.2⟩
    refine objectAt_congr fun r => (hunder r).trans ?_
    exact hkept.mirror _ (List.prefix_append _ _)

theorem matched_refreshes {fs : Tree} (n : Nat)
    (hcalm : ∀ i, i < n → Undisturbed deps env service id (refreshes deps env service id fs i))
    (hnew : ∀ i, i < n → Accounted deps env service id (refreshes deps env service id fs i)) :
    Matched deps env id (refreshes deps env service id fs n) := by
  induction n with
  | zero => exact ⟨registered_start id fs, fun index h => by cases h⟩
  | succ n ih =>
    exact (matched_step hkeys hhash (ih (fun i hi => hcalm i (Nat.lt_succ_of_lt hi))
      fun i hi => hnew i (Nat.lt_succ_of_lt hi)) (hcalm n n.lt_succ_self) (hnew n n.lt_succ_self)).1

end

/-! ## Runs -/

section
variable (deps : Deps) (env : Env) (service : OriginRefreshService) (id : Str) (fs : Tree)

/-- The refresh number `n` changed the object: the mirror has another one, or the listing has. -/
def ChangedBy (n : Nat) (k : Str) : Prop :=
  Altered deps id (refreshes deps env service id fs n) (refreshes deps env service id fs (n + 1)) k ∨
    FoundBy deps env service id fs n k

/-- The refresh number `n` made a purge that the provider accepted in full. -/
def AcceptedBy (n : Nat) (mode : CdnPurgeMode) : Prop :=
  ∃ request, (refreshes deps env service id fs (n + 1)).purged =
    (refreshes deps env service id fs n).purged ++ [(request, true)] ∧ request.mode = mode

/-- The first accepted purge from the refresh `i` on is the one of the refresh `j`. -/
def NextAccepted (i j : Nat) (mode : CdnPurgeMode) : Prop :=
  i ≤ j ∧ AcceptedBy deps env service id fs j mode ∧
    ∀ l, i ≤ l → l < j → ∀ mode, ¬ AcceptedBy deps env service id fs l mode

/-- In a run of `n` refreshes every changed object is in the next purge that the provider accepts. -/
def NoneLost (cdn : OriginCdnRefresh) (n : Nat) : Prop :=
  ∀ i k, ChangedBy deps env service id fs i k → ∀ j mode, j < n →
    NextAccepted deps env service id fs i j mode → Covers cdn k mode

/-- When a purge was not accepted, the refresh with the next accepted one finds objects with
the same paths, or URLs, changed. -/
def ChangedAgain (cdn : OriginCdnRefresh) (n : Nat) : Prop :=
  ∀ i k, ChangedBy deps env service id fs i k → ∀ j mode, i < j → j < n →
    NextAccepted deps env service id fs i j mode → ∀ item ∈ itemsOf cdn k,
      ∃ k', FoundBy deps env service id fs j k' ∧ item ∈ itemsOf cdn k'

/-- The `n` refreshes of the run compare with the index of the mirror that they replace. -/
structure InStep (n : Nat) : Prop where
  keys : ∀ k, WasListed env id k → Canonical k
  digests : ∀ k k', WasListed env id k → WasListed env id k' →
    deps.sha256 (utf8 k) = deps.sha256 (utf8 k') → k = k'
  undisturbed : ∀ i, i < n → Undisturbed deps env service id (refreshes deps env service id fs i)
  accounted : ∀ i, i < n → Accounted deps env service id (refreshes deps env service id fs i)

variable {deps env service id fs}

theorem acceptedBy_covers {cdn : OriginCdnRefresh} (hcdn : service.cdn id = some cdn) {n : Nat}
    {mode : CdnPurgeMode} (h : AcceptedBy deps env service id fs n mode) (k : Str) :
    Covers cdn k mode ↔ cdn.strategy = .all ∨
      ∀ item ∈ itemsOf cdn k, ∃ k', FoundBy deps env service id fs n k' ∧ item ∈ itemsOf cdn k' := by
  obtain ⟨request, hpurged, rfl⟩ := h
  obtain ⟨generation, v, hrecord⟩ := @refreshOrigin_purged deps env id service cdn hcdn
    (refreshes deps env service id fs n)
  have hcalls := List.append_cancel_left (hpurged.symm.trans hrecord)
  cases hplan : buildCdnRefreshPlan cdn.strategy (indexDiff id (refreshes deps env service id fs n)
      (refreshOrigin deps env service id (refreshes deps env service id fs n)).2) cdn.urlPrefixes with
  | none =>
    rw [hplan] at hcalls
    cases hcalls
  | some plan =>
    rw [hplan, callsFor, List.cons.injEq, Prod.mk.injEq] at hcalls
    rw [hcalls.1.1]
    exact plan_covers_iff hplan k

/-- A refresh of such a run finds changed what it changes. -/
theorem InStep.found {n : Nat} (h : InStep deps env service id fs n) {i : Nat} (hi : i < n) {k : Str}
    (hk : ChangedBy deps env service id fs i k) : FoundBy deps env service id fs i k := by
  refine hk.elim (fun haltered => ?_) fun hfound => hfound
  have hinv := matched_refreshes h.keys h.digests i
    (fun l hl => h.undisturbed l (Nat.lt_trans hl hi)) fun l hl => h.accounted l (Nat.lt_trans hl hi)
  exact (matched_step h.keys h.digests hinv (h.undisturbed i hi) (h.accounted i hi)).2 k haltered

/-- No change is lost to a purge that failed, exactly if all is purged or the changes come again. -/
theorem no_invalidation_lost_iff {cdn : OriginCdnRefresh} (hcdn : service.cdn id = some cdn) (n : Nat)
    (hrun : cdn.strategy = .all ∨ InStep deps env service id fs n) :
    NoneLost deps env service id fs cdn n ↔
      cdn.strategy = .all ∨ ChangedAgain deps env service id fs cdn n := by
  constructor
  · intro h
    refine or_iff_not_imp_left.mpr fun hall => ?_
    intro i k hk j mode _ hj hnext
    have hcovers := h i k hk j mode hj hnext
    rw [acceptedBy_covers hcdn hnext.2.1] at hcovers
    exact hcovers.resolve_left hall
  · intro h i k hk j mode hj hnext
    rw [acceptedBy_covers hcdn hnext.2.1]
    refine or_iff_not_imp_left.mpr fun hall => ?_
    rcases Nat.eq_or_lt_of_le hnext.1 with rfl | hij
    · have hfound := (hrun.resolve_left hall).found hj hk
      exact fun item hitem => ⟨k, hfound, hitem⟩
    · exact h.resolve_left hall i k hk j mode hij hj hnext

end

/-! ## A provider that fails once -/

/-- A storage where `b` comes after `a`, and a provider that fails until then. -/
def failingOnce : Env :=
  { calmEnv with
    listObjects := fun t _ => .ok (if t < 42 then [⟨"a".toList, none, none, none, 1, none, none⟩]
      else [⟨"a".toList, none, none, none, 1, none, none⟩, ⟨"b".toList, none, none, none, 1, none, none⟩])
    getObject := fun _ _ key => .ok ⟨key, [65], none, none, none, none⟩
    purge := fun t request => if t < 42 then .err (.other (anyhow "throttled".toList))
      else calmEnv.purge t request }

/-- The state after `n` refreshes with it. -/
def refreshed (n : Nat) : World :=
  refreshes smallDeps failingOnce pathsService "web".toList FileTree.empty n

/-- **Counterexample**: the purge of `/a` failed, and the next one, which is accepted, is of `/b`. -/
theorem first_purge_lost :
    (refreshed 2).purged = [(⟨"web".toList, 1, .paths ["/a".toList]⟩, false),
      (⟨"web".toList, 2, .paths ["/b".toList]⟩, true)] ∧
    ¬ NoneLost smallDeps failingOnce pathsService "web".toList FileTree.empty ⟨.changedPaths, []⟩ 2 := by
  have hcomputed : (refreshed 1).purged = [(⟨"web".toList, 1, .paths ["/a".toList]⟩, false)] ∧
      (refreshed 2).purged = [(⟨"web".toList, 1, .paths ["/a".toList]⟩, false),
        (⟨"web".toList, 2, .paths ["/b".toList]⟩, true)] ∧
      "a".toList ∈ (indexDiff "web".toList (refreshed 0) (refreshed 1)).added := by decide +kernel
  obtain ⟨hfirst, hsecond, hadded⟩ := hcomputed
  refine ⟨hsecond, fun h => ?_⟩
  have hnext : NextAccepted smallDeps failingOnce pathsService "web".toList FileTree.empty 0 1
      (.paths ["/b".toList]) := by
    refine ⟨Nat.zero_le 1, ⟨⟨"web".toList, 2, .paths ["/b".toList]⟩, ?_, rfl⟩, ?_⟩
    · exact hsecond.trans (congrArg (· ++ [_]) hfirst.symm)
    · rintro l - hl mode ⟨request, hpurged, -⟩
      obtain rfl : l = 0 := by omega
      have hone := hfirst.symm.trans hpurged
      cases hone
  have hcovers := h 0 "a".toList (Or.inr (Or.inl hadded)) 1 _ (by decide) hnext
  revert hcovers
  simp only [Covers]
  decide

/-- The same provider, and a storage whose one object has grown when it accepts again. -/
def growing : Env :=
  { failingOnce with
    listObjects := fun t _ => .ok [⟨"a".toList, none, none, none, if t < 42 then 1 else 2, none, none⟩]
    getObject := fun t _ key =>
      .ok ⟨key, if t < 42 then [65] else [65, 66], none, none, none, none⟩ }

def grown (n : Nat) : World := refreshes smallDeps growing pathsService "web".toList FileTree.empty n

theorem growing_listed {k : Str} (h : WasListed growing "web".toList k) : k = "a".toList := by
  obtain ⟨t, summaries, hlist, s, hs, rfl⟩ := h
  cases hlist
  rw [List.mem_singleton.mp hs]

theorem grown_undisturbed : Undisturbed smallDeps growing pathsService "web".toList (grown 0) ∧
    Undisturbed smallDeps growing pathsService "web".toList (grown 1) := by
  refine ⟨⟨?_, ?_⟩, ⟨?_, ?_⟩⟩ <;> decide +kernel

theorem grown_inStep : InStep smallDeps growing pathsService "web".toList FileTree.empty 2 := by
  have hstored : (grown 1).freshnessIndexes "web".toList ≠ none := by decide +kernel
  rw [grown] at hstored
  obtain ⟨hfirst, hsecond⟩ := grown_undisturbed
  refine ⟨fun k hk => ?_, fun k k' hk hk' _ => (growing_listed hk).trans (growing_listed hk').symm,
    fun i hi => ?_, fun i hi hnone e _ => ?_⟩
  · rw [growing_listed hk]
    exact ⟨by decide, by decide, no_control_of_all (by decide), by decide⟩
  · obtain rfl | rfl : i = 0 ∨ i = 1 := by omega
    · exact hfirst
    · exact hsecond
  · obtain rfl | rfl : i = 0 ∨ i = 1 := by omega
    · intro hleaves
      unfold leavesOut at hleaves
      split at hleaves
      · obtain ⟨-, -, r, b, -, -, hfile, -⟩ := hleaves
        exact empty_under r b hfile
      · exact hleaves
    · exact absurd hnone hstored

/-- The purge of `/a` that failed is made up for when `a` changes again. -/
theorem no_invalidation_lost_growing :
    (grown 2).purged = [(⟨"web".toList, 1, .paths ["/a".toList]⟩, false),
      (⟨"web".toList, 2, .paths ["/a".toList]⟩, true)] ∧
    NoneLost smallDeps growing pathsService "web".toList FileTree.empty ⟨.changedPaths, []⟩ 2 := by
  have hpurged : (grown 2).purged = [(⟨"web".toList, 1, .paths ["/a".toList]⟩, false),
      (⟨"web".toList, 2, .paths ["/a".toList]⟩, true)] := by decide +kernel
  have hdiff : (indexDiff "web".toList (grown 0) (grown 1)).added.toList = ["a".toList] ∧
      (indexDiff "web".toList (grown 0) (grown 1)).modified.toList = [] ∧
      (indexDiff "web".toList (grown 0) (grown 1)).removed.toList = [] ∧
      "a".toList ∈ (indexDiff "web".toList (grown 1) (grown 2)).modified := by decide +kernel
  obtain ⟨hadded, hmodified, hremoved, hagain⟩ := hdiff
  refine ⟨hpurged, (no_invalidation_lost_iff rfl 2 (Or.inr grown_inStep)).mpr (Or.inr ?_)⟩
  intro i k hk j mode hij hj _ item hitem
  obtain ⟨rfl, rfl⟩ : i = 0 ∧ j = 1 := by omega
  have hfound := grown_inStep.found (by decide) hk
  have hka : k = "a".toList := by
    rcases hfound with h | h | h
    · exact List.mem_singleton.mp (hadded ▸ Std.TreeSet.mem_toList.mpr h)
    · exact absurd (hmodified ▸ Std.TreeSet.mem_toList.mpr h) List.not_mem_nil
    · exact absurd (hremoved ▸ Std.TreeSet.mem_toList.mpr h) List.not_mem_nil
  exact ⟨"a".toList, Or.inr (Or.inl hagain), hka ▸ hitem⟩

end RenderMesh.Bugs.LostPurges
