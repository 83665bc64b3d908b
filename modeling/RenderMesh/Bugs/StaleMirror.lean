import RenderMesh.Refresh.Runs

/-!
# A successful refresh that does not heal the mirror

Behaviour (`src/src/repositories/sync.rs:153-187`, `248-288`, `290-323`): keys whose
state is the same as in the stored index are not fetched; staging takes their
files from a copy of the mirror. Nothing compares that copy with the index. After
a swap that stopped half way the mirror is gone while the index is not, and
`prepare_staging_dir` starts from an empty directory; it does the same when the
probe of an existing mirror fails for any reason. A key with an empty or `.`
segment loses its file to `remove_deleted_objects`.

Documented: "activate mirror" renames a complete staging directory into place;
`failed_sync_keeps_previous_mirror_untouched` asks that a failure costs nothing.

Counterexample: the second refresh of `web` is dropped when the old mirror has
been moved to its backup; the third returns Ok, and the mirror lacks the listed
key `a` (`third_refresh_serves_nothing`).

Condition: `refresh_heals`. In a run whose refreshes have no step that
`tearsMirror` or `misleads` names, every refresh that returns Ok leaves one file
for each listed key and no other, each with a body that was checked against a
state equal to the listed one.
-/
namespace RenderMesh.Bugs.StaleMirror

open RenderMesh.Core RenderMesh.Mirror RenderMesh.Server RenderMesh.Refresh

/-- The listing has a key with an empty or a `.` segment. -/
def listsUnplain (env : Env) : Op → World → Bool
  | .listObjects id, w =>
    match env.listObjects w.clock id with
    | .ok summaries => summaries.any fun s => !decide (Plain s.key)
    | _ => false
  | _, _ => false

/-- The steps that make staging believe in files that it does not have. -/
def misleads (env : Env) (id : Str) (o : Op) (w : World) : Bool :=
  probeFails env id o w || listsUnplain env o w

/-- The next refresh of `id` has no step that tears its mirror or misleads its
staging. -/
structure Clean (deps : Deps) (env : Env) (service : OriginRefreshService) (id : Str) (w : World) :
    Prop where
  swap : ∀ e ∈ trace (step deps env) (pipeline deps service id) (w.lock id),
    tearsMirror env id (w.fs.lookup (names id)).isSome e.1 e.2 = false
  staging : ∀ e ∈ trace (step deps env) (stageOriginSync deps id (w.freshnessIndexes id))
    (w.lock id).tick, misleads env id e.1 e.2 = false

section
variable {deps : Deps} {env : Env} {service : OriginRefreshService} {id : Str}

theorem plain_of_listed {index : OriginFreshnessIndex} {lo hi : Nat}
    (h : Listed (fun o w => misleads env id o w = true) env id index lo hi) :
    ∀ k ∈ index.files, Plain k := by
  obtain ⟨wl, summaries, now, -, -, hnot, hlist, hb⟩ := h
  intro k hk
  obtain ⟨s, hs, rfl⟩ := (mem_files_iff hb k).mp hk
  by_contra hplain
  refine hnot ?_
  simp only [misleads, probeFails, listsUnplain, hlist, Bool.false_or, List.any_eq_true]
  exact ⟨s, hs, by simpa using hplain⟩

/-- One call: the invariant is kept, and a call that returned Ok mirrors its listing. -/
theorem clean_step {w : World} (hinv : AllHeld deps env id False w)
    (hclean : Clean deps env service id w) :
    AllHeld deps env id False (refreshOrigin deps env service id w).2 ∧
      ∀ r, (refreshOrigin deps env service id w).1 = .ok r → ∃ index,
        MirrorsListing deps env id False w.clock index (refreshOrigin deps env service id w).2 := by
  rcases @refreshOrigin_cases deps env service id w with
    ⟨hsame, hno⟩ | ⟨out, w', hrun, hdata, hout⟩
  · rw [hsame]
    exact ⟨hinv, fun r hr => absurd hr (hno r)⟩
  have hlock : SameData w (w.lock id) := ⟨rfl, rfl, rfl, rfl, Nat.le_refl _⟩
  have hends := ends_iff.mp (@refreshOriginSnapshot_kept deps env id
    (fun o w' => tearsMirror env id (w.fs.lookup (names id)).isSome o w' = true)
    (w.lock id) (fun o w' h => h) (service.cdn id) (service.activationBarrier id))
    fun e he => by rw [hclean.swap e he]; simp
  have hclock : (w.lock id).clock ≤ w'.clock := run_clock deps env hrun
  unfold pipeline at hrun
  rw [hrun] at hends
  rcases hends with ⟨-, href⟩ | ⟨hno, hkept⟩
  · obtain ⟨hheld, index, hmirrors⟩ := href.mirrors
      (T := fun o w => misleads env id o w = true) (hinv.data hlock) hclock
      (fun o w' h => by rw [misleads, h, Bool.true_or])
      (fun e he => by rw [hclean.staging e he]; simp) (fun _ => plain_of_listed) False.elim
    exact ⟨hheld.data hdata, fun r _ => ⟨index, hmirrors.data hdata⟩⟩
  · exact ⟨((hinv.data hlock).kept hkept hclock).data hdata,
      fun r hr => absurd ((hout r).mp hr) (hno r)⟩

theorem allHeld_refreshes {fs : Tree} (n : Nat)
    (hclean : ∀ i, i < n → Clean deps env service id (refreshes deps env service id fs i)) :
    AllHeld deps env id False (refreshes deps env service id fs n) := by
  induction n with
  | zero => exact fun index h => by cases h
  | succ n ih =>
    exact (clean_step (ih fun i hi => hclean i (Nat.lt_succ_of_lt hi)) (hclean n n.lt_succ_self)).1

end

theorem refresh_heals (deps : Deps) (env : Env) (service : OriginRefreshService) (id : Str)
    (fs : Tree) (n : Nat)
    (hclean : ∀ i, i ≤ n → Clean deps env service id (refreshes deps env service id fs i))
    (response : OriginSyncResponse)
    (hok : (refreshOrigin deps env service id (refreshes deps env service id fs n)).1 =
      .ok response) :
    ∃ index, MirrorsListing deps env id False (refreshes deps env service id fs n).clock index
      (refreshes deps env service id fs (n + 1)) :=
  (clean_step (allHeld_refreshes n fun i hi => hclean i (Nat.le_of_lt hi))
    (hclean n (Nat.le_refl n))).2 response hok

/-- A storage with the one object `a`. -/
def single : Env :=
  { calmEnv with
    listObjects := fun _ _ => .ok [⟨"a".toList, none, none, none, 1, none, none⟩]
    getObject := fun _ _ key => .ok ⟨key, [65], none, none, none, none⟩ }

/-- A storage where `b` comes after `a`, and cannot be fetched at first. -/
def recovering : Env :=
  { calmEnv with
    listObjects := fun t _ => .ok (if t < 40 then [⟨"a".toList, none, none, none, 1, none, none⟩]
      else [⟨"a".toList, none, none, none, 1, none, none⟩, ⟨"b".toList, none, none, none, 1, none, none⟩])
    getObject := fun t _ key =>
      if key = "b".toList ∧ t < 61 then .err (anyhow "connection reset".toList)
      else .ok ⟨key, [65], none, none, none, none⟩ }

/-- The state after `n` refreshes with it. -/
def recovered (n : Nat) : World :=
  refreshes smallDeps recovering plainService "web".toList FileTree.empty n

/-- The second refresh fails; the third keeps `a`, which is unchanged, and adds `b`. -/
theorem refresh_heals_recovering :
    (refreshOrigin smallDeps recovering plainService "web".toList (recovered 1)).1 =
      .err (.failed (anyhow "connection reset".toList)) ∧
    (∃ response, (refreshOrigin smallDeps recovering plainService "web".toList (recovered 2)).1 =
      .ok response ∧ response.unchangedFiles = 1 ∧ response.addedFiles = 1) ∧
    ∃ index, MirrorsListing smallDeps recovering "web".toList False (recovered 2).clock index
      (recovered (2 + 1)) := by
  have hfails : (refreshOrigin smallDeps recovering plainService "web".toList (recovered 1)).1 =
      .err (.failed (anyhow "connection reset".toList)) := by decide +kernel
  have hcounts : (refreshOrigin smallDeps recovering plainService "web".toList (recovered 2)).1.ok?.map
      (fun response => (response.unchangedFiles, response.addedFiles)) = some (1, 1) := by decide +kernel
  have hclean : ∀ i ∈ [0, 1, 2],
      (∀ e ∈ trace (step smallDeps recovering) (pipeline smallDeps plainService "web".toList)
        ((recovered i).lock "web".toList), tearsMirror recovering "web".toList
          ((recovered i).fs.lookup (names "web".toList)).isSome e.1 e.2 = false) ∧
      ∀ e ∈ trace (step smallDeps recovering) (stageOriginSync smallDeps "web".toList
        ((recovered i).freshnessIndexes "web".toList)) ((recovered i).lock "web".toList).tick,
        misleads recovering "web".toList e.1 e.2 = false := by decide +kernel
  obtain ⟨response, hr, hcount⟩ := Option.map_eq_some_iff.mp hcounts
  have hok := Outcome.ok?_eq_some.mp hr
  obtain ⟨hunchanged, hadded⟩ := Prod.mk.inj hcount
  refine ⟨hfails, ⟨response, hok, hunchanged, hadded⟩, ?_⟩
  refine refresh_heals smallDeps recovering plainService "web".toList FileTree.empty 2
    (fun i hi => ?_) response hok
  have hmem : i ∈ [0, 1, 2] := by
    simp only [List.mem_cons, List.not_mem_nil, or_false]
    omega
  exact ⟨(hclean i hmem).1, (hclean i hmem).2⟩

/-- The storage of `a` alone, with a caller that goes away when the old mirror of `web` has been
moved to its backup. -/
def leaving : Env :=
  { single with
    fault := fun _ o =>
      if o = .rename "web".toList (backupPath "web".toList 0) then .drop true .none else .none }

def left (n : Nat) : World := refreshes smallDeps leaving plainService "web".toList FileTree.empty n

/-- A listed key without a file. -/
theorem not_mirrors {deps : Deps} {env : Env} {id k : Str} {lo : Nat} {w : World}
    (hk : Plain k ∧ Accepted k)
    (hlisted : (w.freshnessIndexes id).any (fun index => index.files.contains k) = true)
    (hgone : w.under id (names k) = none) :
    ¬ ∃ index, MirrorsListing deps env id False lo index w := by
  rintro ⟨index, hm⟩
  rw [hm.stored, Option.any_some, Std.TreeMap.contains_iff_mem] at hlisted
  obtain ⟨b, hb⟩ := (hm.files (names k) (names_ne_nil_of_plain hk.1)
    (names_head_ne_meta hk.2 hk.1)).mpr ⟨k, hlisted, rfl⟩
  rw [hgone] at hb
  cases hb

/-- **Counterexample**: the first refresh activated `a`, the second was dropped,
the third returns Ok and lists `a`, which has no file. -/
theorem third_refresh_serves_nothing :
    ¬ ∀ n response, (refreshOrigin smallDeps leaving plainService "web".toList (left n)).1 =
      .ok response → ∃ index, MirrorsListing smallDeps leaving "web".toList False (left n).clock
        index (left (n + 1)) := by
  intro h
  have hok : (refreshOrigin smallDeps leaving plainService "web".toList (left 2)).1.ok?.isSome =
      true := by decide +kernel
  have hlisted : ((left (2 + 1)).freshnessIndexes "web".toList).any (fun index =>
      index.files.contains "a".toList) = true := by decide +kernel
  have hgone : (left (2 + 1)).under "web".toList (names "a".toList) = none := by decide +kernel
  have hkey : normalizeRemoteKey "a".toList = .ok "a".toList := by decide
  obtain ⟨response, hr⟩ := Outcome.ok?_isSome.mp hok
  exact not_mirrors ⟨by decide, (normalizeRemoteKey_ok_iff.mp hkey).2⟩ hlisted hgone (h 2 response hr)

end RenderMesh.Bugs.StaleMirror
