import RenderMesh.Mirror.S3
import RenderMesh.Refresh.Snapshot

/-!
# An S3 listing without end

Behaviour (`src/src/repositories/s3_storage.rs:182-221`): `list_objects` asks for one page after
another as long as pages are truncated, with whatever continuation token the last one came with.

Documented: nothing on S3. The listing of CloudFront SaaS tenants
(`src/src/repositories/cloudfront_saas_cdn.rs:286-313`) keeps the markers that it has seen, and
"a repeated or non-advancing tenant-list pagination marker is rejected".

Counterexample: a provider that gives every page the same token. No number of calls ends the
listing, and the refresh that waits for it keeps the origin's lock (`same_token_forever`).

Condition: `terminates_iff`. The chain of tokens that starts at the first page does not come back
to a token.
-/
namespace RenderMesh.Bugs.EndlessListing

open RenderMesh.Core RenderMesh.Mirror RenderMesh.Server RenderMesh.Refresh S3StorageRepository

/-- The environment in which the listing is answered so. -/
def listingAnswered (env : Env) (answer : Outcome Error (List RemoteObjectSummary)) : Env :=
  { env with listObjects := fun _ _ => answer }

/-- What a listing comes to, when it is over. -/
def listingAnswer : Outcome Error (Option (List RemoteObjectSummary)) →
    Option (Outcome Error (List RemoteObjectSummary))
  | .ok none => none
  | .ok (some summaries) => some (.ok summaries)
  | .err e => some (.err e)
  | .dropped => some .dropped

def isListing : Op → Bool
  | .listObjects _ => true
  | _ => false

section
variable (self : S3StorageRepository) (provider : S3Provider)

/-- The refresh of an origin in this storage, while the listing makes at most `turns` calls; `none`
when the refresh waits for more. -/
def refreshOriginFrom (turns : Nat) (deps : Deps) (env : Env) (service : OriginRefreshService)
    (id : Str) (w : World) : Option (Outcome OriginRefreshError OriginSyncResponse × World) :=
  match listingAnswer (run (s3Step provider) (self.listObjects turns) 0).1 with
  | some answer => some (refreshOrigin deps (listingAnswered env answer) service id w)
  | none =>
    -- as far as the refresh comes without the listing
    let env := listingAnswered env .dropped
    if service.hasOrigin id && !w.locks id &&
        (trace (step deps env) (refreshOriginSnapshot deps id (service.cdn id)
          (service.activationBarrier id)) (w.lock id)).any fun e => isListing e.1 then none
    else some (refreshOrigin deps env service id w)

/-- The listing returns after finitely many calls. -/
def Returns : Prop := ∃ turns, Over (run (s3Step provider) (self.listObjects turns) 0).1

/-- Every refresh comes to an end, and then has released its lock. -/
def ReleasesLock : Prop :=
  ∀ deps env service id w, w.locks id = false → ∃ turns out w',
    refreshOriginFrom self provider turns deps env service id w = some (out, w') ∧ w'.locks id = false

/-- A listing that returns Ok has every page of the chain of tokens once, in its order. -/
def Complete : Prop :=
  ∀ turns summaries calls, run (s3Step provider) (self.listObjects turns) 0 = (.ok (some summaries), calls) →
    ∃ n, markers (nextToken provider) n = none ∧ calls = n + 1 ∧
      (∀ i j, i < j → j ≤ n → pageKey (nextToken provider) i ≠ pageKey (nextToken provider) j) ∧
      (∀ i ≤ n, ∃ response, provider (pageKey (nextToken provider) i) = .ok response) ∧
      summaries = (List.range (n + 1)).flatMap fun i =>
        pageContents provider (pageKey (nextToken provider) i)

end

section
variable {self : S3StorageRepository} {provider : S3Provider}

theorem refreshOrigin_unlocks (deps : Deps) (env : Env) (service : OriginRefreshService) (id : Str)
    {w : World} (hw : w.locks id = false) : (refreshOrigin deps env service id w).2.locks id = false := by
  rw [refreshOrigin]
  split
  · exact hw
  · rw [if_neg (by simp [hw])]
    split <;> exact Function.update_self ..

/-- The pages of a chain with an end are all different. -/
theorem pageKey_pairwise {next : Option Str → Option Str} {n : Nat} (hend : markers next n = none)
    {i j : Nat} (hij : i < j) (hj : j ≤ n) (hsome : ∀ k < n, markers next k ≠ none) :
    pageKey next i ≠ pageKey next j := by
  intro he
  obtain ⟨j, rfl⟩ := Nat.exists_eq_succ_of_ne_zero (show j ≠ 0 by omega)
  obtain ⟨m, hm⟩ := Option.ne_none_iff_exists'.mp (hsome j (by omega))
  cases i with
  | zero => exact absurd (he.trans hm) (by simp [pageKey])
  | succ i =>
    have hr : Revisits next := ⟨i, j, m, by omega, he.trans hm, hm⟩
    exact hr.no_end n hend

/-- The end of a chain that has one. -/
theorem exists_end {next : Option Str → Option Str} (h : ∃ n, markers next n = none) :
    ∃ n, markers next n = none ∧ ∀ k < n, markers next k ≠ none :=
  ⟨Nat.find h, Nat.find_spec h, fun _ hk => Nat.find_min h hk⟩

/-- A page with a token is an answer without an error. -/
theorem page_of_token {key : Option Str} (h : nextToken provider key ≠ none) :
    ∃ response, provider key = .ok response := by
  rw [nextToken] at h
  cases hp : provider key with
  | ok response => exact ⟨response, rfl⟩
  | error e => simp [hp] at h

theorem complete (self : S3StorageRepository) (provider : S3Provider) : Complete self provider := by
  intro turns summaries calls hrun
  have hlong : ¬ ∀ j < turns, markers (nextToken provider) j ≠ none := by
    intro hsome
    have hgoes := @listObjects_goes_on self provider turns hsome 0 0
    rw [Nat.add_zero, hrun] at hgoes
    cases hgoes
  push Not at hlong
  obtain ⟨k, hk, hnone⟩ := hlong
  obtain ⟨n, hend, hsome⟩ := exists_end ⟨k, hnone⟩
  have hn : n ≤ k := by
    by_contra hlt
    exact hsome k (by omega) hnone
  obtain ⟨out, hrun', hout⟩ := @listObjects_ends self provider n hend hsome turns (by omega) 0
  rw [hrun] at hrun'
  cases hrun'
  rcases hout with ⟨hsummaries, hlast⟩ | ⟨e, he⟩
  · refine ⟨n, hend, Nat.zero_add _, fun i j hij hj => pageKey_pairwise hend hij hj hsome, fun i hi => ?_,
      Option.some.inj (Outcome.ok.inj hsummaries)⟩
    rcases Nat.lt_or_eq_of_le hi with hlt | rfl
    · refine page_of_token ?_
      rw [← markers_eq i fun j hj => hsome j (by omega)]
      exact hsome i hlt
    · exact hlast
  · cases he

/-- The listing returns, refreshes release their lock and Ok listings are complete exactly when
no token comes back. -/
theorem terminates_iff {M : Finset Str} (hM : ∀ key m, nextToken provider key = some m → m ∈ M) :
    (Returns self provider ∧ ReleasesLock self provider ∧ Complete self provider) ↔
      ¬ Revisits (nextToken provider) := by
  constructor
  · intro ⟨⟨turns, hover⟩, _⟩ hr
    rw [listObjects_endless hr] at hover
    exact hover
  · intro hno
    obtain ⟨n, hend, hsome⟩ := exists_end ((exists_last_iff M hM).mpr hno)
    obtain ⟨out, hrun, hout⟩ := @listObjects_ends self provider n hend hsome (n + 1) (by omega) 0
    have hanswer : ∃ answer, listingAnswer (run (s3Step provider) (self.listObjects (n + 1)) 0).1 = some answer := by
      rw [hrun]
      rcases hout with ⟨rfl, -⟩ | ⟨e, rfl⟩ <;> exact ⟨_, rfl⟩
    refine ⟨⟨n + 1, ?_⟩, ?_, complete self provider⟩
    · rw [hrun]
      rcases hout with ⟨rfl, -⟩ | ⟨e, rfl⟩ <;> trivial
    · intro deps env service id w hw
      obtain ⟨answer, ha⟩ := hanswer
      refine ⟨n + 1, (refreshOrigin deps (listingAnswered env answer) service id w).1,
        (refreshOrigin deps (listingAnswered env answer) service id w).2, ?_,
        refreshOrigin_unlocks deps _ service id hw⟩
      rw [refreshOriginFrom, ha]

/-- Two pages. -/
def twoPages : S3Provider
  | none => .ok ⟨[⟨some "a".toList, none, none, some 1⟩], some true, some "t".toList⟩
  | some _ => .ok ⟨[⟨some "b".toList, none, none, some 2⟩], none, none⟩

theorem two_pages_terminate :
    (Returns ⟨"b".toList⟩ twoPages ∧ ReleasesLock ⟨"b".toList⟩ twoPages ∧ Complete ⟨"b".toList⟩ twoPages) ↔
      ¬ Revisits (nextToken twoPages) := by
  refine terminates_iff (M := {"t".toList}) fun key m hm => ?_
  cases key with
  | none => simp [← Option.some.inj hm]
  | some k => cases hm

/-- Every page has the same token. -/
def sameToken : S3Provider := fun _ => .ok ⟨[], some true, some "t".toList⟩

/-- No number of calls ends the listing, or the refresh that waits for it. -/
theorem same_token_forever :
    ¬ (Returns ⟨"b".toList⟩ sameToken ∧ ReleasesLock ⟨"b".toList⟩ sameToken ∧
      Complete ⟨"b".toList⟩ sameToken) ∧
    ∀ turns, refreshOriginFrom ⟨"b".toList⟩ sameToken turns smallDeps calmEnv plainService "site".toList
      (World.start FileTree.empty) = none := by
  have hr : Revisits (nextToken sameToken) := ⟨0, 1, "t".toList, by omega, rfl, rfl⟩
  refine ⟨fun ⟨⟨turns, hover⟩, _⟩ => ?_, fun turns => ?_⟩
  · rw [listObjects_endless hr] at hover
    exact hover
  · rw [refreshOriginFrom, listObjects_endless hr]
    rw [listingAnswer]
    have hasks : (trace (step smallDeps (listingAnswered calmEnv .dropped))
        (refreshOriginSnapshot smallDeps "site".toList none none)
        ((World.start FileTree.empty).lock "site".toList)).any (fun e => isListing e.1) = true := by
      decide +kernel
    exact if_pos hasks

end

end RenderMesh.Bugs.EndlessListing
