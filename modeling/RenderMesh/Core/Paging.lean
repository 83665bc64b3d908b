import Mathlib.Data.Finset.Card
import Mathlib.Data.Fintype.Card
import Mathlib.Data.Nat.Find

/-!
# Listings in pages

A listing gives for each key a page, and with it perhaps the marker of the page after: `next`.
The first page has no key. `markers next` are the markers that come up when one page after
another is read, to no end if they come round again (`Revisits`).

With finitely many markers reading stops after as many pages, at the last page or where a
marker comes back (`exists_stop`); it reaches a last page exactly when no marker does
(`exists_last_iff`).
-/
namespace RenderMesh.Core

variable {κ : Type}

/-- The markers that come with the pages, from the first page on. -/
def markers (next : Option κ → Option κ) : Nat → Option κ
  | 0 => next none
  | i + 1 => (markers next i).bind fun m => next (some m)

/-- The key of the `i`-th page. -/
def pageKey (next : Option κ → Option κ) : Nat → Option κ
  | 0 => none
  | i + 1 => markers next i

/-- The chain of markers comes back to one of them. -/
def Revisits (next : Option κ → Option κ) : Prop :=
  ∃ i j m, i < j ∧ markers next i = some m ∧ markers next j = some m

/-- Where reading stops: the markers before are all different, and here there is none or one
that was there before. -/
structure Stops (next : Option κ → Option κ) (n : Nat) : Prop where
  before : ∀ i < n, ∃ m, markers next i = some m ∧ ∀ j < i, markers next j ≠ some m
  last : markers next n = none ∨ ∃ j < n, markers next j = markers next n

section
variable {next : Option κ → Option κ}

theorem markers_eq (i : Nat) (h : ∀ j < i, markers next j ≠ none) :
    markers next i = next (pageKey next i) := by
  cases i with
  | zero => rfl
  | succ i =>
    rw [markers, pageKey]
    cases hm : markers next i with
    | none => exact absurd hm (h i (by omega))
    | some m => rfl

theorem markers_none_of_le {i j : Nat} (hij : i ≤ j) (h : markers next i = none) :
    markers next j = none := by
  induction j, hij using Nat.le_induction with
  | base => exact h
  | succ j _ ih => rw [markers, ih, Option.bind_none]

/-- After a marker that came back the chain repeats. -/
theorem markers_add {i j : Nat} (h : markers next i = markers next j) (k : Nat) :
    markers next (i + k) = markers next (j + k) := by
  induction k with
  | zero => exact h
  | succ k ih => rw [← Nat.add_assoc, ← Nat.add_assoc, markers, markers, ih]

/-- A chain that comes back has no end. -/
theorem Revisits.no_end (h : Revisits next) (n : Nat) : markers next n ≠ none := by
  obtain ⟨i, j, m, hij, hi, hj⟩ := h
  intro hn
  have hex : ∃ n, markers next n = none := ⟨n, hn⟩
  have hjn : j < Nat.find hex := by
    by_contra hle
    have hnone := markers_none_of_le (Nat.not_lt.mp hle) (Nat.find_spec hex)
    rw [hj] at hnone
    cases hnone
  have hback := markers_add (hi.trans hj.symm) (Nat.find hex - j)
  rw [Nat.add_sub_cancel' hjn.le, Nat.find_spec hex] at hback
  exact Nat.find_min hex (by omega) hback

theorem Stops.pairwise {n : Nat} (h : Stops next n) {i j : Nat} (hij : i < j) (hj : j < n) :
    markers next i ≠ markers next j := by
  obtain ⟨m, hm, hne⟩ := h.before j hj
  rw [hm]
  exact hne i hij

/-- Reading stops at a marker exactly when the chain comes back. -/
theorem Stops.revisits_iff {n : Nat} (h : Stops next n) :
    Revisits next ↔ ∃ m, markers next n = some m := by
  constructor
  · intro hr
    exact Option.ne_none_iff_exists'.mp (hr.no_end n)
  · intro ⟨m, hm⟩
    rcases h.last with hnone | ⟨j, hj, he⟩
    · rw [hm] at hnone
      cases hnone
    · exact ⟨j, n, m, hj, he.trans hm, hm⟩

/-- With finitely many markers reading stops, at the latest when it has seen them all. -/
theorem exists_stop (M : Finset κ) (hM : ∀ k m, next k = some m → m ∈ M) :
    ∃ n ≤ M.card, Stops next n := by
  have hmem : ∀ i m, markers next i = some m → m ∈ M := by
    intro i m hm
    cases i with
    | zero => exact hM _ m hm
    | succ i =>
      obtain ⟨k, -, hk⟩ := Option.bind_eq_some_iff.mp hm
      exact hM _ m hk
  have hstop : ∃ n ≤ M.card, markers next n = none ∨ ∃ j < n, markers next j = markers next n := by
    by_contra hno
    push Not at hno
    -- otherwise the first `M.card + 1` markers are different members of `M`
    have hsome : ∀ i : Fin (M.card + 1), ∃ m : M, markers next i = some m.1 := by
      intro i
      obtain ⟨m, hm⟩ := Option.ne_none_iff_exists'.mp (hno i (by omega)).1
      exact ⟨⟨m, hmem _ m hm⟩, hm⟩
    choose f hf using hsome
    have hinj : Function.Injective f := by
      intro i j he
      rcases Nat.lt_trichotomy i j with hlt | heq | hlt
      · exact absurd ((hf i).trans (he ▸ (hf j).symm)) ((hno j (by omega)).2 i hlt)
      · exact Fin.ext heq
      · exact absurd ((hf j).trans (he ▸ (hf i).symm)) ((hno i (by omega)).2 j hlt)
    have hcard := Fintype.card_le_of_injective f hinj
    simp only [Fintype.card_fin, Fintype.card_coe] at hcard
    omega
  classical
  have hex : ∃ n, markers next n = none ∨ ∃ j < n, markers next j = markers next n :=
    hstop.imp fun _ h => h.2
  obtain ⟨n, hle, hn⟩ := hstop
  refine ⟨Nat.find hex, (Nat.find_min' hex hn).trans hle, fun i hi => ?_, Nat.find_spec hex⟩
  have hmin := Nat.find_min hex hi
  push Not at hmin
  obtain ⟨m, hm⟩ := Option.ne_none_iff_exists'.mp hmin.1
  exact ⟨m, hm, fun j hj => hm ▸ hmin.2 j hj⟩

/-- There is a last page exactly when no marker comes back. -/
theorem exists_last_iff (M : Finset κ) (hM : ∀ k m, next k = some m → m ∈ M) :
    (∃ n, markers next n = none) ↔ ¬ Revisits next := by
  constructor
  · intro ⟨n, hn⟩ hr
    exact hr.no_end n hn
  · intro hno
    obtain ⟨n, -, hn⟩ := exists_stop M hM
    rw [hn.revisits_iff, not_exists, ← Option.eq_none_iff_forall_ne_some] at hno
    exact ⟨n, hno⟩

end

end RenderMesh.Core
