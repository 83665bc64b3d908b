import Mathlib.Logic.Function.Basic

/-!
# Versioned stores

A store keeps under each key a value with the version of the write that put it there, and
versions grow over all keys. Some values claim names, and a name has one owner.

`Later s s'` is what holds between two states of a store, whoever wrote in between: an entry is
the same, or newer than everything in `s`. So an entry that still has its version is still the
same (`Later.same_version`), which is what a conditional write goes by.
-/
namespace RenderMesh.Core

/-- A value and the number of the write that put it there. -/
structure Versioned (α : Type) where
  version : Nat
  value : α

/-- A store of values under keys, with an owner for each name that a value claims. -/
structure Store (κ α δ : Type) (claims : α → δ → Prop) where
  entry : κ → Option (Versioned α)
  owner : δ → Option κ
  writes : Nat
  version_le : ∀ k v, entry k = some v → v.version ≤ writes
  owner_iff : ∀ d k, owner d = some k ↔ ∃ v, entry k = some v ∧ claims v.value d

namespace Store

variable {κ α δ : Type} {claims : α → δ → Prop}

def empty : Store κ α δ claims where
  entry := fun _ => none
  owner := fun _ => none
  writes := 0
  version_le := fun _ _ h => by cases h
  owner_iff := fun d k => ⟨fun h => (by cases h), fun ⟨_, h, _⟩ => (by cases h)⟩

/-- No other key owns a name of the value. -/
def Free (s : Store κ α δ claims) (k : κ) (a : α) : Prop :=
  ∀ d, claims a d → ∀ k', s.owner d = some k' → k' = k

section
variable [DecidableEq κ]

/-- The key is taken out, by a write of its own. -/
def remove (s : Store κ α δ claims) (k : κ) : Store κ α δ claims where
  entry := Function.update s.entry k none
  owner := fun d => if s.owner d = some k then none else s.owner d
  writes := s.writes + 1
  version_le := by
    intro k' v h
    by_cases hk : k' = k
    · subst hk
      rw [Function.update_self] at h
      cases h
    · rw [Function.update_of_ne hk] at h
      exact Nat.le_succ_of_le (s.version_le k' v h)
  owner_iff := by
    intro d k'
    by_cases hk : k' = k
    · subst hk
      by_cases ho : s.owner d = some k' <;> simp [ho]
    · simp only [Function.update_of_ne hk, ← s.owner_iff]
      split
      · rename_i ho
        rw [ho]
        exact iff_of_false (fun h => (by cases h)) fun h => hk (Option.some.inj h).symm
      · rfl

@[simp] theorem remove_entry_self {s : Store κ α δ claims} {k : κ} : (s.remove k).entry k = none :=
  Function.update_self ..

variable [∀ a, DecidablePred (claims a)]

/-- The value is put under the key, by a write of its own. -/
def put (s : Store κ α δ claims) (k : κ) (a : α) (hfree : s.Free k a) : Store κ α δ claims where
  entry := Function.update s.entry k (some ⟨s.writes + 1, a⟩)
  owner := fun d => if claims a d then some k else if s.owner d = some k then none else s.owner d
  writes := s.writes + 1
  version_le := by
    intro k' v h
    by_cases hk : k' = k
    · subst hk
      rw [Function.update_self] at h
      cases h
      exact Nat.le_refl _
    · rw [Function.update_of_ne hk] at h
      exact Nat.le_succ_of_le (s.version_le k' v h)
  owner_iff := by
    intro d k'
    by_cases hk : k' = k
    · subst hk
      by_cases hd : claims a d <;> simp [hd]
    · simp only [Function.update_of_ne hk, ← s.owner_iff]
      by_cases hd : claims a d
      · rw [if_pos hd]
        refine iff_of_false (fun h => hk (Option.some.inj h).symm) fun h => hk (hfree d hd k' h)
      · rw [if_neg hd]
        split
        · rename_i ho
          rw [ho]
          exact iff_of_false (fun h => (by cases h)) fun h => hk (Option.some.inj h).symm
        · rfl

variable {s : Store κ α δ claims} {k k' : κ} {a : α}

@[simp] theorem put_entry_self (hfree : s.Free k a) :
    (s.put k a hfree).entry k = some ⟨s.writes + 1, a⟩ := Function.update_self ..

theorem put_entry_ne (hfree : s.Free k a) (h : k' ≠ k) : (s.put k a hfree).entry k' = s.entry k' :=
  Function.update_of_ne h ..

end

/-! ## What others may have written in between -/

/-- `s'` comes after `s`: an entry is the same, or newer than everything there was. -/
structure Later (s s' : Store κ α δ claims) : Prop where
  writes : s.writes ≤ s'.writes
  entry : ∀ k, s'.entry k = s.entry k ∨ ∀ v, s'.entry k = some v → s.writes < v.version

section
variable {s s' s'' : Store κ α δ claims}

theorem Later.refl (s : Store κ α δ claims) : Later s s := ⟨Nat.le_refl _, fun _ => Or.inl rfl⟩

theorem Later.trans (h : Later s s') (h' : Later s' s'') : Later s s'' := by
  refine ⟨Nat.le_trans h.writes h'.writes, fun k => ?_⟩
  rcases h'.entry k with he | hnew
  · rw [he]
    exact h.entry k
  · exact Or.inr fun v hv => Nat.lt_of_le_of_lt h.writes (hnew v hv)

/-- An entry that still has its version has not been written. -/
theorem Later.same_version (h : Later s s') {k : κ} {v v' : Versioned α} (hs : s.entry k = some v)
    (hs' : s'.entry k = some v') (hversion : v'.version = v.version) : v' = v := by
  rcases h.entry k with he | hnew
  · rw [hs, hs'] at he
    exact Option.some.inj he
  · have hle := s.version_le k v hs
    have hlt := hnew v' hs'
    omega

variable [DecidableEq κ]

theorem later_remove (k : κ) : Later s (s.remove k) := by
  refine ⟨Nat.le_succ _, fun k' => ?_⟩
  by_cases hk : k' = k
  · subst hk
    refine Or.inr fun v hv => ?_
    rw [remove_entry_self] at hv
    cases hv
  · exact Or.inl (Function.update_of_ne hk ..)

variable [∀ a, DecidablePred (claims a)]

theorem later_put {k : κ} {a : α} (hfree : s.Free k a) : Later s (s.put k a hfree) := by
  refine ⟨Nat.le_succ _, fun k' => ?_⟩
  by_cases hk : k' = k
  · subst hk
    refine Or.inr fun v hv => ?_
    rw [put_entry_self] at hv
    cases hv
    exact Nat.lt_succ_self _
  · exact Or.inl (put_entry_ne hfree hk)

end

end Store

end RenderMesh.Core
