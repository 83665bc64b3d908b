import RenderMesh.Core.Answers

/-!
# What a program returns

Two properties of a program's results that are shown along its code.

* `Prog.Gives P`: every value that the program can return satisfies `P`, whatever it is
  answered. `run_gives`: so does what a run returns, and it says nothing of the state.
* `Tracks f m m'`: `m'` runs as `m` does, and returns `f` of what `m` returns. This is a
  statement about two runs, for programs that differ in what they return at the end.
-/
namespace RenderMesh.Core

variable {Op : Type} {Res : Op → Type} {ε α β γ δ σ : Type}

/-! ## Every result -/

/-- Every value that the program can return satisfies `P`. -/
def Prog.Gives (P : α → Prop) : Prog Op Res ε α → Prop
  | ret a => P a
  | fail _ => True
  | op _ k => ∀ r, (k r).Gives P

namespace Prog

variable {P : α → Prop} {Q : β → Prop} {m : Prog Op Res ε α} {f : α → Prog Op Res ε β}

theorem gives_pure {a : α} (h : P a) : (pure a : Prog Op Res ε α).Gives P := h

theorem gives_mono {P' : α → Prop} (hm : m.Gives P) (h : ∀ a, P a → P' a) : m.Gives P' := by
  induction m with
  | ret a => exact h a hm
  | fail e => trivial
  | op o k ih => exact fun r => ih r (hm r)

theorem gives_bind (hm : m.Gives P) (hf : ∀ a, P a → (f a).Gives Q) : (m >>= f).Gives Q := by
  show (m.bind f).Gives Q
  induction m with
  | ret a => exact hf a hm
  | fail e => trivial
  | op o k ih => exact fun r => ih r (hm r)

theorem gives_ofExcept_bind {x : Except ε α} (hf : ∀ a, x = .ok a → (f a).Gives Q) :
    (ofExcept x >>= f).Gives Q := by
  cases x with
  | ok a => exact hf a rfl
  | error e => trivial

theorem gives_any (m : Prog Op Res ε α) : m.Gives fun _ => True := by
  induction m with
  | ret a => trivial
  | fail e => trivial
  | op o k ih => exact ih

/-- The results of the first part do not matter. -/
theorem gives_then (hf : ∀ a, (f a).Gives Q) : (m >>= f).Gives Q :=
  gives_bind (gives_any m) fun a _ => hf a

/-- What follows may count on what the first part gives. -/
theorem uses_bind_gives {R : Op → Prop} (hm : m.Uses R) (hg : m.Gives P)
    (hf : ∀ a, P a → (f a).Uses R) : (m >>= f).Uses R := by
  show (m.bind f).Uses R
  induction m with
  | ret a => exact hf a hg
  | fail e => trivial
  | op o k ih => exact ⟨hm.1, fun r => ih r (hm.2 r) (hg r)⟩

theorem gives_attempt (hm : m.Gives P) : m.attempt.Gives fun r => ∀ a, r = .ok a → P a := by
  induction m with
  | ret a => exact fun b hb => by cases hb; exact hm
  | fail e => exact fun b hb => by cases hb
  | op o k ih => exact fun r => ih r (hm r)

/-- An invariant of the elements that a loop has gone through. -/
theorem gives_fold {f : β → γ → Prog Op Res ε β} {I : List γ → β → Prop}
    (hf : ∀ done x b, I done b → (f b x).Gives (I (done ++ [x]))) {b : β} (hb : I [] b) (xs : List γ) :
    (fold f b xs).Gives (I xs) := by
  have key (xs done : List γ) (b : β) (hb : I done b) : (fold f b xs).Gives (I (done ++ xs)) := by
    induction xs generalizing done b with
    | nil =>
      rw [List.append_nil]
      exact hb
    | cons x xs ih =>
      refine gives_bind (hf done x b hb) fun b' hb' => ?_
      rw [List.append_cons]
      exact ih (done ++ [x]) b' hb'
  exact key xs [] b hb

end Prog

theorem run_gives {P : α → Prop} {h : Handler Op Res σ} {m : Prog Op Res ε α} (hm : m.Gives P)
    {s s' : σ} {a : α} (hrun : run h m s = (.ok a, s')) : P a := by
  induction m generalizing s with
  | ret b =>
    cases hrun
    exact hm
  | fail e => cases hrun
  | op o k ih =>
    rw [run_op] at hrun
    split at hrun
    · exact ih _ (hm _) hrun
    · cases hrun

/-! ## Two runs -/

def Outcome.map (f : α → β) : Outcome ε α → Outcome ε β
  | .ok a => .ok (f a)
  | .err e => .err e
  | .dropped => .dropped

/-- `m'` runs as `m` does, and returns `f` of what it returns. -/
def Tracks (h : Handler Op Res σ) (f : α → β) (m : Prog Op Res ε α) (m' : Prog Op Res ε β) : Prop :=
  ∀ s, run h m' s = ((run h m s).1.map f, (run h m s).2)

section
variable {h : Handler Op Res σ} {f : α → β} {g : γ → δ} {m : Prog Op Res ε α} {m' : Prog Op Res ε β}

theorem tracks_pure {a : α} {b : β} (he : f a = b) :
    Tracks h f (pure a : Prog Op Res ε α) (pure b) := fun s => by rw [run_pure, run_pure, ← he]; rfl

theorem tracks_bind {k : α → Prog Op Res ε γ} {k' : β → Prog Op Res ε δ} (hm : Tracks h f m m')
    (hk : ∀ a, Tracks h g (k a) (k' (f a))) : Tracks h g (m >>= k) (m' >>= k') := by
  intro s
  rw [run_bind, run_bind, hm s]
  rcases run h m s with ⟨a | e | _, s'⟩
  · exact hk a s'
  · rfl
  · rfl

/-- Two programs with a common beginning. -/
theorem tracks_then {k : α → Prog Op Res ε γ} {k' : α → Prog Op Res ε δ}
    (hk : ∀ a, Tracks h g (k a) (k' a)) : Tracks h g (m >>= k) (m >>= k') := by
  intro s
  rw [run_bind, run_bind]
  rcases run h m s with ⟨a | e | _, s'⟩
  · exact hk a s'
  · rfl
  · rfl

end

end RenderMesh.Core
