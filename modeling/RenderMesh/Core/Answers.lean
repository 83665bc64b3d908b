import RenderMesh.Core.Prog

/-!
# Programs that only ask

A program whose operations look at a state that nothing changes has one answer
for each operation. `eval` is its meaning then: an outcome, no state and no order of
steps. `run_eval` says that a run is `eval` wherever the handler gives these answers.

`Prog.embed` is a program as part of one over a larger signature.
-/
namespace RenderMesh.Core

variable {Op Op' : Type} {Res : Op → Type} {Res' : Op' → Type} {ε α β γ σ : Type}

def Outcome.bind : Outcome ε α → (α → Outcome ε β) → Outcome ε β
  | .ok a, f => f a
  | .err e, _ => .err e
  | .dropped, _ => .dropped

namespace Outcome

@[simp] theorem bind_ok (a : α) (f : α → Outcome ε β) : (ok a : Outcome ε α).bind f = f a := rfl

@[simp] theorem bind_err (e : ε) (f : α → Outcome ε β) : (err e : Outcome ε α).bind f = err e := rfl

@[simp] theorem bind_dropped (f : α → Outcome ε β) :
    (dropped : Outcome ε α).bind f = dropped := rfl

end Outcome

/-- The meaning of a program when every operation has one answer, or none. -/
def eval (ans : (o : Op) → Option (Res o)) : Prog Op Res ε α → Outcome ε α
  | .ret a => .ok a
  | .fail e => .err e
  | .op o k =>
    match ans o with
    | some r => eval ans (k r)
    | none => .dropped

/-- The same program over a larger signature. -/
def Prog.embed (f : Op → Op') (g : ∀ o, Res' (f o) → Res o) : Prog Op Res ε α → Prog Op' Res' ε α
  | .ret a => .ret a
  | .fail e => .fail e
  | .op o k => .op (f o) fun r => (k (g o r)).embed f g

section
variable (ans : (o : Op) → Option (Res o))

@[simp] theorem eval_pure (a : α) : eval ans (pure a : Prog Op Res ε α) = .ok a := rfl

@[simp] theorem eval_fail (e : ε) : eval ans (.fail e : Prog Op Res ε α) = .err e := rfl

theorem eval_perform {o : Op} {r : Res o} (h : ans o = some r) :
    eval ans (Prog.perform o : Prog Op Res ε (Res o)) = .ok r := by
  simp only [Prog.perform, eval, h]

theorem eval_bind (m : Prog Op Res ε α) (f : α → Prog Op Res ε β) :
    eval ans (m >>= f) = (eval ans m).bind fun a => eval ans (f a) := by
  show eval ans (m.bind f) = _
  induction m with
  | ret a => rfl
  | fail e => rfl
  | op o k ih =>
    simp only [Prog.bind, eval]
    split
    · exact ih _
    · rfl

theorem eval_attempt (m : Prog Op Res ε α) :
    eval ans m.attempt = match eval ans m with
      | .ok a => .ok (.ok a)
      | .err e => .ok (.error e)
      | .dropped => .dropped := by
  induction m with
  | ret a => rfl
  | fail e => rfl
  | op o k ih =>
    simp only [Prog.attempt, eval]
    split
    · exact ih _
    · rfl

@[simp] theorem eval_ofExcept (x : Except ε α) :
    eval ans (Prog.ofExcept x : Prog Op Res ε α) =
      match x with
      | .ok a => .ok a
      | .error e => .err e := by
  cases x <;> rfl

/-- A program that is answered alike comes to the same. -/
theorem eval_congr {ans' : (o : Op) → Option (Res o)} {P : Op → Prop}
    (h : ∀ o, P o → ans o = ans' o) {m : Prog Op Res ε α} (hm : m.Uses P) :
    eval ans m = eval ans' m := by
  induction m with
  | ret a => rfl
  | fail e => rfl
  | op o k ih =>
    simp only [eval, h o hm.1]
    split
    · exact ih _ (hm.2 _)
    · rfl

theorem eval_embed (ans' : (o : Op') → Option (Res' o)) (f : Op → Op')
    (g : ∀ o, Res' (f o) → Res o) (m : Prog Op Res ε α) :
    eval ans' (m.embed f g) = eval (fun o => (ans' (f o)).map (g o)) m := by
  induction m with
  | ret a => rfl
  | fail e => rfl
  | op o k ih =>
    simp only [Prog.embed, eval]
    cases ans' (f o) with
    | none => rfl
    | some r => exact ih (g o r)

/-- A run of an embedded program is a run of the program, with what the larger handler does. -/
theorem run_embed (h : Handler Op' Res' σ) (f : Op → Op') (g : ∀ o, Res' (f o) → Res o)
    (m : Prog Op Res ε α) (s : σ) :
    run h (m.embed f g) s = run (fun o s => ((h (f o) s).1.map (g o), (h (f o) s).2)) m s := by
  induction m generalizing s with
  | ret a => rfl
  | fail e => rfl
  | op o k ih =>
    rw [Prog.embed, run_op, run_op]
    rcases h (f o) s with ⟨_ | r, s'⟩
    · rfl
    · exact ih (g o r) s'

/-- Where the handler gives these answers and keeps `I`, a run is `eval`. -/
theorem run_eval {h : Handler Op Res σ} {I : σ → Prop} {P : Op → Prop}
    (hans : ∀ o s, P o → I s → (h o s).1 = ans o ∧ I (h o s).2)
    {m : Prog Op Res ε α} (hm : m.Uses P) {s : σ} (hs : I s) :
    ∃ s', run h m s = (eval ans m, s') ∧ I s' := by
  induction m generalizing s with
  | ret a => exact ⟨s, rfl, hs⟩
  | fail e => exact ⟨s, rfl, hs⟩
  | op o k ih =>
    obtain ⟨h1, h2⟩ := hans o s hm.1 hs
    rw [run_op, show h o s = (ans o, (h o s).2) from Prod.ext h1 rfl]
    cases ho : ans o with
    | none => exact ⟨(h o s).2, by simp [eval, ho], h2⟩
    | some r =>
      obtain ⟨s', hr, hI⟩ := ih r (hm.2 r) h2
      exact ⟨s', by simpa [eval, ho] using hr, hI⟩

end

/-- A program performs what it performs, under the names of the larger signature. -/
theorem Prog.uses_embed {f : Op → Op'} {g : ∀ o, Res' (f o) → Res o} {P : Op' → Prop}
    {m : Prog Op Res ε α} (hm : m.Uses fun o => P (f o)) : (m.embed f g).Uses P := by
  induction m with
  | ret a => trivial
  | fail e => trivial
  | op o k ih => exact ⟨hm.1, fun r => ih _ (hm.2 _)⟩

end RenderMesh.Core
