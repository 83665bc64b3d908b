import Mathlib.Logic.Basic
import Mathlib.Tactic.Basic

/-!
# Programs over an effect signature

A `Prog Op Res ε α` is code that reaches the outside world one operation at a
time: it returns, raises an error, or performs `o : Op` and goes on with the
answer `Res o`. Nothing is said here about what an operation does. A `Handler`
says it for a state `σ`; it may also end the program there (`none`): the caller
dropped the future that was waiting for `o`.

* `run` is the sequential meaning, with three outcomes (`Outcome`).
* `run_bind_ok` takes a run that returned apart, one statement at a time;
  `run_fold_ok` is the same for a loop, with its invariant. `Returns` says that a
  run returns, with a rule per construct.
* `Uses P` says that every operation the program can ever perform satisfies
  `P`, whatever the answers; `keeps_of_uses` turns it into a frame rule that
  holds for every outcome, errors and dropped runs included.
* `trace` lists the operations that a run did perform; `Ends` is a postcondition
  for all outcomes of a run without certain steps, with a rule per construct.
-/
namespace RenderMesh.Core

inductive Prog (Op : Type) (Res : Op → Type) (ε α : Type) : Type where
  | ret (a : α)
  | fail (e : ε)
  | op (o : Op) (k : Res o → Prog Op Res ε α)

/-- How a run ends. `dropped`: at an operation that was never answered. -/
inductive Outcome (ε α : Type) where
  | ok (a : α)
  | err (e : ε)
  | dropped
  deriving DecidableEq, Repr

def Outcome.ok? {ε α : Type} : Outcome ε α → Option α
  | .ok a => some a
  | _ => none

theorem Outcome.ok?_eq_some {ε α : Type} {out : Outcome ε α} {a : α} :
    out.ok? = some a ↔ out = .ok a := by
  cases out <;> simp [Outcome.ok?]

theorem Outcome.ok?_isSome {ε α : Type} {out : Outcome ε α} :
    out.ok?.isSome = true ↔ ∃ a, out = .ok a := by
  cases out <;> simp [Outcome.ok?]

/-- The state's answer to an operation, `none` when the run is dropped there. -/
abbrev Handler (Op : Type) (Res : Op → Type) (σ : Type) := (o : Op) → σ → Option (Res o) × σ

variable {Op : Type} {Res : Op → Type} {ε α β γ σ : Type}

namespace Prog

def bind : Prog Op Res ε α → (α → Prog Op Res ε β) → Prog Op Res ε β
  | ret a, f => f a
  | fail e, _ => fail e
  | op o k, f => op o fun r => (k r).bind f

instance : Monad (Prog Op Res ε) where
  pure := ret
  bind := bind

/-- Perform `o` and return its answer. -/
def perform (o : Op) : Prog Op Res ε (Res o) := op o ret

/-- Errors as values; a dropped run stays dropped. -/
def attempt : Prog Op Res ε α → Prog Op Res ε (Except ε α)
  | ret a => ret (.ok a)
  | fail e => ret (.error e)
  | op o k => op o fun r => (k r).attempt

def mapErr (g : ε → ε) : Prog Op Res ε α → Prog Op Res ε α
  | ret a => ret a
  | fail e => fail (g e)
  | op o k => op o fun r => (k r).mapErr g

/-- Left to right over a list, with an accumulator. -/
def fold (f : γ → β → Prog Op Res ε γ) : γ → List β → Prog Op Res ε γ
  | c, [] => ret c
  | c, x :: xs => bind (f c x) fun c' => fold f c' xs

/-- `fold` for its effects only. -/
def each (f : β → Prog Op Res ε Unit) (xs : List β) : Prog Op Res ε Unit :=
  fold (fun _ x => f x) () xs

def ofExcept : Except ε α → Prog Op Res ε α
  | .ok a => ret a
  | .error e => fail e

/-- Every operation on every path of the program satisfies `P`. -/
def Uses (P : Op → Prop) : Prog Op Res ε α → Prop
  | ret _ => True
  | fail _ => True
  | op o k => P o ∧ ∀ r, (k r).Uses P

end Prog

/-- The sequential meaning of a program. -/
def run (h : Handler Op Res σ) : Prog Op Res ε α → σ → Outcome ε α × σ
  | .ret a, s => (.ok a, s)
  | .fail e, s => (.err e, s)
  | .op o k, s =>
    match h o s with
    | (some r, s') => run h (k r) s'
    | (none, s') => (.dropped, s')

section
variable (h : Handler Op Res σ)

@[simp] theorem run_ret (a : α) (s : σ) : run h (.ret a : Prog Op Res ε α) s = (.ok a, s) := rfl

@[simp] theorem run_pure (a : α) (s : σ) : run h (pure a : Prog Op Res ε α) s = (.ok a, s) := rfl

@[simp] theorem run_fail (e : ε) (s : σ) : run h (.fail e : Prog Op Res ε α) s = (.err e, s) := rfl

theorem run_op (o : Op) (k : Res o → Prog Op Res ε α) (s : σ) :
    run h (.op o k) s = match h o s with
      | (some r, s') => run h (k r) s'
      | (none, s') => (.dropped, s') := by
  rw [run]

theorem run_perform (o : Op) (s : σ) :
    run h (Prog.perform o : Prog Op Res ε (Res o)) s =
      match h o s with
      | (some r, s') => (.ok r, s')
      | (none, s') => (.dropped, s') := by
  simp only [Prog.perform, run]

theorem run_bind (m : Prog Op Res ε α) (f : α → Prog Op Res ε β) (s : σ) :
    run h (m >>= f) s = match run h m s with
      | (.ok a, s') => run h (f a) s'
      | (.err e, s') => (.err e, s')
      | (.dropped, s') => (.dropped, s') := by
  show run h (m.bind f) s = _
  induction m generalizing s with
  | ret a => rfl
  | fail e => rfl
  | op o k ih =>
    simp only [Prog.bind, run]
    split
    · exact ih _ _
    · rfl

theorem run_bind_ok {m : Prog Op Res ε α} {f : α → Prog Op Res ε β} {s s' : σ} {b : β} :
    run h (m >>= f) s = (.ok b, s') ↔
      ∃ a s1, run h m s = (.ok a, s1) ∧ run h (f a) s1 = (.ok b, s') := by
  rw [run_bind]
  constructor
  · intro hr
    split at hr
    · exact ⟨_, _, by assumption, hr⟩
    · cases hr
    · cases hr
  · rintro ⟨a, s1, h1, h2⟩
    rw [h1]
    exact h2

theorem run_attempt (m : Prog Op Res ε α) (s : σ) :
    run h m.attempt s = match run h m s with
      | (.ok a, s') => (.ok (.ok a), s')
      | (.err e, s') => (.ok (.error e), s')
      | (.dropped, s') => (.dropped, s') := by
  induction m generalizing s with
  | ret a => rfl
  | fail e => rfl
  | op o k ih =>
    simp only [Prog.attempt, run]
    split
    · exact ih _ _
    · rfl

theorem run_attempt_ok {m : Prog Op Res ε α} {s s' : σ} {a : α} :
    run h m.attempt s = (.ok (.ok a), s') ↔ run h m s = (.ok a, s') := by
  rw [run_attempt]
  rcases run h m s with ⟨_ | _ | _, _⟩ <;> simp

theorem run_mapErr (g : ε → ε) (m : Prog Op Res ε α) (s : σ) :
    run h (m.mapErr g) s = match run h m s with
      | (.ok a, s') => (.ok a, s')
      | (.err e, s') => (.err (g e), s')
      | (.dropped, s') => (.dropped, s') := by
  induction m generalizing s with
  | ret a => rfl
  | fail e => rfl
  | op o k ih =>
    simp only [Prog.mapErr, run]
    split
    · exact ih _ _
    · rfl

theorem run_mapErr_ok {g : ε → ε} {m : Prog Op Res ε α} {s s' : σ} {a : α} :
    run h (m.mapErr g) s = (.ok a, s') ↔ run h m s = (.ok a, s') := by
  rw [run_mapErr]
  rcases run h m s with ⟨_ | _ | _, t⟩ <;> simp

@[simp] theorem run_ofExcept (x : Except ε α) (s : σ) :
    run h (Prog.ofExcept x : Prog Op Res ε α) s =
      match x with
      | .ok a => (.ok a, s)
      | .error e => (.err e, s) := by
  cases x <;> rfl

theorem run_ofExcept_ok {x : Except ε α} {s s' : σ} {a : α}
    (hrun : run h (Prog.ofExcept x : Prog Op Res ε α) s = (.ok a, s')) : x = .ok a ∧ s = s' := by
  cases x <;> cases hrun
  exact ⟨rfl, rfl⟩

@[simp] theorem run_fold_nil (f : γ → β → Prog Op Res ε γ) (c : γ) (s : σ) :
    run h (Prog.fold f c []) s = (.ok c, s) := rfl

theorem run_fold_cons (f : γ → β → Prog Op Res ε γ) (c : γ) (x : β) (xs : List β) :
    Prog.fold f c (x :: xs) = f c x >>= fun c' => Prog.fold f c' xs := rfl

/-- A loop that returned kept every invariant of its body. `I done rest c s`
speaks of the elements already visited and of those still to come. -/
theorem run_fold_ok {f : γ → β → Prog Op Res ε γ} (I : List β → List β → γ → σ → Prop)
    (hstep : ∀ done x rest c s c' s', I done (x :: rest) c s → run h (f c x) s = (.ok c', s') →
      I (done ++ [x]) rest c' s') :
    ∀ (xs done : List β) (c : γ) (s : σ) (c' : γ) (s' : σ), I done xs c s →
      run h (Prog.fold f c xs) s = (.ok c', s') → I (done ++ xs) [] c' s' := by
  intro xs
  induction xs with
  | nil =>
    intro done c s c' s' hI hr
    simp only [run_fold_nil, Prod.mk.injEq, Outcome.ok.injEq] at hr
    obtain ⟨rfl, rfl⟩ := hr
    simpa using hI
  | cons x xs ih =>
    intro done c s c' s' hI hr
    rw [run_fold_cons, run_bind_ok] at hr
    obtain ⟨c1, s1, h1, h2⟩ := hr
    have := ih (done ++ [x]) c1 s1 c' s' (hstep done x xs c s c1 s1 hI h1) h2
    simpa using this

end

/-! ## Runs that return -/

/-- The run of `m` from `s` returns, as `Q` says. -/
def Returns (h : Handler Op Res σ) (Q : α → σ → Prop) (m : Prog Op Res ε α) (s : σ) : Prop :=
  ∃ a s', run h m s = (.ok a, s') ∧ Q a s'

section
variable {h : Handler Op Res σ}

theorem Returns.mono {Q Q' : α → σ → Prop} {m : Prog Op Res ε α} {s : σ} (hm : Returns h Q m s)
    (hQ : ∀ a s', Q a s' → Q' a s') : Returns h Q' m s := by
  obtain ⟨a, s', hr, hq⟩ := hm
  exact ⟨a, s', hr, hQ a s' hq⟩

theorem Returns.bind {Q : β → σ → Prop} {m : Prog Op Res ε α} {f : α → Prog Op Res ε β} {s : σ}
    (hm : Returns h (fun a s' => Returns h Q (f a) s') m s) : Returns h Q (m >>= f) s := by
  obtain ⟨a, s1, h1, b, s2, h2, hq⟩ := hm
  exact ⟨b, s2, run_bind_ok _ |>.mpr ⟨a, s1, h1, h2⟩, hq⟩

theorem Returns.attempt {Q : Except ε α → σ → Prop} {m : Prog Op Res ε α} {s : σ}
    (hm : Returns h (fun a s' => Q (.ok a) s') m s) : Returns h Q m.attempt s := by
  obtain ⟨a, s', hr, hq⟩ := hm
  exact ⟨.ok a, s', by rw [run_attempt, hr], hq⟩

theorem Returns.with_run {Q : α → σ → Prop} {m : Prog Op Res ε α} {s : σ} (hm : Returns h Q m s) :
    Returns h (fun a s' => Q a s' ∧ run h m s = (.ok a, s')) m s := by
  obtain ⟨a, s', hr, hq⟩ := hm
  exact ⟨a, s', hr, hq, hr⟩

/-- A loop returns when its body does from every state that the invariant allows.
`I done rest c s` speaks of the elements already visited and of those still to come. -/
theorem Returns.fold {f : γ → β → Prog Op Res ε γ} (I : List β → List β → γ → σ → Prop)
    (hstep : ∀ done x rest c s, I done (x :: rest) c s →
      Returns h (fun c' s' => I (done ++ [x]) rest c' s') (f c x) s) :
    ∀ (xs done : List β) (c : γ) (s : σ), I done xs c s →
      Returns h (fun c' s' => I (done ++ xs) [] c' s') (Prog.fold f c xs) s := by
  intro xs
  induction xs with
  | nil => intro done c s hI; exact ⟨c, s, rfl, by simpa using hI⟩
  | cons x xs ih =>
    intro done c s hI
    rw [run_fold_cons]
    refine Returns.bind ((hstep done x xs c s hI).mono fun c1 s1 hI1 => ?_)
    simpa using ih (done ++ [x]) c1 s1 hI1

end

/-! ## Traces -/

/-- The operations a run performs, each with the state it found. -/
def trace (h : Handler Op Res σ) : Prog Op Res ε α → σ → List (Op × σ)
  | .ret _, _ => []
  | .fail _, _ => []
  | .op o k, s => (o, s) :: match h o s with
    | (some r, s') => trace h (k r) s'
    | (none, _) => []

section
variable (h : Handler Op Res σ)

theorem trace_bind (m : Prog Op Res ε α) (f : α → Prog Op Res ε β) (s : σ) :
    trace h (m >>= f) s = trace h m s ++ match run h m s with
      | (.ok a, s') => trace h (f a) s'
      | _ => [] := by
  show trace h (m.bind f) s = _
  induction m generalizing s with
  | ret a => rfl
  | fail e => rfl
  | op o k ih =>
    simp only [Prog.bind, run, trace, List.cons_append]
    split
    · rw [ih]
    · rfl

theorem trace_pure (a : α) (s : σ) : trace h (pure a : Prog Op Res ε α) s = [] := rfl

theorem trace_perform (o : Op) (s : σ) :
    trace h (Prog.perform o : Prog Op Res ε (Res o)) s = [(o, s)] := by
  rw [Prog.perform, trace]
  rcases h o s with ⟨_ | r, s'⟩ <;> rfl

theorem mem_trace_bind_left {m : Prog Op Res ε α} {f : α → Prog Op Res ε β} {s : σ} {e : Op × σ}
    (he : e ∈ trace h m s) : e ∈ trace h (m >>= f) s := by
  rw [trace_bind]
  exact List.mem_append_left _ he

/-- A step of what follows is a step of the whole. -/
theorem mem_trace_bind {m : Prog Op Res ε α} {f : α → Prog Op Res ε β} {s s' : σ} {a : α}
    (hm : run h m s = (.ok a, s')) {e : Op × σ} (he : e ∈ trace h (f a) s') :
    e ∈ trace h (m >>= f) s := by
  rw [trace_bind, hm]
  exact List.mem_append_right _ he

theorem mem_trace_perform (o : Op) (f : Res o → Prog Op Res ε β) (s : σ) :
    (o, s) ∈ trace h (Prog.perform o >>= f) s := by
  show (o, s) ∈ trace h (.op o fun r => (Prog.ret r).bind f) s
  rw [trace]
  exact List.mem_cons_self

theorem trace_attempt (m : Prog Op Res ε α) (s : σ) : trace h m.attempt s = trace h m s := by
  induction m generalizing s with
  | ret a => rfl
  | fail e => rfl
  | op o k ih =>
    simp only [Prog.attempt, trace]
    split
    · rw [ih]
    · rfl

end

/-! ## Postconditions -/

/-- Unless one of its operations satisfies `T`, the run of `m` from `s` ends as `Q` says. -/
def Ends (h : Handler Op Res σ) (T : Op → σ → Prop) (Q : Outcome ε α → σ → Prop) :
    Prog Op Res ε α → σ → Prop
  | .ret a, s => Q (.ok a) s
  | .fail e, s => Q (.err e) s
  | .op o k, s => ¬ T o s → match h o s with
    | (some r, s') => Ends h T Q (k r) s'
    | (none, s') => Q .dropped s'

section
variable {h : Handler Op Res σ} {T : Op → σ → Prop}

theorem ends_iff {Q : Outcome ε α → σ → Prop} {m : Prog Op Res ε α} {s : σ} :
    Ends h T Q m s ↔ ((∀ e ∈ trace h m s, ¬ T e.1 e.2) → Q (run h m s).1 (run h m s).2) := by
  induction m generalizing s with
  | ret a => simp [Ends, trace]
  | fail e => simp [Ends, trace]
  | op o k ih =>
    simp only [Ends, trace, run, List.mem_cons, forall_eq_or_imp]
    rcases h o s with ⟨_ | r, s'⟩
    · simp
    · simp only [ih]
      exact ⟨fun hq h1 => hq h1.1 h1.2, fun hq h1 h2 => hq ⟨h1, h2⟩⟩

theorem Ends.mono {Q Q' : Outcome ε α → σ → Prop} {m : Prog Op Res ε α} {s : σ}
    (hm : Ends h T Q m s) (hQ : ∀ out s', Q out s' → Q' out s') : Ends h T Q' m s :=
  ends_iff.mpr fun ht => hQ _ _ (ends_iff.mp hm ht)

/-- A postcondition may speak of the run itself. -/
theorem Ends.with_run {Q : Outcome ε α → σ → Prop} {m : Prog Op Res ε α} {s : σ}
    (hm : Ends h T Q m s) : Ends h T (fun out s' => Q out s' ∧ run h m s = (out, s')) m s :=
  ends_iff.mpr fun ht => ⟨ends_iff.mp hm ht, rfl⟩

/-- A postcondition on results only. -/
theorem Ends.of_ok {R : α → σ → Prop} {m : Prog Op Res ε α} {s : σ}
    (hm : ∀ a s', run h m s = (.ok a, s') → R a s') :
    Ends h T (fun out s' => ∀ a, out = .ok a → R a s') m s :=
  ends_iff.mpr fun _ a ha => hm a _ (Prod.ext ha rfl)

/-- Sequencing: a stop in `m` is a stop of the whole. -/
theorem Ends.bind {Q : Outcome ε β → σ → Prop} {m : Prog Op Res ε α}
    {f : α → Prog Op Res ε β} {s : σ}
    (hm : Ends h T (fun out s' => match out with
      | .ok a => Ends h T Q (f a) s'
      | .err e => Q (.err e) s'
      | .dropped => Q .dropped s') m s) : Ends h T Q (m >>= f) s := by
  show Ends h T Q (m.bind f) s
  induction m generalizing s with
  | ret a => exact hm
  | fail e => exact hm
  | op o k ih =>
    intro ht
    have := hm ht
    revert this
    rcases h o s with ⟨_ | r, s'⟩
    · exact fun hq => hq
    · exact fun hm' => ih r hm'

theorem Ends.attempt {Q : Outcome ε (Except ε α) → σ → Prop} {m : Prog Op Res ε α} {s : σ}
    (hm : Ends h T (fun out s' => match out with
      | .ok a => Q (.ok (.ok a)) s'
      | .err e => Q (.ok (.error e)) s'
      | .dropped => Q .dropped s') m s) : Ends h T Q m.attempt s := by
  induction m generalizing s with
  | ret a => exact hm
  | fail e => exact hm
  | op o k ih =>
    intro ht
    have := hm ht
    revert this
    rcases h o s with ⟨_ | r, s'⟩
    · exact fun hq => hq
    · exact fun hm' => ih r hm'

theorem Ends.mapErr {Q : Outcome ε α → σ → Prop} {g : ε → ε} {m : Prog Op Res ε α} {s : σ}
    (hm : Ends h T (fun out s' => match out with
      | .ok a => Q (.ok a) s'
      | .err e => Q (.err (g e)) s'
      | .dropped => Q .dropped s') m s) : Ends h T Q (m.mapErr g) s := by
  induction m generalizing s with
  | ret a => exact hm
  | fail e => exact hm
  | op o k ih =>
    intro ht
    have := hm ht
    revert this
    rcases h o s with ⟨_ | r, s'⟩
    · exact fun hq => hq
    · exact fun hm' => ih r hm'

end

/-! ## Frames -/

namespace Prog

@[simp] theorem uses_ret (P : Op → Prop) (a : α) : (ret a : Prog Op Res ε α).Uses P := trivial

@[simp] theorem uses_pure (P : Op → Prop) (a : α) : (pure a : Prog Op Res ε α).Uses P := trivial

@[simp] theorem uses_fail (P : Op → Prop) (e : ε) : (fail e : Prog Op Res ε α).Uses P := trivial

@[simp] theorem uses_perform (P : Op → Prop) (o : Op) :
    (perform o : Prog Op Res ε (Res o)).Uses P ↔ P o := by
  simp [perform, Uses]

theorem uses_bind {P : Op → Prop} {m : Prog Op Res ε α} {f : α → Prog Op Res ε β}
    (hm : m.Uses P) (hf : ∀ a, (f a).Uses P) : (m >>= f).Uses P := by
  show (m.bind f).Uses P
  induction m with
  | ret a => exact hf a
  | fail e => trivial
  | op o k ih => exact ⟨hm.1, fun r => ih r (hm.2 r)⟩

theorem uses_attempt {P : Op → Prop} {m : Prog Op Res ε α} (hm : m.Uses P) : m.attempt.Uses P := by
  induction m with
  | ret a => trivial
  | fail e => trivial
  | op o k ih => exact ⟨hm.1, fun r => ih r (hm.2 r)⟩

theorem uses_mapErr {P : Op → Prop} {g : ε → ε} {m : Prog Op Res ε α} (hm : m.Uses P) :
    (m.mapErr g).Uses P := by
  induction m with
  | ret a => trivial
  | fail e => trivial
  | op o k ih => exact ⟨hm.1, fun r => ih r (hm.2 r)⟩

theorem uses_ofExcept_bind {P : Op → Prop} {x : Except ε α} {f : α → Prog Op Res ε β}
    (hf : ∀ a, x = .ok a → (f a).Uses P) : (ofExcept x >>= f).Uses P := by
  cases x with
  | ok a => exact hf a rfl
  | error e => trivial

@[simp] theorem uses_ofExcept (P : Op → Prop) (x : Except ε α) :
    (ofExcept x : Prog Op Res ε α).Uses P := by
  cases x <;> trivial

theorem uses_fold {P : Op → Prop} {f : γ → β → Prog Op Res ε γ} {xs : List β}
    (hf : ∀ c x, x ∈ xs → (f c x).Uses P) (c : γ) : (fold f c xs).Uses P := by
  induction xs generalizing c with
  | nil => trivial
  | cons x xs ih =>
    exact uses_bind (hf c x (by simp)) fun c' => ih (fun c y hy => hf c y (by simp [hy])) c'

theorem uses_each {P : Op → Prop} {f : β → Prog Op Res ε Unit} {xs : List β}
    (hf : ∀ x ∈ xs, (f x).Uses P) : (each f xs).Uses P :=
  uses_fold (fun _ x hx => hf x hx) ()

theorem Uses.mono {P Q : Op → Prop} (hPQ : ∀ o, P o → Q o) {m : Prog Op Res ε α}
    (hm : m.Uses P) : m.Uses Q := by
  induction m with
  | ret a => trivial
  | fail e => trivial
  | op o k ih => exact ⟨hPQ o hm.1, fun r => ih r (hm.2 r)⟩

end Prog

theorem Prog.uses_all {P : Op → Prop} (hP : ∀ o, P o) (m : Prog Op Res ε α) : m.Uses P := by
  induction m with
  | ret a => trivial
  | fail e => trivial
  | op o k ih => exact ⟨hP o, ih⟩

/-- The frame rule: what every operation of the program keeps, the program
keeps, however it ends. -/
theorem keeps_of_uses (h : Handler Op Res σ) {P : Op → Prop} {I : σ → Prop}
    (hI : ∀ o, P o → ∀ s, I s → I (h o s).2) {m : Prog Op Res ε α} (hm : m.Uses P) :
    ∀ s, I s → I (run h m s).2 := by
  induction m with
  | ret a => exact fun _ hs => hs
  | fail e => exact fun _ hs => hs
  | op o k ih =>
    intro s hs
    have h1 := hI o hm.1 s hs
    simp only [run]
    split
    · rename_i r s' heq
      rw [heq] at h1
      exact ih r (hm.2 r) s' h1
    · rename_i s' heq
      rw [heq] at h1
      exact h1

end RenderMesh.Core
