import RenderMesh.Core.Prog

/-!
# What a run does on its way, and how it ends

`Along h P Q m s`: every step that the run of `m` from `s` takes satisfies `P` in the state it
finds, and the run ends as `Q` says, in whichever way it ends (`along_iff`). There is a rule for
each construct; the one for `fold` takes an invariant.
-/
namespace RenderMesh.Core

variable {Op : Type} {Res : Op → Type} {ε α β γ σ : Type}

/-- Every step satisfies `P`, and the end `Q`. -/
def Along (h : Handler Op Res σ) (P : Op → σ → Prop) (Q : Outcome ε α → σ → Prop) :
    Prog Op Res ε α → σ → Prop
  | .ret a, s => Q (.ok a) s
  | .fail e, s => Q (.err e) s
  | .op o k, s => P o s ∧ match h o s with
    | (some r, s') => Along h P Q (k r) s'
    | (none, s') => Q .dropped s'

section
variable {h : Handler Op Res σ} {P : Op → σ → Prop}

theorem along_iff {Q : Outcome ε α → σ → Prop} {m : Prog Op Res ε α} {s : σ} :
    Along h P Q m s ↔ (∀ e ∈ trace h m s, P e.1 e.2) ∧ Q (run h m s).1 (run h m s).2 := by
  induction m generalizing s with
  | ret a => simp [Along, trace]
  | fail e => simp [Along, trace]
  | op o k ih =>
    simp only [Along, trace, run, List.mem_cons, forall_eq_or_imp, and_assoc]
    rcases h o s with ⟨_ | r, s'⟩
    · simp
    · simp only [ih]

theorem Along.mono {P' : Op → σ → Prop} {Q Q' : Outcome ε α → σ → Prop} {m : Prog Op Res ε α} {s : σ}
    (hm : Along h P Q m s) (hP : ∀ o s', P o s' → P' o s') (hQ : ∀ out s', Q out s' → Q' out s') :
    Along h P' Q' m s := by
  rw [along_iff] at hm ⊢
  exact ⟨fun e he => hP _ _ (hm.1 e he), hQ _ _ hm.2⟩

/-- The steps of a run are operations of the program. -/
theorem mem_trace_of_uses {P : Op → Prop} {m : Prog Op Res ε α} (hm : m.Uses P) (s : σ) :
    ∀ e ∈ trace h m s, P e.1 := by
  induction m generalizing s with
  | ret a => simp [trace]
  | fail e => simp [trace]
  | op o k ih =>
    simp only [trace, List.mem_cons, forall_eq_or_imp]
    refine ⟨hm.1, ?_⟩
    rcases h o s with ⟨_ | r, s'⟩
    · simp
    · exact ih r (hm.2 r) s'

/-- What every step of a run keeps, the run keeps. -/
theorem keeps_of_steps {I : σ → Prop} (hstep : ∀ o s, P o s → I s → I (h o s).2)
    {m : Prog Op Res ε α} {s : σ} (ht : ∀ e ∈ trace h m s, P e.1 e.2) (hs : I s) : I (run h m s).2 := by
  induction m generalizing s with
  | ret a => exact hs
  | fail e => exact hs
  | op o k ih =>
    rw [run]
    simp only [trace, List.mem_cons, forall_eq_or_imp] at ht
    have hnext := hstep o s ht.1 hs
    generalize h o s = r at hnext ht
    obtain ⟨_ | r, s'⟩ := r
    · exact hnext
    · exact ih r ht.2 hnext

theorem keeps_of_trace {P : Op → Prop} {I : σ → Prop} (hstep : ∀ o s, P o → I s → I (h o s).2)
    {m : Prog Op Res ε α} {s : σ} (ht : ∀ e ∈ trace h m s, P e.1) (hs : I s) : I (run h m s).2 :=
  keeps_of_steps hstep ht hs

theorem keeps_bind {I : σ → Prop} {m : Prog Op Res ε α} {f : α → Prog Op Res ε β} {s : σ}
    (hm : I (run h m s).2)
    (hf : ∀ a s', run h m s = (.ok a, s') → I s' → I (run h (f a) s').2) :
    I (run h (m >>= f) s).2 := by
  rw [run_bind]
  rcases hrun : run h m s with ⟨a | e | _, s'⟩ <;> rw [hrun] at hm
  · exact hf a s' hrun hm
  · exact hm
  · exact hm

/-- When what follows a first part keeps more than the first part does. -/
theorem keeps_bind_ok {I J : σ → Prop} {m : Prog Op Res ε α} {f : α → Prog Op Res ε β} {s : σ}
    (hJ : ∀ s', J s' → I s') (hm : I (run h m s).2)
    (hf : ∀ a s', run h m s = (.ok a, s') → J (run h (f a) s').2) :
    I (run h (m >>= f) s).2 ∧ ∀ b s', run h (m >>= f) s = (.ok b, s') → J s' := by
  refine ⟨keeps_bind hm fun a s' hrun _ => hJ _ (hf a s' hrun), fun b s' hrun => ?_⟩
  obtain ⟨a, s1, h1, h2⟩ := run_bind_ok _ |>.mp hrun
  have hend := hf a s1 h1
  rw [h2] at hend
  exact hend

theorem keeps_attempt {I : σ → Prop} {m : Prog Op Res ε α} {s : σ} (hm : I (run h m s).2) :
    I (run h m.attempt s).2 := by
  rw [run_attempt]
  rcases hrun : run h m s with ⟨a | e | _, s'⟩ <;> rw [hrun] at hm <;> exact hm

/-- A counter that goes along with some of the steps of each turn does so for the whole loop. -/
theorem fold_counts {f : γ → β → Prog Op Res ε γ} (μ : γ → Nat) (p : Op × σ → Bool)
    (hturn : ∀ c x s c' s', run h (f c x) s = (.ok c', s') → μ c' = μ c + (trace h (f c x) s).countP p)
    {xs : List β} {c c' : γ} {s s' : σ} (hrun : run h (Prog.fold f c xs) s = (.ok c', s')) :
    μ c' = μ c + (trace h (Prog.fold f c xs) s).countP p := by
  induction xs generalizing c s with
  | nil =>
    cases hrun
    rfl
  | cons x xs ih =>
    rw [run_fold_cons] at hrun
    obtain ⟨c1, s1, h1, h2⟩ := run_bind_ok _ |>.mp hrun
    rw [run_fold_cons, trace_bind, h1, List.countP_append, ih h2, hturn c x s c1 s1 h1, Nat.add_assoc]

/-- A loop whose turns do nothing. -/
theorem fold_eq_pure {f : γ → β → Prog Op Res ε γ} {xs : List β}
    (hturn : ∀ c, ∀ x ∈ xs, ∃ c', f c x = pure c') (c : γ) : ∃ c', Prog.fold f c xs = pure c' := by
  induction xs generalizing c with
  | nil => exact ⟨c, rfl⟩
  | cons x xs ih =>
    obtain ⟨c1, h1⟩ := hturn c x List.mem_cons_self
    obtain ⟨c2, h2⟩ := ih (fun c y hy => hturn c y (List.mem_cons_of_mem _ hy)) c1
    exact ⟨c2, by rw [run_fold_cons, h1]; exact h2⟩

/-- A step that is none of the first part's comes in the second, which then is the end of the run. -/
theorem mem_trace_bind_of_uses {P : Op → Prop} {m : Prog Op Res ε α} (hm : m.Uses P)
    {f : α → Prog Op Res ε β} {s : σ} {e : Op × σ} (he : e ∈ trace h (m >>= f) s) (hno : ¬ P e.1) :
    ∃ a s', run h m s = (.ok a, s') ∧ e ∈ trace h (f a) s' ∧ run h (m >>= f) s = run h (f a) s' := by
  rw [trace_bind, List.mem_append] at he
  rcases he with hfirst | hrest
  · exact absurd (mem_trace_of_uses hm s e hfirst) hno
  · rw [run_bind]
    generalize run h m s = r at hrest ⊢
    obtain ⟨a | e' | _, s'⟩ := r
    · exact ⟨a, s', rfl, hrest, rfl⟩
    · cases hrest
    · cases hrest

/-- A step that is none of the second part's comes in the first. -/
theorem mem_trace_of_bind_of_uses {P : Op → Prop} {m : Prog Op Res ε α} {f : α → Prog Op Res ε β}
    (hf : ∀ a, (f a).Uses P) {s : σ} {e : Op × σ} (he : e ∈ trace h (m >>= f) s) (hno : ¬ P e.1) :
    e ∈ trace h m s := by
  rw [trace_bind, List.mem_append] at he
  refine he.resolve_right fun hrest => ?_
  generalize run h m s = r at hrest
  obtain ⟨a | e' | _, s'⟩ := r
  · exact hno (mem_trace_of_uses (hf a) s' e hrest)
  · cases hrest
  · cases hrest

/-- Sequencing: the second part runs where the first one returned. -/
theorem Along.bind {Q : Outcome ε β → σ → Prop} {m : Prog Op Res ε α} {f : α → Prog Op Res ε β} {s : σ}
    (hm : Along h P (fun out s' => match out with
      | .ok a => Along h P Q (f a) s'
      | .err e => Q (.err e) s'
      | .dropped => Q .dropped s') m s) : Along h P Q (m >>= f) s := by
  show Along h P Q (m.bind f) s
  induction m generalizing s with
  | ret a => exact hm
  | fail e => exact hm
  | op o k ih =>
    rw [Along] at hm
    rw [Prog.bind, Along]
    obtain ⟨hstep, hrest⟩ := hm
    refine ⟨hstep, ?_⟩
    revert hrest
    rcases h o s with ⟨_ | r, s'⟩
    · exact fun hq => hq
    · exact fun hm' => ih r hm'

/-- A check that may stop the run. -/
theorem along_ofExcept {Q : Outcome ε α → σ → Prop} {x : Except ε α} {s : σ}
    (hok : ∀ a, x = .ok a → Q (.ok a) s) (herr : ∀ e, x = .error e → Q (.err e) s) :
    Along h P Q (Prog.ofExcept x : Prog Op Res ε α) s := by
  cases x with
  | ok a => exact hok a rfl
  | error e => exact herr e rfl

theorem along_ofExcept_bind {Q : Outcome ε β → σ → Prop} {x : Except ε α} {f : α → Prog Op Res ε β}
    {s : σ} (hok : ∀ a, x = .ok a → Along h P Q (f a) s) (herr : ∀ e, x = .error e → Q (.err e) s) :
    Along h P Q (Prog.ofExcept x >>= f) s :=
  Along.bind (along_ofExcept hok herr)

/-- A loop over a list. `I done rest c s` speaks of the elements already visited and of those
still to come. -/
theorem Along.fold {Q : Outcome ε γ → σ → Prop} {f : γ → β → Prog Op Res ε γ}
    (I : List β → List β → γ → σ → Prop)
    (hstep : ∀ done x rest c s, I done (x :: rest) c s →
      Along h P (fun out s' => match out with
        | .ok c' => I (done ++ [x]) rest c' s'
        | .err e => Q (.err e) s'
        | .dropped => Q .dropped s') (f c x) s)
    (hend : ∀ done c s, I done [] c s → Q (.ok c) s) :
    ∀ (xs done : List β) (c : γ) (s : σ), I done xs c s → Along h P Q (Prog.fold f c xs) s := by
  intro xs
  induction xs with
  | nil => exact fun done c s hI => hend done c s hI
  | cons x xs ih =>
    intro done c s hI
    rw [run_fold_cons]
    refine Along.bind ((hstep done x xs c s hI).mono (fun _ _ => id) fun out s' hout => ?_)
    cases out with
    | ok c' => exact ih _ _ _ hout
    | err e => exact hout
    | dropped => exact hout

end

end RenderMesh.Core
