import RenderMesh.Core.Loop
import RenderMesh.Core.Walk

/-!
# Directory walks with a stack

The loop behind `Walk`: its variables hold the directories still to be read, the next one on
top. A turn that reads one directory of a tree that stands still, and puts those found in it
on the stack, visits `FileTree.visit`; the whole loop visits `FileTree.itinerary`, after as
many turns as it has directories (`Yields.iterate_itinerary`).

A turn may fail instead: `Yields` is code that gives the value it should or fails.
-/
namespace RenderMesh.Core

/-- The directories that a list of events reads. -/
def reads {N : Type} (es : List (WalkEvent N)) : Nat :=
  es.countP fun
    | .readDir _ => true
    | .entry _ _ => false

theorem reads_append {N : Type} (es fs : List (WalkEvent N)) :
    reads (es ++ fs) = reads es + reads fs :=
  List.countP_append

namespace FileTree

variable {N B : Type} [DecidableEq N] (t : FileTree N B) (skip : List N → Bool) (start : List N)

/-- What a turn visits in the directory `rel`. -/
def visit (rel : List N) : List (WalkEvent N) :=
  .readDir rel :: (t.names (start ++ rel)).map fun x =>
    .entry (rel ++ [x]) (t.isDirAt (start ++ (rel ++ [x])))

/-- The directories in `rel` that are entered, the last one found on top. -/
def subdirs (rel : List N) : List (List N) :=
  (((t.names (start ++ rel)).filter fun x =>
    t.isDirAt (start ++ (rel ++ [x])) && !skip (rel ++ [x])).reverse).map fun x => rel ++ [x]

theorem reads_visit (rel : List N) : reads (t.visit start rel) = 1 := by
  unfold reads visit
  rw [List.countP_cons, List.countP_map]
  simp

theorem itineraryFrom_succ (n : Nat) (rel : List N) :
    t.itineraryFrom skip start (n + 1) rel =
      t.visit start rel ++ (t.subdirs skip start rel).flatMap (t.itineraryFrom skip start n) := by
  rw [itineraryFrom, visit, subdirs, List.flatMap_map]

theorem subdirs_dir {rel r : List N} (h : r ∈ t.subdirs skip start rel) :
    t.lookup (start ++ r) = some .dir ∧ ∃ x, r = rel ++ [x] := by
  simp only [subdirs, List.mem_map, List.mem_reverse, List.mem_filter, Bool.and_eq_true, isDirAt,
    decide_eq_true_eq] at h
  obtain ⟨x, ⟨-, hdir, -⟩, rfl⟩ := h
  exact ⟨hdir, x, rfl⟩

/-- Nothing is below a directory that is as deep as the tree. -/
theorem names_deepest {p : List N} (h : t.depth ≤ p.length) : t.names p = [] := by
  refine List.eq_nil_iff_forall_not_mem.mpr fun x hx => ?_
  have := t.length_le_depth ((t.mem_names p x).mp hx)
  rw [List.length_append, List.length_singleton] at this
  omega

end FileTree

/-! ## Code that gives its value or fails -/

section
variable {Op : Type} {Res : Op → Type} {ε α β γ σ : Type} {h : Handler Op Res σ} {cause : Prop}

/-- Running `m` gives `a`, or an error, and then there is a `cause`. -/
def Yields (h : Handler Op Res σ) (cause : Prop) (m : Prog Op Res ε α) (a : α) : Prop :=
  ∀ s, (∃ s', run h m s = (.ok a, s')) ∨ cause ∧ ∃ e s', run h m s = (.err e, s')

theorem Yields.ret (a : α) : Yields (ε := ε) h cause (pure a) a := fun s => Or.inl ⟨s, rfl⟩

theorem Yields.bind {m : Prog Op Res ε α} {f : α → Prog Op Res ε β} {a : α} {b : β}
    (hm : Yields h cause m a) (hf : Yields h cause (f a) b) : Yields h cause (m >>= f) b := by
  intro s
  rw [run_bind]
  rcases hm s with ⟨s', hrun⟩ | ⟨hcause, e, s', hrun⟩
  · rw [hrun]
    exact hf s'
  · rw [hrun]
    exact Or.inr ⟨hcause, e, s', rfl⟩

theorem Yields.mapErr {g : ε → ε} {m : Prog Op Res ε α} {a : α} (hm : Yields h cause m a) :
    Yields h cause (m.mapErr g) a := by
  intro s
  rw [run_mapErr]
  rcases hm s with ⟨s', hrun⟩ | ⟨hcause, e, s', hrun⟩
  · rw [hrun]
    exact Or.inl ⟨s', rfl⟩
  · rw [hrun]
    exact Or.inr ⟨hcause, g e, s', rfl⟩

theorem Yields.fold {f : γ → β → Prog Op Res ε γ} {g : γ → β → γ} {xs : List β}
    (hf : ∀ c, ∀ x ∈ xs, Yields h cause (f c x) (g c x)) (c : γ) :
    Yields h cause (Prog.fold f c xs) (xs.foldl g c) := by
  induction xs generalizing c with
  | nil => exact .ret c
  | cons x xs ih => exact (hf c x (by simp)).bind (ih (fun c y hy => hf c y (by simp [hy])) _)

end

/-! ## The loop -/

section
variable {Op : Type} {Res : Op → Type} {ε α σ τ : Type} {N B : Type} [DecidableEq N]
  {h : Handler Op Res σ} {cause : Prop} {body : τ → Prog Op Res ε (τ ⊕ α)}

theorem Yields.turn {t t' : τ} {n : Nat} {a : Option α} (hturn : Yields h cause (body t) (.inl t'))
    (hrest : Yields h cause (Prog.iterate body n t') a) :
    Yields h cause (Prog.iterate body (n + 1) t) a :=
  hturn.bind hrest

theorem Yields.over {t : τ} {n : Nat} {a : α} (hend : Yields h cause (body t) (.inr a)) :
    Yields h cause (Prog.iterate body (n + 1) t) (some a) :=
  hend.bind (.ret _)

variable {t : FileTree N B} {skip : List N → Bool} {start : List N}
  (vars : List (WalkEvent N) → List (List N) → τ)
  (hturn : ∀ es rel rels, t.lookup (start ++ rel) = some .dir →
    Yields h cause (body (vars es (rel :: rels)))
      (.inl (vars (es ++ t.visit start rel) (t.subdirs skip start rel ++ rels))))
include hturn

/-- The turns for the directory on top of the stack and all that is found below it. The induction
is on how much deeper the tree can be. -/
theorem Yields.iterate_itineraryFrom (n : Nat) {rel : List N}
    (hdir : t.lookup (start ++ rel) = some .dir) (hdeep : t.depth ≤ (start ++ rel).length + n)
    (es : List (WalkEvent N)) (rels : List (List N)) {m : Nat} {a : Option α}
    (hrest : Yields h cause (Prog.iterate body m (vars (es ++ t.itineraryFrom skip start n rel) rels)) a) :
    Yields h cause (Prog.iterate body (reads (t.itineraryFrom skip start n rel) + m)
      (vars es (rel :: rels))) a := by
  induction n generalizing rel es rels m with
  | zero =>
    have hnames : t.names (start ++ rel) = [] := t.names_deepest hdeep
    have hvisit : t.visit start rel = [.readDir rel] := by rw [FileTree.visit, hnames, List.map_nil]
    have hsub : t.subdirs skip start rel = [] := by rw [FileTree.subdirs, hnames]; rfl
    have hone := hturn es rel rels hdir
    rw [hvisit, hsub, List.nil_append] at hone
    rw [show reads (t.itineraryFrom skip start 0 rel) + m = m + 1 from Nat.add_comm 1 m]
    exact hone.turn hrest
  | succ n ih =>
    rw [t.itineraryFrom_succ, ← List.append_assoc] at hrest
    rw [t.itineraryFrom_succ, reads_append, t.reads_visit, Nat.add_assoc, Nat.add_comm 1]
    refine (hturn es rel rels hdir).turn ?_
    have hsubdirs : ∀ r ∈ t.subdirs skip start rel, t.lookup (start ++ r) = some .dir ∧
        t.depth ≤ (start ++ r).length + n := by
      intro r hr
      obtain ⟨hr, x, rfl⟩ := t.subdirs_dir skip start hr
      refine ⟨hr, ?_⟩
      simp only [List.length_append, List.length_singleton] at hdeep ⊢
      omega
    -- the directories found are taken off the stack one by one
    generalize es ++ t.visit start rel = es at hrest ⊢
    generalize t.subdirs skip start rel = dirs at hrest hsubdirs ⊢
    induction dirs generalizing es with
    | nil => simpa [reads] using hrest
    | cons r dirs ihdirs =>
      rw [List.flatMap_cons, ← List.append_assoc] at hrest
      rw [List.flatMap_cons, reads_append, Nat.add_assoc, List.cons_append]
      exact ih (hsubdirs r (by simp)).1 (hsubdirs r (by simp)).2 es _
        (ihdirs _ hrest fun s hs => hsubdirs s (by simp [hs]))

/-- A loop whose turns visit what they should visits the itinerary. -/
theorem Yields.iterate_itinerary {result : List (WalkEvent N) → α}
    (hend : ∀ es, Yields h cause (body (vars es [])) (.inr (result es)))
    (hstart : t.lookup start = some .dir) {turns : Nat}
    (hturns : reads (t.itinerary skip start) < turns) :
    Yields h cause (Prog.iterate body turns (vars [] [[]])) (some (result (t.itinerary skip start))) := by
  obtain ⟨m, rfl⟩ := Nat.exists_eq_add_of_lt hturns
  rw [Nat.add_assoc]
  refine iterate_itineraryFrom vars hturn t.depth (by simpa using hstart) (by omega) [] [] ?_
  exact (hend _).over

end

end RenderMesh.Core
