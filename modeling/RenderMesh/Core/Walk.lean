import RenderMesh.Core.FileTree

/-!
# Directory walks

The loop that visits everything below a directory with an explicit stack: pop a
directory, read its entries in turn, push those that are directories. On a tree
that does not change below the start while the loop runs (or only loses files
that were already visited) the places it visits, and their order, are those of
`itinerary`. The order in which a directory lists its entries is that of
`FileTree.names`; nothing that is proved depends on it.

* `entry_mem_itinerary`: what is visited, with the directories in `skip` not
  entered.
* `itinerary_nodup`: nothing is visited twice.
* `itinerary_parentsFirst`: a directory is visited before what is in it.
-/
namespace RenderMesh.Core

/-- A step of the walk, at names below its start. -/
inductive WalkEvent (N : Type) where
  | readDir (rel : List N)
  | entry (rel : List N) (isDir : Bool)
  deriving DecidableEq, Repr

section
variable {N B : Type} [DecidableEq N]

namespace FileTree

def isDirAt (t : FileTree N B) (p : List N) : Bool := t.lookup p = some .dir

/-- The walk of `start ++ rel`, at most `n` levels deep. -/
def itineraryFrom (t : FileTree N B) (skip : List N → Bool) (start : List N) :
    Nat → List N → List (WalkEvent N)
  | 0, rel => [.readDir rel]
  | n + 1, rel =>
    let entries := t.names (start ++ rel)
    let dirs := entries.filter fun x => t.isDirAt (start ++ (rel ++ [x])) && !skip (rel ++ [x])
    .readDir rel ::
      (entries.map fun x => .entry (rel ++ [x]) (t.isDirAt (start ++ (rel ++ [x])))) ++
      dirs.reverse.flatMap fun x => t.itineraryFrom skip start n (rel ++ [x])

def itinerary (t : FileTree N B) (skip : List N → Bool) (start : List N) : List (WalkEvent N) :=
  t.itineraryFrom skip start t.depth []

theorem readDir_mem_itineraryFrom (t : FileTree N B) (skip : List N → Bool) (start : List N)
    (n : Nat) (rel r : List N) (h : .readDir r ∈ t.itineraryFrom skip start n rel) :
    r = rel ∨ t.lookup (start ++ r) = some .dir := by
  induction n generalizing rel with
  | zero =>
    simp only [itineraryFrom, List.mem_singleton, WalkEvent.readDir.injEq] at h
    exact Or.inl h
  | succ n ih =>
    simp only [itineraryFrom, List.cons_append, List.mem_cons, WalkEvent.readDir.injEq,
      List.mem_append, List.mem_map, List.mem_flatMap, List.mem_reverse, List.mem_filter] at h
    rcases h with rfl | ⟨x, -, hx⟩ | ⟨x, ⟨-, hx⟩, h⟩
    · exact Or.inl rfl
    · cases hx
    · simp only [Bool.and_eq_true, isDirAt, decide_eq_true_eq] at hx
      rcases ih _ h with rfl | h
      · exact Or.inr hx.1
      · exact Or.inr h

theorem itinerary_eq_cons (t : FileTree N B) (skip : List N → Bool) (start : List N) :
    ∃ events, t.itinerary skip start = .readDir [] :: events := by
  unfold itinerary
  cases t.depth with
  | zero => exact ⟨[], rfl⟩
  | succ n => exact ⟨_, rfl⟩

theorem readDir_nil_mem_itinerary (t : FileTree N B) (skip : List N → Bool) (start : List N) :
    .readDir [] ∈ t.itinerary skip start := by
  obtain ⟨events, h⟩ := t.itinerary_eq_cons skip start
  simp [h]

/-- An entry at most `n` levels down, all of its proper parents entered. -/
theorem entry_mem_itineraryFrom (t : FileTree N B) (skip : List N → Bool) (start : List N)
    (n : Nat) (rel r : List N) (d : Bool) :
    .entry r d ∈ t.itineraryFrom skip start n rel ↔
      ∃ s, s ≠ [] ∧ s.length ≤ n ∧ r = rel ++ s ∧ (t.lookup (start ++ r)).isSome ∧
        d = t.isDirAt (start ++ r) ∧
        ∀ u, u ≠ [] → u <+: s → u ≠ s → skip (rel ++ u) = false := by
  induction n generalizing rel with
  | zero =>
    simp only [itineraryFrom, List.mem_singleton, reduceCtorEq, false_iff]
    rintro ⟨s, hs, hl, -⟩
    exact hs (List.length_eq_zero_iff.mp (Nat.le_zero.mp hl))
  | succ n ih =>
    simp only [itineraryFrom, List.cons_append, List.mem_cons, reduceCtorEq, false_or,
      List.mem_append, List.mem_map, WalkEvent.entry.injEq, List.mem_flatMap, List.mem_reverse,
      List.mem_filter, mem_names, Bool.and_eq_true, Bool.not_eq_eq_eq_not, Bool.not_true]
    constructor
    · rintro (⟨x, hx, rfl, rfl⟩ | ⟨x, ⟨-, hd, hsk⟩, h⟩)
      · refine ⟨[x], by simp, by simp, rfl, by simpa using hx, rfl, ?_⟩
        intro u hu hux hne
        rcases prefix_singleton hux with h | h
        · exact absurd h hne
        · exact absurd h hu
      · obtain ⟨s, hs, hl, rfl, h1, h2, h3⟩ := (ih _).mp h
        refine ⟨x :: s, by simp, by simpa using hl, by simp, h1, h2, ?_⟩
        intro u hu hux hne
        cases u with
        | nil => exact absurd rfl hu
        | cons y u =>
          obtain ⟨rfl, hus⟩ := List.cons_prefix_cons.mp hux
          by_cases hu0 : u = []
          · simpa [hu0] using hsk
          · simpa using h3 u hu0 hus (by simpa using hne)
    · rintro ⟨s, hs, hl, rfl, h1, rfl, h3⟩
      obtain ⟨x, s, rfl⟩ := List.exists_cons_of_ne_nil hs
      by_cases hs0 : s = []
      · subst hs0
        exact Or.inl ⟨x, by simpa using h1, rfl, rfl⟩
      · right
        have hdir : t.lookup (start ++ (rel ++ [x])) = some .dir :=
          t.above_dir (r := s) hs0 (by simpa using h1)
        refine ⟨x, ⟨by simp only [List.append_assoc, hdir, Option.isSome_some],
          by simpa [isDirAt] using hdir, h3 [x] (by simp) (by simp) (by simpa using hs0)⟩, ?_⟩
        refine (ih _).mpr ⟨s, hs0, by simpa using hl, by simp, by simpa using h1, by simp, ?_⟩
        intro u hu hux hne
        simpa using h3 (x :: u) (by simp) (by simpa using hux) (by simpa using hne)

/-- What a walk visits: all that is below its start, unless below a skipped directory. -/
theorem entry_mem_itinerary (t : FileTree N B) (skip : List N → Bool) (start r : List N)
    (d : Bool) :
    .entry r d ∈ t.itinerary skip start ↔
      r ≠ [] ∧ (t.lookup (start ++ r)).isSome ∧ d = t.isDirAt (start ++ r) ∧
        ∀ u, u ≠ [] → u <+: r → u ≠ r → skip u = false := by
  rw [itinerary, entry_mem_itineraryFrom]
  constructor
  · rintro ⟨s, hs, -, rfl, h1, h2, h3⟩
    exact ⟨hs, h1, h2, h3⟩
  · rintro ⟨hr, h1, h2, h3⟩
    have hl := t.length_le_depth h1
    rw [List.length_append] at hl
    exact ⟨r, hr, by omega, rfl, h1, h2, h3⟩

/-- Where the events of a walk from `rel` take place. -/
theorem place_of_mem_itineraryFrom (t : FileTree N B) (skip : List N → Bool) (start : List N)
    (n : Nat) (rel : List N) {e : WalkEvent N} (h : e ∈ t.itineraryFrom skip start n rel) :
    ∃ s, e = .readDir (rel ++ s) ∨ s ≠ [] ∧ ∃ d, e = .entry (rel ++ s) d := by
  induction n generalizing rel with
  | zero =>
    simp only [itineraryFrom, List.mem_singleton] at h
    exact ⟨[], Or.inl (by simpa using h)⟩
  | succ n ih =>
    simp only [itineraryFrom, List.cons_append, List.mem_cons, List.mem_append, List.mem_map,
      List.mem_flatMap] at h
    rcases h with rfl | ⟨x, -, rfl⟩ | ⟨x, -, hx⟩
    · exact ⟨[], Or.inl (by simp)⟩
    · exact ⟨[x], Or.inr ⟨by simp, _, rfl⟩⟩
    · obtain ⟨s, h | ⟨-, d, h⟩⟩ := ih _ hx
      · exact ⟨x :: s, Or.inl (by simpa using h)⟩
      · exact ⟨x :: s, Or.inr ⟨by simp, d, by simpa using h⟩⟩

theorem itineraryFrom_nodup (t : FileTree N B) (skip : List N → Bool) (start : List N) (n : Nat)
    (rel : List N) : (t.itineraryFrom skip start n rel).Nodup := by
  induction n generalizing rel with
  | zero => simp [itineraryFrom]
  | succ n ih =>
    have hnames : (t.names (start ++ rel)).Nodup := List.nodup_dedup _
    simp only [itineraryFrom, List.cons_append, List.nodup_cons, List.mem_append, List.mem_map,
      List.mem_flatMap, List.mem_reverse, not_or]
    refine ⟨⟨by simp, ?_⟩, List.nodup_append.mpr ⟨?_, ?_, ?_⟩⟩
    · -- the start is entered once
      rintro ⟨x, -, hx⟩
      obtain ⟨s, h | ⟨-, d, h⟩⟩ := t.place_of_mem_itineraryFrom skip start n _ hx
      · simp at h
      · cases h
    · refine hnames.map fun x y h => ?_
      simp only [WalkEvent.entry.injEq, List.append_cancel_left_eq, List.cons.injEq, and_true] at h
      exact h.1
    · refine List.nodup_flatMap.mpr ⟨fun x _ => ih _, ?_⟩
      refine (List.nodup_reverse.mpr (hnames.filter _)).imp fun {x y} hxy => ?_
      -- what is below one entry is not below another
      intro e hx hy
      obtain ⟨s, hs⟩ := t.place_of_mem_itineraryFrom skip start n _ hx
      obtain ⟨r, hr⟩ := t.place_of_mem_itineraryFrom skip start n _ hy
      rcases hs with rfl | ⟨-, d, rfl⟩
      · rcases hr with hr | ⟨-, d', hr⟩ <;> simp at hr
        exact hxy hr.1
      · rcases hr with hr | ⟨-, d', hr⟩ <;> simp at hr
        exact hxy hr.1.1
    · rintro e he e' he' rfl
      simp only [List.mem_map, List.mem_flatMap] at he he'
      obtain ⟨x, -, rfl⟩ := he
      obtain ⟨y, -, hy⟩ := he'
      obtain ⟨s, h | ⟨hs, d, h⟩⟩ := t.place_of_mem_itineraryFrom skip start n _ hy
      · cases h
      · simp only [WalkEvent.entry.injEq, List.append_assoc, List.append_cancel_left_eq,
          List.cons_append, List.nil_append, List.cons.injEq] at h
        exact hs h.1.2.symm

/-- A walk visits every place once. -/
theorem itinerary_nodup (t : FileTree N B) (skip : List N → Bool) (start : List N) :
    (t.itinerary skip start).Nodup := t.itineraryFrom_nodup skip start _ _

end FileTree

end

section
variable {N : Type}

/-- Each entry's parent is known before it; `known` grows by the directories met. -/
def ParentsFirst : List (List N) → List (WalkEvent N) → Prop
  | _, [] => True
  | known, .readDir _ :: es => ParentsFirst known es
  | known, .entry r d :: es =>
    r.dropLast ∈ known ∧ ParentsFirst (if d then r :: known else known) es

theorem ParentsFirst.mono {k k' : List (List N)} {es : List (WalkEvent N)} (h : ParentsFirst k es)
    (hk : ∀ r ∈ k, r ∈ k') : ParentsFirst k' es := by
  induction es generalizing k k' with
  | nil => trivial
  | cons e es ih =>
    cases e with
    | readDir r => exact ih (k := k) h hk
    | entry r d =>
      refine ⟨hk _ h.1, ih h.2 ?_⟩
      cases d with
      | false => simpa using hk
      | true => simpa using fun s hs => Or.inr (hk s hs)

/-- The directories among the entries. -/
def dirsOf (es : List (WalkEvent N)) : List (List N) :=
  es.filterMap fun
    | .entry r true => some r
    | _ => none

theorem parentsFirst_append {k : List (List N)} {es fs : List (WalkEvent N)}
    (h1 : ParentsFirst k es) (h2 : ∀ k', (∀ r, r ∈ k ∨ r ∈ dirsOf es → r ∈ k') →
      ParentsFirst k' fs) : ParentsFirst k (es ++ fs) := by
  induction es generalizing k with
  | nil => exact h2 k fun r hr => by simpa [dirsOf] using hr
  | cons e es ih =>
    cases e with
    | readDir r => exact ih (k := k) h1 fun k' hk' => h2 k' fun s hs => hk' s (by simpa [dirsOf] using hs)
    | entry r d =>
      refine ⟨h1.1, ih h1.2 fun k' hk' => h2 k' fun s hs => hk' s ?_⟩
      cases d with
      | false => simpa [dirsOf] using hs
      | true =>
        have hd : dirsOf (.entry r true :: es) = r :: dirsOf es := rfl
        rw [hd, List.mem_cons] at hs
        simp only [if_true, List.mem_cons]
        tauto

variable {B : Type} [DecidableEq N]

theorem FileTree.itineraryFrom_parentsFirst (t : FileTree N B) (skip : List N → Bool)
    (start : List N) (n : Nat) (rel : List N) (known : List (List N)) (hrel : rel ∈ known) :
    ParentsFirst known (t.itineraryFrom skip start n rel) := by
  induction n generalizing rel known with
  | zero => trivial
  | succ n ih =>
    simp only [itineraryFrom, List.cons_append]
    show ParentsFirst known (_ ++ _)
    refine parentsFirst_append ?_ ?_
    · generalize t.names (start ++ rel) = xs
      clear ih
      induction xs generalizing known with
      | nil => trivial
      | cons x xs ihx =>
        refine ⟨by simpa using hrel, ihx _ ?_⟩
        split <;> simp [hrel]
    · intro k hk
      have hdirs : ∀ x ∈ ((t.names (start ++ rel)).filter fun x =>
          t.isDirAt (start ++ (rel ++ [x])) && !skip (rel ++ [x])).reverse, rel ++ [x] ∈ k := by
        intro x hx
        rw [List.mem_reverse, List.mem_filter] at hx
        refine hk _ (Or.inr ?_)
        simp only [dirsOf, List.mem_filterMap, List.mem_map]
        refine ⟨_, ⟨x, hx.1, rfl⟩, ?_⟩
        simp only [Bool.and_eq_true] at hx
        rw [hx.2.1]
      revert hdirs
      generalize ((t.names (start ++ rel)).filter fun x =>
          t.isDirAt (start ++ (rel ++ [x])) && !skip (rel ++ [x])).reverse = xs
      intro hdirs
      clear hk
      induction xs generalizing k with
      | nil => trivial
      | cons x xs ihx =>
        rw [List.flatMap_cons]
        refine parentsFirst_append (ih _ _ (hdirs x (by simp))) fun k' hk' => ?_
        exact ihx k' fun y hy => hk' _ (Or.inl (hdirs y (by simp [hy])))

theorem FileTree.itinerary_parentsFirst (t : FileTree N B) (skip : List N → Bool)
    (start : List N) : ParentsFirst [[]] (t.itinerary skip start) :=
  t.itineraryFrom_parentsFirst skip start _ _ _ (by simp)

end

end RenderMesh.Core
