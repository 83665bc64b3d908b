import Mathlib.Data.List.Infix
import Mathlib.Data.List.Dedup

/-!
# File trees

A file tree maps a path (its components below a root directory that always
exists) to a directory or to a file with its body. It is a list of entries of
which the first one for a path counts, so that a tree can be enumerated and
computed with; everything is stated through `lookup`.

`FileTree` carries its shape as a field (`closed`): whatever has an entry has a
directory above it. The three edits (`insert`, `prune`, `move`) are total and
guarded, so that no edit can build anything else, and each has one lemma that
says what `lookup` is afterwards. `names` lists a directory.
-/
namespace RenderMesh.Core

/-- A directory entry. -/
inductive Node (B : Type) where
  | dir
  | file (body : B)
  deriving DecidableEq, Repr

instance {B : Type} (o : Option (Node B)) : Decidable (o = some .dir) :=
  match o with
  | none => isFalse (by simp)
  | some .dir => isTrue rfl
  | some (.file _) => isFalse (by simp)

section
variable {N B : Type} [DecidableEq N]

/-- The first entry for `q`. -/
def find : List (List N × Node B) → List N → Option (Node B)
  | [], _ => none
  | e :: es, q => if e.1 = q then some e.2 else find es q

theorem find_filter (P : List N → Bool) (es : List (List N × Node B)) (q : List N) :
    find (es.filter fun e => P e.1) q = if P q then find es q else none := by
  induction es with
  | nil => simp [find]
  | cons e es ih =>
    by_cases he : P e.1 = true
    · by_cases hq : e.1 = q
      · subst hq; simp [find, List.filter, he]
      · simp only [List.filter, he, find, if_neg hq, ih]
    · simp only [Bool.not_eq_true] at he
      by_cases hq : e.1 = q
      · subst hq; simp [List.filter, he, ih]
      · simp only [List.filter, he, find, if_neg hq, ih]

theorem find_append (l m : List (List N × Node B)) (q : List N) :
    find (l ++ m) q = (find l q).or (find m q) := by
  induction l with
  | nil => simp [find]
  | cons e l ih => by_cases hq : e.1 = q <;> simp [find, hq, ih]

theorem find_isSome_iff (es : List (List N × Node B)) (q : List N) :
    (find es q).isSome ↔ ∃ e ∈ es, e.1 = q := by
  induction es with
  | nil => simp [find]
  | cons e es ih => by_cases hq : e.1 = q <;> simp [find, hq, ih]

/-- A finite tree of directories and files; see the module text. -/
structure FileTree (N B : Type) [DecidableEq N] where
  entries : List (List N × Node B)
  closed : ∀ p x, (find entries (p ++ [x])).isSome → p = [] ∨ find entries p = some .dir

theorem prefix_singleton {α : Type} {l : List α} {a : α} (h : l <+: [a]) : l = [a] ∨ l = [] := by
  cases l with
  | nil => exact Or.inr rfl
  | cons b l =>
    obtain ⟨rfl, hl⟩ := List.cons_prefix_cons.mp h
    exact Or.inl (by rw [List.prefix_nil.mp hl])

/-- A path on the way to `a ++ b` leads to `a`, or is below `a` on the way to `b`. -/
theorem prefix_append_cases {α : Type} {s a b : List α} (h : s <+: a ++ b) :
    s <+: a ∨ ∃ r, s = a ++ r ∧ r <+: b := by
  rcases List.prefix_or_prefix_of_prefix h (List.prefix_append a b) with hs | ⟨r, rfl⟩
  · exact Or.inl hs
  · exact Or.inr ⟨r, rfl, (List.prefix_append_right_inj a).mp h⟩

namespace FileTree

def empty : FileTree N B := ⟨[], by simp [find]⟩

/-- What is at a path; the root is a directory. -/
def lookup (t : FileTree N B) (q : List N) : Option (Node B) :=
  if q = [] then some .dir else find t.entries q

@[simp] theorem lookup_nil (t : FileTree N B) : t.lookup [] = some .dir := rfl

theorem lookup_of_ne_nil (t : FileTree N B) {q : List N} (hq : q ≠ []) :
    t.lookup q = find t.entries q := if_neg hq

theorem lookup_snoc (t : FileTree N B) (p : List N) (x : N) :
    t.lookup (p ++ [x]) = find t.entries (p ++ [x]) := t.lookup_of_ne_nil (by simp)

theorem parent_dir (t : FileTree N B) {p : List N} {x : N} (h : (t.lookup (p ++ [x])).isSome) :
    t.lookup p = some .dir := by
  rw [lookup_snoc] at h
  unfold lookup
  split
  · rfl
  · rename_i hp
    exact (t.closed p x h).resolve_left hp

/-- Above whatever exists there are only directories. -/
theorem above_dir (t : FileTree N B) {p r : List N} (hr : r ≠ [])
    (h : (t.lookup (p ++ r)).isSome) : t.lookup p = some .dir := by
  induction r using List.reverseRecOn with
  | nil => exact absurd rfl hr
  | append_singleton r x ih =>
    rw [← List.append_assoc] at h
    have hd := t.parent_dir h
    by_cases hr' : r = []
    · simpa [hr'] using hd
    · exact ih hr' (by rw [hd]; rfl)

theorem below_file (t : FileTree N B) {p r : List N} {b : B} (hr : r ≠ [])
    (h : t.lookup p = some (.file b)) : t.lookup (p ++ r) = none := by
  by_contra hne
  have := t.above_dir hr (Option.isSome_iff_ne_none.mpr hne)
  rw [h] at this
  cases this

theorem below_none (t : FileTree N B) {p r : List N} (h : t.lookup p = none) :
    t.lookup (p ++ r) = none := by
  by_cases hr : r = []
  · simpa [hr] using h
  · by_contra hne
    have := t.above_dir hr (Option.isSome_iff_ne_none.mpr hne)
    rw [h] at this
    cases this

/-! ## Edits -/

theorem closed_cons (t : FileTree N B) (q : List N) (n : Node B)
    (hpar : t.lookup q.dropLast = some .dir)
    (hn : n = .dir ∨ t.lookup q ≠ some .dir) :
    ∀ p x, (find ((q, n) :: t.entries) (p ++ [x])).isSome →
      p = [] ∨ find ((q, n) :: t.entries) p = some .dir := by
  intro p x h
  by_cases hp : p = []
  · exact Or.inl hp
  right
  have hdir : (t.lookup p = some .dir) := by
    by_cases hq : q = p ++ [x]
    · subst hq; simpa using hpar
    · simp only [find, if_neg hq] at h
      exact t.parent_dir (by rwa [lookup_snoc])
  by_cases hqp : q = p
  · subst hqp
    rcases hn with rfl | hn
    · simp [find]
    · exact absurd hdir hn
  · simp only [find, if_neg hqp]
    rwa [← t.lookup_of_ne_nil hp]

/-- Put `n` at `q`, below an existing directory, never in place of a directory. -/
def insert (t : FileTree N B) (q : List N) (n : Node B) : FileTree N B :=
  if h : t.lookup q.dropLast = some .dir ∧ t.lookup q ≠ some .dir then
    ⟨(q, n) :: t.entries, t.closed_cons q n h.1 (Or.inr h.2)⟩
  else t

theorem lookup_insert (t : FileTree N B) (q : List N) (n : Node B)
    (hpar : t.lookup q.dropLast = some .dir) (hq : t.lookup q ≠ some .dir) (r : List N) :
    (t.insert q n).lookup r = if r = q then some n else t.lookup r := by
  have hq0 : q ≠ [] := by rintro rfl; exact hq rfl
  unfold insert
  rw [dif_pos ⟨hpar, hq⟩]
  unfold lookup
  by_cases hr : r = []
  · subst hr; simp [hq0.symm]
  · by_cases hrq : r = q
    · subst hrq; simp [hr, find]
    · simp [hr, hrq, find, Ne.symm hrq]

theorem lookup_insert_of_ne (t : FileTree N B) (q : List N) (n : Node B) {r : List N}
    (hr : r ≠ q) : (t.insert q n).lookup r = t.lookup r := by
  by_cases h : t.lookup q.dropLast = some .dir ∧ t.lookup q ≠ some .dir
  · rw [lookup_insert t q n h.1 h.2, if_neg hr]
  · unfold insert; rw [dif_neg h]

/-- Remove `p` and everything below it. -/
def prune (t : FileTree N B) (p : List N) : FileTree N B :=
  if p = [] then t
  else ⟨t.entries.filter fun e => !decide (p <+: e.1), by
    intro q x h
    rw [find_filter (fun r => !decide (p <+: r))] at h
    by_cases hq : q = []
    · exact Or.inl hq
    right
    rw [find_filter (fun r => !decide (p <+: r))]
    split at h
    · rename_i hne
      have hnp : ¬ p <+: q := by
        intro hpq
        simp only [Bool.not_eq_eq_eq_not, Bool.not_true, decide_eq_false_iff_not] at hne
        exact hne (hpq.trans (List.prefix_append _ _))
      rw [if_pos (by simpa using hnp)]
      exact (t.closed q x h).resolve_left hq
    · cases h⟩

theorem lookup_prune (t : FileTree N B) {p : List N} (hp : p ≠ []) (q : List N) :
    (t.prune p).lookup q = if p <+: q then none else t.lookup q := by
  unfold prune
  rw [if_neg hp]
  unfold lookup
  by_cases hq : q = []
  · subst hq
    have : ¬ p <+: [] := by simpa using hp
    simp [this]
  · simp only [if_neg hq]
    rw [find_filter (fun r => !decide (p <+: r))]
    by_cases h : p <+: q <;> simp [h]

theorem lookup_prune_of_not_prefix (t : FileTree N B) {p q : List N} (h : ¬ p <+: q) :
    (t.prune p).lookup q = t.lookup q := by
  by_cases hp : p = []
  · exact absurd (hp ▸ List.nil_prefix) h
  · rw [lookup_prune t hp, if_neg h]

/-- The entries of `a` and below, renamed to `b` and below. -/
def moved (es : List (List N × Node B)) (a b : List N) : List (List N × Node B) :=
  (es.filter fun e => decide (a <+: e.1)).map fun e => (b ++ e.1.drop a.length, e.2)

theorem find_moved (es : List (List N × Node B)) (a b q : List N) :
    find (moved es a b) q = if b <+: q then find es (a ++ q.drop b.length) else none := by
  induction es with
  | nil => simp [moved, find]
  | cons e es ih =>
    by_cases he : a <+: e.1
    · obtain ⟨r, hr⟩ := he
      have hm : moved (e :: es) a b = (b ++ r, e.2) :: moved es a b := by
        simp [moved, List.filter, ← hr]
      rw [hm, find]
      by_cases hq : b ++ r = q
      · subst hq; simp [find, ← hr]
      · rw [if_neg hq, ih]
        by_cases hb : b <+: q
        · obtain ⟨s, rfl⟩ := hb
          have hne : ¬ (a ++ r = a ++ s) := by
            intro h; exact hq (by rw [List.append_cancel_left h])
          simp [find, ← hr, hne]
        · simp [hb]
    · have hm : moved (e :: es) a b = moved es a b := by simp [moved, List.filter, he]
      rw [hm, ih]
      by_cases hb : b <+: q
      · have hne : e.1 ≠ a ++ q.drop b.length := fun h => he (h ▸ List.prefix_append _ _)
        simp [hb, find, hne]
      · simp [hb]

/-- Rename `a` and what is below it to `b`, below an existing directory and not
below `a` itself; whatever was at `b` is gone. -/
def move (t : FileTree N B) (a b : List N) : FileTree N B :=
  if h : a ≠ [] ∧ b ≠ [] ∧ ¬ a <+: b ∧ t.lookup b.dropLast = some .dir then
    ⟨moved t.entries a b ++ t.entries.filter fun e => !decide (a <+: e.1) && !decide (b <+: e.1), by
      obtain ⟨ha, hb, hab, hpar⟩ := h
      intro p x hs
      by_cases hp : p = []
      · exact Or.inl hp
      right
      rw [find_append, find_moved, find_filter (fun r => !decide (a <+: r) && !decide (b <+: r))] at hs ⊢
      by_cases hbx : b <+: p ++ [x]
      · rw [if_pos hbx] at hs
        by_cases hbp : b <+: p
        · -- inside the moved subtree: its parent moved with it
          obtain ⟨r, rfl⟩ := hbp
          rw [if_pos (List.prefix_append _ _), List.drop_left]
          rw [List.append_assoc, List.drop_left, ← List.append_assoc] at hs
          have hnf : (!decide (a <+: b ++ r ++ [x]) && !decide (b <+: b ++ r ++ [x])) = false := by
            simp [List.append_assoc]
          simp only [List.append_assoc] at hnf
          simp only [List.append_assoc, hnf, Bool.false_eq_true, if_false, Option.or_none] at hs
          have hd := t.parent_dir (p := a ++ r) (x := x) (by
            rw [lookup_snoc]; simpa [List.append_assoc] using hs)
          rw [t.lookup_of_ne_nil (by simp [ha])] at hd
          simp [hd]
        · -- `b` itself: its parent is the directory it was moved to
          have hbe : b = p ++ [x] := by
            rcases List.prefix_concat_iff.mp hbx with h | h
            · exact h
            · exact absurd h hbp
          have hap : ¬ a <+: p := fun h => hab (hbe ▸ h.trans (List.prefix_append _ _))
          rw [if_neg hbp, Option.none_or]
          have hd : t.lookup p = some .dir := by simpa [hbe] using hpar
          rw [t.lookup_of_ne_nil hp] at hd
          simpa [hap, hbp] using hd
      · rw [if_neg hbx, Option.none_or] at hs
        split at hs
        · rename_i hk
          simp only [Bool.and_eq_true, Bool.not_eq_eq_eq_not, Bool.not_true,
            decide_eq_false_iff_not] at hk
          have hap : ¬ a <+: p := fun h => hk.1 (h.trans (List.prefix_append _ _))
          have hbp : ¬ b <+: p := fun h => hk.2 (h.trans (List.prefix_append _ _))
          rw [if_neg hbp, Option.none_or]
          have hd := (t.closed p x hs).resolve_left hp
          simpa [hap, hbp] using hd
        · cases hs⟩
  else t

theorem lookup_move (t : FileTree N B) {a b : List N} (ha : a ≠ []) (hb : b ≠ [])
    (hab : ¬ a <+: b) (hpar : t.lookup b.dropLast = some .dir) (q : List N) :
    (t.move a b).lookup q =
      if b <+: q then t.lookup (a ++ q.drop b.length)
      else if a <+: q then none else t.lookup q := by
  unfold move
  rw [dif_pos ⟨ha, hb, hab, hpar⟩]
  by_cases hq : q = []
  · subst hq
    have h1 : ¬ a <+: [] := by simpa using ha
    have h2 : ¬ b <+: [] := by simpa using hb
    simp [lookup, h1, h2]
  · rw [lookup_of_ne_nil _ hq]
    simp only
    rw [find_append, find_moved, find_filter (fun r => !decide (a <+: r) && !decide (b <+: r))]
    by_cases hbq : b <+: q
    · rw [if_pos hbq, if_pos hbq, t.lookup_of_ne_nil (by simp [ha])]
      simp [hbq]
    · rw [if_neg hbq, if_neg hbq, t.lookup_of_ne_nil hq]
      by_cases haq : a <+: q <;> simp [haq, hbq]

/-! ## Enumeration -/

/-- The names in a directory, each once. -/
def names (t : FileTree N B) (p : List N) : List N :=
  (t.entries.filterMap fun e => if e.1.dropLast = p then e.1.getLast? else none).dedup

theorem mem_names (t : FileTree N B) (p : List N) (x : N) :
    x ∈ t.names p ↔ (t.lookup (p ++ [x])).isSome := by
  rw [lookup_snoc, find_isSome_iff]
  simp only [names, List.mem_dedup, List.mem_filterMap]
  constructor
  · rintro ⟨e, he, hx⟩
    split at hx
    · rename_i hd
      refine ⟨e, he, ?_⟩
      rw [← hd]
      exact (List.dropLast_append_getLast? x hx).symm
    · cases hx
  · rintro ⟨e, he, hx⟩
    exact ⟨e, he, by simp [hx]⟩

/-- An upper bound on the depth of the tree. -/
def depth (t : FileTree N B) : Nat := t.entries.foldr (fun e n => max e.1.length n) 0

theorem length_le_depth (t : FileTree N B) {q : List N} (h : (t.lookup q).isSome) :
    q.length ≤ t.depth := by
  by_cases hq : q = []
  · simp [hq]
  rw [t.lookup_of_ne_nil hq, find_isSome_iff] at h
  obtain ⟨e, he, rfl⟩ := h
  unfold depth
  generalize t.entries = es at he
  induction es with
  | nil => cases he
  | cons a es ih =>
    rcases List.mem_cons.mp he with rfl | he
    · exact Nat.le_max_left _ _
    · exact Nat.le_trans (ih he) (Nat.le_max_right _ _)

end FileTree

end

end RenderMesh.Core
