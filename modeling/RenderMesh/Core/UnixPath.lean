import RenderMesh.Core.Text

/-!
# Paths

`std::path::Path` on Unix. A `PathBuf` is the raw text of a path below the
directory that the server keeps its mirrors in; what the standard library and
the kernel read in it is a list of components.

* `Name` is a name a directory entry can have; a value carries the proof.
* `components` is `Path::components`; `names` keeps the `Normal` ones as names,
  the way the kernel resolves a path without `..` from a directory.
* `joinNames` and `keyOf` write names back as text; `names_joinNames` and
  `names_keyOf` read them again.
* `Plain` are the texts that `keyOf` writes: no empty and no `.` segment.
-/
namespace RenderMesh.Core

/-- What a directory entry can be called. -/
def ValidName (s : Str) : Prop :=
  s ≠ [] ∧ s ≠ ['.'] ∧ s ≠ ['.', '.'] ∧ '/' ∉ s ∧ '\x00' ∉ s

instance (s : Str) : Decidable (ValidName s) := by unfold ValidName; infer_instance

/-- A name in a directory. -/
structure Name where
  text : Str
  valid : ValidName text
  deriving DecidableEq, Repr

/-- `std::path::Component`; `Prefix` exists only on Windows. -/
inductive Component where
  | rootDir
  | curDir
  | parentDir
  | normal (part : Str)
  deriving DecidableEq, Repr

/-- One segment, past the start of the path: empty ones and `.` are dropped. -/
def segComponent? (s : Str) : Option Component :=
  if s = [] then none
  else if s = ['.'] then none
  else if s = ['.', '.'] then some .parentDir
  else some (.normal s)

/-- `Path::components`. -/
def components (p : Str) : List Component :=
  (if p.head? = some '/' then [.rootDir]
    else if (segments p).head? = some ['.'] then [.curDir] else []) ++
  (segments p).filterMap segComponent?

/-- `Path::is_absolute`. -/
def isAbsolute (p : Str) : Bool := p.head? = some '/'

abbrev PathBuf := Str

def nameOf? (s : Str) : Option Name := if h : ValidName s then some ⟨s, h⟩ else none

/-- The names a path leads through. `..` and NUL are dropped here: every path
the server opens was checked for them before. -/
def names (p : PathBuf) : List Name := (segments p).filterMap nameOf?

/-- The path was written with a trailing `/` or `/.`. -/
def asDir (p : PathBuf) : Bool :=
  match (segments p).getLast? with
  | some s => s = [] || s = ['.']
  | none => false

/-- `Path::join` with a relative path. -/
def join (p : PathBuf) (k : Str) : PathBuf := p ++ '/' :: k

def joinNames (p : PathBuf) (ns : List Name) : PathBuf :=
  ns.foldl (fun p n => join p n.text) p

/-- Segments that name nothing. -/
def blank (s : Str) : Bool := s = [] || s = ['.']

/-- `Path::parent`. -/
def parent? (p : PathBuf) : Option PathBuf :=
  match (segments p).rdropWhile blank with
  | [] => none
  | s :: l => some (unsegments (((s :: l).dropLast).rdropWhile blank))

/-- A file name up to its last dot, unless that dot is its first character. -/
def fileStem (name : Str) : Str :=
  match (name.reverse.dropWhile (· != '.')).tail.reverse with
  | [] => name
  | stem => stem

/-- `Path::with_extension` of a path that ends in a name. -/
def withExtension (p : PathBuf) (extension : Str) : PathBuf :=
  let file := (segments p).getLastD []
  unsegments ((segments p).dropLast ++ [fileStem file ++ '.' :: extension])

theorem nameOf?_text (n : Name) : nameOf? n.text = some n := by
  unfold nameOf?
  rw [dif_pos n.valid]

theorem nameOf?_eq_some {s : Str} {n : Name} : nameOf? s = some n ↔ n.text = s := by
  unfold nameOf?
  constructor
  · intro h
    split at h
    · cases h; rfl
    · cases h
  · rintro rfl
    rw [dif_pos n.valid]

theorem names_join (p : PathBuf) (k : Str) : names (join p k) = names p ++ names k := by
  simp [names, join, segments_join]

@[simp] theorem names_text (n : Name) : names n.text = [n] := by
  rw [names, segments_of_no_slash n.valid.2.2.2.1]
  simp [nameOf?_text]

theorem names_joinNames (p : PathBuf) (ns : List Name) : names (joinNames p ns) = names p ++ ns := by
  induction ns generalizing p with
  | nil => simp [joinNames]
  | cons n ns ih =>
    have h : joinNames p (n :: ns) = joinNames (join p n.text) ns := rfl
    rw [h, ih, names_join]
    simp

theorem asDir_join (p k : Str) : asDir (join p k) = asDir k := by
  unfold asDir join
  rw [segments_join, List.getLast?_append_of_ne_nil _ (segments_ne_nil k)]

/-! ## Names written as text -/

/-- Names joined with `/`. -/
def keyOf (ns : List Name) : Str := unsegments (ns.map Name.text)

theorem segments_keyOf {ns : List Name} (h : ns ≠ []) : segments (keyOf ns) = ns.map Name.text :=
  segments_unsegments (by simpa using fun n _ => n.valid.2.2.2.1) (by simpa using h)

@[simp] theorem names_keyOf (ns : List Name) : names (keyOf ns) = ns := by
  by_cases h : ns = []
  · subst h; rfl
  · rw [names, segments_keyOf h]
    clear h
    induction ns with
    | nil => rfl
    | cons n ns ih => simp [nameOf?_text, ih]

/-- Every segment is a name. -/
def Plain (k : Str) : Prop := ∀ s ∈ segments k, ValidName s

instance (k : Str) : Decidable (Plain k) := by unfold Plain; infer_instance

theorem map_text_names {k : Str} (h : Plain k) : (names k).map Name.text = segments k := by
  unfold names Plain at *
  generalize segments k = l at h
  induction l with
  | nil => rfl
  | cons s l ih =>
    have hs := h s (by simp)
    rw [List.filterMap_cons_some (nameOf?_eq_some (n := ⟨s, hs⟩).mpr rfl), List.map_cons,
      ih fun t ht => h t (by simp [ht])]

/-- Exactly the plain texts are read back. -/
theorem keyOf_names_iff {k : Str} (hk : k ≠ []) : keyOf (names k) = k ↔ Plain k := by
  constructor
  · intro h
    by_cases hn : names k = []
    · exact absurd (by simpa [hn, keyOf, unsegments, List.intercalate] using h.symm) hk
    · have hs := segments_keyOf hn
      rw [h] at hs
      intro s hs'
      rw [hs] at hs'
      obtain ⟨n, -, rfl⟩ := List.mem_map.mp hs'
      exact n.valid
  · intro h
    rw [keyOf, map_text_names h, unsegments_segments]

theorem names_ne_nil_of_plain {k : Str} (h : Plain k) : names k ≠ [] := by
  intro hn
  have := map_text_names h
  rw [hn] at this
  exact segments_ne_nil k this.symm

theorem names_injOn_plain {k l : Str} (hk : Plain k) (hl : Plain l) (h : names k = names l) :
    k = l := by
  rw [← unsegments_segments k, ← unsegments_segments l, ← map_text_names hk, ← map_text_names hl, h]

theorem asDir_of_plain {k : Str} (h : Plain k) : asDir k = false := by
  unfold asDir
  split
  · rename_i s hs
    have := h s (List.mem_of_getLast? hs)
    simp [this.1, this.2.1]
  · rfl

theorem asDir_text (n : Name) : asDir n.text = false := by
  refine asDir_of_plain fun s hs => ?_
  rw [segments_of_no_slash n.valid.2.2.2.1, List.mem_singleton] at hs
  exact hs ▸ n.valid

theorem asDir_joinNames (p : PathBuf) {ns : List Name} (h : ns ≠ []) :
    asDir (joinNames p ns) = false := by
  rw [← List.dropLast_append_getLast h, joinNames, List.foldl_append]
  exact (asDir_join _ _).trans (asDir_text _)

/-! ## Parents -/

theorem nameOf?_of_blank {s : Str} (h : blank s = true) : nameOf? s = none := by
  unfold nameOf?
  rw [dif_neg]
  rintro ⟨h1, h2, -⟩
  simp [blank, h1, h2] at h

theorem filterMap_rdropWhile_blank (l : List Str) :
    (l.rdropWhile blank).filterMap nameOf? = l.filterMap nameOf? := by
  induction l using List.reverseRecOn with
  | nil => rfl
  | append_singleton l s ih =>
    rw [List.rdropWhile_concat]
    split
    · rename_i hs
      rw [ih, List.filterMap_append]
      simp [nameOf?_of_blank hs]
    · rfl

theorem names_of_parent? {p q : PathBuf} (h : parent? p = some q) :
    names q = (((segments p).rdropWhile blank).dropLast).filterMap nameOf? := by
  unfold parent? at h
  split at h
  · cases h
  · rename_i s l hl
    cases h
    rw [← filterMap_rdropWhile_blank, hl]
    by_cases hd : ((s :: l).dropLast).rdropWhile blank = []
    · rw [hd]; rfl
    · rw [names, segments_unsegments ?_ hd]
      intro x hx
      have h1 := (List.rdropWhile_prefix blank ((s :: l).dropLast)).subset hx
      have h2 := List.mem_of_mem_dropLast h1
      rw [← hl] at h2
      exact not_mem_of_mem_segments ((List.rdropWhile_prefix blank _).subset h2)

/-- A parent is on the way. -/
theorem names_parent?_above {p q : PathBuf} (h : parent? p = some q) : names q <+: names p := by
  rw [names_of_parent? h, names, ← filterMap_rdropWhile_blank (segments p)]
  exact (List.dropLast_prefix _).filterMap nameOf?

/-- The parent drops the last name, when what is not blank is a name. -/
theorem names_parent? {p q : PathBuf} (hp : ∀ s ∈ segments p, blank s = true ∨ ValidName s)
    (h : parent? p = some q) : names q = (names p).dropLast := by
  have hne : (segments p).rdropWhile blank ≠ [] := by
    intro he
    rw [parent?, he] at h
    cases h
  have hlast := List.rdropWhile_last_not blank (segments p) hne
  have hv : ValidName (((segments p).rdropWhile blank).getLast hne) := by
    have hmem := (List.rdropWhile_prefix blank (segments p)).subset (List.getLast_mem hne)
    exact (hp _ hmem).resolve_left hlast
  have hp' : names p = ((segments p).rdropWhile blank).filterMap nameOf? := by
    rw [filterMap_rdropWhile_blank]; rfl
  rw [names_of_parent? h, hp']
  conv_rhs => rw [← List.dropLast_append_getLast hne, List.filterMap_append]
  rw [List.filterMap_cons_some (nameOf?_eq_some (n := ⟨_, hv⟩).mpr rfl)]
  simp

end RenderMesh.Core
