import RenderMesh.Core.FileTree

/-!
# File operations with their errors

The calls a program makes on a `FileTree`, as the POSIX calls under Rust's
`std::fs` behave on regular files and directories: each returns its result or
an error kind, and the tree afterwards. `long x` says that the name `x` is too
long for the file system; `asDir` says that the path was written with a
trailing `/` (or `/.`), so that it can only name a directory.

For each call: what a success says about the tree before and after (`_ok`),
what no outcome changes (`_frame`), and when it cannot fail (`_succeeds`).
-/
namespace RenderMesh.Core

/-- `std::io::ErrorKind`, as far as these calls report it. -/
inductive IoErr where
  | notFound
  | notADirectory
  | isADirectory
  | alreadyExists
  | directoryNotEmpty
  | invalidFilename
  | other
  deriving DecidableEq, Repr

namespace FileTree

variable {N B : Type} [DecidableEq N] (long : N → Bool)

/-- Path resolution from the directory `d`, one component at a time. -/
def statFrom (t : FileTree N B) (d : List N) : List N → Except IoErr (Node B)
  | [] =>
    match t.lookup d with
    | some n => .ok n
    | none => .error .notFound
  | x :: r =>
    match t.lookup d with
    | some .dir => if long x then .error .invalidFilename else statFrom t (d ++ [x]) r
    | some (.file _) => .error .notADirectory
    | none => .error .notFound

def stat (t : FileTree N B) (p : List N) : Except IoErr (Node B) := t.statFrom long [] p

/-- A path is resolved by what is at the path and above it. -/
theorem statFrom_congr {t t' : FileTree N B} {d r : List N}
    (h : ∀ s, s <+: r → t.lookup (d ++ s) = t'.lookup (d ++ s)) :
    t.statFrom long d r = t'.statFrom long d r := by
  have hd : t.lookup d = t'.lookup d := by simpa using h [] List.nil_prefix
  induction r generalizing d with
  | nil => simp only [statFrom, hd]
  | cons x r ih =>
    have hx : t.lookup (d ++ [x]) = t'.lookup (d ++ [x]) := h [x] (by simp)
    have hrest := ih (d := d ++ [x]) (fun s hs => by
      simpa using h (x :: s) (List.cons_prefix_cons.mpr ⟨rfl, hs⟩)) hx
    simp only [statFrom, hd, hrest]

theorem stat_congr {t t' : FileTree N B} {p : List N} (h : ∀ s, s <+: p → t.lookup s = t'.lookup s) :
    t.stat long p = t'.stat long p :=
  statFrom_congr long h

theorem statFrom_ok (t : FileTree N B) {d r : List N} {n : Node B}
    (h : t.statFrom long d r = .ok n) : t.lookup (d ++ r) = some n := by
  induction r generalizing d with
  | nil =>
    simp only [statFrom] at h
    split at h
    · rename_i m hm; cases h; simpa using hm
    · cases h
  | cons x r ih =>
    simp only [statFrom] at h
    split at h
    · split at h
      · cases h
      · simpa using ih h
    · cases h
    · cases h

theorem stat_ok {t : FileTree N B} {p : List N} {n : Node B} (h : t.stat long p = .ok n) :
    t.lookup p = some n := by
  simpa using statFrom_ok long t h

theorem statFrom_notFound (t : FileTree N B) {d r : List N}
    (h : t.statFrom long d r = .error .notFound) : t.lookup (d ++ r) = none := by
  induction r generalizing d with
  | nil =>
    simp only [statFrom] at h
    split at h
    · cases h
    · rename_i hd; simpa using hd
  | cons x r ih =>
    simp only [statFrom] at h
    split at h
    · split at h
      · cases h
      · simpa using ih h
    · cases h
    · rename_i hd; exact t.below_none hd

theorem stat_notFound {t : FileTree N B} {p : List N} (h : t.stat long p = .error .notFound) :
    t.lookup p = none := by
  simpa using statFrom_notFound long t h

theorem statFrom_notFound_clear (t : FileTree N B) {d r : List N}
    (h : t.statFrom long d r = .error .notFound) {s : List N} {b : B} (hs : s <+: r) :
    t.lookup (d ++ s) ≠ some (.file b) := by
  induction r generalizing d s with
  | nil =>
    rw [List.prefix_nil.mp hs, statFrom_notFound long t h]
    simp
  | cons x r ih =>
    simp only [statFrom] at h
    split at h
    · rename_i hd
      split at h
      · cases h
      · cases s with
        | nil => simp [hd]
        | cons y s =>
          obtain ⟨rfl, hs'⟩ := List.cons_prefix_cons.mp hs
          simpa using ih h hs'
    · cases h
    · rename_i hd
      rw [t.below_none hd]
      simp

/-- What is reported as absent is not below a regular file. -/
theorem stat_notFound_clear {t : FileTree N B} {p : List N} (h : t.stat long p = .error .notFound)
    {s : List N} {b : B} (hs : s <+: p) : t.lookup s ≠ some (.file b) := by
  simpa using statFrom_notFound_clear long t h hs

theorem statFrom_ok_names (t : FileTree N B) {d r : List N} {n : Node B}
    (h : t.statFrom long d r = .ok n) : ∀ x ∈ r, long x = false := by
  induction r generalizing d with
  | nil => simp
  | cons x r ih =>
    simp only [statFrom] at h
    split at h
    · split at h
      · cases h
      · rename_i hx
        intro y hy
        rcases List.mem_cons.mp hy with rfl | hy
        · simpa using hx
        · exact ih h y hy
    · cases h
    · cases h

theorem stat_ok_names {t : FileTree N B} {p : List N} {n : Node B} (h : t.stat long p = .ok n) :
    ∀ x ∈ p, long x = false := statFrom_ok_names long t h

theorem statFrom_succeeds (t : FileTree N B) {d r : List N} {n : Node B}
    (h : t.lookup (d ++ r) = some n) (hl : ∀ x ∈ r, long x = false) :
    t.statFrom long d r = .ok n := by
  induction r generalizing d with
  | nil => simp only [List.append_nil] at h; simp [statFrom, h]
  | cons x r ih =>
    have hd : t.lookup d = some .dir := t.above_dir (r := x :: r) (by simp) (by simp [h])
    simp only [statFrom, hd, hl x (by simp), Bool.false_eq_true, if_false]
    exact ih (by simpa using h) fun y hy => hl y (by simp [hy])

theorem stat_succeeds {t : FileTree N B} {p : List N} {n : Node B} (h : t.lookup p = some n)
    (hl : ∀ x ∈ p, long x = false) : t.stat long p = .ok n :=
  statFrom_succeeds long t (by simpa using h) hl

/-- A path with nothing there: absent, or it goes through a regular file. -/
theorem statFrom_absent (t : FileTree N B) {d r : List N}
    (h : t.lookup (d ++ r) = none) (hl : ∀ x ∈ r, long x = false) :
    (t.statFrom long d r = .error .notFound ∧ ∀ s b, s <+: r → t.lookup (d ++ s) ≠ some (.file b)) ∨
    (t.statFrom long d r = .error .notADirectory ∧
      ∃ s b, s <+: r ∧ t.lookup (d ++ s) = some (.file b)) := by
  induction r generalizing d with
  | nil =>
    simp only [List.append_nil] at h
    left
    refine ⟨by simp [statFrom, h], ?_⟩
    intro s b hs
    simp [List.prefix_nil.mp hs, h]
  | cons x r ih =>
    cases hd : t.lookup d with
    | none =>
      left
      refine ⟨by simp [statFrom, hd], ?_⟩
      intro s b _
      rw [t.below_none hd]
      simp
    | some n =>
      cases n with
      | file b => exact Or.inr ⟨by simp [statFrom, hd], [], b, List.nil_prefix, by simpa using hd⟩
      | dir =>
        have hx : t.statFrom long d (x :: r) = t.statFrom long (d ++ [x]) r := by
          simp [statFrom, hd, hl x (by simp)]
        rw [hx]
        rcases ih (d := d ++ [x]) (by simpa using h) (fun y hy => hl y (by simp [hy])) with h1 | h1
        · refine Or.inl ⟨h1.1, ?_⟩
          intro s b hs
          cases s with
          | nil => simp [hd]
          | cons y s =>
            obtain ⟨rfl, hs'⟩ := List.cons_prefix_cons.mp hs
            simpa using h1.2 s b hs'
        · obtain ⟨h1, s, b, hs, hb⟩ := h1
          exact Or.inr ⟨h1, x :: s, b, by simpa using hs, by simpa using hb⟩

theorem stat_absent {t : FileTree N B} {p : List N} (h : t.lookup p = none)
    (hl : ∀ x ∈ p, long x = false) :
    (t.stat long p = .error .notFound ∧ ∀ s b, s <+: p → t.lookup s ≠ some (.file b)) ∨
    (t.stat long p = .error .notADirectory ∧ ∃ s b, s <+: p ∧ t.lookup s = some (.file b)) := by
  simpa [stat] using statFrom_absent long t (d := []) (by simpa using h) hl

/-- Path resolution stops on the way to `p`, at a regular file or at a name that is
too long. -/
def Barred (t : FileTree N B) (p : List N) : Prop :=
  ∃ s x, s ++ [x] <+: p ∧
    ((∃ b, t.lookup s = some (.file b)) ∨ t.lookup s = some .dir ∧ long x = true)

theorem statFrom_barred (t : FileTree N B) {d r : List N} :
    (∃ e, e ≠ .notFound ∧ t.statFrom long d r = .error e) ↔
      ∃ s x, s ++ [x] <+: r ∧
        ((∃ b, t.lookup (d ++ s) = some (.file b)) ∨
          t.lookup (d ++ s) = some .dir ∧ long x = true) := by
  induction r generalizing d with
  | nil =>
    constructor
    · intro ⟨e, he, h⟩
      simp only [statFrom] at h
      split at h
      · cases h
      · cases h
        exact absurd rfl he
    · intro ⟨s, x, hs, _⟩
      have := List.prefix_nil.mp hs
      simp at this
  | cons x r ih =>
    cases hd : t.lookup d with
    | none =>
      simp only [statFrom, hd, t.below_none hd]
      simp
    | some n =>
      cases n with
      | file b =>
        refine iff_of_true ⟨.notADirectory, by simp, by simp [statFrom, hd]⟩ ?_
        exact ⟨[], x, by simp, Or.inl ⟨b, by simpa using hd⟩⟩
      | dir =>
        by_cases hx : long x = true
        · refine iff_of_true ⟨.invalidFilename, by simp, by simp [statFrom, hd, hx]⟩ ?_
          exact ⟨[], x, by simp, Or.inr ⟨by simpa using hd, hx⟩⟩
        · simp only [statFrom, hd, hx, if_false, Bool.false_eq_true]
          rw [ih]
          constructor
          · intro ⟨s, y, hs, h⟩
            exact ⟨x :: s, y, by simpa using hs, by simpa using h⟩
          · intro ⟨s, y, hs, h⟩
            cases s with
            | nil =>
              simp only [List.nil_append, List.cons_prefix_cons, List.append_nil, hd] at hs h
              rcases h with ⟨b, hb⟩ | ⟨-, hy⟩
              · cases hb
              · rw [hs.1] at hy
                exact absurd hy hx
            | cons z s =>
              obtain ⟨rfl, hs'⟩ := List.cons_prefix_cons.mp hs
              exact ⟨s, y, hs', by simpa using h⟩

/-- What path resolution finds: an entry, no entry, or no way to one. -/
theorem stat_cases (t : FileTree N B) (p : List N) :
    (∃ n, t.stat long p = .ok n ∧ t.lookup p = some n ∧ ¬ t.Barred long p) ∨
    (t.stat long p = .error .notFound ∧ t.lookup p = none ∧ ¬ t.Barred long p) ∨
    ∃ e, e ≠ .notFound ∧ t.stat long p = .error e ∧ t.Barred long p := by
  have hbar : (∃ e, e ≠ .notFound ∧ t.stat long p = .error e) ↔ t.Barred long p := by
    simpa [Barred, stat] using t.statFrom_barred long (d := []) (r := p)
  cases h : t.stat long p with
  | ok n =>
    rw [h] at hbar
    exact Or.inl ⟨n, rfl, t.stat_ok long h, hbar.not.mp (by simp)⟩
  | error e =>
    by_cases he : e = .notFound
    · subst he
      rw [h] at hbar
      exact Or.inr (Or.inl ⟨rfl, t.stat_notFound long h, hbar.not.mp (by simp)⟩)
    · exact Or.inr (Or.inr ⟨e, he, rfl, hbar.mp ⟨e, he, h⟩⟩)

/-! ## Reading -/

/-- `fs::metadata`: whether the path is a directory. -/
def metadata (t : FileTree N B) (p : List N) (asDir : Bool) : Except IoErr Bool :=
  match t.stat long p with
  | .ok .dir => .ok true
  | .ok (.file _) => if asDir then .error .notADirectory else .ok false
  | .error e => .error e

theorem metadata_ok {t : FileTree N B} {p : List N} {asDir d : Bool}
    (h : t.metadata long p asDir = .ok d) : ∃ n, t.lookup p = some n := by
  unfold metadata at h
  split at h
  · rename_i hd; exact ⟨_, stat_ok long hd⟩
  · rename_i hb; exact ⟨_, stat_ok long hb⟩
  · cases h

/-- `fs::read`. -/
def readFile (t : FileTree N B) (p : List N) (asDir : Bool) : Except IoErr B :=
  match t.stat long p with
  | .ok .dir => .error .isADirectory
  | .ok (.file b) => if asDir then .error .notADirectory else .ok b
  | .error e => .error e

theorem readFile_ok {t : FileTree N B} {p : List N} {asDir : Bool} {b : B}
    (h : t.readFile long p asDir = .ok b) : t.lookup p = some (.file b) ∧ asDir = false := by
  unfold readFile at h
  split at h
  · cases h
  · rename_i b' hb
    split at h
    · cases h
    · cases h; exact ⟨stat_ok long hb, by simpa using ‹¬asDir = true›⟩
  · cases h

theorem readFile_succeeds {t : FileTree N B} {p : List N} {b : B}
    (h : t.lookup p = some (.file b)) (hl : ∀ x ∈ p, long x = false) :
    t.readFile long p false = .ok b := by
  simp [readFile, stat_succeeds long h hl]

theorem metadata_dir_iff (t : FileTree N B) (p : List N) (asDir : Bool) :
    t.metadata long p asDir = .ok true ↔ t.lookup p = some .dir ∧ ¬ t.Barred long p := by
  unfold metadata
  rcases t.stat_cases long p with ⟨n, hs, hl, hb⟩ | ⟨hs, hl, -⟩ | ⟨e, -, hs, hb⟩
  · rw [hs, hl]
    cases n with
    | dir => simp [hb]
    | file b => cases asDir <;> simp
  · rw [hs, hl]
    simp
  · rw [hs]
    simp [hb]

/-- `fs::read` fails, and not because nothing is there. -/
def Unreadable (t : FileTree N B) (p : List N) (asDir : Bool) : Prop :=
  t.Barred long p ∨ t.lookup p = some .dir ∨ asDir = true ∧ ∃ b, t.lookup p = some (.file b)

/-- What `fs::read` finds. -/
theorem readFile_cases (t : FileTree N B) (p : List N) (asDir : Bool) :
    (∃ b, t.readFile long p asDir = .ok b ∧ t.lookup p = some (.file b) ∧
      ¬ t.Unreadable long p asDir) ∨
    (t.readFile long p asDir = .error .notFound ∧ t.lookup p = none ∧
      ¬ t.Unreadable long p asDir) ∨
    ∃ e, e ≠ .notFound ∧ t.readFile long p asDir = .error e ∧ t.Unreadable long p asDir := by
  unfold readFile Unreadable
  rcases t.stat_cases long p with ⟨n, hs, hl, hb⟩ | ⟨hs, hl, hb⟩ | ⟨e, he, hs, hb⟩
  · rw [hs, hl]
    cases n with
    | dir => exact Or.inr (Or.inr ⟨.isADirectory, by simp, rfl, Or.inr (Or.inl rfl)⟩)
    | file b =>
      cases asDir with
      | true =>
        exact Or.inr (Or.inr ⟨.notADirectory, by simp, rfl, Or.inr (Or.inr ⟨rfl, b, rfl⟩)⟩)
      | false => exact Or.inl ⟨b, rfl, rfl, by simp [hb]⟩
  · rw [hs, hl]
    exact Or.inr (Or.inl ⟨rfl, rfl, by simp [hb]⟩)
  · rw [hs]
    exact Or.inr (Or.inr ⟨e, he, rfl, Or.inl hb⟩)

/-- A file that is read, or found absent, is not unreadable. -/
theorem not_unreadable {t : FileTree N B} {p : List N} {asDir : Bool}
    (h : (∃ b, t.readFile long p asDir = .ok b) ∨ t.readFile long p asDir = .error .notFound) :
    ¬ t.Unreadable long p asDir := by
  rcases t.readFile_cases long p asDir with ⟨b, -, -, hu⟩ | ⟨-, -, hu⟩ | ⟨e, he, hr, -⟩
  · exact hu
  · exact hu
  · rcases h with ⟨b, h⟩ | h
    · rw [hr] at h
      cases h
    · rw [hr] at h
      cases h
      exact absurd rfl he

/-! ## Writing -/

/-- `fs::write`: create or truncate, below an existing directory. -/
def writeFile (t : FileTree N B) (p : List N) (asDir : Bool) (b : B) :
    Except IoErr Unit × FileTree N B :=
  match t.stat long p.dropLast with
  | .error e => (.error e, t)
  | .ok (.file _) => (.error .notADirectory, t)
  | .ok .dir =>
    if p.getLast?.any long then (.error .invalidFilename, t)
    else match t.lookup p with
      | some .dir => (.error .isADirectory, t)
      | some (.file _) =>
        if asDir then (.error .notADirectory, t) else (.ok (), t.insert p (.file b))
      | none =>
        if asDir then (.error .isADirectory, t) else (.ok (), t.insert p (.file b))

theorem writeFile_error {t t' : FileTree N B} {p : List N} {asDir : Bool} {b : B} {e : IoErr}
    (h : t.writeFile long p asDir b = (.error e, t')) : t' = t := by
  unfold writeFile at h
  repeat' split at h
  all_goals first | (cases h; rfl) | cases h

theorem writeFile_ok {t t' : FileTree N B} {p : List N} {asDir : Bool} {b : B}
    (h : t.writeFile long p asDir b = (.ok (), t')) :
    asDir = false ∧ t.lookup p.dropLast = some .dir ∧ t.lookup p ≠ some .dir ∧
      ∀ q, t'.lookup q = if q = p then some (.file b) else t.lookup q := by
  unfold writeFile at h
  split at h
  · cases h
  · cases h
  · rename_i hs
    have hpar := stat_ok long hs
    split at h
    · cases h
    · have key : ∀ (hne : t.lookup p ≠ some .dir), asDir = false → t' = t.insert p (.file b) →
          asDir = false ∧ t.lookup p.dropLast = some .dir ∧ t.lookup p ≠ some .dir ∧
          ∀ q, t'.lookup q = if q = p then some (.file b) else t.lookup q := by
        rintro hne ha rfl
        exact ⟨ha, hpar, hne, fun q => lookup_insert t p _ hpar hne q⟩
      split at h
      · cases h
      · rename_i c hc
        split at h
        · cases h
        · exact key (by simp [hc]) (by simpa using ‹¬asDir = true›) (by cases h; rfl)
      · rename_i hc
        split at h
        · cases h
        · exact key (by simp [hc]) (by simpa using ‹¬asDir = true›) (by cases h; rfl)

theorem writeFile_frame (t : FileTree N B) (p : List N) (asDir : Bool) (b : B) {q : List N}
    (hq : q ≠ p) : (t.writeFile long p asDir b).2.lookup q = t.lookup q := by
  unfold writeFile
  repeat' split
  all_goals first | rfl | exact lookup_insert_of_ne t p _ hq

theorem writeFile_succeeds {t : FileTree N B} {p : List N} {b : B}
    (hpar : t.lookup p.dropLast = some .dir) (hp : t.lookup p ≠ some .dir)
    (hl : ∀ x ∈ p, long x = false) :
    t.writeFile long p false b = (.ok (), t.insert p (.file b)) := by
  have hs := stat_succeeds long hpar fun x hx => hl x (List.mem_of_mem_dropLast hx)
  have hlast : p.getLast?.any long = false := by
    cases hg : p.getLast? with
    | none => rfl
    | some x => simpa using hl x (List.mem_of_getLast? hg)
  unfold writeFile
  simp only [hs, hlast, Bool.false_eq_true, if_false]
  split
  · exact absurd ‹_› hp
  · rfl
  · rfl

/-- `fs::copy` of a regular file. -/
def copyFile (t : FileTree N B) (a b : List N) : Except IoErr Unit × FileTree N B :=
  match t.readFile long a false with
  | .error e => (.error e, t)
  | .ok body => t.writeFile long b false body

theorem copyFile_ok {t t' : FileTree N B} {a b : List N}
    (h : t.copyFile long a b = (.ok (), t')) :
    ∃ body, t.lookup a = some (.file body) ∧
      ∀ q, t'.lookup q = if q = b then some (.file body) else t.lookup q := by
  unfold copyFile at h
  split at h
  · cases h
  · rename_i body hb
    exact ⟨body, (readFile_ok long hb).1, (writeFile_ok long h).2.2.2⟩

theorem copyFile_frame (t : FileTree N B) (a b : List N) {q : List N} (hq : q ≠ b) :
    (t.copyFile long a b).2.lookup q = t.lookup q := by
  unfold copyFile
  split
  · rfl
  · exact writeFile_frame long t b false _ hq

/-! ## Directories -/

/-- `fs::create_dir_all` of `d ++ r`, with `d` there already. -/
def mkdirs (t : FileTree N B) (d : List N) : List N → Except IoErr Unit × FileTree N B
  | [] => (.ok (), t)
  | x :: r =>
    if long x then (.error .invalidFilename, t)
    else match t.lookup (d ++ [x]) with
      | some .dir => mkdirs t (d ++ [x]) r
      | some (.file _) => (.error (if r = [] then .alreadyExists else .notADirectory), t)
      | none => mkdirs (t.insert (d ++ [x]) .dir) (d ++ [x]) r

/-- `fs::create_dir_all`. -/
def createDirAll (t : FileTree N B) (p : List N) : Except IoErr Unit × FileTree N B :=
  t.mkdirs long [] p

theorem mkdirs_grows (r : List N) : ∀ (t : FileTree N B) (d : List N),
    t.lookup d = some .dir → ∀ q, (t.mkdirs long d r).2.lookup q = t.lookup q ∨
      (d <+: q ∧ q <+: d ++ r ∧ t.lookup q = none ∧
        (t.mkdirs long d r).2.lookup q = some .dir) := by
  induction r with
  | nil => intro t d _ q; exact Or.inl rfl
  | cons x r ih =>
    intro t d hd q
    simp only [mkdirs]
    split
    · exact Or.inl rfl
    · split
      · rename_i hx
        rcases ih t (d ++ [x]) hx q with h | ⟨h1, h2, h3, h4⟩
        · exact Or.inl h
        · exact Or.inr ⟨(List.prefix_append _ _).trans h1, by simpa using h2, h3, h4⟩
      · exact Or.inl rfl
      · rename_i hx
        have hins := lookup_insert t (d ++ [x]) .dir (by simpa using hd) (by simp [hx])
        rcases ih (t.insert (d ++ [x]) .dir) (d ++ [x]) (by simp [hins]) q with h | ⟨h1, h2, h3, h4⟩
        · rw [h, hins]
          split
          · rename_i hq
            subst hq
            exact Or.inr ⟨List.prefix_append _ _, by simp, hx, rfl⟩
          · exact Or.inl rfl
        · refine Or.inr ⟨(List.prefix_append _ _).trans h1, by simpa using h2, ?_, h4⟩
          rw [hins] at h3
          split at h3
          · cases h3
          · exact h3

/-- Whatever happens, `create_dir_all` only adds directories, on the path itself. -/
theorem createDirAll_grows (t : FileTree N B) (p q : List N) :
    (t.createDirAll long p).2.lookup q = t.lookup q ∨
      (q <+: p ∧ t.lookup q = none ∧ (t.createDirAll long p).2.lookup q = some .dir) := by
  rcases mkdirs_grows long p t [] rfl q with h | ⟨-, h2, h3, h4⟩
  · exact Or.inl h
  · exact Or.inr ⟨by simpa using h2, h3, h4⟩

theorem createDirAll_frame (t : FileTree N B) {p q : List N} (hq : ¬ q <+: p) :
    (t.createDirAll long p).2.lookup q = t.lookup q := by
  rcases createDirAll_grows long t p q with h | ⟨h, -⟩
  · exact h
  · exact absurd h hq

theorem mkdirs_ok (r : List N) : ∀ (t t' : FileTree N B) (d : List N),
    t.lookup d = some .dir → t.mkdirs long d r = (.ok (), t') → t'.lookup (d ++ r) = some .dir := by
  induction r with
  | nil => intro t t' d hd h; cases h; simpa using hd
  | cons x r ih =>
    intro t t' d hd h
    simp only [mkdirs] at h
    split at h
    · cases h
    · split at h
      · rename_i hx; simpa using ih t t' (d ++ [x]) hx h
      · cases h
      · rename_i hx
        have hins := lookup_insert t (d ++ [x]) .dir (by simpa using hd) (by simp [hx])
        simpa using ih _ t' (d ++ [x]) (by simp [hins]) h

theorem createDirAll_ok {t t' : FileTree N B} {p : List N}
    (h : t.createDirAll long p = (.ok (), t')) : t'.lookup p = some .dir := by
  simpa using mkdirs_ok long p t t' [] rfl h

theorem mkdirs_succeeds (r : List N) : ∀ (t : FileTree N B) (d : List N),
    t.lookup d = some .dir → (∀ x ∈ r, long x = false) →
    (∀ s b, s <+: r → t.lookup (d ++ s) ≠ some (.file b)) → (t.mkdirs long d r).1 = .ok () := by
  induction r with
  | nil => intro t d _ _ _; rfl
  | cons x r ih =>
    intro t d hd hl hf
    simp only [mkdirs, hl x (by simp), Bool.false_eq_true, if_false]
    have hl' : ∀ y ∈ r, long y = false := fun y hy => hl y (by simp [hy])
    split
    · rename_i hx
      refine ih t (d ++ [x]) hx hl' fun s b hs => ?_
      simpa using hf (x :: s) b (by simpa using hs)
    · rename_i b hx
      exact absurd hx (by simpa using hf [x] b (by simp))
    · rename_i hx
      have hins := lookup_insert t (d ++ [x]) .dir (by simpa using hd) (by simp [hx])
      refine ih _ (d ++ [x]) (by simp [hins]) hl' fun s b hs => ?_
      rw [hins]
      split
      · simp
      · simpa using hf (x :: s) b (by simpa using hs)

theorem createDirAll_succeeds {t : FileTree N B} {p : List N} (hl : ∀ x ∈ p, long x = false)
    (hf : ∀ s b, s <+: p → t.lookup s ≠ some (.file b)) : (t.createDirAll long p).1 = .ok () :=
  mkdirs_succeeds long p t [] rfl hl fun s b hs => by simpa using hf s b hs

/-! ## Removing and renaming -/

/-- `fs::remove_file`. -/
def removeFile (t : FileTree N B) (p : List N) : Except IoErr Unit × FileTree N B :=
  match t.stat long p with
  | .ok (.file _) => (.ok (), t.prune p)
  | .ok .dir => (.error .isADirectory, t)
  | .error e => (.error e, t)

/-- `fs::remove_dir_all`. -/
def removeDirAll (t : FileTree N B) (p : List N) : Except IoErr Unit × FileTree N B :=
  match t.stat long p with
  | .ok .dir => (.ok (), t.prune p)
  | .ok (.file _) => (.error .notADirectory, t)
  | .error e => (.error e, t)

theorem removeFile_ok {t t' : FileTree N B} {p : List N}
    (h : t.removeFile long p = (.ok (), t')) :
    (∃ b, t.lookup p = some (.file b)) ∧
      ∀ q, t'.lookup q = if q = p then none else t.lookup q := by
  unfold removeFile at h
  split at h
  · rename_i b hb
    have hp := stat_ok long hb
    have hp0 : p ≠ [] := by rintro rfl; simp at hp
    cases h
    refine ⟨⟨b, hp⟩, fun q => ?_⟩
    rw [lookup_prune t hp0]
    by_cases hq : q = p
    · simp [hq]
    · rw [if_neg hq]
      split
      · rename_i hpq
        obtain ⟨r, rfl⟩ := hpq
        exact (t.below_file (by simpa using hq) hp).symm
      · rfl
  · cases h
  · cases h

theorem removeFile_error {t t' : FileTree N B} {p : List N} {e : IoErr}
    (h : t.removeFile long p = (.error e, t')) : t' = t := by
  unfold removeFile at h
  repeat' split at h
  all_goals first | (cases h; rfl) | cases h

theorem removeFile_frame (t : FileTree N B) {p q : List N} (hq : q ≠ p) :
    (t.removeFile long p).2.lookup q = t.lookup q := by
  cases h : (t.removeFile long p).1 with
  | ok u =>
    have hok : t.removeFile long p = (.ok (), (t.removeFile long p).2) := Prod.ext h rfl
    rw [(removeFile_ok long hok).2 q, if_neg hq]
  | error e =>
    unfold removeFile at h ⊢
    split at h
    · cases h
    · rfl
    · rfl

theorem removeFile_succeeds {t : FileTree N B} {p : List N} {b : B}
    (hp : t.lookup p = some (.file b)) (hl : ∀ x ∈ p, long x = false) :
    t.removeFile long p = (.ok (), t.prune p) := by
  simp [removeFile, stat_succeeds long hp hl]

theorem removeDirAll_ok {t t' : FileTree N B} {p : List N} (hp : p ≠ [])
    (h : t.removeDirAll long p = (.ok (), t')) :
    t.lookup p = some .dir ∧ ∀ q, t'.lookup q = if p <+: q then none else t.lookup q := by
  unfold removeDirAll at h
  split at h
  · rename_i hd
    cases h
    exact ⟨stat_ok long hd, lookup_prune t hp⟩
  · cases h
  · cases h

theorem removeDirAll_frame (t : FileTree N B) {p q : List N} (hq : ¬ p <+: q) :
    (t.removeDirAll long p).2.lookup q = t.lookup q := by
  unfold removeDirAll
  repeat' split
  all_goals first | rfl | exact lookup_prune_of_not_prefix t hq

theorem removeDirAll_error {t t' : FileTree N B} {p : List N} {e : IoErr}
    (h : t.removeDirAll long p = (.error e, t')) : t' = t := by
  unfold removeDirAll at h
  repeat' split at h
  all_goals first | (cases h; rfl) | cases h

theorem removeDirAll_notFound {t : FileTree N B} {p : List N}
    (h : (t.removeDirAll long p).1 = .error .notFound) : t.lookup p = none := by
  unfold removeDirAll at h
  split at h
  · cases h
  · cases h
  · rename_i e he
    have he' : e = .notFound := by simpa using h
    exact stat_notFound long (he' ▸ he)

/-- `fs::rename`: a directory replaces nothing or an empty directory, a file
replaces nothing or a file. -/
def rename (t : FileTree N B) (a b : List N) : Except IoErr Unit × FileTree N B :=
  match t.stat long a, t.stat long b.dropLast with
  | .error e, _ => (.error e, t)
  | .ok _, .error e => (.error e, t)
  | .ok _, .ok (.file _) => (.error .notADirectory, t)
  | .ok n, .ok .dir =>
    if b.getLast?.any long then (.error .invalidFilename, t)
    else if a = [] ∨ b = [] ∨ a <+: b then (.error .other, t)
    else match n, t.lookup b with
      | .dir, some (.file _) => (.error .notADirectory, t)
      | .dir, some .dir =>
        if t.names b = [] then (.ok (), t.move a b) else (.error .directoryNotEmpty, t)
      | .file _, some .dir => (.error .isADirectory, t)
      | _, _ => (.ok (), t.move a b)

theorem rename_ok {t t' : FileTree N B} {a b : List N} (h : t.rename long a b = (.ok (), t')) :
    (t.lookup a).isSome ∧ (∀ r, r ≠ [] → t.lookup (b ++ r) = none) ∧
      ∀ q, t'.lookup q = if b <+: q then t.lookup (a ++ q.drop b.length)
        else if a <+: q then none else t.lookup q := by
  unfold rename at h
  split at h
  · cases h
  · cases h
  · cases h
  · rename_i n hn hd
    have ha := stat_ok long hn
    have hpar := stat_ok long hd
    split at h
    · cases h
    · split at h
      · cases h
      · rename_i hne
        simp only [not_or] at hne
        have hmv := lookup_move t hne.1 hne.2.1 hne.2.2 hpar
        split at h
        · cases h
        · split at h
          · rename_i hempty
            cases h
            refine ⟨by simp [ha], fun r hr => ?_, hmv⟩
            obtain ⟨x, r, rfl⟩ := List.exists_cons_of_ne_nil hr
            have hx : t.lookup (b ++ [x]) = none := by
              by_contra hc
              have := (t.mem_names b x).mpr (Option.isSome_iff_ne_none.mpr hc)
              simp [hempty] at this
            simpa using t.below_none (r := r) hx
          · cases h
        · cases h
        · rename_i n _ _ h1 h2 h3
          cases h
          refine ⟨by simp [ha], fun r hr => ?_, hmv⟩
          cases hb : t.lookup b with
          | none => exact t.below_none hb
          | some m =>
            cases m with
            | file c => exact t.below_file hr hb
            | dir =>
              cases n with
              | dir => exact absurd hb (h2 rfl)
              | file c => exact absurd hb (h3 c rfl)

theorem rename_error {t t' : FileTree N B} {a b : List N} {e : IoErr}
    (h : t.rename long a b = (.error e, t')) : t' = t := by
  unfold rename at h
  repeat' split at h
  all_goals first | (cases h; rfl) | cases h

theorem rename_frame (t : FileTree N B) {a b q : List N} (ha : ¬ a <+: q) (hb : ¬ b <+: q) :
    (t.rename long a b).2.lookup q = t.lookup q := by
  cases h : (t.rename long a b).1 with
  | ok u =>
    have hok : t.rename long a b = (.ok (), (t.rename long a b).2) := Prod.ext h rfl
    rw [(rename_ok long hok).2.2 q, if_neg hb, if_neg ha]
  | error e =>
    have herr : t.rename long a b = (.error e, (t.rename long a b).2) := Prod.ext h rfl
    rw [rename_error long herr]

theorem rename_ok_names {t t' : FileTree N B} {a b : List N}
    (h : t.rename long a b = (.ok (), t')) :
    (∀ x ∈ a, long x = false) ∧ ∀ x ∈ b, long x = false := by
  unfold rename at h
  split at h
  · cases h
  · cases h
  · cases h
  · rename_i n hn hd
    split at h
    · cases h
    · rename_i hlast
      refine ⟨stat_ok_names long hn, fun x hx => ?_⟩
      by_cases hb : b = []
      · subst hb; cases hx
      · rw [← List.dropLast_append_getLast hb, List.mem_append, List.mem_singleton] at hx
        rcases hx with hx | rfl
        · exact stat_ok_names long hd x hx
        · simpa [List.getLast?_eq_getLast_of_ne_nil hb] using hlast

/-- Anything renamed to a free name below an existing directory. -/
theorem rename_succeeds {t : FileTree N B} {a b : List N} {n : Node B} (ha : t.lookup a = some n)
    (hb : t.lookup b = none) (hpar : t.lookup b.dropLast = some .dir) (ha0 : a ≠ [])
    (hab : ¬ a <+: b) (hla : ∀ x ∈ a, long x = false) (hlb : ∀ x ∈ b, long x = false) :
    t.rename long a b = (.ok (), t.move a b) := by
  have hb0 : b ≠ [] := by rintro rfl; simp at hb
  have hlast : b.getLast?.any long = false := by
    cases hg : b.getLast? with
    | none => rfl
    | some x => simpa using hlb x (List.mem_of_getLast? hg)
  have h1 := stat_succeeds long ha hla
  have h2 := stat_succeeds long hpar fun x hx => hlb x (List.mem_of_mem_dropLast hx)
  simp [rename, h1, h2, hlast, ha0, hb0, hab, hb]

end FileTree

end RenderMesh.Core
