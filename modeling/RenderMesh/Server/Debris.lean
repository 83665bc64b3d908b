import RenderMesh.Server.Async

/-!
# What a call can leave

A call that fails or is dropped may have done a part of its work (`Debris`). Path by path, that
part is of one kind with the whole: `step_effect` says what any call but a rename can have done,
however it ends, and `rename_step` what a rename can.
-/
namespace RenderMesh.Server

open RenderMesh.Core

/-- The paths at which a call puts a file. -/
def Fills : FsOp → List Name → Prop
  | .copy _ b, q => q = names b
  | .write p _, q => q = names p
  | _, _ => False

/-- The paths at which a call makes directories. -/
def Makes : FsOp → List Name → Prop
  | .createDirAll p, q => q <+: names p
  | _, _ => False

/-- What a call other than a rename can have done at `q`. -/
inductive Effect (o : FsOp) (t t' : Tree) (q : List Name) : Prop
  | same (h : t'.lookup q = t.lookup q)
  | gone (h : t'.lookup q = none)
  | made (hq : Makes o q) (h : t'.lookup q = some .dir)
  | filled (hq : Fills o q) (b : Bytes) (h : t'.lookup q = some (.file b))

section
variable (long : Name → Bool)

theorem prune_effect (t : Tree) (p q : List Name) :
    (t.prune p).lookup q = t.lookup q ∨ (t.prune p).lookup q = none := by
  by_cases hp : p = []
  · rw [hp]
    exact Or.inl rfl
  · rw [t.lookup_prune hp]
    split
    · exact Or.inr rfl
    · exact Or.inl rfl

theorem prune_all_effect (p : List Name) (l : List (List Name)) (q : List Name) (t : Tree) :
    (l.foldl (fun t r => t.prune (p ++ r)) t).lookup q = t.lookup q ∨
      (l.foldl (fun t r => t.prune (p ++ r)) t).lookup q = none := by
  induction l generalizing t with
  | nil => exact Or.inl rfl
  | cons r l ih =>
    rw [List.foldl_cons]
    rcases ih (t.prune (p ++ r)) with h | h
    · rw [h]
      exact prune_effect t _ q
    · exact Or.inr h

theorem writeFile_effect (t : Tree) (p : List Name) (asDir : Bool) (body : Bytes) (q : List Name) :
    (t.writeFile long p asDir body).2.lookup q = t.lookup q ∨
      q = p ∧ ∃ b, (t.writeFile long p asDir body).2.lookup q = some (.file b) := by
  cases h : (t.writeFile long p asDir body).1 with
  | ok u =>
    obtain ⟨-, -, -, hat⟩ := t.writeFile_ok long (Prod.ext h rfl)
    rw [hat]
    split
    · rename_i hq
      exact Or.inr ⟨hq, body, rfl⟩
    · exact Or.inl rfl
  | error e =>
    have hsame : (t.writeFile long p asDir body).2 = t := by
      unfold FileTree.writeFile at h ⊢
      repeat' split at h
      all_goals simp_all
    rw [hsame]
    exact Or.inl rfl

theorem effect_of_write {o : FsOp} {p : PathBuf} (ho : Fills o (names p)) (t : Tree) (asDir : Bool)
    (body : Bytes) (q : List Name) : Effect o t (t.writeFile long (names p) asDir body).2 q := by
  rcases writeFile_effect long t (names p) asDir body q with h | ⟨rfl, b, h⟩
  · exact .same h
  · exact .filled ho b h

theorem removeDirAll_effect (t : Tree) (p q : List Name) :
    (t.removeDirAll long p).2.lookup q = t.lookup q ∨ (t.removeDirAll long p).2.lookup q = none := by
  unfold FileTree.removeDirAll
  split
  · exact prune_effect t p q
  · exact Or.inl rfl
  · exact Or.inl rfl

theorem exec_effect (t : Tree) {o : FsOp} (ho : ∀ a b, o ≠ .rename a b) (q : List Name) :
    Effect o t (o.exec long t).2 q := by
  cases o with
  | metadata p => exact .same rfl
  | readDir p => exact .same rfl
  | visit p => exact .same rfl
  | read p => exact .same rfl
  | rename a b => exact absurd rfl (ho a b)
  | createDirAll p =>
    rcases t.createDirAll_grows long (names p) q with h | ⟨hq, -, h⟩
    · exact .same h
    · exact .made hq h
  | copy a b =>
    show Effect _ t (t.copyFile long (names a) (names b)).2 q
    unfold FileTree.copyFile
    split
    · exact .same rfl
    · exact effect_of_write long (o := .copy a b) (p := b) rfl t _ _ q
  | write p body => exact effect_of_write long (o := .write p body) (p := p) rfl t _ _ q
  | removeFile p =>
    show Effect _ t (t.removeFile long (names p)).2 q
    cases h : (t.removeFile long (names p)).1 with
    | ok u =>
      obtain ⟨-, hat⟩ := t.removeFile_ok long (Prod.ext h rfl)
      by_cases hq : q = names p
      · exact .gone (by rw [hat, if_pos hq])
      · exact .same (by rw [hat, if_neg hq])
    | error e =>
      exact .same (congrArg (·.lookup q) (t.removeFile_error long (p := names p) (Prod.ext h rfl)))
  | removeDirAll p => exact (removeDirAll_effect long t (names p) q).elim .same .gone

theorem debris_effect (left : Debris) (t : Tree) {o : FsOp} (q : List Name) :
    Effect o t (o.debris long left t) q := by
  cases o with
  | createDirAll p =>
    rcases t.createDirAll_grows long ((names p).take left.made) q with h | ⟨hq, -, h⟩
    · exact .same h
    · exact .made (hq.trans (List.take_prefix _ _)) h
  | copy a b =>
    simp only [FsOp.debris]
    split
    · exact effect_of_write long (o := .copy a b) (p := b) rfl t _ _ q
    · exact .same rfl
  | write p _ =>
    simp only [FsOp.debris]
    split
    · exact effect_of_write long (o := .write p _) (p := p) rfl t _ _ q
    · exact .same rfl
  | removeDirAll p =>
    simp only [FsOp.debris]
    split
    · exact (prune_all_effect (names p) left.removed q t).elim .same .gone
    · exact .same rfl
  | _ => exact .same rfl

theorem step_effect (fault : Fault) (t : Tree) {o : FsOp} (ho : ∀ a b, o ≠ .rename a b)
    (q : List Name) : Effect o t (o.step long fault t).2 q := by
  unfold FsOp.step
  split
  · exact exec_effect long t ho q
  · exact debris_effect long _ t q
  · exact exec_effect long t ho q
  · exact debris_effect long _ t q

theorem step_removeDirAll (fault : Fault) (t : Tree) (p : PathBuf) (q : List Name) :
    (FsOp.step long fault t (.removeDirAll p)).2.lookup q = t.lookup q ∨
      (FsOp.step long fault t (.removeDirAll p)).2.lookup q = none := by
  rcases step_effect long fault t (o := .removeDirAll p) (by simp) q with h | h | ⟨hq, -⟩ | ⟨hq, -⟩
  · exact Or.inl h
  · exact Or.inr h
  · exact hq.elim
  · exact hq.elim

/-- What a rename did, if anything. -/
theorem rename_step (fault : Fault) (t : Tree) (a b : PathBuf) :
    (FsOp.step long fault t (.rename a b)).2 = t ∨
      ∀ q, (FsOp.step long fault t (.rename a b)).2.lookup q =
        if names b <+: q then t.lookup (names a ++ q.drop (names b).length)
        else if names a <+: q then none else t.lookup q := by
  have hexec : (t.rename long (names a) (names b)).2 = t ∨
      ∀ q, (t.rename long (names a) (names b)).2.lookup q =
        if names b <+: q then t.lookup (names a ++ q.drop (names b).length)
        else if names a <+: q then none else t.lookup q := by
    cases h : (t.rename long (names a) (names b)).1 with
    | ok u => exact Or.inr (t.rename_ok long (Prod.ext h rfl)).2.2
    | error e => exact Or.inl (t.rename_error long (Prod.ext h rfl))
  unfold FsOp.step
  split
  · exact hexec
  · exact Or.inl rfl
  · exact hexec
  · exact Or.inl rfl

end

end RenderMesh.Server
