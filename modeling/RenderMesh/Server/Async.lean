import RenderMesh.Server.World

/-!
# Asynchronous code

`Async` is code of the server as a program over `Op`. Here are the ways it makes
a file-system call and what it does with the error (`?`, `with_context`, a
match on `NotFound`), each with what a call that returned says about the file
system before and after (`_ok`) and when it returns (`_succeeds`).
-/
namespace RenderMesh.Server

open RenderMesh.Core

/-- Asynchronous code of the server. -/
abbrev Async := Prog Op Op.Res Error

/-- `Display` of an `io::Error` on Linux. -/
def ioText : IoErr → Str
  | .notFound => "No such file or directory (os error 2)".toList
  | .notADirectory => "Not a directory (os error 20)".toList
  | .isADirectory => "Is a directory (os error 21)".toList
  | .alreadyExists => "File exists (os error 17)".toList
  | .directoryNotEmpty => "Directory not empty (os error 39)".toList
  | .invalidFilename => "File name too long (os error 36)".toList
  | .other => "Input/output error (os error 5)".toList

def ioError (e : IoErr) : Error := anyhow (ioText e)

/-- One step of the server. -/
def call (o : Op) : Async o.Res := Prog.perform o

/-- A file-system call and its result. -/
def io (o : FsOp) : Async (Except IoErr o.Val) := call (.fs o)

/-- `call.await?`. -/
def ioTry (o : FsOp) : Async o.Val := do
  let r ← io o
  match r with
  | .ok v => pure v
  | .error e => .fail (ioError e)

/-- `call.await.with_context(..)?`. -/
def ioContext (o : FsOp) (context : Str) : Async o.Val :=
  (ioTry o).mapErr (·.context context)

/-- A call whose `NotFound` is no error. -/
def ioUnlessNotFound (o : FsOp) (context : Str) : Async Unit := do
  let r ← io o
  match r with
  | .ok _ => pure ()
  | .error .notFound => pure ()
  | .error e => .fail ((ioError e).context context)

/-- `let Some(parent) = path.parent()` and what is done with it. -/
def withParent (p : PathBuf) (f : PathBuf → Async Unit) : Async Unit :=
  match parent? p with
  | some parent => f parent
  | none => pure ()

/-- `if c { t }`. -/
def onlyIf (c : Bool) (t : Async Unit) : Async Unit := if c then t else pure ()

/-- What is at `r` below the directory `p`. -/
def World.under (w : World) (p : PathBuf) (r : List Name) : Option (Node Bytes) :=
  w.fs.lookup (names p ++ r)

/-! ## Calls that code makes -/

section uses
variable {P : Op → Prop} {o : FsOp}

theorem uses_call {o : Op} (h : P o) : (call o).Uses P := (Prog.uses_perform P o).mpr h

theorem uses_io (h : P (.fs o)) : (io o).Uses P := uses_call h

theorem uses_ioTry (h : P (.fs o)) : (ioTry o).Uses P := by
  refine Prog.uses_bind (uses_io h) fun r => ?_
  cases r <;> trivial

theorem uses_ioContext (h : P (.fs o)) (context : Str) : (ioContext o context).Uses P :=
  Prog.uses_mapErr (uses_ioTry h)

theorem uses_ioUnlessNotFound (h : P (.fs o)) (context : Str) :
    (ioUnlessNotFound o context).Uses P := by
  refine Prog.uses_bind (uses_io h) fun r => ?_
  cases r with
  | ok v => trivial
  | error e => cases e <;> trivial

theorem uses_withParent {p : PathBuf} {f : PathBuf → Async Unit}
    (h : ∀ parent, parent? p = some parent → (f parent).Uses P) : (withParent p f).Uses P := by
  unfold withParent
  cases hp : parent? p with
  | none => trivial
  | some parent => exact h parent hp

end uses

/-! ## Calls that returned -/

section
variable {deps : Deps} {env : Env}

/-- The world after a file-system call on a healthy disk. -/
def World.did (w : World) (env : Env) (o : FsOp) : World :=
  { w.tick with fs := (o.exec env.long w.fs).2 }

theorem io_ok {o : FsOp} {r : Except IoErr o.Val} {w w' : World}
    (h : run (step deps env) (io o) w = (.ok r, w')) :
    (env.fault w.clock o = .none ∧ r = (o.exec env.long w.fs).1 ∧ w' = w.did env o) ∨
    ∃ left, env.fault w.clock o = .fail left ∧ r = .error .other ∧
      w' = { w.tick with fs := o.debris env.long left w.fs } := by
  rw [io, call, run_perform] at h
  cases hf : env.fault w.clock o with
  | none =>
    simp only [step, FsOp.step, hf, Prod.mk.injEq, Outcome.ok.injEq] at h
    exact Or.inl ⟨rfl, h.1.symm, h.2.symm⟩
  | fail left =>
    simp only [step, FsOp.step, hf, Prod.mk.injEq, Outcome.ok.injEq] at h
    exact Or.inr ⟨left, rfl, h.1.symm, h.2.symm⟩
  | drop ran left => cases ran <;> simp [step, FsOp.step, hf] at h

theorem io_run {o : FsOp} {w : World} (h : env.fault w.clock o = .none) :
    run (step deps env) (io o) w = (.ok (o.exec env.long w.fs).1, w.did env o) := by
  rw [io, call, run_perform]
  simp [step, FsOp.step, h, World.did]

/-- A step that is always answered. -/
theorem call_bind_ends {T : Op → World → Prop} {o : Op} {r : o.Res} {w w1 : World} {α : Type}
    {f : o.Res → Async α} {Q : Outcome Error α → World → Prop}
    (ho : step deps env o w = (some r, w1)) (h : Ends (step deps env) T Q (f r) w1) :
    Ends (step deps env) T Q (call o >>= f) w := by
  refine Ends.bind fun _ => ?_
  rw [ho]
  exact h

theorem io_ends {T : Op → World → Prop} {o : FsOp}
    {Q : Outcome Error (Except IoErr o.Val) → World → Prop} {w : World}
    (h : ¬ T (.fs o) w → match env.fault w.clock o with
      | .none => Q (.ok (o.exec env.long w.fs).1) (w.did env o)
      | .fail left => Q (.ok (.error .other)) { w.tick with fs := o.debris env.long left w.fs }
      | .drop true _ => Q .dropped (w.did env o)
      | .drop false left => Q .dropped { w.tick with fs := o.debris env.long left w.fs }) :
    Ends (step deps env) T Q (io o) w := by
  intro ht
  have := h ht
  revert this
  simp only [step, FsOp.step]
  cases env.fault w.clock o with
  | none => exact fun hq => hq
  | fail left => exact fun hq => hq
  | drop ran left => cases ran <;> exact fun hq => hq

theorem ioContext_ends {T : Op → World → Prop} {o : FsOp} {context : Str}
    {Q : Outcome Error o.Val → World → Prop} {w : World}
    (h : ¬ T (.fs o) w → match env.fault w.clock o with
      | .none => match (o.exec env.long w.fs).1 with
        | .ok v => Q (.ok v) (w.did env o)
        | .error _ => ∀ e, Q (.err e) (w.did env o)
      | .fail left => ∀ e, Q (.err e) { w.tick with fs := o.debris env.long left w.fs }
      | .drop true _ => Q .dropped (w.did env o)
      | .drop false left => Q .dropped { w.tick with fs := o.debris env.long left w.fs }) :
    Ends (step deps env) T Q (ioContext o context) w := by
  refine Ends.mapErr (Ends.bind (io_ends fun ht => ?_))
  have := h ht
  revert this
  cases env.fault w.clock o with
  | none =>
    cases (o.exec env.long w.fs).1 with
    | ok v => exact fun hq => hq
    | error e => exact fun hq => hq _
  | fail left => exact fun hq => hq _
  | drop ran left => cases ran <;> exact fun hq => hq

theorem ioTry_ok {o : FsOp} {v : o.Val} {w w' : World}
    (h : run (step deps env) (ioTry o) w = (.ok v, w')) :
    env.fault w.clock o = .none ∧ (o.exec env.long w.fs).1 = .ok v ∧ w' = w.did env o := by
  obtain ⟨r, w1, h1, h2⟩ := run_bind_ok _ |>.mp h
  cases r with
  | error e => cases h2
  | ok u =>
    simp only [run_pure, Prod.mk.injEq, Outcome.ok.injEq] at h2
    obtain ⟨rfl, rfl⟩ := h2
    rcases io_ok h1 with ⟨hf, hr, hw⟩ | ⟨left, -, hr, -⟩
    · exact ⟨hf, hr.symm, hw⟩
    · cases hr

theorem ioContext_ok {o : FsOp} {context : Str} {v : o.Val} {w w' : World}
    (h : run (step deps env) (ioContext o context) w = (.ok v, w')) :
    env.fault w.clock o = .none ∧ (o.exec env.long w.fs).1 = .ok v ∧ w' = w.did env o :=
  ioTry_ok (run_mapErr_ok _ |>.mp h)

theorem ioUnlessNotFound_ok {o : FsOp} {context : Str} {w w' : World}
    (h : run (step deps env) (ioUnlessNotFound o context) w = (.ok (), w')) :
    env.fault w.clock o = .none ∧
      ((∃ v, (o.exec env.long w.fs).1 = .ok v) ∨ (o.exec env.long w.fs).1 = .error .notFound) ∧
      w' = w.did env o := by
  obtain ⟨r, w1, h1, h2⟩ := run_bind_ok _ |>.mp h
  rcases io_ok h1 with ⟨hf, hr, hw⟩ | ⟨left, -, hr, -⟩
  · refine ⟨hf, ?_, ?_⟩
    · rw [← hr]
      cases r with
      | ok v => exact Or.inl ⟨v, rfl⟩
      | error e => cases e <;> first | exact Or.inr rfl | cases h2
    · cases r with
      | ok v => cases h2; exact hw
      | error e => cases e <;> first | (cases h2; exact hw) | cases h2
  · subst hr
    cases h2

theorem ioTry_run {o : FsOp} {v : o.Val} {w : World} (h : env.fault w.clock o = .none)
    (hv : (o.exec env.long w.fs).1 = .ok v) :
    run (step deps env) (ioTry o) w = (.ok v, w.did env o) := by
  rw [ioTry, run_bind, io_run h, hv]
  rfl

theorem ioContext_run {o : FsOp} {context : Str} {v : o.Val} {w : World}
    (h : env.fault w.clock o = .none) (hv : (o.exec env.long w.fs).1 = .ok v) :
    run (step deps env) (ioContext o context) w = (.ok v, w.did env o) :=
  run_mapErr_ok _ |>.mpr (ioTry_run h hv)

theorem ioUnlessNotFound_run {o : FsOp} {context : Str} {w : World}
    (h : env.fault w.clock o = .none)
    (hv : (∃ v, (o.exec env.long w.fs).1 = .ok v) ∨ (o.exec env.long w.fs).1 = .error .notFound) :
    run (step deps env) (ioUnlessNotFound o context) w = (.ok (), w.did env o) := by
  rw [ioUnlessNotFound, run_bind, io_run h]
  rcases hv with ⟨v, hv⟩ | hv
  · rw [hv]; rfl
  · rw [hv]; rfl

/-! ## What a call did -/

theorem did_frame {o : FsOp} {w : World} {q : List Name} (hq : ¬ o.Writes q) :
    (w.did env o).fs.lookup q = w.fs.lookup q := o.exec_frame env.long w.fs hq

theorem did_stores (o : FsOp) (w : World) : SameStores w (w.did env o) :=
  ⟨rfl, rfl, rfl, rfl, rfl, rfl⟩

theorem rename_did {a b : PathBuf} {w : World}
    (h : ((FsOp.rename a b).exec env.long w.fs).1 = .ok ()) (q : List Name) :
    (w.did env (.rename a b)).fs.lookup q =
      if names b <+: q then w.fs.lookup (names a ++ q.drop (names b).length)
      else if names a <+: q then none else w.fs.lookup q :=
  (w.fs.rename_ok env.long (Prod.ext h rfl)).2.2 q

theorem removeFile_did {p : PathBuf} {w : World}
    (h : ((FsOp.removeFile p).exec env.long w.fs).1 = .ok ()) (q : List Name) :
    (w.did env (.removeFile p)).fs.lookup q = if q = names p then none else w.fs.lookup q :=
  (w.fs.removeFile_ok env.long (Prod.ext h rfl)).2 q

/-- However it ends, `remove_file` at most takes the file away. -/
theorem removeFile_did_or (p : PathBuf) (w : World) (q : List Name) :
    (w.did env (.removeFile p)).fs.lookup q = w.fs.lookup q ∨
      q = names p ∧ (w.did env (.removeFile p)).fs.lookup q = none := by
  by_cases hq : q = names p
  · cases h : ((FsOp.removeFile p).exec env.long w.fs).1 with
    | ok u => exact Or.inr ⟨hq, by rw [removeFile_did h, if_pos hq]⟩
    | error e =>
      have := w.fs.removeFile_error env.long (p := names p) (Prod.ext h rfl)
      exact Or.inl (by rw [World.did]; exact congrArg (·.lookup q) this)
  · exact Or.inl (did_frame hq)

/-- A directory is not removed as a file. -/
theorem removeFile_did_dir {p : PathBuf} {w : World} {q : List Name}
    (hq : w.fs.lookup q = some .dir) : (w.did env (.removeFile p)).fs.lookup q = some .dir := by
  cases h : ((FsOp.removeFile p).exec env.long w.fs).1 with
  | error e =>
    rw [World.did, show ((FsOp.removeFile p).exec env.long w.fs).2 = w.fs from
      w.fs.removeFile_error env.long (p := names p) (Prod.ext h rfl)]
    exact hq
  | ok u =>
    obtain ⟨⟨b, hfile⟩, -⟩ := w.fs.removeFile_ok env.long (p := names p) (Prod.ext h rfl)
    rw [removeFile_did h, if_neg]
    · exact hq
    · rintro rfl
      exact absurd (hq.symm.trans hfile) (by simp)

/-- The operations that look, or remove one file. -/
def Op.Removes : Op → Prop
  | .fs (.removeFile _) => True
  | o => o.Reads

theorem step_removes {o : Op} (ho : o.Removes) (w : World) (q : List Name) :
    (step deps env o w).2.fs.lookup q = w.fs.lookup q ∨
      (step deps env o w).2.fs.lookup q = none := by
  cases o with
  | fs o =>
    cases o with
    | removeFile p =>
      have hdid := (@removeFile_did_or env p w q).imp_right And.right
      simp only [step, FsOp.step]
      cases env.fault w.clock (.removeFile p) with
      | none => exact hdid
      | fail left => exact Or.inl rfl
      | drop ran left =>
        cases ran with
        | true => exact hdid
        | false => exact Or.inl rfl
    | _ => exact Or.inl (FsOp.step_frame env.long _ w.fs _ (ho q))
  | _ => exact Or.inl rfl

/-- Code that only removes files leaves every path as it was or bare, however it ends. -/
theorem run_removes {α : Type} {m : Async α} (hm : m.Uses Op.Removes) (w : World) (q : List Name) :
    (run (step deps env) m w).2.fs.lookup q = w.fs.lookup q ∨
      (run (step deps env) m w).2.fs.lookup q = none := by
  refine keeps_of_uses (step deps env) (P := Op.Removes)
    (I := fun w' => w'.fs.lookup q = w.fs.lookup q ∨ w'.fs.lookup q = none) ?_ hm w (Or.inl rfl)
  intro o ho w' hw'
  rcases @step_removes deps env o ho w' q with h | h
  · rw [h]
    exact hw'
  · exact Or.inr h

theorem step_removes_dir {o : Op} (ho : o.Removes) {w : World} {q : List Name}
    (hq : w.fs.lookup q = some .dir) : (step deps env o w).2.fs.lookup q = some .dir := by
  cases o with
  | fs o =>
    cases o with
    | removeFile p =>
      have hdid := @removeFile_did_dir env p w q hq
      simp only [step, FsOp.step]
      cases env.fault w.clock (.removeFile p) with
      | none => exact hdid
      | fail left => exact hq
      | drop ran left =>
        cases ran with
        | true => exact hdid
        | false => exact hq
    | _ => exact (FsOp.step_frame env.long _ w.fs _ (ho q)).trans hq
  | _ => exact hq

/-- Code that only removes files keeps the directories. -/
theorem run_removes_dir {α : Type} {m : Async α} (hm : m.Uses Op.Removes) {w : World} {q : List Name}
    (hq : w.fs.lookup q = some .dir) : (run (step deps env) m w).2.fs.lookup q = some .dir :=
  keeps_of_uses (step deps env) (I := fun w' => w'.fs.lookup q = some .dir)
    (fun _ ho _ hw => step_removes_dir ho hw) hm w hq

theorem createDirAll_did {p : PathBuf} {w : World}
    (h : ((FsOp.createDirAll p).exec env.long w.fs).1 = .ok ()) :
    (w.did env (.createDirAll p)).fs.lookup (names p) = some .dir :=
  w.fs.createDirAll_ok env.long (Prod.ext h rfl)

/-- However it ends, `create_dir_all` at most adds directories on the way. -/
theorem createDirAll_did_or (p : PathBuf) (w : World) (q : List Name) :
    (w.did env (.createDirAll p)).fs.lookup q = w.fs.lookup q ∨
      q <+: names p ∧ w.fs.lookup q = none ∧
        (w.did env (.createDirAll p)).fs.lookup q = some .dir :=
  w.fs.createDirAll_grows env.long (names p) q

theorem write_did {p : PathBuf} {body : Bytes} {w : World}
    (h : ((FsOp.write p body).exec env.long w.fs).1 = .ok ()) (q : List Name) :
    (w.did env (.write p body)).fs.lookup q =
      if q = names p then some (.file body) else w.fs.lookup q :=
  (w.fs.writeFile_ok env.long (Prod.ext h rfl)).2.2.2 q

theorem copy_did {a b : PathBuf} {w : World}
    (h : ((FsOp.copy a b).exec env.long w.fs).1 = .ok ()) :
    ∃ body, w.fs.lookup (names a) = some (.file body) ∧
      ∀ q, (w.did env (.copy a b)).fs.lookup q =
        if q = names b then some (.file body) else w.fs.lookup q :=
  w.fs.copyFile_ok env.long (Prod.ext h rfl)

theorem readDir_ok {p : PathBuf} {w : World}
    (h : ((FsOp.readDir p).exec env.long w.fs).1 = .ok ()) :
    w.fs.lookup (names p) = some .dir := by
  simp only [FsOp.exec] at h
  split at h
  · rename_i hd; exact w.fs.stat_ok env.long hd
  · cases h
  · cases h

theorem readDir_notFound {p : PathBuf} {w : World}
    (h : ((FsOp.readDir p).exec env.long w.fs).1 = .error .notFound) :
    w.fs.lookup (names p) = none := by
  simp only [FsOp.exec] at h
  split at h
  · cases h
  · cases h
  · rename_i e he
    cases h
    exact w.fs.stat_notFound env.long he

end

end RenderMesh.Server
