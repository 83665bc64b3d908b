import RenderMesh.Refresh.Isolation

/-!
# The swap

`swap_origin_dir` renames the old mirror to a backup, renames the staging
directory to the mirror, and removes the backup; when the second rename fails it
renames the backup back.

* `swapOriginDir_ok`: a swap that returned has put the staged tree in place.
* `tearsMirror`: the steps of a swap at which a stop leaves the origin between
  two generations. `swapOriginDir_ends`: without such a step, a swap that does not
  return leaves the mirror as it was.
-/
namespace RenderMesh.Refresh

open RenderMesh.Core RenderMesh.Mirror RenderMesh.Server

theorem fileStem_of_no_dot {s : Str} (h : '.' ∉ s) : fileStem s = s := by
  have hd : s.reverse.dropWhile (· != '.') = [] := by
    rw [List.dropWhile_eq_nil_iff]
    intro c hc
    have : c ≠ '.' := by rintro rfl; exact h (by simpa using hc)
    simpa using this
  unfold fileStem
  rw [hd]
  rfl

section
variable {id : Str} (hid : validateOriginId id = .ok ())
include hid

theorem backupPath_text (now : Nat) :
    backupPath id now = id ++ '.' :: ("rendermesh-backup-".toList ++ showNat now) := by
  have hv := origin_validName hid
  have hdot : '.' ∉ id := origin_no_char hid (by decide)
  simp [backupPath, withExtension, segments_of_no_slash hv.2.2.2.1, fileStem_of_no_dot hdot]

theorem backupPath_valid (now : Nat) : ValidName (backupPath id now) := by
  have hv := origin_validName hid
  have hdot : '.' ∉ id := origin_no_char hid (by decide)
  have htext := backupPath_text hid now
  have hrest : ∀ c ∈ "rendermesh-backup-".toList ++ showNat now, c ≠ '/' ∧ c ≠ '\x00' := by
    intro c hc
    rcases List.mem_append.mp hc with hc | hc
    · have hall : ("rendermesh-backup-".toList.all fun c => c != '/' && c != '\x00') = true := by
        decide
      simpa using List.all_eq_true.mp hall c hc
    · have := Nat.isDigit_of_mem_toDigits (b := 10) (by omega) (by omega) hc
      constructor <;> (rintro rfl; revert this; decide)
  have hno : ∀ d, (d = '/' ∨ d = '\x00') → d ∉ backupPath id now := by
    intro d hd hm
    rw [htext, List.mem_append, List.mem_cons] at hm
    rcases hm with hm | rfl | hm
    · rcases hd with rfl | rfl
      · exact hv.2.2.2.1 hm
      · exact hv.2.2.2.2 hm
    · revert hd; decide
    · have := hrest d hm
      rcases hd with rfl | rfl
      · exact this.1 rfl
      · exact this.2 rfl
  obtain ⟨c, r, hr⟩ := List.exists_cons_of_ne_nil hv.1
  have hc : c ≠ '.' := by rintro rfl; exact hdot (by simp [hr])
  refine ⟨?_, ?_, ?_, hno _ (Or.inl rfl), hno _ (Or.inr rfl)⟩
  · rw [htext, hr]; simp
  · rw [htext, hr]; simp [hc]
  · rw [htext, hr]; simp [hc]

theorem names_backupPath_eq (now : Nat) :
    names (backupPath id now) = [⟨_, backupPath_valid hid now⟩] :=
  names_text ⟨_, backupPath_valid hid now⟩

theorem names_backupPath (now : Nat) :
    ∃ n : Name, names (backupPath id now) = [n] ∧ '.' ∈ n.text ∧ n.text.head? = id.head? := by
  obtain ⟨c, r, hr⟩ := List.exists_cons_of_ne_nil (origin_ne_nil hid)
  refine ⟨_, names_backupPath_eq hid now, ?_, ?_⟩
  · simp [backupPath_text hid]
  · show (backupPath id now).head? = _
    rw [backupPath_text hid, hr]
    rfl

/-- Origins, backups and the staging area are three different places. -/
theorem origin_not_prefix_staging {q : List Name} (hq : [syncName] <+: q) : ¬ names id <+: q := by
  rw [names_origin hid]
  intro h
  obtain ⟨r, rfl⟩ := hq
  have := (List.cons_prefix_cons.mp h).1
  have hdot : '.' ∉ id := origin_no_char hid (by decide)
  rw [Name.mk.injEq] at this
  exact hdot (this ▸ by decide)

theorem staging_not_prefix_origin {q : List Name} (hq : names id <+: q) : ¬ [syncName] <+: q :=
  fun h => origin_not_prefix_staging hid h hq

theorem not_below_backup {now : Nat} {q : List Name} (hq : names id <+: q ∨ [syncName] <+: q) :
    ¬ names (backupPath id now) <+: q := by
  obtain ⟨n, hn, hdot, hhead⟩ := names_backupPath hid now
  rw [hn]
  intro h
  have hdotid : '.' ∉ id := origin_no_char hid (by decide)
  rcases hq with hq | hq
  · rw [names_origin hid] at hq
    obtain ⟨r, rfl⟩ := hq
    have := (List.cons_prefix_cons.mp h).1
    rw [this] at hdot
    exact hdotid hdot
  · obtain ⟨r, rfl⟩ := hq
    have := (List.cons_prefix_cons.mp h).1
    rw [this] at hhead
    obtain ⟨c, t, ht⟩ := List.exists_cons_of_ne_nil (origin_ne_nil hid)
    rw [ht] at hhead hdotid
    have hc : c = '.' := by
      have : some '.' = some c := hhead
      simpa using this.symm
    exact hdotid (by simp [hc])

theorem origin_not_prefix_backup {now : Nat} {q : List Name} (hq : names (backupPath id now) <+: q) :
    ¬ names id <+: q := fun h => not_below_backup hid (Or.inl h) hq

theorem backupPath_ne (now : Nat) : backupPath id now ≠ id := by
  intro h
  exact not_below_backup hid (q := names id) (Or.inl List.prefix_rfl)
    (by rw [h])

theorem backup_not_inStaging (now : Nat) : ¬ InStaging (backupPath id now) :=
  fun h => not_below_backup hid (Or.inr h) List.prefix_rfl

theorem parent?_origin : parent? id = some storeRoot := by
  have hv := origin_validName hid
  have hb : ¬ blank id = true := by simp [blank, hv.1, hv.2.1]
  have hr : [id].rdropWhile blank = [id] := by simp [List.rdropWhile_singleton, hb]
  unfold parent?
  rw [segments_of_no_slash hv.2.2.2.1, hr]
  rfl

end

/-! ## A swap that returned -/

theorem onlyIf_ok {h : Handler Op Op.Res World} {c : Bool} {t : Async Unit} {w w' : World}
    (hr : run h (onlyIf c t) w = (.ok (), w')) :
    (c = true ∧ run h t w = (.ok (), w')) ∨ (c = false ∧ w' = w) := by
  unfold onlyIf at hr
  cases c with
  | true => exact Or.inl ⟨rfl, hr⟩
  | false => simp only [Bool.false_eq_true, if_false, run_pure, Prod.mk.injEq, true_and] at hr
             exact Or.inr ⟨rfl, hr.symm⟩

variable {deps : Deps} {env : Env}

theorem swapOriginDir_ok {id : Str} (hid : validateOriginId id = .ok ()) {staging : PathBuf}
    (hs : InStaging staging) {w w' : World}
    (h : run (step deps env) (swapOriginDir deps id staging) w = (.ok (), w')) :
    (∀ r, w'.fs.lookup (names id ++ r) = w.fs.lookup (names staging ++ r)) ∧
      SameStores w w' := by
  rw [swapOriginDir, withParent, parent?_origin hid] at h
  obtain ⟨_, w1, h1, h⟩ := run_bind_ok _ |>.mp h
  obtain ⟨-, -, hw1⟩ := ioContext_ok h1
  have hfs1 : w1.fs = w.fs := by rw [hw1]; rfl
  have hst1 : SameStores w w1 := by rw [hw1]; exact did_stores _ _
  obtain ⟨now, w2, h2, h⟩ := run_bind_ok _ |>.mp h
  have hw2 : w2 = w1.tick := by cases h2; rfl
  obtain ⟨r3, w3, h3, h⟩ := run_bind_ok _ |>.mp h
  have hfs3 : w3.fs = w1.fs ∧ SameStores w1 w3 := by
    subst hw2
    rcases io_ok h3 with ⟨-, -, rfl⟩ | ⟨left, -, -, rfl⟩ <;>
      exact ⟨rfl, rfl, rfl, rfl, rfl, rfl, rfl⟩
  obtain ⟨_, w4, h4, h⟩ := run_bind_ok _ |>.mp h
  -- the old mirror is moved away, or there was none
  have hfs4 : (∀ r, w4.fs.lookup (names staging ++ r) = w.fs.lookup (names staging ++ r)) ∧
      SameStores w3 w4 := by
    rcases onlyIf_ok h4 with ⟨-, h4⟩ | ⟨-, rfl⟩
    · obtain ⟨-, hren, rfl⟩ := ioContext_ok h4
      refine ⟨fun r => ?_, did_stores _ _⟩
      have hst : [syncName] <+: names staging ++ r := hs.trans (List.prefix_append _ _)
      rw [rename_did hren, if_neg (not_below_backup hid (Or.inr hst)),
        if_neg (origin_not_prefix_staging hid hst), hfs3.1, hfs1]
    · exact ⟨fun r => by rw [hfs3.1, hfs1], SameStores.refl _⟩
  obtain ⟨r5, w5, h5, h⟩ := run_bind_ok _ |>.mp h
  cases r5 with
  | error e =>
    obtain ⟨_, w6, -, h⟩ := run_bind_ok _ |>.mp h
    cases h
  | ok u =>
    rcases io_ok h5 with ⟨-, hren, rfl⟩ | ⟨left, -, hr, -⟩
    · obtain ⟨-, -, rfl⟩ := ioUnlessNotFound_ok h
      refine ⟨fun r => ?_, ?_⟩
      · have hback : ¬ (FsOp.removeDirAll (backupPath id now)).Writes (names id ++ r) :=
          not_below_backup hid (Or.inl (List.prefix_append _ _))
        rw [did_frame hback, rename_did hren.symm, if_pos (List.prefix_append _ _), List.drop_left,
          hfs4.1]
      · exact ((hst1.trans hfs3.2).trans hfs4.2).trans
          ((did_stores _ _).trans (did_stores _ _))
    · cases hr

/-! ## A swap that stopped -/

/-- Nothing at or below the mirror of `id` has changed. -/
def SameMirror (id : Str) (w w' : World) : Prop :=
  ∀ q, names id <+: q → w'.fs.lookup q = w.fs.lookup q

instance (p : PathBuf) : Decidable (InStaging p) := by unfold InStaging; infer_instance

/-- The steps at which a stop leaves a mirror between two generations: the
future is dropped once the old mirror has been renamed away, or while the new
one is renamed into place (unless there was no mirror and the rename did not
run), the old mirror cannot be renamed back, or its backup cannot be removed. -/
def tearsMirror (env : Env) (originDir : PathBuf) (hadMirror : Bool) : Op → World → Bool
  | .fs (.rename a b), w =>
    match env.fault w.clock (.rename a b) with
    | .none => false
    | .fail _ => b = originDir && !decide (InStaging a)
    | .drop ran _ =>
      if b ≠ originDir then a = originDir && ran
      else if InStaging a then ran || hadMirror
      else !ran
  | .fs (.removeDirAll p), w =>
    !decide (InStaging p) &&
      match env.fault w.clock (.removeDirAll p) with
      | .none =>
        match ((FsOp.removeDirAll p).exec env.long w.fs).1 with
        | .ok _ => false
        | .error e => e ≠ .notFound
      | _ => true
  | _, _ => false

/-- The future is dropped while the CDN is asked for a purge. -/
def dropsPurge (env : Env) : Op → World → Bool
  | .purge request, w => env.purge w.clock request = .dropped
  | _, _ => false

/-- The steps at which a stop leaves an origin between two generations: of its
mirror, or of the mirror and what the caller was told. -/
def tears (env : Env) (originDir : PathBuf) (hadMirror : Bool) (o : Op) (w : World) : Bool :=
  tearsMirror env originDir hadMirror o w || dropsPurge env o w

section
variable {id : Str} (hid : validateOriginId id = .ok ()) {staging : PathBuf}
  (hs : InStaging staging) {T : Op → World → Prop} {w : World}
  (hT : ∀ o w', tearsMirror env id (w.fs.lookup (names id)).isSome o w' = true → T o w')
include hid hs hT

/-- The last two steps: the new mirror in, or the old one back. `w` is the world
before the swap, `w4` the one with the old mirror moved away if there was one. -/
theorem swapOriginDir_tail_ends {w4 : World} {now : Nat} (hadOrigin : Bool)
    (haway : hadOrigin = true →
      (∀ r, w4.fs.lookup (names (backupPath id now) ++ r) = w.fs.lookup (names id ++ r)) ∧
      w4.fs.lookup (names id) = none ∧ (w.fs.lookup (names id)).isSome ∧
      (∀ x ∈ names id, env.long x = false) ∧ ∀ x ∈ names (backupPath id now), env.long x = false)
    (hstay : hadOrigin = false → SameMirror id w w4) :
    Ends (step deps env) T
      (fun out w' => (∀ u, out ≠ .ok u) → SameMirror id w w')
      (do
        let r ← io (.rename staging id)
        match r with
        | .error error => do
          onlyIf hadOrigin <|
            ioContext (.rename (backupPath id now) id)
              ("restore old mirror ".toList ++ deps.display id)
          .fail ((ioError error).context ("activate mirror ".toList ++ deps.display id))
        | .ok _ => removeDirIfExists deps (backupPath id now)) w4 := by
  have hback := names_backupPath hid now
  obtain ⟨nb, hnb, -, -⟩ := hback
  -- the restore, from any world with the file system of `w4`
  have restore : ∀ (w5 : World) (error : IoErr), w5.fs = w4.fs →
      Ends (step deps env) T
        (fun (out : Outcome Error Unit) w' => (∀ u, out ≠ .ok u) → SameMirror id w w')
        (do
          onlyIf hadOrigin <|
            ioContext (.rename (backupPath id now) id)
              ("restore old mirror ".toList ++ deps.display id)
          .fail ((ioError error).context ("activate mirror ".toList ++ deps.display id))) w5 := by
    intro w5 error hw5
    cases hadOrigin with
    | false =>
      refine Ends.bind ?_
      intro _ q hq
      rw [hw5]
      exact hstay rfl q hq
    | true =>
      obtain ⟨h1, h2, h3, h4, h5⟩ := haway rfl
      have hbackup : w5.fs.lookup (names (backupPath id now)) = w.fs.lookup (names id) := by
        simpa [hw5] using h1 []
      obtain ⟨n, hn⟩ := Option.isSome_iff_exists.mp h3
      have hexec : ((FsOp.rename (backupPath id now) id).exec env.long w5.fs) =
          (.ok (), w5.fs.move (names (backupPath id now)) (names id)) := by
        refine w5.fs.rename_succeeds env.long (n := n) (by rw [hbackup, hn]) (by rw [hw5, h2])
          ?_ (by rw [hnb]; simp) (not_below_backup hid (Or.inl List.prefix_rfl)) h5 h4
        rw [names_origin hid]
        rfl
      have hrestored : SameMirror id w (w5.did env (.rename (backupPath id now) id)) := by
        rintro q ⟨r, rfl⟩
        rw [rename_did (by rw [hexec]), if_pos (List.prefix_append _ _), List.drop_left, hw5, h1]
      refine Ends.bind (ioContext_ends fun ht => ?_)
      have hne : ¬ InStaging (backupPath id now) := backup_not_inStaging hid now
      cases hf : env.fault w5.clock (.rename (backupPath id now) id) with
      | none => rw [hexec]; exact fun _ => hrestored
      | fail left => exact absurd (hT _ _ (by simp [tearsMirror, hf, hne])) ht
      | drop ran left =>
        cases ran with
        | true => exact fun _ => hrestored
        | false => exact absurd (hT _ _ (by simp [tearsMirror, hf, hne])) ht
  refine Ends.bind (io_ends fun ht => ?_)
  cases hf : env.fault w4.clock (.rename staging id) with
  | none =>
    have herr : ∀ e, ((FsOp.rename staging id).exec env.long w4.fs).1 = .error e →
        (w4.did env (.rename staging id)).fs = w4.fs := fun e he =>
      w4.fs.rename_error env.long (a := names staging) (b := names id) (Prod.ext he rfl)
    cases hr : ((FsOp.rename staging id).exec env.long w4.fs).1 with
    | error e => exact restore _ e (herr e hr)
    | ok u =>
      refine Ends.bind (io_ends fun ht' => ?_)
      have hne := backup_not_inStaging hid now
      generalize w4.did env (.rename staging id) = w5 at ht'
      cases hf' : env.fault w5.clock (.removeDirAll (backupPath id now)) with
      | fail left => exact absurd (hT _ _ (by simp [tearsMirror, hf', hne])) ht'
      | drop ran left => exact absurd (hT _ _ (by simp [tearsMirror, hf', hne])) ht'
      | none =>
        cases hr' : ((FsOp.removeDirAll (backupPath id now)).exec env.long w5.fs).1 with
        | ok u => exact fun hu => absurd rfl (hu ())
        | error e =>
          have he : e = .notFound := by
            by_contra hne'
            exact ht' (hT _ _ (by simp [tearsMirror, hf', hne, hr', hne']))
          subst he
          exact fun hu => absurd rfl (hu ())
  | fail left => exact restore _ _ rfl
  | drop ran left =>
    cases ran with
    | true => exact absurd (hT _ _ (by simp [tearsMirror, hf, hs])) ht
    | false =>
      intro _
      cases hadOrigin with
      | true => exact absurd (hT _ _ (by simp [tearsMirror, hf, hs, (haway rfl).2.2.1])) ht
      | false => exact hstay rfl

theorem swapOriginDir_ends :
    Ends (step deps env) T
      (fun out w' => (∀ u, out ≠ .ok u) → SameMirror id w w')
      (swapOriginDir deps id staging) w := by
  rw [swapOriginDir, withParent, parent?_origin hid]
  have hroot : ∀ q, names id <+: q → ¬ q <+: names storeRoot := by
    intro q hq h
    have h0 : names storeRoot = [] := rfl
    rw [h0, List.prefix_nil] at h
    rw [h, names_origin hid] at hq
    simp at hq
  -- making the store directory, reading the clock and probing the mirror change nothing
  refine Ends.bind (ioContext_ends fun _ => ?_)
  have hmk : ∀ left, SameMirror id w
      { w.tick with fs := (FsOp.createDirAll storeRoot).debris env.long left w.fs } :=
    fun left q hq => FsOp.debris_frame env.long left w.fs _ (hroot q hq)
  have hmk' : SameMirror id w (w.did env (.createDirAll storeRoot)) :=
    fun q hq => did_frame (hroot q hq)
  cases env.fault w.clock (.createDirAll storeRoot) with
  | fail left => exact fun _ _ => hmk left
  | drop ran left => cases ran; exacts [fun _ => hmk left, fun _ => hmk']
  | none =>
    have hexec : ((FsOp.createDirAll storeRoot).exec env.long w.fs).1 = .ok () := rfl
    rw [hexec]
    generalize hw1 : w.did env (.createDirAll storeRoot) = w1
    rw [hw1] at hmk'
    have hfs1 : w1.fs = w.fs := by rw [← hw1]; rfl
    refine call_bind_ends rfl ?_
    refine Ends.bind (io_ends fun _ => ?_)
    cases env.fault w1.tick.clock (.metadata id) with
    | drop ran left => cases ran; exacts [fun _ => hmk', fun _ => hmk']
    | fail left =>
      -- the probe failed: the code takes the mirror to be absent
      exact swapOriginDir_tail_ends hid hs hT false (by simp) fun _ => hmk'
    | none =>
      cases hm : ((FsOp.metadata id).exec env.long w1.tick.fs).1 with
      | error e =>
        exact swapOriginDir_tail_ends hid hs hT false (by simp) fun _ => hmk'
      | ok d =>
        generalize hw2 : w1.tick.did env (.metadata id) = w2
        have hfs2 : w2.fs = w.fs := by rw [← hw2, ← hfs1]; rfl
        have hthere : (w.fs.lookup (names id)).isSome := by
          obtain ⟨n, hn⟩ := w1.fs.metadata_ok env.long hm
          rw [← hfs1, hn]
          rfl
        have hsame2 : SameMirror id w w2 := fun q _ => by rw [hfs2]
        refine Ends.bind (m := ioContext (.rename id (backupPath id (env.nanos w1.clock))) _)
          (ioContext_ends fun ht => ?_)
        cases hf : env.fault w2.clock (.rename id (backupPath id (env.nanos w1.clock))) with
        | fail left => exact fun _ _ => hsame2
        | drop ran left =>
          cases ran with
          | true => exact absurd (hT _ _ (by simp [tearsMirror, hf, backupPath_ne hid])) ht
          | false => exact fun _ => hsame2
        | none =>
          cases hr : ((FsOp.rename id (backupPath id (env.nanos w1.clock))).exec env.long w2.fs).1 with
          | error e =>
            have hfs3 : (w2.did env (.rename id (backupPath id (env.nanos w1.clock)))).fs = w2.fs :=
              w2.fs.rename_error env.long (a := names id) (b := names (backupPath id (env.nanos w1.clock)))
                (Prod.ext hr rfl)
            exact fun _ _ q _ => by rw [hfs3, hfs2]
          | ok u =>
            have hnames := w2.fs.rename_ok_names env.long (a := names id)
              (b := names (backupPath id (env.nanos w1.clock))) (Prod.ext hr rfl)
            refine swapOriginDir_tail_ends hid hs hT true (fun _ => ?_) (by simp)
            refine ⟨fun r => ?_, ?_, hthere, hnames.1, hnames.2⟩
            · rw [rename_did hr, if_pos (List.prefix_append _ _), List.drop_left, hfs2]
            · rw [rename_did hr, if_neg (not_below_backup hid (Or.inl List.prefix_rfl)),
                if_pos List.prefix_rfl]

end

end RenderMesh.Refresh
