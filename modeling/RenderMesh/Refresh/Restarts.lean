import RenderMesh.Refresh.Delivery
import RenderMesh.Refresh.Unfinished

/-!
# What a process leaves to the next

A process can go away at any step of a refresh, and any of its calls can fail with a part of its
work done. The files stay, the stores do not. A mirror can then be gone, its backup and staging
directories left, but each is still a tree of files where files of the origin may stand (`Fit`),
and a name made of a time is not used twice.

* `swapOriginDir_laid`: a swap keeps what the next refresh needs, however it ends.
* `refreshOrigin_laid`: so does a refresh.
* `restart_heals`: after any such processes, the first refresh of the next one returns.
-/
namespace RenderMesh.Refresh

open RenderMesh.Core RenderMesh.Mirror RenderMesh.Server RenderMesh.Cdn

variable {deps : Deps} {env : Env}

/-! ## A swap, however it ends -/

/-- What may stand in the place of a mirror. -/
structure Fit (deps : Deps) (keys : Str → Prop) (tree : List Name → Option (Node Bytes)) : Prop where
  top : ∀ b, tree [] ≠ some (.file b)
  orderly : Orderly deps keys tree

theorem fit_empty {keys : Str → Prop} : Fit deps keys fun _ => none := ⟨by simp, orderly_empty⟩

theorem Fit.thin {keys : Str → Prop} {tree tree' : List Name → Option (Node Bytes)}
    (h : Fit deps keys tree) (hgone : ∀ r, tree' r = tree r ∨ tree' r = none) : Fit deps keys tree' := by
  refine ⟨fun b hb => ?_, h.orderly.thin fun r _ => hgone r⟩
  rcases hgone [] with hr | hr
  · exact h.top b (hr.symm.trans hb)
  · exact absurd (hr.symm.trans hb) (by simp)

/-- The mirror of `id`, its backup made at `t`, and the generation staged at `s`. -/
inductive Home (deps : Deps) (id : Str) (t s : Nat) : PathBuf → Prop
  | mirror : Home deps id t s id
  | backup : Home deps id t s (backupPath id t)
  | staging : Home deps id t s (stagingPath deps id s)

/-- The calls of a swap. -/
def Moves (deps : Deps) (id : Str) (t s : Nat) : Op → Prop
  | .fs (.rename a b) => Home deps id t s a ∧ Home deps id t s b ∧ a ≠ b
  | .fs (.removeDirAll p) => Home deps id t s p
  | .fs (.metadata _) => True
  | _ => False

/-- Each home is fit, and nothing has changed elsewhere. -/
structure Moving (deps : Deps) (keys : Str → Prop) (id : Str) (t s : Nat) (w0 w : World) : Prop where
  homes : ∀ p, Home deps id t s p → Fit deps keys (w.under p)
  others : ∀ q, (∀ p, Home deps id t s p → ¬ names p <+: q) → w.fs.lookup q = w0.fs.lookup q

section
variable {keys : Str → Prop} {id : Str} (hid : validateOriginId id = .ok ()) {t s : Nat}
include hid

/-- No home is in another. -/
theorem Home.apart {a b : PathBuf} (ha : Home deps id t s a) (hb : Home deps id t s b) (hne : a ≠ b)
    {q : List Name} (hq : names b <+: q) : ¬ names a <+: q := by
  have hsync : ∀ {q}, names (stagingPath deps id s) <+: q → [syncName] <+: q :=
    fun h => List.IsPrefix.trans (stagingPath_inStaging deps hid s) h
  cases ha with
  | mirror =>
    cases hb with
    | mirror => exact absurd rfl hne
    | backup => exact origin_not_prefix_backup hid hq
    | staging => exact origin_not_prefix_staging hid (hsync hq)
  | backup =>
    cases hb with
    | mirror => exact not_below_backup hid (Or.inl hq)
    | backup => exact absurd rfl hne
    | staging => exact not_below_backup hid (Or.inr (hsync hq))
  | staging =>
    cases hb with
    | mirror => exact fun h => staging_not_prefix_origin hid hq (hsync h)
    | backup => exact fun h => not_below_backup hid (Or.inr (hsync h)) hq
    | staging => exact absurd rfl hne

theorem step_moving {w0 : World} {o : Op} (ho : Moves deps id t s o) {w : World}
    (hw : Moving deps keys id t s w0 w) : Moving deps keys id t s w0 (step deps env o w).2 := by
  cases o with
  | fs o =>
    cases o with
    | metadata p =>
      have hsame : ∀ q, (step deps env (.fs (.metadata p)) w).2.fs.lookup q = w.fs.lookup q :=
        fun q => FsOp.step_frame env.long _ w.fs _ (fun h => h)
      exact ⟨fun p' hp' => by rw [under_congr hsame]; exact hw.homes p' hp',
        fun q hq => (hsame q).trans (hw.others q hq)⟩
    | rename a b =>
      obtain ⟨ha, hb, hne⟩ := ho
      have hstep := rename_step env.long (env.fault w.clock (.rename a b)) w.fs a b
      generalize hw' : (step deps env (.fs (.rename a b)) w).2 = w'
      replace hstep : w'.fs = w.fs ∨ ∀ q, w'.fs.lookup q =
          if names b <+: q then w.fs.lookup (names a ++ q.drop (names b).length)
          else if names a <+: q then none else w.fs.lookup q := by
        subst hw'
        exact hstep
      rcases hstep with hsame | hmoved
      · exact ⟨fun p hp => by
          rw [under_congr (w := w) (fun q => by rw [hsame])]
          exact hw.homes p hp, fun q hq => by rw [hsame]; exact hw.others q hq⟩
      · refine ⟨fun p hp => ?_, fun q hq => ?_⟩
        · by_cases hpb : p = b
          · -- it has moved here
            subst hpb
            rw [show w'.under p = w.under a from funext fun r => by
              rw [World.under, hmoved, if_pos (List.prefix_append _ _), List.drop_left]; rfl]
            exact hw.homes a ha
          · have hnotb : ∀ r, ¬ names b <+: names p ++ r := fun r =>
              hb.apart hid hp (Ne.symm hpb) (List.prefix_append _ _)
            refine (hw.homes p hp).thin fun r => ?_
            rw [World.under, hmoved, if_neg (hnotb r)]
            split
            · exact Or.inr rfl
            · exact Or.inl rfl
        · rw [hmoved, if_neg (hq b hb), if_neg (hq a ha)]
          exact hw.others q hq
    | removeDirAll p =>
      have hgone := step_removeDirAll env.long (env.fault w.clock (.removeDirAll p)) w.fs p
      refine ⟨fun p' hp' => (hw.homes p' hp').thin fun r => hgone _, fun q hq => ?_⟩
      exact (FsOp.step_frame env.long _ w.fs (.removeDirAll p) (hq p ho)).trans (hw.others q hq)
    | _ => exact ho.elim
  | _ => exact ho.elim

theorem run_moving {w0 : World} {α : Type} {m : Async α} (hm : m.Uses (Moves deps id t s)) {w : World}
    (hw : Moving deps keys id t s w0 w) : Moving deps keys id t s w0 (run (step deps env) m w).2 :=
  keeps_of_uses (step deps env) (fun _ ho _ hs => step_moving hid ho hs) hm w hw

omit hid in
theorem onlyIf_moves {c : Bool} {m : Async Unit} (hm : m.Uses (Moves deps id t s)) :
    (onlyIf c m).Uses (Moves deps id t s) := by
  unfold onlyIf
  split
  · exact hm
  · trivial

end

theorem backupPath_injective {id : Str} (hid : validateOriginId id = .ok ()) {t t' : Nat}
    (h : names (backupPath id t) = names (backupPath id t')) : t = t' := by
  rw [names_backupPath_eq hid, names_backupPath_eq hid] at h
  have htext := congrArg Name.text (List.cons.inj h).1
  rw [show (Name.mk (backupPath id t) (backupPath_valid hid t)).text = backupPath id t from rfl,
    show (Name.mk (backupPath id t') (backupPath_valid hid t')).text = backupPath id t' from rfl,
    backupPath_text hid, backupPath_text hid] at htext
  exact showNat_injective (List.append_cancel_left (List.cons.inj (List.append_cancel_left htext)).2)

section
variable {keys : Str → Prop} {id : Str} (hid : validateOriginId id = .ok ())
include hid

/-- Work in the staging area does not concern what has been activated. -/
theorem Laid.quiet {w w' : World} (hw : Laid deps env id (Orderly deps keys) w) (hquiet : Quiet w w')
    (hclock : w.clock ≤ w'.clock) (hopen : StagingOpen deps id w') : Laid deps env id (Orderly deps keys) w' := by
  refine ⟨fun b => ?_, fun t ht => ?_, ?_, hopen⟩
  · rw [hquiet.files _ (staging_not_prefix_origin hid List.prefix_rfl)]
    exact hw.mirror b
  · rw [hquiet.files _ (backup_not_inStaging hid _)]
    exact hw.backups t (hclock.trans ht)
  · rw [show w'.under id = w.under id from funext fun r =>
      hquiet.files _ (staging_not_prefix_origin hid (List.prefix_append _ _))]
    exact hw.tree

/-- The removal of a staging directory, however it ends. -/
theorem Laid.discard {w : World} (hw : Laid deps env id (Orderly deps keys) w) {d : PathBuf} (hd : InStaging d) :
    Laid deps env id (Orderly deps keys) (run (step deps env) (removeDirIfExists deps d) w).2 :=
  hw.quiet hid (quiet_of_staged (removeDirIfExists_within deps hd) w)
    (run_clock deps env rfl) (hw.staging.thin (removeDirIfExists_gone d w))

variable (hnanos : Function.Injective env.nanos)
include hnanos

/-- A swap used up the name of one backup. -/
theorem Moving.laid {n s : Nat} {w0 w : World} (hm : Moving deps keys id (env.nanos n) s w0 w)
    (hw0 : Laid deps env id (Orderly deps keys) w0) (hclock : w0.clock ≤ w.clock) (hn : n < w.clock) :
    Laid deps env id (Orderly deps keys) w := by
  have hmirror := hm.homes id .mirror
  refine ⟨fun b => by simpa [World.under] using hmirror.top b, fun t ht => ?_, hmirror.orderly,
    fun t q b hq => ?_⟩
  · rw [hm.others _ ?_]
    · exact hw0.backups t (hclock.trans ht)
    · rintro p (_ | _ | _) hp
      · exact origin_not_prefix_backup hid List.prefix_rfl hp
      · -- the name of another time
        have hnames : names (backupPath id (env.nanos n)) = names (backupPath id (env.nanos t)) :=
          hp.eq_of_length (by rw [names_backupPath_eq hid, names_backupPath_eq hid]; rfl)
        have := hnanos (backupPath_injective hid hnames)
        omega
      · exact backup_not_inStaging hid _ (List.IsPrefix.trans (stagingPath_inStaging deps hid s) hp)
  · by_cases h0 : q = []
    · rw [h0]
      simp
    have hsync : [syncName] <+: q := by
      obtain ⟨r, hr⟩ := hq
      rw [names_stagingPath deps hid] at hr
      obtain ⟨x, q', rfl⟩ := List.exists_cons_of_ne_nil h0
      rw [(List.cons.inj hr).1]
      exact ⟨q', rfl⟩
    by_cases hs : names (stagingPath deps id s) <+: q
    · have hqs : names (stagingPath deps id s) = q := hs.eq_of_length_le (hq.length_le.trans (by
        rw [names_stagingPath deps hid, names_stagingPath deps hid]; rfl))
      rw [← hqs]
      simpa [World.under] using (hm.homes _ .staging).top b
    · rw [hm.others q ?_]
      · exact hw0.staging t q b hq
      · rintro p (_ | _ | _) hp
        · exact origin_not_prefix_staging hid hsync hp
        · exact not_below_backup hid (Or.inr hsync) hp
        · exact hs hp

theorem swapOriginDir_laid {s : Nat} {w : World} (hw : Laid deps env id (Orderly deps keys) w)
    (hstage : Orderly deps keys (w.under (stagingPath deps id s))) :
    Laid deps env id (Orderly deps keys)
      (run (step deps env) (swapOriginDir deps id (stagingPath deps id s)) w).2 := by
  rw [swapOriginDir, withParent, parent?_origin hid]
  -- the root of the mirrors is there
  have hroot : ∀ {m : Async Unit}, m.Uses (fun o => o = .fs (.createDirAll storeRoot)) →
      ∀ q, (run (step deps env) m w).2.fs.lookup q = w.fs.lookup q := fun hm q => by
    refine keeps_of_uses (step deps env) (I := fun w' => w'.fs.lookup q = w.fs.lookup q) ?_ hm w rfl
    rintro _ rfl w' hw'
    by_cases hq : q = []
    · rw [hq]
      rfl
    · refine (FsOp.step_frame env.long _ w'.fs (.createDirAll storeRoot) fun h => ?_).trans hw'
      exact hq (List.prefix_nil.mp h)
  have hfs := hroot (uses_ioContext (P := fun o => o = .fs (.createDirAll storeRoot)) rfl
    ("create mirror root ".toList ++ deps.display storeRoot))
  refine keeps_bind (hw.congr hfs (run_clock deps env rfl)) fun _ w1 h1 hw1 => ?_
  rw [h1] at hfs
  rw [← under_congr hfs] at hstage
  refine keeps_bind (hw1.congr (fun _ => rfl) (Nat.le_succ _)) fun now w2 h2 hw2 => ?_
  cases h2
  have hstart : Moving deps keys id (env.nanos w1.clock) s w1.tick w1.tick := by
    refine ⟨fun p hp => ?_, fun _ _ => rfl⟩
    cases hp with
    | mirror => exact ⟨fun b => by simpa [World.under, World.tick] using hw1.mirror b, hw1.tree⟩
    | backup =>
      rw [show w1.tick.under (backupPath id (env.nanos w1.clock)) = fun _ => none from funext fun r =>
        w1.fs.below_none (hw1.backups _ (Nat.le_refl _))]
      exact fit_empty
    | staging =>
      exact ⟨fun b => by simpa [World.under, World.tick] using hw1.staging s _ b List.prefix_rfl, hstage⟩
  refine Moving.laid hid hnanos (run_moving hid ?_ hstart) hw2 (run_clock deps env rfl)
    (Nat.lt_of_lt_of_le (Nat.lt_succ_self _) (run_clock deps env (w := w1.tick) rfl))
  have hback := backupPath_ne hid (env.nanos w1.clock)
  have haway : id ≠ backupPath id (env.nanos w1.clock) := hback.symm
  have hnew : stagingPath deps id s ≠ id := fun h =>
    origin_not_prefix_staging hid (stagingPath_inStaging deps hid s) (by rw [h])
  refine Prog.uses_bind (uses_io (P := Moves deps id _ s) trivial) fun r => ?_
  refine Prog.uses_bind (onlyIf_moves (uses_ioContext ⟨.mirror, .backup, haway⟩ _)) fun _ => ?_
  refine Prog.uses_bind (uses_io ⟨.staging, .mirror, hnew⟩) fun r' => ?_
  cases r' with
  | error e =>
    exact Prog.uses_bind (onlyIf_moves (uses_ioContext ⟨.backup, .mirror, hback⟩ _)) fun _ => trivial
  | ok u => exact uses_ioUnlessNotFound .backup _

/-- However an activation ends, the next process finds what it needs. -/
theorem activateStagedOrigin_laid {staged : StagedOriginSync} {s : Nat} (hoid : staged.originId = id)
    (hdir : staged.stagingDir = stagingPath deps id s) {w : World} (hw : Laid deps env id (Orderly deps keys) w)
    (hstage : Orderly deps keys (w.under (stagingPath deps id s))) :
    Laid deps env id (Orderly deps keys) (run (step deps env) (activateStagedOrigin deps staged) w).2 := by
  rw [activateStagedOrigin, hoid, hdir, originDir_ok_iff.mpr ⟨rfl, hid⟩]
  refine keeps_bind (I := Laid deps env id (Orderly deps keys)) (m := (swapOriginDir deps id (stagingPath deps id s)).attempt)
    (keeps_attempt (swapOriginDir_laid hid hnanos hw hstage)) fun result w1 _ hw1 => ?_
  cases result with
  | ok u => exact hw1
  | error e =>
    exact keeps_bind (hw1.discard hid (stagingPath_inStaging deps hid s)) fun _ _ _ h => h

end

/-! ## A refresh, however it ends -/

/-- What a process does off the disk. -/
theorem Laid.off_disk {keys : Str → Prop} {id : Str} {α : Type} {m : Async α}
    (hm : m.Uses fun o => ∀ call, o ≠ .fs call) {w : World} (hw : Laid deps env id (Orderly deps keys) w) :
    Laid deps env id (Orderly deps keys) (run (step deps env) m w).2 := by
  have hfs := keeps_of_uses (step deps env) (I := fun w' => w'.fs = w.fs) (fun o ho w' hw' => by
    cases o with
    | fs call => exact absurd rfl (ho call)
    | _ => exact hw') hm w rfl
  exact hw.congr (fun q => by rw [hfs]) (run_clock deps env rfl)

section
variable {keys : Str → Prop} (hkeys : Storable keys) {id : Str} (hid : validateOriginId id = .ok ())
  (hnanos : Function.Injective env.nanos) (hlisted : ∀ k, WasListed env id k → keys k)
include hkeys hid hnanos hlisted

theorem refreshOriginSnapshot_laid (cdn : Option OriginCdnRefresh) (barrier : Option Str) {w : World}
    (hw : Laid deps env id (Orderly deps keys) w) :
    Laid deps env id (Orderly deps keys) (run (step deps env) (refreshOriginSnapshot deps id cdn barrier) w).2 := by
  have hcall : ∀ {o : Op} {w : World}, (∀ call, o ≠ .fs call) → Laid deps env id (Orderly deps keys) w →
      Laid deps env id (Orderly deps keys) (run (step deps env) (call o) w).2 :=
    fun ho h => h.off_disk (uses_call ho)
  refine keeps_bind (hcall (by simp) hw) fun previous w1 _ hw1 => ?_
  obtain ⟨hopen, hlays⟩ := stageOriginSync_lays hkeys hid hlisted previous hw1.tree hw1.staging
  refine keeps_bind (hw1.quiet hid (quiet_of_staged (stageOriginSync_within deps id previous) w1)
    (run_clock deps env rfl) hopen) fun staged w2 h2 hw2 => ?_
  obtain ⟨-, hoid, hdir⟩ := stageOriginSync_shape h2
  have hstage := (hlays staged w2 h2).orderly
  have hreads := run_reads deps env (Prog.uses_attempt
    (prepareActivation_reads deps id previous staged barrier)) w2
  refine keeps_bind (hw2.congr hreads.2 (run_clock deps env rfl)) fun prepared w3 h3 hw3 => ?_
  rw [h3] at hreads
  rw [← under_congr hreads.2] at hstage
  cases prepared with
  | error e =>
    refine keeps_bind (keeps_attempt (hw3.discard hid ?_)) fun cleanup w4 _ hw4 => ?_
    · rw [hdir]
      exact stagingPath_inStaging deps hid _
    · cases cleanup <;> exact hw4
  | ok prepared =>
    refine keeps_bind (hcall (by simp) hw3) fun current w4 h4 hw4 => ?_
    cases h4
    refine keeps_bind (hcall (by simp) hw4) fun now w5 h5 hw5 => ?_
    cases h5
    refine keeps_bind (keeps_bind (activateStagedOrigin_laid hid hnanos hoid hdir hw5 hstage)
      fun _ w6 _ hw6 => hw6.off_disk ?_) fun _ w7 _ hw7 => ?_
    · exact Prog.uses_bind (uses_call (by simp)) fun _ => Prog.uses_bind (uses_call (by simp)) fun _ =>
        Prog.uses_bind (uses_call (by simp)) fun _ => uses_call (by simp)
    · have hdata := @refreshCdn_sameData deps env id (((w3.originRuntime id).map fun snapshot =>
        snapshot.generation + 1).getD 1) staged.diff cdn w7
      exact keeps_bind (hw7.congr (fun q => by rw [hdata.fs]) (run_clock deps env rfl))
        fun _ _ _ hw8 => hw8

/-- However a refresh ends, and whatever it left, the next one finds what it needs. -/
theorem refreshOrigin_laid (service : OriginRefreshService) {w : World} (hw : Laid deps env id (Orderly deps keys) w) :
    Laid deps env id (Orderly deps keys) (refreshOrigin deps env service id w).2 := by
  rw [refreshOrigin]
  split
  · exact hw
  split
  · exact hw
  have hrun := refreshOriginSnapshot_laid hkeys hid hnanos hlisted (service.cdn id)
    (service.activationBarrier id) (w := w.lock id) (hw.congr (fun _ => rfl) (Nat.le_refl _))
  split <;> rename_i heq <;> rw [heq] at hrun <;> exact hrun.congr (fun _ => rfl) (Nat.le_refl _)

end

/-! ## Processes -/

/-- A process that began some refreshes of an origin and is gone, and the steps until the next. -/
structure Life where
  env : Env
  service : OriginRefreshService
  refreshes : Nat
  down : Nat

/-- The next process finds the files; its stores are empty. -/
def restart (w : World) (down : Nat) : World := { World.start w.fs with clock := w.clock + down }

def Life.pass (deps : Deps) (id : Str) (w : World) (life : Life) : World :=
  restart ((fun w => (refreshOrigin deps life.env life.service id w).2)^[life.refreshes] w) life.down

/-- Where the process begins that follows on `lives`. -/
def afterLives (deps : Deps) (id : Str) (w : World) (lives : List Life) : World :=
  lives.foldl (Life.pass deps id) w

theorem Laid.clocks {keys : Str → Prop} {id : Str} {env' : Env} {w : World}
    (hw : Laid deps env id (Orderly deps keys) w) (hnanos : env'.nanos = env.nanos) : Laid deps env' id (Orderly deps keys) w :=
  ⟨hw.mirror, fun t ht => by rw [hnanos]; exact hw.backups t ht, hw.tree, hw.staging⟩

section
variable {keys : Str → Prop} (hkeys : Storable keys) {id : Str} (hid : validateOriginId id = .ok ())
  (hnanos : Function.Injective env.nanos)
include hkeys hid hnanos

theorem Life.pass_poised {life : Life} (hclock : life.env.nanos = env.nanos)
    (hlisted : ∀ k, WasListed life.env id k → keys k) {w : World} (hw : Laid deps env id (Orderly deps keys) w) :
    Poised deps env id keys (life.pass deps id w) := by
  have hrefreshes : ∀ n, Laid deps life.env id (Orderly deps keys)
      ((fun w => (refreshOrigin deps life.env life.service id w).2)^[n] w) := fun n => by
    induction n with
    | zero => exact hw.clocks hclock
    | succ n ih =>
      rw [Function.iterate_succ_apply']
      exact refreshOrigin_laid hkeys hid (hclock ▸ hnanos) hlisted life.service ih
  exact ⟨((hrefreshes _).clocks hclock.symm).congr (fun _ => rfl) (Nat.le_add_right _ _),
    fun index h => by cases h⟩

theorem afterLives_poised {lives : List Life} (hclocks : ∀ life ∈ lives, life.env.nanos = env.nanos)
    (hlisted : ∀ life ∈ lives, ∀ k, WasListed life.env id k → keys k) {w : World}
    (hw : Poised deps env id keys w) : Poised deps env id keys (afterLives deps id w lives) := by
  induction lives generalizing w with
  | nil => exact hw
  | cons life lives ih =>
    exact ih (fun l hl => hclocks l (by simp [hl])) (fun l hl => hlisted l (by simp [hl]))
      (Life.pass_poised hkeys hid hnanos (hclocks life (by simp)) (hlisted life (by simp)) hw.toLaid)

end

theorem afterLives_idle (deps : Deps) (id : Str) {lives : List Life} {w : World}
    (hw : w.freshnessIndexes id = none ∧ w.locks id = false) :
    (afterLives deps id w lives).freshnessIndexes id = none ∧
      (afterLives deps id w lives).locks id = false := by
  induction lives generalizing w with
  | nil => exact hw
  | cons life lives ih => exact ih ⟨rfl, rfl⟩

/-- Whatever the processes before it left of an origin, whose refreshes could stop at any call and
leave any debris, the first refresh of the next one returns on a healthy disk while the storage
stands still, and leaves the mirror that it listed. -/
theorem restart_heals (deps : Deps) (env : Env) (service : OriginRefreshService) (id : Str)
    (keys : Str → Prop) (fs : Tree) (lives : List Life) (henv : Healthy env)
    (hsound : Sound deps env id keys) (hid : validateOriginId id = .ok ())
    (hknown : service.hasOrigin id = true)
    (hpurge : ∀ t request, env.purge t request ≠ .dropped)
    (hnanos : Function.Injective env.nanos)
    (hclocks : ∀ life ∈ lives, life.env.nanos = env.nanos)
    (hlisted : ∀ life ∈ lives, ∀ k, WasListed life.env id k → keys k)
    (hfs : Ready deps env id keys (World.start fs)) (summaries : List RemoteObjectSummary)
    (hstill : Still env id (afterLives deps id (World.start fs) lives).clock
      (refreshOrigin deps env service id (afterLives deps id (World.start fs) lives)).2.clock summaries)
    (hpasses : Passes id none (service.activationBarrier id) summaries) :
    (∃ response, (refreshOrigin deps env service id
        (afterLives deps id (World.start fs) lives)).1 = .ok response) ∧
      ∃ index, MirrorsListing deps env id True (afterLives deps id (World.start fs) lives).clock index
        (refreshOrigin deps env service id (afterLives deps id (World.start fs) lives)).2 := by
  obtain ⟨hindex, hidle⟩ := @afterLives_idle deps id lives (World.start fs) ⟨rfl, rfl⟩
  have hpoised := afterLives_poised hsound.storable hid hnanos hclocks hlisted hfs.poised
  obtain ⟨hok, -, -, index, hmirrors, -⟩ := refreshOrigin_delivers henv hsound hid hknown hpurge
    hpoised hidle hstill (by rw [hindex]; exact hpasses)
  exact ⟨hok, index, hmirrors⟩

/-- A disk on which no rename comes to its end. -/
def tornPage : Env :=
  { calmPage with
    nanos := fun n => n
    fault := fun _ o => match o with
      | .rename _ _ => .drop false Debris.none
      | _ => .none }

/-- A process whose two refreshes were dropped before the mirror was in place, and the next. -/
theorem restart_heals_page :
    (∃ response, (refreshOrigin smallDeps { calmPage with nanos := fun n => n } plainService "web".toList
        (afterLives smallDeps "web".toList (World.start FileTree.empty)
          [⟨tornPage, plainService, 2, 3⟩])).1 = .ok response) ∧
      ∃ index, MirrorsListing smallDeps { calmPage with nanos := fun n => n } "web".toList True
        (afterLives smallDeps "web".toList (World.start FileTree.empty)
          [⟨tornPage, plainService, 2, 3⟩]).clock index
        (refreshOrigin smallDeps { calmPage with nanos := fun n => n } plainService "web".toList
          (afterLives smallDeps "web".toList (World.start FileTree.empty)
            [⟨tornPage, plainService, 2, 3⟩])).2 := by
  have hid : validateOriginId "web".toList = .ok () := by decide
  refine restart_heals smallDeps { calmPage with nanos := fun n => n } plainService "web".toList
    (· ∈ pageKeys) FileTree.empty [⟨tornPage, plainService, 2, 3⟩] ⟨fun _ _ => rfl, fun _ => rfl⟩ ?_ hid
    rfl (fun _ _ h => by cases h) (fun _ _ h => h) (fun life hl => ?_) (fun life hl k hk => ?_)
    (ready_empty hid _) [⟨"a".toList, none, none, none, 1, none, none⟩] ?_ fun _ _ _ => rfl
  · exact ⟨⟨calmPage_sound.storable, calmPage_sound.listed, calmPage_sound.digests,
      calmPage_sound.metadata, calmPage_sound.templates⟩, calmPage_sound.candidates, calmPage_sound.configs⟩
  · rw [List.mem_singleton.mp hl]
    rfl
  · rw [List.mem_singleton.mp hl] at hk
    rw [calmPage_listed hk]
    exact List.mem_cons_self
  · exact ⟨fun _ _ _ => rfl, fun s hs => ⟨_, fun _ _ _ => rfl, fun now => by
      rw [List.mem_singleton.mp hs]
      rfl⟩⟩

end RenderMesh.Refresh
