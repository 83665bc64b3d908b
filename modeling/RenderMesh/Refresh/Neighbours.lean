import RenderMesh.Core.Results
import RenderMesh.Gateway.Scene
import RenderMesh.Refresh.Calls

/-!
# Refreshes of other origins

Every refresh works in `.rendermesh-sync` and in the store, under names made of its
origin's id, a process id and a time, and on stores that all origins share. `Area` is
what it can write of the store; the areas of two origins have no path in common
(`areas_apart`).

* `pipeline_owns`: every operation of a refresh is in its origin's area, or on its
  origin's entries, whatever it is answered.
* `turns_isolated`: in every run, whatever the calls for other origins do leaves an
  origin's files and entries as they are, and what its requests are answered.
-/
namespace RenderMesh.Refresh

open RenderMesh.Core RenderMesh.Mirror RenderMesh.Server RenderMesh.Cdn RenderMesh.Gateway

/-- The paths that belong to an origin: its mirror, backups of it, its staging directories. -/
def Area (deps : Deps) (id : Str) (q : List Name) : Prop :=
  names id <+: q ∨ (∃ now, names (backupPath id now) <+: q) ∨
    ∃ t, names (stagingPath deps id t) <+: q

/-- The operations of a valid origin that write in its area, or make the directories it is in,
and change no entry of another origin. -/
def Owned (deps : Deps) (id : Str) : Op → Prop
  | .fs o => ∀ q, o.Writes q →
    validateOriginId id = .ok () ∧ (Area deps id q ∨ q = [] ∨ q = [syncName])
  | .setValid id' _ | .setOriginRegistry id' _ | .insertIndex id' _
  | .setCdnResult id' _ _ _ _ _ | .setCdnError id' _ => id' = id
  | .setSnapshot snapshot => snapshot.originId = id
  | _ => True

/-- What there is of an origin, in the store and in memory. -/
structure SameOrigin (deps : Deps) (id : Str) (w w' : World) : Prop where
  files : ∀ q, Area deps id q → w'.fs.lookup q = w.fs.lookup q
  edgeConfig : w'.edgeConfigs id = w.edgeConfigs id
  templates : w'.templates id = w.templates id
  freshnessIndex : w'.freshnessIndexes id = w.freshnessIndexes id
  snapshot : w'.originRuntime id = w.originRuntime id
  lock : w'.locks id = w.locks id

theorem SameOrigin.refl (deps : Deps) (id : Str) (w : World) : SameOrigin deps id w w :=
  ⟨fun _ _ => rfl, rfl, rfl, rfl, rfl, rfl⟩

theorem SameOrigin.trans {deps : Deps} {id : Str} {a b c : World} (h1 : SameOrigin deps id a b)
    (h2 : SameOrigin deps id b c) : SameOrigin deps id a c :=
  ⟨fun q hq => (h2.files q hq).trans (h1.files q hq), h2.edgeConfig.trans h1.edgeConfig,
    h2.templates.trans h1.templates, h2.freshnessIndex.trans h1.freshnessIndex,
    h2.snapshot.trans h1.snapshot, h2.lock.trans h1.lock⟩

/-! ## Areas -/

/-- A text without `c` in front of a `c` is found again. -/
theorem append_cons_inj_left {α : Type} [DecidableEq α] {a b r s : List α} {c : α} (ha : c ∉ a)
    (hb : c ∉ b) (h : a ++ c :: r = b ++ c :: s) : a = b := by
  have htake : ∀ {l t : List α}, c ∉ l → (l ++ c :: t).takeWhile (· != c) = l := fun {l t} hl => by
    rw [List.takeWhile_append_of_pos fun x hx => by
      simpa using fun he : x = c => hl (he ▸ hx)]
    simp
  rw [← htake ha, h, htake hb]

theorem showNat_no_dash (n : Nat) : '-' ∉ showNat n := fun h => by
  have := Nat.isDigit_of_mem_toDigits (b := 10) (by omega) (by omega) h
  revert this
  decide

/-- The name of a staging directory tells its origin, though ids may have hyphens. -/
theorem stagingName_inj {deps : Deps} {a b : Str} {s t : Nat}
    (h : stagingName deps a s = stagingName deps b t) : a = b := by
  have hrev := congrArg List.reverse h
  simp only [stagingName, List.reverse_append, List.reverse_cons, List.append_assoc,
    List.cons_append, List.nil_append] at hrev
  have hs : '-' ∉ (showNat s).reverse := by simpa using showNat_no_dash s
  have ht : '-' ∉ (showNat t).reverse := by simpa using showNat_no_dash t
  have hlast := append_cons_inj_left hs ht hrev
  rw [hlast] at hrev
  simpa using hrev

section
variable {deps : Deps} {a b : Str} (ha : validateOriginId a = .ok ()) (hb : validateOriginId b = .ok ())
include ha hb

theorem backupPath_inj {m n : Nat} (h : names (backupPath a m) = names (backupPath b n)) :
    a = b := by
  rw [names_backupPath_eq ha, names_backupPath_eq hb] at h
  have htext : backupPath a m = backupPath b n := by simpa using h
  rw [backupPath_text ha, backupPath_text hb] at htext
  exact append_cons_inj_left (origin_no_char ha (by decide)) (origin_no_char hb (by decide)) htext

/-- A mirror, a backup and a staging directory, of whichever origins, are three places. -/
theorem mirror_not_backup {now : Nat} {q : List Name} (h : names a <+: q) :
    ¬ names (backupPath b now) <+: q := by
  obtain ⟨n, hn, hdot, -⟩ := names_backupPath hb now
  rw [names_origin ha] at h
  rw [hn]
  intro h'
  obtain ⟨r, rfl⟩ := h
  have hname := (List.cons_prefix_cons.mp h').1
  rw [hname] at hdot
  exact origin_no_char ha (by decide) hdot

/-- The areas of two origins have no path in common. -/
theorem areas_apart (hne : a ≠ b) {q : List Name} (h : Area deps a q) : ¬ Area deps b q := by
  have single : ∀ {m n : Name}, [m] <+: q → [n] <+: q → m = n := fun {m n} h1 h2 => by
    obtain ⟨r, rfl⟩ := h1
    exact (List.cons_prefix_cons.mp h2).1.symm
  have inSync : ∀ {id : Str} {t : Nat}, validateOriginId id = .ok () →
      names (stagingPath deps id t) <+: q → [syncName] <+: q := fun hid h =>
    (stagingPath_inStaging deps hid _).trans h
  intro h'
  rcases h with hma | ⟨m, hba⟩ | ⟨s, hsa⟩
  · rcases h' with hmb | ⟨n, hbb⟩ | ⟨t, hsb⟩
    · rw [names_origin ha] at hma
      rw [names_origin hb] at hmb
      have hname := single hma hmb
      rw [Name.mk.injEq] at hname
      exact hne hname
    · exact mirror_not_backup ha hb hma hbb
    · exact staging_not_prefix_origin ha hma (inSync hb hsb)
  · rcases h' with hmb | ⟨n, hbb⟩ | ⟨t, hsb⟩
    · exact mirror_not_backup hb ha hmb hba
    · refine hne (backupPath_inj (m := m) (n := n) ha hb ?_)
      rw [names_backupPath_eq ha] at hba ⊢
      rw [names_backupPath_eq hb] at hbb ⊢
      rw [single hba hbb]
    · exact not_below_backup ha (Or.inr (inSync hb hsb)) hba
  · rcases h' with hmb | ⟨n, hbb⟩ | ⟨t, hsb⟩
    · exact staging_not_prefix_origin hb hmb (inSync ha hsa)
    · exact not_below_backup hb (Or.inr (inSync ha hsa)) hbb
    · rw [names_stagingPath deps ha] at hsa
      rw [names_stagingPath deps hb] at hsb
      obtain ⟨r, rfl⟩ := hsa
      have hname : (_ : Name) = _ := (List.cons_prefix_cons.mp (List.cons_prefix_cons.mp hsb).2).1
      rw [Name.mk.injEq] at hname
      exact hne (stagingName_inj hname.symm)

end

/-- The directories that areas are in belong to no origin. -/
theorem area_below {deps : Deps} {id : Str} (hid : validateOriginId id = .ok ()) {q : List Name}
    (h : Area deps id q) : q ≠ [] ∧ q ≠ [syncName] := by
  have hsync : ¬ Area deps id [syncName] := by
    rintro (h | ⟨now, h⟩ | ⟨t, h⟩)
    · exact staging_not_prefix_origin hid h List.prefix_rfl
    · exact not_below_backup hid (Or.inr List.prefix_rfl) h
    · rw [names_stagingPath deps hid] at h
      exact absurd h.length_le (by simp)
  have hroot : ¬ Area deps id [] := by
    rintro (h | ⟨now, h⟩ | ⟨t, h⟩)
    · rw [names_origin hid] at h
      cases List.prefix_nil.mp h
    · rw [names_backupPath_eq hid] at h
      cases List.prefix_nil.mp h
    · rw [names_stagingPath deps hid] at h
      cases List.prefix_nil.mp h
  refine ⟨?_, ?_⟩
  · rintro rfl
    exact hroot h
  · rintro rfl
    exact hsync h

/-! ## What a refresh writes -/

section
variable {deps : Deps} {id : Str}

variable (hid : validateOriginId id = .ok ()) (t : Nat)
include hid

theorem owned_of_within {o : Op} (ho : o.Within (names (stagingPath deps id t))) :
    Owned deps id o := by
  cases o with
  | fs o =>
    intro q hq
    refine ⟨hid, ?_⟩
    rcases ho q hq with hd | hd
    · exact Or.inl (Or.inr (Or.inr ⟨t, hd⟩))
    · have hnames := names_stagingPath deps hid t
      rw [hnames, List.prefix_cons_iff] at hd
      rcases hd with rfl | ⟨r, rfl, hr⟩
      · exact Or.inr (Or.inl rfl)
      · rcases prefix_singleton hr with rfl | rfl
        · exact Or.inl (Or.inr (Or.inr ⟨t, by rw [hnames]⟩))
        · exact Or.inr (Or.inr rfl)
  | setValid id' config => exact False.elim ho
  | setOriginRegistry id' registry => exact False.elim ho
  | insertIndex id' index => exact False.elim ho
  | setSnapshot snapshot => exact False.elim ho
  | setCdnResult id' p s r rs n => exact False.elim ho
  | setCdnError id' e => exact False.elim ho
  | _ => trivial

theorem owned_of_reads {o : Op} (ho : o.Reads) : Owned deps id o :=
  owned_of_within hid 0 (ho.within _)

theorem removeDirIfExists_owns {p : PathBuf} (hp : ∀ q, names p <+: q → Area deps id q) :
    (removeDirIfExists deps p).Uses (Owned deps id) :=
  uses_ioUnlessNotFound (fun q hq => ⟨hid, Or.inl (hp q hq)⟩) _

theorem swapOriginDir_owns :
    (swapOriginDir deps id (stagingPath deps id t)).Uses (Owned deps id) := by
  have backup : ∀ now q, names (backupPath id now) <+: q → Area deps id q :=
    fun now q hq => Or.inr (Or.inl ⟨now, hq⟩)
  rw [swapOriginDir, withParent, parent?_origin hid]
  refine Prog.uses_bind (uses_ioContext (fun q hq => ?_) _) fun _ => ?_
  · exact ⟨hid, Or.inr (Or.inl (List.prefix_nil.mp hq))⟩
  refine Prog.uses_bind (uses_call trivial) fun now => ?_
  refine Prog.uses_bind (uses_io fun q hq => False.elim hq) fun r => ?_
  refine Prog.uses_bind ?_ fun _ => ?_
  · unfold onlyIf
    split
    · refine uses_ioContext (fun q hq => ⟨hid, Or.inl ?_⟩) _
      exact hq.elim Or.inl (backup now q)
    · trivial
  · refine Prog.uses_bind (uses_io fun q hq => ⟨hid, Or.inl ?_⟩) fun r => ?_
    · exact hq.elim (fun h => Or.inr (Or.inr ⟨t, h⟩)) Or.inl
    · cases r with
      | ok u => exact removeDirIfExists_owns hid (backup now)
      | error e =>
        refine Prog.uses_bind ?_ fun _ => trivial
        unfold onlyIf
        split
        · refine uses_ioContext (fun q hq => ⟨hid, Or.inl ?_⟩) _
          exact hq.elim (backup now q) Or.inl
        · trivial

theorem activateStagedOrigin_owns {staged : StagedOriginSync} (hstaged : staged.originId = id)
    (hdir : staged.stagingDir = stagingPath deps id t) :
    (activateStagedOrigin deps staged).Uses (Owned deps id) := by
  refine Prog.uses_ofExcept_bind fun dir hok => ?_
  obtain ⟨rfl, -⟩ := originDir_ok_iff.mp hok
  rw [hstaged, hdir]
  refine Prog.uses_bind (Prog.uses_attempt (swapOriginDir_owns hid t)) fun r => ?_
  cases r with
  | ok u => trivial
  | error e =>
    refine Prog.uses_bind (removeDirIfExists_owns hid fun q hq => ?_) fun _ => trivial
    exact Or.inr (Or.inr ⟨t, hq⟩)

omit hid in
theorem refreshCdn_owns (generation : Nat) (diff : OriginFreshnessDiff)
    (cdn : Option OriginCdnRefresh) :
    (refreshCdn id generation diff cdn).Uses (Owned deps id) := by
  cases cdn with
  | none => trivial
  | some cdn =>
    refine Prog.uses_bind (Prog.uses_attempt ?_) fun result => ?_
    · unfold refreshAfterActivation
      split
      · trivial
      · refine Prog.uses_bind (uses_call trivial) fun r => ?_
        cases r <;> trivial
    · cases result with
      | error error =>
        refine Prog.uses_bind ?_ fun _ => Prog.uses_bind (uses_call rfl) fun _ => trivial
        cases error.cdn with
        | none => trivial
        | some failure =>
          simp only
          split
          · trivial
          · exact uses_call rfl
      | ok outcome =>
        cases outcome with
        | none => trivial
        | some outcome => exact Prog.uses_bind (uses_call rfl) fun _ => trivial

theorem activateSnapshot_owns {staged : StagedOriginSync} (hstaged : staged.originId = id)
    (hdir : staged.stagingDir = stagingPath deps id t) (cdn : Option OriginCdnRefresh)
    (config : EdgeConfig) (registry : Registry) :
    (activateSnapshot deps id cdn staged config registry).Uses (Owned deps id) := by
  refine Prog.uses_bind (uses_call trivial) fun current => ?_
  refine Prog.uses_bind (uses_call trivial) fun now => ?_
  refine Prog.uses_bind ?_ fun _ => ?_
  · refine Prog.uses_bind (activateStagedOrigin_owns hid t hstaged hdir) fun _ => ?_
    refine Prog.uses_bind (uses_call rfl) fun _ => Prog.uses_bind (uses_call rfl) fun _ => ?_
    exact Prog.uses_bind (uses_call rfl) fun _ => uses_call rfl
  · exact Prog.uses_bind (refreshCdn_owns _ _ _) fun _ => trivial

end

section
variable (deps : Deps) (id : Str)

/-- What a staging hands on has the origin's id and a staging directory of its own. -/
theorem stageOriginSync_gives (previous : Option OriginFreshnessIndex) :
    (stageOriginSync deps id previous).Gives fun staged => validateOriginId id = .ok () ∧
      staged.originId = id ∧ ∃ t, staged.stagingDir = stagingPath deps id t := by
  refine Prog.gives_ofExcept_bind fun dir hdir => ?_
  obtain ⟨-, hid⟩ := originDir_ok_iff.mp hdir
  rw [stagingDir, hdir]
  refine Prog.gives_then (m := call .now) fun t => ?_
  refine Prog.gives_then fun _ => Prog.gives_then fun result => ?_
  cases result with
  | ok v => exact ⟨hid, rfl, t, rfl⟩
  | error e => exact Prog.gives_then fun _ => trivial

/-- Whatever it is answered, a refresh writes in its origin's area and on its origin's entries. -/
theorem pipeline_owns (service : OriginRefreshService) :
    (pipeline deps service id).Uses (Owned deps id) := by
  refine Prog.uses_bind (uses_call trivial) fun previous => ?_
  refine Prog.uses_bind_gives ((stageOriginSync_own deps id previous).mono fun o ho => ?_)
    (stageOriginSync_gives deps id previous) fun staged hstaged => ?_
  · obtain ⟨hid, t, ho⟩ := ho
    exact owned_of_within hid t ho
  obtain ⟨hid, horigin, t, hdir⟩ := hstaged
  refine Prog.uses_bind (Prog.uses_attempt ((prepareActivation_reads deps id previous staged _).mono
    fun o ho => owned_of_reads hid ho)) fun preparation => ?_
  cases preparation with
  | error error =>
    refine Prog.uses_bind (Prog.uses_attempt (removeDirIfExists_owns hid fun q hq => ?_)) fun cleanup => ?_
    · rw [hdir] at hq
      exact Or.inr (Or.inr ⟨t, hq⟩)
    · cases cleanup <;> trivial
  | ok prepared => exact activateSnapshot_owns hid t horigin hdir _ _ _

end

/-! ## One turn -/

section
variable {deps : Deps} {env : Env} {a b : Str} (hb : validateOriginId b = .ok ()) (hne : a ≠ b)
include hb hne

theorem step_other {o : Op} (ho : Owned deps a o) (w : World) :
    SameOrigin deps b w (step deps env o w).2 := by
  have other : ∀ {α : Type} {f : Str → Option α} {v : Option α} {id : Str}, id = a →
      Function.update f id v b = f b := fun hid => by
    rw [hid, Function.update_of_ne (Ne.symm hne)]
  cases o with
  | fs o =>
    refine ⟨fun q hq => ?_, rfl, rfl, rfl, rfl, rfl⟩
    refine o.step_frame env.long _ w.fs fun hw => ?_
    obtain ⟨ha, hq' | rfl | rfl⟩ := ho q hw
    · exact areas_apart ha hb hne hq' hq
    · exact (area_below hb hq).1 rfl
    · exact (area_below hb hq).2 rfl
  | setValid id config => exact ⟨fun _ _ => rfl, other ho, rfl, rfl, rfl, rfl⟩
  | setOriginRegistry id registry => exact ⟨fun _ _ => rfl, rfl, other ho, rfl, rfl, rfl⟩
  | insertIndex id index => exact ⟨fun _ _ => rfl, rfl, rfl, other ho, rfl, rfl⟩
  | setSnapshot snapshot => exact ⟨fun _ _ => rfl, rfl, rfl, rfl, other ho, rfl⟩
  | setCdnResult id p s r rs n => exact ⟨fun _ _ => rfl, rfl, rfl, rfl, other ho, rfl⟩
  | setCdnError id e => exact ⟨fun _ _ => rfl, rfl, rfl, rfl, other ho, rfl⟩
  | _ => exact ⟨fun _ _ => rfl, rfl, rfl, rfl, rfl, rfl⟩

end

def Turn.call : Turn → Nat
  | .next i | .drop i => i

/-- Whatever the calls still have to do is on their own origins. -/
def OwnedCalls (deps : Deps) (originIds : Nat → Str) (s : Calls) : Prop :=
  ∀ i rest, s.state i = .running rest → rest.Uses (Owned deps (originIds i))

section
variable {deps : Deps} {env : Env} {service : OriginRefreshService} {originIds : Nat → Str}

theorem ownedCalls_move {s : Calls} (h : OwnedCalls deps originIds s) {i : Nat} {w : World}
    {c : CallState} (hc : ∀ rest, c = .running rest → rest.Uses (Owned deps (originIds i))) :
    OwnedCalls deps originIds (s.move i w c) := by
  intro j rest hj
  rw [move_state] at hj
  split at hj
  · rename_i he
    subst he
    exact hc rest hj
  · exact h j rest hj

theorem sameOrigin_of_locks {w : World} {b : Str} {id : Str} {l : Bool} (hne : id ≠ b) :
    SameOrigin deps b w { w with locks := Function.update w.locks id l } :=
  ⟨fun _ _ => rfl, rfl, rfl, rfl, rfl, Function.update_of_ne (Ne.symm hne) _ _⟩

/-- One turn of a call changes nothing of other origins. -/
theorem takeTurn_owned {s : Calls} (h : OwnedCalls deps originIds s) (t : Turn) :
    OwnedCalls deps originIds (takeTurn deps env service originIds s t) ∧
      ∀ b, validateOriginId b = .ok () → originIds t.call ≠ b →
        SameOrigin deps b s.world (takeTurn deps env service originIds s t).world := by
  -- a call that ends, or whose caller is told
  have ends : ∀ {i : Nat} {c : CallState}, (∀ rest, c ≠ .running rest) →
      OwnedCalls deps originIds (s.move i s.world c) ∧ ∀ b, validateOriginId b = .ok () →
        originIds i ≠ b → SameOrigin deps b s.world (s.move i s.world c).world := fun hc =>
    ⟨ownedCalls_move h fun rest he => absurd he (hc rest), fun b _ _ => SameOrigin.refl deps b _⟩
  cases t with
  | drop i =>
    cases hs : s.state i with
    | waiting =>
      simp only [takeTurn, hs]
      exact ends (by simp)
    | running rest =>
      simp only [takeTurn, hs]
      exact ends (by simp)
    | releasing result =>
      simp only [takeTurn, hs]
      exact ⟨h, fun b _ _ => SameOrigin.refl deps b _⟩
    | done result =>
      simp only [takeTurn, hs]
      exact ⟨h, fun b _ _ => SameOrigin.refl deps b _⟩
  | next i =>
    cases hs : s.state i with
    | waiting =>
      simp only [takeTurn, hs]
      split
      · exact ends (by simp)
      split
      · exact ends (by simp)
      · refine ⟨ownedCalls_move h fun rest he => ?_, fun b _ hne => sameOrigin_of_locks hne⟩
        cases he
        exact pipeline_owns deps (originIds i) service
    | releasing result =>
      simp only [takeTurn, hs]
      exact ⟨ownedCalls_move h (by simp), fun b _ hne => sameOrigin_of_locks hne⟩
    | done result =>
      simp only [takeTurn, hs]
      exact ⟨h, fun b _ _ => SameOrigin.refl deps b _⟩
    | running rest =>
      have hrest := h i rest hs
      cases rest with
      | ret response =>
        simp only [takeTurn, hs]
        exact ends (by simp)
      | fail e =>
        simp only [takeTurn, hs]
        refine ⟨ownedCalls_move h (by simp), fun b _ hne => ⟨fun _ _ => rfl, rfl, rfl, rfl, ?_, rfl⟩⟩
        exact Function.update_of_ne (Ne.symm hne) _ _
      | op o k =>
        have hstep : ∀ b, validateOriginId b = .ok () → originIds i ≠ b →
            SameOrigin deps b s.world (step deps env o s.world).2 :=
          fun b hb hne => step_other hb hne hrest.1 s.world
        simp only [takeTurn, hs, Calls.answer]
        split
        · refine ⟨ownedCalls_move h fun rest he => ?_, hstep⟩
          cases he
          exact hrest.2 _
        · exact ⟨ownedCalls_move h (by simp), hstep⟩

theorem takeTurns_owned (turns : List Turn) {s : Calls} (h : OwnedCalls deps originIds s) :
    OwnedCalls deps originIds (takeTurns deps env service originIds s turns) ∧
      ∀ b, validateOriginId b = .ok () → (∀ t ∈ turns, originIds t.call ≠ b) →
        SameOrigin deps b s.world (takeTurns deps env service originIds s turns).world := by
  induction turns generalizing s with
  | nil => exact ⟨h, fun b _ _ => SameOrigin.refl deps b _⟩
  | cons t turns ih =>
    obtain ⟨howned, hturn⟩ := @takeTurn_owned deps env service originIds s h t
    obtain ⟨hrest, hturns⟩ := ih howned
    exact ⟨hrest, fun b hb hall => (hturn b hb (hall t (by simp))).trans
      (hturns b hb fun t ht => hall t (by simp [ht]))⟩

end

/-! ## Requests -/

/-- Two stores that agree below an origin's directory agree along every path into it. -/
theorem lookup_along {b : Str} (hb : validateOriginId b = .ok ()) {p : PathBuf}
    (hp : names b <+: names p) {t t' : Tree} (h : ∀ q, names b <+: q → t'.lookup q = t.lookup q)
    {q : List Name} (hq : q <+: names p) : t'.lookup q = t.lookup q := by
  rcases List.prefix_or_prefix_of_prefix hp hq with hin | hout
  · exact h q hin
  · rw [names_origin hb] at hout
    rcases prefix_singleton hout with rfl | rfl
    · exact h _ (by rw [names_origin hb])
    · rfl

/-- A request for an origin is answered from what there is of the origin. -/
theorem value_of_sameOrigin {deps : Deps} {env : Env} {gateway : GatewayDeps} {hooks : Hooks}
    {service : RenderGatewayService} {request : RenderRequest} {resolved : Domains.ResolvedHost}
    (hres : service.resolver.resolve request.host = some resolved) {w w' : World}
    (h : SameOrigin deps resolved.originId w w') :
    (sceneOf w' env hooks).value (service.handle gateway request) =
      (sceneOf w env hooks).value (service.handle gateway request) := by
  refine eval_congr _ (fun o ho => ?_) (handle_looksIn gateway hres)
  have hstat : ∀ p : PathBuf, validateOriginId resolved.originId = .ok () →
      names resolved.originId <+: names p → ∀ long : Name → Bool,
      w'.fs.stat long (names p) = w.fs.stat long (names p) := by
    intro p hid hp long
    exact FileTree.stat_congr long fun s hs =>
      lookup_along hid hp (fun q hq => h.files q (Or.inl hq)) hs
  cases o with
  | server o =>
    cases o with
    | fs o =>
      cases o with
      | read p =>
        obtain ⟨hid, hp, -⟩ := ho
        simp only [Scene.answer, Scene.serverAnswer, sceneOf, FsOp.exec, FileTree.readFile,
          hstat p hid hp]
      | metadata p =>
        obtain ⟨hid, hp, -⟩ := ho
        simp only [Scene.answer, Scene.serverAnswer, sceneOf, FsOp.exec, FileTree.metadata,
          hstat p hid hp]
      | _ => exact False.elim ho
    | _ => exact False.elim ho
  | edgeConfig id =>
    obtain rfl : id = resolved.originId := ho
    simp only [Scene.answer, sceneOf, h.edgeConfig]
  | originTemplates id =>
    obtain rfl : id = resolved.originId := ho
    simp only [Scene.answer, sceneOf, h.templates]
  | hook i hook request => rfl

/-- In every run of refreshes side by side, whatever the calls for other origins do, finished,
failed or dropped at any step, leaves the files and the entries of `b` as they were, and what
every request for `b` is answered. -/
theorem turns_isolated (deps : Deps) (env : Env) (service : OriginRefreshService)
    (originIds : Nat → Str) (fs : Tree) (turns later : List Turn) {b : Str}
    (hb : validateOriginId b = .ok ()) (hother : ∀ t ∈ later, originIds t.call ≠ b) :
    let s := takeTurns deps env service originIds (Calls.start fs) turns
    let s' := takeTurns deps env service originIds s later
    SameOrigin deps b s.world s'.world ∧
      ∀ (gateway : GatewayDeps) (hooks : Hooks) (server : RenderGatewayService)
        (request : RenderRequest) (resolved : Domains.ResolvedHost),
        server.resolver.resolve request.host = some resolved → resolved.originId = b →
        (sceneOf s'.world env hooks).value (server.handle gateway request) =
          (sceneOf s.world env hooks).value (server.handle gateway request) := by
  have hstart : OwnedCalls deps originIds (Calls.start fs) := fun i rest h => by cases h
  have howned := (@takeTurns_owned deps env service originIds turns _ hstart).1
  have hsame := (@takeTurns_owned deps env service originIds later _ howned).2 b hb hother
  refine ⟨hsame, fun gateway hooks server request resolved hres hid => ?_⟩
  exact value_of_sameOrigin hres (hid ▸ hsame)

/-- A refresh of `a`, begun after one that is under way for `b` and dropped at its second step. -/
theorem turns_isolated_two :
    let ids : Nat → Str := fun i => if i = 0 then "a".toList else "b".toList
    let s := takeTurns smallDeps calmEnv plainService ids (Calls.start .empty) [.next 1, .next 1]
    SameOrigin smallDeps "b".toList s.world
      (takeTurns smallDeps calmEnv plainService ids s [.next 0, .next 0, .drop 0]).world :=
  (turns_isolated smallDeps calmEnv plainService (fun i => if i = 0 then "a".toList else "b".toList)
    .empty [.next 1, .next 1] [.next 0, .next 0, .drop 0] rfl (by decide)).1

end RenderMesh.Refresh
