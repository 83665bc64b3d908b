import RenderMesh.Core.Typestate
import RenderMesh.Refresh.Neighbours

/-!
# The order in which a refresh replaces an origin

An activation renames the mirror away and the staged one into its place, then replaces the edge
configuration, then the templates. `SiteStage` says how many of these steps a refresh has taken, by its
answered operations alone, and `stages` watches them; `refresh_stages` says that every path of
`refresh_origin_snapshot` respects the order and that a refresh which returns has taken them all.

* `kept_step`: what one step leaves, by the stages before and after it. A part of the origin is the
  old one up to a stage (`SitePart.until`), and the new one from a stage on (`SitePart.since`).
-/
namespace RenderMesh.Refresh

open RenderMesh.Core RenderMesh.Mirror RenderMesh.Server RenderMesh.Cdn RenderMesh.Gateway

/-! ## Stages -/

/-- How far a refresh has come with replacing its origin. -/
inductive SiteStage where
  | before
  /-- The mirror has been renamed to its backup. -/
  | away
  /-- A directory has been renamed to the mirror's place. -/
  | placed
  /-- The edge configuration has been replaced. -/
  | configured
  /-- The templates have been replaced. -/
  | replaced
  deriving DecidableEq, Repr

def SiteStage.rank : SiteStage → Nat
  | .before => 0
  | .away => 1
  | .placed => 2
  | .configured => 3
  | .replaced => 4

instance : LE SiteStage := ⟨fun q q' => q.rank ≤ q'.rank⟩

instance (q q' : SiteStage) : Decidable (q ≤ q') := inferInstanceAs (Decidable (q.rank ≤ q'.rank))

theorem SiteStage.le_refl (q : SiteStage) : q ≤ q := Nat.le_refl _

theorem SiteStage.le_trans {a b c : SiteStage} (h : a ≤ b) (h' : b ≤ c) : a ≤ c := Nat.le_trans h h'

/-- The stage after an operation of a refresh of `id` was answered. -/
def SiteStage.next (id : Str) : SiteStage → (o : Op) → o.Res → SiteStage
  | .before, .fs (.rename a b), .ok _ => if a = id then .away else if b = id then .placed else .before
  | .away, .fs (.rename _ b), .ok _ => if b = id then .placed else .away
  | .placed, .setValid _ _, _ => .configured
  | .configured, .setOriginRegistry _ _, _ => .replaced
  | q, _, _ => q

/-- The operation changes nothing of the origin's mirror, configuration or templates. -/
def Untouching (id : Str) : Op → Prop
  | .fs o => ∀ x, names id <+: x → ¬ o.Writes x
  | .setValid _ _ | .setOriginRegistry _ _ => False
  | _ => True

/-- What a refresh of `id` may do at each stage. -/
def stages (id : Str) : Protocol Op Op.Res SiteStage where
  allows
    | .before, .fs (.rename a b) => a = id ∨ b = id ∨ Untouching id (.fs (.rename a b))
    | .away, .fs (.rename _ _) => True
    | .placed, .setValid _ _ => True
    | .configured, .setOriginRegistry _ _ => True
    | _, o => Untouching id o
  next := SiteStage.next id

/-! ## Every refresh -/

section
variable {id : Str}

theorem untouching_next {o : Op} (ho : Untouching id o) (q : SiteStage) :
    (stages id).allows q o ∧ ∀ r, (stages id).next q o r = q := by
  cases o with
  | fs o =>
    cases o with
    | rename a b =>
      have ha : a ≠ id := fun h => ho _ List.prefix_rfl (Or.inl (by rw [h]))
      have hb : b ≠ id := fun h => ho _ List.prefix_rfl (Or.inr (by rw [h]))
      refine ⟨?_, fun r => ?_⟩
      · cases q <;> first | exact Or.inr (Or.inr ho) | trivial
      · cases q <;> cases r <;> simp [stages, SiteStage.next, ha, hb]
    | _ => exact ⟨by cases q <;> exact ho, fun r => by cases q <;> rfl⟩
  | setValid id' config => exact False.elim ho
  | setOriginRegistry id' registry => exact False.elim ho
  | _ => exact ⟨by cases q <;> trivial, fun r => by cases q <;> rfl⟩

theorem untouching_follows {ε α : Type} {m : Prog Op Op.Res ε α} (hm : m.Uses (Untouching id))
    (q : SiteStage) : m.Follows (stages id) (fun q' _ => q' = q) q := by
  refine Prog.follows_of_uses (J := fun q' => q' = q) (fun o ho q' hq => ?_) hm rfl
  subst hq
  exact untouching_next ho q'

/-- Code that touches nothing comes before code that follows the order. -/
theorem follows_after {α β : Type} {post : SiteStage → Except Error β → Prop} {m : Async α}
    {f : α → Async β} {q : SiteStage} (hm : m.Uses (Untouching id)) (herr : ∀ e, post q (.error e))
    (hf : ∀ a, (f a).Follows (stages id) post q) : (m >>= f).Follows (stages id) post q := by
  refine Prog.follows_bind ((untouching_follows hm q).mono fun q' out hq => ?_)
  subst hq
  exact ⟨fun e _ => herr e, fun a _ => hf a⟩

theorem follows_ioContext {post : SiteStage → Except Error Unit → Prop} {a b : PathBuf} {context : Str}
    {q : SiteStage} (ho : (stages id).allows q (.fs (.rename a b)))
    (hok : post (SiteStage.next id q (.fs (.rename a b)) (.ok ())) (.ok ()))
    (herr : ∀ e, post q (.error e)) :
    (ioContext (.rename a b) context).Follows (stages id) post q := by
  refine ⟨ho, fun r => ?_⟩
  cases r with
  | ok u => exact hok
  | error e =>
    have hnext : (stages id).next q (.fs (.rename a b)) (.error e) = q := by cases q <;> rfl
    rw [hnext]
    exact herr _

variable {deps : Deps}

theorem untouching_of_reads {o : Op} (ho : o.Reads) : Untouching id o := by
  cases o with
  | fs o => exact fun x _ => ho x
  | setValid id' config => exact False.elim ho
  | setOriginRegistry id' registry => exact False.elim ho
  | _ => trivial

variable (hid : validateOriginId id = .ok ())
include hid

theorem untouching_of_staged {o : Op} (ho : Staged o) : Untouching id o := by
  cases o with
  | fs o =>
    intro x hx hw
    rcases ho x hw with h | h
    · exact origin_not_prefix_staging hid h hx
    · exact origin_not_prefix_staging hid List.prefix_rfl (hx.trans h)
  | setValid id' config => exact False.elim ho
  | setOriginRegistry id' registry => exact False.elim ho
  | _ => trivial

theorem removeBackup_untouching (now : Nat) :
    (removeDirIfExists deps (backupPath id now)).Uses (Untouching id) :=
  uses_ioUnlessNotFound (fun _ hx hw => origin_not_prefix_backup hid hw hx) _

omit hid in
/-- A mirror to replace is moved away first. -/
theorem moveAway_stages (hadOrigin : Bool) (now : Nat) (context : Str) :
    (onlyIf hadOrigin (ioContext (.rename id (backupPath id now)) context)).Follows (stages id)
      (fun q _ => q = SiteStage.before ∨ q = .away) .before := by
  cases hadOrigin with
  | false => exact Or.inl rfl
  | true => exact follows_ioContext (Or.inl rfl) (Or.inr (if_pos rfl)) fun _ => Or.inl rfl

theorem swapOriginDir_stages (t : Nat) :
    (swapOriginDir deps id (stagingPath deps id t)).Follows (stages id)
      (fun q out => ∀ u, out = .ok u → q = .placed) .before := by
  have hstaging : stagingPath deps id t ≠ id := fun h =>
    origin_not_prefix_staging hid (stagingPath_inStaging deps hid t) (by rw [h])
  have hto : ∀ {q : SiteStage} (a : PathBuf), q = .before ∨ q = .away →
      (stages id).allows q (.fs (.rename a id)) := by
    rintro q a (rfl | rfl)
    · exact Or.inr (Or.inl rfl)
    · trivial
  rw [swapOriginDir, withParent, parent?_origin hid]
  refine follows_after (uses_ioContext (fun x hx hw => ?_) _) (by simp) fun _ => ?_
  · have hnil : names id <+: [] := hx.trans hw
    rw [names_origin hid] at hnil
    cases List.prefix_nil.mp hnil
  refine follows_after (uses_call trivial) (by simp) fun now => ?_
  refine follows_after (uses_io fun _ _ hw => False.elim hw) (by simp) fun r => ?_
  refine Prog.follows_bind ((moveAway_stages r.isOk now _).mono
    fun q out hq => ⟨by simp, fun _ _ => ?_⟩)
  refine Prog.follows_perform_bind (hto _ hq) fun moved => ?_
  cases moved with
  | error error =>
    have hnext : (stages id).next q (.fs (.rename (stagingPath deps id t) id)) (.error error) = q := by
      cases q <;> rfl
    rw [hnext]
    have hrestore : (onlyIf r.isOk (ioContext (.rename (backupPath id now) id)
        ("restore old mirror ".toList ++ deps.display id))).Follows (stages id) (fun _ _ => True) q := by
      unfold onlyIf
      split
      · exact follows_ioContext (hto _ hq) trivial fun _ => trivial
      · trivial
    exact Prog.follows_bind (hrestore.mono fun _ _ _ => ⟨by simp, fun _ _ => by simp [Prog.Follows]⟩)
  | ok u =>
    have hnext : (stages id).next q (.fs (.rename (stagingPath deps id t) id)) (.ok u) = .placed := by
      rcases hq with rfl | rfl <;> simp [stages, SiteStage.next, hstaging]
    rw [hnext]
    exact (untouching_follows (removeBackup_untouching hid now) _).mono fun q out hq _ _ => hq

theorem activateStagedOrigin_stages {staged : StagedOriginSync} {t : Nat} (hstaged : staged.originId = id)
    (hdir : staged.stagingDir = stagingPath deps id t) :
    (activateStagedOrigin deps staged).Follows (stages id)
      (fun q out => ∀ u, out = .ok u → q = .placed) .before := by
  rw [activateStagedOrigin, hstaged, hdir, originDir_ok_iff.mpr ⟨rfl, hid⟩]
  refine Prog.follows_bind (m := (swapOriginDir deps id (stagingPath deps id t)).attempt)
    (Prog.follows_attempt ((swapOriginDir_stages hid t).mono
      fun q out hq => ⟨by simp, fun result hresult => ?_⟩))
  cases result with
  | ok u =>
    cases hresult
    exact fun _ _ => hq u rfl
  | error e =>
    refine follows_after (uses_ioUnlessNotFound (fun x hx hw => ?_) _) (by simp) fun _ => by
      simp [Prog.Follows]
    exact origin_not_prefix_staging hid ((stagingPath_inStaging deps hid t).trans hw) hx

theorem activate_stages {staged : StagedOriginSync} {t : Nat} (hstaged : staged.originId = id)
    (hdir : staged.stagingDir = stagingPath deps id t) (config : EdgeConfig) (registry : Registry)
    (snapshot : OriginSnapshotDebug) :
    (activate deps id staged config registry snapshot).Follows (stages id)
      (fun q out => ∀ u, out = .ok u → q = .replaced) .before := by
  refine Prog.follows_bind ((activateStagedOrigin_stages hid hstaged hdir).mono
    fun q out hq => ⟨by simp, fun u hu => ?_⟩)
  obtain rfl := hq u hu
  refine Prog.follows_perform_bind trivial fun _ => Prog.follows_perform_bind trivial fun _ => ?_
  refine follows_after (uses_call trivial) (by simp) fun _ => ?_
  exact ⟨trivial, fun _ _ _ => rfl⟩

omit hid in
theorem refreshCdn_untouching (generation : Nat) (diff : OriginFreshnessDiff)
    (cdn : Option OriginCdnRefresh) :
    (refreshCdn id generation diff cdn).Uses (Untouching id) := by
  cases cdn with
  | none => trivial
  | some cdn =>
    refine Prog.uses_bind (Prog.uses_attempt ?_) fun result => ?_
    · unfold refreshAfterActivation
      split
      · trivial
      · refine Prog.uses_bind (uses_call trivial) fun r => ?_
        cases r <;> trivial
    · cases result with
      | error error =>
        refine Prog.uses_bind ?_ fun _ => Prog.uses_bind (uses_call trivial) fun _ => trivial
        cases error.cdn with
        | none => trivial
        | some failure =>
          simp only
          split
          · trivial
          · exact uses_call trivial
      | ok outcome =>
        cases outcome with
        | none => trivial
        | some outcome => exact Prog.uses_bind (uses_call trivial) fun _ => trivial

theorem activateSnapshot_stages {staged : StagedOriginSync} {t : Nat} (hstaged : staged.originId = id)
    (hdir : staged.stagingDir = stagingPath deps id t) (cdn : Option OriginCdnRefresh)
    (config : EdgeConfig) (registry : Registry) :
    (activateSnapshot deps id cdn staged config registry).Follows (stages id)
      (fun q out => ∀ response, out = .ok response → q = .replaced) .before := by
  refine follows_after (uses_call trivial) (by simp) fun current => ?_
  refine follows_after (uses_call trivial) (by simp) fun now => ?_
  refine Prog.follows_bind ((activate_stages hid hstaged hdir config registry _).mono
    fun q out hq => ⟨by simp, fun u hu => ?_⟩)
  obtain rfl := hq u hu
  exact follows_after (refreshCdn_untouching _ _ _) (by simp) fun _ _ _ => rfl

omit hid in
/-- Every path of a refresh takes the steps in their order, and one that returns took them all. -/
theorem refresh_stages (id : Str) (cdn : Option OriginCdnRefresh) (barrier : Option Str) :
    (refreshOriginSnapshot deps id cdn barrier).Follows (stages id)
      (fun q out => ∀ response, out = .ok response → q = .replaced) .before := by
  refine follows_after (uses_call trivial) (by simp) fun previous => ?_
  have hstage : (stageOriginSync deps id previous).Uses (Untouching id) :=
    (stageOriginSync_own deps id previous).mono fun o ⟨hid, t, ho⟩ =>
      untouching_of_staged hid (within_mono (stagingPath_inStaging deps hid t) ho)
  refine Prog.follows_bind (((untouching_follows hstage _).and_gives
    (stageOriginSync_gives deps id previous)).mono fun q out hq => ⟨by simp, fun staged hstaged => ?_⟩)
  obtain ⟨rfl, hgives⟩ := hq
  obtain ⟨hid, horigin, t, hdir⟩ := hgives staged hstaged
  refine follows_after (Prog.uses_attempt ((prepareActivation_reads deps id previous staged _).mono
    fun o ho => untouching_of_reads ho)) (by simp) fun preparation => ?_
  cases preparation with
  | ok prepared => exact activateSnapshot_stages hid horigin hdir _ _ _
  | error error =>
    refine follows_after (Prog.uses_attempt (uses_ioUnlessNotFound (fun x hx hw => ?_) _)) (by simp)
      fun cleanup => ?_
    · rw [hdir] at hw
      exact origin_not_prefix_staging hid ((stagingPath_inStaging deps hid t).trans hw) hx
    · cases cleanup <;> simp [Prog.Follows]

end

/-! ## What a step leaves -/

/-- The parts of an origin that an activation replaces one after the other. -/
inductive SitePart where
  | files
  | edgeConfig
  | templates
  deriving DecidableEq, Repr

/-- The last stage at which the part is still the old one. -/
def SitePart.until : SitePart → SiteStage
  | .files => .before
  | .edgeConfig => .placed
  | .templates => .configured

/-- The first stage at which the part is the new one. -/
def SitePart.since : SitePart → SiteStage
  | .files => .placed
  | .edgeConfig => .configured
  | .templates => .replaced

/-- The part of the origin `id` is the same. -/
def SamePart (id : Str) (w w' : World) : SitePart → Prop
  | .files => ∀ x, names id <+: x → w'.fs.lookup x = w.fs.lookup x
  | .edgeConfig => w'.edgeConfigs id = w.edgeConfigs id
  | .templates => w'.templates id = w.templates id

theorem SamePart.refl (id : Str) (w : World) (part : SitePart) : SamePart id w w part := by
  cases part <;> simp [SamePart]

theorem SamePart.symm {id : Str} {w w' : World} {part : SitePart} (h : SamePart id w w' part) :
    SamePart id w' w part := by
  cases part with
  | files => exact fun x hx => (h x hx).symm
  | edgeConfig => exact Eq.symm h
  | templates => exact Eq.symm h

theorem SamePart.trans {id : Str} {a b c : World} {part : SitePart} (h : SamePart id a b part)
    (h' : SamePart id b c part) : SamePart id a c part := by
  cases part with
  | files => exact fun x hx => (h' x hx).trans (h x hx)
  | edgeConfig => exact Eq.trans h' h
  | templates => exact Eq.trans h' h

/-- What is left while a refresh of `id` comes from the stage `q` to the stage `q'`. -/
structure KeptParts (id : Str) (q q' : SiteStage) (w w' : World) : Prop where
  own : ∀ part : SitePart, q' ≤ part.until ∨ part.since ≤ q → SamePart id w w' part
  others : ∀ b, b ≠ id → ∀ part, (part = .files → validateOriginId b = .ok ()) →
    SamePart b w w' part

theorem KeptParts.refl (id : Str) (q q' : SiteStage) (w : World) : KeptParts id q q' w w :=
  ⟨fun part _ => SamePart.refl id w part, fun b _ part _ => SamePart.refl b w part⟩

theorem KeptParts.trans {id : Str} {q1 q2 q3 : SiteStage} {a b c : World} (h12 : q1 ≤ q2) (h23 : q2 ≤ q3)
    (h : KeptParts id q1 q2 a b) (h' : KeptParts id q2 q3 b c) : KeptParts id q1 q3 a c where
  own part hpart := (h.own part (hpart.imp_left (SiteStage.le_trans h23))).trans
    (h'.own part (hpart.imp_right fun hp => SiteStage.le_trans hp h12))
  others x hx part hvalid := (h.others x hx part hvalid).trans (h'.others x hx part hvalid)

section
variable {deps : Deps} {env : Env} {id : Str}

theorem samePart_of_untouching {o : Op} (ho : Untouching id o) (w : World) (part : SitePart) :
    SamePart id w (step deps env o w).2 part := by
  cases o with
  | fs o =>
    cases part with
    | files => exact fun x hx => o.step_frame env.long _ w.fs (ho x hx)
    | _ => rfl
  | setValid id' config => exact False.elim ho
  | setOriginRegistry id' registry => exact False.elim ho
  | _ => exact SamePart.refl id w part

/-- A rename that is refused moves nothing. -/
theorem rename_refused {a b : PathBuf} {e : IoErr} {w : World}
    (h : (step deps env (.fs (.rename a b)) w).1 = some (.error e)) :
    (step deps env (.fs (.rename a b)) w).2.fs = w.fs := by
  simp only [step, FsOp.step] at h ⊢
  split at h
  · exact FileTree.rename_error env.long (Prod.ext (Option.some.inj h) rfl)
  · rfl
  · cases h
  · cases h

theorem owned_others {o : Op} (ho : Owned deps id o) (w : World) {b : Str} (hb : b ≠ id)
    {part : SitePart} (hvalid : part = .files → validateOriginId b = .ok ()) :
    SamePart b w (step deps env o w).2 part := by
  cases part with
  | files => exact fun x hx => (step_other (hvalid rfl) (Ne.symm hb) ho w).files x (Or.inl hx)
  | edgeConfig =>
    cases o with
    | setValid id' config =>
      obtain rfl : id' = id := ho
      exact Function.update_of_ne hb _ _
    | _ => rfl
  | templates =>
    cases o with
    | setOriginRegistry id' registry =>
      obtain rfl : id' = id := ho
      exact Function.update_of_ne hb _ _
    | _ => rfl

/-- A step of a refresh keeps each part that its stages tell. -/
theorem kept_step {o : Op} {r : o.Res} {q : SiteStage} {w : World} (ho : Owned deps id o)
    (hallows : (stages id).allows q o) (hr : (step deps env o w).1 = some r) :
    q ≤ q.next id o r ∧ KeptParts id q (q.next id o r) w (step deps env o w).2 := by
  suffices h : q ≤ q.next id o r ∧ ∀ part : SitePart,
      q.next id o r ≤ part.until ∨ part.since ≤ q → SamePart id w (step deps env o w).2 part from
    ⟨h.1, h.2, fun b hb part hvalid => owned_others ho w hb hvalid⟩
  by_cases hu : Untouching id o
  · rw [show q.next id o r = q from (untouching_next hu q).2 r]
    exact ⟨SiteStage.le_refl q, fun part _ => samePart_of_untouching hu w part⟩
  cases o with
  | fs o =>
    cases o with
    | rename a b =>
      have hstores : ∀ part : SitePart, part ≠ .files →
          SamePart id w (step deps env (.fs (.rename a b)) w).2 part := by
        intro part hpart
        cases part with
        | files => exact absurd rfl hpart
        | _ => rfl
      -- a refused rename leaves the stage and the files
      cases r with
      | error e =>
        have hnext : q.next id (.fs (.rename a b)) (.error e) = q := by cases q <;> rfl
        rw [hnext]
        refine ⟨SiteStage.le_refl q, fun part _ => ?_⟩
        cases part with
        | files => exact fun x _ => by rw [rename_refused hr]
        | _ => rfl
      | ok u =>
        have hfiles : ∀ {q' : SiteStage}, ¬ (q' ≤ SitePart.files.until ∨ SitePart.files.since ≤ q) →
            ∀ part : SitePart, q' ≤ part.until ∨ part.since ≤ q →
              SamePart id w (step deps env (.fs (.rename a b)) w).2 part := by
          intro q' hno part hpart
          refine hstores part ?_
          rintro rfl
          exact hno hpart
        cases q with
        | before =>
          have hnext : SiteStage.before.next id (.fs (.rename a b)) (.ok u) = .away ∨
              SiteStage.before.next id (.fs (.rename a b)) (.ok u) = .placed := by
            rcases hallows with rfl | rfl | h
            · exact Or.inl (if_pos rfl)
            · by_cases ha : a = b
              · exact Or.inl (if_pos ha)
              · exact Or.inr ((if_neg ha).trans (if_pos rfl))
            · exact absurd h hu
          rcases hnext with h | h <;> rw [h] <;> exact ⟨by decide, hfiles (by decide)⟩
        | away =>
          have hnext : SiteStage.away.next id (.fs (.rename a b)) (.ok u) = .placed ∨
              SiteStage.away.next id (.fs (.rename a b)) (.ok u) = .away := by
            by_cases hb : b = id
            · exact Or.inl (if_pos hb)
            · exact Or.inr (if_neg hb)
          rcases hnext with h | h <;> rw [h] <;> exact ⟨by decide, hfiles (by decide)⟩
        | _ => exact absurd hallows hu
    | _ => cases q <;> exact absurd hallows hu
  | setValid id' config =>
    cases q with
    | placed =>
      have hnext : SiteStage.placed.next id (.setValid id' config) r = .configured := rfl
      rw [hnext]
      refine ⟨by decide, fun part hpart => ?_⟩
      cases part with
      | files => exact fun _ _ => rfl
      | edgeConfig => exact absurd hpart (by decide)
      | templates => rfl
    | _ => exact absurd hallows hu
  | setOriginRegistry id' registry =>
    cases q with
    | configured =>
      have hnext : SiteStage.configured.next id (.setOriginRegistry id' registry) r = .replaced := rfl
      rw [hnext]
      refine ⟨by decide, fun part hpart => ?_⟩
      cases part with
      | files => exact fun _ _ => rfl
      | edgeConfig => rfl
      | templates => exact absurd hpart (by decide)
    | _ => exact absurd hallows hu
  | _ => exact absurd trivial hu

end

end RenderMesh.Refresh
