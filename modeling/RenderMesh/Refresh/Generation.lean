import RenderMesh.Core.Typestate
import RenderMesh.Refresh.Runs

/-!
# The generation protocol of a refresh

A refresh reads the stored generation of its origin, much later it writes the next
one, and after that it cannot fail. `generations` watches these steps;
`pipeline_follows` says that every path of the pipeline respects it, whatever the
storage, the file system and the other refreshes do in between.
-/
namespace RenderMesh.Refresh

open RenderMesh.Core RenderMesh.Mirror RenderMesh.Server RenderMesh.Cdn

/-- The generation stored for an origin, 0 while nothing is. -/
def generationOf (w : World) (id : Str) : Nat := ((w.originRuntime id).map (·.generation)).getD 0

/-- How far a refresh has come: before it has read the generation, with the number
`g` of the generation that it will activate, and after it stored that. -/
inductive Phase where
  | staging
  | numbered (g : Nat)
  | activated (g : Nat)

def Phase.isActivated : Phase → Bool
  | .activated _ => true
  | _ => false

/-- A snapshot is stored once, with the generation that follows the one read. -/
def generations (id : Str) : Protocol Op Op.Res Phase where
  allows
    | .numbered g, .setSnapshot snapshot => snapshot.originId = id ∧ snapshot.generation = g
    | _, .setSnapshot _ => False
    | _, _ => True
  next
    | .activated g, _, _ => .activated g
    | .numbered g, .setSnapshot _, _ => .activated g
    | q, .originSnapshot id', snapshot =>
      if id' = id then .numbered ((snapshot.map fun snapshot => snapshot.generation + 1).getD 1) else q
    | q, _, _ => q

/-- Only an activated refresh returns, and it returns its generation. -/
def Settles : Phase → Except Error OriginSyncResponse → Prop
  | .activated g, .ok response => response.generation = g
  | .activated _, .error _ => False
  | _, .ok _ => False
  | _, .error _ => True

theorem settles_error {q : Phase} (hq : q.isActivated = false) (e : Error) : Settles q (.error e) := by
  cases q <;> trivial

variable {deps : Deps} {id : Str}

/-- Code that writes no snapshot may run before an activation. -/
theorem within_follows {ε α : Type} {dir : List Name} {m : Prog Op Op.Res ε α}
    (hm : m.Uses (Op.Within dir)) {q : Phase} (hq : q.isActivated = false) :
    m.Follows (generations id) (fun q' _ => q'.isActivated = false) q := by
  refine Prog.follows_of_uses (fun o ho q hq => ?_) hm hq
  cases q with
  | activated g => cases hq
  | staging =>
    cases o with
    | originSnapshot id' =>
      refine ⟨trivial, fun r => ?_⟩
      simp only [generations]
      split <;> rfl
    | setSnapshot s => exact False.elim ho
    | _ => exact ⟨trivial, fun _ => rfl⟩
  | numbered g =>
    cases o with
    | originSnapshot id' =>
      refine ⟨trivial, fun r => ?_⟩
      simp only [generations]
      split <;> rfl
    | setSnapshot s => exact False.elim ho
    | _ => exact ⟨trivial, fun _ => rfl⟩

/-- Code that writes no snapshot changes nothing after an activation. -/
theorem activated_follows {ε α : Type} {m : Prog Op Op.Res ε α}
    (hm : m.Uses fun o => ∀ snapshot, o ≠ .setSnapshot snapshot) (g : Nat) :
    m.Follows (generations id) (fun q _ => q = Phase.activated g) (.activated g) := by
  refine Prog.follows_of_uses (J := fun q => q = Phase.activated g) (fun o ho q hq => ?_) hm rfl
  subst hq
  cases o with
  | setSnapshot s => exact absurd rfl (ho s)
  | _ => exact ⟨trivial, fun _ => rfl⟩

/-- The CDN phase returns, and stores no snapshot. -/
theorem refreshCdn_follows (id' : Str) (generation : Nat) (diff : OriginFreshnessDiff)
    (cdn : Option OriginCdnRefresh) (g : Nat) :
    (refreshCdn id' generation diff cdn).Follows (generations id)
      (fun q out => q = .activated g ∧ ∃ r, out = .ok r) (.activated g) := by
  cases cdn with
  | none => exact ⟨rfl, _, rfl⟩
  | some cdn =>
    have hpurge : (refreshAfterActivation cdn id' generation diff).Uses fun o =>
        ∀ snapshot, o ≠ .setSnapshot snapshot := by
      unfold refreshAfterActivation
      split
      · trivial
      · refine Prog.uses_bind (uses_call fun s h => by cases h) fun r => ?_
        cases r <;> trivial
    refine Prog.follows_bind (Prog.follows_attempt ((activated_follows hpurge g).mono fun q out hq =>
      ⟨by simp, fun result _ => ?_⟩))
    subst hq
    cases result with
    | ok outcome =>
      cases outcome with
      | none => exact ⟨rfl, _, rfl⟩
      | some outcome => exact ⟨trivial, fun _ => ⟨rfl, _, rfl⟩⟩
    | error e =>
      have hreport : (Prog.Follows (generations id) (fun q out => q = Phase.activated g ∧
          ∃ r, out = .ok r) (.activated g) (do
            call (.setCdnError id' e.message)
            pure none : Async (Option OriginSyncCdnResponse))) :=
        ⟨trivial, fun _ => ⟨rfl, _, rfl⟩⟩
      dsimp only
      split
      · split
        · exact hreport
        · exact ⟨trivial, fun _ => hreport⟩
      · exact hreport

/-- An activation stores the snapshot it was given, or fails before. -/
theorem activate_follows {staged : StagedOriginSync} {config : EdgeConfig} {registry : Registry}
    {snapshot : OriginSnapshotDebug} (hid : snapshot.originId = id) :
    (activate deps id staged config registry snapshot).Follows (generations id)
      (fun q out => match out with
        | .ok _ => q = .activated snapshot.generation
        | .error _ => q.isActivated = false) (.numbered snapshot.generation) := by
  have hswap : (activateStagedOrigin deps staged).Follows (generations id)
      (fun q _ => q = Phase.numbered snapshot.generation) (.numbered snapshot.generation) := by
    refine Prog.follows_of_uses (J := fun q => q = Phase.numbered snapshot.generation)
      (fun o ho q hq => ?_) (activateStagedOrigin_files staged) rfl
    subst hq
    cases o with
    | fs o => exact ⟨trivial, fun _ => rfl⟩
    | now => exact ⟨trivial, fun _ => rfl⟩
    | _ => exact False.elim ho
  refine Prog.follows_bind (hswap.mono fun q out hq => ?_)
  subst hq
  refine ⟨fun e _ => rfl, fun _ _ => ?_⟩
  refine Prog.follows_perform_bind trivial fun _ => ?_
  refine Prog.follows_perform_bind trivial fun _ => ?_
  refine Prog.follows_perform_bind trivial fun _ => ?_
  exact ⟨⟨hid, rfl⟩, fun _ => rfl⟩

/-- What follows the checks: the generation is read, the snapshot stored, and the
response has its generation. -/
theorem activateSnapshot_follows (cdn : Option OriginCdnRefresh) (staged : StagedOriginSync)
    (config : EdgeConfig) (registry : Registry) {q : Phase} (hq : q.isActivated = false) :
    (activateSnapshot deps id cdn staged config registry).Follows (generations id) Settles q := by
  have hread : ∀ current, (generations id).next q (.originSnapshot id) current =
      .numbered ((current.map fun snapshot => snapshot.generation + 1).getD 1) := by
    intro current
    cases q with
    | activated g => cases hq
    | _ => exact if_pos rfl
  refine Prog.follows_perform_bind (by cases q <;> trivial) fun current => ?_
  rw [hread]
  refine Prog.follows_perform_bind trivial fun now => ?_
  have hactivate := @activate_follows deps id staged config registry (newSnapshot deps id
    ((current.map fun snapshot => snapshot.generation + 1).getD 1) (deps.rfc3339 now) staged) rfl
  refine Prog.follows_bind (hactivate.mono fun q out hout => ?_)
  cases out with
  | error e => exact ⟨fun e _ => settles_error hout e, by simp⟩
  | ok u =>
    subst hout
    refine ⟨by simp, fun _ _ => ?_⟩
    refine Prog.follows_bind ((refreshCdn_follows _ _ _ _ _).mono fun q out hq => ?_)
    obtain ⟨rfl, r, rfl⟩ := hq
    exact ⟨by simp, fun _ _ => rfl⟩

/-- Every path of a refresh respects the protocol. -/
theorem pipeline_follows (service : OriginRefreshService) :
    (pipeline deps service id).Follows (generations id) Settles .staging := by
  have hfs : ∀ o : FsOp, Op.Within [] (.fs o) := fun _ _ _ => Or.inl List.nil_prefix
  refine Prog.follows_perform_bind trivial fun previous => ?_
  refine Prog.follows_bind ((within_follows (stageOriginSync_within deps id previous) rfl).mono
    fun q out hq => ⟨fun e _ => settles_error hq e, fun staged _ => ?_⟩)
  have hreads : (prepareActivation deps id previous staged (service.activationBarrier id)).Uses
      (Op.Within []) := (prepareActivation_reads deps id previous staged _).mono fun o ho => ho.within []
  refine Prog.follows_bind (Prog.follows_attempt ((within_follows hreads hq).mono fun q out hq =>
    ⟨by simp, fun preparation _ => ?_⟩))
  cases preparation with
  | error e =>
    have hdiscard : (discardStagedOrigin deps staged).Uses (Op.Within []) :=
      uses_ioUnlessNotFound (hfs _) _
    refine Prog.follows_bind (Prog.follows_attempt ((within_follows hdiscard hq).mono fun q out hq =>
      ⟨by simp, fun cleanup _ => ?_⟩))
    cases cleanup <;> exact settles_error hq _
  | ok prepared => exact activateSnapshot_follows _ _ _ _ hq

end RenderMesh.Refresh
