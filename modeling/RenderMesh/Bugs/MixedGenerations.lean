import RenderMesh.Gateway.Reachable
import RenderMesh.Refresh.Stages

/-!
# Requests while a refresh activates

Behaviour (`src/src/repositories/sync.rs:290-323`, `src/src/services/origin_refresh.rs:347-353`): an
activation renames the mirror away, renames the staged directory into its place, and then replaces
the edge configuration and the templates, each on its own. A request reads the configuration, the
files and the templates one after the other, and nothing keeps a generation for it.

Documented (`docs/superpowers/specs/2026-05-22-origin-freshness-index-design.md`): "When a refresh
succeeds, RenderMesh builds a new snapshot and swaps the active `Arc` for that origin. In-flight
requests can finish using the previous snapshot while new requests use the new snapshot."

Counterexample: a second refresh finds nothing changed. `GET /a` comes between its two renames and
is answered with 404, where both generations have the object (`request_between_renames`).

Condition: `one_generation`. All steps of a request fall where the parts of the origin that they look
at have not been replaced yet, or all of them fall where these parts have been replaced: a file
before the mirror is moved away, or when the new one is in its place; the edge configuration before,
or after, it is replaced; the templates likewise.
-/
namespace RenderMesh.Bugs.MixedGenerations

open RenderMesh.Core RenderMesh.Mirror RenderMesh.Server RenderMesh.Domains RenderMesh.Gateway
open RenderMesh.Refresh

/-! ## Interleavings -/

/-- A refresh and the requests that come meanwhile, by number, each with what is left of its code;
`none` when its caller went away. -/
structure Traffic where
  world : World
  refresh : Option (Async OriginSyncResponse)
  request : Nat → Option (Handling RenderResponse)

/-- Who takes the next step. -/
inductive Move where
  | refresh
  | request (i : Nat)
  deriving DecidableEq

section
variable (deps : GatewayDeps) (env : Env) (hooks : Nat → Hooks)

def takeMove (s : Traffic) : Move → Traffic
  | .refresh =>
    match s.refresh with
    | some (.op o k) =>
      let r := step deps.toDeps env o s.world
      { s with world := r.2, refresh := r.1.map k }
    | _ => s
  | .request i =>
    match s.request i with
    | some (.op o k) =>
      let r := gatewayStep deps.toDeps env (hooks i) o s.world
      { s with world := r.2, request := Function.update s.request i (r.1.map k) }
    | _ => s

def takeMoves (s : Traffic) (moves : List Move) : Traffic := moves.foldl (takeMove deps env hooks) s

end

/-- A refresh of `id` is about to begin, and no request has taken a step. -/
def Traffic.start (deps : GatewayDeps) (service : RenderGatewayService) (requests : Nat → RenderRequest)
    (id : Str) (cdn : Option OriginCdnRefresh) (barrier : Option Str) (w : World) : Traffic where
  world := w
  refresh := some (refreshOriginSnapshot deps.toDeps id cdn barrier)
  request := fun i => some (service.handle deps (requests i))

/-- The response that the request is given by the files, the configuration and the templates of one
generation alone. -/
def GivenBy (deps : GatewayDeps) (env : Env) (hooks : Hooks) (service : RenderGatewayService)
    (request : RenderRequest) (w : World) (response : RenderResponse) : Prop :=
  (sceneOf w env hooks).value (service.handle deps request) = .ok response

/-! ## What a step looks at -/

/-- What the step looks at is as it is in `w0`, and the disk answers. -/
def AsIn (env : Env) (w0 w : World) : GatewayOp → Prop
  | .server (.fs (.read p)) => env.fault w.clock (.read p) = .none ∧
      ∀ q, q <+: names p → w.fs.lookup q = w0.fs.lookup q
  | .server (.fs (.metadata p)) => env.fault w.clock (.metadata p) = .none ∧
      ∀ q, q <+: names p → w.fs.lookup q = w0.fs.lookup q
  | .server _ => False
  | .edgeConfig id => w.edgeConfigs id = w0.edgeConfigs id
  | .hook _ _ _ => True
  | .originTemplates id => w.templates id = w0.templates id

/-- In the run, what the steps of request `i` look at is as it is in `w0`. -/
def Sees (deps : GatewayDeps) (env : Env) (hooks : Nat → Hooks) (w0 : World) (i : Nat) :
    Traffic → List Move → Prop
  | _, [] => True
  | s, move :: moves =>
    (move = .request i → ∀ o k, s.request i = some (.op o k) → AsIn env w0 s.world o) ∧
      Sees deps env hooks w0 i (takeMove deps env hooks s move) moves

section
variable {deps : GatewayDeps} {env : Env}

theorem answer_asIn {hooks : Hooks} {w0 w : World} {o : GatewayOp} (h : AsIn env w0 w o) :
    ∃ r, (gatewayStep deps.toDeps env hooks o w).1 = some r ∧
      (sceneOf w0 env hooks).answer o = some r := by
  cases o with
  | server o =>
    cases o with
    | fs o =>
      cases o with
      | read p =>
        obtain ⟨hfault, hsame⟩ := h
        refine ⟨_, ?_, rfl⟩
        simp [gatewayStep, step, FsOp.step, hfault, sceneOf, FsOp.exec, FileTree.readFile,
          FileTree.stat_congr env.long hsame]
      | metadata p =>
        obtain ⟨hfault, hsame⟩ := h
        refine ⟨_, ?_, rfl⟩
        simp [gatewayStep, step, FsOp.step, hfault, sceneOf, FsOp.exec, FileTree.metadata,
          FileTree.stat_congr env.long hsame]
      | _ => exact h.elim
    | _ => exact h.elim
  | edgeConfig id => exact ⟨_, congrArg some h, rfl⟩
  | hook i hook request => exact ⟨_, rfl, rfl⟩
  | originTemplates id => exact ⟨_, congrArg some h, rfl⟩

variable {hooks : Nat → Hooks}

/-- A step that finds things as in `w0` leaves the rest of the request with the same value there. -/
theorem value_takeMove {w0 : World} {i : Nat} {s : Traffic} {move : Move} {m : Handling RenderResponse}
    (hsees : move = .request i → ∀ o k, s.request i = some (.op o k) → AsIn env w0 s.world o)
    (hm : s.request i = some m) : ∃ m', (takeMove deps env hooks s move).request i = some m' ∧
      (sceneOf w0 env (hooks i)).value m' = (sceneOf w0 env (hooks i)).value m := by
  cases move with
  | refresh =>
    refine ⟨m, ?_, rfl⟩
    rw [takeMove]
    split <;> exact hm
  | request j =>
    by_cases hj : j = i
    · subst hj
      cases m with
      | ret response => exact ⟨_, by simp [takeMove, hm], rfl⟩
      | fail e => exact ⟨_, by simp [takeMove, hm], rfl⟩
      | op o k =>
        obtain ⟨r, hanswer, hscene⟩ := @answer_asIn deps env (hooks j) w0 s.world o (hsees rfl o k hm)
        refine ⟨k r, by simp [takeMove, hm, hanswer], ?_⟩
        simp only [eval, hscene]
    · refine ⟨m, ?_, rfl⟩
      rw [takeMove]
      split
      · simpa [Function.update_of_ne (Ne.symm hj)] using hm
      · exact hm

/-- A request that sees `w0` all along has the value that it has there. -/
theorem value_takeMoves {w0 : World} {i : Nat} {moves : List Move} {s : Traffic}
    {m : Handling RenderResponse} (hsees : Sees deps env hooks w0 i s moves) (hm : s.request i = some m) :
    ∃ m', (takeMoves deps env hooks s moves).request i = some m' ∧
      (sceneOf w0 env (hooks i)).value m' = (sceneOf w0 env (hooks i)).value m := by
  induction moves generalizing s m with
  | nil => exact ⟨m, hm, rfl⟩
  | cons move moves ih =>
    obtain ⟨m1, hm1, hvalue1⟩ := @value_takeMove deps env hooks w0 i s move m hsees.1 hm
    obtain ⟨m2, hm2, hvalue2⟩ := ih hsees.2 hm1
    exact ⟨m2, hm2, hvalue2.trans hvalue1⟩

theorem given_of_sees {service : RenderGatewayService} {requests : Nat → RenderRequest} {id : Str}
    {cdn : Option OriginCdnRefresh} {barrier : Option Str} {w w0 : World} {moves : List Move} {i : Nat}
    {response : RenderResponse}
    (hsees : Sees deps env hooks w0 i (.start deps service requests id cdn barrier w) moves)
    (hresponse : (takeMoves deps env hooks (.start deps service requests id cdn barrier w) moves).request i =
      some (.ret response)) : GivenBy deps env (hooks i) service (requests i) w0 response := by
  obtain ⟨m, hm, hvalue⟩ := value_takeMoves hsees rfl
  obtain rfl := Option.some.inj (hm.symm.trans hresponse)
  exact hvalue.symm

end

/-! ## Where a step falls -/

/-- The part of the origin `id` that a request looks at in a step. -/
def partOf (id : Str) : GatewayOp → Option SitePart
  | .server (.fs (.read p)) | .server (.fs (.metadata p)) =>
    if names id <+: names p then some .files else none
  | .edgeConfig id' => if id' = id then some .edgeConfig else none
  | .originTemplates id' => if id' = id then some .templates else none
  | _ => none

/-- The disk answers. -/
def Answers (env : Env) (w : World) : GatewayOp → Prop
  | .server (.fs o) => env.fault w.clock o = .none
  | _ => True

inductive Generation where
  | old
  | new

/-- At this stage of the refresh the part is of this generation. -/
def Generation.Has : Generation → SitePart → SiteStage → Prop
  | .old, part, q => q ≤ part.until
  | .new, part, q => part.since ≤ q

/-- What request `i` is about to look at in a move. -/
def Traffic.looks (s : Traffic) (i : Nat) : Move → Option GatewayOp
  | .refresh => none
  | .request j =>
    if j = i then
      match s.request i with
      | some (.op o _) => some o
      | _ => none
    else none

section
variable (deps : GatewayDeps) (env : Env) (hooks : Nat → Hooks) (id : Str)

/-- The stage of the refresh of `id` after a move. -/
def Traffic.stageAfter (s : Traffic) (q : SiteStage) : Move → SiteStage
  | .refresh =>
    match s.refresh with
    | some (.op o _) =>
      match (step deps.toDeps env o s.world).1 with
      | some r => q.next id o r
      | none => q
    | _ => q
  | .request _ => q

/-- From the stage `q` on, all steps of request `i` fall where what they look at is of the
generation `g`. -/
def StepsWithin (g : Generation) (i : Nat) : SiteStage → Traffic → List Move → Prop
  | _, _, [] => True
  | q, s, move :: moves =>
    (∀ o ∈ s.looks i move, Answers env s.world o ∧ ∀ part ∈ partOf id o, g.Has part q) ∧
      StepsWithin g i (s.stageAfter deps env id q move) (takeMove deps env hooks s move) moves

end

section
variable {env : Env}

instance (w : World) (o : GatewayOp) : Decidable (Answers env w o) :=
  match o with
  | .server (.fs o) => inferInstanceAs (Decidable (env.fault w.clock o = .none))
  | .server (.walk _ _) | .server (.listObjects _) | .server (.getObject _ _) | .server (.purge _)
  | .server .now | .server (.freshnessIndex _) | .server (.originTemplates _)
  | .server (.originSnapshot _) | .server (.setValid _ _) | .server (.setOriginRegistry _ _)
  | .server (.insertIndex _ _) | .server (.setSnapshot _) | .server (.setCdnResult _ _ _ _ _ _)
  | .server (.setCdnError _ _) | .edgeConfig _ | .hook _ _ _ | .originTemplates _ => isTrue trivial

instance (g : Generation) (part : SitePart) (q : SiteStage) : Decidable (g.Has part q) :=
  match g with
  | .old => inferInstanceAs (Decidable (q ≤ part.until))
  | .new => inferInstanceAs (Decidable (part.since ≤ q))

variable {deps : GatewayDeps} {hooks : Nat → Hooks} {id : Str}

instance decideStepsWithin (g : Generation) (i : Nat) : ∀ (moves : List Move) (q : SiteStage)
    (s : Traffic), Decidable (StepsWithin deps env hooks id g i q s moves)
  | [], _, _ => isTrue trivial
  | move :: moves, q, s =>
    have := decideStepsWithin g i moves (s.stageAfter deps env id q move) (takeMove deps env hooks s move)
    inferInstanceAs (Decidable ((∀ o ∈ s.looks i move, Answers env s.world o ∧
      ∀ part ∈ partOf id o, g.Has part q) ∧ StepsWithin deps env hooks id g i _ _ moves))

/-- A request that does not move takes its steps wherever it should. -/
theorem stepsWithin_of_waits {g : Generation} {i : Nat} {moves : List Move}
    (hwaits : Move.request i ∉ moves) (q : SiteStage) (s : Traffic) :
    StepsWithin deps env hooks id g i q s moves := by
  induction moves generalizing q s with
  | nil => trivial
  | cons move moves ih =>
    rw [List.mem_cons, not_or] at hwaits
    refine ⟨fun o ho => ?_, ih hwaits.2 _ _⟩
    cases move with
    | refresh => cases ho
    | request j =>
      have hj : j ≠ i := fun h => hwaits.1 (by rw [h])
      rw [Traffic.looks, if_neg hj] at ho
      cases ho

/-! ## What a run keeps -/

/-- All that request `i` may still do satisfies `P`. -/
def Bound (P : GatewayOp → Prop) (s : Traffic) (i : Nat) : Prop :=
  ∀ m, s.request i = some m → m.Uses P

theorem bound_takeMove {P : GatewayOp → Prop} {s : Traffic} {i : Nat} (h : Bound P s i) (move : Move) :
    Bound P (takeMove deps env hooks s move) i := by
  cases move with
  | refresh =>
    rw [takeMove]
    split <;> exact h
  | request j =>
    rw [takeMove]
    split
    · rename_i o k hj
      intro m hm
      by_cases hji : j = i
      · subst hji
        simp only [Function.update_self] at hm
        obtain ⟨r, -, rfl⟩ := Option.map_eq_some_iff.mp hm
        exact (h _ hj).2 r
      · simp only [Function.update_of_ne (Ne.symm hji)] at hm
        exact h m hm
    · exact h

/-- The step of a request leaves the files, the configurations and the templates. -/
theorem gatewayStep_leaves {hooks : Hooks} {o : GatewayOp} (ho : o.Looks) (w : World) (q : SiteStage) :
    KeptParts id q q w (gatewayStep deps.toDeps env hooks o w).2 := by
  have same : ∀ {w' : World}, w'.fs = w.fs → w'.edgeConfigs = w.edgeConfigs →
      w'.templates = w.templates → KeptParts id q q w w' := by
    intro w' hfs hconfigs htemplates
    have hpart : ∀ b part, SamePart b w w' part := by
      intro b part
      cases part with
      | files => exact fun x _ => by rw [hfs]
      | edgeConfig => exact congrFun hconfigs b
      | templates => exact congrFun htemplates b
    exact ⟨fun part _ => hpart id part, fun b _ part _ => hpart b part⟩
  have hreads : ∀ o : FsOp, (∀ fault, (o.step env.long fault w.fs).2 = w.fs) →
      KeptParts id q q w (gatewayStep deps.toDeps env hooks (.server (.fs o)) w).2 := fun o h =>
    same (h _) rfl rfl
  cases o with
  | server o =>
    cases o with
    | fs o =>
      cases o with
      | read p => exact hreads _ fun fault => by rcases fault with _ | _ | ⟨_ | _, _⟩ <;> rfl
      | metadata p => exact hreads _ fun fault => by rcases fault with _ | _ | ⟨_ | _, _⟩ <;> rfl
      | _ => exact False.elim ho
    | _ => exact False.elim ho
  | _ => exact same rfl rfl rfl

/-- What is left of the refresh is on its own origin, and in the order of its stages. -/
def Underway (deps : GatewayDeps) (id : Str) (q : SiteStage) (s : Traffic) : Prop :=
  ∀ m, s.refresh = some m → m.Uses (Owned deps.toDeps id) ∧
    m.Follows (stages id) (fun q out => ∀ response, out = .ok response → q = .replaced) q

theorem kept_takeMove {s : Traffic} {q : SiteStage} (hlooks : ∀ i, Bound GatewayOp.Looks s i)
    (hunder : Underway deps id q s) {move : Move} (hgoes : (takeMove deps env hooks s move).refresh ≠ none) :
    Underway deps id (s.stageAfter deps env id q move) (takeMove deps env hooks s move) ∧
      q ≤ s.stageAfter deps env id q move ∧
      KeptParts id q (s.stageAfter deps env id q move) s.world (takeMove deps env hooks s move).world := by
  have rests : Underway deps id q s ∧ q ≤ q ∧ KeptParts id q q s.world s.world :=
    ⟨hunder, SiteStage.le_refl q, KeptParts.refl id q q s.world⟩
  cases move with
  | request i =>
    rw [Traffic.stageAfter, takeMove]
    split
    · rename_i o k hi
      exact ⟨hunder, SiteStage.le_refl q, gatewayStep_leaves ((hlooks i _ hi).1) s.world q⟩
    · exact rests
  | refresh =>
    cases hm : s.refresh with
    | none =>
      simp only [Traffic.stageAfter, takeMove, hm]
      exact rests
    | some m =>
      cases m with
      | ret response =>
        simp only [Traffic.stageAfter, takeMove, hm]
        exact rests
      | fail e =>
        simp only [Traffic.stageAfter, takeMove, hm]
        exact rests
      | op o k =>
        obtain ⟨howned, hfollows⟩ := hunder _ hm
        simp only [takeMove, hm] at hgoes
        cases hr : (step deps.toDeps env o s.world).1 with
        | none =>
          rw [hr] at hgoes
          exact absurd rfl hgoes
        | some r =>
          obtain ⟨hle, hkept⟩ := kept_step howned.1 hfollows.1 hr
          simp only [Traffic.stageAfter, takeMove, hm, hr]
          refine ⟨?_, hle, hkept⟩
          rintro m' ⟨rfl⟩
          exact ⟨howned.2 r, hfollows.2 r⟩

/-- A refresh whose caller went away stays away. -/
theorem refresh_gone {moves : List Move} {s : Traffic} (h : s.refresh = none) :
    (takeMoves deps env hooks s moves).refresh = none := by
  induction moves generalizing s with
  | nil => exact h
  | cons move moves ih =>
    refine ih ?_
    rw [takeMove.eq_def]
    cases move with
    | refresh => simp only [h]
    | request i =>
      simp only
      split <;> exact h

theorem refresh_goes {move : Move} {moves : List Move} {s : Traffic} {result : OriginSyncResponse}
    (hend : (takeMoves deps env hooks s (move :: moves)).refresh = some (.ret result)) :
    (takeMove deps env hooks s move).refresh ≠ none := by
  intro hnone
  have hgone := @refresh_gone env deps hooks moves _ hnone
  rw [takeMoves, List.foldl_cons] at hend
  rw [takeMoves, hend] at hgone
  cases hgone

/-- From any stage to the end of a refresh that returns. -/
theorem kept_to_end {moves : List Move} {s : Traffic} {q : SiteStage} {result : OriginSyncResponse}
    (hlooks : ∀ i, Bound GatewayOp.Looks s i) (hunder : Underway deps id q s)
    (hend : (takeMoves deps env hooks s moves).refresh = some (.ret result)) :
    q ≤ .replaced ∧ KeptParts id q .replaced s.world (takeMoves deps env hooks s moves).world := by
  induction moves generalizing s q with
  | nil =>
    obtain rfl : q = .replaced := (hunder _ hend).2 result rfl
    exact ⟨SiteStage.le_refl _, KeptParts.refl id _ _ _⟩
  | cons move moves ih =>
    obtain ⟨hunder', hle, hkept⟩ := kept_takeMove hlooks hunder (refresh_goes hend)
    obtain ⟨hle', hkept'⟩ := ih (fun i => bound_takeMove (hlooks i) move) hunder' hend
    exact ⟨SiteStage.le_trans hle hle', KeptParts.trans hle hle' hkept hkept'⟩

/-! ## What a request sees -/

/-- A step that looks at parts which are the same in two worlds. -/
theorem asIn_of_parts {b : Str} {w0 w : World} {o : GatewayOp} (ho : o.LooksIn b)
    (hanswers : Answers env w o) (hown : ∀ part ∈ partOf id o, SamePart id w0 w part)
    (hothers : ∀ b, b ≠ id → ∀ part, (part = .files → validateOriginId b = .ok ()) →
      SamePart b w0 w part) : AsIn env w0 w o := by
  have hfiles : ∀ p : PathBuf, validateOriginId b = .ok () → names b <+: names p →
      (∀ part ∈ (if names id <+: names p then some SitePart.files else none), SamePart id w0 w part) →
      ∀ q, q <+: names p → w.fs.lookup q = w0.fs.lookup q := by
    intro p hvalid hbelow hpart q hq
    refine lookup_along hvalid hbelow ?_ hq
    by_cases hb : b = id
    · subst hb
      exact hpart .files (by rw [if_pos hbelow]; rfl)
    · exact hothers b hb .files fun _ => hvalid
  cases o with
  | server o =>
    cases o with
    | fs o =>
      cases o with
      | read p => exact ⟨hanswers, hfiles p ho.1 ho.2.1 hown⟩
      | metadata p => exact ⟨hanswers, hfiles p ho.1 ho.2.1 hown⟩
      | _ => exact False.elim ho
    | _ => exact False.elim ho
  | edgeConfig b' =>
    by_cases hb : b' = id
    · subst hb
      exact hown .edgeConfig (by rw [partOf, if_pos rfl]; rfl)
    · exact hothers b' hb .edgeConfig (by simp)
  | hook i hook request => trivial
  | originTemplates b' =>
    by_cases hb : b' = id
    · subst hb
      exact hown .templates (by rw [partOf, if_pos rfl]; rfl)
    · exact hothers b' hb .templates (by simp)

theorem mem_looks {s : Traffic} {i : Nat} {move : Move} {o : GatewayOp}
    {k : o.Res → Handling RenderResponse} (hmove : move = .request i)
    (ho : s.request i = some (.op o k)) : o ∈ s.looks i move := by
  subst hmove
  simp [Traffic.looks, ho]

/-- A request whose steps come in time for the old generation sees it. -/
theorem sees_old {b : Str} {w0 : World} {i : Nat} {moves : List Move} {s : Traffic} {q : SiteStage}
    {result : OriginSyncResponse} (hlooks : ∀ i, Bound GatewayOp.Looks s i) (hunder : Underway deps id q s)
    (hend : (takeMoves deps env hooks s moves).refresh = some (.ret result))
    (hin : Bound (GatewayOp.LooksIn b) s i) (hq : SiteStage.before ≤ q)
    (hkept : KeptParts id .before q w0 s.world)
    (hwithin : StepsWithin deps env hooks id .old i q s moves) : Sees deps env hooks w0 i s moves := by
  induction moves generalizing s q with
  | nil => trivial
  | cons move moves ih =>
    refine ⟨fun hmove o k ho => ?_, ?_⟩
    · obtain ⟨hanswers, hhas⟩ := hwithin.1 o (mem_looks hmove ho)
      exact asIn_of_parts (hin _ ho).1 hanswers (fun part hpart => hkept.own part (Or.inl (hhas part hpart)))
        hkept.others
    · obtain ⟨hunder', hle, hkept'⟩ := kept_takeMove hlooks hunder (refresh_goes hend)
      exact ih (fun i => bound_takeMove (hlooks i) move) hunder' hend (bound_takeMove hin move)
        (SiteStage.le_trans hq hle) (KeptParts.trans hq hle hkept hkept') hwithin.2

/-- A request whose steps come late enough sees the new generation. -/
theorem sees_new {b : Str} {i : Nat} {moves : List Move} {s : Traffic} {q : SiteStage}
    {result : OriginSyncResponse} (hlooks : ∀ i, Bound GatewayOp.Looks s i) (hunder : Underway deps id q s)
    (hend : (takeMoves deps env hooks s moves).refresh = some (.ret result))
    (hin : Bound (GatewayOp.LooksIn b) s i)
    (hwithin : StepsWithin deps env hooks id .new i q s moves) :
    Sees deps env hooks (takeMoves deps env hooks s moves).world i s moves := by
  induction moves generalizing s q with
  | nil => trivial
  | cons move moves ih =>
    refine ⟨fun hmove o k ho => ?_, ?_⟩
    · obtain ⟨hanswers, hhas⟩ := hwithin.1 o (mem_looks hmove ho)
      have hkept := (kept_to_end hlooks hunder hend).2
      exact asIn_of_parts (hin _ ho).1 hanswers
        (fun part hpart => (hkept.own part (Or.inr (hhas part hpart))).symm)
        fun b hb part hvalid => (hkept.others b hb part hvalid).symm
    · obtain ⟨hunder', -, -⟩ := kept_takeMove hlooks hunder (refresh_goes hend)
      exact ih (fun i => bound_takeMove (hlooks i) move) hunder' hend (bound_takeMove hin move) hwithin.2

/-- A request is for one origin, or for none. -/
theorem handle_looksIn_one (service : RenderGatewayService) (request : RenderRequest) :
    ∃ b, (service.handle deps request).Uses (GatewayOp.LooksIn b) := by
  cases hres : service.resolver.resolve request.host with
  | none =>
    refine ⟨[], ?_⟩
    rw [RenderGatewayService.handle, hres]
    trivial
  | some resolved => exact ⟨resolved.originId, handle_looksIn deps hres⟩

theorem start_underway (service : RenderGatewayService) (requests : Nat → RenderRequest) (id : Str)
    (cdn : Option OriginCdnRefresh) (barrier : Option Str) (w : World) :
    Underway deps id .before (.start deps service requests id cdn barrier w) := by
  rintro m ⟨rfl⟩
  exact ⟨pipeline_owns deps.toDeps id ⟨fun _ => true, fun _ => barrier, fun _ => cdn⟩,
    refresh_stages id cdn barrier⟩

end

/-- Every interleaving of a refresh that succeeds with requests: each response is given by the
generation before or by the one after, if each request takes all its steps where the parts that it
looks at are of one of the two. -/
theorem one_generation (deps : GatewayDeps) (env : Env) (hooks : Nat → Hooks)
    (service : RenderGatewayService) (requests : Nat → RenderRequest) (id : Str)
    (cdn : Option OriginCdnRefresh) (barrier : Option Str) (w : World) (moves : List Move)
    {s : Traffic} {result : OriginSyncResponse}
    (hrun : takeMoves deps env hooks (.start deps service requests id cdn barrier w) moves = s)
    (hrefreshed : s.refresh = some (.ret result))
    (hwithin : ∀ i, ∃ g, StepsWithin deps env hooks id g i .before
      (.start deps service requests id cdn barrier w) moves)
    (i : Nat) (response : RenderResponse) (hresponse : s.request i = some (.ret response)) :
    GivenBy deps env (hooks i) service (requests i) w response ∨
      GivenBy deps env (hooks i) service (requests i) s.world response := by
  rw [← hrun] at hrefreshed hresponse
  have hlooks : ∀ i, Bound GatewayOp.Looks (.start deps service requests id cdn barrier w) i := by
    rintro i m ⟨rfl⟩
    exact handle_looks deps service (requests i)
  have hunder := @start_underway deps service requests id cdn barrier w
  obtain ⟨b, hb⟩ := @handle_looksIn_one deps service (requests i)
  have hin : Bound (GatewayOp.LooksIn b) (.start deps service requests id cdn barrier w) i := by
    rintro m ⟨rfl⟩
    exact hb
  obtain ⟨g, hg⟩ := hwithin i
  cases g with
  | old =>
    exact Or.inl (given_of_sees (sees_old hlooks hunder hrefreshed hin (SiteStage.le_refl _)
      (KeptParts.refl id _ _ w) hg) hresponse)
  | new =>
    rw [← hrun]
    exact Or.inr (given_of_sees (sees_new hlooks hunder hrefreshed hin hg) hresponse)

/-! ## A site that is refreshed again -/

/-- `GET /a` for anyone during a refresh of `web`, and the moves. -/
def again (env : Env) (w : World) (resolver : HostResolver) (moves : List Move) : Traffic :=
  takeMoves smallGatewayDeps env (fun _ => noHooks)
    (.start smallGatewayDeps (siteService resolver) (fun _ => getRequest "/a") "web".toList none none w)
    moves

/-- What a program that is through has come to. -/
def ended {Op : Type} {Res : Op → Type} {ε α : Type} : Option (Prog Op Res ε α) → Option α
  | some (.ret a) => some a
  | _ => none

theorem ended_eq_some {Op : Type} {Res : Op → Type} {ε α : Type} {m : Option (Prog Op Res ε α)} {a : α} :
    ended m = some a ↔ m = some (.ret a) := by
  constructor
  · intro h
    unfold ended at h
    split at h
    · rw [Option.some.inj h]
    · cases h
  · rintro rfl
    rfl

/-- A request between the renames. -/
def between : List Move :=
  .replicate 42 .refresh ++ .replicate 20 (.request 0) ++ .replicate 20 .refresh

/-- The storage's object has become longer. -/
def renewed : Env :=
  { holding "a".toList with
    listObjects := fun _ _ => .ok [⟨"a".toList, none, none, none, 2, none, none⟩]
    getObject := fun _ _ key => .ok ⟨key, [66, 66], none, none, none, none⟩ }

/-- A request while the refresh stages, and one when it has replaced the templates. -/
def apart : List Move :=
  .replicate 20 .refresh ++ .replicate 10 (.request 0) ++ .replicate 33 .refresh ++
    .replicate 10 (.request 1) ++ .replicate 2 .refresh

/-- Two requests during a refresh are answered from two generations. -/
theorem one_generation_apart : ∃ resolver,
    HostResolver.new (smallManifest [("a.com", "web")]) = .ok resolver ∧
    let s := again renewed (activated "a".toList) resolver apart
    (ended s.refresh).isSome = true ∧
      (ended (s.request 0)).map (·.body) = some [65] ∧
      (ended (s.request 1)).map (·.body) = some [66, 66] ∧
      ∀ i response, s.request i = some (.ret response) →
        GivenBy smallGatewayDeps renewed noHooks (siteService resolver) (getRequest "/a")
            (activated "a".toList) response ∨
          GivenBy smallGatewayDeps renewed noHooks (siteService resolver) (getRequest "/a")
            s.world response := by
  obtain ⟨resolver, hnew, -⟩ := site_resolver
  have hvalues : (HostResolver.new (smallManifest [("a.com", "web")])).toOption.map (fun resolver =>
      let start := again renewed (activated "a".toList) resolver []
      let s := again renewed (activated "a".toList) resolver apart
      ((ended s.refresh).isSome, (ended (s.request 0)).map (·.body), (ended (s.request 1)).map (·.body),
        decide (StepsWithin smallGatewayDeps renewed (fun _ => noHooks) "web".toList .old 0 .before
          start apart),
        decide (StepsWithin smallGatewayDeps renewed (fun _ => noHooks) "web".toList .new 1 .before
          start apart))) = some (true, some [65], some [66, 66], true, true) := by decide +kernel
  rw [hnew] at hvalues
  have hwaits : ∀ i, i ≠ 0 → i ≠ 1 → Move.request i ∉ apart := fun i h0 h1 => by simp [apart, h0, h1]
  refine ⟨resolver, hnew, ?_⟩
  generalize activated "a".toList = w at *
  generalize apart = moves at *
  simp only [Except.toOption, Option.map_some, Option.some.injEq, Prod.mk.injEq,
    decide_eq_true_eq] at hvalues
  obtain ⟨hends, hold, hnew, hearly, hlate⟩ := hvalues
  obtain ⟨result, hresult⟩ := Option.isSome_iff_exists.mp hends
  refine ⟨hends, hold, hnew, ?_⟩
  refine one_generation smallGatewayDeps renewed (fun _ => noHooks) (siteService resolver)
    (fun _ => getRequest "/a") "web".toList none none w moves rfl (ended_eq_some.mp hresult) fun i => ?_
  by_cases h0 : i = 0
  · subst h0
    exact ⟨.old, hearly⟩
  by_cases h1 : i = 1
  · subst h1
    exact ⟨.new, hlate⟩
  · exact ⟨.old, stepsWithin_of_waits (hwaits i h0 h1) _ _⟩

/-- The status that a generation gives the request. -/
def statusIn (resolver : HostResolver) (w : World) : Option StatusCode :=
  ((sceneOf w (holding "a".toList) noHooks).value
    ((siteService resolver).handle smallGatewayDeps (getRequest "/a"))).ok?.map (·.status)

theorem not_given {resolver : HostResolver} {w : World} {response : RenderResponse}
    (hstatus : statusIn resolver w ≠ some response.status) : ¬ GivenBy smallGatewayDeps
      (holding "a".toList) noHooks (siteService resolver) (getRequest "/a") w response := by
  intro hgiven
  rw [GivenBy] at hgiven
  rw [statusIn, hgiven] at hstatus
  exact hstatus rfl

/-- **Counterexample**: no generation gives the response of a request between the two renames. -/
theorem request_between_renames : ∃ resolver,
    HostResolver.new (smallManifest [("a.com", "web")]) = .ok resolver ∧
    ∃ result response, (again (holding "a".toList) (activated "a".toList) resolver between).refresh = some (.ret result) ∧
      (again (holding "a".toList) (activated "a".toList) resolver between).request 0 = some (.ret response) ∧
      ¬ GivenBy smallGatewayDeps (holding "a".toList) noHooks (siteService resolver)
        (getRequest "/a") (activated "a".toList) response ∧
      ¬ GivenBy smallGatewayDeps (holding "a".toList) noHooks (siteService resolver)
        (getRequest "/a") (again (holding "a".toList) (activated "a".toList) resolver between).world response := by
  obtain ⟨resolver, hnew, -⟩ := site_resolver
  have hvalues : (HostResolver.new (smallManifest [("a.com", "web")])).toOption.map (fun resolver =>
      let site := again (holding "a".toList) (activated "a".toList) resolver between
      ((ended site.refresh).isSome, (ended (site.request 0)).map (·.status),
        statusIn resolver (activated "a".toList), statusIn resolver site.world)) =
      some (true, some .notFound, some .ok, some .ok) := by decide +kernel
  rw [hnew] at hvalues
  refine ⟨resolver, hnew, ?_⟩
  generalize activated "a".toList = w at *
  generalize between = moves at *
  simp only [Except.toOption, Option.map_some, Option.some.injEq, Prod.mk.injEq] at hvalues
  obtain ⟨hends, hstatus, hbefore, hafter⟩ := hvalues
  obtain ⟨result, hresult⟩ := Option.isSome_iff_exists.mp hends
  obtain ⟨response, hresponse, hmissing⟩ := Option.map_eq_some_iff.mp hstatus
  refine ⟨result, response, ended_eq_some.mp hresult, ended_eq_some.mp hresponse,
    not_given ?_, not_given ?_⟩
  · rw [hbefore, hmissing]
    decide
  · rw [hafter, hmissing]
    decide

end RenderMesh.Bugs.MixedGenerations
