import RenderMesh.Gateway.Chain
import RenderMesh.Routes.System

/-!
# Who changes what

In every interleaving of requests and refreshes the state of the server is changed by the
refreshes alone, and those are the background ones and the ones that were asked for with the
admin token (`takeMove_cases`).

* `public_traffic_lets_time_pass`: whatever is under way, requests without the token only let
  time pass.
* `sync_then_snapshot`: a snapshot that is asked for after a refresh was answered is of its
  generation, or of a later one.
-/
namespace RenderMesh.Routes

open RenderMesh.Core RenderMesh.Server RenderMesh.Domains RenderMesh.Refresh RenderMesh.Gateway

/-! ## Permission -/

/-- The request has the admin token, and there is one. -/
def HasToken (config : SystemRouteConfig) (headers : HeaderMap) : Prop :=
  ∃ token header, config.adminToken = some token ∧
    headers.lookup "authorization".toList = some header ∧
    headerToStr header = some ("Bearer ".toList ++ token)

theorem authorizeManualSync_ok_iff {config : SystemRouteConfig} {headers : HeaderMap} :
    authorizeManualSync config headers = .ok () ↔ HasToken config headers := by
  unfold authorizeManualSync HasToken
  generalize "Bearer ".toList = bearer
  cases config.adminToken with
  | none => simp
  | some expected =>
    cases headers.lookup "authorization".toList with
    | none => simp
    | some header =>
      cases hvalue : headerToStr header with
      | none => simp [hvalue]
      | some value =>
        cases hstrip : stripPrefix? bearer value with
        | none =>
          have hno : ∀ token, value ≠ bearer ++ token := fun token he => by
            rw [stripPrefix?_eq_some.mpr he] at hstrip
            cases hstrip
          simp [hvalue, hstrip, hno expected]
        | some token =>
          obtain rfl := stripPrefix?_eq_some.mp hstrip
          simp only [hvalue, hstrip, Option.some.injEq]
          by_cases he : token = expected
          · rw [if_neg (not_not.mpr he)]
            exact iff_of_true rfl ⟨expected, header, rfl, rfl, by rw [hvalue, he]⟩
          · rw [if_pos he]
            refine iff_of_false (fun h => by cases h) ?_
            rintro ⟨expected', header', rfl, rfl, hother⟩
            rw [hvalue, Option.some.injEq] at hother
            exact he (List.append_cancel_left hother)

theorem authorizeManualSync_error {config : SystemRouteConfig} {headers : HeaderMap} {reply : Reply}
    (h : authorizeManualSync config headers = .error reply) :
    ∃ status error, reply = .error status error := by
  unfold authorizeManualSync at h
  repeat' split at h
  all_goals cases h
  all_goals exact ⟨_, _, rfl⟩

/-- The task may refresh an origin. -/
def Granted (config : SystemRouteConfig) : Task → Prop
  | .background _ => True
  | .http (.sync _ headers) => HasToken config headers
  | .http _ => False

/-! ## One move -/

/-- A step that looks lets time pass, also when it fails. -/
theorem gatewayStep_world {deps : Deps} {env : Env} {hooks : Hooks} {o : GatewayOp} (ho : o.Looks)
    (w : World) : (gatewayStep deps env hooks o w).2 = w.tick := by
  have hfs : ∀ o : FsOp, (o.exec env.long w.fs).2 = w.fs → (∀ left, o.debris env.long left w.fs = w.fs) →
      (step deps env (.fs o) w).2 = w.tick := by
    intro o hexec hdebris
    simp only [step, FsOp.step]
    split <;> simp [hexec, hdebris, World.tick]
  cases o with
  | server o =>
    cases o with
    | fs o =>
      cases o with
      | read p => exact hfs (.read p) rfl fun _ => rfl
      | metadata p => exact hfs (.metadata p) rfl fun _ => rfl
      | _ => exact absurd ho id
    | _ => exact absurd ho id
  | edgeConfig id => rfl
  | hook i hook request => rfl
  | originTemplates id => rfl

section
variable {deps : GatewayDeps} {env : Env} {hooks : Nat → Hooks} {app : AppState}
  {config : SystemRouteConfig} {bodyLimitBytes : Nat} {tasks : Nat → Task}

/-- What holds in every state that is reached. -/
structure TrafficInv (config : SystemRouteConfig) (tasks : Nat → Task) (s : Traffic) : Prop where
  looks : ∀ i rest, s.progress i = .rendering rest → rest.Uses GatewayOp.Looks ∧
    ∃ request, tasks i = .http (.render request)
  granted : ∀ i, s.progress i = .refreshing → Granted config (tasks i)

theorem trafficInv_start (w : World) : TrafficInv config tasks (Traffic.start w) :=
  ⟨fun i rest h => (by cases h), fun i h => (by cases h)⟩

/-- The turn of the refresh service that a move may be. -/
def Move.turn : Move → Turn
  | .next i => .next i
  | .drop i => .drop i

theorem to_progress (s : Traffic) (i j : Nat) (p : Progress) :
    (s.to i p).progress j = if j = i then p else s.progress j := by
  simp [Traffic.to, Function.update_apply]

/-- The calls before and after a move: it lets time pass, or it is the turn of a refresh. -/
inductive CallsMoved (deps : GatewayDeps) (env : Env) (app : AppState) (config : SystemRouteConfig)
    (tasks : Nat → Task) (m : Move) (s s' : Calls) : Prop where
  | waits (n : Nat) (hworld : s'.world = later s.world n) (hstate : s'.state = s.state)
  | turns (service : OriginRefreshService) (hservice : app.originRefresh = some service)
      (hgranted : Granted config (tasks m.task))
      (hcalls : s' = takeTurn deps.toDeps env service (fun i => (tasks i).originId) s m.turn)

/-- What the task itself comes to by its move. -/
inductive Moved (config : SystemRouteConfig) (tasks : Nat → Task) (s : Traffic) (i : Nat) :
    Progress → Prop where
  | stays : Moved config tasks s i (s.progress i)
  | gone : Moved config tasks s i (.done none)
  | renders (rest : Handling HttpResponse) (h : rest.Uses GatewayOp.Looks)
      (htask : ∃ request, tasks i = .http (.render request)) : Moved config tasks s i (.rendering rest)
  | rendered (response : HttpResponse) (htask : ∃ request, tasks i = .http (.render request)) :
      Moved config tasks s i (.done (some (.rendered response)))
  | read (originId : Str) (htask : tasks i = .http (.snapshot originId)) (h : s.progress i = .waiting) :
      Moved config tasks s i (.done (some (getOriginSnapshot s.calls.world.originRuntime originId)))
  | refused (status : StatusCode) (error : OriginSyncErrorBody) (h : s.progress i = .waiting)
      (htask : ∃ originId headers, tasks i = .http (.sync originId headers)) :
      Moved config tasks s i (.done (some (.error status error)))
  | refreshes (h : s.progress i = .waiting) (hgranted : Granted config (tasks i)) :
      Moved config tasks s i .refreshing
  | ended (result : Outcome OriginRefreshError OriginSyncResponse) (h : s.progress i = .refreshing)
      (hcall : s.calls.state i = .done result) : Moved config tasks s i (.done (syncReply result))

variable {s : Traffic} (hinv : TrafficInv config tasks s)

theorem turn_calls (service : OriginRefreshService) (happ : app.originRefresh = some service) (t : Turn) :
    s.turn deps env app tasks t =
      ⟨takeTurn deps.toDeps env service (fun i => (tasks i).originId) s.calls t, s.progress⟩ := by
  simp only [Traffic.turn, happ]

theorem callsMoved_same (m : Move) : CallsMoved deps env app config tasks m s.calls s.calls :=
  .waits 0 rfl rfl

include hinv

/-- What the turn of a refresh that is under way comes to. -/
theorem moved_turn {i : Nat} (hi : s.progress i = .refreshing) (m : Move) (hm : m.task = i) :
    CallsMoved deps env app config tasks m s.calls (s.turn deps env app tasks m.turn).calls ∧
      (s.turn deps env app tasks m.turn).progress = s.progress := by
  cases happ : app.originRefresh with
  | none =>
    have hturn : s.turn deps env app tasks m.turn = s := by simp only [Traffic.turn, happ]
    rw [hturn]
    exact ⟨callsMoved_same m, rfl⟩
  | some service =>
    rw [turn_calls service happ]
    exact ⟨.turns service happ (hm ▸ hinv.granted i hi) rfl, rfl⟩

omit hinv in
theorem begin_cases {i : Nat} (hi : s.progress i = .waiting) :
    (s.begin deps app config bodyLimitBytes tasks i).calls = s.calls ∧ ∃ p,
      (s.begin deps app config bodyLimitBytes tasks i) = s.to i p ∧ Moved config tasks s i p := by
  unfold Traffic.begin
  cases htask : tasks i with
  | background originId =>
    refine ⟨rfl, _, rfl, ?_⟩
    split
    · exact .refreshes hi (by rw [htask]; trivial)
    · exact .gone
  | http request =>
    cases request with
    | render request => exact ⟨rfl, _, rfl, .renders _ (render_looks deps _ _ _) ⟨_, htask⟩⟩
    | snapshot originId => exact ⟨rfl, _, rfl, .read originId htask hi⟩
    | sync originId headers =>
      simp only
      cases hauth : authorizeManualSync config headers with
      | error reply =>
        obtain ⟨status, error, rfl⟩ := authorizeManualSync_error hauth
        exact ⟨rfl, _, rfl, .refused status error hi ⟨_, _, htask⟩⟩
      | ok u =>
        simp only
        split
        · exact ⟨rfl, _, rfl, .refreshes hi (by rw [htask]; exact authorizeManualSync_ok_iff.mp hauth)⟩
        · exact ⟨rfl, _, rfl, .refused _ _ hi ⟨_, _, htask⟩⟩

/-- What one move does: to the calls, and to the task that makes it. -/
theorem takeMove_cases (m : Move) :
    CallsMoved deps env app config tasks m s.calls
      (takeMove deps env hooks app config bodyLimitBytes tasks s m).calls ∧
    (∀ j, j ≠ m.task → (takeMove deps env hooks app config bodyLimitBytes tasks s m).progress j =
      s.progress j) ∧
    Moved config tasks s m.task
      ((takeMove deps env hooks app config bodyLimitBytes tasks s m).progress m.task) := by
  have hto : ∀ p, Moved config tasks s m.task p →
      CallsMoved deps env app config tasks m s.calls (s.to m.task p).calls ∧
      (∀ j, j ≠ m.task → (s.to m.task p).progress j = s.progress j) ∧
      Moved config tasks s m.task ((s.to m.task p).progress m.task) := by
    intro p hp
    refine ⟨callsMoved_same m, fun j hj => ?_, ?_⟩
    · rw [to_progress, if_neg hj]
    · rw [to_progress, if_pos rfl]
      exact hp
  have hstays : CallsMoved deps env app config tasks m s.calls s.calls ∧
      (∀ j, j ≠ m.task → s.progress j = s.progress j) ∧ Moved config tasks s m.task (s.progress m.task) :=
    ⟨callsMoved_same m, fun _ _ => rfl, .stays⟩
  have hturn : s.progress m.task = .refreshing →
      CallsMoved deps env app config tasks m s.calls (s.turn deps env app tasks m.turn).calls ∧
      (∀ j, j ≠ m.task → (s.turn deps env app tasks m.turn).progress j = s.progress j) ∧
      Moved config tasks s m.task ((s.turn deps env app tasks m.turn).progress m.task) := by
    intro hi
    obtain ⟨hcalls, hprogress⟩ := @moved_turn deps env app config tasks s hinv m.task hi m rfl
    rw [hprogress]
    exact ⟨hcalls, fun _ _ => rfl, .stays⟩
  cases m with
  | drop i =>
    cases hi : s.progress i with
    | waiting =>
      simp only [takeMove, hi]
      exact hto _ .gone
    | rendering rest =>
      simp only [takeMove, hi]
      exact hto _ .gone
    | refreshing =>
      simp only [takeMove, hi]
      exact hturn hi
    | done reply =>
      have hdone : takeMove deps env hooks app config bodyLimitBytes tasks s (.drop i) = s := by
        simp only [takeMove, hi]
      rw [hdone]
      exact hstays
  | next i =>
    cases hi : s.progress i with
    | waiting =>
      obtain ⟨-, p, hbegin, hp⟩ := @begin_cases deps app config bodyLimitBytes tasks s i hi
      simp only [takeMove, hi, hbegin]
      exact hto p hp
    | done reply =>
      have hdone : takeMove deps env hooks app config bodyLimitBytes tasks s (.next i) = s := by
        simp only [takeMove, hi]
      rw [hdone]
      exact hstays
    | refreshing =>
      cases hcall : s.calls.state i with
      | done result =>
        simp only [takeMove, hi, hcall]
        exact hto _ (.ended result hi hcall)
      | _ =>
        simp only [takeMove, hi, hcall]
        exact hturn hi
    | rendering rest =>
      cases rest with
      | ret response =>
        simp only [takeMove, hi]
        exact hto _ (.rendered response (hinv.looks i _ hi).2)
      | fail e =>
        simp only [takeMove, hi]
        exact hto _ .gone
      | op o k =>
        obtain ⟨⟨ho, hk⟩, htask⟩ := hinv.looks i _ hi
        simp only [takeMove, hi]
        refine ⟨.waits 1 (gatewayStep_world ho _) rfl, fun j hj => Function.update_of_ne hj _ _, ?_⟩
        rw [show Move.task (.next i) = i from rfl, Function.update_self]
        cases (gatewayStep deps.toDeps env (hooks i) o s.calls.world).1 with
        | none => exact .gone
        | some answer => exact .renders _ (hk answer) htask

theorem takeMove_inv (m : Move) : TrafficInv config tasks
    (takeMove deps env hooks app config bodyLimitBytes tasks s m) := by
  obtain ⟨-, hother, hmoved⟩ := @takeMove_cases deps env hooks app config bodyLimitBytes tasks s hinv m
  generalize takeMove deps env hooks app config bodyLimitBytes tasks s m = s' at hother hmoved
  have hmine : ∀ i, i = m.task → Moved config tasks s i (s'.progress i) := by
    rintro i rfl
    exact hmoved
  refine ⟨fun i rest hi => ?_, fun i hi => ?_⟩
  · by_cases hj : i = m.task
    · have h := hmine i hj
      rw [hi] at h
      generalize hp : Progress.rendering rest = p at h
      cases h with
      | stays => exact hinv.looks i rest hp.symm
      | renders rest' hrest htask => cases hp; exact ⟨hrest, htask⟩
      | _ => cases hp
    · exact hinv.looks i rest ((hother i hj).symm.trans hi)
  · by_cases hj : i = m.task
    · have h := hmine i hj
      rw [hi] at h
      generalize hp : Progress.refreshing = p at h
      cases h with
      | stays => exact hinv.granted i hp.symm
      | refreshes _ hgranted => exact hgranted
      | _ => cases hp
    · exact hinv.granted i ((hother i hj).symm.trans hi)

end

theorem trafficInv_moves {deps : GatewayDeps} {env : Env} {hooks : Nat → Hooks} {app : AppState}
    {config : SystemRouteConfig} {bodyLimitBytes : Nat} {tasks : Nat → Task} {s : Traffic}
    (hinv : TrafficInv config tasks s) (moves : List Move) : TrafficInv config tasks
      (takeMoves deps env hooks app config bodyLimitBytes tasks s moves) := by
  induction moves generalizing s with
  | nil => exact hinv
  | cons m moves ih => exact ih (takeMove_inv hinv m)

/-- A task whose turn does not come stays where it is. -/
theorem takeMoves_other {deps : GatewayDeps} {env : Env} {hooks : Nat → Hooks} {app : AppState}
    {config : SystemRouteConfig} {bodyLimitBytes : Nat} {tasks : Nat → Task} {s : Traffic}
    (hinv : TrafficInv config tasks s) {moves : List Move} {j : Nat} (hj : ∀ m ∈ moves, m.task ≠ j) :
    (takeMoves deps env hooks app config bodyLimitBytes tasks s moves).progress j = s.progress j := by
  induction moves generalizing s with
  | nil => rfl
  | cons m moves ih =>
    obtain ⟨-, hother, -⟩ := @takeMove_cases deps env hooks app config bodyLimitBytes tasks s hinv m
    exact (ih (takeMove_inv hinv m) fun m' hm' => hj m' (List.mem_cons_of_mem _ hm')).trans
      (hother j (Ne.symm (hj m List.mem_cons_self)))

/-! ## Requests without the token -/

theorem later_later (w : World) (n k : Nat) : later (later w n) k = later w (n + k) := by
  simp only [later, Nat.add_assoc]

/-- Whatever is under way in the server, what is neither a background refresh nor asked for with
the admin token only lets time pass: no file, store, lock or purge is another. -/
theorem public_traffic_lets_time_pass (deps : GatewayDeps) (env : Env) (hooks : Nat → Hooks)
    (app : AppState) (config : SystemRouteConfig) (bodyLimitBytes : Nat) (tasks : Nat → Task) (w : World)
    (moves publicMoves : List Move)
    (hbackground : ∀ m ∈ publicMoves, ∀ originId, tasks m.task ≠ .background originId)
    (htoken : ∀ m ∈ publicMoves, ∀ originId headers, tasks m.task = .http (.sync originId headers) →
      ¬ HasToken config headers) :
    let s := takeMoves deps env hooks app config bodyLimitBytes tasks (.start w) moves
    let s' := takeMoves deps env hooks app config bodyLimitBytes tasks s publicMoves
    s'.calls.state = s.calls.state ∧ ∃ n, s'.calls.world = later s.calls.world n := by
  have hinv := @trafficInv_moves deps env hooks app config bodyLimitBytes tasks _
    (@trafficInv_start config tasks w) moves
  have hungranted : ∀ m ∈ publicMoves, ¬ Granted config (tasks m.task) := by
    intro m hm hgranted
    cases htask : tasks m.task with
    | background originId => exact hbackground m hm originId htask
    | http request =>
      rw [htask] at hgranted
      cases request with
      | sync originId headers => exact htoken m hm originId headers htask hgranted
      | _ => exact hgranted
  simp only
  clear hbackground htoken
  generalize takeMoves deps env hooks app config bodyLimitBytes tasks (.start w) moves = s at hinv
  induction publicMoves generalizing s with
  | nil => exact ⟨rfl, 0, rfl⟩
  | cons m rest ih =>
    obtain ⟨hstate, k, hworld⟩ := ih (fun m' hm' => hungranted m' (List.mem_cons_of_mem _ hm')) _
      (takeMove_inv hinv m)
    obtain ⟨hcalls, -⟩ := @takeMove_cases deps env hooks app config bodyLimitBytes tasks s hinv m
    cases hcalls with
    | waits n hworld' hstate' =>
      refine ⟨hstate.trans hstate', n + k, ?_⟩
      rw [takeMoves, List.foldl_cons, ← takeMoves, hworld, hworld', later_later]
    | turns service _ hgranted _ => exact absurd hgranted (hungranted m List.mem_cons_self)

/-! ## Generations -/

section
variable {deps : Deps} {env : Env} {service : OriginRefreshService} {originIds : Nat → Str}

/-- A call that has ended has ended. -/
theorem takeTurn_stays {s : Calls} {i : Nat} {result : Outcome OriginRefreshError OriginSyncResponse}
    (h : s.state i = .done result) (t : Turn) :
    (takeTurn deps env service originIds s t).state i = .done result := by
  cases t with
  | next j =>
    by_cases hij : i = j
    · subst hij
      simp only [takeTurn, h]
    · exact (takeTurn_other hij (Or.inl rfl)).trans h
  | drop j =>
    by_cases hij : i = j
    · subst hij
      simp only [takeTurn, h]
    · exact (takeTurn_other hij (Or.inr rfl)).trans h

/-- A call ends with Ok in the turn in which it gives its guard back. -/
theorem takeTurn_ok {s : Calls} {i : Nat} {response : OriginSyncResponse} {t : Turn}
    (h : (takeTurn deps env service originIds s t).state i = .done (.ok response)) :
    s.state i = .done (.ok response) ∨ s.state i = .releasing (.ok response) := by
  have hmoved : ∀ w c, (s.move i w c).state i = c := fun w c => by rw [move_state, if_pos rfl]
  cases t with
  | next j =>
    by_cases hij : i = j
    · subst hij
      cases hs : s.state i with
      | waiting =>
        simp only [takeTurn, hs] at h
        repeat' split at h
        all_goals rw [hmoved] at h; cases h
      | running rest =>
        cases rest with
        | ret _ => simp only [takeTurn, hs, hmoved, reduceCtorEq] at h
        | fail _ => simp only [takeTurn, hs, hmoved, reduceCtorEq] at h
        | op o k =>
          simp only [takeTurn, hs, Calls.answer] at h
          split at h <;> rw [hmoved] at h <;> cases h
      | releasing result =>
        simp only [takeTurn, hs, hmoved, CallState.done.injEq] at h
        exact Or.inr (by rw [h])
      | done result =>
        simp only [takeTurn, hs] at h
        exact Or.inl h
    · exact Or.inl ((takeTurn_other hij (Or.inl rfl)).symm.trans h)
  | drop j =>
    by_cases hij : i = j
    · subst hij
      cases hs : s.state i with
      | done result =>
        simp only [takeTurn, hs] at h
        exact Or.inl h
      | releasing result =>
        simp only [takeTurn, hs, reduceCtorEq] at h
      | _ => simp only [takeTurn, hs, hmoved, reduceCtorEq, CallState.done.injEq] at h
    · exact Or.inl ((takeTurn_other hij (Or.inr rfl)).symm.trans h)

end

/-- The lock, the generations and the answers in every state that is reached. -/
structure Numbered (config : SystemRouteConfig) (tasks : Nat → Task) (s : Traffic) : Prop where
  traffic : TrafficInv config tasks s
  calls : ∃ base, CallsInv (fun i => (tasks i).originId) base s.calls
  ended : ∀ i response, s.calls.state i = .done (.ok response) →
    1 ≤ response.generation ∧ response.generation ≤ generationOf s.calls.world (tasks i).originId
  replied : ∀ i response, s.progress i = .done (some (.synced response)) →
    s.calls.state i = .done (.ok response) ∧ Granted config (tasks i)

theorem numbered_start {config : SystemRouteConfig} {tasks : Nat → Task} {w : World}
    (hidle : ∀ id, w.locks id = false) : Numbered config tasks (.start w) := by
  refine ⟨trafficInv_start w, ⟨generationOf w, ⟨fun i j hi => False.elim hi, fun id => ?_,
    fun id _ => rfl, fun i => trivial⟩⟩, fun i response h => (by cases h),
    fun i response h => (by cases h)⟩
  rw [show (Traffic.start w).calls.world.locks id = false from hidle id]
  refine ⟨fun h => (by cases h), ?_⟩
  rintro ⟨i, -, hi⟩
  exact False.elim hi

theorem generationOf_later (w : World) (n : Nat) (id : Str) :
    generationOf (later w n) id = generationOf w id := rfl

section
variable {deps : GatewayDeps} {env : Env} {hooks : Nat → Hooks} {app : AppState}
  {config : SystemRouteConfig} {bodyLimitBytes : Nat} {tasks : Nat → Task} {s : Traffic}
  (h : Numbered config tasks s)
include h

/-- One move: no generation falls. -/
theorem takeMove_numbered (m : Move) :
    Numbered config tasks (takeMove deps env hooks app config bodyLimitBytes tasks s m) ∧
    ∀ id, generationOf s.calls.world id ≤
      generationOf (takeMove deps env hooks app config bodyLimitBytes tasks s m).calls.world id := by
  have hinv' := @takeMove_inv deps env hooks app config bodyLimitBytes tasks s h.traffic m
  obtain ⟨hcalls, hother, hmoved⟩ :=
    @takeMove_cases deps env hooks app config bodyLimitBytes tasks s h.traffic m
  generalize takeMove deps env hooks app config bodyLimitBytes tasks s m = s' at hinv' hcalls hother hmoved
  obtain ⟨base, hbase⟩ := h.calls
  -- what the calls come to
  obtain ⟨hbase', hgen, hstays, hended⟩ : (∃ base', CallsInv (fun i => (tasks i).originId) base' s'.calls) ∧
      (∀ id, generationOf s.calls.world id ≤ generationOf s'.calls.world id) ∧
      (∀ i result, s.calls.state i = .done result → s'.calls.state i = .done result) ∧
      ∀ i response, s'.calls.state i = .done (.ok response) → 1 ≤ response.generation ∧
        response.generation ≤ generationOf s'.calls.world (tasks i).originId := by
    cases hcalls with
    | waits n hworld hstate =>
      refine ⟨⟨base, ?_⟩, fun id => by rw [hworld, generationOf_later], fun i result hi => by
        rw [hstate, hi], fun i response hi => ?_⟩
      · refine ⟨?_, ?_, ?_, ?_⟩
        · rw [hstate]
          exact hbase.alone
        · rw [hstate, hworld]
          exact hbase.locked
        · rw [hworld]
          exact hbase.free
        · rw [hstate, hworld]
          exact hbase.held
      · rw [hworld, generationOf_later]
        exact h.ended i response (hstate ▸ hi)
    | turns service hservice hgranted hs' =>
      obtain ⟨hgen, base', hbase', -⟩ := @calls_step deps.toDeps env service
        (fun i => (tasks i).originId) base s.calls hbase m.turn
      rw [← hs'] at hgen hbase'
      have hmono : ∀ id, generationOf s.calls.world id ≤ generationOf s'.calls.world id := fun id => by
        rw [hgen]
        exact Nat.le_add_right _ _
      refine ⟨⟨base', hbase'⟩, hmono, fun i result hi => by
        rw [hs']; exact takeTurn_stays hi m.turn, fun i response hi => ?_⟩
      rw [hs'] at hi
      rcases takeTurn_ok hi with hdone | hreleasing
      · obtain ⟨hone, hle⟩ := h.ended i response hdone
        exact ⟨hone, hle.trans (hmono _)⟩
      · have hat := hbase.held i
        rw [hreleasing] at hat
        obtain ⟨hnow, hresponse⟩ := hat
        have hle := hmono (tasks i).originId
        omega
  refine ⟨⟨hinv', hbase', hended, fun i response hi => ?_⟩, hgen⟩
  by_cases hj : i = m.task
  · subst hj
    rw [hi] at hmoved
    generalize hp : Progress.done (some (Reply.synced response)) = p at hmoved
    cases hmoved with
    | stays =>
      obtain ⟨hcall, hgranted⟩ := h.replied m.task response hp.symm
      exact ⟨hstays _ _ hcall, hgranted⟩
    | ended result hrefreshing hcall =>
      have hresult : result = .ok response := by
        rw [Progress.done.injEq] at hp
        unfold syncReply at hp
        split at hp <;> cases hp
        rfl
      rw [hresult] at hcall
      exact ⟨hstays _ _ hcall, h.traffic.granted _ hrefreshing⟩
    | read originId htask hwaiting =>
      rw [Progress.done.injEq, getOriginSnapshot] at hp
      split at hp <;> cases hp
    | _ => cases hp
  · obtain ⟨hcall, hgranted⟩ := h.replied i response ((hother i hj).symm.trans hi)
    exact ⟨hstays _ _ hcall, hgranted⟩

theorem takeMoves_numbered (moves : List Move) :
    Numbered config tasks (takeMoves deps env hooks app config bodyLimitBytes tasks s moves) ∧
    ∀ id, generationOf s.calls.world id ≤
      generationOf (takeMoves deps env hooks app config bodyLimitBytes tasks s moves).calls.world id := by
  induction moves generalizing s with
  | nil => exact ⟨h, fun id => Nat.le_refl _⟩
  | cons m moves ih =>
    obtain ⟨hnext, hle⟩ := @takeMove_numbered deps env hooks app config bodyLimitBytes tasks s h m
    obtain ⟨hlast, hle'⟩ := ih hnext
    exact ⟨hlast, fun id => (hle id).trans (hle' id)⟩

end

/-- A request for a snapshot is not answered yet, or with a generation from `g` on. -/
def Answers (g : Nat) : Progress → Prop
  | .waiting | .done none => True
  | .done (some (.snapshot snapshot)) => g ≤ snapshot.generation
  | _ => False

/-- One move of a server whose store has a snapshot of generation `g` or later. -/
theorem takeMove_answers {deps : GatewayDeps} {env : Env} {hooks : Nat → Hooks} {app : AppState}
    {config : SystemRouteConfig} {bodyLimitBytes : Nat} {tasks : Nat → Task} {s : Traffic}
    (hinv : TrafficInv config tasks s) {j g : Nat} {originId : Str}
    (hask : tasks j = .http (.snapshot originId)) (hone : 1 ≤ g)
    (hle : g ≤ generationOf s.calls.world originId) (h : Answers g (s.progress j)) (m : Move) :
    Answers g ((takeMove deps env hooks app config bodyLimitBytes tasks s m).progress j) := by
  obtain ⟨-, hother, hmoved⟩ := @takeMove_cases deps env hooks app config bodyLimitBytes tasks s hinv m
  by_cases hj : j = m.task
  · subst hj
    generalize (takeMove deps env hooks app config bodyLimitBytes tasks s m).progress m.task = p at hmoved
    cases hmoved with
    | stays => exact h
    | gone => trivial
    | read originId' htask _ =>
      -- the store has a snapshot of that generation by then
      rw [hask] at htask
      cases htask
      rw [generationOf] at hle
      rw [getOriginSnapshot]
      cases hsnapshot : s.calls.world.originRuntime originId with
      | none =>
        rw [hsnapshot] at hle
        exact absurd (hone.trans hle) (by simp)
      | some snapshot =>
        rw [hsnapshot] at hle
        exact hle
    | renders _ _ htask =>
      obtain ⟨request, htask⟩ := htask
      rw [hask] at htask
      cases htask
    | rendered _ htask =>
      obtain ⟨request, htask⟩ := htask
      rw [hask] at htask
      cases htask
    | refused _ _ _ htask =>
      obtain ⟨originId', headers, htask⟩ := htask
      rw [hask] at htask
      cases htask
    | refreshes _ hgranted =>
      rw [hask] at hgranted
      exact hgranted.elim
    | ended _ hrefreshing _ =>
      have := hinv.granted _ hrefreshing
      rw [hask] at this
      exact this.elim
  · rw [hother j hj]
    exact h

theorem Answers.snapshot {g : Nat} {reply : Reply} (h : Answers g (.done (some reply))) :
    ∃ snapshot, reply = .snapshot snapshot ∧ g ≤ snapshot.generation := by
  cases reply with
  | snapshot snapshot => exact ⟨snapshot, rfl, h⟩
  | _ => exact h.elim

/-- In every run from a server at rest: a refresh that was answered with its generation was in
the background or had the token, and what is asked for a snapshot afterwards is given one of
that generation, or of a later one. -/
theorem sync_then_snapshot (deps : GatewayDeps) (env : Env) (hooks : Nat → Hooks) (app : AppState)
    (config : SystemRouteConfig) (bodyLimitBytes : Nat) (tasks : Nat → Task) (w : World)
    (hidle : ∀ id, w.locks id = false) (moves more : List Move) (i j : Nat)
    (response : OriginSyncResponse)
    (hi : (takeMoves deps env hooks app config bodyLimitBytes tasks (.start w) moves).progress i =
      .done (some (.synced response)))
    (hask : tasks j = .http (.snapshot (tasks i).originId))
    (hj : (takeMoves deps env hooks app config bodyLimitBytes tasks (.start w) moves).progress j =
      .waiting) (reply : Reply)
    (hreply : (takeMoves deps env hooks app config bodyLimitBytes tasks
      (takeMoves deps env hooks app config bodyLimitBytes tasks (.start w) moves) more).progress j =
        .done (some reply)) :
    Granted config (tasks i) ∧
      ∃ snapshot, reply = .snapshot snapshot ∧ response.generation ≤ snapshot.generation := by
  have hnumbered := (@takeMoves_numbered deps env hooks app config bodyLimitBytes tasks _
    (numbered_start hidle) moves).1
  generalize takeMoves deps env hooks app config bodyLimitBytes tasks (.start w) moves = s
    at hi hj hreply hnumbered
  obtain ⟨hcall, hgranted⟩ := hnumbered.replied i response hi
  obtain ⟨hone, hle⟩ := hnumbered.ended i response hcall
  refine ⟨hgranted, ?_⟩
  have hanswers : ∀ s, Numbered config tasks s →
      response.generation ≤ generationOf s.calls.world (tasks i).originId →
      Answers response.generation (s.progress j) → Answers response.generation
        ((takeMoves deps env hooks app config bodyLimitBytes tasks s more).progress j) := by
    clear hreply
    induction more with
    | nil => exact fun _ _ _ h => h
    | cons m more ih =>
      intro s hs hle hans
      obtain ⟨hnext, hmono⟩ := @takeMove_numbered deps env hooks app config bodyLimitBytes tasks s hs m
      exact ih _ hnext (hle.trans (hmono _)) (takeMove_answers hs.traffic hask hone hle hans m)
  have hfinal := hanswers s hnumbered hle (by rw [hj]; trivial)
  rw [hreply] at hfinal
  exact hfinal.snapshot

/-! ## A server with a token -/

/-- A manual refresh of `web` with the token, one without, and two snapshots. -/
def adminTasks : Nat → Task
  | 0 => .http (.sync "web".toList [("authorization".toList, utf8 "Bearer t".toList)])
  | 1 => .http (.sync "web".toList [])
  | _ => .http (.snapshot "web".toList)

def adminApp : AppState := ⟨siteService ⟨∅, [], none⟩, some plainService⟩

/-- In the middle of the refresh the one without the token is refused. -/
theorem public_traffic_lets_time_pass_admin :
    let s := takeMoves smallGatewayDeps calmEnv (fun _ => noHooks) adminApp ⟨some "t".toList⟩ 1000
      adminTasks (.start (World.start FileTree.empty)) (List.replicate 20 (.next 0))
    let s' := takeMoves smallGatewayDeps calmEnv (fun _ => noHooks) adminApp ⟨some "t".toList⟩ 1000
      adminTasks s [.next 1, .next 2]
    s'.calls.state = s.calls.state ∧ ∃ n, s'.calls.world = later s.calls.world n :=
  public_traffic_lets_time_pass smallGatewayDeps calmEnv (fun _ => noHooks) adminApp ⟨some "t".toList⟩
    1000 adminTasks (World.start FileTree.empty) (List.replicate 20 (.next 0)) [.next 1, .next 2]
    (by simp [Move.task, adminTasks]) (by
      rintro m hm originId headers htask ⟨token, header, -, hlookup, -⟩
      rcases List.mem_pair.mp hm with rfl | rfl
      · cases htask
        cases hlookup
      · cases htask)

/-- The answer of a task, once it has one. -/
def Progress.reply? : Progress → Option Reply
  | .done reply => reply
  | _ => none

theorem progress_of_reply {p : Progress} {reply : Reply} (h : p.reply? = some reply) :
    p = .done (some reply) := by
  cases p with
  | done r => exact congrArg _ h
  | _ => cases h

/-- The refresh with the token answers with generation 1, and so does the snapshot after it. -/
theorem sync_then_snapshot_admin : ∃ (response : OriginSyncResponse) (reply : Reply),
    (takeMoves smallGatewayDeps calmEnv (fun _ => noHooks) adminApp ⟨some "t".toList⟩ 1000 adminTasks
      (.start (World.start FileTree.empty)) (List.replicate 40 (.next 0))).progress 0 =
        .done (some (.synced response)) ∧ response.generation = 1 ∧
    Granted ⟨some "t".toList⟩ (adminTasks 0) ∧
      ∃ snapshot, reply = .snapshot snapshot ∧ response.generation ≤ snapshot.generation := by
  have hsynced : ((takeMoves smallGatewayDeps calmEnv (fun _ => noHooks) adminApp ⟨some "t".toList⟩ 1000
      adminTasks (.start (World.start FileTree.empty)) (List.replicate 40 (.next 0))).progress 0).reply?.any
        (fun reply => match reply with
          | .synced response => response.generation = 1
          | _ => false) = true := by decide +kernel
  have hanswered : ((takeMoves smallGatewayDeps calmEnv (fun _ => noHooks) adminApp ⟨some "t".toList⟩ 1000
      adminTasks (takeMoves smallGatewayDeps calmEnv (fun _ => noHooks) adminApp ⟨some "t".toList⟩ 1000
        adminTasks (.start (World.start FileTree.empty)) (List.replicate 40 (.next 0)))
      [.next 2]).progress 2).reply?.isSome = true := by decide +kernel
  obtain ⟨reply, hreply⟩ := Option.isSome_iff_exists.mp hanswered
  obtain ⟨first, hfirst, hresponse⟩ := (Option.any_eq_true _ _).mp hsynced
  cases first with
  | synced response =>
    have hdone := progress_of_reply hfirst
    refine ⟨response, reply, hdone, of_decide_eq_true hresponse, ?_⟩
    refine sync_then_snapshot smallGatewayDeps calmEnv (fun _ => noHooks) adminApp ⟨some "t".toList⟩ 1000
      adminTasks (World.start FileTree.empty) (fun _ => rfl) (List.replicate 40 (.next 0)) [.next 2] 0 2
      response hdone rfl ?_ reply (progress_of_reply hreply)
    refine takeMoves_other (trafficInv_start _) fun m hm => ?_
    rw [List.eq_of_mem_replicate hm]
    simp [Move.task]
  | _ => cases hresponse

end RenderMesh.Routes
