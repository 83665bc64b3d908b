import RenderMesh.Refresh.Generation

/-!
# Calls of the refresh service side by side

`refresh_origin` is called at startup, by the background loops and by the manual
route, for the same origin or for different ones, and a caller may go away at any
time. `Calls` is the process with all its calls; a `Turn` lets one of them take its
next step. The invariant `CallsInv` ties the lock of an origin to the one call that
holds its guard, and the stored generation to how far that call has come.

* `calls_step`: what one turn keeps, and what it does to the generations.
* `refresh_lock_and_generations`: the lock and the generations over every run.
-/
namespace RenderMesh.Refresh

open RenderMesh.Core RenderMesh.Mirror RenderMesh.Server

/-- Where a call of `refresh_origin` stands. -/
inductive CallState where
  | waiting
  | running (rest : Async OriginSyncResponse)
  /-- the pipeline has ended and the guard is about to be dropped -/
  | releasing (result : Outcome OriginRefreshError OriginSyncResponse)
  | done (result : Outcome OriginRefreshError OriginSyncResponse)

/-- The call holds the guard of its origin. -/
def CallState.Holds : CallState → Prop
  | .running _ | .releasing _ => True
  | _ => False

/-- The server and the calls made to it, by number. -/
structure Calls where
  world : World
  state : Nat → CallState

/-- One call takes its next step, or its caller goes away. -/
inductive Turn where
  | next (i : Nat)
  | drop (i : Nat)

/-- Call `i` comes to stand at `c`, and the server at `w`. -/
def Calls.move (s : Calls) (i : Nat) (w : World) (c : CallState) : Calls :=
  ⟨w, Function.update s.state i c⟩

/-- Call `i` goes on with the answer to its operation, or was dropped while it waited. -/
def Calls.answer (s : Calls) (i : Nat) {o : Op} (k : o.Res → Async OriginSyncResponse)
    (a : Option o.Res × World) : Calls :=
  match a.1 with
  | some r => s.move i a.2 (.running (k r))
  | none => s.move i a.2 (.releasing .dropped)

section
variable (deps : Deps) (env : Env) (service : OriginRefreshService) (originIds : Nat → Str)

/-- One turn; mirrors src/src/services/origin_refresh.rs:174-242. `originIds i` is what
call `i` asks for. The guard is dropped in a step of its own, after the error was stored. -/
def takeTurn (s : Calls) : Turn → Calls
  | .next i =>
    match s.state i with
    | .waiting =>
      if service.hasOrigin (originIds i) = false then s.move i s.world (.done (.err .notFound))
      else if s.world.locks (originIds i) then s.move i s.world (.done (.err .alreadyRunning))
      else s.move i (s.world.lock (originIds i)) (.running (pipeline deps service (originIds i)))
    | .running (.ret response) => s.move i s.world (.releasing (.ok response))
    | .running (.fail e) =>
      s.move i { s.world with
        originRuntime := setError s.world.originRuntime (originIds i) e.message }
        (.releasing (.err (.failed e)))
    | .running (.op o k) => s.answer i k (step deps env o s.world)
    | .releasing result => s.move i (s.world.unlock (originIds i)) (.done result)
    | .done _ => s
  | .drop i =>
    match s.state i with
    | .waiting => s.move i s.world (.done .dropped)
    | .running _ => s.move i s.world (.releasing .dropped)
    | _ => s

def takeTurns (s : Calls) (turns : List Turn) : Calls :=
  turns.foldl (takeTurn deps env service originIds) s

end

/-- The operation that a turn performs. -/
def executes (s : Calls) : Turn → Option Op
  | .next i =>
    match s.state i with
    | .running (.op o _) => some o
    | _ => none
  | .drop _ => none

/-- The operation stores a snapshot of `id`. -/
def storesSnapshot (id : Str) : Op → Bool
  | .setSnapshot snapshot => snapshot.originId = id
  | _ => false

/-- The generation with which a turn answers a call for `id`. -/
def okGeneration (originIds : Nat → Str) (id : Str) (s : Calls) : Turn → Option Nat
  | .next i =>
    match s.state i with
    | .releasing (.ok response) => if originIds i = id then some response.generation else none
    | _ => none
  | .drop _ => none

/-- The generations of the Ok responses for `id`, in their order. -/
def okGenerations (deps : Deps) (env : Env) (service : OriginRefreshService)
    (originIds : Nat → Str) (id : Str) (s : Calls) : List Turn → List Nat
  | [] => []
  | t :: ts => (okGeneration originIds id s t).toList ++
      okGenerations deps env service originIds id (takeTurn deps env service originIds s t) ts

/-- No call has been made yet. -/
def Calls.start (fs : Tree) : Calls := ⟨World.start fs, fun _ => .waiting⟩

/-! ## What an operation does to the stored generations -/

variable {deps : Deps} {env : Env} {service : OriginRefreshService} {originIds : Nat → Str}

theorem generationOf_update (w : World) (snapshots : Snapshots) (id : Str) :
    generationOf { w with originRuntime := snapshots } id =
      ((snapshots id).map (·.generation)).getD 0 := rfl

theorem setError_generation (w : World) (id' error id : Str) :
    generationOf { w with originRuntime := setError w.originRuntime id' error } id =
      generationOf w id := by
  rw [generationOf_update, setError, generationOf]
  by_cases h : id = id'
  · subst h
    rw [Function.update_self]
    cases w.originRuntime id <;> rfl
  · rw [Function.update_of_ne h]

/-- Only a stored snapshot moves a generation. -/
theorem step_generation (o : Op) (w : World) (id : Str) :
    generationOf (step deps env o w).2 id =
      match o with
      | .setSnapshot snapshot => if snapshot.originId = id then snapshot.generation else generationOf w id
      | _ => generationOf w id := by
  cases o with
  | setSnapshot snapshot =>
    simp only [step, generationOf, setSnapshot, World.tick]
    by_cases h : snapshot.originId = id
    · subst h
      rw [if_pos rfl, Function.update_self]
      cases w.originRuntime snapshot.originId <;> rfl
    · rw [if_neg h, Function.update_of_ne (Ne.symm h)]
  | setCdnResult id' _ _ _ _ _ =>
    simp only [step, generationOf, setCdnResult, World.tick]
    by_cases h : id = id'
    · subst h
      rw [Function.update_self]
      cases w.originRuntime id <;> rfl
    · rw [Function.update_of_ne h]
  | setCdnError id' _ =>
    simp only [step, generationOf, setCdnError, World.tick]
    by_cases h : id = id'
    · subst h
      rw [Function.update_self]
      cases w.originRuntime id <;> rfl
    · rw [Function.update_of_ne h]
  | _ => rfl

theorem step_locks (o : Op) (w : World) : (step deps env o w).2.locks = w.locks := by
  cases o <;> rfl

/-! ## The invariant -/

/-- The generation is `gen` when the call started from `base` and has come to `q`. -/
def Phase.At (base gen : Nat) : Phase → Prop
  | .staging => gen = base
  | .numbered g => gen = base ∧ g = base + 1
  | .activated g => gen = base + 1 ∧ g = base + 1

/-- The same for a call that holds the guard. -/
def CallState.At (id : Str) (base gen : Nat) : CallState → Prop
  | .running rest => ∃ q : Phase, rest.Follows (generations id) Settles q ∧ q.At base gen
  | .releasing (.ok response) => gen = base + 1 ∧ response.generation = base + 1
  | .releasing (.err _) => gen = base
  | .releasing .dropped => gen = base ∨ gen = base + 1
  | _ => True

/-- The invariant of a run. `base id` is the generation of `id` when its lock was last
taken or given back. -/
structure CallsInv (originIds : Nat → Str) (base : Str → Nat) (s : Calls) : Prop where
  alone : ∀ i j, (s.state i).Holds → (s.state j).Holds → originIds i = originIds j → i = j
  locked : ∀ id, s.world.locks id = true ↔ ∃ i, originIds i = id ∧ (s.state i).Holds
  free : ∀ id, s.world.locks id = false → generationOf s.world id = base id
  held : ∀ i, (s.state i).At (originIds i) (base (originIds i)) (generationOf s.world (originIds i))

/-- What the protocol allows stores the next generation, or none. -/
theorem allowed_generation {id : Str} {q : Phase} {base : Nat} {o : Op} {w : World}
    (h : q.At base (generationOf w id)) (ho : (generations id).allows q o) (id' : Str) :
    generationOf (step deps env o w).2 id' =
      generationOf w id' + (if storesSnapshot id' o then 1 else 0) := by
  rw [step_generation]
  cases o with
  | setSnapshot snapshot =>
    cases q with
    | staging => exact False.elim ho
    | activated g => exact False.elim ho
    | numbered g =>
      obtain ⟨hid, hg⟩ := ho
      obtain ⟨hbase, hnext⟩ := h
      by_cases hid' : snapshot.originId = id'
      · have hsame : generationOf w id' = base := by
          rw [← hid', hid]
          exact hbase
        simp only [storesSnapshot, hid', if_true, decide_true]
        omega
      · simp [storesSnapshot, hid']
  | _ => rfl

/-- The phase moves with the stored generation. -/
theorem Phase.At.next {id : Str} {q : Phase} {base : Nat} {o : Op} {w : World}
    (h : q.At base (generationOf w id)) (ho : (generations id).allows q o) {r : o.Res}
    (hr : (step deps env o w).1 = some r) :
    ((generations id).next q o r).At base (generationOf (step deps env o w).2 id) := by
  rw [step_generation]
  cases o with
  | setSnapshot snapshot =>
    cases q with
    | staging => exact False.elim ho
    | activated g => exact False.elim ho
    | numbered g =>
      obtain ⟨hid, hg⟩ := ho
      simp only [hid, if_true]
      exact ⟨hg.trans h.2, h.2⟩
  | originSnapshot id' =>
    have hread : r = w.originRuntime id' := (Option.some.inj hr).symm
    subst hread
    by_cases hid : id' = id
    · subst hid
      have hnumber : ((w.originRuntime id').map fun snapshot => snapshot.generation + 1).getD 1 =
          generationOf w id' + 1 := by
        rw [generationOf]
        cases w.originRuntime id' <;> rfl
      cases q with
      | activated g => exact h
      | staging =>
        simp only [generations, if_true]
        exact ⟨h, by rw [hnumber, show generationOf w id' = base from h]⟩
      | numbered g =>
        simp only [generations, if_true]
        exact ⟨h.1, by rw [hnumber, h.1]⟩
    · cases q with
      | activated g => exact h
      | _ =>
        simp only [generations, if_neg hid]
        exact h
  | _ => cases q <;> exact h

/-! ## One turn -/

theorem move_state (s : Calls) (i : Nat) (w : World) (c : CallState) (j : Nat) :
    (s.move i w c).state j = if j = i then c else s.state j := by
  simp [Calls.move, Function.update_apply]

section
variable {base : Str → Nat} {s : Calls} (h : CallsInv originIds base s) {i : Nat} {w : World}
  {c : CallState}
include h

/-- Two calls for one origin cannot both hold its guard, so what one holds says nothing
of the other. -/
theorem CallsInv.at_other {j : Nat} (hi : (s.state i).Holds) (hj : j ≠ i)
    (hid : originIds j = originIds i) (b g : Nat) : (s.state j).At (originIds j) b g := by
  have hnot : ¬ (s.state j).Holds := fun hh => hj (h.alone j i hh hi hid)
  cases hs : s.state j with
  | waiting => trivial
  | done result => trivial
  | running rest => rw [hs] at hnot; exact absurd trivial hnot
  | releasing result => rw [hs] at hnot; exact absurd trivial hnot

/-- The call that holds the guard goes on. -/
theorem CallsInv.go_on (hi : (s.state i).Holds) (hc : c.Holds)
    (hat : c.At (originIds i) (base (originIds i)) (generationOf w (originIds i)))
    (hlocks : w.locks = s.world.locks)
    (hother : ∀ id, id ≠ originIds i → generationOf w id = generationOf s.world id) :
    CallsInv originIds base (s.move i w c) := by
  have hholds : ∀ j, ((s.move i w c).state j).Holds ↔ (s.state j).Holds := by
    intro j
    rw [move_state]
    split
    · rename_i hj
      subst hj
      exact ⟨fun _ => hi, fun _ => hc⟩
    · rfl
  refine ⟨fun j k hj hk => ?_, fun id => ?_, fun id hfree => ?_, fun j => ?_⟩
  · exact h.alone j k ((hholds j).mp hj) ((hholds k).mp hk)
  · rw [show (s.move i w c).world.locks = s.world.locks from hlocks, h.locked]
    simp only [hholds]
  · rw [show (s.move i w c).world.locks = s.world.locks from hlocks] at hfree
    have hne : id ≠ originIds i := by
      rintro rfl
      rw [(h.locked (originIds i)).mpr ⟨i, rfl, hi⟩] at hfree
      cases hfree
    exact (hother id hne).trans (h.free id hfree)
  · rw [move_state]
    by_cases hj : j = i
    · rw [if_pos hj, hj]
      exact hat
    · rw [if_neg hj]
      by_cases hid : originIds j = originIds i
      · exact h.at_other hi hj hid _ _
      · rw [show (s.move i w c).world = w from rfl, hother _ hid]
        exact h.held j

/-- A call that holds no guard ends. -/
theorem CallsInv.refuse (hi : ¬ (s.state i).Holds) (result : Outcome OriginRefreshError OriginSyncResponse) :
    CallsInv originIds base (s.move i s.world (.done result)) := by
  have hholds : ∀ j, ((s.move i s.world (.done result)).state j).Holds ↔ (s.state j).Holds := by
    intro j
    rw [move_state]
    split
    · rename_i hj
      subst hj
      exact ⟨fun hd => False.elim hd, fun hh => absurd hh hi⟩
    · rfl
  refine ⟨fun j k hj hk => ?_, fun id => ?_, h.free, fun j => ?_⟩
  · exact h.alone j k ((hholds j).mp hj) ((hholds k).mp hk)
  · simp only [hholds]
    exact h.locked id
  · rw [move_state]
    split
    · trivial
    · exact h.held j

/-- A call takes the guard that nobody holds. -/
theorem CallsInv.start (hi : ¬ (s.state i).Holds) (hfree : s.world.locks (originIds i) = false) :
    CallsInv originIds base (s.move i (s.world.lock (originIds i))
      (.running (pipeline deps service (originIds i)))) := by
  have hnone : ∀ j, originIds j = originIds i → ¬ (s.state j).Holds := fun j hj hh => by
    rw [(h.locked (originIds i)).mpr ⟨j, hj, hh⟩] at hfree
    cases hfree
  refine ⟨fun j k hj hk hid => ?_, fun id => ?_, fun id hid => ?_, fun j => ?_⟩
  · rw [move_state] at hj hk
    split at hj <;> split at hk
    · rename_i h1 h2
      exact h1.trans h2.symm
    · rename_i h1 h2
      exact absurd hk (hnone k (by rw [← hid, h1]))
    · rename_i h1 h2
      exact absurd hj (hnone j (by rw [hid, h2]))
    · exact h.alone j k hj hk hid
  · by_cases hid : id = originIds i
    · subst hid
      have hlock : (s.move i (s.world.lock (originIds i))
          (.running (pipeline deps service (originIds i)))).world.locks (originIds i) = true :=
        Function.update_self ..
      rw [hlock]
      exact ⟨fun _ => ⟨i, rfl, by rw [move_state, if_pos rfl]; trivial⟩, fun _ => rfl⟩
    · have hlock : (s.move i (s.world.lock (originIds i))
          (.running (pipeline deps service (originIds i)))).world.locks id = s.world.locks id :=
        Function.update_of_ne hid _ _
      rw [hlock, h.locked]
      constructor
      · rintro ⟨j, rfl, hj⟩
        exact ⟨j, rfl, by rw [move_state, if_neg fun hji => hid (by rw [hji])]; exact hj⟩
      · rintro ⟨j, rfl, hj⟩
        rw [move_state, if_neg fun hji => hid (by rw [hji])] at hj
        exact ⟨j, rfl, hj⟩
  · by_cases hne : id = originIds i
    · subst hne
      exact absurd (hid.symm.trans (Function.update_self ..)) (by simp)
    · exact h.free id ((Function.update_of_ne hne _ _).symm.trans hid)
  · rw [move_state]
    split
    · rename_i hj
      subst hj
      exact ⟨.staging, pipeline_follows service, h.free _ hfree⟩
    · exact h.held j

/-- The guard is dropped. -/
theorem CallsInv.release (hi : (s.state i).Holds) (result : Outcome OriginRefreshError OriginSyncResponse) :
    CallsInv originIds (Function.update base (originIds i) (generationOf s.world (originIds i)))
      (s.move i (s.world.unlock (originIds i)) (.done result)) := by
  refine ⟨fun j k hj hk hid => ?_, fun id => ?_, fun id hid => ?_, fun j => ?_⟩
  · rw [move_state] at hj hk
    split at hj
    · exact False.elim hj
    · split at hk
      · exact False.elim hk
      · exact h.alone j k hj hk hid
  · by_cases hid : id = originIds i
    · subst hid
      have hlock : (s.move i (s.world.unlock (originIds i)) (.done result)).world.locks
          (originIds i) = false := Function.update_self ..
      rw [hlock]
      refine ⟨by simp, ?_⟩
      rintro ⟨j, hj, hh⟩
      rw [move_state] at hh
      split at hh
      · exact False.elim hh
      · rename_i hji
        exact absurd (h.alone j i hh hi hj) hji
    · have hlock : (s.move i (s.world.unlock (originIds i)) (.done result)).world.locks id =
          s.world.locks id := Function.update_of_ne hid _ _
      rw [hlock, h.locked]
      constructor
      · rintro ⟨j, rfl, hj⟩
        exact ⟨j, rfl, by rw [move_state, if_neg fun hji => hid (by rw [hji])]; exact hj⟩
      · rintro ⟨j, rfl, hj⟩
        rw [move_state, if_neg fun hji => hid (by rw [hji])] at hj
        exact ⟨j, rfl, hj⟩
  · by_cases hne : id = originIds i
    · subst hne
      rw [Function.update_self]
      rfl
    · rw [Function.update_of_ne hne]
      exact h.free id ((Function.update_of_ne hne _ _).symm.trans hid)
  · rw [move_state]
    split
    · trivial
    · rename_i hj
      by_cases hid : originIds j = originIds i
      · exact h.at_other hi hj hid _ _
      · rw [Function.update_of_ne hid]
        exact h.held j

end

/-- What one turn keeps and what it does: a generation moves with a stored snapshot only,
and an Ok response settles the next one. -/
theorem calls_step {base : Str → Nat} {s : Calls} (h : CallsInv originIds base s) (t : Turn) :
    (∀ id, generationOf (takeTurn deps env service originIds s t).world id =
      generationOf s.world id + (if (executes s t).any (storesSnapshot id) then 1 else 0)) ∧
    ∃ base', CallsInv originIds base' (takeTurn deps env service originIds s t) ∧
      ∀ id, (∀ i, originIds i = id → s.state i ≠ .releasing .dropped) →
        base' id = base id + (okGeneration originIds id s t).toList.length ∧
        ∀ g, okGeneration originIds id s t = some g → g = base id + 1 := by
  cases t with
  | drop i =>
    cases hs : s.state i with
    | waiting =>
      simp only [takeTurn, executes, okGeneration, hs]
      exact ⟨fun id => rfl, base, h.refuse (by rw [hs]; exact id) _, by simp⟩
    | running rest =>
      have hi : (s.state i).Holds := by rw [hs]; trivial
      have hat := h.held i
      rw [hs] at hat
      obtain ⟨q, -, hq⟩ := hat
      simp only [takeTurn, executes, okGeneration, hs]
      refine ⟨fun id => rfl, base, h.go_on hi trivial ?_ rfl (fun _ _ => rfl), by simp⟩
      cases q with
      | staging => exact Or.inl hq
      | numbered g => exact Or.inl hq.1
      | activated g => exact Or.inr hq.1
    | releasing result =>
      simp only [takeTurn, executes, okGeneration, hs]
      exact ⟨fun id => rfl, base, h, by simp⟩
    | done result =>
      simp only [takeTurn, executes, okGeneration, hs]
      exact ⟨fun id => rfl, base, h, by simp⟩
  | next i =>
    cases hs : s.state i with
    | done result =>
      simp only [takeTurn, executes, okGeneration, hs]
      exact ⟨fun id => rfl, base, h, by simp⟩
    | waiting =>
      have hi : ¬ (s.state i).Holds := by rw [hs]; exact id
      simp only [takeTurn, executes, okGeneration, hs]
      split
      · exact ⟨fun id => rfl, base, h.refuse hi _, by simp⟩
      · split
        · exact ⟨fun id => rfl, base, h.refuse hi _, by simp⟩
        · rename_i hlock
          exact ⟨fun id => rfl, base, h.start hi (Bool.not_eq_true _ ▸ hlock), by simp⟩
    | releasing result =>
      have hi : (s.state i).Holds := by rw [hs]; trivial
      have hat := h.held i
      rw [hs] at hat
      simp only [takeTurn, executes, okGeneration, hs]
      refine ⟨fun id => rfl, _, h.release hi result, fun id hnot => ?_⟩
      by_cases hid : originIds i = id
      · subst hid
        rw [Function.update_self]
        cases result with
        | ok response =>
          simp only [if_true, Option.toList_some, List.length_singleton, Option.some.injEq]
          exact ⟨hat.1, fun g hg => hg ▸ hat.2⟩
        | err e => exact ⟨hat, by simp⟩
        | dropped => exact absurd hs (hnot i rfl)
      · rw [Function.update_of_ne (Ne.symm hid)]
        cases result <;> simp [hid]
    | running rest =>
      have hi : (s.state i).Holds := by rw [hs]; trivial
      have hat := h.held i
      rw [hs] at hat
      obtain ⟨q, hfollows, hq⟩ := hat
      cases rest with
      | ret response =>
        simp only [takeTurn, executes, okGeneration, hs]
        refine ⟨fun id => rfl, base, h.go_on hi trivial ?_ rfl (fun _ _ => rfl), by simp⟩
        cases q with
        | activated g => exact ⟨hq.1, Eq.trans hfollows hq.2⟩
        | _ => exact False.elim hfollows
      | fail e =>
        simp only [takeTurn, executes, okGeneration, hs]
        refine ⟨fun id => setError_generation _ _ _ _, base, h.go_on hi trivial ?_ rfl
          (fun _ _ => setError_generation _ _ _ _), by simp⟩
        rw [setError_generation]
        cases q with
        | activated g => exact False.elim hfollows
        | staging => exact hq
        | numbered g => exact hq.1
      | op o k =>
        obtain ⟨ho, hk⟩ := hfollows
        have hgen := @allowed_generation deps env _ _ _ _ _ hq ho
        have hnext := @Phase.At.next deps env _ _ _ _ _ hq ho
        have hlocks := @step_locks deps env o s.world
        have hother : ∀ id, id ≠ originIds i → generationOf (step deps env o s.world).2 id =
            generationOf s.world id := by
          intro id hid
          rw [hgen]
          cases o with
          | setSnapshot snapshot =>
            cases q with
            | numbered g => simp [storesSnapshot, ho.1, Ne.symm hid]
            | _ => exact False.elim ho
          | _ => rfl
        simp only [takeTurn, executes, okGeneration, hs]
        cases hr : (step deps env o s.world).1 with
        | some r =>
          refine ⟨fun id => ?_, base, ?_, by simp⟩
          · simp only [Calls.answer, hr]
            exact hgen id
          · simp only [Calls.answer, hr]
            exact h.go_on hi trivial ⟨_, hk r, hnext hr⟩ hlocks hother
        | none =>
          refine ⟨fun id => ?_, base, ?_, by simp⟩
          · simp only [Calls.answer, hr]
            exact hgen id
          · simp only [Calls.answer, hr]
            refine h.go_on hi trivial ?_ hlocks hother
            rw [hgen]
            cases o with
            | setSnapshot snapshot => cases hr
            | _ =>
              cases q with
              | staging => exact Or.inl hq
              | numbered g => exact Or.inl hq.1
              | activated g => exact Or.inr hq.1

/-! ## One call alone -/

theorem move_move (s : Calls) (i : Nat) (w w' : World) (c c' : CallState) :
    (s.move i w c).move i w' c' = s.move i w' c' := by
  simp [Calls.move]

/-- A pipeline that takes turn after turn ends as its run does. -/
theorem running_turns (s : Calls) (i : Nat) (rest : Async OriginSyncResponse) (w : World) :
    ∃ n, takeTurns deps env service originIds (s.move i w (.running rest))
        (List.replicate n (.next i)) =
      match run (step deps env) rest w with
      | (.ok response, w') => s.move i w' (.releasing (.ok response))
      | (.err e, w') => s.move i { w' with
          originRuntime := setError w'.originRuntime (originIds i) e.message }
          (.releasing (.err (.failed e)))
      | (.dropped, w') => s.move i w' (.releasing .dropped) := by
  have hstate : ∀ w c, (s.move i w c).state i = c := fun w c => by rw [move_state, if_pos rfl]
  induction rest generalizing w with
  | ret response =>
    refine ⟨1, ?_⟩
    simp only [takeTurns, List.replicate, List.foldl, takeTurn, hstate, move_move, run]
    rfl
  | fail e =>
    refine ⟨1, ?_⟩
    simp only [takeTurns, List.replicate, List.foldl, takeTurn, hstate, move_move, run]
    rfl
  | op o k ih =>
    rw [run]
    rcases hr : step deps env o w with ⟨_ | r, w'⟩
    · refine ⟨1, ?_⟩
      simp only [takeTurns, List.replicate, List.foldl, takeTurn, hstate, Calls.answer,
        show (s.move i w (.running (.op o k))).world = w from rfl, hr, move_move]
    · obtain ⟨n, hn⟩ := ih r w'
      refine ⟨n + 1, ?_⟩
      rw [List.replicate_succ, takeTurns, List.foldl_cons]
      simp only [takeTurn, hstate, Calls.answer,
        show (s.move i w (.running (.op o k))).world = w from rfl, hr, move_move]
      exact hn

/-- A call that takes all turns does what `refreshOrigin` computes. -/
theorem refreshOrigin_turns (s : Calls) (i : Nat) (hi : s.state i = .waiting) :
    ∃ n, takeTurns deps env service originIds s (List.replicate n (.next i)) =
      s.move i (refreshOrigin deps env service (originIds i) s.world).2
        (.done (refreshOrigin deps env service (originIds i) s.world).1) := by
  by_cases horigin : service.hasOrigin (originIds i) = false
  · refine ⟨1, ?_⟩
    simp [takeTurns, takeTurn, hi, refreshOrigin, horigin]
  · by_cases hlock : s.world.locks (originIds i) = true
    · refine ⟨1, ?_⟩
      simp [takeTurns, takeTurn, hi, refreshOrigin, horigin, hlock]
    · obtain ⟨n, hn⟩ := @running_turns deps env service originIds s i
        (pipeline deps service (originIds i)) (s.world.lock (originIds i))
      refine ⟨n + 2, ?_⟩
      have hfirst : takeTurn deps env service originIds s (.next i) =
          s.move i (s.world.lock (originIds i)) (.running (pipeline deps service (originIds i))) := by
        simp [takeTurn, hi, horigin, hlock]
      rw [List.replicate_succ, List.replicate_succ', takeTurns, List.foldl_cons, hfirst,
        List.foldl_append, List.foldl_cons, List.foldl_nil]
      rw [takeTurns] at hn
      rw [hn, refreshOrigin, if_neg horigin, if_neg hlock, pipeline]
      rcases run (step deps env) (refreshOriginSnapshot deps (originIds i)
        (service.cdn (originIds i)) (service.activationBarrier (originIds i)))
        (s.world.lock (originIds i)) with ⟨response | e | _, w'⟩
      all_goals
        simp only [takeTurn, move_state, if_true, move_move]
        rfl

/-! ## Runs -/

theorem callsInv_start (fs : Tree) : CallsInv originIds (fun _ => 0) (Calls.start fs) := by
  refine ⟨fun i j hi => False.elim hi, fun id => ⟨by simp [Calls.start, World.start], ?_⟩,
    fun id _ => rfl, fun i => trivial⟩
  rintro ⟨i, -, hi⟩
  exact False.elim hi

theorem callsInv_turns {base : Str → Nat} {s : Calls} (h : CallsInv originIds base s)
    (turns : List Turn) :
    ∃ base', CallsInv originIds base' (takeTurns deps env service originIds s turns) := by
  induction turns generalizing base s with
  | nil => exact ⟨base, h⟩
  | cons t ts ih =>
    obtain ⟨-, base', h', -⟩ := calls_step h t
    exact ih h'

/-- The call was dropped, before or after it gave its guard back. -/
def CallState.Dropped : CallState → Prop
  | .releasing .dropped | .done .dropped => True
  | _ => False

/-- A turn moves one call only. -/
theorem takeTurn_other {s : Calls} {i j : Nat} (hij : i ≠ j) {t : Turn}
    (ht : t = .next j ∨ t = .drop j) :
    (takeTurn deps env service originIds s t).state i = s.state i := by
  have hmove : ∀ w c, (s.move j w c).state i = s.state i := fun w c => by
    rw [move_state, if_neg hij]
  rcases ht with rfl | rfl
  · cases hs : s.state j with
    | waiting =>
      simp only [takeTurn, hs]
      repeat' split
      all_goals exact hmove _ _
    | running rest =>
      cases rest with
      | ret response => simp only [takeTurn, hs, hmove]
      | fail e => simp only [takeTurn, hs, hmove]
      | op o k =>
        simp only [takeTurn, hs, Calls.answer]
        split <;> exact hmove _ _
    | releasing result => simp only [takeTurn, hs, hmove]
    | done result => simp only [takeTurn, hs]
  · cases hs : s.state j <;> simp only [takeTurn, hs, hmove]

theorem dropped_turn {s : Calls} {i : Nat} (h : (s.state i).Dropped) (t : Turn) :
    ((takeTurn deps env service originIds s t).state i).Dropped := by
  have hcases : s.state i = .releasing .dropped ∨ s.state i = .done .dropped := by
    cases hs : s.state i with
    | waiting => rw [hs] at h; exact False.elim h
    | running rest => rw [hs] at h; exact False.elim h
    | releasing result =>
      rw [hs] at h
      cases result <;> first | exact Or.inl rfl | exact False.elim h
    | done result =>
      rw [hs] at h
      cases result <;> first | exact Or.inr rfl | exact False.elim h
  obtain ⟨j, hj⟩ : ∃ j, t = .next j ∨ t = .drop j := by
    cases t with
    | next j => exact ⟨j, Or.inl rfl⟩
    | drop j => exact ⟨j, Or.inr rfl⟩
  by_cases hij : i = j
  · subst hij
    rcases hj with rfl | rfl <;> rcases hcases with hs | hs <;> simp only [takeTurn, hs]
    · rw [move_state, if_pos rfl]
      trivial
    all_goals trivial
  · rw [takeTurn_other hij hj]
    exact h

theorem dropped_turns {s : Calls} {i : Nat} (h : (s.state i).Dropped) (turns : List Turn) :
    ((takeTurns deps env service originIds s turns).state i).Dropped := by
  induction turns generalizing s with
  | nil => exact h
  | cons t ts ih => exact ih (dropped_turn h t)

/-- While no call for `id` is dropped, its Ok responses count on from the generation
they start with. -/
theorem okGenerations_turns {base : Str → Nat} {s : Calls} (h : CallsInv originIds base s)
    {id : Str} (turns : List Turn)
    (hkeep : ∀ i, originIds i = id →
      ¬ ((takeTurns deps env service originIds s turns).state i).Dropped) :
    okGenerations deps env service originIds id s turns = List.range' (base id + 1)
      (okGenerations deps env service originIds id s turns).length := by
  induction turns generalizing base s with
  | nil => rfl
  | cons t ts ih =>
    obtain ⟨-, base', h', hsettle⟩ := calls_step h t
    obtain ⟨hbase, hok⟩ := hsettle id fun i hi hs =>
      hkeep i hi (dropped_turns (by rw [hs]; trivial) (t :: ts))
    have hrest := ih h' hkeep
    rw [okGenerations]
    cases hg : okGeneration originIds id s t with
    | none =>
      rw [hg] at hbase
      rw [show base' id = base id from hbase] at hrest
      exact hrest
    | some g =>
      rw [hg] at hbase
      rw [show base' id = base id + 1 from hbase] at hrest
      rw [hok g hg, Option.toList_some, List.singleton_append, List.length_cons, List.range'_succ,
        ← hrest]

/-- The process after these turns. -/
def afterTurns (deps : Deps) (env : Env) (service : OriginRefreshService) (originIds : Nat → Str)
    (fs : Tree) (turns : List Turn) : Calls :=
  takeTurns deps env service originIds (Calls.start fs) turns

/-- A turn stores one snapshot at most, so that the `u64` of the source counts generations as well
as a `Nat` does until 2^64 turns have been taken. -/
theorem generation_le_turns (fs : Tree) (turns : List Turn) (id : Str) :
    generationOf (afterTurns deps env service originIds fs turns).world id ≤ turns.length := by
  induction turns using List.reverseRecOn with
  | nil => exact Nat.zero_le _
  | append_singleton turns t ih =>
    obtain ⟨base, h⟩ := @callsInv_turns deps env service originIds _ _ (@callsInv_start originIds fs) turns
    have hone := (@calls_step deps env service originIds base _ h t).1 id
    have hlast : afterTurns deps env service originIds fs (turns ++ [t]) =
        takeTurn deps env service originIds (afterTurns deps env service originIds fs turns) t := by
      simp only [afterTurns, takeTurns, List.foldl_append, List.foldl_cons, List.foldl_nil]
    rw [hlast, afterTurns, hone, List.length_append, List.length_singleton]
    refine Nat.add_le_add ih ?_
    split <;> decide

theorem refresh_lock_and_generations (deps : Deps) (env : Env) (service : OriginRefreshService)
    (originIds : Nat → Str) (fs : Tree) (turns : List Turn) :
    -- one pipeline of an origin at a time
    (∀ i j, ((afterTurns deps env service originIds fs turns).state i).Holds →
      ((afterTurns deps env service originIds fs turns).state j).Holds →
      originIds i = originIds j → i = j) ∧
    -- a call that finds one is refused and changes nothing
    (∀ i, (afterTurns deps env service originIds fs turns).state i = .waiting →
      service.hasOrigin (originIds i) = true →
      (∃ j, originIds j = originIds i ∧
        ((afterTurns deps env service originIds fs turns).state j).Holds) →
      takeTurn deps env service originIds (afterTurns deps env service originIds fs turns) (.next i) =
        (afterTurns deps env service originIds fs turns).move i
          (afterTurns deps env service originIds fs turns).world
          (.done (.err .alreadyRunning))) ∧
    -- a pipeline that has ended gives the lock back
    (∀ i result, (afterTurns deps env service originIds fs turns).state i = .releasing result →
      ∀ j, originIds j = originIds i →
        ¬ ((takeTurn deps env service originIds (afterTurns deps env service originIds fs turns)
          (.next i)).state j).Holds) ∧
    -- and then the next call starts one
    (∀ i, (afterTurns deps env service originIds fs turns).state i = .waiting →
      service.hasOrigin (originIds i) = true →
      (∀ j, originIds j = originIds i →
        ¬ ((afterTurns deps env service originIds fs turns).state j).Holds) →
      takeTurn deps env service originIds (afterTurns deps env service originIds fs turns) (.next i) =
        (afterTurns deps env service originIds fs turns).move i
          ((afterTurns deps env service originIds fs turns).world.lock (originIds i))
          (.running (pipeline deps service (originIds i)))) ∧
    -- generations grow by one at a stored snapshot, and never move otherwise
    (∀ t id, generationOf (takeTurn deps env service originIds
        (afterTurns deps env service originIds fs turns) t).world id =
      generationOf (afterTurns deps env service originIds fs turns).world id +
        if (executes (afterTurns deps env service originIds fs turns) t).any (storesSnapshot id)
          then 1 else 0) ∧
    -- Ok responses are numbered 1, 2, 3, ...
    (∀ id, (∀ i, originIds i = id →
        ¬ ((afterTurns deps env service originIds fs turns).state i).Dropped) →
      okGenerations deps env service originIds id (Calls.start fs) turns =
        List.range' 1 (okGenerations deps env service originIds id (Calls.start fs) turns).length) := by
  have hstart := @callsInv_start originIds fs
  obtain ⟨base, h⟩ := @callsInv_turns deps env service originIds _ _ hstart turns
  change CallsInv originIds base (afterTurns deps env service originIds fs turns) at h
  generalize hs : afterTurns deps env service originIds fs turns = s at h ⊢
  refine ⟨h.alone, fun i hi horigin hheld => ?_, fun i result hi j hj => ?_,
    fun i hi horigin hfree => ?_, fun t => (calls_step h t).1, fun id hkeep => ?_⟩
  · have hlock := (h.locked (originIds i)).mpr hheld
    simp only [takeTurn, hi, horigin, hlock]
    simp
  · simp only [takeTurn, hi]
    rw [move_state]
    split
    · exact fun hh => hh
    · rename_i hji
      exact fun hh => hji (h.alone j i hh (by rw [hi]; trivial) hj)
  · have hlock : s.world.locks (originIds i) = false := by
      cases hl : s.world.locks (originIds i) with
      | false => rfl
      | true =>
        obtain ⟨j, hj, hh⟩ := (h.locked _).mp hl
        exact absurd hh (hfree j hj)
    simp only [takeTurn, hi, horigin, hlock]
    simp
  · exact okGenerations_turns hstart turns (by rw [← hs] at hkeep; exact hkeep)

/-- Call 1 comes while call 0 runs, and is refused; call 2 comes after it. -/
example : okGenerations smallDeps calmEnv plainService (fun _ => "web".toList) "web".toList
    (Calls.start FileTree.empty)
    (List.replicate 3 (.next 0) ++ [.next 1] ++ List.replicate 40 (.next 0) ++ [.next 1] ++
      List.replicate 45 (.next 2)) = [1, 2] := by decide +kernel

end RenderMesh.Refresh
