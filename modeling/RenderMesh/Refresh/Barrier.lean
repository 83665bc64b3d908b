import RenderMesh.Refresh.Config
import Mathlib.Logic.Function.Basic
import Mathlib.Order.Monotone.Basic

/-!
# The activation barrier

Both sides of it. A refresh asks that an update changes the barrier
(`src/src/services/origin_refresh.rs:440-472`). A publisher writes a barrier that no
edge configuration can be read from, puts and deletes the other objects, and writes
a valid barrier with a content of its own (`README.md:146-152`).

* `validateActivationBarrier_ok`: nothing changed, or the barrier is fetched.
* `History.same_of_count`: while no publication is completed, a storage between
  publications stays as it is.
* `History.same_of_barrier`: a barrier that is seen twice has been there all the time.
-/
namespace RenderMesh.Refresh

open RenderMesh.Core RenderMesh.Mirror RenderMesh.Server

def edgeYaml : Str := ".rendermesh/edge.yaml".toList

/-! ## The check of a refresh -/

/-- An update that passes has no change at all, or the barrier is one of its changes. -/
theorem validateActivationBarrier_ok {id path : Str} {previous : Option OriginFreshnessIndex}
    {next : OriginFreshnessIndex}
    (h : validateActivationBarrier id previous next (diffOriginIndexes previous next) (some path) =
      .ok ()) :
    ((∀ k, k ∉ (diffOriginIndexes previous next).changedPaths) ∧
      ∀ k, k ∉ (diffOriginIndexes previous next).removed) ∨
    path ∈ (diffOriginIndexes previous next).changedPaths := by
  set diff := diffOriginIndexes previous next with hdiff
  simp only [validateActivationBarrier] at h
  by_cases hchanges : (!diff.added.isEmpty || !diff.modified.isEmpty || !diff.removed.isEmpty) = true
  · right
    rw [if_neg (by rw [hchanges]; decide)] at h
    have hnext : next.files.contains path = true := by
      cases hcontains : next.files.contains path with
      | true => rfl
      | false => rw [hcontains] at h; cases h
    rw [if_neg (by rw [hnext]; decide)] at h
    rw [Std.TreeMap.contains_iff_mem] at hnext
    rw [OriginFreshnessDiff.changedPaths, List.mem_append, Std.TreeSet.mem_toList,
      Std.TreeSet.mem_toList]
    by_cases hbefore : ((previous.map fun index => index.files.contains path).getD false) = true
    · have hchanged : (diff.added.contains path || diff.modified.contains path) = true := by
        by_contra hno
        rw [if_pos (by simp [hbefore, Bool.not_eq_true _ ▸ hno])] at h
        cases h
      simpa [Std.TreeSet.contains_iff_mem] using hchanged
    · -- a barrier that was not there is added
      left
      rw [hdiff, mem_added]
      refine ⟨hnext, ?_⟩
      cases previous with
      | none => rfl
      | some previous =>
        simp only [Option.map_some, Option.getD_some, Std.TreeMap.contains_iff_mem] at hbefore
        simpa [previousFile] using hbefore
  · left
    simp only [Bool.or_eq_true, Bool.not_eq_true', not_or, Bool.not_eq_false] at hchanges
    obtain ⟨⟨hadded, hmodified⟩, hremoved⟩ := hchanges
    refine ⟨fun k hk => ?_, fun k => Std.TreeSet.isEmpty_iff_forall_not_mem.mp hremoved k⟩
    rw [OriginFreshnessDiff.changedPaths, List.mem_append, Std.TreeSet.mem_toList,
      Std.TreeSet.mem_toList] at hk
    exact hk.elim (Std.TreeSet.isEmpty_iff_forall_not_mem.mp hadded k)
      (Std.TreeSet.isEmpty_iff_forall_not_mem.mp hmodified k)

section
variable {deps : Deps} {env : Env} {id : Str} {cdn : Option OriginCdnRefresh} {path : Option Str}
  {w w' : World}

/-- A refresh that activated passed the check. -/
theorem Refreshed.barrier (href : Refreshed deps env id cdn path w w')
    (hsteps : ∀ e ∈ trace (step deps env) (stageOriginSync deps id (w.freshnessIndexes id)) w.tick,
      ¬ probeFails env id e.1 e.2 = true) {index : OriginFreshnessIndex}
    (hindex : w'.freshnessIndexes id = some index) :
    validateActivationBarrier id (w.freshnessIndexes id) index
      (diffOriginIndexes (w.freshnessIndexes id) index) path = .ok () := by
  obtain ⟨staged, config, registry, snapshot, w1, w2, w3, hstage, hprep, hact, hdata, -⟩ := href
  obtain ⟨hid, hsid, hdir⟩ := stageOriginSync_shape hstage
  have hs : InStaging staged.stagingDir := hdir ▸ stagingPath_inStaging deps hid _
  have hpost := ends_iff.mp (stageOriginSync_ends (fun _ _ h => h) w.tick) hsteps
  rw [hstage] at hpost
  obtain ⟨hdiff, -⟩ := hpost staged rfl
  obtain ⟨hbarrier, -⟩ := prepareActivation_ok hid hdir hprep
  obtain ⟨-, -, -, hstored⟩ := activate_ok hid hsid hs hact
  rw [hdata.freshnessIndexes, hstored] at hindex
  cases hindex
  rwa [hdiff] at hbarrier

/-- `parse_edge_config` accepts the content. -/
def configures (deps : Deps) (body : Bytes) : Bool :=
  match fromUtf8 body with
  | none => false
  | some content => (parseEdgeConfig deps content).isOk

/-- What a refresh activates at `edge.yaml` is a configuration. -/
theorem Refreshed.configures (href : Refreshed deps env id cdn path w w') {body : Bytes}
    (hbody : w'.under id (names edgeYaml) = some (.file body)) : configures deps body = true := by
  obtain ⟨config, -, hconfig, -⟩ := href.config
  have hfirst : names "/.rendermesh/edge.yaml".toList = names edgeYaml := by decide
  rw [EDGE_CONFIG_PATHS, configOf, hfirst, hbody] at hconfig
  unfold Refresh.configures
  cases hu : fromUtf8 body with
  | none => simp [hu] at hconfig
  | some content =>
    cases hp : parseEdgeConfig deps content with
    | error e => simp [hu, hp, Except.toOption] at hconfig
    | ok config => simp [hp, Except.isOk, Except.toBool]

end

/-! ## The writes of a publisher -/

/-- The objects of an origin by their keys. -/
abbrev Objects := Str → Option RemoteObject

/-- A storage with what its publisher remembers: the barriers it has used and the
publications it has completed, the last one first. -/
structure Publisher where
  objects : Objects
  publishing : Bool
  used : List Bytes
  published : List Objects

/-- The barrier made invalid, another object put or deleted, the barrier made valid. -/
inductive Write where
  | block (barrier : RemoteObject)
  | change (key : Str) (object : Option RemoteObject)
  | complete (barrier : RemoteObject)

namespace Publisher

def write (p : Publisher) : Write → Publisher
  | .block barrier =>
    { p with objects := Function.update p.objects edgeYaml (some barrier), publishing := true }
  | .change key object => { p with objects := Function.update p.objects key object }
  | .complete barrier =>
    let objects := Function.update p.objects edgeYaml (some barrier)
    { objects := objects, publishing := false, used := barrier.body :: p.used,
      published := objects :: p.published }

/-- What the protocol lets the publisher write next. -/
def Allows (deps : Deps) (p : Publisher) : Write → Prop
  | .block barrier => p.publishing = false ∧ configures deps barrier.body = false
  | .change key _ => p.publishing = true ∧ key ≠ edgeYaml
  | .complete barrier => p.publishing = true ∧ configures deps barrier.body = true ∧
      barrier.body ∉ p.used

/-- Nothing was published yet, or the storage holds the last publication. -/
def Settled (deps : Deps) (p : Publisher) : Prop :=
  p.publishing = false ∧
    ((p.published = [] ∧ ∀ k, p.objects k = none) ∨
      p.objects ∈ p.published ∧
      ∃ barrier, p.objects edgeYaml = some barrier ∧ configures deps barrier.body = true ∧
        barrier.body ∈ p.used)

/-- The storage has the objects of a publication that was completed. -/
def Complete (p : Publisher) : Prop := p.publishing = false ∧ p.objects ∈ p.published

/-- What a storage holds between two writes. -/
def Between (deps : Deps) (p : Publisher) : Prop :=
  p.Settled deps ∨
    p.publishing = true ∧
      ∃ barrier, p.objects edgeYaml = some barrier ∧ configures deps barrier.body = false

/-- The barriers in `seen` are used, and none of them is the barrier now. -/
structure Past (deps : Deps) (seen : List Bytes) (p : Publisher) : Prop where
  used : seen ⊆ p.used
  barrier : ∀ barrier, p.objects edgeYaml = some barrier → configures deps barrier.body = true →
    barrier.body ∉ seen

@[simp] theorem objects_block (p : Publisher) (barrier : RemoteObject) :
    (p.write (.block barrier)).objects edgeYaml = some barrier := by
  simp [write]

@[simp] theorem objects_complete (p : Publisher) (barrier : RemoteObject) :
    (p.write (.complete barrier)).objects edgeYaml = some barrier := by
  simp [write]

theorem objects_change (p : Publisher) {key : Str} (hkey : key ≠ edgeYaml)
    (object : Option RemoteObject) :
    (p.write (.change key object)).objects edgeYaml = p.objects edgeYaml :=
  Function.update_of_ne hkey.symm _ _

variable {deps : Deps} {p : Publisher} {action : Write}

theorem between_write (h : p.Between deps) (ha : p.Allows deps action) :
    (p.write action).Between deps := by
  cases action with
  | block barrier => exact Or.inr ⟨rfl, barrier, objects_block p barrier, ha.2⟩
  | complete barrier =>
    exact Or.inl ⟨rfl, Or.inr ⟨List.mem_cons_self, barrier, objects_complete p barrier, ha.2.1,
      List.mem_cons_self⟩⟩
  | change key object =>
    rcases h with ⟨hno, -⟩ | ⟨hyes, barrier, hb, hc⟩
    · exact absurd (ha.1.symm.trans hno) (by simp)
    · exact Or.inr ⟨hyes, barrier, (objects_change p ha.2 object).trans hb, hc⟩

/-- A used barrier does not come back. -/
theorem past_write {seen : List Bytes} (h : Past deps seen p) (ha : p.Allows deps action) :
    Past deps seen (p.write action) := by
  cases action with
  | block barrier =>
    refine ⟨h.used, fun b hb hc => ?_⟩
    rw [objects_block] at hb
    cases hb
    exact absurd (ha.2.symm.trans hc) (by simp)
  | complete barrier =>
    refine ⟨fun body hbody => List.mem_cons_of_mem _ (h.used hbody), fun b hb _ hseen => ?_⟩
    rw [objects_complete] at hb
    cases hb
    exact ha.2.2 (h.used hseen)
  | change key object =>
    exact ⟨h.used, fun b hb => h.barrier b ((objects_change p ha.2 object).symm.trans hb)⟩

/-- The write that follows a publication takes its barrier away. -/
theorem Settled.past (h : p.Settled deps) (ha : p.Allows deps action) :
    Past deps p.used (p.write action) := by
  have hno := h.1
  cases action with
  | block barrier =>
    refine ⟨List.Subset.refl _, fun b hb hc => ?_⟩
    rw [objects_block] at hb
    cases hb
    exact absurd (ha.2.symm.trans hc) (by simp)
  | change key object => exact absurd (ha.1.symm.trans hno) (by simp)
  | complete barrier => exact absurd (ha.1.symm.trans hno) (by simp)

theorem published_write : p.published <:+ (p.write action).published := by
  cases action with
  | complete barrier => exact List.suffix_cons _ _
  | _ => exact List.suffix_rfl

end Publisher

/-! ## Histories -/

/-- A publisher's states from instant to instant. -/
structure History (deps : Deps) where
  state : Nat → Publisher
  starts : (state 0).Settled deps
  writes : ∀ i, state (i + 1) = state i ∨ ∃ action, (state i).Allows deps action ∧
    state (i + 1) = (state i).write action

/-- The protocol allows the writes one after the other. -/
def Publisher.Follows (deps : Deps) (p : Publisher) : List Write → Prop
  | [] => True
  | action :: rest => p.Allows deps action ∧ (p.write action).Follows deps rest

def Publisher.after (p : Publisher) (actions : List Write) : Publisher :=
  actions.foldl Publisher.write p

theorem Publisher.after_take {deps : Deps} {p : Publisher} {actions : List Write}
    (ha : p.Follows deps actions) (i : Nat) :
    p.after (actions.take (i + 1)) = p.after (actions.take i) ∨
      ∃ action, (p.after (actions.take i)).Allows deps action ∧
        p.after (actions.take (i + 1)) = (p.after (actions.take i)).write action := by
  induction actions generalizing p i with
  | nil => exact Or.inl (by simp)
  | cons action rest ih =>
    cases i with
    | zero => exact Or.inr ⟨action, ha.1, rfl⟩
    | succ i => exact ih ha.2 i

namespace History

/-- One write at an instant, and no more after the last. -/
def ofWrites {deps : Deps} (p : Publisher) (hp : p.Settled deps) (actions : List Write)
    (ha : p.Follows deps actions) : History deps where
  state i := p.after (actions.take i)
  starts := hp
  writes := Publisher.after_take ha

variable {deps : Deps} (h : History deps)

/-- What a write keeps holds from then on. -/
theorem keeps {P : Publisher → Prop}
    (hP : ∀ p action, P p → p.Allows deps action → P (p.write action)) {i j : Nat} (hij : i ≤ j)
    (hi : P (h.state i)) : P (h.state j) := by
  induction j, hij using Nat.le_induction with
  | base => exact hi
  | succ j hij ih =>
    rcases h.writes j with he | ⟨action, ha, he⟩ <;> rw [he]
    · exact ih
    · exact hP _ _ ih ha

theorem between (i : Nat) : (h.state i).Between deps :=
  h.keeps (fun _ _ hp ha => Publisher.between_write hp ha) (Nat.zero_le i) (Or.inl h.starts)

theorem published_suffix {i j : Nat} (hij : i ≤ j) :
    (h.state i).published <:+ (h.state j).published :=
  h.keeps (P := fun p => (h.state i).published <:+ p.published)
    (fun _ _ hp _ => hp.trans Publisher.published_write) hij List.suffix_rfl

/-- From a storage between publications on, it stays, one is under way, or one more is complete. -/
theorem stays_or {i j : Nat} (hij : i ≤ j) :
    h.state j = h.state i ∨ (h.state j).publishing = true ∨
      (h.state i).published.length < (h.state j).published.length := by
  induction j, hij using Nat.le_induction with
  | base => exact Or.inl rfl
  | succ j hij ih =>
    have hlen := (h.published_suffix hij).length_le
    rcases h.writes j with he | ⟨action, ha, he⟩
    · rw [he]
      exact ih
    · rw [he]
      cases action with
      | block barrier => exact Or.inr (Or.inl rfl)
      | change key object => exact Or.inr (Or.inl ha.1)
      | complete barrier => exact Or.inr (Or.inr (Nat.lt_succ_of_le hlen))

/-- Between publications a storage stays as it is while no publication is completed. -/
theorem same_of_count {i j : Nat} (hij : i ≤ j) (hj : (h.state j).publishing = false)
    (hcount : (h.state j).published.length ≤ (h.state i).published.length) : h.state i = h.state j := by
  rcases h.stays_or hij with he | hpub | hlt
  · exact he.symm
  · rw [hj] at hpub
    cases hpub
  · omega

/-- A storage between publications stays as it is, or its barrier is past. -/
theorem stays_or_past {i j : Nat} (hij : i ≤ j) (hi : (h.state i).Settled deps) :
    h.state j = h.state i ∨ Publisher.Past deps (h.state i).used (h.state j) := by
  induction j, hij using Nat.le_induction with
  | base => exact Or.inl rfl
  | succ j hij ih =>
    rcases h.writes j with he | ⟨action, ha, he⟩
    · rw [he]
      exact ih
    · rw [he]
      rcases ih with ih | ih
      · rw [ih] at ha ⊢
        exact Or.inr (hi.past ha)
      · exact Or.inr (Publisher.past_write ih ha)

/-- A valid barrier that is there at two instants is there at every instant between them, and
so are all the objects of its publication. -/
theorem same_of_barrier {i j k : Nat} (hij : i ≤ j) (hjk : j ≤ k) (hi : (h.state i).Settled deps)
    {barrier barrier' : RemoteObject} (hb : (h.state i).objects edgeYaml = some barrier)
    (hb' : (h.state k).objects edgeYaml = some barrier') (hbody : barrier'.body = barrier.body) :
    h.state j = h.state i := by
  rcases h.stays_or_past hij hi with he | hpast
  · exact he
  exfalso
  obtain ⟨-, ⟨-, hnone⟩ | ⟨-, b, hb1, hconf, hused⟩⟩ := hi
  · rw [hnone] at hb
    cases hb
  · rw [hb] at hb1
    cases hb1
    have hk := h.keeps (fun _ _ hp ha => Publisher.past_write hp ha) hjk hpast
    refine hk.barrier barrier' hb' (by rw [hbody]; exact hconf) ?_
    rw [hbody]
    exact hused

end History

/-! ## A storage that answers from a history -/

/-- The storage of `id` answers from the history. The call at clock `n` takes the instants from
`start n` to `start (n + 1)`: a listing sees the key `k` at the instant `seen n k`, a get reads
at some instant of its own, and an ETag identifies a content. -/
structure Observes (env : Env) (id : Str) {deps : Deps} (h : History deps) (start : Nat → Nat)
    (seen : Nat → Str → Nat) : Prop where
  order : Monotone start
  during : ∀ n k, start n ≤ seen n k ∧ seen n k ≤ start (n + 1)
  lists : ∀ n summaries, env.listObjects n id = .ok summaries → ∀ k,
    (∀ s ∈ summaries, s.key = k →
      ∃ object, (h.state (seen n k)).objects k = some object ∧ s.etag = object.etag) ∧
    ∀ object, (h.state (seen n k)).objects k = some object → ∃ s ∈ summaries, s.key = k
  gets : ∀ n k object, env.getObject n id k = .ok object →
    ∃ i, start n ≤ i ∧ i ≤ start (n + 1) ∧ (h.state i).objects k = some object
  etags : ∀ i j k object object', (h.state i).objects k = some object →
    (h.state j).objects k = some object' →
    object.etag.isSome ∧ (object.etag = object'.etag → object.body = object'.body)

/-- The listing at clock `n` sees a key before a publication is complete that changes it, and
the barrier after that. -/
def Overtaken {deps : Deps} (h : History deps) (seen : Nat → Str → Nat) (n : Nat) : Prop :=
  ∃ k, (h.state (seen n k)).published.length < (h.state (seen n edgeYaml)).published.length ∧
    (h.state (seen n k)).objects k ≠ (h.state (seen n edgeYaml)).objects k

end RenderMesh.Refresh
