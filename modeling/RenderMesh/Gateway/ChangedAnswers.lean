import RenderMesh.Refresh.PurgeRecord
import RenderMesh.Refresh.Consecutive
import RenderMesh.Gateway.Chain
import RenderMesh.Refresh.Delivery

/-!
# Answers that a refresh changes

A CDN keeps the answers of the gateway until they are purged, and a refresh purges what its
index says has changed. What a request reads, until an object is found, depends on its texts and
on its hooks alone (`ChainEnd.reads`); an answer that a refresh changes is then on account of a
key that it purges.

* `value_readObject_same`: what is read at a path is the same in two consecutive generations
  when it depends on no key that has changed.
* `changed_answer_purged`: the refresh that changes an answer makes a purge that contains a
  changed key on the way to a path that was read.
-/
namespace RenderMesh.Gateway

open RenderMesh.Core RenderMesh.Mirror RenderMesh.Server RenderMesh.Domains RenderMesh.Refresh
open RenderMesh.Cdn

/-! ## What is read -/

/-- The path does not change when it is normalized again, and does not lead to the metadata. -/
def Proper (c : Str) : Prop :=
  ∀ n, normalizeObjectPath c = .ok n →
    normalizeObjectPath n = .ok n ∧ (names n).head? ≠ some metaName

/-- What is read at `c` depends on `k`: a file of `k` is there, or on the way. When `c` changes as it
is normalized again, the directories on the way to a file of `k` play a part as well. -/
def Meets (deps : Deps) (k c : Str) : Prop :=
  ∃ n, normalizeObjectPath c = .ok n ∧ (Bears deps k (names n) ∨
    normalizeObjectPath n ≠ .ok n ∧
      (Near deps k (names n) ∨ ∃ m, normalizeObjectPath n = .ok m ∧ Near deps k (names m)))

theorem Proper.of_meets {deps : Deps} {k c : Str} (hc : Proper c) (h : Meets deps k c) :
    ∃ n, normalizeObjectPath c = .ok n ∧ names k <+: names n := by
  obtain ⟨n, hn, (hp | ⟨s, hs⟩) | ⟨hne, -⟩⟩ := h
  · exact ⟨n, hn, hp⟩
  · exact absurd (by rw [← hs]; rfl) (hc n hn).2
  · exact absurd (hc n hn).1 hne

/-- With short names the answer about a path depends on its node and on the files on the way. -/
theorem stat_same {t t' : Tree} {long : Name → Bool} {p : List Name}
    (hl : ∀ x ∈ p, long x = false) (hnode : t.lookup p = t'.lookup p)
    (hway : (∃ s b, s <+: p ∧ t.lookup s = some (.file b)) ↔
      ∃ s b, s <+: p ∧ t'.lookup s = some (.file b)) : t.stat long p = t'.stat long p := by
  cases hp : t.lookup p with
  | some node => rw [t.stat_succeeds long hp hl, t'.stat_succeeds long (hnode.symm.trans hp) hl]
  | none =>
    rcases t.stat_absent long hp hl with ⟨hs, hclear⟩ | ⟨hs, s, b, hfile⟩
    · rcases t'.stat_absent long (hnode.symm.trans hp) hl with ⟨hs', -⟩ | ⟨-, s, b, hfile⟩
      · rw [hs, hs']
      · obtain ⟨s, b, hpre, hb⟩ := hway.mpr ⟨s, b, hfile⟩
        exact absurd hb (hclear s b hpre)
    · rcases t'.stat_absent long (hnode.symm.trans hp) hl with ⟨-, hclear⟩ | ⟨hs', -⟩
      · obtain ⟨s, b, hpre, hb⟩ := hway.mp ⟨s, b, hfile⟩
        exact absurd hb (hclear s b hpre)
      · rw [hs, hs']

section
variable {deps : GatewayDeps} {id c n : Str} (hn : normalizeObjectPath c = .ok n)
include hn

/-- The calls that reading an object makes. -/
theorem readObject_uses_at (access : ObjectReadAccess) :
    (readObject deps id c access).Uses fun o => o = .server (.fs (.metadata (join id n))) ∨
      ∃ m, normalizeObjectPath n = .ok m ∧ (o = .server (.fs (.read (join id m))) ∨
        o = .server (.fs (.read (joinNames id (sidecarNames deps.toDeps m))))) := by
  unfold readObject
  split
  · trivial
  · split
    · trivial
    · rename_i p hp
      obtain ⟨-, n', hn', rfl⟩ := objectPath_ok_iff.mp hp
      rw [hn] at hn'
      cases hn'
      refine Prog.uses_bind (Prog.uses_embed (uses_io (Or.inl rfl))) fun metadata => ?_
      unfold readProbed
      split
      · trivial
      · refine Prog.uses_embed (Prog.uses_ofExcept_bind fun d hd => ?_)
        obtain ⟨rfl, -⟩ := originDir_ok_iff.mp hd
        refine Prog.uses_ofExcept_bind fun n' hn' => ?_
        rw [hn] at hn'
        cases hn'
        refine Prog.uses_ofExcept_bind fun p hp => ?_
        obtain ⟨-, m, hm, rfl⟩ := objectPath_ok_iff.mp hp
        refine Prog.uses_bind (uses_io (Or.inr ⟨m, hm, Or.inl rfl⟩)) fun r => ?_
        cases r with
        | error e => cases e <;> trivial
        | ok body =>
          refine Prog.uses_bind (Prog.uses_ofExcept_bind fun p hp => ?_) fun _ => trivial
          obtain ⟨m', hm', rfl⟩ := metadataSidecarPath_ok_iff.mp hp
          rw [hm] at hm'
          cases hm'
          refine Prog.uses_bind (uses_io (Or.inr ⟨m, hm, Or.inr rfl⟩)) fun r => ?_
          cases r with
          | error e => cases e <;> trivial
          | ok body =>
            simp only
            split
            · trivial
            · split <;> trivial

theorem value_readObject_congr {s s' : Scene}
    (hprobe : s.fs.stat s.long (objectNames id n) = s'.fs.stat s'.long (objectNames id n))
    (hread : ∀ m, normalizeObjectPath n = .ok m →
      s.fs.stat s.long (objectNames id m) = s'.fs.stat s'.long (objectNames id m) ∧
      s.fs.stat s.long (sidecarAt deps.toDeps id m) = s'.fs.stat s'.long (sidecarAt deps.toDeps id m))
    (access : ObjectReadAccess) :
    s.value (readObject deps id c access) = s'.value (readObject deps id c access) := by
  refine eval_congr _ ?_ (readObject_uses_at hn access)
  rintro o (rfl | ⟨m, hm, rfl | rfl⟩)
  · simp only [Scene.answer, Scene.serverAnswer, FsOp.exec, names_join, FileTree.metadata]
    rw [show names id ++ names n = objectNames id n from rfl, hprobe]
  · simp only [Scene.answer, Scene.serverAnswer, FsOp.exec, names_join, FileTree.readFile]
    rw [show names id ++ names m = objectNames id m from rfl, (hread m hm).1]
  · simp only [Scene.answer, Scene.serverAnswer, FsOp.exec, names_joinNames, FileTree.readFile]
    rw [show names id ++ sidecarNames deps.toDeps m = sidecarAt deps.toDeps id m from rfl, (hread m hm).2]

end

/-- The scene has `tree` as the mirror of `id`, and refuses no name. -/
structure Shows (s : Scene) (id : Str) (tree : List Name → Option (Node Bytes)) : Prop where
  long : ∀ x, s.long x = false
  under : ∀ r, s.fs.lookup (names id ++ r) = tree r
  top : tree [] = some .dir

section
variable {s : Scene} {id : Str} {tree : List Name → Option (Node Bytes)} (h : Shows s id tree)
include h

/-- Above the mirror there are directories. -/
theorem Shows.file_on_way {r : List Name} :
    (∃ x b, x <+: names id ++ r ∧ s.fs.lookup x = some (.file b)) ↔
      ∃ x b, x ≠ [] ∧ x <+: r ∧ tree x = some (.file b) := by
  constructor
  · rintro ⟨x, b, hx, hb⟩
    have htop : s.fs.lookup (names id) = some .dir := by
      simpa using (h.under []).trans h.top
    rcases List.prefix_or_prefix_of_prefix hx (List.prefix_append (names id) r) with hup | ⟨y, rfl⟩
    · by_cases he : x = names id
      · rw [he, htop] at hb
        cases hb
      · obtain ⟨y, hy⟩ := hup
        have hne : y ≠ [] := fun h0 => he (by simpa [h0] using hy)
        rw [s.fs.above_dir hne (by rw [hy, htop]; rfl)] at hb
        cases hb
    · rw [h.under] at hb
      refine ⟨y, b, fun h0 => ?_, (List.prefix_append_right_inj _).mp hx, hb⟩
      rw [h0, h.top] at hb
      cases hb
  · rintro ⟨x, b, -, hx, hb⟩
    exact ⟨names id ++ x, b, (List.prefix_append_right_inj _).mpr hx, (h.under x).trans hb⟩

/-- Nothing is below a file. -/
theorem Shows.below_file {x r : List Name} {b : Bytes} (hb : tree x = some (.file b))
    (hpre : x <+: r) (hne : x ≠ r) : s.fs.lookup (names id ++ r) = none := by
  obtain ⟨y, rfl⟩ := hpre
  have hy : y ≠ [] := fun h0 => hne (by rw [h0, List.append_nil])
  by_contra hsome
  have hdir := s.fs.above_dir (p := names id ++ x) hy (by
    rw [List.append_assoc]
    exact Option.isSome_iff_ne_none.mpr hsome)
  rw [h.under, hb] at hdir
  cases hdir

theorem Shows.barred {r : List Name} (hb : s.fs.Barred s.long (names id ++ r)) :
    ∃ x b, x ≠ [] ∧ x <+: r ∧ tree x = some (.file b) := by
  obtain ⟨x, y, hxy, ⟨b, hfile⟩ | ⟨-, hlong⟩⟩ := hb
  · exact h.file_on_way.mp ⟨x, b, (List.prefix_append _ _).trans hxy, hfile⟩
  · rw [h.long] at hlong
    cases hlong

/-- Nothing is read where no file stands on the way. -/
theorem Shows.value_none {deps : GatewayDeps} {c n : Str} (hn : normalizeObjectPath c = .ok n)
    (hnn : normalizeObjectPath n = .ok n)
    (hclear : ∀ x b, x ≠ [] → x <+: names n → tree x ≠ some (.file b)) (access : ObjectReadAccess) :
    s.value (readObject deps id c access) = .ok none := by
  have hno : ∀ b, s.fs.lookup (objectNames id n) ≠ some (.file b) := fun b hb => by
    obtain ⟨x, b', hx, hpre, hb'⟩ := h.file_on_way.mp ⟨_, b, List.prefix_refl _, hb⟩
    exact hclear x b' hx hpre hb'
  have hopen : ¬ s.fs.Barred s.long (objectNames id n) := fun hb => by
    obtain ⟨x, b, hx, hpre, hb'⟩ := h.barred hb
    exact hclear x b hx hpre hb'
  rcases s.readObject_cases deps id c access with ⟨object, -, hholds, -⟩ | ⟨hr, -⟩ | ⟨e, -, hfails⟩
  · obtain ⟨-, -, n', m, hn', -, hm, hbody, -⟩ := hholds
    obtain rfl := Except.ok.inj (hn.symm.trans hn')
    obtain rfl := Except.ok.inj (hnn.symm.trans hm)
    exact absurd hbody (hno _)
  · exact hr
  · obtain ⟨-, -, n', hn', hdir, ⟨e', he'⟩ | ⟨m, hm, hunreadable | ⟨⟨b, hb⟩, -⟩⟩⟩ := hfails
    · obtain rfl := Except.ok.inj (hn.symm.trans hn')
      rw [hnn] at he'
      cases he'
    · obtain rfl := Except.ok.inj (hn.symm.trans hn')
      obtain rfl := Except.ok.inj (hnn.symm.trans hm)
      rcases hunreadable with hb | hd | ⟨-, b, hb⟩
      · exact absurd hb hopen
      · exact absurd ⟨hd, hopen⟩ hdir
      · exact absurd hb (hno b)
    · obtain rfl := Except.ok.inj (hn.symm.trans hn')
      obtain rfl := Except.ok.inj (hnn.symm.trans hm)
      exact absurd hb (hno b)

end

section
variable {deps : GatewayDeps} {old new : OriginFreshnessIndex}
  {tree tree' : List Name → Option (Node Bytes)} (h : Replaces deps.toDeps old new tree tree')
  {s s' : Scene} {id : Str} (hs : Shows s id tree) (hs' : Shows s' id tree')
include hs hs'

/-- Two scenes say the same about a path with the same node and the same files on the way. -/
theorem stat_congr {r : List Name} (hnode : tree' r = tree r)
    (hway : ∀ x, x ≠ [] → x <+: r → ∀ b, tree' x = some (.file b) ↔ tree x = some (.file b)) :
    s.fs.stat s.long (names id ++ r) = s'.fs.stat s'.long (names id ++ r) := by
  rw [show s'.long = s.long from funext fun x => (hs'.long x).trans (hs.long x).symm]
  refine stat_same (fun x _ => hs.long x) (by rw [hs.under, hs'.under, hnode]) ?_
  rw [hs.file_on_way, hs'.file_on_way]
  exact exists_congr fun x => exists_congr fun b => and_congr_right fun hx =>
    and_congr_right fun hpre => (hway x hx hpre b).symm

include h

theorem stat_sidecar_same {m : Str}
    (hdigest : ∀ k, k ∈ old.files ∨ k ∈ new.files →
      deps.sha256 (utf8 m) = deps.sha256 (utf8 k) → m = k)
    (hsame : ¬ Changed (diffOriginIndexes (some old) new) m) :
    s.fs.stat s.long (sidecarAt deps.toDeps id m) = s'.fs.stat s'.long (sidecarAt deps.toDeps id m) := by
  refine stat_congr hs hs' (h.sidecar_same hdigest hsame) fun x hx hpre b => ?_
  by_cases he : x = sidecarNames deps.toDeps m
  · rw [he, h.sidecar_same hdigest hsame]
  · exact iff_of_false
      (sidecar_clear (fun k hk => h.canonical k (Or.inr hk)) h.files' m x b hx hpre he)
      (sidecar_clear (fun k hk => h.canonical k (Or.inl hk)) h.files m x b hx hpre he)

/-- What is read at a path is the same in both generations, when it depends on no key that has
changed. -/
theorem value_readObject_same {c : Str}
    (hdigest : ∀ n m k, normalizeObjectPath c = .ok n → normalizeObjectPath n = .ok m →
      k ∈ old.files ∨ k ∈ new.files → deps.sha256 (utf8 m) = deps.sha256 (utf8 k) → m = k)
    (hsame : ∀ k, Changed (diffOriginIndexes (some old) new) k → ¬ Meets deps.toDeps k c)
    (access : ObjectReadAccess) :
    s.value (readObject deps id c access) = s'.value (readObject deps id c access) := by
  cases hn : normalizeObjectPath c with
  | error e =>
    have hnothing : (readObject deps id c access).Uses fun _ => False := by
      unfold readObject
      split
      · trivial
      · split
        · trivial
        · rename_i p hp
          obtain ⟨-, n, hn', -⟩ := objectPath_ok_iff.mp hp
          rw [hn] at hn'
          cases hn'
    exact eval_congr _ (fun _ => False.elim) hnothing
  | ok n =>
    have hbears : ∀ k, Changed (diffOriginIndexes (some old) new) k →
        ¬ Bears deps.toDeps k (names n) := fun k hk hb => hsame k hk ⟨n, hn, Or.inl hb⟩
    have hup : ∀ r, (∀ k, Changed (diffOriginIndexes (some old) new) k → ¬ Bears deps.toDeps k r) →
        ∀ x, x ≠ [] → x <+: r → ∀ b, tree' x = some (.file b) ↔ tree x = some (.file b) :=
      fun r hr x hx hpre b => h.file_iff hx
        (fun k hk hb => hr k hk (hb.imp (·.trans hpre) (·.trans hpre))) b
    have hway := hup _ hbears
    by_cases hnn : normalizeObjectPath n = .ok n
    · by_cases hfile : ∃ x b, x ≠ [] ∧ x <+: names n ∧ tree x = some (.file b)
      · -- the same file stands there in both
        obtain ⟨x, b, hx, hpre, hb⟩ := hfile
        have hb' := (hway x hx hpre b).mpr hb
        have hnode : tree' (names n) = tree (names n) := by
          by_cases he : x = names n
          · rw [← he, hb, hb']
          · rw [← hs.under, ← hs'.under, hs.below_file hb hpre he, hs'.below_file hb' hpre he]
        refine value_readObject_congr hn (stat_congr hs hs' hnode hway) (fun m hm => ?_) access
        obtain rfl := Except.ok.inj (hnn.symm.trans hm)
        exact ⟨stat_congr hs hs' hnode hway, stat_sidecar_same h hs hs' (fun k => hdigest n n k hn hnn)
          fun hc => hbears n hc (Or.inl List.prefix_rfl)⟩
      · have hclear : ∀ x b, x ≠ [] → x <+: names n → tree x ≠ some (.file b) :=
          fun x b hx hpre hb => hfile ⟨x, b, hx, hpre, hb⟩
        rw [hs.value_none hn hnn hclear, hs'.value_none hn hnn fun x b hx hpre hb =>
          hclear x b hx hpre ((hway x hx hpre b).mp hb)]
    · -- the path changes again, so directories matter
      have hfar : ∀ k, Changed (diffOriginIndexes (some old) new) k →
          ¬ Near deps.toDeps k (names n) := fun k hk hnear =>
        hsame k hk ⟨n, hn, Or.inr ⟨hnn, Or.inl hnear⟩⟩
      refine value_readObject_congr hn (stat_congr hs hs' (h.node_same hfar) hway)
        (fun m hm => ?_) access
      have hfar' : ∀ k, Changed (diffOriginIndexes (some old) new) k →
          ¬ Near deps.toDeps k (names m) := fun k hk hnear =>
        hsame k hk ⟨n, hn, Or.inr ⟨hnn, Or.inr ⟨m, hm, hnear⟩⟩⟩
      exact ⟨stat_congr hs hs' (h.node_same hfar') (hup _ fun k hk hb => hfar' k hk (Or.inl hb)),
        stat_sidecar_same h hs hs' (fun k => hdigest n m k hn hm)
          fun hc => hfar' m hc (Or.inl (Or.inl List.prefix_rfl))⟩

end

/-! ## What is answered -/

/-- A template is rendered for the answer. -/
def EdgePayloadOutcome.Renders : EdgePayloadOutcome → Prop
  | .serveFile _ _ params => params.isSome = true
  | .renderTarget _ _ => True
  | _ => False

def ChainEnd.Renders : ChainEnd → Prop
  | .answered outcome _ => outcome.Renders
  | _ => False

/-- What is read after the hooks, until an object is found. -/
def ChainEnd.reads (config : EdgeConfig) (request : RenderRequest) : ChainEnd → List Read
  | .continued _ => restReads config request
  | .failed _ => []
  | .answered outcome _ => outcomeReads config request.path outcome

section
variable {s s' : Scene} {deps : GatewayDeps} {id : Str}

theorem Scene.value_bind_congr {α β : Type} {m : Handling α} {f : α → Handling β}
    (hm : s.value m = s'.value m) (hf : ∀ a, s.value (f a) = s'.value (f a)) :
    s.value (m >>= f) = s'.value (m >>= f) := by
  simp only [Scene.value, eval_bind] at hm hf ⊢
  rw [hm, funext hf]

theorem value_serveObject_congr {r : Read} (h : s.value (readObject deps id r.2 r.1) =
      s'.value (readObject deps id r.2 r.1)) (status : StatusCode) (headers : Headers) :
    s.value (serveObjectWithOptions deps id r.2 status none headers r.1) =
      s'.value (serveObjectWithOptions deps id r.2 status none headers r.1) :=
  Scene.value_bind_congr h fun object => by cases object <;> rfl

/-- The same objects at the paths. -/
def SameObjects (s s' : Scene) (deps : GatewayDeps) (id : Str) (reads : List Read) : Prop :=
  ∀ r ∈ reads, s.value (readObject deps id r.2 r.1) = s'.value (readObject deps id r.2 r.1)

theorem value_serveStatic_congr {config : EdgeConfig} {access : ObjectReadAccess} {path : Str}
    (h : SameObjects s s' deps id (staticReads config access path)) (status : StatusCode)
    (headers : Headers) :
    s.value (serveStaticPathWithOptions deps id config path status none headers access) =
      s'.value (serveStaticPathWithOptions deps id config path status none headers access) := by
  refine Scene.value_bind_congr (value_serveObject_congr (r := (access, path))
    (h _ List.mem_cons_self) status headers) fun response => ?_
  cases response with
  | some response => rfl
  | none =>
    simp only
    split
    · rename_i hauto
      exact value_serveObject_congr (r := (access, autoIndexCandidate path))
        (h _ (by simp [staticReads, hauto])) status headers
    · rfl

theorem value_handleMissing_congr {config : EdgeConfig}
    (h : SameObjects s s' deps id (missingReads config)) (headers : Headers) :
    s.value (handleMissing deps id config headers) = s'.value (handleMissing deps id config headers) := by
  unfold handleMissing
  unfold missingReads at h
  cases haction : config.missing.action with
  | notFound =>
    cases hpage : config.missing.page with
    | none => rfl
    | some page =>
      refine Scene.value_bind_congr (value_serveObject_congr (r := (.pub, page))
        (h _ (by simp [haction, hpage])) .notFound headers) fun response => ?_
      cases response <;> rfl
  | serve =>
    cases hpath : config.missing.path with
    | none => rfl
    | some path =>
      exact value_serveObject_congr (r := (.pub, path)) (h _ (by simp [haction, hpath])) .ok headers
  | redirect =>
    refine Scene.value_bind_congr ?_ fun _ => rfl
    simp only [Scene.value, eval_ofExcept]

theorem value_handleStatic_congr {config : EdgeConfig} {request : RenderRequest}
    (h : SameObjects s s' deps id (restReads config request)) (headers : Headers) :
    s.value (handleStatic deps request id config headers) =
      s'.value (handleStatic deps request id config headers) := by
  unfold handleStatic
  unfold restReads at h
  cases hredirect : findRedirect config request.path request.query with
  | some redirect =>
    refine Scene.value_bind_congr ?_ fun _ => rfl
    simp only [Scene.value, eval_ofExcept]
  | none =>
    simp only [hredirect, Option.isSome_none, Bool.false_eq_true, if_false] at h
    refine Scene.value_bind_congr (value_serveStatic_congr
      (fun r hr => h r (List.mem_append_left _ hr)) .ok headers) fun response => ?_
    cases response with
    | some response => rfl
    | none => exact Scene.value_bind_congr (value_handleMissing_congr
        (fun r hr => h r (List.mem_append_right _ hr)) headers) fun _ => rfl

theorem value_edgeOutcome_congr {config : EdgeConfig} {request : RenderRequest}
    {outcome : EdgePayloadOutcome} (hrenders : ¬ outcome.Renders)
    (h : SameObjects s s' deps id (outcomeReads config request.path outcome)) (headers : Headers)
    (state : EdgeChainState) :
    s.value (edgeOutcome deps request id config headers state outcome) =
      s'.value (edgeOutcome deps request id config headers state outcome) := by
  cases outcome with
  | continue_ => rfl
  | respondDirect status body => rfl
  | serveFile status filePath params =>
    cases params with
    | some params => exact absurd rfl hrenders
    | none =>
      refine Scene.value_bind_congr (value_serveStatic_congr
        (fun r hr => h r (List.mem_append_left _ hr)) status headers) fun response => ?_
      cases response with
      | some response => rfl
      | none => exact Scene.value_bind_congr (value_handleMissing_congr
          (fun r hr => h r (List.mem_append_right _ hr)) _) fun _ => rfl
  | renderTarget status params => exact absurd trivial hrenders

/-- With the same objects at the paths the answer after the hooks is the same. -/
theorem value_requestAnswer_congr {config : EdgeConfig} {request : RenderRequest} {final : ChainEnd}
    (hrenders : ¬ final.Renders) (h : SameObjects s s' deps id (final.reads config request))
    (headers : Headers) : s.value (requestAnswer deps request id config headers final) =
      s'.value (requestAnswer deps request id config headers final) := by
  cases final with
  | continued state => exact value_handleStatic_congr h _
  | failed status => rfl
  | answered outcome state =>
    exact Scene.value_bind_congr (value_edgeOutcome_congr hrenders h headers state) fun _ => rfl

end

/-! ## Runs -/

section
variable {deps : Deps} {env : Env} {id : Str} {keys : Str → Prop}
  (hsound : Sound deps env id keys)
include hsound

theorem canonical_of_sound (k : Str) (hk : WasListed env id k) : Canonical k :=
  hsound.storable.canonical k (hsound.listed k hk)

variable (henv : Healthy env) {service : OriginRefreshService} (hid : validateOriginId id = .ok ())
  (hknown : service.hasOrigin id = true) (hpurge : ∀ t request, env.purge t request ≠ .dropped)
include henv hid hknown hpurge

/-- In a run whose storage stands still during each refresh, each generation replaces the one
before it. -/
theorem refreshes_consecutive {fs : Tree} (hfs : Ready deps env id keys (World.start fs)) (n : Nat)
    (hstill : ∀ i, i ≤ n + 1 → ∃ summaries,
      Still env id (refreshes deps env service id fs i).clock
        (refreshes deps env service id fs (i + 1)).clock summaries ∧
      Passes id ((refreshes deps env service id fs i).freshnessIndexes id)
        (service.activationBarrier id) summaries) :
    ∃ old new, (refreshes deps env service id fs (n + 1)).freshnessIndexes id = some old ∧
      (refreshes deps env service id fs (n + 2)).freshnessIndexes id = some new ∧
      (∀ k, k ∈ old.files ∨ k ∈ new.files → keys k) ∧
      Replaces deps old new ((refreshes deps env service id fs (n + 1)).under id)
        ((refreshes deps env service id fs (n + 2)).under id) := by
  have hdelivers : ∀ i, i ≤ n + 1 →
      (∃ response, (refreshOrigin deps env service id (refreshes deps env service id fs i)).1 =
        .ok response) ∧ ∃ index,
        (refreshes deps env service id fs (i + 1)).freshnessIndexes id = some index ∧
        ∀ k ∈ index.files, keys k := by
    intro i hi
    obtain ⟨hpoised, hidle⟩ := refreshes_poised henv hsound hid hknown hpurge hfs i
      fun j hj => hstill j (by omega)
    obtain ⟨summaries, hs, hp⟩ := hstill i hi
    obtain ⟨hok, -, -, index, hmirrors, -⟩ :=
      refreshOrigin_delivers henv hsound hid hknown hpurge hpoised hidle hs hp
    exact ⟨hok, index, hmirrors.stored, fun k hk => hsound.listed k (hmirrors.listed.wasListed k hk)⟩
  have hstep : ∀ i, i ≤ n + 1 → Settled deps env id (refreshes deps env service id fs i) → _ :=
    fun i hi hsettled => refreshOrigin_replaces (canonical_of_sound hsound)
      (fun k k' hk hk' => hsound.digests k k' (hsound.listed k hk) hk') hsettled
      (fun _ _ => henv.no_probeFails hid _ _) (Or.inl (hdelivers i hi).1)
  have hsettled : ∀ i, i ≤ n + 1 → Settled deps env id (refreshes deps env service id fs i) := by
    intro i hi
    induction i with
    | zero => exact fun index h => by cases h
    | succ i ih => exact (hstep i (by omega) (ih (by omega))).1
  obtain ⟨-, old, hold, holdkeys⟩ := hdelivers n (Nat.le_succ n)
  obtain ⟨-, new, hnew, hnewkeys⟩ := hdelivers (n + 1) (Nat.le_refl _)
  exact ⟨old, new, hold, hnew, fun k hk => hk.elim (holdkeys k) (hnewkeys k),
    (hstep (n + 1) (Nat.le_refl _) (hsettled _ (Nat.le_refl _))).2 old new hold hnew⟩

end

/-- A refresh whose diff has a key makes a purge that contains it. -/
theorem refresh_purges {deps : Deps} {env : Env} {service : OriginRefreshService} {id : Str}
    {cdn : OriginCdnRefresh} (hcdn : service.cdn id = some cdn) {w : World} {k : Str}
    (hk : Changed (indexDiff id w (refreshOrigin deps env service id w).2) k) :
    ∃ request accepted, (refreshOrigin deps env service id w).2.purged =
      w.purged ++ [(request, accepted)] ∧ request.originId = id ∧ Covers cdn k request.mode := by
  obtain ⟨generation, v, hrecord⟩ := @refreshOrigin_purged deps env id service cdn hcdn w
  cases hplan : buildCdnRefreshPlan cdn.strategy
      (indexDiff id w (refreshOrigin deps env service id w).2) cdn.urlPrefixes with
  | none => exact absurd hk ((plan_none_iff cdn _).mp hplan k)
  | some plan =>
    rw [hplan, callsFor] at hrecord
    refine ⟨_, _, hrecord, rfl, (plan_covers_iff hplan k).mpr (Or.inr fun item hitem => ?_)⟩
    exact ⟨k, hk, hitem⟩

section
variable {deps : GatewayDeps} {env : Env} {hooks : Hooks}

theorem requestAnswer_looks (request : RenderRequest) (id : Str) (config : EdgeConfig)
    (headers : Headers) (final : ChainEnd) :
    (requestAnswer deps request id config headers final).Uses GatewayOp.Looks := by
  cases final with
  | continued state =>
    exact (handleStatic_looks deps request id config _).mono fun _ ho => ho.looks
  | failed status => trivial
  | answered outcome state =>
    exact Prog.uses_bind ((edgeOutcome_looks deps request id config headers state outcome).mono
      fun _ ho => ho.looks) fun _ => trivial

/-- Two worlds with the same objects at what a request reads answer it alike. -/
theorem answer_congr (hfaults : NoFaults env) {service : RenderGatewayService}
    {request : RenderRequest} {resolved : ResolvedHost} {config : EdgeConfig} {w w' : World}
    (hresolve : service.resolver.resolve request.host = some resolved)
    (hstored : w.edgeConfigs resolved.originId = some (.valid config))
    (hstored' : w'.edgeConfigs resolved.originId = some (.valid config))
    (hrenders : ¬ (requestEnd deps hooks service request resolved config).Renders)
    (h : SameObjects (sceneOf w env hooks) (sceneOf w' env hooks) deps resolved.originId
      ((requestEnd deps hooks service request resolved config).reads config request)) :
    (run (gatewayStep deps.toDeps env hooks) (service.handle deps request) w).1 =
      (run (gatewayStep deps.toDeps env hooks) (service.handle deps request) w').1 := by
  have hanswer : ∀ u : World, u.edgeConfigs resolved.originId = some (.valid config) →
      (request.method = .get ∨ request.method = .head) →
      (run (gatewayStep deps.toDeps env hooks) (service.handle deps request) u).1 =
        (sceneOf u env hooks).value (requestAnswer deps request resolved.originId config
          (service.corsHeaders deps resolved.originId request)
          (requestEnd deps hooks service request resolved config)) := by
    intro u hu hmethod
    rw [run_of_chain hresolve hmethod hu]
    have hlooks : (requestAnswer deps request resolved.originId config
        (service.corsHeaders deps resolved.originId request)
        (requestEnd deps hooks service request resolved config)).Uses GatewayOp.Looks :=
      requestAnswer_looks request resolved.originId config _ _
    obtain ⟨u', hrun, -⟩ := @run_scene deps.toDeps env hooks hfaults _ _ hlooks
      (afterHooks deps hooks service request resolved config u)
    rw [hrun]
    rfl
  by_cases hmethod : request.method = .get ∨ request.method = .head
  · rw [hanswer w hstored hmethod, hanswer w' hstored' hmethod]
    exact value_requestAnswer_congr hrenders h _
  · rw [not_or] at hmethod
    unfold RenderGatewayService.handle
    rw [hresolve]
    simp only
    split
    · rfl
    · rfl
    · cases hm : request.method <;> simp_all

end

/-- The refresh that changes an answer in which no template is rendered purges a changed key on the
way to an object that was looked for. -/
theorem changed_answer_purged (deps : GatewayDeps) (env : Env) (hooks : Hooks)
    (service : OriginRefreshService) (gateway : RenderGatewayService) (id : Str) (keys : Str → Prop)
    (fs : Tree) (henv : Healthy env) (hsound : Sound deps.toDeps env id keys)
    (hid : validateOriginId id = .ok ()) (hknown : service.hasOrigin id = true)
    (hpurge : ∀ t request, env.purge t request ≠ .dropped)
    (hfs : Ready deps.toDeps env id keys (World.start fs)) (n : Nat)
    (hstill : ∀ i, i ≤ n + 1 → ∃ summaries,
      Still env id (refreshes deps.toDeps env service id fs i).clock
        (refreshes deps.toDeps env service id fs (i + 1)).clock summaries ∧
      Passes id ((refreshes deps.toDeps env service id fs i).freshnessIndexes id)
        (service.activationBarrier id) summaries)
    (cdn : OriginCdnRefresh) (hcdn : service.cdn id = some cdn)
    (request : RenderRequest) (resolved : ResolvedHost)
    (hresolve : gateway.resolver.resolve request.host = some resolved) (horigin : resolved.originId = id)
    (config : EdgeConfig)
    (hconfig : (refreshes deps.toDeps env service id fs (n + 1)).edgeConfigs id = some (.valid config))
    (hconfig' : (refreshes deps.toDeps env service id fs (n + 2)).edgeConfigs id = some (.valid config))
    (hrenders : ¬ (requestEnd deps hooks gateway request resolved config).Renders)
    (hproper : ∀ r ∈ (requestEnd deps hooks gateway request resolved config).reads config request,
      Proper r.2)
    (hdigest : ∀ r ∈ (requestEnd deps hooks gateway request resolved config).reads config request,
      ∀ m k, normalizeObjectPath r.2 = .ok m → keys k →
        deps.sha256 (utf8 m) = deps.sha256 (utf8 k) → m = k)
    (hchanged : (run (gatewayStep deps.toDeps env hooks) (gateway.handle deps request)
        (refreshes deps.toDeps env service id fs (n + 1))).1 ≠
      (run (gatewayStep deps.toDeps env hooks) (gateway.handle deps request)
        (refreshes deps.toDeps env service id fs (n + 2))).1) :
    ∃ r ∈ (requestEnd deps hooks gateway request resolved config).reads config request,
      ∃ m k, normalizeObjectPath r.2 = .ok m ∧ names k <+: names m ∧
        FoundBy deps.toDeps env service id fs (n + 1) k ∧
        ∃ purge accepted, (refreshes deps.toDeps env service id fs (n + 2)).purged =
          (refreshes deps.toDeps env service id fs (n + 1)).purged ++ [(purge, accepted)] ∧
          purge.originId = id ∧ Covers cdn k purge.mode := by
  subst horigin
  obtain ⟨old, new, hold, hnew, hlisted, hreplaces⟩ :=
    refreshes_consecutive hsound henv hid hknown hpurge hfs n hstill
  have hdiff : indexDiff resolved.originId (refreshes deps.toDeps env service resolved.originId fs (n + 1))
      (refreshes deps.toDeps env service resolved.originId fs (n + 2)) =
      diffOriginIndexes (some old) new := by
    rw [indexDiff, hnew, hold]
  by_contra hno
  refine hchanged (answer_congr (fun t o => henv.fault t o) hresolve hconfig hconfig' hrenders ?_)
  intro r hr
  refine value_readObject_same hreplaces ⟨henv.long, fun _ => rfl, hreplaces.top⟩
    ⟨henv.long, fun _ => rfl, hreplaces.top'⟩ (fun n m k hn hm hk => ?_) (fun k hk hmeets => ?_) r.1
  · obtain rfl := Except.ok.inj ((hproper r hr n hn).1.symm.trans hm)
    exact hdigest r hr n k hn (hlisted k hk)
  obtain ⟨m, hm, hpre⟩ := (hproper r hr).of_meets hmeets
  rw [← hdiff] at hk
  obtain ⟨purge, accepted, hpurged, horigin, hcovers⟩ := refresh_purges hcdn hk
  exact hno ⟨r, hr, m, k, hm, hpre, hk, purge, accepted, hpurged, horigin, hcovers⟩

def answeredStatus : Outcome Error RenderResponse → Option StatusCode
  | .ok response => some response.status
  | _ => none

/-- The page `a`, and `b` as well once the first refresh is over. -/
def growingPages : Env :=
  { calmPage with
    listObjects := fun t _ => .ok (if t < 42 then [⟨"a".toList, none, none, none, 1, none, none⟩]
      else [⟨"a".toList, none, none, none, 1, none, none⟩,
        ⟨"b".toList, none, none, none, 1, none, none⟩]) }

/-- The state after `n` refreshes with it. -/
def grown (n : Nat) : World :=
  refreshes smallGatewayDeps.toDeps growingPages pathsService "web".toList FileTree.empty n

theorem growingPages_listed {k : Str} (h : WasListed growingPages "web".toList k) :
    k ∈ "b".toList :: pageKeys ∧ ∀ c ∈ EDGE_CONFIG_PATHS, c.1.drop 1 ≠ k := by
  obtain ⟨t, summaries, hlist, s, hs, rfl⟩ := h
  cases hlist
  have hkey : s.key = "a".toList ∨ s.key = "b".toList := by
    split at hs
    · exact Or.inl (congrArg _ (List.mem_singleton.mp hs))
    · rcases List.mem_cons.mp hs with rfl | hs
      · exact Or.inl rfl
      · exact Or.inr (congrArg _ (List.mem_singleton.mp hs))
  rcases hkey with he | he <;> rw [he] <;> decide

theorem growingPages_sound :
    Sound smallGatewayDeps.toDeps growingPages "web".toList (· ∈ "b".toList :: pageKeys) :=
  pages_sound (by decide +kernel) (by decide +kernel) (by decide +kernel)
    (fun c hc => List.mem_cons_of_mem _ (List.mem_cons_of_mem _ (List.mem_map_of_mem hc)))
    (fun k hk => growingPages_listed hk) fun _ _ => rfl

/-- When the first refresh is over by then, the storage stands still during both. -/
theorem growingPages_still (hclock : (grown 1).clock = 42) (i : Nat) (hi : i ≤ 0 + 1) : ∃ summaries,
    Still growingPages "web".toList (grown i).clock (grown (i + 1)).clock summaries ∧
    Passes "web".toList ((grown i).freshnessIndexes "web".toList)
      (pathsService.activationBarrier "web".toList) summaries := by
  have hobjects : ∀ k, k = "a".toList ∨ k = "b".toList → ∃ object,
      (∀ t, growingPages.getObject t "web".toList k = .ok object) ∧ ∀ now,
        validateDownloadedObject k (fileState ⟨k, none, none, none, 1, none, none⟩ k now) object =
          .ok () := by
    rintro k (rfl | rfl) <;> exact ⟨_, fun _ => rfl, fun _ => rfl⟩
  obtain rfl | rfl : i = 0 ∨ i = 1 := by omega
  · refine ⟨[⟨"a".toList, none, none, none, 1, none, none⟩], ⟨fun t _ ht => ?_, fun s hs => ?_⟩,
      fun _ _ _ => rfl⟩
    · rw [hclock] at ht
      simp only [growingPages, if_pos ht]
    · rw [List.mem_singleton.mp hs]
      obtain ⟨object, hget, hvalid⟩ := hobjects "a".toList (Or.inl rfl)
      exact ⟨object, fun t _ _ => hget t, hvalid⟩
  · refine ⟨[⟨"a".toList, none, none, none, 1, none, none⟩, ⟨"b".toList, none, none, none, 1, none,
      none⟩], ⟨fun t ht _ => ?_, fun s hs => ?_⟩, fun _ _ _ => rfl⟩
    · rw [hclock] at ht
      simp only [growingPages, if_neg (Nat.not_lt.mpr ht)]
    · rcases List.mem_cons.mp hs with rfl | hs
      · obtain ⟨object, hget, hvalid⟩ := hobjects "a".toList (Or.inl rfl)
        exact ⟨object, fun t _ _ => hget t, hvalid⟩
      · rw [List.mem_singleton.mp hs]
        obtain ⟨object, hget, hvalid⟩ := hobjects "b".toList (Or.inr rfl)
        exact ⟨object, fun t _ _ => hget t, hvalid⟩

/-- `/b` is missing, and then it is there: `/b` is purged. -/
theorem changed_answer_purged_grown : ∃ resolver,
    HostResolver.new (smallManifest [("a.com", "web")]) = .ok resolver ∧
    ∃ r ∈ restReads defaultEdgeConfig (getRequest "/b"), ∃ m k, normalizeObjectPath r.2 = .ok m ∧
      names k <+: names m ∧
      FoundBy smallGatewayDeps.toDeps growingPages pathsService "web".toList FileTree.empty (0 + 1) k ∧
      ∃ purge accepted, (grown (0 + 2)).purged = (grown (0 + 1)).purged ++ [(purge, accepted)] ∧
        purge.originId = "web".toList ∧ Covers ⟨.changedPaths, []⟩ k purge.mode := by
  obtain ⟨resolver, hnew, hres⟩ := site_resolver
  refine ⟨resolver, hnew, ?_⟩
  have hid : validateOriginId "web".toList = .ok () := by decide
  obtain ⟨hclock, hconfig, hconfig'⟩ : (grown 1).clock = 42 ∧
      (grown (0 + 1)).edgeConfigs "web".toList = some (.valid defaultEdgeConfig) ∧
      (grown (0 + 2)).edgeConfigs "web".toList = some (.valid defaultEdgeConfig) := by decide +kernel
  have hreads : restReads defaultEdgeConfig (getRequest "/b") =
      [(.pub, "/b".toList), (.pub, "/b/index.html".toList), (.pub, "/index.html".toList)] := by decide
  have hnormal : ∀ r ∈ restReads defaultEdgeConfig (getRequest "/b"),
      normalizeObjectPath r.2 = .ok (r.2.drop 1) ∧
      normalizeObjectPath (r.2.drop 1) = .ok (r.2.drop 1) ∧
      (names (r.2.drop 1)).head? ≠ some metaName ∧ ∀ k ∈ "b".toList :: pageKeys,
        smallDeps.sha256 (utf8 (r.2.drop 1)) = smallDeps.sha256 (utf8 k) → r.2.drop 1 = k := by
    rw [hreads]
    decide +kernel
  have hstatus : (HostResolver.new (smallManifest [("a.com", "web")])).toOption.map (fun resolver =>
      [1, 2].map fun n => answeredStatus (run (gatewayStep smallGatewayDeps.toDeps growingPages noHooks)
        ((siteService resolver).handle smallGatewayDeps (getRequest "/b")) (grown n)).1) =
      some [some .notFound, some .ok] := by decide +kernel
  rw [hnew] at hstatus
  have htwo := Option.some.inj hstatus
  simp only [List.map_cons, List.map_nil, List.cons.injEq] at htwo
  obtain ⟨hfirst, hsecond, -⟩ := htwo
  have hdiffer : (run (gatewayStep smallGatewayDeps.toDeps growingPages noHooks)
      ((siteService resolver).handle smallGatewayDeps (getRequest "/b")) (grown (0 + 1))).1 ≠
      (run (gatewayStep smallGatewayDeps.toDeps growingPages noHooks)
        ((siteService resolver).handle smallGatewayDeps (getRequest "/b")) (grown (0 + 2))).1 := by
    intro hsame
    rw [hsame, hsecond] at hfirst
    cases hfirst
  clear hfirst hsecond hstatus
  unfold grown at hconfig hconfig' hdiffer ⊢
  have hend : requestEnd smallGatewayDeps noHooks (siteService resolver) (getRequest "/b")
      ⟨"a.com".toList, "a.com".toList, "web".toList⟩ defaultEdgeConfig = .continued ⟨∅⟩ := rfl
  have hanswer := changed_answer_purged smallGatewayDeps growingPages noHooks pathsService
    (siteService resolver) "web".toList (· ∈ "b".toList :: pageKeys) FileTree.empty
    ⟨fun _ _ => rfl, fun _ => rfl⟩ growingPages_sound hid rfl (fun _ _ h => by cases h)
    (ready_empty hid _) 0 (growingPages_still hclock)
    ⟨.changedPaths, []⟩ rfl (getRequest "/b") _ hres rfl defaultEdgeConfig hconfig hconfig'
  rw [hend] at hanswer
  refine hanswer not_false (fun r hr n hn => ?_) (fun r hr m k hm => ?_) hdiffer
  · obtain ⟨hfirst, hsecond, hhead, -⟩ := hnormal r hr
    obtain rfl := Except.ok.inj (hfirst.symm.trans hn)
    exact ⟨hsecond, hhead⟩
  · obtain ⟨hfirst, -, -, hdigests⟩ := hnormal r hr
    obtain rfl := Except.ok.inj (hfirst.symm.trans hm)
    exact hdigests k

end RenderMesh.Gateway
