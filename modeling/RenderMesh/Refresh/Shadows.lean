import RenderMesh.Refresh.Healthy
import RenderMesh.Refresh.Config

/-!
# Listings that are not shadowed

Which sidecar belongs to a file of the mirror is said by the key that its path is read as, trimmed.
A leftover file can lead so to the sidecar of another key, which it shadows (`Shadowed`).

* `clear_step`: on a healthy disk a refresh whose listing is not shadowed mirrors it, each file with
  the sidecar of the same object.
* `unshadowed_refreshes`: what the refreshes of such a run keep.
-/
namespace RenderMesh.Refresh

open RenderMesh.Core RenderMesh.Mirror RenderMesh.Server

/-- A file of the mirror, outside the metadata directory, has another key than
`key`, which is trimmed to `key`. -/
def Shadowed (mirror : List Name → Option (Node Bytes)) (key : Str) : Prop :=
  ∃ r b, r ≠ [] ∧ r.head? ≠ some metaName ∧ mirror r = some (.file b) ∧ keyOf r ≠ key ∧
    normalizeObjectPath (keyOf r) = .ok key

/-- The listing has a key that is shadowed. -/
def listsShadowed (env : Env) (mirror : List Name → Option (Node Bytes)) : Op → World → Prop
  | .listObjects id, w => ∃ summaries, env.listObjects w.clock id = .ok summaries ∧
      ∃ s ∈ summaries, Shadowed mirror s.key
  | _, _ => False

/-- No listing that the next refresh of `id` makes is shadowed by the mirror it finds. -/
def Clear (deps : Deps) (env : Env) (service : OriginRefreshService) (id : Str) (w : World) : Prop :=
  ∀ e ∈ trace (step deps env) (pipeline deps service id) (w.lock id),
    ¬ listsShadowed env (w.under id) e.1 e.2

/-- The texts whose digests name sidecars: the keys that are ever listed, and those
of the files that `fs` has for `id`. -/
inductive Occurs (env : Env) (id : Str) (fs : Tree) : Str → Prop
  | listed {t : Nat} {summaries : List RemoteObjectSummary} {s : RemoteObjectSummary}
      (hlist : env.listObjects t id = .ok summaries) (hs : s ∈ summaries) : Occurs env id fs s.key
  | leftover {r : List Name} {b : Bytes} {n : Str} (hr : r ≠ []) (hmeta : r.head? ≠ some metaName)
      (hfile : fs.lookup (names id ++ r) = some (.file b))
      (hn : normalizeObjectPath (keyOf r) = .ok n) : Occurs env id fs n

/-- The mirror, the index and the edge configuration are those of a listing at a
step from `lo` on. -/
structure Mirrors (deps : Deps) (env : Env) (id : Str) (lo : Nat) (index : OriginFreshnessIndex)
    (config : EdgeConfig) (w : World) : Prop where
  listing : MirrorsListing deps env id True lo index w
  stored : w.edgeConfigs id = some (.valid config)
  configured : configOf deps (w.under id) EDGE_CONFIG_PATHS = some config

section
variable {deps : Deps} {env : Env} {service : OriginRefreshService} {id : Str} {fs : Tree}

/-- What the refreshes of a run keep. -/
structure Unshadowed (deps : Deps) (env : Env) (id : Str) (fs : Tree) (w : World) : Prop where
  tidy : Tidy id w
  held : AllHeld deps env id True w
  known : ∀ r b n, r ≠ [] → r.head? ≠ some metaName → w.under id r = some (.file b) →
    normalizeObjectPath (keyOf r) = .ok n → Occurs env id fs n

theorem unshadowed_start (htidy : Tidy id (World.start fs)) : Unshadowed deps env id fs (World.start fs) :=
  ⟨htidy, (fun index h => by cases h), fun _ _ _ hr hmeta hb hn => .leftover hr hmeta hb hn⟩

variable (henv : Healthy env)
  (hkeys : ∀ t summaries, env.listObjects t id = .ok summaries → ∀ s ∈ summaries, Canonical s.key)
  (hhash : ∀ k k', Occurs env id fs k → Occurs env id fs k' →
    deps.sha256 (utf8 k) = deps.sha256 (utf8 k') → k = k')
include henv hkeys hhash

omit henv hhash in
variable (fs) in
theorem canonical_of_listed {T : Op → World → Prop} {index : OriginFreshnessIndex} {lo hi : Nat}
    (h : Listed T env id index lo hi) : ∀ k ∈ index.files, Canonical k ∧ Occurs env id fs k := by
  obtain ⟨wl, summaries, now, -, -, -, hlist, hb⟩ := h
  intro k hk
  obtain ⟨s, hs, rfl⟩ := (mem_files_iff hb k).mp hk
  exact ⟨hkeys _ _ hlist s hs, .listed hlist hs⟩

omit henv in
/-- In a listing that is not shadowed every key has a sidecar of its own. -/
theorem ownSidecar_of_clear {index : OriginFreshnessIndex} {lo hi : Nat} {w : World}
    (hinv : Unshadowed deps env id fs w)
    (h : Listed (listsShadowed env (w.under id)) env id index lo hi) :
    ∀ k ∈ index.files, ∃ n, normalizeObjectPath k = .ok n ∧
      OwnSidecar deps index (w.under id) k n := by
  intro k hk
  have hcanon := canonical_of_listed fs hkeys h
  obtain ⟨wl, summaries, now, -, -, hclear, hlist, hb⟩ := h
  obtain ⟨hck, hok⟩ := hcanon k hk
  refine ⟨k, hck.normalized, fun k' hk' n' hn' he => ?_, fun r b hr hmeta hfile hnot n' hn' he => ?_⟩
  · obtain ⟨hck', hok'⟩ := hcanon k' hk'
    rw [hck'.normalized] at hn'
    cases hn'
    exact hhash k' k hok' hok (sidecarNames_inj.mp he)
  · have hn : n' = k := hhash n' k (hinv.known r b n' hr hmeta hfile hn') hok (sidecarNames_inj.mp he)
    subst hn
    obtain ⟨s, hs, rfl⟩ := (mem_files_iff hb n').mp hk
    refine hclear ⟨summaries, hlist, s, hs, r, b, hr, hmeta, hfile, ?_, hn'⟩
    rintro he'
    exact hnot (he' ▸ hk)

/-- One call: the invariant is kept, and a call that returned Ok mirrors its listing. -/
theorem clear_step {w : World} (hinv : Unshadowed deps env id fs w) (hclear : Clear deps env service id w) :
    Unshadowed deps env id fs (refreshOrigin deps env service id w).2 ∧
      ∀ r, (refreshOrigin deps env service id w).1 = .ok r → ∃ index config,
        Mirrors deps env id w.clock index config (refreshOrigin deps env service id w).2 := by
  rcases @refreshOrigin_cases deps env service id w with
    ⟨hsame, hno⟩ | ⟨out, w', hrun, hdata, hout⟩
  · rw [hsame]
    exact ⟨hinv, fun r hr => absurd hr (hno r)⟩
  have hlock : SameData w (w.lock id) := ⟨rfl, rfl, rfl, rfl, Nat.le_refl _⟩
  have hclock : (w.lock id).clock ≤ w'.clock := run_clock deps env hrun
  have hinv' : Unshadowed deps env id fs (w.lock id) :=
    ⟨⟨hinv.tidy.mirror, hinv.tidy.backup⟩, hinv.held.data hlock, hinv.known⟩
  unfold pipeline at hrun
  obtain ⟨htidy, hend⟩ := refreshOriginSnapshot_quiet henv
    (fun t s h k hk => (hkeys t s h k hk).plain) hinv'.tidy hrun
  have htidy' : Tidy id (refreshOrigin deps env service id w).2 :=
    ⟨by rw [hdata.fs]; exact htidy.mirror, by rw [hdata.fs]; exact htidy.backup⟩
  rcases hend with href | ⟨hno, -, hkept⟩
  · have hid : validateOriginId id = .ok () := by
      obtain ⟨staged, _, _, _, _, _, _, hstage, -⟩ := href
      exact (stageOriginSync_shape hstage).1
    obtain ⟨hheld, index, hmirrors⟩ := href.mirrors
      (T := listsShadowed env (w.under id)) hinv'.held hclock
      (fun o w' h => absurd h (henv.not_probeFails hid o w'))
      (fun e he => hclear e (mem_trace_pipeline he))
      (fun index hl k hk => (canonical_of_listed fs hkeys hl k hk).1.plain)
      (fun _ index hl => ownSidecar_of_clear hkeys hhash hinv' hl)
    obtain ⟨config, hstored, hconfig, -⟩ := href.config
    refine ⟨⟨htidy', hheld.data hdata, fun r b n hr hmeta hfile hn => ?_⟩,
      fun r _ => ⟨index, config, hmirrors.data hdata, by rw [hdata.edgeConfigs, hstored], ?_⟩⟩
    swap
    · rw [← hconfig]
      exact configOf_congr (fun r => by rw [World.under, hdata.fs]; rfl) _
    -- the files are those of listed keys now
    rw [World.under, hdata.fs] at hfile
    obtain ⟨k, hk, rfl⟩ := (hmirrors.files r hr hmeta).mp ⟨b, hfile⟩
    obtain ⟨hck, hok⟩ := canonical_of_listed fs hkeys hmirrors.listed k hk
    rw [keyOf_names hck.plain, hck.normalized] at hn
    exact Except.ok.inj hn ▸ hok
  · refine ⟨⟨htidy', (hinv'.held.kept hkept hclock).data hdata, fun r b n hr hmeta hfile hn => ?_⟩,
      fun r hr => absurd ((hout r).mp hr) (hno r)⟩
    rw [World.under, hdata.fs, hkept.mirror _ (List.prefix_append _ _)] at hfile
    exact hinv'.known r b n hr hmeta hfile hn

theorem unshadowed_refreshes (htidy : Tidy id (World.start fs)) (n : Nat)
    (hclear : ∀ i, i < n → Clear deps env service id (refreshes deps env service id fs i)) :
    Unshadowed deps env id fs (refreshes deps env service id fs n) := by
  induction n with
  | zero => exact unshadowed_start htidy
  | succ n ih =>
    exact (clear_step henv hkeys hhash (ih fun i hi => hclear i (Nat.lt_succ_of_lt hi))
      (hclear n n.lt_succ_self)).1

end

/-- There is nothing in an empty store. -/
theorem empty_under (r : List Name) (b : Bytes) :
    (FileTree.empty : Tree).lookup (names "web".toList ++ r) ≠ some (.file b) := by
  have hweb : (FileTree.empty : Tree).lookup (names "web".toList) = none := by decide
  rw [FileTree.below_none _ hweb]
  simp

end RenderMesh.Refresh
