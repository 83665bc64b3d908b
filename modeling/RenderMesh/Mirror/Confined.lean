import RenderMesh.Mirror.Keys

/-!
# Paths that stay in a directory

Whatever text a path is made from, the paths that the mirror and the sync service come to lead
from the origin's directory down: what follows it are names, none of them `..` (`Inside`), so
resolving the path as text stays in the directory too.
-/
namespace RenderMesh.Mirror

open RenderMesh.Core

/-- `Path::join`: an absolute path takes the place of the first one. -/
def pathJoin (p k : PathBuf) : PathBuf :=
  if isAbsolute k then k
  else if p = [] ∨ p.getLast? = some '/' then p ++ k
  else p ++ '/' :: k

/-- A component after those that the path was resolved to. -/
def stepInto (resolved : List Component) : Component → List Component
  | .rootDir => [.rootDir]
  | .curDir => resolved
  | .parentDir =>
    match resolved.getLast? with
    | some (.normal _) => resolved.dropLast
    | some .rootDir => resolved
    | _ => resolved ++ [.parentDir]
  | .normal part => resolved ++ [.normal part]

/-- What a path is as text, without looking at the file system. -/
def lexical (p : PathBuf) : List Component := (components p).foldl stepInto []

/-- A path in a directory. -/
structure Inside (dir path : PathBuf) : Prop where
  below : ∃ rest, components path = components dir ++ rest ∧ .parentDir ∉ rest ∧ .rootDir ∉ rest
  lexical : lexical dir <+: lexical path

theorem foldl_stepInto {rest : List Component} (h : ∀ c ∈ rest, ∃ part, c = .normal part)
    (resolved : List Component) : rest.foldl stepInto resolved = resolved ++ rest := by
  induction rest generalizing resolved with
  | nil => simp
  | cons c rest ih =>
    obtain ⟨part, rfl⟩ := h c List.mem_cons_self
    rw [List.foldl_cons, ih fun d hd => h d (List.mem_cons_of_mem _ hd), stepInto, List.append_assoc]
    rfl

/-- Names below the directory. -/
theorem inside_of_names {dir path : PathBuf} {rest : List Component}
    (hpath : components path = components dir ++ rest) (hrest : ∀ c ∈ rest, ∃ part, c = .normal part) :
    Inside dir path where
  below := by
    refine ⟨rest, hpath, fun h => ?_, fun h => ?_⟩
    · obtain ⟨part, hpart⟩ := hrest _ h
      cases hpart
    · obtain ⟨part, hpart⟩ := hrest _ h
      cases hpart
  lexical := by
    unfold Mirror.lexical
    rw [hpath, List.foldl_append, foldl_stepInto hrest]
    exact List.prefix_append _ _

/-- The segments of an accepted key are names, or name nothing. -/
theorem Accepted.names {k : Str} (h : Accepted k) :
    ∀ c ∈ (segments k).filterMap segComponent?, ∃ part, c = .normal part := by
  intro c hc
  obtain ⟨s, hs, hcs⟩ := List.mem_filterMap.mp hc
  have hparent : s ≠ ['.', '.'] := fun he => h.no_parent (he ▸ hs)
  unfold segComponent? at hcs
  split at hcs
  · cases hcs
  · split at hcs
    · cases hcs
    · exact ⟨s, (Option.some.inj hcs).symm⟩

theorem Accepted.inside {dir : PathBuf} {k : Str} (h : Accepted k) (hdir : dir ≠ []) :
    Inside dir (join dir k) :=
  inside_of_names (components_join hdir k) h.names

/-- An accepted key is joined below a directory, and does not take its place. -/
theorem Accepted.pathJoin_eq {dir : PathBuf} {k : Str} (h : Accepted k) (hdir : dir ≠ [])
    (hslash : dir.getLast? ≠ some '/') : pathJoin dir k = join dir k := by
  have hrelative : isAbsolute k = false := decide_eq_false h.relative
  rw [pathJoin, hrelative, if_neg (by decide), if_neg (by simp [hdir, hslash])]
  rfl

theorem getLast?_child {root : PathBuf} {id : Str} (hid : validateOriginId id = .ok ()) :
    (child root id).getLast? ≠ some '/' := by
  have hne := origin_ne_nil hid
  have hlast : (child root id).getLast? = id.getLast? := by
    unfold child
    split
    · rfl
    · rw [join, List.getLast?_append_of_ne_nil _ (by simp), List.getLast?_cons_of_ne_nil hne]
  rw [hlast]
  intro h
  exact origin_no_char hid (by decide) (List.mem_of_getLast? h)

theorem objectPath_inside {root p : PathBuf} {id path : Str} (h : objectPath root id path = .ok p) :
    Inside (child root id) p ∧ ∃ n, normalizeObjectPath path = .ok n ∧ p = pathJoin (child root id) n := by
  obtain ⟨hid, n, hn, rfl⟩ := objectPath_ok_iff.mp h
  obtain ⟨-, haccepted⟩ := normalizeObjectPath_ok_iff.mp hn
  exact ⟨haccepted.inside (child_ne_nil hid), n, hn,
    (haccepted.pathJoin_eq (child_ne_nil hid) (getLast?_child hid)).symm⟩

theorem metadataSidecarPath_inside {deps : Deps} {dir p : PathBuf} {key : Str} (hdir : dir ≠ [])
    (h : metadataSidecarPath deps dir key = .ok p) : Inside dir p := by
  obtain ⟨n, -, rfl⟩ := metadataSidecarPath_ok_iff.mp h
  refine inside_of_names (components_joinNames hdir _) fun c hc => ?_
  obtain ⟨name, -, rfl⟩ := List.mem_map.mp hc
  exact ⟨name.text, rfl⟩

theorem remoteObjectPath_inside {dir p : PathBuf} {key : Str} (hdir : dir ≠ [])
    (h : remoteObjectPath dir key = .ok p) : Inside dir p := by
  obtain ⟨rfl, haccepted⟩ := (remoteObjectPath_ok_iff hdir).mp h
  exact haccepted.inside hdir

end RenderMesh.Mirror
