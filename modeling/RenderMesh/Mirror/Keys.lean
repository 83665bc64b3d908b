import RenderMesh.Dto
import Mathlib.Tactic.IntervalCases

/-!
# Object keys and mirror paths

The two normalizers that stand between a bucket's keys and the files of a
mirror, and the paths made from them: `normalize_remote_key` with the sync
service's `object_path` and `relative_key` (`src/src/repositories/sync.rs`), and
`normalize_object_path` with the sidecar path of an object's metadata
(`src/src/repositories/local_mirror.rs`). Paths are below the local store
directory, so the mirror of an origin is the directory named by its id.

Results:
* `normalizeRemoteKey_ok`: the key comes back unchanged, and what it satisfies.
* `names_objectPath`, `relativeKey_joinNames`: which file a key is, and which
  key a file is.
* `relativeKey_objectPath_iff`: the way there and back is the identity exactly
  on `Plain` keys.
* `sidecarNames_inj`: two keys share a sidecar exactly when
  `normalize_object_path` maps them to texts with one digest.
-/
namespace RenderMesh.Mirror

open RenderMesh.Core

/-- mirrors src/src/repositories/local_mirror.rs:8 -/
def METADATA_DIR_NAME : Str := ".rendermesh-meta".toList

def metaName : Name := ⟨METADATA_DIR_NAME, by decide⟩

/-- mirrors src/src/repositories/local_mirror.rs:133-142 -/
def validateOriginId (originId : Str) : Except Error Unit :=
  if originId ≠ [] ∧ originId.all (fun ch => ch.isAlphanum || ch == '_' || ch == '-') then .ok ()
  else .error (anyhow ("invalid origin id ".toList ++ originId))

/-- The local store directory, in which every other path is written. -/
def storeRoot : PathBuf := []

/-- `Path::join` with one name, also on the store directory itself. -/
def child (root : PathBuf) (name : Str) : PathBuf := if root = [] then name else join root name

/-- mirrors src/src/repositories/local_mirror.rs:38-41 -/
def originDir (root : PathBuf) (originId : Str) : Except Error PathBuf := do
  validateOriginId originId
  .ok (child root originId)

/-- mirrors src/src/repositories/local_mirror.rs:144-153 -/
def isReservedMetadataKey (path : Str) : Bool :=
  match (components path).head? with
  | some (.normal part) => part = METADATA_DIR_NAME
  | _ => false

/-- The component test that both normalizers make. -/
def escapes (path : Str) : Bool :=
  isAbsolute path || (components path).any fun c => c = .parentDir || c = .rootDir

def invalidObjectPath (path : Str) : Error := anyhow ("invalid object path ".toList ++ path)

/-- mirrors src/src/repositories/local_mirror.rs:95-120 -/
def normalizeObjectPath (path : Str) : Except Error Str :=
  let normalized := trimStartSlashes (trim path)
  if normalized = [] ∨ normalized.any isControl then .error (invalidObjectPath path)
  else if escapes normalized then .error (invalidObjectPath path)
  else if isReservedMetadataKey normalized then .error (invalidObjectPath path)
  else .ok normalized

/-- mirrors src/src/repositories/sync.rs:523-548 -/
def normalizeRemoteKey (key : Str) : Except Error Str :=
  if key = [] ∨ key.head? = some '/' ∨ key.any isControl then .error (invalidObjectPath key)
  else if escapes key then .error (invalidObjectPath key)
  else if METADATA_DIR_NAME <+: key ∧ (key.length = METADATA_DIR_NAME.length ∨
      key[METADATA_DIR_NAME.length]? = some '/') then .error (invalidObjectPath key)
  else .ok key

/-- `Path::starts_with`. -/
def startsWith (p q : PathBuf) : Bool := components q <+: components p

/-- mirrors src/src/repositories/sync.rs:512-521 (`object_path`) -/
def remoteObjectPath (originDir : PathBuf) (key : Str) : Except Error PathBuf := do
  let key ← normalizeRemoteKey key
  let path := join originDir key
  if startsWith path originDir then .ok path
  else .error (anyhow "object path escapes origin directory".toList)

/-- mirrors src/src/repositories/local_mirror.rs:43-53 -/
def objectPath (root : PathBuf) (originId path : Str) : Except Error PathBuf := do
  let dir ← originDir root originId
  let normalized ← normalizeObjectPath path
  let path := join dir normalized
  if startsWith path dir then .ok path
  else .error (anyhow "object path escapes origin directory".toList)

def hexDigit (n : Nat) : Char :=
  "0123456789abcdef".toList.getD n '0'

/-- mirrors src/src/repositories/local_mirror.rs:159-169 -/
def encodeHex (bytes : Bytes) : Str :=
  bytes.flatMap fun b => [hexDigit (b.toNat / 16), hexDigit (b.toNat % 16)]

/-- mirrors src/src/repositories/local_mirror.rs:155-157 -/
def stableKeyHash (deps : Deps) (key : Str) : Str := encodeHex (deps.sha256 (utf8 key)).bytes

/-- mirrors src/src/repositories/local_mirror.rs:122-131 -/
def metadataSidecarPath (deps : Deps) (originDir : PathBuf) (objectKey : Str) :
    Except Error PathBuf := do
  let normalized ← normalizeObjectPath objectKey
  let hash := stableKeyHash deps normalized
  .ok (join (join (join originDir METADATA_DIR_NAME) (hash.take 2)) (hash ++ ".json".toList))

/-- mirrors src/src/repositories/sync.rs:550-569 -/
def relativeKey (deps : Deps) (originDir objectPath : PathBuf) : Except Error Str :=
  if components originDir <+: components objectPath then
    let relative := (components objectPath).drop (components originDir).length
    normalizeRemoteKey (unsegments (relative.map fun c => match c with
      | .normal part => part
      | _ => []))
  else .error ((anyhow "prefix not found".toList).context ("local object ".toList ++
    deps.display objectPath ++ " is outside origin dir ".toList ++ deps.display originDir))

/-! ## What the normalizers accept -/

/-- The texts that `normalize_remote_key` accepts, and that
`normalize_object_path` returns. -/
structure Accepted (k : Str) : Prop where
  nonempty : k ≠ []
  relative : k.head? ≠ some '/'
  no_control : ∀ c ∈ k, isControl c = false
  no_parent : ['.', '.'] ∉ segments k
  no_meta : (segments k).head? ≠ some METADATA_DIR_NAME

theorem segments_head_iff {k s : Str} (hs : '/' ∉ s) :
    (segments k).head? = some s ↔ s <+: k ∧ (k.length = s.length ∨ k[s.length]? = some '/') := by
  constructor
  · intro h
    obtain ⟨x, l, hl⟩ := List.exists_cons_of_ne_nil (segments_ne_nil k)
    rw [hl, List.head?_cons, Option.some.injEq] at h
    subst h
    have hk := unsegments_segments k
    rw [hl] at hk
    cases l with
    | nil => simp at hk; simp [hk]
    | cons y l =>
      rw [← hk, unsegments_cons_cons]
      exact ⟨List.prefix_append _ _, Or.inr (by simp)⟩
  · rintro ⟨⟨r, rfl⟩, h⟩
    cases r with
    | nil => rw [List.append_nil, segments_of_no_slash hs]; rfl
    | cons c r =>
      have hc : c = '/' := by simpa using h
      rw [hc, segments_join, segments_of_no_slash hs]
      rfl

theorem escapes_iff {k : Str} (hk : k.head? ≠ some '/') :
    escapes k = true ↔ ['.', '.'] ∈ segments k := by
  have hseg : ∀ c ∈ (segments k).filterMap segComponent?, c ≠ .rootDir := by
    intro c hc h
    obtain ⟨s, -, hs⟩ := List.mem_filterMap.mp hc
    subst h
    unfold segComponent? at hs
    repeat' split at hs
    all_goals cases hs
  have hpar : Component.parentDir ∈ (segments k).filterMap segComponent? ↔
      ['.', '.'] ∈ segments k := by
    rw [List.mem_filterMap]
    constructor
    · rintro ⟨s, hs, h⟩
      unfold segComponent? at h
      repeat' split at h
      all_goals first | (cases h; done) | (rename_i hd; rwa [hd] at hs)
    · intro h
      exact ⟨_, h, by simp [segComponent?]⟩
  unfold escapes components isAbsolute
  simp only [hk, decide_false, Bool.false_or, if_false, List.any_eq_true, List.mem_append]
  constructor
  · rintro ⟨c, hc | hc, h⟩
    · split at hc <;> simp_all
    · simp only [Bool.or_eq_true, decide_eq_true_eq] at h
      rcases h with rfl | rfl
      · exact hpar.mp hc
      · exact absurd rfl (hseg _ hc)
  · intro h
    exact ⟨.parentDir, Or.inr (hpar.mpr h), by simp⟩

theorem isReservedMetadataKey_iff {k : Str} (h0 : k ≠ []) (hk : k.head? ≠ some '/') :
    isReservedMetadataKey k = true ↔ (segments k).head? = some METADATA_DIR_NAME := by
  obtain ⟨x, l, hl⟩ := List.exists_cons_of_ne_nil (segments_ne_nil k)
  have hx : x ≠ [] := by
    rintro rfl
    have hk' := unsegments_segments k
    rw [hl] at hk'
    cases l with
    | nil => exact h0 (by simpa using hk'.symm)
    | cons y l =>
      apply hk
      rw [← hk', unsegments_cons_cons]
      rfl
  unfold isReservedMetadataKey components
  simp only [if_neg hk, hl, List.head?_cons, Option.some.injEq]
  have hdot : ['.'] ≠ METADATA_DIR_NAME := by decide
  have hdots : ['.', '.'] ≠ METADATA_DIR_NAME := by decide
  by_cases h1 : x = ['.']
  · simp [h1, hdot]
  · by_cases h2 : x = ['.', '.']
    · simp [h2, hdots, segComponent?]
    · simp [h1, h2, hx, segComponent?]

/-- Three guards before a value. -/
theorem guards_ok_iff {ε α : Type} {P Q R : Prop} [Decidable P] [Decidable Q] [Decidable R]
    {e1 e2 e3 : ε} {a b : α} :
    (if P then Except.error e1 else if Q then .error e2 else if R then .error e3 else .ok a) =
      .ok b ↔ b = a ∧ ¬ P ∧ ¬ Q ∧ ¬ R := by
  by_cases hP : P
  · simp [hP]
  · by_cases hQ : Q
    · simp [hP, hQ]
    · by_cases hR : R
      · simp [hP, hQ, hR]
      · simp [hP, hQ, hR, eq_comm]

theorem normalizeRemoteKey_ok_iff {k k' : Str} :
    normalizeRemoteKey k = .ok k' ↔ k' = k ∧ Accepted k := by
  have hmeta := segments_head_iff (k := k) (s := METADATA_DIR_NAME) (by decide)
  unfold normalizeRemoteKey
  rw [guards_ok_iff, ← hmeta]
  simp only [not_or, List.any_eq_true, not_exists, not_and, Bool.not_eq_true]
  refine and_congr_right fun _ => ⟨?_, ?_⟩
  · rintro ⟨⟨h1, h2, h3⟩, h4, h5⟩
    exact ⟨h1, h2, h3, by rwa [← escapes_iff h2, Bool.not_eq_true], h5⟩
  · intro h
    refine ⟨⟨h.nonempty, h.relative, h.no_control⟩, ?_, h.no_meta⟩
    rw [← Bool.not_eq_true, escapes_iff h.relative]
    exact h.no_parent

theorem trimStartSlashes_relative (s : Str) : (trimStartSlashes s).head? ≠ some '/' := by
  intro h
  have := List.head?_dropWhile_not (· == '/') s
  unfold trimStartSlashes at h
  rw [h] at this
  simp at this

theorem normalizeObjectPath_ok_iff {p n : Str} :
    normalizeObjectPath p = .ok n ↔ n = trimStartSlashes (trim p) ∧ Accepted n := by
  unfold normalizeObjectPath
  simp only
  have hrel := trimStartSlashes_relative (trim p)
  generalize trimStartSlashes (trim p) = m at hrel
  rw [guards_ok_iff]
  simp only [not_or, List.any_eq_true, not_exists, not_and, Bool.not_eq_true]
  refine and_congr_right ?_
  rintro rfl
  constructor
  · rintro ⟨⟨h1, h2⟩, h3, h4⟩
    refine ⟨h1, hrel, h2, by rwa [← escapes_iff hrel, Bool.not_eq_true], ?_⟩
    rwa [ne_eq, ← isReservedMetadataKey_iff h1 hrel, Bool.not_eq_true]
  · intro h
    refine ⟨⟨h.nonempty, h.no_control⟩, ?_, ?_⟩
    · rw [← Bool.not_eq_true, escapes_iff hrel]
      exact h.no_parent
    · rw [← Bool.not_eq_true, isReservedMetadataKey_iff h.nonempty hrel]
      exact h.no_meta

theorem Accepted.segment {k s : Str} (h : Accepted k) (hs : s ∈ segments k) :
    s = [] ∨ s = ['.'] ∨ ValidName s := by
  by_cases h1 : s = []
  · exact Or.inl h1
  by_cases h2 : s = ['.']
  · exact Or.inr (Or.inl h2)
  refine Or.inr (Or.inr ⟨h1, h2, ?_, not_mem_of_mem_segments hs, ?_⟩)
  · rintro rfl; exact h.no_parent hs
  · intro h0
    have := h.no_control _ (mem_of_mem_segments hs h0)
    exact absurd this (by decide)

/-- A plain accepted key has neither empty nor `.` segments. -/
theorem Accepted.plain_iff {k : Str} (h : Accepted k) :
    Plain k ↔ ∀ s ∈ segments k, s ≠ [] ∧ s ≠ ['.'] := by
  constructor
  · exact fun hp s hs => ⟨(hp s hs).1, (hp s hs).2.1⟩
  · intro hp s hs
    rcases h.segment hs with h1 | h1 | h1
    · exact absurd h1 (hp s hs).1
    · exact absurd h1 (hp s hs).2
    · exact h1

theorem Accepted.normals {k : Str} (h : Accepted k) :
    (segments k).filterMap segComponent? = (names k).map fun n => .normal n.text := by
  have hseg : ∀ s ∈ segments k, segComponent? s = (nameOf? s).map fun n => .normal n.text := by
    intro s hs
    rcases h.segment hs with rfl | rfl | hv
    · decide
    · decide
    · rw [nameOf?_eq_some (n := ⟨s, hv⟩).mpr rfl]
      simp [segComponent?, hv.1, hv.2.1, hv.2.2.1]
  rw [names, List.map_filterMap]
  exact List.filterMap_congr hseg

/-! ## Origin directories -/

theorem validateOriginId_ok_iff {id : Str} :
    validateOriginId id = .ok () ↔
      id ≠ [] ∧ ∀ c ∈ id, (c.isAlphanum || c == '_' || c == '-') = true := by
  unfold validateOriginId
  split
  · rename_i h
    simpa using h
  · rename_i h
    simpa using h

theorem originDir_ok_iff {root : PathBuf} {id : Str} {d : PathBuf} :
    originDir root id = .ok d ↔ d = child root id ∧ validateOriginId id = .ok () := by
  unfold originDir
  cases h : validateOriginId id with
  | error e => simp [bind, Except.bind]
  | ok u => simp [bind, Except.bind, eq_comm]

section origin
variable {id : Str} (hid : validateOriginId id = .ok ())
include hid

theorem origin_no_char {c : Char} (hc : (c.isAlphanum || c == '_' || c == '-') = false) :
    c ∉ id := by
  intro hmem
  rw [(validateOriginId_ok_iff.mp hid).2 c hmem] at hc
  cases hc

theorem origin_ne_nil : id ≠ [] := (validateOriginId_ok_iff.mp hid).1

theorem origin_validName : ValidName id := by
  have hdot : '.' ∉ id := origin_no_char hid (by decide)
  refine ⟨origin_ne_nil hid, ?_, ?_, origin_no_char hid (by decide), origin_no_char hid (by decide)⟩
  · rintro rfl; simp at hdot
  · rintro rfl; simp at hdot

theorem names_origin : names id = [⟨id, origin_validName hid⟩] :=
  names_text ⟨id, origin_validName hid⟩

theorem origin_ne_of_dot {n : Name} (hn : '.' ∈ n.text) : names id ≠ [n] := by
  rw [names_origin hid]
  rintro h
  cases h
  exact origin_no_char hid (by decide) hn

theorem child_ne_nil {root : PathBuf} : child root id ≠ [] := by
  unfold child
  split
  · exact origin_ne_nil hid
  · simp [join]

omit hid in
theorem names_child {root : PathBuf} : names (child root id) = names root ++ names id := by
  unfold child
  split
  · rename_i h
    subst h
    rfl
  · exact names_join _ _

end origin

/-! ## Paths in a mirror -/

theorem components_join {p : PathBuf} (hp : p ≠ []) (k : Str) :
    components (join p k) = components p ++ (segments k).filterMap segComponent? := by
  have h1 : (join p k).head? = p.head? := by
    cases p with
    | nil => exact absurd rfl hp
    | cons c p => rfl
  have h2 : (segments (join p k)).head? = (segments p).head? := by
    rw [join, segments_join, List.head?_append_of_ne_nil _ (segments_ne_nil p)]
  unfold components
  rw [h1, h2, join, segments_join, List.filterMap_append, List.append_assoc]

theorem components_joinNames {p : PathBuf} (hp : p ≠ []) (ns : List Name) :
    components (joinNames p ns) = components p ++ ns.map fun n => .normal n.text := by
  induction ns generalizing p with
  | nil => simp [joinNames]
  | cons n ns ih =>
    have h : joinNames p (n :: ns) = joinNames (join p n.text) ns := rfl
    have hn : segComponent? n.text = some (.normal n.text) := by
      simp [segComponent?, n.valid.1, n.valid.2.1, n.valid.2.2.1]
    rw [h, ih (by simp [join]), components_join hp, segments_of_no_slash n.valid.2.2.2.1]
    simp [hn]

theorem startsWith_join {p : PathBuf} (hp : p ≠ []) (k : Str) : startsWith (join p k) p = true := by
  simp [startsWith, components_join hp]

theorem remoteObjectPath_ok_iff {d p : PathBuf} (hd : d ≠ []) {k : Str} :
    remoteObjectPath d k = .ok p ↔ p = join d k ∧ Accepted k := by
  unfold remoteObjectPath
  cases h : normalizeRemoteKey k with
  | error e =>
    have : ¬ Accepted k := fun ha => by
      rw [normalizeRemoteKey_ok_iff.mpr ⟨rfl, ha⟩] at h; cases h
    simp [bind, Except.bind, this]
  | ok k' =>
    obtain ⟨rfl, ha⟩ := normalizeRemoteKey_ok_iff.mp h
    simp [bind, Except.bind, startsWith_join hd, ha, eq_comm]

theorem objectPath_ok_iff {root : PathBuf} {id path : Str} {p : PathBuf} :
    objectPath root id path = .ok p ↔
      validateOriginId id = .ok () ∧
        ∃ n, normalizeObjectPath path = .ok n ∧ p = join (child root id) n := by
  unfold objectPath
  cases hv : validateOriginId id with
  | error e => simp [originDir, hv, bind, Except.bind]
  | ok u =>
    rw [originDir_ok_iff.mpr ⟨rfl, hv⟩]
    cases hn : normalizeObjectPath path with
    | error e => simp [bind, Except.bind]
    | ok n => simp [bind, Except.bind, startsWith_join (child_ne_nil hv), eq_comm]

theorem relativeKey_joinNames (deps : Deps) {d : PathBuf} (hd : d ≠ []) (ns : List Name) :
    relativeKey deps d (joinNames d ns) = normalizeRemoteKey (keyOf ns) := by
  unfold relativeKey
  rw [components_joinNames hd, if_pos (List.prefix_append _ _)]
  simp [keyOf, List.map_map, Function.comp_def]

theorem relativeKey_join (deps : Deps) {d : PathBuf} (hd : d ≠ []) {k : Str} (hk : Accepted k) :
    relativeKey deps d (join d k) = normalizeRemoteKey (keyOf (names k)) := by
  unfold relativeKey
  rw [components_join hd, if_pos (List.prefix_append _ _), hk.normals]
  simp [keyOf, List.map_map, Function.comp_def]

/-- A key comes back from the path made of it exactly when it is plain. -/
theorem relativeKey_objectPath_iff (deps : Deps) {d : PathBuf} (hd : d ≠ []) {k : Str}
    (hk : Accepted k) : relativeKey deps d (join d k) = .ok k ↔ Plain k := by
  rw [relativeKey_join deps hd hk, normalizeRemoteKey_ok_iff, ← keyOf_names_iff hk.nonempty]
  constructor
  · exact fun h => h.1.symm
  · intro h; exact ⟨h.symm, h.symm ▸ hk⟩

theorem accepted_keyOf_iff {ns : List Name} :
    Accepted (keyOf ns) ↔
      ns ≠ [] ∧ ns.head? ≠ some metaName ∧ ∀ n ∈ ns, ∀ c ∈ n.text, isControl c = false := by
  by_cases h0 : ns = []
  · subst h0
    simp only [ne_eq, not_true_eq_false, false_and, iff_false]
    exact fun h => h.nonempty rfl
  have hseg := segments_keyOf h0
  have hmeta : (segments (keyOf ns)).head? = some METADATA_DIR_NAME ↔ ns.head? = some metaName := by
    rw [hseg]
    cases ns with
    | nil => exact absurd rfl h0
    | cons n ns =>
      simp only [List.map_cons, List.head?_cons, Option.some.injEq]
      constructor
      · intro h; cases n; cases h; rfl
      · rintro rfl; rfl
  constructor
  · intro h
    refine ⟨h0, by rw [ne_eq, ← hmeta]; exact h.no_meta, fun n hn c hc => ?_⟩
    exact h.no_control c (mem_of_mem_segments (by rw [hseg]; exact List.mem_map_of_mem hn) hc)
  · rintro ⟨-, h1, h2⟩
    refine ⟨?_, ?_, ?_, ?_, by rwa [ne_eq, hmeta]⟩
    · intro h
      have := congrArg names h
      rw [names_keyOf] at this
      exact h0 (this.trans rfl)
    · obtain ⟨n, ns, rfl⟩ := List.exists_cons_of_ne_nil h0
      obtain ⟨c, t, ht⟩ := List.exists_cons_of_ne_nil n.valid.1
      have hc : c ≠ '/' := by
        rintro rfl
        exact n.valid.2.2.2.1 (by simp [ht])
      cases ns with
      | nil => simpa [keyOf, ht] using hc
      | cons m ns => simpa [keyOf, unsegments_cons_cons, ht] using hc
    · intro c hc
      rcases mem_unsegments hc with rfl | ⟨s, hs, hc⟩
      · decide
      · obtain ⟨n, hn, rfl⟩ := List.mem_map.mp hs
        exact h2 n hn c hc
    · rw [hseg]
      intro h
      obtain ⟨n, -, hn⟩ := List.mem_map.mp h
      exact n.valid.2.2.1 hn

/-! ## Sidecars -/

theorem hexDigit_ne (n : Nat) : hexDigit n ≠ '/' ∧ hexDigit n ≠ '.' ∧ hexDigit n ≠ '\x00' := by
  by_cases h : n < 16
  · interval_cases n <;> decide
  · have : hexDigit n = '0' := by
      have hlen : "0123456789abcdef".toList.length ≤ n := by
        rw [show "0123456789abcdef".toList.length = 16 from rfl]
        omega
      rw [hexDigit, List.getD_eq_getElem?_getD, List.getElem?_eq_none hlen]
      rfl
    rw [this]
    decide

theorem hexDigit_inj {m n : Nat} (hm : m < 16) (hn : n < 16) (h : hexDigit m = hexDigit n) :
    m = n := by
  revert h
  interval_cases m <;> interval_cases n <;> decide

theorem not_mem_encodeHex (b : Bytes) {c : Char} (hc : c = '/' ∨ c = '.' ∨ c = '\x00') :
    c ∉ encodeHex b := by
  intro h
  obtain ⟨x, -, hx⟩ := List.mem_flatMap.mp h
  have hne : ∀ n, hexDigit n ≠ c := by
    intro n
    rcases hc with rfl | rfl | rfl
    exacts [(hexDigit_ne n).1, (hexDigit_ne n).2.1, (hexDigit_ne n).2.2]
  simp only [List.mem_cons, List.not_mem_nil, or_false] at hx
  rcases hx with hx | hx
  · exact hne _ hx.symm
  · exact hne _ hx.symm

theorem encodeHex_injective {a b : Bytes} (h : encodeHex a = encodeHex b) : a = b := by
  induction a generalizing b with
  | nil => cases b with
    | nil => rfl
    | cons y b => cases h
  | cons x a ih => cases b with
    | nil => cases h
    | cons y b =>
      simp only [encodeHex, List.flatMap_cons, List.cons_append, List.nil_append,
        List.cons.injEq] at h
      obtain ⟨h1, h2, h3⟩ := h
      have hx := x.toNat_lt
      have hy := y.toNat_lt
      have e1 := hexDigit_inj (by omega) (by omega) h1
      have e2 := hexDigit_inj (by omega) (by omega) h2
      have : x = y := UInt8.toNat_inj.mp (by omega)
      rw [this, ih h3]

theorem stableKeyHash_chars (deps : Deps) (n : Str) {c : Char} (hc : c = '/' ∨ c = '.' ∨ c = '\x00') :
    c ∉ stableKeyHash deps n := not_mem_encodeHex _ hc

theorem stableKeyHash_ne_nil (deps : Deps) (n : Str) : stableKeyHash deps n ≠ [] := by
  have hl := (deps.sha256 (utf8 n)).length
  unfold stableKeyHash
  cases hb : (deps.sha256 (utf8 n)).bytes with
  | nil => rw [hb] at hl; cases hl
  | cons b l => simp [encodeHex]

/-- The two names below the metadata directory. -/
def shardName (deps : Deps) (n : Str) : Name where
  text := (stableKeyHash deps n).take 2
  valid := by
    have hdot := stableKeyHash_chars deps n (c := '.') (by simp)
    refine ⟨by simpa using stableKeyHash_ne_nil deps n, ?_, ?_, ?_, ?_⟩
    · intro h; exact hdot (List.mem_of_mem_take (i := 2) (by rw [h]; simp))
    · intro h; exact hdot (List.mem_of_mem_take (i := 2) (by rw [h]; simp))
    · intro h; exact stableKeyHash_chars deps n (by simp) (List.mem_of_mem_take h)
    · intro h; exact stableKeyHash_chars deps n (by simp) (List.mem_of_mem_take h)

def sidecarName (deps : Deps) (n : Str) : Name where
  text := stableKeyHash deps n ++ ".json".toList
  valid := by
    refine ⟨by simp [stableKeyHash_ne_nil], ?_, ?_, ?_, ?_⟩
    · intro h; have := congrArg List.length h; simp at this
    · intro h; have := congrArg List.length h; simp at this
    · rw [List.mem_append, not_or]
      exact ⟨stableKeyHash_chars deps n (by simp), by decide⟩
    · rw [List.mem_append, not_or]
      exact ⟨stableKeyHash_chars deps n (by simp), by decide⟩

/-- Where the metadata of the object that `normalize_object_path` calls `n` is. -/
def sidecarNames (deps : Deps) (n : Str) : List Name :=
  [metaName, shardName deps n, sidecarName deps n]

theorem metadataSidecarPath_ok_iff {deps : Deps} {d p : PathBuf} {k : Str} :
    metadataSidecarPath deps d k = .ok p ↔ ∃ n, normalizeObjectPath k = .ok n ∧
      p = joinNames d (sidecarNames deps n) := by
  unfold metadataSidecarPath
  cases h : normalizeObjectPath k with
  | error e => simp [bind, Except.bind]
  | ok n => simp [bind, Except.bind, sidecarNames, joinNames, metaName, shardName, sidecarName, eq_comm]

/-- Two objects share a sidecar exactly when their digests agree. -/
theorem sidecarNames_inj {deps : Deps} {n m : Str} :
    sidecarNames deps n = sidecarNames deps m ↔ deps.sha256 (utf8 n) = deps.sha256 (utf8 m) := by
  constructor
  · intro h
    have h3 : sidecarName deps n = sidecarName deps m := by simpa [sidecarNames] using (by
      simp only [sidecarNames, List.cons.injEq] at h; exact h.2.2.1)
    have h4 := congrArg Name.text h3
    have h5 := encodeHex_injective (List.append_cancel_right h4)
    cases hn : deps.sha256 (utf8 n)
    cases hm : deps.sha256 (utf8 m)
    simpa [hn, hm] using h5
  · intro h
    simp [sidecarNames, shardName, sidecarName, stableKeyHash, h]

/-! ## Canonical keys -/

/-- A key as deployment tools write them: both normalizers leave it as it is. -/
structure Canonical (k : Str) : Prop where
  segment : ∀ s ∈ segments k, s ≠ [] ∧ s ≠ ['.'] ∧ s ≠ ['.', '.']
  trimmed : trim k = k
  no_control : ∀ c ∈ k, isControl c = false
  no_meta : (segments k).head? ≠ some METADATA_DIR_NAME

theorem no_control_of_all {k : Str} (h : (k.all fun c => !isControl c) = true) :
    ∀ c ∈ k, isControl c = false := by
  simpa using h

namespace Canonical

variable {k : Str} (h : Canonical k)
include h

theorem plain : Plain k := by
  intro s hs
  obtain ⟨h1, h2, h3⟩ := h.segment s hs
  refine ⟨h1, h2, h3, not_mem_of_mem_segments hs, fun h0 => ?_⟩
  exact absurd (h.no_control _ (mem_of_mem_segments hs h0)) (by decide)

theorem accepted : Accepted k := by
  refine ⟨?_, ?_, h.no_control, fun hs => (h.segment _ hs).2.2 rfl, h.no_meta⟩
  · rintro rfl
    exact (h.segment [] (by decide)).1 rfl
  · intro hhead
    obtain ⟨t, ht⟩ : ∃ t, k = '/' :: t := by
      cases k with
      | nil => cases hhead
      | cons c t => exact ⟨t, by rw [Option.some.inj hhead]⟩
    refine (h.segment [] ?_).1 rfl
    rw [ht, show '/' :: t = [] ++ '/' :: t from rfl, segments_join]
    exact List.mem_append_left _ (by decide)

theorem normalized : normalizeObjectPath k = .ok k := by
  refine normalizeObjectPath_ok_iff.mpr ⟨?_, h.accepted⟩
  have hhead := h.accepted.relative
  rw [h.trimmed, trimStartSlashes]
  cases k with
  | nil => rfl
  | cons c t =>
    have hc : c ≠ '/' := fun he => hhead (by rw [he]; rfl)
    simp [hc]

end Canonical

end RenderMesh.Mirror
