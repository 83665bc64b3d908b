import RenderMesh.Core.Text
import Mathlib.Data.List.Sort

/-!
# Labels, case and surrounding whitespace

What host names are made of: `str::rsplit_once`, the labels between dots, and how
trimming and ASCII case go together.

* `rsplitOnce_eq_some`, `rsplitOnce_eq_none`: what the last separator splits.
* `trim_pad`, `trim_toAsciiLower`: whitespace around a text and the case of its letters.
* `suffix_labels_iff`: below a separator, a suffix of a label sequence is a label
  sequence with labels in front.
-/
namespace RenderMesh.Core

/-! ## The last separator -/

/-- `str::rsplit_once`. -/
def rsplitOnce (sep : Char) : Str → Option (Str × Str)
  | [] => none
  | c :: s =>
    match rsplitOnce sep s with
    | some r => some (c :: r.1, r.2)
    | none => if c = sep then some ([], s) else none

theorem rsplitOnce_eq_none {sep : Char} {s : Str} : rsplitOnce sep s = none ↔ sep ∉ s := by
  induction s with
  | nil => simp [rsplitOnce]
  | cons c s ih =>
    rw [rsplitOnce]
    cases hr : rsplitOnce sep s with
    | some r =>
      have : sep ∈ s := by
        by_contra hn
        rw [ih.mpr hn] at hr
        cases hr
      simp [this]
    | none =>
      have := ih.mp hr
      by_cases hc : c = sep
      · simp [hc]
      · simp [hc, this, Ne.symm hc]

theorem rsplitOnce_append {sep : Char} (a : Str) {b : Str} (hb : sep ∉ b) :
    rsplitOnce sep (a ++ sep :: b) = some (a, b) := by
  induction a with
  | nil => simp [rsplitOnce, rsplitOnce_eq_none.mpr hb]
  | cons c a ih => simp [rsplitOnce, ih]

theorem rsplitOnce_eq_some {sep : Char} {s a b : Str} :
    rsplitOnce sep s = some (a, b) ↔ s = a ++ sep :: b ∧ sep ∉ b := by
  constructor
  · intro h
    induction s generalizing a with
    | nil => simp [rsplitOnce] at h
    | cons c s ih =>
      rw [rsplitOnce] at h
      cases hr : rsplitOnce sep s with
      | some r =>
        rw [hr] at h
        simp only [Option.some.injEq, Prod.mk.injEq] at h
        obtain ⟨h1, h2⟩ := ih (a := r.1) (by rw [hr, ← h.2])
        exact ⟨by rw [h1, ← h.1]; simp, h2⟩
      | none =>
        rw [hr] at h
        dsimp only at h
        split at h
        · rename_i hc
          cases h
          exact ⟨by simp [hc], rsplitOnce_eq_none.mp hr⟩
        · cases h
  · intro h
    rw [h.1]
    exact rsplitOnce_append a h.2

/-! ## Whitespace -/

theorem rdropWhile_append_of_all {p : Char → Bool} (s : Str) {t : Str} (ht : ∀ c ∈ t, p c = true) :
    (s ++ t).rdropWhile p = s.rdropWhile p := by
  have hr : ∀ c ∈ t.reverse, p c = true := fun c hc => ht c (List.mem_reverse.mp hc)
  simp [List.rdropWhile, List.dropWhile_append_of_pos hr]

/-- Whitespace around a text is trimmed away. -/
theorem trim_pad {pre post : Str} (hpre : ∀ c ∈ pre, isWhitespace c = true)
    (hpost : ∀ c ∈ post, isWhitespace c = true) (s : Str) : trim (pre ++ s ++ post) = trim s := by
  rw [trim, trim, List.append_assoc, List.dropWhile_append_of_pos hpre]
  by_cases hs : ∀ c ∈ s, isWhitespace c = true
  · rw [List.dropWhile_append_of_pos hs, List.dropWhile_eq_nil_iff.mpr hpost,
      List.dropWhile_eq_nil_iff.mpr hs]
  · have hne : s.dropWhile isWhitespace ≠ [] := fun h => hs (List.dropWhile_eq_nil_iff.mp h)
    rw [List.dropWhile_append]
    simp only [List.isEmpty_eq_false_iff.mpr hne]
    exact rdropWhile_append_of_all _ hpost

theorem mem_of_mem_trim {c : Char} {s : Str} (h : c ∈ trim s) : c ∈ s :=
  (List.dropWhile_sublist _).mem ((List.rdropWhile_prefix _ _).sublist.mem h)

theorem trim_eq_self {s : Str} (hs : ∀ c ∈ s, isWhitespace c = false) : trim s = s := by
  have hd : s.dropWhile isWhitespace = s := by
    cases s with
    | nil => rfl
    | cons c s => simp [hs c (by simp)]
  rw [trim, hd, List.rdropWhile_eq_self_iff]
  intro hne
  simp [hs _ (List.getLast_mem hne)]

theorem dropWhile_trim (s : Str) : (trim s).dropWhile isWhitespace = trim s := by
  rw [trim]
  set t := s.dropWhile isWhitespace with ht
  cases hc : t.rdropWhile isWhitespace with
  | nil => rfl
  | cons c u =>
    obtain ⟨v, hv⟩ := List.rdropWhile_prefix isWhitespace t
    rw [hc] at hv
    have hne : s.dropWhile isWhitespace ≠ [] := by
      rw [← ht, ← hv]
      simp
    have hfirst : isWhitespace c = false := by
      have := List.head_dropWhile_not isWhitespace hne
      simpa only [← ht, ← hv, List.cons_append, List.head_cons] using this
    simp [hfirst]

theorem trim_trim (s : Str) : trim (trim s) = trim s := by
  have hd := dropWhile_trim s
  rw [trim, hd, trim, List.rdropWhile_idempotent]

/-- What is trimmed off a text that does not begin with whitespace stands at its end. -/
theorem trim_append_blanks {s : Str} (h : s.dropWhile isWhitespace = s) :
    ∃ blanks, s = trim s ++ blanks ∧ ∀ c ∈ blanks, isWhitespace c = true := by
  refine ⟨s.rtakeWhile isWhitespace, ?_, fun c hc => List.mem_rtakeWhile_imp hc⟩
  rw [trim, h]
  exact List.rdropWhile_append_rtakeWhile.symm

/-! ## ASCII case -/

/-- A letter from `A` to `Z` moves by 32, nothing else moves. -/
theorem toLower_cases (c : Char) :
    c.toLower = c ∨ 65 ≤ c.toNat ∧ c.toNat ≤ 90 ∧ c.toLower.toNat = c.toNat + 32 := by
  by_cases h : c.val ≥ 'A'.val ∧ c.val ≤ 'Z'.val
  · have h1 : 65 ≤ c.val.toNat := h.1
    have h2 : c.val.toNat ≤ 90 := h.2
    have h3 : c.toLower.val = c.val + 32 := congrArg Char.val (dif_pos h)
    refine Or.inr ⟨h1, h2, ?_⟩
    have h4 : c.toLower.toNat = (c.val + 32).toNat := congrArg UInt32.toNat h3
    have h5 : (32 : UInt32).toNat = 32 := rfl
    rw [h4, UInt32.toNat_add, h5]
    show (c.val.toNat + 32) % 2 ^ 32 = c.val.toNat + 32
    omega
  · exact Or.inl (dif_neg h)

theorem toLower_idem (c : Char) : c.toLower.toLower = c.toLower := by
  rcases toLower_cases c with h | ⟨h1, h2, h3⟩
  · rw [h, h]
  · rcases toLower_cases c.toLower with h | ⟨h4, h5, -⟩
    · exact h
    · omega

theorem isWhitespace_toLower (c : Char) : isWhitespace c.toLower = isWhitespace c := by
  rcases toLower_cases c with h | ⟨h1, h2, h3⟩
  · rw [h]
  · simp only [isWhitespace, h3, beq_eq_decide]
    rw [Bool.eq_iff_iff]
    simp only [Bool.or_eq_true, Bool.and_eq_true, decide_eq_true_eq]
    omega

theorem isDigit_iff (c : Char) : c.isDigit = true ↔ 48 ≤ c.toNat ∧ c.toNat ≤ 57 := by
  simp only [Char.isDigit, Bool.and_eq_true, decide_eq_true_eq]
  exact Iff.rfl

theorem isUpper_iff (c : Char) : c.isUpper = true ↔ 65 ≤ c.toNat ∧ c.toNat ≤ 90 := by
  show decide (c.val ≥ 'A'.val ∧ c.val ≤ 'Z'.val) = true ↔ _
  rw [decide_eq_true_eq]
  exact Iff.rfl

theorem isLower_iff (c : Char) : c.isLower = true ↔ 97 ≤ c.toNat ∧ c.toNat ≤ 122 := by
  show (decide (c.val ≥ 'a'.val) && decide (c.val ≤ 'z'.val)) = true ↔ _
  rw [Bool.and_eq_true, decide_eq_true_eq, decide_eq_true_eq]
  exact Iff.rfl

theorem isDigit_toLower (c : Char) : c.toLower.isDigit = c.isDigit := by
  rcases toLower_cases c with h | ⟨h1, h2, h3⟩
  · rw [h]
  · rw [Bool.eq_iff_iff, isDigit_iff, isDigit_iff]
    omega

theorem isAlphanum_toLower (c : Char) : c.toLower.isAlphanum = c.isAlphanum := by
  rcases toLower_cases c with h | ⟨h1, h2, h3⟩
  · rw [h]
  · have hupper : c.isUpper = true := (isUpper_iff c).mpr ⟨h1, h2⟩
    have hlower : c.toLower.isLower = true := (isLower_iff _).mpr (by omega)
    show (c.toLower.isUpper || c.toLower.isLower || c.toLower.isDigit) =
      (c.isUpper || c.isLower || c.isDigit)
    rw [hupper, hlower, Bool.or_true, Bool.true_or, Bool.true_or, Bool.true_or]

/-- Upper case is what lower case moves. -/
theorem toLower_eq_self_iff {c : Char} : c.toLower = c ↔ c.isUpper = false := by
  rw [← Bool.not_eq_true, isUpper_iff]
  by_cases h : c.val ≥ 'A'.val ∧ c.val ≤ 'Z'.val
  · have hval : c.toLower.val = c.val + 32 := congrArg Char.val (dif_pos h)
    refine iff_of_false (fun he => ?_) (not_not_intro h)
    rw [he] at hval
    simp at hval
  · exact iff_of_true (dif_neg h) h

/-- A character that is no letter is only itself in lower case. -/
theorem toLower_eq_iff {c d : Char} (hd : d.toNat < 65) : c.toLower = d ↔ c = d := by
  rcases toLower_cases c with h | ⟨h1, h2, h3⟩
  · rw [h]
  · constructor
    · intro he
      rw [he] at h3
      omega
    · intro he
      rw [he] at h1
      omega

theorem toAsciiLower_idem (s : Str) : toAsciiLower (toAsciiLower s) = toAsciiLower s := by
  simp only [toAsciiLower, List.map_map]
  exact List.map_congr_left fun c _ => toLower_idem c

theorem toAsciiLower_eq_self_iff {s : Str} : toAsciiLower s = s ↔ ∀ c ∈ s, c.isUpper = false := by
  simp only [← toLower_eq_self_iff]
  conv_lhs => rhs; rw [← List.map_id s]
  exact List.map_inj_left

@[simp] theorem toAsciiLower_append (s t : Str) :
    toAsciiLower (s ++ t) = toAsciiLower s ++ toAsciiLower t := List.map_append

theorem trim_toAsciiLower (s : Str) : trim (toAsciiLower s) = toAsciiLower (trim s) := by
  have hp : isWhitespace ∘ Char.toLower = isWhitespace := funext isWhitespace_toLower
  simp only [trim, toAsciiLower, List.rdropWhile, List.dropWhile_map, ← List.map_reverse, hp]

theorem rsplitOnce_toAsciiLower {sep : Char} (hsep : sep.toNat < 65) (s : Str) :
    rsplitOnce sep (toAsciiLower s) =
      (rsplitOnce sep s).map fun r => (toAsciiLower r.1, toAsciiLower r.2) := by
  induction s with
  | nil => rfl
  | cons c s ih =>
    rw [toAsciiLower, List.map_cons, rsplitOnce, rsplitOnce, ← toAsciiLower, ih]
    cases rsplitOnce sep s with
    | some r => rfl
    | none =>
      by_cases hc : c = sep
      · simp [hc, (toLower_eq_iff (c := sep) hsep).mpr rfl, toAsciiLower]
      · simp [hc, toLower_eq_iff hsep]

theorem all_isDigit_toAsciiLower (s : Str) : (toAsciiLower s).all Char.isDigit = s.all Char.isDigit := by
  have hp : Char.isDigit ∘ Char.toLower = Char.isDigit := funext isDigit_toLower
  rw [toAsciiLower, List.all_map, hp]

/-! ## Label sequences -/

/-- Labels put together with dots. -/
def joinLabels (labels : List Str) : Str := ['.'].intercalate labels

theorem joinLabels_splitOn (s : Str) : joinLabels (s.splitOn '.') = s :=
  List.intercalate_splitOn '.'

/-- Case does not move a dot. -/
theorem splitOn_toAsciiLower (s : Str) :
    (toAsciiLower s).splitOn '.' = (s.splitOn '.').map toAsciiLower := by
  induction s with
  | nil => simp [toAsciiLower]
  | cons c s ih =>
    have hdot : c.toLower = '.' ↔ c = '.' := toLower_eq_iff (by decide)
    rw [toAsciiLower, List.map_cons, ← toAsciiLower, List.splitOn_cons_eq_if_modifyHead,
      List.splitOn_cons_eq_if_modifyHead, ih]
    simp only [hdot, beq_iff_eq]
    split
    · rfl
    · cases s.splitOn '.' <;> rfl

/-- Below a dot: a text whose labels all satisfy `P` ends with `s` after a dot
exactly when labels that satisfy `P` stand in front. -/
theorem suffix_labels_iff {P : Str → Prop} {n s : Str}
    (hn : ∀ l ∈ n.splitOn '.', P l) :
    '.' :: s <:+ n ↔
      ∃ labels, labels ≠ [] ∧ (∀ l ∈ labels, P l) ∧ n = joinLabels labels ++ '.' :: s := by
  constructor
  · intro h
    obtain ⟨pre, hpre⟩ := h
    refine ⟨pre.splitOn '.', List.splitOn_ne_nil _ _, fun l hl => hn l ?_, ?_⟩
    · rw [← hpre, List.splitOn_append_cons_self]
      exact List.mem_append_left _ hl
    · rw [joinLabels_splitOn, hpre]
  · intro h
    obtain ⟨labels, -, -, hn⟩ := h
    exact ⟨joinLabels labels, hn.symm⟩

/-! ## Length in bytes -/

/-- `str::len`. -/
def byteLen (s : Str) : Nat := (utf8 s).length

theorem byteLen_append (s t : Str) : byteLen (s ++ t) = byteLen s + byteLen t := by
  simp [byteLen, utf8]

theorem byteLen_pos {s : Str} (hs : s ≠ []) : 0 < byteLen s := by
  cases s with
  | nil => exact absurd rfl hs
  | cons c s =>
    have := Char.utf8Size_pos c
    simp only [byteLen, utf8, List.flatMap_cons, List.length_append, String.length_utf8EncodeChar]
    omega

theorem byteLen_lt_of_suffix {s t : Str} (h : s <:+ t) (hne : s ≠ t) : byteLen s < byteLen t := by
  obtain ⟨pre, rfl⟩ := h
  have hpre : pre ≠ [] := by
    intro he
    simp [he] at hne
  have := byteLen_pos hpre
  rw [byteLen_append]
  omega

/-- Suffixes of one text are ordered the same by bytes and by characters. -/
theorem suffix_of_byteLen_le {s t n : Str} (hs : s <:+ n) (ht : t <:+ n)
    (hlen : byteLen s ≤ byteLen t) : s <:+ t := by
  rcases List.suffix_or_suffix_of_suffix hs ht with h | h
  · exact h
  · by_cases he : t = s
    · rw [he]
    · have := byteLen_lt_of_suffix h he
      omega

end RenderMesh.Core
