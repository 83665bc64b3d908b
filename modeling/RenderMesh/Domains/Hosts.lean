import RenderMesh.Core.Labels
import RenderMesh.Domains.Manifest

/-!
# Host names

`normalize_host` (`src/src/services/manifest.rs`): the host that a `Host` header or
a host key names, without case, surrounding whitespace and port.

* `normalizeHost_some`, `normalizeHost_of_valid`: normal forms are valid hosts in
  lower case.
* `normalizeHost_trim`, `normalizeHost_toAsciiLower`, `normalizeHost_port`: what
  of a header does not matter.
-/
namespace RenderMesh.Domains

open RenderMesh.Core

/-- mirrors src/src/services/manifest.rs:134-141 -/
def isValidHostLabel (label : Str) : Bool :=
  label ≠ [] && label.head? ≠ some '-' && label.getLast? ≠ some '-' &&
    label.all fun ch => ch.isAlphanum || ch == '-'

/-- mirrors src/src/services/manifest.rs:127-132 -/
def isValidHost (host : Str) : Bool :=
  host ≠ [] && host.head? ≠ some '.' && host.getLast? ≠ some '.' &&
    (host.splitOn '.').all isValidHostLabel

/-- The header without its port, `none` when what follows the last colon is no number. -/
def withoutPort (value : Str) : Option Str :=
  match rsplitOnce ':' value with
  | some r => if r.2 = [] ∨ !r.2.all Char.isDigit then none else some r.1
  | none => some value

/-- mirrors src/src/services/manifest.rs:103-125 -/
def normalizeHost (hostHeader : Str) : Option Str :=
  let value := trim hostHeader
  if value = [] then none
  else
    match withoutPort value with
    | none => none
    | some host =>
      let host := toAsciiLower (trim host)
      if isValidHost host then some host else none

theorem isValidHost_labels {n : Str} (h : isValidHost n = true) :
    ∀ l ∈ n.splitOn '.', isValidHostLabel l = true := by
  simp only [isValidHost, Bool.and_eq_true, List.all_eq_true] at h
  exact h.2

/-- A valid host has letters, digits, hyphens and dots only. -/
theorem isValidHost_chars {n : Str} (h : isValidHost n = true) :
    ∀ c ∈ n, c.isAlphanum = true ∨ c = '-' ∨ c = '.' := by
  intro c hc
  by_cases hdot : c = '.'
  · exact Or.inr (Or.inr hdot)
  · rw [← joinLabels_splitOn n] at hc
    obtain ⟨l, hl, hcl⟩ := (mem_intercalate hc).resolve_left hdot
    have hl' := isValidHost_labels h l hl
    simp only [isValidHostLabel, Bool.and_eq_true, List.all_eq_true] at hl'
    have := hl'.2 c hcl
    simp only [Bool.or_eq_true, beq_iff_eq] at this
    tauto

theorem not_mem_of_isValidHost {n : Str} (h : isValidHost n = true) {c : Char}
    (hc : c.isAlphanum = false) (hm : c ≠ '-') (hd : c ≠ '.') : c ∉ n := by
  intro hcn
  rcases isValidHost_chars h c hcn with h' | h' | h'
  · rw [hc] at h'
    cases h'
  · exact hm h'
  · exact hd h'

theorem isWhitespace_alphanum {c : Char} (hc : c.isAlphanum = true) : isWhitespace c = false := by
  have h : 48 ≤ c.toNat ∧ c.toNat ≤ 122 := by
    have hor : (c.isUpper || c.isLower || c.isDigit) = true := hc
    simp only [Bool.or_eq_true] at hor
    rcases hor with (h | h) | h
    · rw [isUpper_iff] at h
      omega
    · rw [isLower_iff] at h
      omega
    · rw [isDigit_iff] at h
      omega
  simp only [isWhitespace, beq_eq_decide, Bool.or_eq_false_iff, Bool.and_eq_false_iff,
    decide_eq_false_iff_not]
  omega

theorem isValidHost_trim {n : Str} (h : isValidHost n = true) : trim n = n := by
  refine trim_eq_self fun c hc => ?_
  rcases isValidHost_chars h c hc with h' | h' | h'
  · exact isWhitespace_alphanum h'
  · subst h'; decide
  · subst h'; decide

theorem normalizeHost_eq (h : Str) :
    normalizeHost h = (withoutPort (trim h)).bind fun host =>
      if isValidHost (toAsciiLower (trim host)) then some (toAsciiLower (trim host)) else none := by
  unfold normalizeHost
  by_cases he : trim h = []
  · dsimp only
    rw [if_pos he, he]
    rfl
  · simp only [he, if_false]
    cases withoutPort (trim h) <;> rfl

theorem normalizeHost_some {h n : Str} (hn : normalizeHost h = some n) :
    isValidHost n = true ∧ toAsciiLower n = n := by
  rw [normalizeHost_eq] at hn
  obtain ⟨host, -, hh⟩ := Option.bind_eq_some_iff.mp hn
  split at hh
  · rename_i hv
    cases hh
    exact ⟨hv, toAsciiLower_idem _⟩
  · cases hh

theorem withoutPort_of_no_colon {v : Str} (hv : ':' ∉ v) : withoutPort v = some v := by
  rw [withoutPort, rsplitOnce_eq_none.mpr hv]

/-- A valid host in lower case is its own normal form. -/
theorem normalizeHost_of_valid {n : Str} (hv : isValidHost n = true) (hl : toAsciiLower n = n) :
    normalizeHost n = some n := by
  have hcolon : ':' ∉ n := not_mem_of_isValidHost hv (by decide) (by decide) (by decide)
  rw [normalizeHost_eq, isValidHost_trim hv, withoutPort_of_no_colon hcolon]
  simp [isValidHost_trim hv, hl, hv]

/-! ### What of a header does not matter -/

theorem normalizeHost_trim (h : Str) : normalizeHost (trim h) = normalizeHost h := by
  rw [normalizeHost_eq, normalizeHost_eq, trim_trim]

theorem withoutPort_toAsciiLower (v : Str) :
    withoutPort (toAsciiLower v) = (withoutPort v).map toAsciiLower := by
  unfold withoutPort
  rw [rsplitOnce_toAsciiLower (by decide)]
  cases rsplitOnce ':' v with
  | none => rfl
  | some r =>
    have hnil : toAsciiLower r.2 = [] ↔ r.2 = [] := List.map_eq_nil_iff
    simp only [Option.map_some, hnil, all_isDigit_toAsciiLower]
    split <;> rfl

theorem normalizeHost_toAsciiLower (h : Str) : normalizeHost (toAsciiLower h) = normalizeHost h := by
  rw [normalizeHost_eq, normalizeHost_eq, trim_toAsciiLower, withoutPort_toAsciiLower]
  cases withoutPort (trim h) with
  | none => rfl
  | some host =>
    simp only [Option.map_some, Option.bind_some, trim_toAsciiLower, toAsciiLower_idem]

/-- `h` followed by a colon and a number. -/
def withPort (h port : Str) : Str := h ++ ':' :: port

theorem trim_withPort {h port : Str} (hd : port.all Char.isDigit = true) :
    trim (withPort h port) = h.dropWhile isWhitespace ++ ':' :: port := by
  have hport : ∀ c ∈ ':' :: port, isWhitespace c = false := by
    intro c hc
    rcases List.mem_cons.mp hc with rfl | hc
    · decide
    · refine isWhitespace_alphanum ?_
      simp [Char.isAlphanum, List.all_eq_true.mp hd c hc]
  have hdrop : (withPort h port).dropWhile isWhitespace =
      h.dropWhile isWhitespace ++ ':' :: port := by
    rw [withPort, List.dropWhile_append]
    split
    · rename_i he
      have hcolon : isWhitespace ':' = false := by decide
      simp [List.isEmpty_iff.mp he, hcolon]
    · rfl
  rw [trim, hdrop, List.rdropWhile_eq_self_iff]
  intro hne'
  rw [List.getLast_append_of_ne_nil _ (List.cons_ne_nil _ _)]
  simp [hport _ (List.getLast_mem _)]

theorem trim_dropWhile (h : Str) : trim (h.dropWhile isWhitespace) = trim h := by
  rw [trim, trim, List.dropWhile_idempotent]

theorem withoutPort_withPort {h port : Str} (hne : port ≠ []) (hd : port.all Char.isDigit = true) :
    withoutPort (withPort h port) = some h := by
  have hcolon : ':' ∉ port := by
    intro hc
    have := List.all_eq_true.mp hd ':' hc
    cases this
  rw [withoutPort, withPort, rsplitOnce_append _ hcolon]
  simp [hne, hd]

/-- A number after a colon is dropped, and what is in front of it is read on its own. -/
theorem normalizeHost_withPort {h port : Str} (hne : port ≠ []) (hd : port.all Char.isDigit = true) :
    normalizeHost (withPort h port) =
      if isValidHost (toAsciiLower (trim h)) then some (toAsciiLower (trim h)) else none := by
  rw [normalizeHost_eq, trim_withPort hd, ← withPort, withoutPort_withPort hne hd,
    Option.bind_some, trim_dropWhile]

theorem normalizeHost_port {h port : Str} (hne : port ≠ []) (hd : port.all Char.isDigit = true)
    (hcolon : ':' ∉ h) : normalizeHost (withPort h port) = normalizeHost h := by
  have hcolon' : ':' ∉ trim h := fun hc => hcolon (mem_of_mem_trim hc)
  rw [normalizeHost_withPort hne hd, normalizeHost_eq, withoutPort_of_no_colon hcolon',
    Option.bind_some, trim_trim]

end RenderMesh.Domains
