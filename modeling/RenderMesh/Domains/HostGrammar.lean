import RenderMesh.Domains.Hosts

/-!
# The grammar of hosts

What `normalize_host` accepts, said without its steps: `host := label | label '.' host`, and a
header is a host with, or without, a port.

* `isValidHost_iff`: the checks on dots and labels accept the grammar.
* `withoutPort_some_iff`: the last colon is the only one that can start a port.
* `normalizeHost_grammar`: the texts that are accepted, their normal forms, and which texts are
  normal forms.
-/
namespace RenderMesh.Domains

open RenderMesh.Core

structure IsLabel (label : Str) : Prop where
  nonempty : label ≠ []
  chars : ∀ c ∈ label, c.isAlphanum = true ∨ c = '-'
  first : label.head? ≠ some '-'
  last : label.getLast? ≠ some '-'

inductive IsHost : Str → Prop where
  | label {l : Str} (hl : IsLabel l) : IsHost l
  | dot {l h : Str} (hl : IsLabel l) (hh : IsHost h) : IsHost (l ++ '.' :: h)

/-- The text is the host, or the host with a port; whitespace may stand before the colon. -/
inductive Names (host : Str) : Str → Prop where
  | bare : Names host host
  | port {blanks digits : Str} (hblanks : ∀ c ∈ blanks, isWhitespace c = true)
    (hne : digits ≠ []) (hdigits : ∀ c ∈ digits, c.isDigit = true) :
    Names host (host ++ blanks ++ ':' :: digits)

/-! ## Hosts -/

theorem isValidHostLabel_iff {l : Str} : isValidHostLabel l = true ↔ IsLabel l := by
  simp only [isValidHostLabel, Bool.and_eq_true, decide_eq_true_eq, List.all_eq_true,
    Bool.or_eq_true, beq_iff_eq]
  constructor
  · rintro ⟨⟨⟨hne, hfirst⟩, hlast⟩, hchars⟩
    exact ⟨hne, hchars, hfirst, hlast⟩
  · intro h
    exact ⟨⟨⟨h.nonempty, h.first⟩, h.last⟩, h.chars⟩

theorem IsLabel.no_dot {l : Str} (h : IsLabel l) : '.' ∉ l := by
  intro hdot
  rcases h.chars '.' hdot with hc | hc <;> cases hc

/-- Without an empty label there is no dot at either end. -/
theorem isValidHost_iff_labels {h : Str} :
    isValidHost h = true ↔ ∀ l ∈ h.splitOn '.', isValidHostLabel l = true := by
  refine ⟨isValidHost_labels, fun hlabels => ?_⟩
  have hempty : [] ∉ h.splitOn '.' := by
    intro hmem
    have := hlabels [] hmem
    cases this
  have hne : h ≠ [] := by
    rintro rfl
    exact hempty (by simp)
  have hfirst : h.head? ≠ some '.' := by
    intro hhead
    obtain ⟨t, rfl⟩ := List.head?_eq_some_iff.mp hhead
    apply hempty
    rw [show '.' :: t = [] ++ '.' :: t from rfl, List.splitOn_append_cons_self]
    simp
  have hlast : h.getLast? ≠ some '.' := by
    intro hend
    obtain ⟨t, rfl⟩ := List.getLast?_eq_some_iff.mp hend
    apply hempty
    rw [List.splitOn_append_cons_self]
    simp
  simp only [isValidHost, Bool.and_eq_true, decide_eq_true_eq, List.all_eq_true]
  exact ⟨⟨⟨hne, hfirst⟩, hlast⟩, hlabels⟩

theorem isHost_joinLabels {ls : List Str} (hne : ls ≠ []) (h : ∀ l ∈ ls, IsLabel l) :
    IsHost (joinLabels ls) := by
  induction ls with
  | nil => exact absurd rfl hne
  | cons l ls ih =>
    have hl := h l List.mem_cons_self
    cases ls with
    | nil => exact IsHost.label (by simpa [joinLabels] using hl)
    | cons l' ls =>
      have hrest := ih (List.cons_ne_nil _ _) fun x hx => h x (List.mem_cons_of_mem l hx)
      have hjoin : joinLabels (l :: l' :: ls) = l ++ '.' :: joinLabels (l' :: ls) := by
        simp [joinLabels, List.intercalate]
      rw [hjoin]
      exact IsHost.dot hl hrest

theorem isValidHost_iff {h : Str} : isValidHost h = true ↔ IsHost h := by
  rw [isValidHost_iff_labels]
  constructor
  · intro hlabels
    rw [← joinLabels_splitOn h]
    exact isHost_joinLabels (List.splitOn_ne_nil _ _) fun l hl =>
      isValidHostLabel_iff.mp (hlabels l hl)
  · intro hh
    induction hh with
    | label hl =>
      intro l hmem
      rw [List.splitOn_eq_singleton hl.no_dot, List.mem_singleton] at hmem
      rw [hmem]
      exact isValidHostLabel_iff.mpr hl
    | dot hl _ ih =>
      intro l hmem
      rw [List.splitOn_append_cons_self, List.mem_append, List.splitOn_eq_singleton hl.no_dot,
        List.mem_singleton] at hmem
      rcases hmem with rfl | hmem
      · exact isValidHostLabel_iff.mpr hl
      · exact ih l hmem

theorem isLabel_toAsciiLower {l : Str} : IsLabel (toAsciiLower l) ↔ IsLabel l := by
  have hhyphen : ∀ c : Char, c.toLower = '-' ↔ c = '-' := fun c => toLower_eq_iff (by decide)
  constructor
  · intro h
    refine ⟨fun he => h.nonempty (by rw [he]; rfl), fun c hc => ?_, fun he => ?_, fun he => ?_⟩
    · have := h.chars c.toLower (List.mem_map_of_mem hc)
      rwa [isAlphanum_toLower, hhyphen] at this
    · apply h.first
      rw [toAsciiLower, List.head?_map, he]
      rfl
    · apply h.last
      rw [toAsciiLower, List.getLast?_map, he]
      rfl
  · intro h
    refine ⟨fun he => h.nonempty (List.map_eq_nil_iff.mp he), fun c hc => ?_, fun he => ?_, fun he => ?_⟩
    · obtain ⟨d, hd, rfl⟩ := List.mem_map.mp hc
      rw [isAlphanum_toLower, hhyphen]
      exact h.chars d hd
    · rw [toAsciiLower, List.head?_map, Option.map_eq_some_iff] at he
      obtain ⟨d, hd, hlow⟩ := he
      exact h.first (by rw [hd, (hhyphen d).mp hlow])
    · rw [toAsciiLower, List.getLast?_map, Option.map_eq_some_iff] at he
      obtain ⟨d, hd, hlow⟩ := he
      exact h.last (by rw [hd, (hhyphen d).mp hlow])

theorem isValidHost_toAsciiLower (h : Str) : isValidHost (toAsciiLower h) = isValidHost h := by
  rw [Bool.eq_iff_iff, isValidHost_iff_labels, isValidHost_iff_labels, splitOn_toAsciiLower]
  simp only [List.forall_mem_map, isValidHostLabel_iff, isLabel_toAsciiLower]

/-! ## Ports -/

theorem withoutPort_some_iff {value host : Str} : withoutPort value = some host ↔
    (value = host ∧ ':' ∉ value) ∨ ∃ digits, digits ≠ [] ∧ (∀ c ∈ digits, c.isDigit = true) ∧
      value = withPort host digits := by
  constructor
  · intro h
    unfold withoutPort at h
    split at h
    · rename_i r hr
      split at h
      · cases h
      · rename_i hport
        cases h
        simp only [not_or, Bool.not_eq_true', Bool.not_eq_false, List.all_eq_true] at hport
        exact Or.inr ⟨r.2, hport.1, hport.2, (rsplitOnce_eq_some.mp hr).1⟩
    · rename_i hnone
      cases h
      exact Or.inl ⟨rfl, rsplitOnce_eq_none.mp hnone⟩
  · rintro (⟨rfl, hcolon⟩ | ⟨digits, hne, hdigits, rfl⟩)
    · exact withoutPort_of_no_colon hcolon
    · exact withoutPort_withPort hne (List.all_eq_true.mpr hdigits)

/-- In front of the port of a trimmed header there is no whitespace at the start. -/
theorem dropWhile_of_trim_eq {s before digits : Str} (h : trim s = withPort before digits) :
    before.dropWhile isWhitespace = before := by
  have hstart := dropWhile_trim s
  rw [h, withPort, List.dropWhile_append] at hstart
  split at hstart
  · -- only whitespace: then the header would begin with the colon
    have hcolon : (':' :: digits).dropWhile isWhitespace = ':' :: digits := by
      apply List.dropWhile_cons_of_neg
      decide
    rw [hcolon, List.self_eq_append_left] at hstart
    rw [hstart]
    rfl
  · exact List.append_cancel_right hstart

/-! ## Headers -/

theorem Names.normalizeHost {host value : Str} (hnames : Names host value) (hhost : IsHost host) :
    normalizeHost value = some (toAsciiLower host) := by
  have hvalid : isValidHost host = true := isValidHost_iff.mpr hhost
  have htrim : trim host = host := isValidHost_trim hvalid
  cases hnames with
  | bare =>
    have hcolon : ':' ∉ host := not_mem_of_isValidHost hvalid (by decide) (by decide) (by decide)
    rw [normalizeHost_eq, htrim, withoutPort_of_no_colon hcolon]
    simp [htrim, isValidHost_toAsciiLower, hvalid]
  | @port blanks digits hblanks hne hdigits =>
    have hpad : trim (host ++ blanks) = host := by
      simpa [htrim] using @trim_pad [] blanks (by simp) hblanks host
    rw [← withPort, normalizeHost_withPort hne (List.all_eq_true.mpr hdigits), hpad]
    simp [isValidHost_toAsciiLower, hvalid]

theorem names_of_normalizeHost {s n : Str} (h : normalizeHost s = some n) :
    ∃ host, IsHost host ∧ Names host (trim s) ∧ n = toAsciiLower host := by
  rw [normalizeHost_eq] at h
  obtain ⟨before, hbefore, hn⟩ := Option.bind_eq_some_iff.mp h
  split at hn
  · rename_i hvalid
    rw [isValidHost_toAsciiLower] at hvalid
    refine ⟨trim before, isValidHost_iff.mp hvalid, ?_, (Option.some.inj hn).symm⟩
    rcases withoutPort_some_iff.mp hbefore with ⟨hs, -⟩ | ⟨digits, hne, hdigits, hs⟩
    · rw [← hs, trim_trim]
      exact Names.bare
    · obtain ⟨blanks, hsplit, hblanks⟩ := trim_append_blanks (dropWhile_of_trim_eq hs)
      rw [hs, withPort]
      nth_rewrite 2 [hsplit]
      exact Names.port hblanks hne hdigits
  · cases hn

/-- The texts that are accepted, what is made of them, and which texts are made. -/
theorem normalizeHost_grammar (s n : Str) :
    (normalizeHost s = some n ↔
      ∃ host, IsHost host ∧ Names host (trim s) ∧ n = toAsciiLower host) ∧
    (normalizeHost s).bind normalizeHost = normalizeHost s ∧
    ((∃ header, normalizeHost header = some n) ↔ IsHost n ∧ ∀ c ∈ n, c.isUpper = false) := by
  refine ⟨⟨names_of_normalizeHost, ?_⟩, ?_, ?_, ?_⟩
  · rintro ⟨host, hhost, hnames, rfl⟩
    rw [← normalizeHost_trim]
    exact hnames.normalizeHost hhost
  · cases hs : normalizeHost s with
    | none => rfl
    | some m =>
      obtain ⟨hvalid, hlower⟩ := normalizeHost_some hs
      exact normalizeHost_of_valid hvalid hlower
  · rintro ⟨header, hheader⟩
    obtain ⟨hvalid, hlower⟩ := normalizeHost_some hheader
    exact ⟨isValidHost_iff.mp hvalid, toAsciiLower_eq_self_iff.mp hlower⟩
  · rintro ⟨hhost, hlower⟩
    exact ⟨n, normalizeHost_of_valid (isValidHost_iff.mpr hhost) (toAsciiLower_eq_self_iff.mpr hlower)⟩

end RenderMesh.Domains
