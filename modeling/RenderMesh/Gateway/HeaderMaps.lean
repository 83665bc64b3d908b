import Mathlib.Data.List.Find
import RenderMesh.Core.Labels
import RenderMesh.Gateway.Service

/-!
# Looking up response headers

Headers are collected by writing the entries of one map into another, in the order of the
names. `getElem?_foldl_insert` says what such a loop leaves under a name: what the last entry
for it says, else what was there. From it come the lookups after `apply_headers` and
`filtered_headers`, both of which lower the names on the way.
-/
namespace RenderMesh.Gateway

open RenderMesh.Core

/-- The value of the last entry that a rewriting of the names takes to `n`. -/
def lastEntry (g : Str → Str) (l : List (Str × Str)) (n : Str) : Option Str :=
  (l.reverse.find? fun e => g e.1 = n).map (·.2)

theorem lastEntry_append (g : Str → Str) (l l' : List (Str × Str)) (n : Str) :
    lastEntry g (l ++ l') n = (lastEntry g l' n).or (lastEntry g l n) := by
  rw [lastEntry, List.reverse_append, List.find?_append, lastEntry, lastEntry]
  cases l'.reverse.find? fun e => decide (g e.1 = n) <;> rfl

theorem lastEntry_cons (g : Str → Str) (e : Str × Str) (l : List (Str × Str)) (n : Str) :
    lastEntry g (e :: l) n = (lastEntry g l n).or (if g e.1 = n then some e.2 else none) := by
  rw [← List.singleton_append, lastEntry_append]
  congr 1
  by_cases h : g e.1 = n <;> simp [lastEntry, h]

theorem lastEntry_eq_none {g : Str → Str} {l : List (Str × Str)} {n : Str} :
    lastEntry g l n = none ↔ ∀ e ∈ l, g e.1 ≠ n := by
  simp [lastEntry]

theorem getElem?_foldl_insert (g : Str → Str) (l : List (Str × Str)) (t : Headers) (n : Str) :
    (l.foldl (fun t e => t.insert (g e.1) e.2) t)[n]? = (lastEntry g l n).or t[n]? := by
  induction l generalizing t with
  | nil => rfl
  | cons e l ih =>
    rw [List.foldl_cons, ih, lastEntry_cons, Std.TreeMap.getElem?_insert]
    by_cases h : g e.1 = n
    · cases lastEntry g l n <;> simp [h]
    · have hcmp : compare (g e.1) n ≠ .eq := fun he => h (Std.LawfulEqOrd.eq_of_compare he)
      cases lastEntry g l n <;> simp [h, hcmp]

/-- In the list of a map's entries there is one for each name. -/
theorem lastEntry_toList (headers : Headers) (n : Str) :
    lastEntry id headers.toList n = headers[n]? := by
  cases h : headers[n]? with
  | none =>
    rw [lastEntry_eq_none]
    rintro ⟨k, v⟩ hmem rfl
    cases h.symm.trans (Std.TreeMap.mem_toList_iff_getElem?_eq_some.mp hmem)
  | some v =>
    have hmem : (n, v) ∈ headers.toList := Std.TreeMap.mem_toList_iff_getElem?_eq_some.mpr h
    cases hlast : lastEntry id headers.toList n with
    | none => exact absurd rfl (lastEntry_eq_none.mp hlast _ hmem)
    | some v' =>
      obtain ⟨⟨k, u⟩, hfind, rfl⟩ := Option.map_eq_some_iff.mp hlast
      have hk : k = n := by simpa using List.find?_some hfind
      have hmem' := List.mem_reverse.mp (List.mem_of_find?_eq_some hfind)
      subst hk
      rw [Std.TreeMap.mem_toList_iff_getElem?_eq_some.mp hmem'] at h
      exact h

/-! ## Lower-case maps -/

/-- All names are lower-case. -/
def Lower (headers : Headers) : Prop := ∀ n ∈ headers, toAsciiLower n = n

theorem lastEntry_lower {headers : Headers} (h : Lower headers) (n : Str) :
    lastEntry toAsciiLower headers.toList n = headers[n]? := by
  rw [← lastEntry_toList]
  have hsame : ∀ e ∈ headers.toList, toAsciiLower e.1 = e.1 := fun e he =>
    h e.1 (Std.TreeMap.mem_iff_isSome_getElem?.mpr
      (by rw [Std.TreeMap.mem_toList_iff_getElem?_eq_some.mp he]; rfl))
  unfold lastEntry
  congr 1
  refine List.find?_congr fun e he => ?_
  rw [hsame e (List.mem_reverse.mp he)]
  rfl

theorem applyHeaders_eq (target headers : Headers) : applyHeaders target headers =
    headers.toList.foldl (fun t e => t.insert (toAsciiLower e.1) e.2) target :=
  Std.TreeMap.foldl_eq_foldl_toList

theorem getElem?_applyHeaders (target headers : Headers) (n : Str) :
    (applyHeaders target headers)[n]? =
      (lastEntry toAsciiLower headers.toList n).or target[n]? := by
  rw [applyHeaders_eq, getElem?_foldl_insert]

theorem getElem?_applyHeaders_lower {headers : Headers} (h : Lower headers) (target : Headers)
    (n : Str) : (applyHeaders target headers)[n]? = headers[n]?.or target[n]? := by
  rw [getElem?_applyHeaders, lastEntry_lower h]

theorem getElem?_insertHeader (headers : Headers) (name value n : Str) :
    (insertHeader headers name value)[n]? =
      if toAsciiLower name = n then some value else headers[n]? := by
  rw [insertHeader, Std.TreeMap.getElem?_insert]
  by_cases h : toAsciiLower name = n
  · simp [h]
  · have hcmp : compare (toAsciiLower name) n ≠ .eq := fun he => h (Std.LawfulEqOrd.eq_of_compare he)
    simp [h, hcmp]

/-! ## Headers that are safe to send -/

/-- Lower-case names, none of which is reserved for the connection. -/
def Safe (headers : Headers) : Prop :=
  ∀ n ∈ headers, toAsciiLower n = n ∧ isUnsafeEdgeHeader n = false

theorem isUnsafeEdgeHeader_lower (n : Str) :
    isUnsafeEdgeHeader (toAsciiLower n) = isUnsafeEdgeHeader n := by
  unfold isUnsafeEdgeHeader
  rw [toAsciiLower_idem]

theorem Safe.lower {headers : Headers} (h : Safe headers) : Lower headers := fun n hn => (h n hn).1

theorem safe_empty : Safe ∅ := fun _ h => absurd h Std.TreeMap.not_mem_emptyc

theorem mem_headers_iff {headers : Headers} {n : Str} : n ∈ headers ↔ ∃ v, headers[n]? = some v := by
  rw [Std.TreeMap.mem_iff_isSome_getElem?, Option.isSome_iff_exists]

/-- What a loop over entries leaves comes from an entry, or was there. -/
theorem safe_foldl_insert {g : Str → Str} {l : List (Str × Str)} {t : Headers} (ht : Safe t)
    (hl : ∀ e ∈ l, toAsciiLower (g e.1) = g e.1 ∧ isUnsafeEdgeHeader (g e.1) = false) :
    Safe (l.foldl (fun t e => t.insert (g e.1) e.2) t) := by
  intro n hn
  obtain ⟨v, hv⟩ := mem_headers_iff.mp hn
  rw [getElem?_foldl_insert] at hv
  cases hlast : lastEntry g l n with
  | none =>
    rw [hlast] at hv
    exact ht n (mem_headers_iff.mpr ⟨v, hv⟩)
  | some u =>
    obtain ⟨e, hfind, -⟩ := Option.map_eq_some_iff.mp hlast
    have hname : g e.1 = n := by simpa using List.find?_some hfind
    rw [← hname]
    exact hl e (List.mem_reverse.mp (List.mem_of_find?_eq_some hfind))

theorem safe_insertHeader {headers : Headers} (h : Safe headers) {name : Str}
    (hname : isUnsafeEdgeHeader name = false) (value : Str) :
    Safe (insertHeader headers name value) :=
  @safe_foldl_insert toAsciiLower [(name, value)] headers h (by
    simpa [isUnsafeEdgeHeader_lower, toAsciiLower_idem] using hname)

theorem safe_insertHeader? {headers : Headers} (h : Safe headers) {name : String}
    (hname : isUnsafeEdgeHeader name.toList = false) (value : Option Str) :
    Safe (insertHeader? headers name value) := by
  cases value with
  | none => exact h
  | some value => exact safe_insertHeader h hname value

theorem safe_applyHeaders {target headers : Headers} (ht : Safe target) (hh : Safe headers) :
    Safe (applyHeaders target headers) := by
  rw [applyHeaders_eq]
  refine safe_foldl_insert ht fun e he => ?_
  have hmem : e.1 ∈ headers := mem_headers_iff.mpr
    ⟨e.2, Std.TreeMap.mem_toList_iff_getElem?_eq_some.mp he⟩
  exact ⟨toAsciiLower_idem _, (isUnsafeEdgeHeader_lower _).trans (hh e.1 hmem).2⟩

theorem safe_filteredHeaders (headers : Headers) : Safe (filteredHeaders headers) := by
  refine safe_foldl_insert safe_empty fun e he => ?_
  have hsafe := (List.mem_filter.mp he).2
  exact ⟨toAsciiLower_idem _, (isUnsafeEdgeHeader_lower _).trans (by simpa using hsafe)⟩

end RenderMesh.Gateway
