import Mathlib.Data.List.DropRight
import Mathlib.Data.List.Infix
import Mathlib.Data.List.TakeWhile

/-!
# Text and bytes

Rust's `str` as its list of characters, with the parts of the standard library
the mirror and the gateway use on it. A list, so that texts can be taken apart
in proofs and computed with by the kernel.

* `isWhitespace`, `isControl`: the Unicode `White_Space` property and general
  category `Cc`, as `char::is_whitespace` and `char::is_control` test them.
* `segments`: `str::split('/')`; `segments_join` says how it goes over a slash.
* `utf8`, `fromUtf8`: `str::as_bytes` and `String::from_utf8`.
-/
namespace RenderMesh.Core

abbrev Str := List Char

abbrev Bytes := List UInt8

/-- `char::is_whitespace`: Unicode `White_Space`. -/
def isWhitespace (c : Char) : Bool :=
  let n := c.toNat
  (9 ≤ n && n ≤ 13) || n == 0x20 || n == 0x85 || n == 0xA0 || n == 0x1680 ||
    (0x2000 ≤ n && n ≤ 0x200A) || n == 0x2028 || n == 0x2029 || n == 0x202F ||
    n == 0x205F || n == 0x3000

/-- `char::is_control`: general category `Cc`. -/
def isControl (c : Char) : Bool :=
  let n := c.toNat
  n ≤ 0x1F || (0x7F ≤ n && n ≤ 0x9F)

/-- `str::trim`. -/
def trim (s : Str) : Str := (s.dropWhile isWhitespace).rdropWhile isWhitespace

/-- `str::trim_start_matches('/')`. -/
def trimStartSlashes (s : Str) : Str := s.dropWhile (· == '/')

/-- `str::trim_end_matches('/')`. -/
def trimEndSlashes (s : Str) : Str := s.rdropWhile (· == '/')

/-- `str::strip_prefix`. -/
def stripPrefix? (pre s : Str) : Option Str :=
  if pre <+: s then some (s.drop pre.length) else none

/-- `str::strip_suffix`. -/
def stripSuffix? (suf s : Str) : Option Str :=
  if suf <:+ s then some (s.take (s.length - suf.length)) else none

def toAsciiLower (s : Str) : Str := s.map Char.toLower

/-- A number as `Display` writes it. -/
def showNat (n : Nat) : Str := Nat.toDigits 10 n

theorem showNat_injective : Function.Injective showNat := fun m n h => by
  have hvalue := congrArg (Nat.ofDigitChars 10 · 0) h
  simpa only [showNat, Nat.ofDigitChars_ten_toDigits] using hvalue

/-! ## Segments -/

/-- `str::split('/')`. -/
def segments (s : Str) : List Str := s.splitOn '/'

theorem segments_ne_nil (s : Str) : segments s ≠ [] := List.splitOn_ne_nil _ _

/-- Segments put back together. -/
def unsegments (l : List Str) : Str := ['/'].intercalate l

@[simp] theorem unsegments_nil : unsegments [] = [] := rfl

@[simp] theorem unsegments_singleton (x : Str) : unsegments [x] = x := by
  simp [unsegments, List.intercalate]

theorem unsegments_cons_cons (x y : Str) (l : List Str) :
    unsegments (x :: y :: l) = x ++ '/' :: unsegments (y :: l) := by
  simp [unsegments, List.intercalate, List.intersperse]

theorem mem_intercalate {sep c : Char} {l : List Str} (h : c ∈ [sep].intercalate l) :
    c = sep ∨ ∃ x ∈ l, c ∈ x := by
  induction l with
  | nil => simp [List.intercalate] at h
  | cons x l ih =>
    cases l with
    | nil => exact Or.inr ⟨x, by simp, by simpa [List.intercalate] using h⟩
    | cons y l =>
      simp only [List.intercalate, List.intersperse, List.flatten_cons, List.mem_append,
        List.mem_singleton] at h ih
      rcases h with h | h | h
      · exact Or.inr ⟨x, by simp, h⟩
      · exact Or.inl h
      · rcases ih h with h | ⟨z, hz, hc⟩
        · exact Or.inl h
        · exact Or.inr ⟨z, List.mem_cons_of_mem _ hz, hc⟩

theorem mem_unsegments {l : List Str} {c : Char} (h : c ∈ unsegments l) :
    c = '/' ∨ ∃ x ∈ l, c ∈ x :=
  mem_intercalate h

theorem mem_unsegments_of_mem {l : List Str} {x : Str} {c : Char} (hx : x ∈ l) (hc : c ∈ x) :
    c ∈ unsegments l := by
  induction l with
  | nil => cases hx
  | cons y l ih =>
    cases l with
    | nil => rw [List.mem_singleton] at hx; subst hx; simpa using hc
    | cons z l =>
      rw [unsegments_cons_cons]
      rcases List.mem_cons.mp hx with rfl | hx
      · simp [hc]
      · simp [ih hx]

theorem unsegments_segments (s : Str) : unsegments (segments s) = s :=
  List.intercalate_splitOn '/'

theorem segments_unsegments {l : List Str} (hl : ∀ x ∈ l, '/' ∉ x) (hne : l ≠ []) :
    segments (unsegments l) = l :=
  List.splitOn_intercalate '/' hl hne

theorem segments_join (p k : Str) : segments (p ++ '/' :: k) = segments p ++ segments k :=
  List.splitOn_append_cons_self p k

theorem segments_of_no_slash {s : Str} (hs : '/' ∉ s) : segments s = [s] :=
  List.splitOn_eq_singleton hs

theorem segments_cons (c : Char) (s : Str) :
    segments (c :: s) =
      if c = '/' then [] :: segments s else (segments s).modifyHead (c :: ·) := by
  simp [segments, List.splitOn_cons_eq_if_modifyHead]

theorem not_mem_of_mem_segments {s x : Str} (hx : x ∈ segments s) : '/' ∉ x := by
  induction s generalizing x with
  | nil => simp only [segments, List.splitOn_nil, List.mem_singleton] at hx; simp [hx]
  | cons c s ih =>
    rw [segments_cons] at hx
    split at hx
    · rcases List.mem_cons.mp hx with rfl | hx
      · simp
      · exact ih hx
    · rename_i hc
      obtain ⟨y, l, hl⟩ := List.exists_cons_of_ne_nil (segments_ne_nil s)
      rw [hl] at hx ih
      rcases List.mem_cons.mp hx with rfl | hx
      · simpa [Ne.symm hc] using ih (x := y) (by simp)
      · exact ih (by simp [hx])

/-- What stands in a segment stands in the text. -/
theorem mem_of_mem_segments {s x : Str} {c : Char} (hx : x ∈ segments s) (hc : c ∈ x) : c ∈ s := by
  rw [← unsegments_segments s]
  exact mem_unsegments_of_mem hx hc

/-! ## UTF-8 -/

/-- `str::as_bytes`. -/
def utf8 (s : Str) : Bytes := s.flatMap String.utf8EncodeChar

/-- The scalar value that a byte sequence of the given length spells, `none`
when a continuation byte, an overlong form, a surrogate or the range is wrong. -/
def scalar (lead : Nat) (low : Nat) : List UInt8 → Option Char
  | [] => if h : low ≤ lead ∧ lead.isValidChar then some (Char.ofNatAux lead h.2) else none
  | b :: bs =>
    if 0x80 ≤ b.toNat ∧ b.toNat ≤ 0xBF then scalar (lead * 64 + (b.toNat - 0x80)) low bs else none

/-- `String::from_utf8`. -/
def fromUtf8 : Bytes → Option Str
  | [] => some []
  | b :: r =>
    let n := b.toNat
    if n < 0x80 then (fromUtf8 r).map (Char.ofNat n :: ·)
    else if 0xC2 ≤ n ∧ n ≤ 0xDF then match r with
      | b1 :: r => (scalar (n - 0xC0) 0x80 [b1]).bind fun c => (fromUtf8 r).map (c :: ·)
      | _ => none
    else if 0xE0 ≤ n ∧ n ≤ 0xEF then match r with
      | b1 :: b2 :: r => (scalar (n - 0xE0) 0x800 [b1, b2]).bind fun c =>
          (fromUtf8 r).map (c :: ·)
      | _ => none
    else if 0xF0 ≤ n ∧ n ≤ 0xF4 then match r with
      | b1 :: b2 :: b3 :: r => (scalar (n - 0xF0) 0x10000 [b1, b2, b3]).bind fun c =>
          (fromUtf8 r).map (c :: ·)
      | _ => none
    else none

example : fromUtf8 (utf8 "aé€𐍈".toList) = some "aé€𐍈".toList := by decide

end RenderMesh.Core
