import RenderMesh.Core.Text
import Mathlib.Tactic.IntervalCases

/-!
# Percent-encoding of paths

A text as a URI path: `/` and the unreserved characters stand for themselves, every
other character is written as the `%XX` of its UTF-8 bytes.

* `encodePath_injective`: different texts have different encodings.
* `encodePath_eq_self_iff`: which texts are their own encoding.
-/
namespace RenderMesh.Core

/-- The unreserved characters of a URI. -/
def isUnreserved (c : Char) : Bool :=
  c.isAlphanum || c == '-' || c == '.' || c == '_' || c == '~'

/-- A character that a path spells as it is. -/
def isLiteral (c : Char) : Bool := isUnreserved c || c == '/'

def upperHex (n : Nat) : Char := "0123456789ABCDEF".toList.getD n '0'

def encodeByte (b : UInt8) : Str := ['%', upperHex (b.toNat / 16), upperHex (b.toNat % 16)]

def encodeChar (c : Char) : Str :=
  if isLiteral c then [c] else (String.utf8EncodeChar c).flatMap encodeByte

def encodePath (s : Str) : Str := s.flatMap encodeChar

/-- The value of an upper-case hexadecimal digit. -/
def hexValue (c : Char) : Nat := if c.toNat < 58 then c.toNat - 48 else c.toNat - 55

/-- The bytes that an encoded text spells. -/
def decodePath : Str → Bytes
  | [] => []
  | c :: s =>
    if c = '%' then
      match s with
      | h :: l :: s => UInt8.ofNat (hexValue h * 16 + hexValue l) :: decodePath s
      | _ => []
    else String.utf8EncodeChar c ++ decodePath s

theorem hexValue_upperHex {n : Nat} (h : n < 16) : hexValue (upperHex n) = n := by
  interval_cases n <;> decide

theorem decodePath_encodeByte (b : UInt8) (s : Str) :
    decodePath (encodeByte b ++ s) = b :: decodePath s := by
  have hb := b.toNat_lt
  rw [encodeByte, List.cons_append, List.cons_append, List.cons_append, List.nil_append, decodePath,
    if_pos rfl, hexValue_upperHex (by omega), hexValue_upperHex (by omega)]
  simp only [List.cons.injEq, and_true]
  rw [show b.toNat / 16 * 16 + b.toNat % 16 = b.toNat from by omega]
  simp

theorem decodePath_encodeBytes (bytes : Bytes) (s : Str) :
    decodePath (bytes.flatMap encodeByte ++ s) = bytes ++ decodePath s := by
  induction bytes with
  | nil => rfl
  | cons b bytes ih =>
    rw [List.flatMap_cons, List.append_assoc, decodePath_encodeByte, ih]
    rfl

theorem percent_not_literal : isLiteral '%' = false := by decide

theorem decodePath_encodeChar (c : Char) (s : Str) :
    decodePath (encodeChar c ++ s) = String.utf8EncodeChar c ++ decodePath s := by
  unfold encodeChar
  split
  · rename_i hc
    have hne : c ≠ '%' := by
      rintro rfl
      rw [percent_not_literal] at hc
      cases hc
    rcases s with _ | ⟨h, _ | ⟨l, s⟩⟩ <;> simp [decodePath, hne]
  · exact decodePath_encodeBytes _ _

/-- Decoding gives back the bytes of the text. -/
theorem decodePath_encodePath (s : Str) : decodePath (encodePath s) = utf8 s := by
  induction s with
  | nil => rfl
  | cons c s ih => rw [encodePath, List.flatMap_cons, decodePath_encodeChar, ← encodePath, ih]; rfl

theorem utf8_injective {s t : Str} (h : utf8 s = utf8 t) : s = t := by
  have he : s.utf8Encode = t.utf8Encode := congrArg List.toByteArray h
  have hs := List.utf8Decode?_utf8Encode (l := s)
  rw [he, List.utf8Decode?_utf8Encode] at hs
  simpa using (Option.some.inj hs).symm

theorem encodePath_injective {s t : Str} (h : encodePath s = encodePath t) : s = t := by
  apply utf8_injective
  rw [← decodePath_encodePath, h, decodePath_encodePath]

theorem encodePath_eq_self {s : Str} (h : s.all isLiteral = true) : encodePath s = s := by
  induction s with
  | nil => rfl
  | cons c s ih =>
    simp only [List.all_cons, Bool.and_eq_true] at h
    rw [encodePath, List.flatMap_cons, ← encodePath, ih h.2, encodeChar, if_pos h.1]
    rfl

theorem length_encodeBytes (bytes : Bytes) :
    (bytes.flatMap encodeByte).length = 3 * bytes.length := by
  induction bytes with
  | nil => rfl
  | cons b bytes ih =>
    rw [List.flatMap_cons, List.length_append, ih, List.length_cons]
    show 3 + 3 * bytes.length = _
    omega

theorem length_encodeChar {c : Char} (h : isLiteral c = false) : 3 ≤ (encodeChar c).length := by
  have hpos := c.utf8Size_pos
  rw [encodeChar, if_neg (by simp [h]), length_encodeBytes, String.length_utf8EncodeChar]
  omega

theorem length_encodePath (s : Str) : s.length ≤ (encodePath s).length := by
  induction s with
  | nil => simp
  | cons c s ih =>
    rw [encodePath, List.flatMap_cons, ← encodePath, List.length_append, List.length_cons]
    by_cases hc : isLiteral c = true
    · have h1 : (encodeChar c).length = 1 := by rw [encodeChar, if_pos hc]; rfl
      omega
    · have h3 := length_encodeChar (c := c) (by simpa using hc)
      omega

/-- The texts that are their own encoding. -/
theorem encodePath_eq_self_iff {s : Str} : encodePath s = s ↔ s.all isLiteral = true := by
  refine ⟨fun h => ?_, encodePath_eq_self⟩
  induction s with
  | nil => rfl
  | cons c s ih =>
    have hcons : encodePath (c :: s) = encodeChar c ++ encodePath s := List.flatMap_cons ..
    rw [hcons] at h
    by_cases hc : isLiteral c = true
    · rw [encodeChar, if_pos hc] at h
      simp only [List.cons_append, List.nil_append, List.cons.injEq, true_and] at h
      simp [hc, ih h]
    · have h3 := length_encodeChar (c := c) (by simpa using hc)
      have hlen := congrArg List.length h
      have hs := length_encodePath s
      rw [List.length_append, List.length_cons] at hlen
      omega

end RenderMesh.Core
