import Mathlib.Data.Set.Function

/-!
# Self-delimiting encodings

`Framed S f`: where a text begins with the code of a value of `S`, the value and the rest of the
text are determined. Codes with this property can be put one after the other. There are rules for
a fixed width, for a code that the value before it tells how to read (a length prefix is one),
and for a list of a known length.
-/
namespace RenderMesh.Core

variable {α β γ : Type}

/-- A code of a value of `S` says where it ends. -/
def Framed (S : Set α) (f : α → List β) : Prop :=
  ∀ a ∈ S, ∀ b ∈ S, ∀ r s, f a ++ r = f b ++ s → a = b ∧ r = s

theorem Framed.injOn {S : Set α} {f : α → List β} (h : Framed S f) : Set.InjOn f S := by
  intro a ha b hb hab
  exact (h a ha b hb [] [] (by rw [hab])).1

theorem Framed.mono {S T : Set α} {f : α → List β} (h : Framed S f) (hT : T ⊆ S) : Framed T f :=
  fun a ha b hb => h a (hT ha) b (hT hb)

/-- Codes of one length -/
theorem framed_of_length {S : Set α} {f : α → List β} {n : Nat} (hlength : ∀ a ∈ S, (f a).length = n)
    (hf : Set.InjOn f S) : Framed S f := by
  intro a ha b hb r s h
  obtain ⟨hcode, hrest⟩ := List.append_inj h ((hlength a ha).trans (hlength b hb).symm)
  exact ⟨hf ha hb hcode, hrest⟩

/-- The code of what an injective function makes of the value -/
theorem Framed.comp {S : Set α} {T : Set γ} {f : γ → List β} {e : α → γ} (h : Framed T f)
    (he : Set.InjOn e S) (hS : ∀ a ∈ S, e a ∈ T) : Framed S fun a => f (e a) := by
  intro a ha b hb r s hab
  obtain ⟨hcode, hrest⟩ := h (e a) (hS a ha) (e b) (hS b hb) r s hab
  exact ⟨he ha hb hcode, hrest⟩

/-- A code of a part of the value, and then one that is read knowing that part -/
theorem Framed.then {S : Set α} {T : Set γ} {part : α → γ} {f : γ → List β} {g : α → List β}
    (hf : Framed T f) (hS : ∀ a ∈ S, part a ∈ T)
    (hg : ∀ c ∈ T, Framed {a | a ∈ S ∧ part a = c} g) : Framed S fun a => f (part a) ++ g a := by
  intro a ha b hb r s hab
  rw [List.append_assoc, List.append_assoc] at hab
  obtain ⟨hpart, hrest⟩ := hf (part a) (hS a ha) (part b) (hS b hb) _ _ hab
  exact hg (part a) (hS a ha) a ⟨ha, rfl⟩ b ⟨hb, hpart.symm⟩ r s hrest

/-- Lists of one length -/
theorem framed_flatMap {S : Set α} {f : α → List β} (h : Framed S f) (n : Nat) :
    Framed {l : List α | l.length = n ∧ ∀ a ∈ l, a ∈ S} fun l => l.flatMap f := by
  induction n with
  | zero =>
    rintro l ⟨hl, -⟩ m ⟨hm, -⟩ r s hlm
    rw [List.length_eq_zero_iff] at hl hm
    subst hl hm
    exact ⟨rfl, hlm⟩
  | succ n ih =>
    rintro l ⟨hl, hlS⟩ m ⟨hm, hmS⟩ r s hlm
    obtain ⟨a, l, rfl⟩ := List.exists_cons_of_length_eq_add_one hl
    obtain ⟨b, m, rfl⟩ := List.exists_cons_of_length_eq_add_one hm
    simp only [List.flatMap_cons, List.append_assoc] at hlm
    obtain ⟨rfl, hrest⟩ := h a (hlS a List.mem_cons_self) b (hmS b List.mem_cons_self) _ _ hlm
    obtain ⟨rfl, hend⟩ := ih l ⟨Nat.succ.inj hl, fun c hc => hlS c (List.mem_cons_of_mem a hc)⟩
      m ⟨Nat.succ.inj hm, fun c hc => hmS c (List.mem_cons_of_mem a hc)⟩ r s hrest
    exact ⟨rfl, hend⟩

/-- The length and then the text -/
theorem framed_lengthPrefix {width : Nat → List β} {bound : Nat} (h : Framed {n | n < bound} width) :
    Framed {l : List β | l.length < bound} fun l => width l.length ++ l := by
  refine h.then (fun l hl => hl) fun n _ => ?_
  rintro l ⟨-, hl⟩ m ⟨-, hm⟩ r s hlm
  exact List.append_inj hlm (hl.trans hm.symm)

/-- The number of elements and then the elements -/
theorem framed_counted {width : Nat → List β} {bound : Nat} (h : Framed {n | n < bound} width)
    {S : Set α} {f : α → List β} (hf : Framed S f) :
    Framed {l : List α | l.length < bound ∧ ∀ a ∈ l, a ∈ S} fun l => width l.length ++ l.flatMap f := by
  refine h.then (fun l hl => hl.1) fun n _ => ?_
  exact (framed_flatMap hf n).mono fun l hl => ⟨hl.2, hl.1.2⟩

end RenderMesh.Core
