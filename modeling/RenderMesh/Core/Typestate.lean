import RenderMesh.Core.Results

/-!
# Programs that follow a protocol

A protocol watches a program from outside: its state says which operations may come
next, and moves with each answer. `Prog.Follows` says that all paths of a program
respect it, whatever the answers are, and in which states the program may end. Unlike
`run` it does not need the state the operations work on, so it also speaks of a
program whose steps are mixed with those of others.

* `follows_bind`, `follows_attempt`: one rule per construct.
* `follows_of_uses`: code that uses only operations which stay within a set of states.
-/
namespace RenderMesh.Core

structure Protocol (Op : Type) (Res : Op → Type) (Q : Type) where
  allows : Q → Op → Prop
  next : Q → (o : Op) → Res o → Q

variable {Op : Type} {Res : Op → Type} {Q ε α β : Type} {P : Protocol Op Res Q}

namespace Prog

/-- From the state `q` the program does what `P` allows, and ends as `post` says. -/
def Follows (P : Protocol Op Res Q) (post : Q → Except ε α → Prop) : Q → Prog Op Res ε α → Prop
  | q, ret a => post q (.ok a)
  | q, fail e => post q (.error e)
  | q, op o k => P.allows q o ∧ ∀ r, Follows P post (P.next q o r) (k r)

theorem Follows.mono {post post' : Q → Except ε α → Prop} (hpost : ∀ q out, post q out → post' q out)
    {q : Q} {m : Prog Op Res ε α} (hm : Follows P post q m) : Follows P post' q m := by
  induction m generalizing q with
  | ret a => exact hpost _ _ hm
  | fail e => exact hpost _ _ hm
  | op o k ih => exact ⟨hm.1, fun r => ih r (hm.2 r)⟩

/-- What a program gives can be counted on where it ends. -/
theorem Follows.and_gives {post : Q → Except ε α → Prop} {G : α → Prop} {q : Q}
    {m : Prog Op Res ε α} (hm : Follows P post q m) (hg : m.Gives G) :
    Follows P (fun q' out => post q' out ∧ ∀ a, out = .ok a → G a) q m := by
  induction m generalizing q with
  | ret a => exact ⟨hm, fun b hb => by cases hb; exact hg⟩
  | fail e => exact ⟨hm, fun b hb => by cases hb⟩
  | op o k ih => exact ⟨hm.1, fun r => ih r (hm.2 r) (hg r)⟩

theorem follows_bind {post : Q → Except ε β → Prop} {q : Q} {m : Prog Op Res ε α}
    {f : α → Prog Op Res ε β}
    (hm : Follows P (fun q' out => (∀ e, out = .error e → post q' (.error e)) ∧
      ∀ a, out = .ok a → Follows P post q' (f a)) q m) : Follows P post q (m >>= f) := by
  show Follows P post q (m.bind f)
  induction m generalizing q with
  | ret a => exact hm.2 a rfl
  | fail e => exact hm.1 e rfl
  | op o k ih => exact ⟨hm.1, fun r => ih r (hm.2 r)⟩

theorem follows_attempt {post : Q → Except ε (Except ε α) → Prop} {q : Q} {m : Prog Op Res ε α}
    (hm : Follows P (fun q' out => post q' (.ok out)) q m) : Follows P post q m.attempt := by
  induction m generalizing q with
  | ret a => exact hm
  | fail e => exact hm
  | op o k ih => exact ⟨hm.1, fun r => ih r (hm.2 r)⟩

theorem follows_perform_bind {post : Q → Except ε β → Prop} {q : Q} {o : Op}
    {f : Res o → Prog Op Res ε β} (ho : P.allows q o)
    (h : ∀ r, Follows P post (P.next q o r) (f r)) : Follows P post q (perform o >>= f) :=
  ⟨ho, h⟩

/-- Code whose operations keep the protocol in the states `J`. -/
theorem follows_of_uses {U : Op → Prop} {J : Q → Prop}
    (hU : ∀ o, U o → ∀ q, J q → P.allows q o ∧ ∀ r, J (P.next q o r)) {m : Prog Op Res ε α}
    (hm : m.Uses U) {q : Q} (hq : J q) : Follows P (fun q' _ => J q') q m := by
  induction m generalizing q with
  | ret a => exact hq
  | fail e => exact hq
  | op o k ih =>
    obtain ⟨ho, hnext⟩ := hU o hm.1 q hq
    exact ⟨ho, fun r => ih r (hm.2 r) (hnext r)⟩

end Prog

end RenderMesh.Core
