/-!
# Reading with one character of lookahead, from anything

What characters are read from needs to offer two things: the next character, and a look at it
before.  Everything else is made of these, in the same way for a cursor in a text and for a
reference to something that is read from.

## Main definitions

* `Lookahead` — anything that characters are read from, with a look at the next one.
* `Lookahead.atEnd`, `Lookahead.accept`, `Lookahead.acceptWhileM` — what is made of these.
* `Reference` — something that is read from through a reference.

## Main results

* `Lookahead.acceptWhileM_of_none`, `Lookahead.acceptWhileM_of_some` — reading on, step by step.
-/

namespace Sapling

/-- A state that characters are read from.  Only finitely many are to come: `remaining` bounds their
number. -/
class Lookahead (σ : Type) where
  /-- The next character, if there is one, and the state after it. -/
  next : σ → Option Char × σ
  /-- The next character, which stays unread. -/
  peek : σ → Option Char
  /-- A bound on the number of characters to come. -/
  remaining : σ → Nat
  /-- Each character uses up the bound. -/
  remaining_next : ∀ s : σ, (peek s).isSome → remaining (next s).2 < remaining s

namespace Lookahead

variable {σ : Type} [Lookahead σ]

/-- Whether nothing is left to read. -/
def atEnd (s : σ) : Bool := (peek s).isNone

/-- Reads the next character if it is the wanted one, and says whether it was. -/
def accept (wanted : Char) (s : σ) : Bool × σ :=
  if peek s = some wanted then (true, (next s).2) else (false, s)

/-- Reads on as long as the next character passes a test that may have effects.  The test runs once
for each character it is asked about, in order. -/
def acceptWhileM {m : Type → Type} [Monad m] (test : Char → m Bool) (s : σ) : m σ :=
  match _ : peek s with
  | none => pure s
  | some ch => do if ← test ch then acceptWhileM test (next s).2 else pure s
termination_by remaining s
decreasing_by exact remaining_next s (Option.isSome_iff_exists.2 ⟨ch, by assumption⟩)

section Equations

variable {m : Type → Type} [Monad m] (test : Char → m Bool) {s : σ}

theorem acceptWhileM_of_none (h : peek s = none) : acceptWhileM test s = pure s := by
  rw [acceptWhileM]
  split
  · rfl
  · next heq => cases h.symm.trans heq

theorem acceptWhileM_of_some {ch : Char} (h : peek s = some ch) :
    acceptWhileM test s
      = test ch >>= fun passed => if passed then acceptWhileM test (next s).2 else pure s := by
  rw [acceptWhileM]
  split
  · next heq => cases h.symm.trans heq
  · next heq =>
    obtain rfl := Option.some.inj (h.symm.trans heq)
    rfl

end Equations

end Lookahead

/-! ### References -/

/-- Something that is read from through a reference. -/
structure Reference (σ : Type) where
  /-- What is read from. -/
  target : σ
  deriving DecidableEq, Repr, Inhabited

/-- What is read through a reference is read from its target. -/
instance {σ : Type} [Lookahead σ] : Lookahead (Reference σ) where
  next r := ((Lookahead.next r.target).1, ⟨(Lookahead.next r.target).2⟩)
  peek r := Lookahead.peek r.target
  remaining r := Lookahead.remaining r.target
  remaining_next r := Lookahead.remaining_next r.target

end Sapling
