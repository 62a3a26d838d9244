import Sapling.Text.Bytes
import Sapling.Text.Lookahead

/-!
# Reading a text with one character of lookahead

A cursor stands at a byte offset of a text and holds what is still unread.  All its operations look
at no more than the next character.

## Main definitions

* `Cursor` — the offset reached and the unread text.
* `Cursor.peek`, `Cursor.next` — the next character, with and without reading it.
* `Cursor.advance` — moving over a text that stands next.

## Main results

* `Cursor.accept_eq`, `Cursor.acceptWhileM_nil`, `Cursor.acceptWhileM_cons` — what is made of these
  reads, by the unread text.
-/

namespace Sapling

open Text

/-- A position in a text, together with what follows it. -/
structure Cursor where
  /-- The number of bytes read so far. -/
  offset : Nat
  /-- The unread text. -/
  rest : List Char
  deriving DecidableEq, Repr, Inhabited

namespace Cursor

/-- The cursor before the first character of a text. -/
def ofText (text : List Char) : Cursor := ⟨0, text⟩

/-- The next character, which stays unread. -/
def peek (c : Cursor) : Option Char := c.rest.head?

/-- Moves over a text that stands next. -/
def advance (c : Cursor) (read : List Char) : Cursor :=
  ⟨c.offset + byteLength read, c.rest.drop read.length⟩

/-- Reads one character; at the end there is none, and the cursor stays. -/
def next (c : Cursor) : Option Char × Cursor :=
  match c.rest with
  | [] => (none, c)
  | ch :: _ => (some ch, c.advance [ch])

instance : Lookahead Cursor where
  next := next
  peek := peek
  remaining c := c.rest.length
  remaining_next c h := by
    obtain ⟨offset, rest⟩ := c
    cases rest with
    | nil => cases h
    | cons ch rest => exact Nat.lt_succ_self _

/-- Whether nothing is left to read. -/
def atEnd (c : Cursor) : Bool := Lookahead.atEnd c

/-- Reads the next character if it is the wanted one, and says whether it was. -/
def accept (wanted : Char) (c : Cursor) : Bool × Cursor := Lookahead.accept wanted c

/-- Reads on as long as the next character passes a test that may have effects. -/
def acceptWhileM {m : Type → Type} [Monad m] (test : Char → m Bool) (c : Cursor) : m Cursor :=
  Lookahead.acceptWhileM test c

/-! ### What is read -/

/-- Moving over an initial part leaves what follows it. -/
@[simp] theorem advance_append (offset : Nat) (a b : List Char) :
    advance ⟨offset, a ++ b⟩ a = ⟨offset + byteLength a, b⟩ := by simp [advance]

/-- The wanted character is read if it stands next. -/
theorem accept_eq (wanted : Char) (c : Cursor) :
    c.accept wanted
      = if c.rest.head? = some wanted then (true, c.advance [wanted]) else (false, c) := by
  obtain ⟨offset, rest⟩ := c
  have hpeek : Lookahead.peek (⟨offset, rest⟩ : Cursor) = rest.head? := rfl
  rw [accept, Lookahead.accept, hpeek]
  split
  · next h =>
    obtain ⟨later, rfl⟩ := List.head?_eq_some_iff.1 h
    rfl
  · rfl

section ReadingOn

variable {m : Type → Type} [Monad m] (test : Char → m Bool) (offset : Nat)

theorem acceptWhileM_nil : acceptWhileM test ⟨offset, []⟩ = pure ⟨offset, []⟩ :=
  Lookahead.acceptWhileM_of_none test rfl

theorem acceptWhileM_cons (ch : Char) (rest : List Char) :
    acceptWhileM test ⟨offset, ch :: rest⟩ = test ch >>= fun passed =>
      if passed then acceptWhileM test ⟨offset + ch.utf8Size, rest⟩
      else pure ⟨offset, ch :: rest⟩ := by
  have hpeek : Lookahead.peek (⟨offset, ch :: rest⟩ : Cursor) = some ch := rfl
  exact Lookahead.acceptWhileM_of_some test hpeek

end ReadingOn

end Cursor

end Sapling
