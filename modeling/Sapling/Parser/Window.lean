import Sapling.Syntax.Error
import Sapling.Token.Stream

/-!
# The window of a parser

A parser sees two tokens of its stream: the current one, which it is working on, and the one after
it.  It only ever moves forward.

## Main definitions

* `Window` — the two tokens, and the stream of those that follow.
* `Window.advance` — one step forward.
* `Window.Reaches` — some steps forward.
* `Window.weight` — a bound on the tokens still to be worked on, ends of input not counted.
* `Reading` — what reading from a window gives: a value, errors, and the window reached.

## Main results

* `Reaches.weight_le` — steps forward never raise the weight.
* `weight_advance_lt` — a step off a token that is not an end of input lowers it.
-/

namespace Sapling

/-- Two tokens of a stream, and what follows them. -/
structure Window (σ : Type) where
  /-- The token that is being worked on. -/
  current : Token
  /-- The token after it. -/
  peek : Token
  /-- The stream of the tokens after that. -/
  stream : σ

namespace Window

variable {σ : Type} [TokenStream σ]

/-- The window on the first two tokens of a stream. -/
def ofStream (s : σ) : Window σ :=
  let first := TokenStream.next s
  let second := TokenStream.next first.2
  ⟨first.1, second.1, second.2⟩

/-- Moves on by one token. -/
def advance (w : Window σ) : Window σ :=
  let next := TokenStream.next w.stream
  ⟨w.peek, next.1, next.2⟩

@[simp] theorem current_advance (w : Window σ) : w.advance.current = w.peek := rfl

/-- A bound on the number of tokens, ends of input not counted, that are in the window or still
come. -/
def weight (w : Window σ) : Nat :=
  w.current.weight + w.peek.weight + TokenStream.remaining w.stream

/-- Some number of steps forward lead from one window to another. -/
inductive Reaches : Window σ → Window σ → Prop where
  /-- No step at all. -/
  | refl (w : Window σ) : Reaches w w
  /-- One step, and then more. -/
  | step {w v : Window σ} : Reaches w.advance v → Reaches w v

theorem Reaches.trans {u v w : Window σ} (h : u.Reaches v) (k : v.Reaches w) : u.Reaches w := by
  induction h with
  | refl => exact k
  | step _ ih => exact .step (ih k)

/-- One step forward. -/
theorem reaches_advance (w : Window σ) : w.Reaches w.advance := .step (.refl _)

/-- One step after others. -/
theorem Reaches.advance {v w : Window σ} (h : w.Reaches v) : w.Reaches v.advance :=
  h.trans v.reaches_advance

/-! ### Weights -/

theorem weight_advance_add (w : Window σ) : w.advance.weight + w.current.weight ≤ w.weight := by
  have := TokenStream.remaining_next w.stream
  simp only [weight, advance]
  omega

theorem weight_advance_le (w : Window σ) : w.advance.weight ≤ w.weight :=
  Nat.le_trans (Nat.le_add_right _ _) w.weight_advance_add

theorem Reaches.weight_le {v w : Window σ} (h : w.Reaches v) : v.weight ≤ w.weight := by
  induction h with
  | refl => exact Nat.le_refl _
  | step _ ih => exact Nat.le_trans ih (weight_advance_le _)

/-- A step off a token that is not an end of input lowers the weight. -/
theorem weight_advance_lt {w : Window σ} (h : w.current.kind ≠ .eof) :
    w.advance.weight < w.weight := by
  have := w.weight_advance_add
  rw [Token.weight_eq_one h] at this
  omega

/-- Two steps over a token that is not an end of input lower the weight. -/
theorem weight_advance_advance_lt {w : Window σ} (h : w.peek.kind ≠ .eof) :
    w.advance.advance.weight < w.weight :=
  Nat.lt_of_lt_of_le (weight_advance_lt (w := w.advance) h) w.weight_advance_le

end Window

/-- What reading from a window gives. -/
structure Reading (σ : Type) (α : Type) where
  /-- What was read. -/
  value : α
  /-- The mistakes found, in order. -/
  errors : List SyntaxError
  /-- The window reached. -/
  window : Window σ

/-- A reading that starts from a given window: it moves forward from there. -/
abbrev ReadingFrom {σ : Type} [TokenStream σ] (w : Window σ) (α : Type) : Type :=
  { r : Reading σ α // w.Reaches r.window }

namespace Reading

variable {σ α : Type}

/-- The reading that finds a value without moving. -/
def here (w : Window σ) (value : α) : Reading σ α := ⟨value, [], w⟩

/-- The reading that finds a mistake without moving. -/
def mistake (w : Window σ) (value : α) (error : SyntaxError) : Reading σ α := ⟨value, [error], w⟩

/-- A reading, after some mistakes that were found before it. -/
def after (errors : List SyntaxError) (r : Reading σ α) : Reading σ α :=
  ⟨r.value, errors ++ r.errors, r.window⟩

/-- A reading of one thing, and then of several more. -/
def cons (first : Reading σ α) (more : Reading σ (List α)) : Reading σ (List α) :=
  ⟨first.value :: more.value, first.errors ++ more.errors, more.window⟩

@[simp] theorem value_after (errors : List SyntaxError) (r : Reading σ α) :
    (r.after errors).value = r.value := rfl

@[simp] theorem errors_after (errors : List SyntaxError) (r : Reading σ α) :
    (r.after errors).errors = errors ++ r.errors := rfl

variable [TokenStream σ]

/-- Ends a reading with a closing parenthesis, which must be the next token.  If it is not, that is
a mistake, which blames the opening parenthesis, and what was read is given up for `instead`. -/
def closing (opening : Span) (instead : α) (r : Reading σ α) : Reading σ α :=
  if r.window.peek.kind = .rightParen then ⟨r.value, r.errors, r.window.advance⟩
  else
    ⟨instead,
      r.errors ++
        [⟨.unexpected .rightParen r.window.peek.kind, r.window.peek.span, some opening⟩],
      r.window⟩

theorem reaches_closing {w : Window σ} {r : Reading σ α} (h : w.Reaches r.window) (opening : Span)
    (instead : α) : w.Reaches (r.closing opening instead).window := by
  unfold closing
  split
  · exact h.advance
  · exact h

end Reading

end Sapling
