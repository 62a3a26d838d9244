import Sapling.Parser.Expression
import Sapling.Syntax.Program
import Sapling.Token.Lexer

/-!
# Reading programs

A program is read statement by statement, up to the first end of input that stands where a statement
could start.  Mistakes never stop the reading: they are collected.

## Main definitions

* `advanceToSemicolon` — passes over what `let` and `return` do not read yet.
* `statement`, `statements` — the readings of one statement and of all.
* `Parser`, `Parser.readProgram` — a parser in the midst of its stream, with the errors so far.
* `parse`, `parseText` — the program in a stream of tokens, and in a text.

## Main results

* `binding_eq`, `bareExpression_eq`, `statements_eq` — equations of the readings.
* `reaches_statement` — reading a statement only moves forward.
-/

namespace Sapling

namespace Parser

variable {σ : Type} [TokenStream σ]

/-! ### Statements -/

/-- Moves to the next semicolon, or to the end of the input if there is none before it.  The current
token may already be one of them. -/
def advanceToSemicolon (w : Window σ) : { v : Window σ // w.Reaches v } :=
  if w.current.kind = .semicolon then ⟨w, .refl w⟩
  else if _h : w.current.kind = .eof then ⟨w, .refl w⟩
  else
    let stop := advanceToSemicolon w.advance
    ⟨stop.1, .step stop.2⟩
termination_by w.weight
decreasing_by exact Window.weight_advance_lt _h

/-- Reads a binding: `let`, a name, `=`, and all up to a semicolon.  Where the name or the `=` is
missing there is no statement. -/
def binding (w : Window σ) : ReadingFrom w (Option Statement) :=
  if w.peek.kind = .ident then
    let named := w.advance
    if named.peek.kind = .assign then
      let stop := advanceToSemicolon named.advance
      ⟨.here stop.1
        (some (.binding w.current ⟨named.current, named.current.literal⟩ .hole)),
        .step (.step stop.2)⟩
    else
      ⟨.mistake named none ⟨.unexpected .assign named.peek.kind, named.peek.span, none⟩,
        w.reaches_advance⟩
  else ⟨.mistake w none ⟨.unexpected .ident w.peek.kind, w.peek.span, none⟩, .refl w⟩

/-- Reads a return: `return`, and all up to a semicolon. -/
def returning (w : Window σ) : ReadingFrom w (Option Statement) :=
  let stop := advanceToSemicolon w.advance
  ⟨.here stop.1 (some (.returning w.current .hole)), .step stop.2⟩

/-- Reads an expression as a statement, with the semicolon after it if there is one. -/
def bareExpression (w : Window σ) : ReadingFrom w (Option Statement) :=
  let e := expression .lowest w
  have he : w.Reaches e.window := reaches_expression _ w
  let value := some (.expression w.current e.value)
  if e.window.peek.kind = .semicolon then ⟨⟨value, e.errors, e.window.advance⟩, he.advance⟩
  else ⟨⟨value, e.errors, e.window⟩, he⟩

/-- `statement`, together with the fact that it only moves forward. -/
def statementFrom (w : Window σ) : ReadingFrom w (Option Statement) :=
  match w.current.kind with
  | .letWord => binding w
  | .returnWord => returning w
  | _ => bareExpression w

/-- Reads a statement.  The current token is its first; in the window reached, it is its last. -/
def statement (w : Window σ) : Reading σ (Option Statement) := (statementFrom w).1

/-- Reading a statement only moves forward. -/
theorem reaches_statement (w : Window σ) : w.Reaches (statement w).window := (statementFrom w).2

/-! ### The equations of these readings -/

theorem advanceToSemicolon_eq (w : Window σ) :
    (advanceToSemicolon w).1 =
      if w.current.kind = .semicolon then w
      else if w.current.kind = .eof then w
      else (advanceToSemicolon w.advance).1 := by
  rw [advanceToSemicolon]
  split
  · rfl
  · split <;> rfl

theorem binding_eq (w : Window σ) :
    (binding w).1 =
      if w.peek.kind = .ident then
        if w.advance.peek.kind = .assign then
          .here (advanceToSemicolon w.advance.advance).1
            (some (.binding w.current ⟨w.peek, w.peek.literal⟩ .hole))
        else
          .mistake w.advance none
            ⟨.unexpected .assign w.advance.peek.kind, w.advance.peek.span, none⟩
      else .mistake w none ⟨.unexpected .ident w.peek.kind, w.peek.span, none⟩ := by
  unfold binding
  split
  · simp only
    split <;> rfl
  · rfl

theorem bareExpression_eq (w : Window σ) :
    (bareExpression w).1 =
      if (expression .lowest w).window.peek.kind = .semicolon then
        ⟨some (.expression w.current (expression .lowest w).value),
          (expression .lowest w).errors, (expression .lowest w).window.advance⟩
      else
        ⟨some (.expression w.current (expression .lowest w).value),
          (expression .lowest w).errors, (expression .lowest w).window⟩ := by
  unfold bareExpression
  simp only
  split <;> rfl

theorem statement_eq_binding {w : Window σ} (h : w.current.kind = .letWord) :
    statement w = (binding w).1 := by
  simp only [statement, statementFrom, h]

theorem statement_eq_returning {w : Window σ} (h : w.current.kind = .returnWord) :
    statement w = (returning w).1 := by
  simp only [statement, statementFrom, h]

theorem statement_eq_bareExpression {w : Window σ} (h : w.current.kind ≠ .letWord)
    (h' : w.current.kind ≠ .returnWord) : statement w = (bareExpression w).1 := by
  unfold statement statementFrom
  split
  · next hk => exact absurd hk h
  · next hk => exact absurd hk h'
  · rfl

/-! ### Programs -/

/-- A statement and the step to the next one use up the token that the statement starts with. -/
theorem weight_advance_statement_lt {w : Window σ} (h : w.current.kind ≠ .eof) :
    (statement w).window.advance.weight < w.weight := by
  have hreach := reaches_statement w
  generalize (statement w).window = v at *
  cases hreach with
  | refl => exact Window.weight_advance_lt h
  | step hw =>
    exact Nat.lt_of_le_of_lt (Nat.le_trans (Window.weight_advance_le _) hw.weight_le)
      (Window.weight_advance_lt h)

/-- Reads statements until the current token is an end of input. -/
def statements (w : Window σ) : Reading σ (List Statement) :=
  if _h : w.current.kind = .eof then .here w []
  else
    let first := statement w
    let more := statements first.window.advance
    ⟨first.value.toList ++ more.value, first.errors ++ more.errors, more.window⟩
termination_by w.weight
decreasing_by exact weight_advance_statement_lt _h

theorem statements_eq (w : Window σ) :
    statements w =
      if w.current.kind = .eof then .here w []
      else
        let first := statement w
        let more := statements first.window.advance
        ⟨first.value.toList ++ more.value, first.errors ++ more.errors, more.window⟩ := by
  rw [statements]
  split <;> rfl

end Parser

/-- A parser in the midst of its stream. -/
structure Parser (σ : Type) where
  /-- Where it stands. -/
  window : Window σ
  /-- The mistakes found so far, in order. -/
  errors : List SyntaxError

namespace Parser

variable {σ : Type} [TokenStream σ]

/-- A parser at the start of a stream.  It takes the first two tokens at once. -/
def ofStream (s : σ) : Parser σ := ⟨.ofStream s, []⟩

/-- Reads a program, and keeps its errors with those that were found before. -/
def readProgram (p : Parser σ) : Program × Parser σ :=
  let r := statements p.window
  (⟨r.value⟩, ⟨r.window, p.errors ++ r.errors⟩)

end Parser

/-- The program in a stream of tokens, and all its errors. -/
def parse {σ : Type} [TokenStream σ] (s : σ) : Program × List SyntaxError :=
  let r := (Parser.ofStream s).readProgram
  (r.1, r.2.errors)

/-- The program in a text, read while the text is cut into tokens. -/
def parseText (text : List Char) : Program × List SyntaxError := parse (Lexer.ofText text)

end Sapling
