import Sapling.Token

/-!
# Operators

The operators of the language, the tokens they are written with, and how tightly they bind.

## Main definitions

* `UnaryOp`, `BinaryOp` — operators before one operand, and between two.
* `Precedence` — binding power, from `lowest` to `call`.
* `Suffix` — what may follow a finished operand: a binary operator or a call.
-/

namespace Sapling

/-- An operator that stands before its operand. -/
inductive UnaryOp where
  /-- Logical negation, `!`. -/
  | not
  /-- Arithmetic negation, `-`. -/
  | negate
  deriving DecidableEq, Repr, Inhabited

/-- An operator that stands between its operands. -/
inductive BinaryOp where
  /-- Addition, `+`. -/
  | add
  /-- Subtraction, `-`. -/
  | sub
  /-- Multiplication, `*`. -/
  | mul
  /-- Division, `/`. -/
  | div
  /-- Equality, `==`. -/
  | equal
  /-- Inequality, `!=`. -/
  | notEqual
  /-- Less than, `<`. -/
  | less
  /-- Greater than, `>`. -/
  | greater
  deriving DecidableEq, Repr, Inhabited

namespace UnaryOp

/-- The unary operator that a kind of token stands for, if any. -/
def ofKind? : TokenKind → Option UnaryOp
  | .bang => some not
  | .minus => some negate
  | _ => none

/-- The operator as it is written. -/
def symbol : UnaryOp → String
  | not => "!"
  | negate => "-"

end UnaryOp

namespace BinaryOp

/-- The binary operator that a kind of token stands for, if any. -/
def ofKind? : TokenKind → Option BinaryOp
  | .plus => some add
  | .minus => some sub
  | .asterisk => some mul
  | .slash => some div
  | .equal => some equal
  | .notEqual => some notEqual
  | .less => some less
  | .greater => some greater
  | _ => none

/-- The operator as it is written. -/
def symbol : BinaryOp → String
  | add => "+"
  | sub => "-"
  | mul => "*"
  | div => "/"
  | equal => "=="
  | notEqual => "!="
  | less => "<"
  | greater => ">"

end BinaryOp

/-! ### Binding power -/

/-- How tightly an operator binds its operands. -/
inductive Precedence where
  /-- Weaker than every operator. -/
  | lowest
  /-- Equality and inequality. -/
  | equality
  /-- Less than and greater than. -/
  | comparison
  /-- Addition and subtraction. -/
  | sum
  /-- Multiplication and division. -/
  | product
  /-- Operators before an operand. -/
  | unary
  /-- Calls. -/
  | call
  deriving DecidableEq, Repr, Inhabited

namespace Precedence

/-- The place of a binding power in their order. -/
def level : Precedence → Nat
  | lowest => 0
  | equality => 1
  | comparison => 2
  | sum => 3
  | product => 4
  | unary => 5
  | call => 6

instance : LT Precedence := ⟨fun p q => p.level < q.level⟩

instance (p q : Precedence) : Decidable (p < q) := inferInstanceAs (Decidable (p.level < q.level))

end Precedence

/-- The binding power of a binary operator. -/
def BinaryOp.precedence : BinaryOp → Precedence
  | equal | notEqual => .equality
  | less | greater => .comparison
  | add | sub => .sum
  | mul | div => .product

/-- What may follow a finished operand. -/
inductive Suffix where
  /-- A binary operator, with its right operand. -/
  | operator (op : BinaryOp)
  /-- A parenthesis that opens the arguments of a call. -/
  | call
  deriving DecidableEq, Repr, Inhabited

namespace Suffix

/-- What a kind of token after an operand stands for, if it continues the expression. -/
def ofKind? (kind : TokenKind) : Option Suffix :=
  if kind = .leftParen then some call else (BinaryOp.ofKind? kind).map operator

/-- How tightly a suffix holds the operand before it. -/
def precedence : Suffix → Precedence
  | operator op => op.precedence
  | call => .call

theorem kind_ne_eof {kind : TokenKind} {s : Suffix} (h : ofKind? kind = some s) : kind ≠ .eof := by
  rintro rfl
  simp [ofKind?, BinaryOp.ofKind?] at h

theorem ofKind_of_operator {kind : TokenKind} {op : BinaryOp}
    (h : ofKind? kind = some (operator op)) : BinaryOp.ofKind? kind = some op := by
  unfold ofKind? at h
  split at h
  · cases h
  · obtain ⟨op', hop, hsuf⟩ := Option.map_eq_some_iff.1 h
    cases hsuf
    exact hop

theorem leftParen_of_call {kind : TokenKind} (h : ofKind? kind = some call) :
    kind = .leftParen := by
  unfold ofKind? at h
  split at h
  · assumption
  · obtain ⟨op, -, hsuf⟩ := Option.map_eq_some_iff.1 h
    cases hsuf

end Suffix

end Sapling
