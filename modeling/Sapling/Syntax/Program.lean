import Sapling.Syntax.Expr

/-!
# Statements and programs

A program is a list of statements.  What is bound by `let` and what is returned by `return` are not
read yet: in trees that come from source text they are holes.

## Main definitions

* `Statement`, `Program` — the trees.
* `display` — the printed form of each.
* `literal` — the text of the token that a statement, or a program, starts with.
-/

namespace Sapling

/-- Statements. -/
inductive Statement where
  /-- A binding, `let name = value;`. -/
  | binding (token : Token) (name : Ident) (value : Expr)
  /-- A return, `return value;`. -/
  | returning (token : Token) (value : Expr)
  /-- An expression on its own, with the first token of the statement. -/
  | expression (token : Token) (value : Expr)
  deriving DecidableEq, Repr, Inhabited

namespace Statement

/-- The token that a statement starts with. -/
def token : Statement → Token
  | binding token _ _ => token
  | returning token _ => token
  | expression token _ => token

/-- The printed form of a statement. -/
def display : Statement → String
  | binding token name value => token.literal ++ " " ++ name.value ++ " = " ++ value.display ++ ";"
  | returning token value => token.literal ++ " " ++ value.display ++ ";"
  | expression _ value => value.display

/-- The text of the token that a statement starts with. -/
def literal (s : Statement) : String := s.token.literal

end Statement

/-- A program: statements in order. -/
structure Program where
  /-- The statements. -/
  statements : List Statement
  deriving DecidableEq, Repr, Inhabited

namespace Program

/-- The printed form: that of the statements, one after the other. -/
def display (p : Program) : String := String.join (p.statements.map Statement.display)

/-- The text of the first statement's first token; nothing for a program without statements. -/
def literal (p : Program) : String := p.statements.head?.elim "" Statement.literal

end Program

end Sapling
