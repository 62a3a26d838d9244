import Sapling.Syntax.Operator
import Sapling.Text.Quoted

/-!
# Syntax errors

A syntax error has a cause and the span of the token at which it was found.  A missing closing
parenthesis also points at the opening one.

## Main definitions

* `SyntaxError.Cause`, `SyntaxError.Cause.message` — what went wrong, and its wording.
* `SyntaxError` — a cause in its place.
-/

namespace Sapling

/-- What went wrong. -/
inductive SyntaxError.Cause where
  /-- One kind of token is required, another is there. -/
  | unexpected (expected found : TokenKind)
  /-- An expression is required, and no expression starts with a token of this kind. -/
  | noOperand (found : TokenKind)
  /-- An integer literal is malformed or too large. -/
  | invalidInteger (literal : String)
  deriving DecidableEq, Repr, Inhabited

/-- The message for a cause. -/
def SyntaxError.Cause.message : SyntaxError.Cause → String
  | unexpected expected found =>
      "expected next token to be " ++ expected.name ++ ", got " ++ found.name ++ " instead"
  | noOperand found => "no prefix parse function for " ++ found.name ++ " found"
  | invalidInteger literal => "could not parse " ++ Text.quote literal ++ " as integer"

/-- A mistake in a program. -/
structure SyntaxError where
  /-- What went wrong. -/
  cause : SyntaxError.Cause
  /-- The span of the token at which it was found. -/
  span : Span
  /-- The span of the parenthesis that is not closed. -/
  unclosed : Option Span
  deriving DecidableEq, Repr, Inhabited

/-- The message for an error. -/
def SyntaxError.message (e : SyntaxError) : String := e.cause.message

end Sapling
