import Sapling.Numeral
import Sapling.Syntax.Program

/-!
# Values and evaluation

Literals evaluate to themselves.  Names, operators and calls have no value yet, nor have bindings
and returns; having no value is not an error.

## Main definitions

* `Value` — integers and booleans, with their printed forms.
* `Expr.value?`, `Statement.value?`, `Program.value?` — evaluation.
-/

namespace Sapling

/-- What an expression evaluates to. -/
inductive Value where
  /-- An integer. -/
  | integer (n : Int)
  /-- A boolean. -/
  | boolean (b : Bool)
  deriving DecidableEq, Repr, Inhabited

namespace Value

/-- The printed form of a value. -/
def display : Value → String
  | integer n => Numeral.signedDecimal n
  | boolean true => "true"
  | boolean false => "false"

/-- The name of the type of a value. -/
def typeName : Value → String
  | integer _ => "INTEGER"
  | boolean _ => "BOOLEAN"

end Value

/-- The value of an expression: only literals have one. -/
def Expr.value? : Expr → Option Value
  | int _ n => some (.integer n)
  | bool _ b => some (.boolean b)
  | _ => none

/-- The value of a statement: only expression statements can have one. -/
def Statement.value? : Statement → Option Value
  | expression _ e => e.value?
  | _ => none

/-- The value of a program is that of its last statement. -/
def Program.value? (p : Program) : Option Value := p.statements.getLast?.bind Statement.value?

end Sapling
