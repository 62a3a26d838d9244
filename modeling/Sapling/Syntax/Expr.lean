import Sapling.Syntax.Operator

/-!
# Expressions

Every node keeps the token that introduced it.  An operand that could not be read is a hole, so that
the tree around it can be kept.

## Main definitions

* `Expr` — expression trees.
* `Expr.token?` — the token that introduced an expression.
* `Expr.display` — the printed form, with parentheses around every operator and its operands.
* `Expr.holes` — the number of holes.

## Main results

* `Expr.induction` — structural induction, with one hypothesis for each argument of a call.
-/

namespace Sapling

/-- A name, where it is used or bound. -/
structure Ident where
  /-- The token that the name was read from. -/
  token : Token
  /-- The name. -/
  value : String
  deriving DecidableEq, Repr, Inhabited

/-- Expression trees. -/
inductive Expr where
  /-- The place of an expression that could not be read. -/
  | hole
  /-- A name. -/
  | ident (name : Ident)
  /-- An integer literal. -/
  | int (token : Token) (value : Int)
  /-- A boolean literal. -/
  | bool (token : Token) (value : Bool)
  /-- An operator before its operand. -/
  | unary (token : Token) (op : UnaryOp) (operand : Expr)
  /-- An operator between its operands. -/
  | binary (token : Token) (left : Expr) (op : BinaryOp) (right : Expr)
  /-- A call; its token is the parenthesis that opens the arguments. -/
  | call (token : Token) (function : Expr) (arguments : List Expr)
  deriving Repr, Inhabited

namespace Expr

/-- Structural induction.  For a call, the claim may be used for each of the arguments. -/
@[elab_as_elim, induction_eliminator]
theorem induction {motive : Expr → Prop} (hole : motive hole)
    (ident : ∀ name, motive (ident name))
    (int : ∀ token value, motive (int token value))
    (bool : ∀ token value, motive (bool token value))
    (unary : ∀ token op operand, motive operand → motive (unary token op operand))
    (binary : ∀ token left op right, motive left → motive right →
      motive (binary token left op right))
    (call : ∀ token function arguments, motive function → (∀ a ∈ arguments, motive a) →
      motive (call token function arguments))
    (e : Expr) : motive e :=
  Expr.rec (motive_1 := motive) (motive_2 := fun es => ∀ e ∈ es, motive e)
    hole ident int bool unary binary call
    (by simp) (fun e es he hes => by simpa using ⟨he, hes⟩) e

/-! ### Equality -/

mutual

/-- Whether two expressions are the same tree, tokens and their spans included. -/
def same : Expr → Expr → Bool
  | hole, hole => true
  | ident a, ident b => a = b
  | int s m, int t n => s = t && m = n
  | bool s a, bool t b => s = t && a = b
  | unary s p a, unary t q b => s = t && p = q && same a b
  | binary s a p b, binary t c q d => s = t && p = q && same a c && same b d
  | call s f as, call t g bs => s = t && same f g && sameAll as bs
  | _, _ => false

/-- Whether two lists hold the same expressions. -/
def sameAll : List Expr → List Expr → Bool
  | [], [] => true
  | a :: as, b :: bs => same a b && sameAll as bs
  | _, _ => false

end

theorem sameAll_iff {as bs : List Expr} (h : ∀ a ∈ as, ∀ b, same a b ↔ a = b) :
    sameAll as bs ↔ as = bs := by
  induction as generalizing bs with
  | nil => cases bs <;> simp [sameAll]
  | cons a as ih =>
    cases bs with
    | nil => simp [sameAll]
    | cons b bs =>
      rw [sameAll, Bool.and_eq_true, h a (by simp), ih fun a ha => h a (by simp [ha])]
      simp

theorem same_iff (a b : Expr) : same a b ↔ a = b := by
  induction a generalizing b with
  | call s f as ihf ihas =>
    cases b <;> simp [same, ihf, sameAll_iff ihas, and_assoc]
  | unary s p a ih => cases b <;> simp [same, ih, and_assoc]
  | binary s a p c iha ihc =>
    cases b <;> simp [same, iha, ihc, and_assoc, and_left_comm, and_comm]
  | _ => cases b <;> simp [same]

instance : DecidableEq Expr := fun a b => decidable_of_iff (same a b = true) (same_iff a b)

/-! ### Printing -/

/-- The token that introduced an expression; a hole has none. -/
def token? : Expr → Option Token
  | hole => none
  | ident name => some name.token
  | int token _ => some token
  | bool token _ => some token
  | unary token _ _ => some token
  | binary token _ _ _ => some token
  | call token _ _ => some token

mutual

/-- The printed form.  Every application of an operator stands in parentheses, which shows the shape
of the tree; a hole prints as nothing. -/
def display : Expr → String
  | hole => ""
  | ident name => name.value
  | int token _ => token.literal
  | bool token _ => token.literal
  | unary _ op operand => "(" ++ op.symbol ++ operand.display ++ ")"
  | binary _ left op right =>
      "(" ++ left.display ++ " " ++ op.symbol ++ " " ++ right.display ++ ")"
  | call _ function arguments =>
      function.display ++ "(" ++ ", ".intercalate (displays arguments) ++ ")"

/-- The printed forms of expressions, one by one. -/
def displays : List Expr → List String
  | [] => []
  | e :: es => e.display :: displays es

end

theorem displays_eq_map (es : List Expr) : displays es = es.map display := by
  induction es with
  | nil => rfl
  | cons e es ih => rw [displays, ih, List.map_cons]

mutual

/-- The number of holes in an expression. -/
def holes : Expr → Nat
  | hole => 1
  | ident _ => 0
  | int _ _ => 0
  | bool _ _ => 0
  | unary _ _ operand => operand.holes
  | binary _ left _ right => left.holes + right.holes
  | call _ function arguments => function.holes + holesAll arguments

/-- The number of holes in several expressions together. -/
def holesAll : List Expr → Nat
  | [] => 0
  | e :: es => e.holes + holesAll es

end

end Expr

end Sapling
