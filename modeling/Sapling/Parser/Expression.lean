import Sapling.Numeral
import Sapling.Parser.Window
import Sapling.Syntax.Expr

/-!
# Reading expressions

An expression is an operand, followed by suffixes (operators with their right operands, and calls)
as long as these bind more tightly than the context.  An operand that cannot be read leaves a hole;
its suffixes are read all the same, except where no operand starts at all.

Reading ends because each part is read from a window of smaller weight: an operand is entered over a
token that is not an end of input, and so is each suffix.

## Main definitions

* `Opening` — how an expression can begin.
* `expression`, `suffixes`, `arguments`, `moreArguments` — the readings.

## Main results

* `expression_eq`, `suffixes_eq`, `arguments_eq`, `moreArguments_eq` — the equations of the
  readings.
* `readings_induction` — induction along the readings.
* `reaches_expression` — reading an expression only moves forward.
-/

namespace Sapling.Parser

/-- How an expression can begin. -/
inductive Opening where
  /-- A token that is an operand by itself. -/
  | operand (e : Expr)
  /-- An integer literal that denotes no integer. -/
  | invalidInteger
  /-- An operator before its operand. -/
  | operator (op : UnaryOp)
  /-- An opening parenthesis. -/
  | group
  /-- A token that starts no expression. -/
  | nothing
  deriving DecidableEq, Repr, Inhabited

/-- How an expression begins with a token. -/
def Opening.ofToken (t : Token) : Opening :=
  match t.kind with
  | .ident => operand (.ident ⟨t, t.literal⟩)
  | .int =>
    match Numeral.value? t.literal.toList with
    | some n => operand (.int t n)
    | none => invalidInteger
  | .trueWord => operand (.bool t true)
  | .falseWord => operand (.bool t false)
  | .leftParen => group
  | kind =>
    match UnaryOp.ofKind? kind with
    | some op => operator op
    | none => nothing

/-- An expression does not begin with the end of the input. -/
theorem Opening.ofToken_eof {t : Token} (h : t.kind = .eof) : ofToken t = nothing := by
  simp [ofToken, h, UnaryOp.ofKind?]

theorem Opening.leftParen_of_group {t : Token} (h : ofToken t = group) :
    t.kind = .leftParen := by
  unfold ofToken at h
  split at h
  · cases h
  · split at h <;> cases h
  · cases h
  · cases h
  · assumption
  · split at h <;> cases h

theorem Opening.ofKind_of_operator {t : Token} {op : UnaryOp} (h : ofToken t = operator op) :
    UnaryOp.ofKind? t.kind = some op := by
  unfold ofToken at h
  split at h
  · cases h
  · split at h <;> cases h
  · cases h
  · cases h
  · cases h
  · split at h
    · next hop => cases h; exact hop
    · cases h

theorem Opening.int_of_invalidInteger {t : Token} (h : ofToken t = invalidInteger) :
    t.kind = .int := by
  unfold ofToken at h
  split at h
  · cases h
  · assumption
  · cases h
  · cases h
  · cases h
  · split at h <;> cases h

theorem kind_ne_eof_of_opening {t : Token} {o : Opening} (h : Opening.ofToken t = o)
    (ho : o ≠ .nothing) : t.kind ≠ .eof := fun heof => ho (h ▸ Opening.ofToken_eof heof)

variable {σ : Type} [TokenStream σ]

open Window (weight_advance_lt weight_advance_advance_lt)

mutual

/-- `expression`, together with the fact that it only moves forward. -/
def expressionFrom (least : Precedence) (w : Window σ) : ReadingFrom w Expr :=
  match _h : Opening.ofToken w.current with
  | .nothing => ⟨.mistake w .hole ⟨.noOperand w.current.kind, w.current.span, none⟩, .refl w⟩
  | .operand e => suffixesFrom least e w
  | .invalidInteger =>
    let r := suffixesFrom least .hole w
    ⟨r.1.after [⟨.invalidInteger w.current.literal, w.current.span, none⟩], r.2⟩
  | .operator op =>
    let operand := expressionFrom .unary w.advance
    let r := suffixesFrom least (.unary w.current op operand.1.value) operand.1.window
    ⟨r.1.after operand.1.errors, .step (operand.2.trans r.2)⟩
  | .group =>
    let inner := expressionFrom .lowest w.advance
    let group := inner.1.closing w.current.span .hole
    have hgroup : w.advance.Reaches group.window := Reading.reaches_closing inner.2 _ _
    let r := suffixesFrom least group.value group.window
    ⟨r.1.after group.errors, .step (hgroup.trans r.2)⟩
termination_by (w.weight, 2)
decreasing_by
  · exact .right _ (by decide)
  · exact .right _ (by decide)
  · exact .left _ _ (weight_advance_lt (kind_ne_eof_of_opening _h nofun))
  · exact .left _ _ (Nat.lt_of_le_of_lt operand.2.weight_le
      (weight_advance_lt (kind_ne_eof_of_opening _h nofun)))
  · exact .left _ _ (weight_advance_lt (kind_ne_eof_of_opening _h nofun))
  · exact .left _ _ (Nat.lt_of_le_of_lt hgroup.weight_le
      (weight_advance_lt (kind_ne_eof_of_opening _h nofun)))

/-- `suffixes`, together with the fact that it only moves forward. -/
def suffixesFrom (least : Precedence) (left : Expr) (w : Window σ) : ReadingFrom w Expr :=
  match _h : Suffix.ofKind? w.peek.kind with
  | none => ⟨.here w left, .refl w⟩
  | some (.operator op) =>
    if least < op.precedence then
      let right := expressionFrom op.precedence w.advance.advance
      let r := suffixesFrom least (.binary w.peek left op right.1.value) right.1.window
      ⟨r.1.after right.1.errors, .step (.step (right.2.trans r.2))⟩
    else ⟨.here w left, .refl w⟩
  | some .call =>
    if least < .call then
      let args := argumentsFrom w.advance
      let r := suffixesFrom least (.call w.peek left args.1.value) args.1.window
      ⟨r.1.after args.1.errors, .step (.step (args.2.trans r.2))⟩
    else ⟨.here w left, .refl w⟩
termination_by (w.weight, 1)
decreasing_by
  · exact .left _ _ (weight_advance_advance_lt (Suffix.kind_ne_eof _h))
  · exact .left _ _ (Nat.lt_of_le_of_lt right.2.weight_le
      (weight_advance_advance_lt (Suffix.kind_ne_eof _h)))
  · exact .left _ _ (weight_advance_advance_lt (Suffix.kind_ne_eof _h))
  · exact .left _ _ (Nat.lt_of_le_of_lt args.2.weight_le
      (weight_advance_advance_lt (Suffix.kind_ne_eof _h)))

/-- `arguments`, together with the fact that it moves on by one token at least. -/
def argumentsFrom (w : Window σ) : ReadingFrom w.advance (List Expr) :=
  if w.peek.kind = .rightParen then ⟨.here w.advance [], .refl _⟩
  else
    let first := expressionFrom .lowest w.advance
    let more := moreArgumentsFrom first.1.window
    have hmore : w.advance.Reaches (first.1.cons more.1).window := first.2.trans more.2
    ⟨(first.1.cons more.1).closing w.current.span [], Reading.reaches_closing hmore _ _⟩
termination_by (w.advance.weight, 3)
decreasing_by
  · exact .right _ (by decide)
  · exact Prod.Lex.right' (Nat.lt) first.2.weight_le (show 1 < 3 by decide)

/-- `moreArguments`, together with the fact that it only moves forward. -/
def moreArgumentsFrom (w : Window σ) : ReadingFrom w (List Expr) :=
  if _h : w.peek.kind = .comma then
    let next := expressionFrom .lowest w.advance.advance
    let more := moreArgumentsFrom next.1.window
    ⟨next.1.cons more.1, .step (.step (next.2.trans more.2))⟩
  else ⟨.here w [], .refl w⟩
termination_by (w.weight, 1)
decreasing_by
  · exact .left _ _ (weight_advance_advance_lt (by simp [_h]))
  · exact .left _ _ (Nat.lt_of_le_of_lt next.2.weight_le (weight_advance_advance_lt (by simp [_h])))

end

/-! ### The readings and their equations -/

/-- Reads an expression whose operators bind more tightly than `least`.  The current token is its
first; in the window reached, it is its last. -/
def expression (least : Precedence) (w : Window σ) : Reading σ Expr := (expressionFrom least w).1

/-- Reads on after a finished operand `left`, as long as what follows binds more tightly than
`least`.  The current token is the last one of the operand. -/
def suffixes (least : Precedence) (left : Expr) (w : Window σ) : Reading σ Expr :=
  (suffixesFrom least left w).1

/-- Reads the arguments of a call, up to the closing parenthesis.  The current token is the opening
one.  A call that is not closed has no arguments. -/
def arguments (w : Window σ) : Reading σ (List Expr) := (argumentsFrom w).1

/-- Reads the arguments that follow commas.  The current token is the last one of an argument. -/
def moreArguments (w : Window σ) : Reading σ (List Expr) := (moreArgumentsFrom w).1

theorem expression_eq (least : Precedence) (w : Window σ) :
    expression least w =
      match Opening.ofToken w.current with
      | .nothing => .mistake w .hole ⟨.noOperand w.current.kind, w.current.span, none⟩
      | .operand e => suffixes least e w
      | .invalidInteger =>
        (suffixes least .hole w).after [⟨.invalidInteger w.current.literal, w.current.span, none⟩]
      | .operator op =>
        let operand := expression .unary w.advance
        (suffixes least (.unary w.current op operand.value) operand.window).after operand.errors
      | .group =>
        let group := (expression .lowest w.advance).closing w.current.span .hole
        (suffixes least group.value group.window).after group.errors := by
  unfold expression suffixes
  rw [expressionFrom]
  split <;> rename_i h <;> simp [h]

theorem suffixes_eq (least : Precedence) (left : Expr) (w : Window σ) :
    suffixes least left w =
      match Suffix.ofKind? w.peek.kind with
      | none => .here w left
      | some (.operator op) =>
        if least < op.precedence then
          let right := expression op.precedence w.advance.advance
          (suffixes least (.binary w.peek left op right.value) right.window).after right.errors
        else .here w left
      | some .call =>
        if least < .call then
          let args := arguments w.advance
          (suffixes least (.call w.peek left args.value) args.window).after args.errors
        else .here w left := by
  unfold suffixes expression arguments
  rw [suffixesFrom]
  split <;> rename_i h <;> simp [h] <;> split <;> rfl

theorem arguments_eq (w : Window σ) :
    arguments w =
      if w.peek.kind = .rightParen then .here w.advance []
      else
        let first := expression .lowest w.advance
        (first.cons (moreArguments first.window)).closing w.current.span [] := by
  unfold arguments expression moreArguments
  rw [argumentsFrom]
  split <;> rfl

theorem moreArguments_eq (w : Window σ) :
    moreArguments w =
      if w.peek.kind = .comma then
        let next := expression .lowest w.advance.advance
        next.cons (moreArguments next.window)
      else .here w [] := by
  unfold moreArguments expression
  rw [moreArgumentsFrom]
  split <;> rfl

/-- Induction along the readings: a claim about each of them holds everywhere if it follows from the
claims about the readings that it is made of. -/
theorem readings_induction {E : Precedence → Window σ → Prop}
    {S : Precedence → Expr → Window σ → Prop} {A M : Window σ → Prop}
    (nothing : ∀ least (w : Window σ), Opening.ofToken w.current = .nothing → E least w)
    (operand : ∀ least (w : Window σ) e, Opening.ofToken w.current = .operand e → S least e w →
      E least w)
    (invalid : ∀ least (w : Window σ), Opening.ofToken w.current = .invalidInteger →
      S least .hole w → E least w)
    (operator : ∀ least (w : Window σ) op, Opening.ofToken w.current = .operator op →
      E .unary w.advance →
      S least (.unary w.current op (expression .unary w.advance).value)
        (expression .unary w.advance).window → E least w)
    (group : ∀ least (w : Window σ), Opening.ofToken w.current = .group → E .lowest w.advance →
      S least ((expression .lowest w.advance).closing w.current.span .hole).value
        ((expression .lowest w.advance).closing w.current.span .hole).window → E least w)
    (finished : ∀ least left (w : Window σ), Suffix.ofKind? w.peek.kind = none → S least left w)
    (binary : ∀ least left (w : Window σ) op,
      Suffix.ofKind? w.peek.kind = some (.operator op) → least < op.precedence →
      E op.precedence w.advance.advance →
      S least (.binary w.peek left op (expression op.precedence w.advance.advance).value)
        (expression op.precedence w.advance.advance).window → S least left w)
    (looser : ∀ least left (w : Window σ) op,
      Suffix.ofKind? w.peek.kind = some (.operator op) → ¬ least < op.precedence → S least left w)
    (call : ∀ least left (w : Window σ), Suffix.ofKind? w.peek.kind = some .call → least < .call →
      A w.advance →
      S least (.call w.peek left (arguments w.advance).value) (arguments w.advance).window →
      S least left w)
    (looserCall : ∀ least left (w : Window σ), Suffix.ofKind? w.peek.kind = some .call →
      ¬ least < .call → S least left w)
    (noArguments : ∀ w : Window σ, w.peek.kind = .rightParen → A w)
    (someArguments : ∀ w : Window σ, w.peek.kind ≠ .rightParen → E .lowest w.advance →
      M (expression .lowest w.advance).window → A w)
    (comma : ∀ w : Window σ, w.peek.kind = .comma → E .lowest w.advance.advance →
      M (expression .lowest w.advance.advance).window → M w)
    (noComma : ∀ w : Window σ, w.peek.kind ≠ .comma → M w) :
    (∀ least w, E least w) ∧ (∀ least left w, S least left w) ∧ (∀ w, A w) ∧ ∀ w, M w :=
  expressionFrom.mutual_induct E S A M nothing operand invalid
    (fun least w op h he hs _ => operator least w op h he hs)
    (fun least w h _ he hs _ => group least w h he hs) finished
    (fun least left w op h hp he hs _ => binary least left w op h hp he hs) looser
    (fun least left w h hp ha hs _ => call least left w h hp ha hs) looserCall noArguments
    (fun w h _ he hm _ => someArguments w h he hm) (fun w h he hm _ => comma w h he hm) noComma

/-- Reading an expression only moves forward. -/
theorem reaches_expression (least : Precedence) (w : Window σ) :
    w.Reaches (expression least w).window := (expressionFrom least w).2

theorem reaches_suffixes (least : Precedence) (left : Expr) (w : Window σ) :
    w.Reaches (suffixes least left w).window := (suffixesFrom least left w).2

theorem reaches_arguments (w : Window σ) : w.advance.Reaches (arguments w).window :=
  (argumentsFrom w).2

theorem reaches_moreArguments (w : Window σ) : w.Reaches (moreArguments w).window :=
  (moreArgumentsFrom w).2

end Sapling.Parser
