import Sapling.Numeral
import Sapling.Syntax.Program

/-!
# The grammar of the language

Expressions are stratified by binding power: a phrase of level `p` is one whose outermost operator
binds at least as tightly as `p`.  Operators between operands associate to the left, so their left
operand is of their own level and their right operand of the next one.  Operators before an operand
bind more tightly than all of these, and calls most tightly.

Derivations are trees that keep every token in its place: parentheses, commas, semicolons, and the
tokens that `let` and `return` pass over.  What a tree was written as (`tokens`) and the syntax tree
it stands for (`tree`) are read off it.

## Main definitions

* `Precedence.right` — the level of the operand to the right of an operator.
* `Phrase`, `Arguments`, `MoreArguments` — derivation trees of expressions and of arguments.
* `Derives p d` — the tree `d` follows the rules, and is a phrase of level `p`.
* `Clause`, `Clause.WellFormed` — derivation trees of statements.
* `Script`, `Script.WellFormed` — derivation trees of programs.
-/

namespace Sapling

/-! ### Levels -/

namespace Precedence

instance : LE Precedence := ⟨fun p q => p.level ≤ q.level⟩

instance (p q : Precedence) : Decidable (p ≤ q) := inferInstanceAs (Decidable (p.level ≤ q.level))

@[refl] theorem le_refl (p : Precedence) : p ≤ p := Nat.le_refl _

theorem le_trans {p q r : Precedence} (h : p ≤ q) (k : q ≤ r) : p ≤ r := Nat.le_trans h k

theorem le_of_lt {p q : Precedence} (h : p < q) : p ≤ q := Nat.le_of_lt h

theorem not_lt_of_le {p q : Precedence} (h : q ≤ p) : ¬ p < q := Nat.not_lt.2 h

theorem le_of_not_lt {p q : Precedence} (h : ¬ p < q) : q ≤ p := Nat.not_lt.1 h

theorem le_call (p : Precedence) : p ≤ .call := by cases p <;> decide

/-- The level of the operand to the right of an operator: the next one for operators between two
operands, the same for operators before one. -/
def right : Precedence → Precedence
  | lowest => equality
  | equality => comparison
  | comparison => sum
  | sum => product
  | product => unary
  | unary => unary
  | call => call

end Precedence

theorem Precedence.right_le_unary {p : Precedence} (h : p < .call) : p.right ≤ .unary := by
  revert h
  cases p <;> decide

/-- An operator may stand in the right operand of another one just if it binds more tightly. -/
theorem BinaryOp.right_le_precedence_iff {p : Precedence} {op : BinaryOp} :
    p.right ≤ op.precedence ↔ p < op.precedence := by
  cases p <;> cases op <;> decide

theorem BinaryOp.precedence_lt_right (op : BinaryOp) : op.precedence < op.precedence.right := by
  cases op <;> decide

theorem BinaryOp.precedence_lt_call (op : BinaryOp) : op.precedence < .call := by
  cases op <;> decide

/-- Nothing that follows an operand binds as tightly as an operator before one. -/
theorem Suffix.precedence_lt_unary {s : Suffix} (h : s.precedence ≤ .unary) :
    s.precedence < .unary := by
  rcases s with op | _
  · cases op <;> decide
  · exact absurd h (by decide)

/-! ### Derivation trees of expressions -/

mutual

/-- An expression as it is written. -/
inductive Phrase where
  /-- A token that is an expression by itself. -/
  | operand (token : Token) (value : Expr)
  /-- An expression in parentheses. -/
  | group (opening : Token) (inner : Phrase) (closing : Token)
  /-- An operator before its operand. -/
  | unary (token : Token) (op : UnaryOp) (operand : Phrase)
  /-- An operator between its operands. -/
  | binary (left : Phrase) (token : Token) (op : BinaryOp) (right : Phrase)
  /-- A call. -/
  | call (function : Phrase) (opening : Token) (arguments : Arguments) (closing : Token)

/-- The arguments of a call as they are written. -/
inductive Arguments where
  /-- No arguments. -/
  | none
  /-- A first argument, and more of them. -/
  | some (first : Phrase) (more : MoreArguments)

/-- Arguments after the first one, each with the comma before it. -/
inductive MoreArguments where
  /-- No more arguments. -/
  | nil
  /-- One more argument, and those after it. -/
  | cons (comma : Token) (next : Phrase) (more : MoreArguments)

end

mutual

/-- The tokens of a phrase, in order. -/
def Phrase.tokens : Phrase → List Token
  | .operand t _ => [t]
  | .group opening d closing => opening :: (d.tokens ++ [closing])
  | .unary t _ d => t :: d.tokens
  | .binary l t _ r => l.tokens ++ t :: r.tokens
  | .call f opening args closing => f.tokens ++ opening :: (args.tokens ++ [closing])

/-- The tokens of arguments, in order. -/
def Arguments.tokens : Arguments → List Token
  | .none => []
  | .some d more => d.tokens ++ more.tokens

/-- The tokens of further arguments, in order. -/
def MoreArguments.tokens : MoreArguments → List Token
  | .nil => []
  | .cons comma d more => comma :: (d.tokens ++ more.tokens)

end

mutual

/-- The syntax tree that a phrase stands for: parentheses leave no trace in it. -/
def Phrase.tree : Phrase → Expr
  | .operand _ e => e
  | .group _ d _ => d.tree
  | .unary t op d => .unary t op d.tree
  | .binary l t op r => .binary t l.tree op r.tree
  | .call f opening args _ => .call opening f.tree args.trees

/-- The syntax trees of arguments. -/
def Arguments.trees : Arguments → List Expr
  | .none => []
  | .some d more => d.tree :: more.trees

/-- The syntax trees of further arguments. -/
def MoreArguments.trees : MoreArguments → List Expr
  | .nil => []
  | .cons _ d more => d.tree :: more.trees

end

namespace Phrase

/-- The level of a phrase: how tightly its outermost operator binds. -/
def level : Phrase → Precedence
  | operand _ _ => .call
  | group _ _ _ => .call
  | unary _ _ _ => .unary
  | binary _ _ op _ => op.precedence
  | call _ _ _ _ => .call

/-- The first token of a phrase. -/
def first : Phrase → Token
  | operand t _ => t
  | group opening _ _ => opening
  | unary t _ _ => t
  | binary l _ _ _ => l.first
  | call f _ _ _ => f.first

/-- The last token of a phrase. -/
def last : Phrase → Token
  | operand t _ => t
  | group _ _ closing => closing
  | unary _ _ d => d.last
  | binary _ _ _ r => r.last
  | call _ _ _ closing => closing

/-- Every phrase is of the level of the right operand of the weakest context. -/
theorem right_lowest_le_level (d : Phrase) : Precedence.lowest.right ≤ d.level := by
  cases d with
  | unary => exact Precedence.right_le_unary (by decide)
  | binary l t op r => exact BinaryOp.right_le_precedence_iff.2 (by cases op <;> decide)
  | _ => exact Precedence.le_call _

theorem tokens_eq_cons : ∀ d : Phrase, ∃ more, d.tokens = d.first :: more
  | operand t _ => ⟨[], by rw [tokens, first]⟩
  | group opening d closing => ⟨d.tokens ++ [closing], by rw [tokens, first]⟩
  | unary t _ d => ⟨d.tokens, by rw [tokens, first]⟩
  | binary l t _ r => by
    obtain ⟨more, h⟩ := tokens_eq_cons l
    exact ⟨more ++ t :: r.tokens, by rw [tokens, h, first, List.cons_append]⟩
  | call f opening args closing => by
    obtain ⟨more, h⟩ := tokens_eq_cons f
    exact ⟨more ++ opening :: (args.tokens ++ [closing]), by
      rw [tokens, h, first, List.cons_append]⟩

/-- Phrases that begin alike have the same first token. -/
theorem first_eq_of_append {d e : Phrase} {r s : List Token}
    (h : d.tokens ++ r = e.tokens ++ s) : d.first = e.first := by
  obtain ⟨more, hd⟩ := d.tokens_eq_cons
  obtain ⟨more', he⟩ := e.tokens_eq_cons
  rw [hd, he] at h
  exact (List.cons.inj h).1

end Phrase

/-- The last token of further arguments, or the one before them if there are none. -/
def MoreArguments.last (before : Token) : MoreArguments → Token
  | .nil => before
  | .cons _ d more => more.last d.last

/-! ### The rules for expressions -/

/-- The expressions that are single tokens: names, boolean literals, and integer literals that
denote an integer. -/
inductive Atom : Token → Expr → Prop where
  /-- A name. -/
  | ident {t : Token} : t.kind = .ident → Atom t (.ident ⟨t, t.literal⟩)
  /-- An integer literal. -/
  | int {t : Token} {n : Nat} : t.kind = .int → Numeral.value? t.literal.toList = some n →
      Atom t (.int t n)
  /-- The literal `true`. -/
  | trueWord {t : Token} : t.kind = .trueWord → Atom t (.bool t true)
  /-- The literal `false`. -/
  | falseWord {t : Token} : t.kind = .falseWord → Atom t (.bool t false)

mutual

/-- `Derives p d` says that the tree `d` follows the rules, and is a phrase of level `p`. -/
inductive Derives : Precedence → Phrase → Prop where
  /-- Single tokens are of every level. -/
  | operand {p : Precedence} {t : Token} {e : Expr} : Atom t e → Derives p (.operand t e)
  /-- Parentheses make a phrase of every level. -/
  | group {p : Precedence} {opening closing : Token} {d : Phrase} : opening.kind = .leftParen →
      Derives .lowest d → closing.kind = .rightParen → Derives p (.group opening d closing)
  /-- An operator before an operand of its own level. -/
  | unary {p : Precedence} {t : Token} {op : UnaryOp} {d : Phrase} : p ≤ .unary →
      UnaryOp.ofKind? t.kind = some op → Derives .unary d → Derives p (.unary t op d)
  /-- An operator between a left operand of its own level and a right operand of the next. -/
  | binary {p : Precedence} {l r : Phrase} {t : Token} {op : BinaryOp} : p ≤ op.precedence →
      Derives op.precedence l → BinaryOp.ofKind? t.kind = some op →
      Derives op.precedence.right r → Derives p (.binary l t op r)
  /-- Arguments in parentheses after what is called. -/
  | call {p : Precedence} {f : Phrase} {opening closing : Token} {args : Arguments} :
      Derives .call f → opening.kind = .leftParen → DerivesArguments args →
      closing.kind = .rightParen → Derives p (.call f opening args closing)

/-- Arguments are phrases with commas between them. -/
inductive DerivesArguments : Arguments → Prop where
  /-- There may be none. -/
  | none : DerivesArguments .none
  /-- A first one, and more. -/
  | some {d : Phrase} {more : MoreArguments} : Derives .lowest d → DerivesMore more →
      DerivesArguments (.some d more)

/-- Further arguments follow commas. -/
inductive DerivesMore : MoreArguments → Prop where
  /-- There may be no more. -/
  | nil : DerivesMore .nil
  /-- A comma, an argument, and more. -/
  | cons {comma : Token} {d : Phrase} {more : MoreArguments} : comma.kind = .comma →
      Derives .lowest d → DerivesMore more → DerivesMore (.cons comma d more)

end

namespace Derives

/-- A phrase is of level `p` just if its outermost operator binds at least as tightly. -/
theorem le_level {p : Precedence} {d : Phrase} (h : Derives p d) : p ≤ d.level := by
  cases h with
  | operand => exact p.le_call
  | group => exact p.le_call
  | unary hp => exact hp
  | binary hp => exact hp
  | call => exact p.le_call

/-- Levels only matter as lower bounds of the outermost operator. -/
theorem of_le_level {p q : Precedence} {d : Phrase} (h : Derives p d) (hq : q ≤ d.level) :
    Derives q d := by
  cases h with
  | operand ha => exact .operand ha
  | group ho hd hc => exact .group ho hd hc
  | unary _ ht hd => exact .unary hq ht hd
  | binary _ hl ht hr => exact .binary hq hl ht hr
  | call hf ho ha hc => exact .call hf ho ha hc

theorem mono {p q : Precedence} {d : Phrase} (h : Derives p d) (hq : q ≤ p) : Derives q d :=
  h.of_le_level (Precedence.le_trans hq h.le_level)

end Derives

/-- The kinds of tokens that a phrase can begin with. -/
def TokenKind.StartsPhrase (kind : TokenKind) : Prop :=
  kind ∈ [ident, int, trueWord, falseWord, leftParen, bang, minus]

instance (kind : TokenKind) : Decidable kind.StartsPhrase :=
  inferInstanceAs (Decidable (kind ∈ _))

theorem TokenKind.StartsPhrase.ne {kind other : TokenKind} (h : kind.StartsPhrase)
    (hother : ¬ other.StartsPhrase) : kind ≠ other := by
  rintro rfl
  exact hother h

theorem Atom.startsPhrase {t : Token} {e : Expr} (h : Atom t e) : t.kind.StartsPhrase := by
  cases h with
  | ident h => rw [h]; decide
  | int h => rw [h]; decide
  | trueWord h => rw [h]; decide
  | falseWord h => rw [h]; decide

theorem UnaryOp.startsPhrase {kind : TokenKind} {op : UnaryOp} (h : ofKind? kind = some op) :
    kind.StartsPhrase := by
  cases kind <;> first | decide | simp [ofKind?] at h

theorem Derives.startsPhrase {p : Precedence} :
    ∀ {d : Phrase}, Derives p d → d.first.kind.StartsPhrase
  | .operand _ _, .operand h => h.startsPhrase
  | .group opening _ _, .group h _ _ => by
    show opening.kind.StartsPhrase
    rw [h]
    decide
  | .unary _ _ _, .unary _ h _ => UnaryOp.startsPhrase h
  | .binary _ _ _ _, .binary _ h _ _ => h.startsPhrase
  | .call _ _ _ _, .call h _ _ _ => h.startsPhrase

/-! ### Statements and programs -/

/-- A statement as it is written.  Its last field is the semicolon that ends it, if there is one. -/
inductive Clause where
  /-- A binding: `let`, a name, `=`, and tokens that are passed over. -/
  | binding (token name assign : Token) (skipped : List Token) (stop : Option Token)
  /-- A return: `return`, and tokens that are passed over. -/
  | returning (token : Token) (skipped : List Token) (stop : Option Token)
  /-- An expression. -/
  | expression (phrase : Phrase) (stop : Option Token)

namespace Clause

/-- The semicolon at the end. -/
def stop : Clause → Option Token
  | binding _ _ _ _ stop => stop
  | returning _ _ stop => stop
  | expression _ stop => stop

/-- The tokens of a statement, in order. -/
def tokens : Clause → List Token
  | binding t name assign skipped stop => t :: name :: assign :: (skipped ++ stop.toList)
  | returning t skipped stop => t :: (skipped ++ stop.toList)
  | expression d stop => d.tokens ++ stop.toList

/-- The first token of a statement. -/
def first : Clause → Token
  | binding t _ _ _ _ => t
  | returning t _ _ => t
  | expression d _ => d.first

theorem tokens_eq_cons : ∀ c : Clause, ∃ more, c.tokens = c.first :: more
  | binding _ _ _ _ _ => ⟨_, rfl⟩
  | returning _ _ _ => ⟨_, rfl⟩
  | expression d stop => by
    obtain ⟨more, h⟩ := d.tokens_eq_cons
    exact ⟨more ++ stop.toList, by rw [tokens, h, first, List.cons_append]⟩

/-- The statement that is meant.  What is bound or returned is not read. -/
def statement : Clause → Statement
  | binding t name _ _ _ => .binding t ⟨name, name.literal⟩ .hole
  | returning t _ _ => .returning t .hole
  | expression d _ => .expression d.first d.tree

/-- Statements that begin alike have the same first token. -/
theorem first_eq_of_append {c c' : Clause} {r s : List Token}
    (h : c.tokens ++ r = c'.tokens ++ s) : c.first = c'.first := by
  obtain ⟨more, hc⟩ := c.tokens_eq_cons
  obtain ⟨more', hc'⟩ := c'.tokens_eq_cons
  rw [hc, hc'] at h
  exact (List.cons.inj h).1

/-- The rules for the parts of a statement. -/
def WellFormed : Clause → Prop
  | binding t name assign skipped stop =>
    t.kind = .letWord ∧ name.kind = .ident ∧ assign.kind = .assign ∧
      (∀ s ∈ skipped, s.kind ≠ .semicolon) ∧ ∀ s ∈ stop, s.kind = .semicolon
  | returning t skipped stop =>
    t.kind = .returnWord ∧ (∀ s ∈ skipped, s.kind ≠ .semicolon) ∧ ∀ s ∈ stop, s.kind = .semicolon
  | expression d stop => Derives .lowest d ∧ ∀ s ∈ stop, s.kind = .semicolon

/-- What may follow a statement that no semicolon ends.  After an expression stands a token that
would not continue it; the tokens that `let` and `return` pass over run to the end of the input. -/
def MayPrecede : Clause → List Token → Prop
  | binding .., later => later = []
  | returning .., later => later = []
  | expression .., later =>
    ∀ t ∈ later.head?, t.kind ≠ .leftParen ∧ BinaryOp.ofKind? t.kind = none

end Clause

/-- A program as it is written. -/
abbrev Script := List Clause

namespace Script

/-- The tokens of a program, in order. -/
def tokens (s : Script) : List Token := s.flatMap Clause.tokens

/-- The program that is meant. -/
def program (s : Script) : Program := ⟨s.map Clause.statement⟩

/-- The rules for a program: its statements follow theirs, and one without a semicolon ends where
the next begins. -/
def WellFormed : Script → Prop
  | [] => True
  | c :: later =>
    c.WellFormed ∧ (c.stop = none → c.MayPrecede (later.flatMap Clause.tokens)) ∧ WellFormed later

@[simp] theorem tokens_nil : tokens [] = [] := rfl

@[simp] theorem tokens_cons (c : Clause) (later : Script) :
    tokens (c :: later) = c.tokens ++ tokens later := rfl

end Script

end Sapling
