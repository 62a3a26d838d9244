import Sapling.Proofs.Consumption

/-!
# Every hole in a tree is paid for

Where no expression can be read there is a hole in the tree, and an error.  Holes are moved around
after that: a group that is not closed is one hole, whatever was in it; arguments that are not
closed are given up, with the holes in them; and operators after a hole bury it in a larger tree.
None of this makes a hole without an error of its own.

Such errors are the missing operands, the invalid integers, and the parentheses that are not closed.
The other errors are those of bindings without a name or without a `=`, for which there is no
statement at all.

## Main definitions

* `Statement.holes`, `Program.holes` — the number of holes.
* `SyntaxError.leavesHole`, `SyntaxError.breaksBinding` — the two sorts of errors.
* `Reading.Pays` — what was read has no more holes than errors that leave one.
* `Round.isAbandoned` — a round in which a binding is given up.
* `Turn.Pays` — the same for a turn, with an error for each binding that is given up.

## Main results

* `Reading.Pays.after`, `Reading.Pays.closing` — parts that pay for their holes make up a whole that
  does.
* `readings_pay` — all readings pay for their holes.
* `exists_turn_pays` — so do the turns in which a program is read.
* `parse_ofTokens_holes` — **programs have no more holes than errors that leave one**.
-/

namespace Sapling

open Sapling.Parser

/-! ### Holes and errors -/

/-- The number of holes in the expression of a statement.  What is bound and what is returned is not
read at all, so its place does not count. -/
def Statement.holes : Statement → Nat
  | .binding _ _ _ => 0
  | .returning _ _ => 0
  | .expression _ value => value.holes

/-- The number of holes in a program. -/
def Program.holes (p : Program) : Nat :=
  p.statements.foldr (fun s count => s.holes + count) 0

/-- Whether an error may leave a hole: an operand is missing, an integer is invalid, or a
parenthesis is not closed. -/
def SyntaxError.leavesHole (e : SyntaxError) : Bool :=
  match e.cause with
  | .noOperand _ => true
  | .invalidInteger _ => true
  | .unexpected expected _ => expected = .rightParen

/-- Whether an error is one for which a binding is given up: its name or its `=` is missing. -/
def SyntaxError.breaksBinding (e : SyntaxError) : Bool :=
  match e.cause with
  | .unexpected expected _ => expected = .ident || expected = .assign
  | _ => false

/-- The number of errors that may leave a hole. -/
def holesPaid (errors : List SyntaxError) : Nat := errors.countP SyntaxError.leavesHole

/-- The number of errors for which a binding is given up. -/
def bindingsBroken (errors : List SyntaxError) : Nat := errors.countP SyntaxError.breaksBinding

theorem holesPaid_append (es fs : List SyntaxError) :
    holesPaid (es ++ fs) = holesPaid es + holesPaid fs := List.countP_append

theorem bindingsBroken_append (es fs : List SyntaxError) :
    bindingsBroken (es ++ fs) = bindingsBroken es + bindingsBroken fs := List.countP_append

/-! ### Readings pay for their holes -/

section Readings

variable {σ α β : Type}

/-- What was read has no more holes than were given before, and one for each error that may leave
one.  No binding is given up. -/
structure Reading.Pays (holes : α → Nat) (given : Nat) (r : Reading σ α) : Prop where
  /-- The holes are paid for. -/
  holes_le : holes r.value ≤ given + holesPaid r.errors
  /-- No error is about a binding. -/
  bindings_eq : bindingsBroken r.errors = 0

namespace Reading.Pays

variable {holes : α → Nat} {more : β → Nat} {given : Nat}

theorem here {w : Window σ} {value : α} (h : holes value ≤ given) :
    (Reading.here w value).Pays holes given := ⟨h, rfl⟩

/-- What is read on after something, which may bury its holes. -/
theorem after {first : Reading σ α} {r : Reading σ β} (h : first.Pays holes 0)
    (k : r.Pays more (given + holes first.value)) : (r.after first.errors).Pays more given := by
  have hfirst := h.holes_le
  have hmore := k.holes_le
  constructor
  · rw [errors_after, holesPaid_append, value_after]
    omega
  · rw [errors_after, bindingsBroken_append, h.bindings_eq, k.bindings_eq]

theorem cons {first : Reading σ Expr} {rest : Reading σ (List Expr)} (h : first.Pays Expr.holes 0)
    (k : rest.Pays Expr.holesAll 0) : (first.cons rest).Pays Expr.holesAll 0 := by
  have hfirst := h.holes_le
  have hrest := k.holes_le
  constructor
  · show first.value.holes + Expr.holesAll rest.value ≤ 0 + holesPaid (first.errors ++ rest.errors)
    rw [holesPaid_append]
    omega
  · show bindingsBroken (first.errors ++ rest.errors) = 0
    rw [bindingsBroken_append, h.bindings_eq, k.bindings_eq]

/-- What is put in place of something that is not closed may have one hole, since there is an error
more.  The holes of what is given up are paid for all the same. -/
theorem closing [TokenStream σ] {r : Reading σ α} (h : r.Pays holes 0) (opening : Span)
    {instead : α} (hinstead : holes instead ≤ 1) : (r.closing opening instead).Pays holes 0 := by
  unfold Reading.closing
  split
  · exact ⟨h.holes_le, h.bindings_eq⟩
  · constructor
    · refine Nat.le_trans hinstead ?_
      rw [holesPaid_append]
      exact Nat.le_trans (Nat.le_add_left 1 _) (Nat.le_add_left _ _)
    · rw [bindingsBroken_append, h.bindings_eq]
      rfl

end Reading.Pays

variable [TokenStream σ]

/-- **All readings pay for their holes**: expressions, suffixes of an operand that may have holes
already, and arguments. -/
theorem readings_pay :
    (∀ least (w : Window σ), (expression least w).Pays Expr.holes 0) ∧
    (∀ least left (w : Window σ), (suffixes least left w).Pays Expr.holes left.holes) ∧
    (∀ w : Window σ, (arguments w).Pays Expr.holesAll 0) ∧
    ∀ w : Window σ, (moreArguments w).Pays Expr.holesAll 0 := by
  apply readings_induction
  case nothing =>
    intro least w h
    rw [expression_eq, h]
    exact ⟨Nat.le_refl 1, rfl⟩
  case operand =>
    intro least w e h ihs
    have hnone : e.holes = 0 := by
      cases atom_of_ofToken h <;> rfl
    rw [expression_eq, h]
    rwa [hnone] at ihs
  case invalid =>
    intro least w h ihs
    rw [expression_eq, h]
    -- the hole is paid for by the error that comes first
    let missing : Reading σ Expr :=
      .mistake w .hole ⟨.invalidInteger w.current.literal, w.current.span, none⟩
    have hmissing : missing.Pays Expr.holes 0 := ⟨Nat.le_refl 1, rfl⟩
    exact hmissing.after ihs
  case operator =>
    intro least w op h ihe ihs
    rw [expression_eq, h]
    refine ihe.after ?_
    rwa [Nat.zero_add]
  case group =>
    intro least w h ihe ihs
    rw [expression_eq, h]
    have hgroup := ihe.closing w.current.span (show Expr.hole.holes ≤ 1 from Nat.le_refl 1)
    refine hgroup.after ?_
    rwa [Nat.zero_add]
  case finished =>
    intro least left w h
    rw [suffixes_eq, h]
    exact .here (Nat.le_refl _)
  case binary =>
    intro least left w op h hp ihe ihs
    rw [suffixes_eq, h]
    simp only [if_pos hp]
    exact ihe.after ihs
  case looser =>
    intro least left w op h hp
    rw [suffixes_eq, h]
    simp only [if_neg hp]
    exact .here (Nat.le_refl _)
  case call =>
    intro least left w h hp iha ihs
    rw [suffixes_eq, h]
    simp only [if_pos hp]
    exact iha.after ihs
  case looserCall =>
    intro least left w h hp
    rw [suffixes_eq, h]
    simp only [if_neg hp]
    exact .here (Nat.le_refl _)
  case noArguments =>
    intro w h
    rw [arguments_eq, if_pos h]
    exact .here (Nat.le_refl 0)
  case someArguments =>
    intro w h ihe ihm
    rw [arguments_eq, if_neg h]
    exact (ihe.cons ihm).closing w.current.span (Nat.zero_le 1)
  case comma =>
    intro w h ihe ihm
    rw [moreArguments_eq, if_pos h]
    exact ihe.cons ihm
  case noComma =>
    intro w h
    rw [moreArguments_eq, if_neg h]
    exact .here (Nat.le_refl 0)

/-! ### Statements -/

/-- Reading a statement pays for its holes.  If there is none, it was a binding that was given up,
with one error for it. -/
structure Reading.PaysStatement (r : Reading σ (Option Statement)) : Prop where
  /-- The holes are paid for. -/
  holes_le : r.value.elim 0 Statement.holes ≤ holesPaid r.errors
  /-- There is an error about a binding just if there is no statement. -/
  bindings_eq : bindingsBroken r.errors = if r.value = none then 1 else 0

theorem binding_pays (w : Window σ) : (binding w).1.PaysStatement := by
  rw [binding_eq]
  split
  · split
    · exact ⟨Nat.le_refl 0, rfl⟩
    · exact ⟨Nat.zero_le _, rfl⟩
  · exact ⟨Nat.zero_le _, rfl⟩

theorem bareExpression_pays (w : Window σ) : (bareExpression w).1.PaysStatement := by
  obtain ⟨hholes, hbindings⟩ := readings_pay.1 .lowest w
  rw [Nat.zero_add] at hholes
  rw [bareExpression_eq]
  split
  · exact ⟨hholes, hbindings⟩
  · exact ⟨hholes, hbindings⟩

/-- **Every statement pays for its holes.** -/
theorem statement_pays (w : Window σ) : (statement w).PaysStatement := by
  by_cases hlet : w.current.kind = .letWord
  · rw [statement_eq_binding hlet]
    exact binding_pays w
  by_cases hreturn : w.current.kind = .returnWord
  · rw [statement_eq_returning hreturn]
    exact ⟨Nat.le_refl 0, rfl⟩
  · rw [statement_eq_bareExpression hlet hreturn]
    exact bareExpression_pays w

end Readings

/-! ### Turns -/

/-- Whether a binding is given up: the round begins with the word for one, and gives no statement.
-/
def Round.isAbandoned (r : Round) : Bool :=
  r.tokens.head?.any (·.kind = .letWord) && r.statement.isNone

/-- Where only the word for a binding can come without a statement, the statement tells. -/
theorem Round.isAbandoned_cons {t : Token} {more : List Token} {value : Option Statement}
    (h : t.kind ≠ .letWord → value ≠ none) :
    (⟨t :: more, value⟩ : Round).isAbandoned = value.isNone := by
  by_cases hlet : t.kind = .letWord
  · simp [isAbandoned, hlet]
  · simp [isAbandoned, h hlet]

/-- A turn pays for the holes of its statement.  There is an error about a binding just if one is
given up, and otherwise there is a statement. -/
structure Turn.Pays (turn : Turn) : Prop where
  /-- The holes are paid for in the same turn. -/
  holes_le : turn.round.statement.elim 0 Statement.holes ≤ holesPaid turn.errors
  /-- There is one error for a binding that is given up. -/
  bindings_eq : bindingsBroken turn.errors = if turn.round.isAbandoned then 1 else 0
  /-- All other turns give a statement. -/
  isSome_statement : ¬ turn.round.isAbandoned → turn.round.statement.isSome

/-- A statement that pays for its holes makes a turn that does. -/
theorem Reading.PaysStatement.turn {σ : Type} {r : Reading σ (Option Statement)}
    (h : r.PaysStatement) {t : Token} {more : List Token}
    (hlet : t.kind ≠ .letWord → r.value ≠ none) :
    (⟨⟨t :: more, r.value⟩, r.errors⟩ : Turn).Pays := by
  have hgiven : (⟨t :: more, r.value⟩ : Round).isAbandoned = r.value.isNone :=
    Round.isAbandoned_cons hlet
  refine ⟨h.holes_le, ?_, ?_⟩
  · simp only [h.bindings_eq, hgiven, Option.isNone_iff_eq_none]
  · intro hnot
    simpa [hgiven, Option.isSome_iff_ne_none] using hnot

section Turns

open Window

variable {e : Token} (he : e.kind = .eof)

/-- **A statement is read in a turn that pays for its holes.** -/
theorem exists_turn_pays {ts : List Token} (h : (along he ts).current.kind ≠ .eof) :
    ∃ passed later, ts = passed ++ later ∧
      (statement (along he ts)).window.advance = along he later ∧
      (⟨⟨passed, (statement (along he ts)).value⟩,
        (statement (along he ts)).errors⟩ : Turn).Pays := by
  obtain ⟨passed, later, rfl, hnext, hfaithful⟩ := exists_round he h
  obtain ⟨t, more, rfl⟩ := List.exists_cons_of_ne_nil hfaithful.nonempty
  have hlet : t.kind ≠ .letWord → (statement (along he (t :: more ++ later))).value ≠ none :=
    value_statement_ne_none (w := along he (t :: more ++ later))
  exact ⟨t :: more, later, rfl, hnext, (statement_pays _).turn hlet⟩

end Turns

/-! ### Programs -/

/-- The holes of turns that pay for them, one after the other. -/
theorem holes_le_of_pays {turns : List Turn} (h : ∀ turn ∈ turns, turn.Pays) :
    (Program.mk (turns.filterMap (·.round.statement))).holes
      ≤ holesPaid (turns.flatMap Turn.errors) := by
  induction turns with
  | nil => exact Nat.le_refl 0
  | cons turn turns ih =>
    obtain ⟨hturn, hturns⟩ := List.forall_mem_cons.1 h
    have hfirst := hturn.holes_le
    have hmore := ih hturns
    rw [List.flatMap_cons, holesPaid_append, List.filterMap_cons]
    cases hstatement : turn.round.statement with
    | none => exact Nat.le_trans hmore (Nat.le_add_left _ _)
    | some s =>
      rw [hstatement] at hfirst
      exact Nat.add_le_add hfirst hmore

/-- The bindings that are given up in turns that pay for it. -/
theorem bindingsBroken_of_pays {turns : List Turn} (h : ∀ turn ∈ turns, turn.Pays) :
    bindingsBroken (turns.flatMap Turn.errors) = turns.countP (·.round.isAbandoned) := by
  induction turns with
  | nil => rfl
  | cons turn turns ih =>
    obtain ⟨hturn, hturns⟩ := List.forall_mem_cons.1 h
    rw [List.flatMap_cons, bindingsBroken_append, hturn.bindings_eq, ih hturns, List.countP_cons,
      Nat.add_comm]

/-- Where no binding is given up, there is a statement for each turn. -/
theorem length_statements_of_pays {turns : List Turn} (h : ∀ turn ∈ turns, turn.Pays)
    (hnone : ∀ turn ∈ turns, ¬ turn.round.isAbandoned) :
    (turns.filterMap (·.round.statement)).length = turns.length := by
  rw [List.length_filterMap_eq_countP, List.countP_eq_length]
  exact fun turn hturn => (h turn hturn).isSome_statement (hnone turn hturn)

/-- **Every hole in a tree is paid for by an error of its own**, whatever the mistakes are.  The
holes of a program are no more than the missing operands, the invalid integers and the parentheses
that are not closed.  A program is read in turns, one for each round of the reading, and the same is
the case in each of them.  There are as many errors about bindings without a name or a `=` as there
are turns that begin with the word for a binding and give no statement; all other turns give one.
So if there are no errors, there is no hole, and each round gives a statement. -/
theorem parse_ofTokens_holes (ts : List Token) :
    let parsed := parse (Replay.ofTokens ts)
    parsed.1.holes ≤ parsed.2.countP SyntaxError.leavesHole ∧
      ∃ turns : List Turn, ∃ rest,
        Rounds (Replay.ofTokens ts).kind_eof ts (turns.map Turn.round) rest ∧
          parsed.1.statements = turns.filterMap (·.round.statement) ∧
          parsed.2 = turns.flatMap Turn.errors ∧
          (∀ turn ∈ turns, turn.Pays) ∧
          parsed.2.countP SyntaxError.breaksBinding = turns.countP (·.round.isAbandoned) ∧
          (parsed.2 = [] → parsed.1.holes = 0 ∧ parsed.1.statements.length = turns.length) := by
  intro parsed
  obtain ⟨turns, rest, hrounds, hvalue, herrors, hpays⟩ :=
    exists_turns_of (Replay.ofTokens ts).kind_eof (fun _ h => exists_turn_pays _ h) _ ts rfl
  have hprogram : parsed.1 = ⟨turns.filterMap (·.round.statement)⟩ := congrArg Program.mk hvalue
  have herrors : parsed.2 = turns.flatMap Turn.errors := herrors
  have hholes : parsed.1.holes ≤ holesPaid parsed.2 := by
    rw [hprogram, herrors]
    exact holes_le_of_pays hpays
  have hbindings : bindingsBroken parsed.2 = turns.countP (·.round.isAbandoned) := by
    rw [herrors]
    exact bindingsBroken_of_pays hpays
  refine ⟨hholes, turns, rest, hrounds, by rw [hprogram], herrors, hpays, hbindings, ?_⟩
  intro hclean
  rw [hclean] at hholes hbindings
  have hgiven : ∀ turn ∈ turns, ¬ turn.round.isAbandoned := List.countP_eq_zero.1 hbindings.symm
  refine ⟨Nat.le_zero.1 hholes, ?_⟩
  rw [hprogram]
  exact length_statements_of_pays hpays hgiven

end Sapling
