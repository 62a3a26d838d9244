import Sapling.Proofs.Trails

/-!
# Semicolons within expressions

An expression ends before a semicolon, with one exception: where an operand is required and a
semicolon stands in its place, the semicolon is passed over like any other token that starts no
operand, and the operators after it are read all the same.  So a broken expression may run across a
semicolon, and take in what was meant to be the next statement.  This never goes unnoticed: each
semicolon that is passed over is reported as a missing operand, and no other semicolon is.

To count semicolons it is enough to compare those that still come: what an expression passes over is
what comes at its first token less what comes after its last one.

## Main definitions

* `semicolons`, `missingOperands` — the places of semicolons among tokens, and those that are
  reported in place of an operand.
* `Reading.Accounts` — the semicolons that were passed over are those that were reported.
* `LiesWithin` — a token stands between two tokens of a tree.
* `Turn.Accounts` — so does a turn in which an expression is read.

## Main results

* `readings_accounts` — all readings account for their semicolons.
* `exists_turn` — a statement is read in a turn that accounts for its semicolons.
* `parse_ofTokens_semicolons` — an expression runs across those semicolons only that are reported.
* `parse_ofTokens_runs_across` — and it may run across one of these.
-/

namespace Sapling

open Sapling.Parser

/-! ### Semicolons and errors -/

/-- The spans of the semicolons among tokens. -/
def semicolons (ts : List Token) : List Span :=
  (ts.filter (·.kind = .semicolon)).map Token.span

/-- The spans of the semicolons that were found in place of an operand. -/
def missingOperands (errors : List SyntaxError) : List Span :=
  (errors.filter (·.cause = .noOperand .semicolon)).map SyntaxError.span

theorem semicolons_append (ts us : List Token) :
    semicolons (ts ++ us) = semicolons ts ++ semicolons us := by
  simp [semicolons]

theorem semicolons_cons_of_ne {t : Token} (ts : List Token) (h : t.kind ≠ .semicolon) :
    semicolons (t :: ts) = semicolons ts := by
  simp [semicolons, h]

theorem mem_semicolons {span : Span} {ts : List Token} :
    span ∈ semicolons ts ↔ ∃ t ∈ ts, t.kind = .semicolon ∧ t.span = span := by
  simp [semicolons, and_assoc]

theorem missingOperands_append (es fs : List SyntaxError) :
    missingOperands (es ++ fs) = missingOperands es ++ missingOperands fs := by
  simp [missingOperands]

theorem missingOperands_of_ne {e : SyntaxError} (h : e.cause ≠ .noOperand .semicolon) :
    missingOperands [e] = [] := by
  simp [missingOperands, h]

theorem mem_missingOperands {span : Span} {errors : List SyntaxError} :
    span ∈ missingOperands errors ↔
      ∃ e ∈ errors, e.cause = .noOperand .semicolon ∧ e.span = span := by
  simp [missingOperands, and_assoc]

/-- A token in place of an operand is reported, as a semicolon if it is one. -/
theorem semicolons_cons_eq (t : Token) (ts : List Token) (unclosed : Option Span) :
    semicolons (t :: ts)
      = missingOperands [⟨.noOperand t.kind, t.span, unclosed⟩] ++ semicolons ts := by
  by_cases h : t.kind = .semicolon <;> simp [semicolons, missingOperands, h]

/-! ### Semicolons that still come -/

section Readings

variable {α : Type} {w : Window Replay}

/-- The semicolons from the current token on. -/
def Window.semicolonsAhead (w : Window Replay) : List Span :=
  semicolons (w.current :: w.peek :: w.stream.tokens)

/-- The semicolons at a window are the current token, if it is one, and those a step later. -/
theorem Window.semicolonsAhead_eq (w : Window Replay) :
    w.semicolonsAhead = semicolons [w.current] ++ w.advance.semicolonsAhead := by
  obtain ⟨current, peek, ⟨ts, e, he⟩⟩ := w
  have hsplit : ∀ us, semicolons (current :: us) = semicolons [current] ++ semicolons us :=
    semicolons_append [current]
  cases ts with
  | nil =>
    -- what comes next is an end of input, and no semicolon
    have hend : semicolons [e] = semicolons [] := semicolons_cons_of_ne [] (by simp [he])
    have hlater : semicolons [peek, e] = semicolons [peek] := by
      rw [← List.singleton_append, semicolons_append, hend]
      exact List.append_nil _
    exact (hsplit [peek]).trans (congrArg _ hlater.symm)
  | cons t ts => exact hsplit (peek :: t :: ts)

/-- A current token that is no semicolon does not count. -/
theorem Window.semicolonsAhead_of_ne (h : w.current.kind ≠ .semicolon) :
    w.semicolonsAhead = w.advance.semicolonsAhead := by
  rw [w.semicolonsAhead_eq, semicolons_cons_of_ne [] h]
  rfl

/-- What was read from a window on accounts for its semicolons: those passed over are the ones that
were reported in place of an operand. -/
def Reading.Accounts (w : Window Replay) (r : Reading Replay α) : Prop :=
  w.semicolonsAhead = missingOperands r.errors ++ r.window.advance.semicolonsAhead

namespace Reading.Accounts

theorem here (w : Window Replay) (value : α) : (Reading.here w value).Accounts w.advance := rfl

/-- A token that starts no operand. -/
theorem mistake (w : Window Replay) (value : α) :
    (Reading.mistake w value ⟨.noOperand w.current.kind, w.current.span, none⟩).Accounts w := by
  have h := semicolons_cons_eq w.current [] none
  rw [Accounts, w.semicolonsAhead_eq, h, List.append_assoc]
  rfl

/-- What is read after something else. -/
theorem after {β : Type} {first : Reading Replay α} {r : Reading Replay β} (h : first.Accounts w)
    (k : r.Accounts first.window.advance) : (r.after first.errors).Accounts w := by
  rw [Accounts, h, k, ← List.append_assoc, ← missingOperands_append]
  rfl

theorem cons {first : Reading Replay α} {more : Reading Replay (List α)} (h : first.Accounts w)
    (k : more.Accounts first.window.advance) : (first.cons more).Accounts w := by
  rw [Accounts, h, k, ← List.append_assoc, ← missingOperands_append]
  rfl

/-- Neither a closing parenthesis nor the report that it is missing counts. -/
theorem closing {r : Reading Replay α} (h : r.Accounts w) (opening : Span) (instead : α) :
    (r.closing opening instead).Accounts w := by
  unfold Reading.closing
  split
  · next hclosing =>
    have hne : r.window.advance.current.kind ≠ .semicolon := by
      rw [Window.current_advance, hclosing]
      decide
    exact h.trans (congrArg _ (Window.semicolonsAhead_of_ne hne))
  · have hne : missingOperands
        [⟨.unexpected .rightParen r.window.peek.kind, r.window.peek.span, some opening⟩] = [] :=
      missingOperands_of_ne nofun
    rw [Accounts, missingOperands_append, hne, List.append_nil]
    exact h

/-- What begins with a token that is no semicolon. -/
theorem step {r : Reading Replay α} (h : r.Accounts w.advance)
    (hne : w.current.kind ≠ .semicolon) : r.Accounts w :=
  (Window.semicolonsAhead_of_ne hne).trans h

end Reading.Accounts

theorem kind_ne_semicolon_of_opening {t : Token} {o : Opening} (h : Opening.ofToken t = o)
    (ho : o ≠ .nothing) : t.kind ≠ .semicolon := by
  intro hkind
  have hnothing : Opening.ofToken t = .nothing := by simp [Opening.ofToken, hkind, UnaryOp.ofKind?]
  exact ho (h.symm.trans hnothing)

theorem Suffix.kind_ne_semicolon {kind : TokenKind} {s : Suffix} (h : ofKind? kind = some s) :
    kind ≠ .semicolon := by
  rintro rfl
  simp [ofKind?, BinaryOp.ofKind?] at h

/-- **All readings account for their semicolons.** -/
theorem readings_accounts :
    (∀ least (w : Window Replay), (expression least w).Accounts w) ∧
    (∀ least left (w : Window Replay), (suffixes least left w).Accounts w.advance) ∧
    (∀ w : Window Replay, w.current.kind ≠ .semicolon → (arguments w).Accounts w) ∧
    ∀ w : Window Replay, (moreArguments w).Accounts w.advance := by
  apply readings_induction
  case nothing =>
    intro least w h
    rw [expression_eq, h]
    exact .mistake w Expr.hole
  case operand =>
    intro least w e h ihs
    rw [expression_eq, h]
    exact ihs.step (kind_ne_semicolon_of_opening h nofun)
  case invalid =>
    intro least w h ihs
    have hnone : missingOperands
        [⟨.invalidInteger w.current.literal, w.current.span, none⟩] = [] :=
      missingOperands_of_ne nofun
    rw [expression_eq, h]
    refine Reading.Accounts.step ?_ (kind_ne_semicolon_of_opening h nofun)
    rw [Reading.Accounts, Reading.errors_after, missingOperands_append, hnone]
    exact ihs
  case operator =>
    intro least w op h ihe ihs
    rw [expression_eq, h]
    exact (ihe.after ihs).step (kind_ne_semicolon_of_opening h nofun)
  case group =>
    intro least w h ihe ihs
    rw [expression_eq, h]
    exact ((ihe.closing _ _).after ihs).step (kind_ne_semicolon_of_opening h nofun)
  case finished =>
    intro least left w h
    rw [suffixes_eq, h]
    exact .here w left
  case binary =>
    intro least left w op h hp ihe ihs
    rw [suffixes_eq, h]
    simp only [if_pos hp]
    exact (ihe.after ihs).step (Suffix.kind_ne_semicolon h)
  case looser =>
    intro least left w op h hp
    rw [suffixes_eq, h]
    simp only [if_neg hp]
    exact .here w left
  case call =>
    intro least left w h hp iha ihs
    rw [suffixes_eq, h]
    simp only [if_pos hp]
    exact (iha (Suffix.kind_ne_semicolon h)).after ihs
  case looserCall =>
    intro least left w h hp
    rw [suffixes_eq, h]
    simp only [if_neg hp]
    exact .here w left
  case noArguments =>
    intro w h hne
    have hclosing : w.advance.current.kind ≠ .semicolon := by
      rw [Window.current_advance, h]
      decide
    rw [arguments_eq, if_pos h]
    exact ((Reading.Accounts.here w.advance []).step hclosing).step hne
  case someArguments =>
    intro w h ihe ihm hne
    rw [arguments_eq, if_neg h]
    exact ((ihe.cons ihm).closing _ _).step hne
  case comma =>
    intro w h ihe ihm
    have hcomma : w.advance.current.kind ≠ .semicolon := by
      rw [Window.current_advance, h]
      decide
    rw [moreArguments_eq, if_pos h]
    exact (ihe.cons ihm).step hcomma
  case noComma =>
    intro w h
    rw [moreArguments_eq, if_neg h]
    exact .here w []

end Readings

/-! ### Turns -/

/-- A token lies within a tree if it stands between two tokens of the tree, where the tree is walked
along the tokens that were passed over. -/
def LiesWithin (t : Token) (walk passed : List Token) : Prop :=
  ∃ before after front back, passed = before ++ t :: after ∧ walk = front ++ back ∧
    front ≠ [] ∧ back ≠ [] ∧ front.Sublist before ∧ back.Sublist after

/-- A turn that gives an expression accounts for its semicolons.  A semicolon after the expression
ends it; those before are reported in place of an operand, in their order. -/
def Turn.Accounts (turn : Turn) : Prop :=
  ∀ t value, turn.round.statement = some (.expression t value) →
    ∃ inner stop, turn.round.tokens = inner ++ stop ∧ (∀ s ∈ stop, s.kind = .semicolon) ∧
      stop.length ≤ 1 ∧ value.walk.Sublist inner ∧ semicolons inner = missingOperands turn.errors

/-- What lies within an expression is not the semicolon that ends it. -/
theorem LiesWithin.mem_of_append {t : Token} {walk inner stop : List Token}
    (h : LiesWithin t walk (inner ++ stop)) (hstop : stop.length ≤ 1) : t ∈ inner := by
  obtain ⟨before, after, front, back, hpassed, -, -, hback, -, hsub⟩ := h
  have hafter : after ≠ [] := by
    rintro rfl
    exact hback (List.sublist_nil.1 hsub)
  obtain ⟨more, last, rfl⟩ := (List.eq_nil_or_concat after).resolve_left hafter
  match stop, hstop with
  | [], _ =>
    rw [List.append_nil] at hpassed
    simp [hpassed]
  | [s], _ =>
    -- only the last token of all is not an inner one
    have hlast : inner ++ [s] = (before ++ t :: more) ++ [last] := by
      rw [hpassed, List.concat_eq_append, List.append_assoc, List.cons_append]
    obtain ⟨rfl, -⟩ := List.append_inj' hlast rfl
    simp

/-- **A semicolon that lies within the expression of a turn is reported there.** -/
theorem Turn.Accounts.exists_error {turn : Turn} (h : turn.Accounts) {first : Token} {value : Expr}
    (hvalue : turn.round.statement = some (.expression first value)) {t : Token}
    (ht : t.kind = .semicolon) (hwithin : LiesWithin t value.walk turn.round.tokens) :
    ∃ e ∈ turn.errors, e.cause = .noOperand .semicolon ∧ e.span = t.span := by
  obtain ⟨inner, stop, htokens, -, hstop, -, hinner⟩ := h first value hvalue
  rw [htokens] at hwithin
  rw [← mem_missingOperands, ← hinner, mem_semicolons]
  exact ⟨t, hwithin.mem_of_append hstop, ht, rfl⟩

section Turns

open Window

variable {e : Token} (he : e.kind = .eof)

theorem semicolonsAhead_along (ts : List Token) :
    (along he ts).semicolonsAhead = semicolons ts := by
  have hend : ∀ us, semicolons (e :: us) = semicolons us := fun us =>
    semicolons_cons_of_ne us (by simp [he])
  match ts with
  | [] => exact (hend [e]).trans (hend [])
  | [t] =>
    show semicolons ([t] ++ [e]) = _
    rw [semicolons_append, hend]
    exact List.append_nil _
  | t :: u :: ts => rfl

/-- The expression of a statement is read over tokens that account for their semicolons. -/
theorem exists_inner (ts : List Token) : ∃ inner later, ts = inner ++ later ∧
    (expression .lowest (along he ts)).window.advance = along he later ∧
    (expression .lowest (along he ts)).value.walk.Sublist inner ∧
    semicolons inner = missingOperands (expression .lowest (along he ts)).errors := by
  obtain ⟨us, htrail, hwalk⟩ := readings_trail.1 .lowest (along he ts)
  obtain ⟨inner, later, n, hts, hus, hnext⟩ := exists_of_trail_along he htrail ts rfl
  have hagrees := readings_agree.1 .lowest (along he ts)
  have haccounts : (along he ts).semicolonsAhead = _ := readings_accounts.1 .lowest (along he ts)
  rw [hnext, semicolonsAhead_along, semicolonsAhead_along] at haccounts
  rw [hus] at hwalk
  refine ⟨inner, later, hts, hnext, sublist_of_sublist_append he hwalk hagrees.kind_ne_eof, ?_⟩
  rw [hts, semicolons_append, ← hts] at haccounts
  exact List.append_cancel_right haccounts

/-- **A statement is read in a turn that accounts for its semicolons.** -/
theorem exists_turn {ts : List Token} (h : (along he ts).current.kind ≠ .eof) :
    ∃ passed later, ts = passed ++ later ∧
      (statement (along he ts)).window.advance = along he later ∧
      (⟨⟨passed, (statement (along he ts)).value⟩,
        (statement (along he ts)).errors⟩ : Turn).Accounts := by
  by_cases hbare : (along he ts).current.kind ≠ .letWord ∧ (along he ts).current.kind ≠ .returnWord
  · rw [statement_eq_bareExpression hbare.1 hbare.2, bareExpression_eq]
    obtain ⟨inner, later, rfl, hnext, hwalk, hinner⟩ := exists_inner he ts
    split
    · next hstop =>
      -- the semicolon after the expression is passed over as well
      rw [← current_advance, hnext] at hstop
      cases later with
      | nil =>
        rw [show (along he []).current = e from rfl, he] at hstop
        cases hstop
      | cons s later =>
        refine ⟨inner ++ [s], later, by simp, congrArg Window.advance hnext, ?_⟩
        intro t value hvalue
        obtain ⟨-, rfl⟩ := Statement.expression.inj (Option.some.inj hvalue)
        refine ⟨inner, [s], rfl, ?_, Nat.le_refl 1, hwalk, hinner⟩
        intro u hu
        obtain rfl := List.mem_singleton.1 hu
        exact hstop
    · refine ⟨inner, later, rfl, hnext, ?_⟩
      intro t value hvalue
      obtain ⟨-, rfl⟩ := Statement.expression.inj (Option.some.inj hvalue)
      exact ⟨inner, [], (List.append_nil _).symm, by simp, Nat.zero_le 1, hwalk, hinner⟩
  · -- the statement of the round, if any, is no expression
    obtain ⟨passed, later, hts, hnext, -⟩ := exists_round he h
    obtain ⟨_, -, hstatement⟩ := statement_trails h
    refine ⟨passed, later, hts, hnext, ?_⟩
    intro t value hvalue
    obtain ⟨htoken, ⟨-, hlet, hreturn, -⟩, -⟩ := hstatement _ hvalue
    obtain rfl : t = _ := htoken
    exact absurd ⟨hlet, hreturn⟩ hbare

end Turns

/-- **An expression runs across those semicolons only that are reported.**  A program is read in
rounds, with the statements and the errors in the order of the rounds.  Where the statement of a
round is an expression, its tokens are among those of the round before a semicolon that ends it, if
there is one.  The semicolons among these are those that the errors of the round report in place of
an operand, one by one; so a semicolon between two tokens of the expression is one of them, and an
expression without such an error runs across none. -/
theorem parse_ofTokens_semicolons (ts : List Token) :
    let parsed := parse (Replay.ofTokens ts)
    ∃ turns : List Turn, ∃ rest,
      Rounds (Replay.ofTokens ts).kind_eof ts (turns.map Turn.round) rest ∧
        parsed.1.statements = turns.filterMap (·.round.statement) ∧
        parsed.2 = turns.flatMap Turn.errors ∧
        ∀ turn ∈ turns, turn.Accounts ∧
          ∀ first value, turn.round.statement = some (.expression first value) →
            ∀ t, t.kind = .semicolon → LiesWithin t value.walk turn.round.tokens →
              ∃ e ∈ turn.errors, e.cause = .noOperand .semicolon ∧ e.span = t.span := by
  intro parsed
  obtain ⟨turns, rest, hrounds, hvalue, herrors, haccounts⟩ :=
    exists_turns_of (Replay.ofTokens ts).kind_eof (fun _ h => exists_turn _ h) _ ts rfl
  refine ⟨turns, rest, hrounds, hvalue, herrors, ?_⟩
  intro turn hturn
  refine ⟨haccounts turn hturn, ?_⟩
  intro first value hvalue t ht hwithin
  exact (haccounts turn hturn).exists_error hvalue ht hwithin

/-- In `a + ; -b` the semicolon stands in place of an operand.  There is one statement for all of
it, and it runs across the semicolon. -/
theorem parse_ofTokens_runs_across :
    let semicolon : Token := ⟨.semicolon, ";", ⟨4, 5⟩⟩
    let ts : List Token := [⟨.ident, "a", ⟨0, 1⟩⟩, ⟨.plus, "+", ⟨2, 3⟩⟩, semicolon,
      ⟨.minus, "-", ⟨6, 7⟩⟩, ⟨.ident, "b", ⟨7, 8⟩⟩]
    semicolon.kind = .semicolon ∧ ∃ first value,
      (parse (Replay.ofTokens ts)).1.statements = [.expression first value] ∧
        LiesWithin semicolon value.walk ts := by
  intro semicolon ts
  let a : Token := ⟨.ident, "a", ⟨0, 1⟩⟩
  let plus : Token := ⟨.plus, "+", ⟨2, 3⟩⟩
  let minus : Token := ⟨.minus, "-", ⟨6, 7⟩⟩
  let b : Token := ⟨.ident, "b", ⟨7, 8⟩⟩
  let missing : SyntaxError := ⟨.noOperand .semicolon, ⟨4, 5⟩, none⟩
  let sum : Expr := .binary plus (.ident ⟨a, "a"⟩) .add .hole
  let difference : Expr := .binary minus sum .sub (.ident ⟨b, "b"⟩)
  let w (us : List Token) : Window Replay := .along (Replay.ofTokens ts).kind_eof us
  have hmissing : expression .sum (w [semicolon, minus, b])
      = .mistake (w [semicolon, minus, b]) .hole missing := by
    rw [expression_eq]
    rfl
  have hb : expression .sum (w [b]) = .here (w [b]) (.ident ⟨b, "b"⟩) := by
    rw [expression_eq, show Opening.ofToken (w [b]).current = .operand (.ident ⟨b, "b"⟩) from rfl]
    simp only
    rw [suffixes_eq]
    rfl
  have hend : suffixes .lowest difference (w [b]) = .here (w [b]) difference := by
    rw [suffixes_eq]
    rfl
  -- the operator after the semicolon is read on after the operand that is missing
  have hdifference : suffixes .lowest sum (w [semicolon, minus, b]) = .here (w [b]) difference := by
    rw [suffixes_eq]
    show (suffixes .lowest (.binary minus sum .sub (expression .sum (w [b])).value)
      (expression .sum (w [b])).window).after (expression .sum (w [b])).errors = _
    rw [hb]
    exact congrArg (Reading.after []) hend
  have hsum : expression .lowest (w ts) = ⟨difference, [missing], w [b]⟩ := by
    rw [expression_eq, show Opening.ofToken (w ts).current = .operand (.ident ⟨a, "a"⟩) from rfl]
    simp only
    rw [suffixes_eq]
    show (suffixes .lowest (.binary plus (.ident ⟨a, "a"⟩) .add
      (expression .sum (w [semicolon, minus, b])).value)
      (expression .sum (w [semicolon, minus, b])).window).after
      (expression .sum (w [semicolon, minus, b])).errors = _
    rw [hmissing]
    exact congrArg (Reading.after [missing]) hdifference
  have hstatement : statement (w ts) = ⟨some (.expression a difference), [missing], w [b]⟩ := by
    rw [statement_eq_bareExpression (by decide) (by decide), bareExpression_eq, hsum]
    rfl
  have hfinished : statements (w [b]).advance = .here (w []) [] := by
    rw [statements_eq]
    rfl
  refine ⟨rfl, a, difference, ?_, [a, plus], [minus, b], [a, plus], [minus, b], rfl, rfl,
    by simp, by simp, .refl _, .refl _⟩
  show (statements (w ts)).value = _
  rw [statements_eq, if_neg (show (w ts).current.kind ≠ .eof by decide), hstatement]
  simp only [hfinished]
  rfl

end Sapling
