import Sapling.Proofs.Relabeling
import Sapling.Proofs.Trails

/-!
# How much input is read

The parser reads its input to an end, and no further than it must.  A reading of a statement never
steps on where both tokens of the window are ends of input, so it cannot run away from the last
token; the step after it may lead one token too far, and there the program ends.  To say how many
tokens are pulled, they are counted by a stream that does nothing else.

An end of input may stand in the middle of the tokens.  A program ends there if a statement could
begin, and what comes after it is left.

## Main definitions

* `Counted` — a stream that counts the tokens that are pulled from it.
* `Window.Strides` — steps forward, none of them from an end of input to another.
* `Window.Tallied` — how far a window is, by the tokens that were counted.

## Main results

* `readings_stride`, `statement_strides` — what the readings step over.
* `Rounds.statements_eq` — the rounds in which a program is read say where it ends.
* `pulled_statements_le` — the tokens that are pulled for a program.
* `nothing_left` — nothing is found after all tokens have been read.
* `readProgram_consumes` — parsing ends, and loses no input.
-/

namespace Sapling

open Sapling.Parser

/-! ### Counting tokens -/

/-- A stream that counts the tokens that are pulled from it. -/
structure Counted (σ : Type) where
  /-- The stream that the tokens come from. -/
  stream : σ
  /-- The number of tokens that were pulled. -/
  pulled : Nat
  deriving Repr, Inhabited

namespace Counted

variable {σ : Type} [TokenStream σ]

/-- The next token, which is counted. -/
def next (c : Counted σ) : Token × Counted σ :=
  let token := TokenStream.next c.stream
  (token.1, ⟨token.2, c.pulled + 1⟩)

instance : TokenStream (Counted σ) where
  next := next
  remaining c := TokenStream.remaining c.stream
  remaining_next c := TokenStream.remaining_next c.stream

/-- Counting changes nothing in what is handed out. -/
theorem relabels : Relabels id fun (s : σ) (c : Counted σ) => c.stream = s := by
  rintro _ c rfl
  exact ⟨rfl, rfl⟩

end Counted

/-! ### Strides -/

section Strides

variable {σ : Type} [TokenStream σ]

omit [TokenStream σ] in
/-- Both tokens of the window are ends of input. -/
def Window.AtEnd (w : Window σ) : Prop := w.current.kind = .eof ∧ w.peek.kind = .eof

/-- Some steps forward, each of them from a window that is not at the end of the input. -/
inductive Window.Strides : Window σ → Window σ → Prop where
  /-- No step at all. -/
  | refl (w : Window σ) : Strides w w
  /-- One step, and then more. -/
  | step {w v : Window σ} : ¬ w.AtEnd → Strides w.advance v → Strides w v

namespace Window

variable {u v w : Window σ}

omit [TokenStream σ] in
theorem not_atEnd_of_current {kind : TokenKind} (h : w.current.kind = kind) (hk : kind ≠ .eof) :
    ¬ w.AtEnd := fun hend => hk (h.symm.trans hend.1)

omit [TokenStream σ] in
theorem not_atEnd_of_peek {kind : TokenKind} (h : w.peek.kind = kind) (hk : kind ≠ .eof) :
    ¬ w.AtEnd := fun hend => hk (h.symm.trans hend.2)

theorem Strides.trans (h : u.Strides v) (k : v.Strides w) : u.Strides w := by
  induction h with
  | refl => exact k
  | step hend _ ih => exact .step hend (ih k)

/-- One step after others. -/
theorem Strides.advance (h : w.Strides v) (hend : ¬ v.AtEnd) : w.Strides v.advance :=
  h.trans (.step hend (.refl _))

/-- Two steps, onto a token that is not an end of input and over it. -/
theorem Strides.over {kind : TokenKind} (hpeek : w.peek.kind = kind) (hk : kind ≠ .eof)
    (h : w.advance.advance.Strides v) : w.Strides v :=
  .step (not_atEnd_of_peek hpeek hk) (.step (not_atEnd_of_current hpeek hk) h)

end Window

open Window

/-- A closing parenthesis is not an end of input. -/
theorem Reading.strides_closing {α : Type} {w : Window σ} {r : Reading σ α}
    (h : w.Strides r.window) (opening : Span) (instead : α) :
    w.Strides (r.closing opening instead).window := by
  unfold Reading.closing
  split
  · next hpeek => exact h.advance (not_atEnd_of_peek hpeek (by decide))
  · exact h

/-- **The readings of expressions stride.** -/
theorem readings_stride :
    (∀ least (w : Window σ), w.Strides (expression least w).window) ∧
    (∀ least left (w : Window σ), w.Strides (suffixes least left w).window) ∧
    (∀ w : Window σ, w.advance.Strides (arguments w).window) ∧
    ∀ w : Window σ, w.Strides (moreArguments w).window := by
  apply readings_induction
  case nothing =>
    intro least w h
    rw [expression_eq, h]
    exact .refl w
  case operand =>
    intro least w e h ihs
    rw [expression_eq, h]
    exact ihs
  case invalid =>
    intro least w h ihs
    rw [expression_eq, h]
    exact ihs
  case operator =>
    intro least w op h ihe ihs
    have hkind := kind_ne_eof_of_opening h (by simp)
    rw [expression_eq, h]
    exact .step (not_atEnd_of_current rfl hkind) (ihe.trans ihs)
  case group =>
    intro least w h ihe ihs
    have hkind := kind_ne_eof_of_opening h (by simp)
    rw [expression_eq, h]
    exact .step (not_atEnd_of_current rfl hkind)
      ((Reading.strides_closing ihe w.current.span .hole).trans ihs)
  case finished =>
    intro least left w h
    rw [suffixes_eq, h]
    exact .refl w
  case binary =>
    intro least left w op h hp ihe ihs
    rw [suffixes_eq, h]
    simp only [if_pos hp]
    exact .over rfl (Suffix.kind_ne_eof h) (ihe.trans ihs)
  case looser =>
    intro least left w op h hp
    rw [suffixes_eq, h]
    simp only [if_neg hp]
    exact .refl w
  case call =>
    intro least left w h hp iha ihs
    rw [suffixes_eq, h]
    simp only [if_pos hp]
    exact .over rfl (Suffix.kind_ne_eof h) (iha.trans ihs)
  case looserCall =>
    intro least left w h hp
    rw [suffixes_eq, h]
    simp only [if_neg hp]
    exact .refl w
  case noArguments =>
    intro w h
    rw [arguments_eq, if_pos h]
    exact .refl _
  case someArguments =>
    intro w h ihe ihm
    rw [arguments_eq, if_neg h]
    have hall : w.advance.Strides ((expression .lowest w.advance).cons
        (moreArguments (expression .lowest w.advance).window)).window := ihe.trans ihm
    exact Reading.strides_closing hall w.current.span []
  case comma =>
    intro w h ihe ihm
    rw [moreArguments_eq, if_pos h]
    exact .over h (by decide) (ihe.trans ihm)
  case noComma =>
    intro w h
    rw [moreArguments_eq, if_neg h]
    exact .refl w

/-! ### Statements stride -/

theorem advanceToSemicolon_strides (w : Window σ) : w.Strides (advanceToSemicolon w).1 := by
  fun_induction advanceToSemicolon w with
  | case1 w h => exact .refl w
  | case2 w h h' => exact .refl w
  | case3 w h h' stop ih => exact .step (not_atEnd_of_current rfl h') ih

theorem binding_strides (w : Window σ) : w.Strides (binding w).1.window := by
  rw [binding_eq]
  split
  · next hname =>
    have hfirst : w.Strides w.advance :=
      .step (not_atEnd_of_peek hname (by decide)) (.refl _)
    split
    · exact .over hname (by decide) (advanceToSemicolon_strides _)
    · exact hfirst
  · exact .refl w

theorem returning_strides {w : Window σ} (hreturn : w.current.kind = .returnWord) :
    w.Strides (returning w).1.window :=
  .step (not_atEnd_of_current hreturn (by decide)) (advanceToSemicolon_strides _)

theorem bareExpression_strides (w : Window σ) : w.Strides (bareExpression w).1.window := by
  have hexpression := readings_stride.1 .lowest w
  rw [bareExpression_eq]
  split
  · next hpeek => exact hexpression.advance (not_atEnd_of_peek hpeek (by decide))
  · exact hexpression

/-- **The reading of a statement strides.** -/
theorem statement_strides (w : Window σ) : w.Strides (statement w).window := by
  by_cases hlet : w.current.kind = .letWord
  · rw [statement_eq_binding hlet]
    exact binding_strides w
  by_cases hreturn : w.current.kind = .returnWord
  · rw [statement_eq_returning hreturn]
    exact returning_strides hreturn
  · rw [statement_eq_bareExpression hlet hreturn]
    exact bareExpression_strides w

end Strides

/-! ### Where a program ends -/

section Ends

variable {σ : Type} [TokenStream σ]

/-- A program ends at an end of input. -/
theorem kind_current_statements (w : Window σ) : (statements w).window.current.kind = .eof := by
  fun_induction statements w with
  | case1 w h => exact h
  | case2 w h first more ih => exact ih

/-- There is no program at an end of input. -/
theorem readProgram_of_current {p : Parser σ} (h : p.window.current.kind = .eof) :
    p.readProgram = (⟨[]⟩, p) := by
  have hnone : statements p.window = .here p.window [] := by
    rw [statements_eq]
    exact if_pos h
  rw [readProgram, hnone]
  simp only [Reading.here, List.append_nil]

/-- **There is no more program after a program.** -/
theorem readProgram_readProgram (p : Parser σ) :
    p.readProgram.2.readProgram = (⟨[]⟩, p.readProgram.2) :=
  readProgram_of_current (kind_current_statements p.window)

end Ends

section Rounds

variable {e : Token} (he : e.kind = .eof)

/-- **The rounds in which a program is read** say where it ends. -/
theorem Rounds.statements_eq {ts rest : List Token} {rounds : List Round}
    (h : Rounds he ts rounds rest) :
    (statements (Window.along he ts)).value = rounds.filterMap Round.statement ∧
      (statements (Window.along he ts)).window = .along he rest := by
  induction h with
  | @done ts hend =>
    rw [Parser.statements_eq, if_pos hend]
    exact ⟨rfl, rfl⟩
  | @round ts later rest rounds hstart hnext _ ih =>
    obtain ⟨hvalue, hwindow⟩ := ih
    rw [Parser.statements_eq, if_neg hstart]
    simp only [hnext, hvalue, hwindow, and_true, List.filterMap_cons]
    cases (statement (Window.along he (ts ++ later))).value <;> rfl

/-- A statement is missing only where a binding is broken. -/
theorem value_statement_ne_none {σ : Type} [TokenStream σ] {w : Window σ}
    (h : w.current.kind ≠ .letWord) : (statement w).value ≠ none := by
  by_cases hreturn : w.current.kind = .returnWord
  · rw [statement_eq_returning hreturn]
    exact Option.some_ne_none _
  · rw [statement_eq_bareExpression h hreturn, bareExpression_eq]
    split <;> exact Option.some_ne_none _

/-- A round without a statement begins with the word for a binding. -/
theorem Rounds.letWord_of_none {ts rest : List Token} {rounds : List Round}
    (h : Rounds he ts rounds rest) : ∀ r ∈ rounds, r.tokens ≠ [] → r.statement = none →
      ∃ t ∈ r.tokens.head?, t.kind = .letWord := by
  induction h with
  | done => simp
  | @round ts later rest rounds hstart hnext _ ih =>
    refine List.forall_mem_cons.2 ⟨?_, ih⟩
    intro hne hnone
    obtain ⟨t, more, rfl⟩ := List.exists_cons_of_ne_nil hne
    by_cases hlet : t.kind = .letWord
    · exact ⟨t, rfl, hlet⟩
    · exact absurd hnone (value_statement_ne_none (w := .along he (t :: more ++ later)) hlet)

/-- Where no token is an end of input, a program goes on to the last of them. -/
theorem Rounds.rest_eq_nil {ts rest : List Token} {rounds : List Round}
    (h : Rounds he ts rounds rest) (hn : ∀ t ∈ ts, t.kind ≠ .eof) : rest = [] := by
  induction h with
  | @done ts hend =>
    cases ts with
    | nil => rfl
    | cons t ts => exact absurd hend (hn t List.mem_cons_self)
  | round _ _ _ ih => exact ih fun t ht => hn t (List.mem_append_right _ ht)

omit e in
/-- There are no more rounds than tokens in them, if there is a token in each. -/
theorem length_le_length_tokens {rounds : List Round} (h : ∀ r ∈ rounds, r.tokens ≠ []) :
    rounds.length ≤ (rounds.flatMap Round.tokens).length := by
  induction rounds with
  | nil => exact Nat.le_refl 0
  | cons r rounds ih =>
    obtain ⟨hr, hrounds⟩ := List.forall_mem_cons.1 h
    have hpos := List.length_pos_iff.2 hr
    have hmore := ih hrounds
    rw [List.flatMap_cons, List.length_append, List.length_cons]
    omega

omit e in
/-- Each round gives a statement, or fails to. -/
theorem length_filterMap_statement (rounds : List Round) :
    (rounds.filterMap Round.statement).length
      + (rounds.filter fun r => r.statement.isNone).length = rounds.length := by
  rw [List.length_filterMap_eq_countP, ← List.countP_eq_length_filter,
    List.length_eq_countP_add_countP fun r : Round => r.statement.isSome]
  exact congrArg _ (List.countP_congr fun r _ => by simp)

/-- Statements and rounds without one are no more than the tokens. -/
theorem Rounds.length_statements_le {ts rest : List Token} {rounds : List Round}
    (h : Rounds he ts rounds rest) (hne : ∀ r ∈ rounds, r.tokens ≠ []) :
    (rounds.filterMap Round.statement).length
      + (rounds.filter fun r => r.statement.isNone).length ≤ ts.length := by
  have htokens := congrArg List.length (h.tokens_eq he)
  have hle := length_le_length_tokens hne
  rw [List.length_append] at htokens
  rw [length_filterMap_statement]
  omega

end Rounds

/-! ### How many tokens are pulled -/

section Pulled

/-- How far a window on `n` tokens is, by the tokens that were counted: these are no longer in the
list, and one is in the window if it is not among the last two.  Once all tokens and one more are
counted, the next token is an end of input, and after another one so is the current token. -/
structure Window.Tallied (n : Nat) (w : Window (Counted Replay)) : Prop where
  /-- The tokens that are left in the list. -/
  left : w.stream.stream.tokens.length = n - w.stream.pulled
  /-- The current token. -/
  current : n + 2 ≤ w.stream.pulled → w.current.kind = .eof
  /-- The token after it. -/
  peek : n + 1 ≤ w.stream.pulled → w.peek.kind = .eof

namespace Window.Tallied

variable {n : Nat} {v w : Window (Counted Replay)}

theorem advance (h : w.Tallied n) : w.advance.Tallied n := by
  obtain ⟨current, peek, ⟨⟨ts, e, he⟩, pulled⟩⟩ := w
  have hleft : ts.length = n - pulled := h.left
  have hcurrent : n + 2 ≤ pulled + 1 → peek.kind = .eof := fun hle => h.peek (by
    show n + 1 ≤ pulled
    omega)
  cases ts with
  | nil =>
    -- what is pulled now is an end of input
    refine ⟨?_, hcurrent, fun _ => he⟩
    show [].length = n - (pulled + 1)
    rw [List.length_nil] at hleft ⊢
    omega
  | cons t ts =>
    rw [List.length_cons] at hleft
    refine ⟨?_, hcurrent, fun hle => ?_⟩
    · show ts.length = n - (pulled + 1)
      omega
    · have hpulled : n + 1 ≤ pulled + 1 := hle
      omega

/-- A window that is not at the end of the input is not far. -/
theorem pulled_le (h : w.Tallied n) (hend : ¬ w.AtEnd) : w.stream.pulled ≤ n + 1 := by
  rcases Nat.lt_or_ge (n + 1) w.stream.pulled with hlt | hle
  · exact absurd ⟨h.current (by omega), h.peek (by omega)⟩ hend
  · exact hle

/-- **Strides lead no further than to the window after the last token.** -/
theorem strides (h : w.Tallied n) (hstrides : w.Strides v) (hle : w.stream.pulled ≤ n + 2) :
    v.Tallied n ∧ v.stream.pulled ≤ n + 2 := by
  induction hstrides with
  | refl => exact ⟨h, hle⟩
  | @step w v hend _ ih =>
    have hpulled := h.pulled_le hend
    exact ih h.advance (Nat.succ_le_succ hpulled)

/-- The first window on a list of tokens. -/
theorem ofStream (r : Replay) :
    (Window.ofStream (⟨r, 0⟩ : Counted Replay)).Tallied r.tokens.length := by
  obtain ⟨ts, e, he⟩ := r
  match ts with
  | [] => exact ⟨rfl, fun _ => he, fun _ => he⟩
  | [t] =>
    refine ⟨rfl, fun hle => ?_, fun _ => he⟩
    have hpulled : 1 + 2 ≤ 2 := hle
    omega
  | t :: u :: ts =>
    refine ⟨rfl, fun hle => ?_, fun hle => ?_⟩
    · have hpulled : ts.length + 2 + 2 ≤ 2 := hle
      omega
    · have hpulled : ts.length + 2 + 1 ≤ 2 := hle
      omega

end Window.Tallied

/-- **The tokens that are pulled for a program**: all there are, and three ends of input at most.
Two of them are in the window at the end.  The third one is pulled if the last statement looks for
something after the last token, and then one step more is made. -/
theorem pulled_statements_le {n : Nat} (w : Window (Counted Replay)) :
    w.Tallied n → w.stream.pulled ≤ n + 3 → (statements w).window.stream.pulled ≤ n + 3 := by
  fun_induction statements w with
  | case1 w h => exact fun _ hle => hle
  | case2 w h first more ih =>
    intro hw _
    have hpulled := hw.pulled_le (Window.not_atEnd_of_current rfl h)
    obtain ⟨hfirst, hle⟩ := hw.strides (statement_strides w) (by omega)
    exact ih hfirst.advance (Nat.succ_le_succ hle)

/-- Counting changes neither the program that is read nor the stream that is left. -/
theorem readProgram_counted {σ : Type} [TokenStream σ] (s : σ) (n : Nat) :
    let counted := (Parser.ofStream (⟨s, n⟩ : Counted σ)).readProgram
    let plain := (Parser.ofStream s).readProgram
    counted.1 = plain.1 ∧ counted.2.errors = plain.2.errors ∧
      counted.2.window.stream.stream = plain.2.window.stream := by
  intro counted plain
  have hstart : (Window.ofStream (⟨s, n⟩ : Counted σ)).Follows id
      (fun (s : σ) (c : Counted σ) => c.stream = s) (Window.ofStream s) :=
    .ofStream Counted.relabels rfl
  obtain ⟨hvalue, herrors, hwindow⟩ := statements_follow Counted.relabels _ _ hstart
  rw [List.map_congr_left fun s _ => s.mapSpan_id, List.map_id'] at hvalue
  rw [List.map_congr_left fun e _ => e.mapSpan_id, List.map_id'] at herrors
  exact ⟨congrArg Program.mk hvalue, congrArg ([] ++ ·) herrors, hwindow.stream⟩

end Pulled

/-! ### Parsing ends -/

/-- What is left in the stream of a window on a list of tokens is the list without two of them. -/
theorem stream_along {e : Token} (he : e.kind = .eof) (ts : List Token) :
    (Window.along he ts).stream = ⟨ts.drop 2, e, he⟩ := by
  match ts with
  | [] => rfl
  | [_] => rfl
  | _ :: _ :: _ => rfl

/-- Where all tokens of a list have been read, further parsers find nothing. -/
theorem nothing_left {r : Replay} {p : Parser Replay} (h : p.window = .along r.kind_eof []) :
    let left := p.window.stream
    left.tokens = [] ∧ p.window.current = r.eof ∧ parse left = (⟨[]⟩, []) ∧
      (Parser.ofStream left).readProgram.2.window.stream = left := by
  intro left
  have hleft : left = ⟨[], r.eof, r.kind_eof⟩ := congrArg Window.stream h
  have hagain : (Parser.ofStream left).readProgram = (⟨[]⟩, Parser.ofStream left) := by
    rw [hleft]
    exact readProgram_of_current r.kind_eof
  refine ⟨congrArg Replay.tokens hleft, congrArg Window.current h, ?_, ?_⟩
  · rw [parse, hagain]
    rfl
  · rw [hagain, hleft]
    rfl

/-- **Parsing always ends, and loses no input.**  A list of tokens, with ends of input among them or
not, is read in rounds.  Each of them passes over a token at least, and gives a statement, or is a
binding that fails; so there are no more of them than tokens.  What is left in the stream is a final
part of the list.  No more than three tokens are pulled beyond the list.  If there is no end of input
in it, then all of it is read, the parser rests on the end of the input, and there is nothing left
for further parsers.  Reading again finds nothing, and changes nothing. -/
theorem readProgram_consumes (r : Replay) :
    let first := (Parser.ofStream r).readProgram
    let counted := (Parser.ofStream (⟨r, 0⟩ : Counted Replay)).readProgram
    let left := first.2.window.stream
    (∃ rounds rest, Rounds r.kind_eof r.tokens rounds rest ∧
      first.1.statements = rounds.filterMap Round.statement ∧
      first.2.window = .along r.kind_eof rest ∧
      (∀ round ∈ rounds, round.tokens ≠ [] ∧
        (round.statement = none → ∃ t ∈ round.tokens.head?, t.kind = .letWord)) ∧
      first.1.statements.length + (rounds.filter fun round => round.statement.isNone).length
        ≤ r.tokens.length) ∧
    left.tokens <:+ r.tokens ∧ left.eof = r.eof ∧
    counted.1 = first.1 ∧ counted.2.window.stream.stream = left ∧
    counted.2.window.stream.pulled ≤ r.tokens.length + 3 ∧
    ((∀ t ∈ r.tokens, t.kind ≠ .eof) →
      left.tokens = [] ∧ first.2.window.current = r.eof ∧
        parse left = (⟨[]⟩, []) ∧ (Parser.ofStream left).readProgram.2.window.stream = left) ∧
    first.2.readProgram = (⟨[]⟩, first.2) := by
  intro first counted left
  obtain ⟨rounds, rest, hrounds, -, hfaithful⟩ := exists_rounds r.kind_eof _ r.tokens rfl
  obtain ⟨hvalue, hwindow⟩ := hrounds.statements_eq
  have hne : ∀ round ∈ rounds, round.tokens ≠ [] :=
    fun round hround => (hfaithful round hround).nonempty
  have hleft : left = ⟨rest.drop 2, r.eof, r.kind_eof⟩ :=
    (congrArg Window.stream hwindow).trans (stream_along r.kind_eof rest)
  obtain ⟨hprogram, -, hstream⟩ := readProgram_counted r 0
  refine ⟨⟨rounds, rest, hrounds, hvalue, hwindow, ?_, ?_⟩, ?_, by rw [hleft], hprogram, hstream, ?_,
    ?_, readProgram_readProgram _⟩
  · exact fun round hround =>
      ⟨hne round hround, hrounds.letWord_of_none r.kind_eof round hround (hne round hround)⟩
  · rw [show first.1.statements = rounds.filterMap Round.statement from hvalue]
    exact hrounds.length_statements_le r.kind_eof hne
  · rw [hleft, hrounds.tokens_eq]
    exact (List.drop_suffix 2 rest).trans (List.suffix_append _ _)
  · exact pulled_statements_le _ (.ofStream r) (show 2 ≤ r.tokens.length + 3 by omega)
  · intro hn
    obtain rfl := hrounds.rest_eq_nil r.kind_eof hn
    exact nothing_left hwindow

/-- Three ends of input are pulled after the word `return`, and nothing is left. -/
theorem readProgram_consumes_return :
    let tokens : List Token := [⟨.returnWord, "return", ⟨0, 6⟩⟩]
    let first := (Parser.ofStream (Replay.ofTokens tokens)).readProgram
    let counted := (Parser.ofStream (⟨.ofTokens tokens, 0⟩ : Counted Replay)).readProgram
    (∀ t ∈ tokens, t.kind ≠ .eof) ∧ first.2.window.stream.tokens = [] ∧
      first.2.window.current = .eof 6 ∧ counted.2.window.stream.pulled = tokens.length + 3 := by
  intro tokens first counted
  have hn : ∀ t ∈ tokens, t.kind ≠ .eof := by decide
  obtain ⟨-, -, -, -, -, -, hends, -⟩ := readProgram_consumes (.ofTokens tokens)
  obtain ⟨hleft, hcurrent, -⟩ := hends hn
  exact ⟨hn, hleft, hcurrent, by decide +kernel⟩

end Sapling
