import Sapling.Parser.Program
import Sapling.Proofs.Unambiguity

/-!
# The parser follows the grammar

On a list of tokens the parser finds no mistake just if the list has a derivation tree, and then the
program it answers is the one that the tree stands for.

Reading a phrase is cut in two at its last token: to read an expression from the first token of a
phrase is to read on after the whole phrase, as after any finished operand (`expression_along`).
Stated like this the induction is on derivations, although the parser does not recurse along left
operands.  In the other direction the induction is on the readings.  What carries it is that the
operand read so far is of a level at which whatever stands next may continue it.

## Main definitions

* `Window.along` — the window on a list of tokens.
* `ReadsExpression`, `ReadsOn`, `ReadsArguments`, `ReadsMore` — what is read without a mistake comes
  from the grammar: an expression, what follows an operand, and arguments.

## Main results

* `expression_along` — the parser reads every phrase.
* `reads_without_errors` — the parser reads nothing but phrases.
* `parse_of_script`, `exists_script_of_parse` — the same for programs.
* `parse_ofTokens_grammar` — the parser decides the grammar, and answers the derived program.
-/

namespace Sapling

open Sapling.Parser

/-! ### Windows on lists of tokens -/

namespace Window

variable {e : Token} (he : e.kind = .eof)

/-- The window on the tokens of a list, and ends of input after them. -/
def along (ts : List Token) : Window Replay := .ofStream ⟨ts, e, he⟩

theorem current_along (ts : List Token) : (along he ts).current = ts.headD e := by
  cases ts <;> rfl

theorem peek_along (t : Token) (ts : List Token) : (along he (t :: ts)).peek = ts.headD e := by
  cases ts <;> rfl

@[simp] theorem current_along_cons (t : Token) (ts : List Token) :
    (along he (t :: ts)).current = t := rfl

@[simp] theorem peek_along_cons (t u : Token) (ts : List Token) :
    (along he (t :: u :: ts)).peek = u := rfl

@[simp] theorem advance_along_cons (t : Token) (ts : List Token) :
    (along he (t :: ts)).advance = along he ts := rfl

include he in
/-- The end of the input continues nothing. -/
theorem suffix_eof : Suffix.ofKind? e.kind = none := by
  rw [he]
  rfl

/-- If the next token continues an operand, it is one of the list. -/
theorem exists_cons_of_suffix {t : Token} {ts : List Token} {s : Suffix}
    (h : Suffix.ofKind? (along he (t :: ts)).peek.kind = some s) :
    ∃ u us, ts = u :: us ∧ Suffix.ofKind? u.kind = some s := by
  cases ts with
  | nil =>
    rw [peek_along, List.headD_nil, suffix_eof he] at h
    cases h
  | cons u us => exact ⟨u, us, rfl, h⟩

/-- If the next token is not an end of input, it is one of the list. -/
theorem exists_cons_of_peek {t : Token} {ts : List Token} {kind : TokenKind} (hk : kind ≠ .eof)
    (h : (along he (t :: ts)).peek.kind = kind) : ∃ u us, ts = u :: us ∧ u.kind = kind := by
  cases ts with
  | nil =>
    rw [peek_along, List.headD_nil, he] at h
    exact absurd h.symm hk
  | cons u us => exact ⟨u, us, rfl, h⟩

end Window

open Window

@[simp] theorem Reading.after_nil {σ α : Type} (r : Reading σ α) : r.after [] = r := rfl

/-! ### Every phrase is read -/

section Complete

variable {e : Token} (he : e.kind = .eof)

theorem Atom.ofToken {t : Token} {v : Expr} (h : Atom t v) : Opening.ofToken t = .operand v := by
  cases h with
  | ident h => rw [Opening.ofToken, h]
  | int h hn => rw [Opening.ofToken, h]; simp only [hn]
  | trueWord h => rw [Opening.ofToken, h]
  | falseWord h => rw [Opening.ofToken, h]

theorem ofToken_leftParen {t : Token} (h : t.kind = .leftParen) : Opening.ofToken t = .group := by
  rw [Opening.ofToken, h]

theorem UnaryOp.ofToken {t : Token} {op : UnaryOp} (h : ofKind? t.kind = some op) :
    Opening.ofToken t = .operator op := by
  have hk : t.kind = .bang ∨ t.kind = .minus := by
    revert h
    cases t.kind <;> simp [ofKind?]
  rcases hk with hk | hk <;> simp_all [Opening.ofToken]

/-- Reading on stops at tokens that do not continue the operand. -/
theorem suffixes_along {least : Precedence} {rest : List Token} (h : Ends least rest)
    (left : Expr) (t : Token) :
    suffixes least left (along he (t :: rest)) = .here (along he (t :: rest)) left := by
  rw [suffixes_eq]
  split
  · rfl
  · next op hs =>
    obtain ⟨u, us, rfl, hu⟩ := exists_cons_of_suffix he hs
    exact if_neg (Precedence.not_lt_of_le (h u rfl _ hu))
  · next hs =>
    obtain ⟨u, us, rfl, hu⟩ := exists_cons_of_suffix he hs
    exact if_neg (Precedence.not_lt_of_le (h u rfl _ hu))

/-- A closing parenthesis ends what was read without a mistake before it. -/
theorem closing_here_along {α : Type} {closing : Token} (hc : closing.kind = .rightParen)
    (opening : Span) (value instead : α) (t : Token) (rest : List Token) :
    Reading.closing opening instead (.here (along he (t :: closing :: rest)) value)
      = .here (along he (closing :: rest)) value :=
  if_pos hc

theorem ends_of_suffix {p : Precedence} {t : Token} {s : Suffix}
    (h : Suffix.ofKind? t.kind = some s) (hp : s.precedence ≤ p) (rest : List Token) :
    Ends p (t :: rest) := by
  intro u hu x hx
  obtain rfl : t = u := by simpa using hu
  obtain rfl : s = x := by simpa [h] using hx
  exact hp

mutual

/-- **Every phrase is read**: to read an expression that begins with the tokens of a phrase is to
read on after them, with the tree of the phrase as the operand so far. -/
theorem expression_along {p least : Precedence} :
    ∀ {d : Phrase}, Derives p d → least < .call → least.right ≤ d.level →
      ∀ {rest : List Token}, Ends d.level rest →
        expression least (along he (d.tokens ++ rest))
          = suffixes least d.tree (along he (d.last :: rest))
  | .operand t v, .operand ha, _, _, rest, _ => by
    rw [expression_eq, Phrase.tokens, List.cons_append, List.nil_append, current_along_cons,
      ha.ofToken]
    rfl
  | .group opening d closing, .group ho hd hc, _, _, rest, _ => by
    have hstop : Stops .lowest (closing :: rest) := stops_of_rightParen hc rest
    have hread : expression .lowest (along he (d.tokens ++ closing :: rest))
        = .here (along he (d.last :: closing :: rest)) d.tree :=
      (expression_along hd (by decide) d.right_lowest_le_level (hd.ends hstop)).trans
        (suffixes_along he hstop.ends _ _)
    rw [expression_eq, Phrase.tokens, List.cons_append, List.append_assoc, current_along_cons,
      ofToken_leftParen ho]
    simp only [advance_along_cons, List.cons_append, List.nil_append, hread,
      closing_here_along he hc]
    rfl
  | .unary t op d, .unary _ ht hd, _, _, rest, hr => by
    have hread : expression .unary (along he (d.tokens ++ rest))
        = .here (along he (d.last :: rest)) d.tree :=
      (expression_along hd (by decide) (show Precedence.unary.right ≤ d.level from hd.le_level)
        (Ends.mono hr hd.le_level)).trans (suffixes_along he hr _ _)
    rw [expression_eq, Phrase.tokens, List.cons_append, current_along_cons, UnaryOp.ofToken ht]
    simp only [advance_along_cons, hread]
    rfl
  | .binary l t op r, .binary _ hl ht hr, hlt, hle, rest, hrest => by
    -- the left operand is read first, and then the operator continues it
    have hnext : Ends l.level (t :: (r.tokens ++ rest)) :=
      ends_of_suffix (suffix_of_binary ht) hl.le_level _
    have hleft := expression_along hl hlt (Precedence.le_trans hle hl.le_level) hnext
    have hop : op.precedence ≤ r.level :=
      Precedence.le_trans (Precedence.le_of_lt op.precedence_lt_right) hr.le_level
    have hright : expression op.precedence (along he (r.tokens ++ rest))
        = .here (along he (r.last :: rest)) r.tree :=
      (expression_along hr op.precedence_lt_call hr.le_level (Ends.mono hrest hop)).trans
        (suffixes_along he hrest _ _)
    rw [Phrase.tokens, List.append_assoc, List.cons_append, hleft, suffixes_eq, peek_along_cons,
      suffix_of_binary ht]
    simp only [advance_along_cons, hright]
    exact if_pos (BinaryOp.right_le_precedence_iff.1 hle)
  | .call f opening args closing, .call hf ho ha hc, hlt, _, rest, _ => by
    have hnext : Ends f.level (opening :: (args.tokens ++ closing :: rest)) :=
      ends_of_suffix (suffix_of_leftParen ho) hf.le_level _
    have hle : least.right ≤ f.level := Precedence.le_trans (Precedence.le_call _) hf.le_level
    have hfun := expression_along hf hlt hle hnext
    have hargs := arguments_along ha hc opening rest
    rw [Phrase.tokens, List.append_assoc, List.cons_append, List.append_assoc, List.cons_append,
      List.nil_append, hfun, suffixes_eq, peek_along_cons, suffix_of_leftParen ho]
    simp only [advance_along_cons, hargs]
    exact if_pos hlt

/-- The arguments of a call are read up to the parenthesis that closes them. -/
theorem arguments_along :
    ∀ {args : Arguments}, DerivesArguments args → ∀ {closing : Token}, closing.kind = .rightParen →
      ∀ (opening : Token) (rest : List Token),
        arguments (along he (opening :: (args.tokens ++ closing :: rest)))
          = ⟨args.trees, [], along he (closing :: rest)⟩
  | .none, .none, closing, hc, opening, rest => by
    rw [arguments_eq, Arguments.tokens, List.nil_append, peek_along_cons, if_pos hc]
    rfl
  | .some d more, .some hd hm, closing, hc, opening, rest => by
    have hstop : Stops .lowest (more.tokens ++ closing :: rest) := hm.stops hc rest
    have hread : expression .lowest (along he (d.tokens ++ (more.tokens ++ closing :: rest)))
        = .here (along he (d.last :: (more.tokens ++ closing :: rest))) d.tree :=
      (expression_along hd (by decide) d.right_lowest_le_level (hd.ends hstop)).trans
        (suffixes_along he hstop.ends _ _)
    have hmore := moreArguments_along hm hc d.last rest
    -- the first argument does not begin with the parenthesis that closes an empty list
    have hfirst : d.first.kind ≠ .rightParen := hd.startsPhrase.ne (by decide)
    obtain ⟨tail, htail⟩ := d.tokens_eq_cons
    rw [arguments_eq, Arguments.tokens, List.append_assoc, if_neg (by rw [htail]; exact hfirst)]
    simp only [advance_along_cons, hread, Reading.here, hmore, Reading.cons]
    exact closing_here_along he hc _ _ _ _ _

/-- Further arguments are read up to the parenthesis that closes them. -/
theorem moreArguments_along :
    ∀ {more : MoreArguments}, DerivesMore more → ∀ {closing : Token}, closing.kind = .rightParen →
      ∀ (t : Token) (rest : List Token),
        moreArguments (along he (t :: (more.tokens ++ closing :: rest)))
          = ⟨more.trees, [], along he (more.last t :: closing :: rest)⟩
  | .nil, .nil, closing, hc, t, rest => by
    rw [moreArguments_eq, MoreArguments.tokens, List.nil_append, peek_along_cons, hc]
    rfl
  | .cons comma d more, .cons hcomma hd hm, closing, hc, t, rest => by
    have hstop : Stops .lowest (more.tokens ++ closing :: rest) := hm.stops hc rest
    have hread : expression .lowest (along he (d.tokens ++ (more.tokens ++ closing :: rest)))
        = .here (along he (d.last :: (more.tokens ++ closing :: rest))) d.tree :=
      (expression_along hd (by decide) d.right_lowest_le_level (hd.ends hstop)).trans
        (suffixes_along he hstop.ends _ _)
    have hmore := moreArguments_along hm hc d.last rest
    rw [moreArguments_eq, MoreArguments.tokens, List.cons_append, List.append_assoc,
      peek_along_cons, if_pos hcomma]
    simp only [advance_along_cons, hread, Reading.here, hmore]
    rfl

end

end Complete

/-! ### Nothing but phrases is read -/

section Sound

variable {e : Token} (he : e.kind = .eof)

/-- An expression was read from a phrase at the beginning of the tokens: its value is the tree of
the phrase, and the window reached is on the last token of the phrase. -/
def ReadsPhrase (least : Precedence) (ts : List Token) (r : Reading Replay Expr) : Prop :=
  ∃ d rest, Derives least.right d ∧ ts = d.tokens ++ rest ∧ r.value = d.tree ∧
    r.window = along he (d.last :: rest) ∧ Ends least rest

theorem atom_of_ofToken {t : Token} {v : Expr} (h : Opening.ofToken t = .operand v) : Atom t v := by
  unfold Opening.ofToken at h
  split at h
  · next hk => cases h; exact .ident hk
  · next hk =>
    split at h
    · next n hn => cases h; exact .int hk hn
    · cases h
  · next hk => cases h; exact .trueWord hk
  · next hk => cases h; exact .falseWord hk
  · cases h
  · split at h <;> cases h

/-- If a window is on a token that an expression can begin with, its list has that token. -/
theorem exists_cons_of_opening {ts : List Token} {o : Opening} (ho : o ≠ .nothing)
    (h : Opening.ofToken (along he ts).current = o) :
    ∃ t rest, ts = t :: rest ∧ Opening.ofToken t = o := by
  cases ts with
  | nil =>
    rw [current_along, List.headD_nil, Opening.ofToken_eof he] at h
    exact absurd h.symm ho
  | cons t rest => exact ⟨t, rest, rfl, h⟩

theorem ends_of_peek {p : Precedence} (t : Token) {rest : List Token}
    (h : ∀ s, Suffix.ofKind? (along he (t :: rest)).peek.kind = some s → s.precedence ≤ p) :
    Ends p rest := by
  intro u hu s hs
  cases rest with
  | nil => simp at hu
  | cons v rest =>
    obtain rfl : v = u := by simpa using hu
    exact h s hs

/-- A closing parenthesis that is not missing is the next token. -/
theorem errors_closing {α : Type} {opening : Span} {instead : α} {r : Reading Replay α}
    (h : (r.closing opening instead).errors = []) :
    r.errors = [] ∧ r.window.peek.kind = .rightParen ∧
      r.closing opening instead = ⟨r.value, [], r.window.advance⟩ := by
  unfold Reading.closing at h ⊢
  split
  · next hk =>
    rw [if_pos hk] at h
    exact ⟨h, hk, by rw [show r.errors = [] from h]⟩
  · next hk =>
    rw [if_neg hk] at h
    simp at h

/-- An expression that is read without a mistake comes from a phrase. -/
def ReadsExpression (least : Precedence) (w : Window Replay) : Prop :=
  ∀ ts, w = along he ts → least < .call → (expression least w).errors = [] →
    ReadsPhrase he least ts (expression least w)

/-- If the parser reads on after an operand without a mistake, the operand and what follows come from a
phrase.  The operand was finished before, and is of a level at which whatever stands next may
continue it. -/
def ReadsOn (least : Precedence) (left : Expr) (w : Window Replay) : Prop :=
  ∀ l rest, w = along he (l.last :: rest) → left = l.tree → least < .call → Derives least.right l →
    Ends l.level rest → (suffixes least left w).errors = [] →
    ReadsPhrase he least (l.tokens ++ rest) (suffixes least left w)

/-- Arguments that are read without a mistake come from arguments in the grammar. -/
def ReadsArguments (w : Window Replay) : Prop :=
  ∀ t ts, w = along he (t :: ts) → (arguments w).errors = [] →
    ∃ args closing rest, DerivesArguments args ∧ closing.kind = .rightParen ∧
      ts = args.tokens ++ closing :: rest ∧ (arguments w).value = args.trees ∧
      (arguments w).window = along he (closing :: rest)

/-- Further arguments that are read without a mistake come from further arguments in the grammar. -/
def ReadsMore (w : Window Replay) : Prop :=
  ∀ t ts, w = along he (t :: ts) → (moreArguments w).errors = [] →
    ∃ more rest, DerivesMore more ∧ ts = more.tokens ++ rest ∧
      (moreArguments w).value = more.trees ∧
      (moreArguments w).window = along he (more.last t :: rest)

variable {he} {least : Precedence} {left : Expr} {w : Window Replay}

namespace ReadsExpression

theorem operand {v : Expr} (h : Opening.ofToken w.current = .operand v)
    (hon : ReadsOn he least v w) : ReadsExpression he least w := by
  rintro ts rfl hlt herr
  obtain ⟨t, rest, rfl, ht⟩ := exists_cons_of_opening he (by simp) h
  rw [expression_eq, h] at herr ⊢
  exact hon (.operand t v) rest rfl rfl hlt (.operand (atom_of_ofToken ht)) (ends_call rest) herr

theorem operator {op : UnaryOp} (h : Opening.ofToken w.current = .operator op)
    (hinner : ReadsExpression he .unary w.advance)
    (hon : ReadsOn he least (.unary w.current op (expression .unary w.advance).value)
      (expression .unary w.advance).window) : ReadsExpression he least w := by
  rintro ts rfl hlt herr
  obtain ⟨t, rest, rfl, ht⟩ := exists_cons_of_opening he (by simp) h
  rw [expression_eq, h] at herr ⊢
  obtain ⟨herr₁, herr₂⟩ := List.append_eq_nil_iff.1 herr
  obtain ⟨d, rest', hd, rfl, hval, hwin, hends⟩ := hinner rest rfl (by decide) herr₁
  -- the operator with its operand is an operand itself, and is read on after
  have hphrase : Derives least.right (.unary t op d) :=
    .unary (Precedence.right_le_unary hlt) (Opening.ofKind_of_operator ht) hd
  have hreads := hon (.unary t op d) rest' hwin (by rw [hval]; rfl) hlt hphrase hends herr₂
  simp only [herr₁, Reading.after_nil]
  exact hreads

theorem group (h : Opening.ofToken w.current = .group)
    (hinner : ReadsExpression he .lowest w.advance)
    (hon : ReadsOn he least ((expression .lowest w.advance).closing w.current.span .hole).value
      ((expression .lowest w.advance).closing w.current.span .hole).window) :
    ReadsExpression he least w := by
  rintro ts rfl hlt herr
  obtain ⟨t, rest, rfl, ht⟩ := exists_cons_of_opening he (by simp) h
  rw [expression_eq, h] at herr ⊢
  obtain ⟨herr₁, herr₂⟩ := List.append_eq_nil_iff.1 herr
  obtain ⟨herr', hclose, hgroup⟩ := errors_closing herr₁
  obtain ⟨d, rest', hd, rfl, hval, hwin, -⟩ := hinner rest rfl (by decide) herr'
  rw [hwin] at hclose
  obtain ⟨closing, rest, rfl, hc⟩ := exists_cons_of_peek he (by decide) hclose
  have hphrase : Derives least.right (.group t d closing) :=
    .group (Opening.leftParen_of_group ht) (hd.mono (by decide)) hc
  have hreads := hon (.group t d closing) rest (by rw [hgroup, hwin]; rfl)
    (by rw [hgroup, hval]; rfl) hlt hphrase (ends_call rest) herr₂
  simp only [herr₁, Reading.after_nil]
  rw [Phrase.tokens, List.cons_append, List.append_assoc] at hreads
  exact hreads

end ReadsExpression

namespace ReadsOn

/-- Nothing continues the operand, so it is the phrase that was read. -/
theorem finished (h : Suffix.ofKind? w.peek.kind = none) : ReadsOn he least left w := by
  rintro l rest rfl rfl _ hl _ _
  rw [suffixes_eq, h]
  refine ⟨l, rest, hl, rfl, rfl, rfl, ends_of_peek he l.last ?_⟩
  intro s hs
  rw [h] at hs
  cases hs

theorem binary {op : BinaryOp} (h : Suffix.ofKind? w.peek.kind = some (.operator op))
    (hp : least < op.precedence) (hinner : ReadsExpression he op.precedence w.advance.advance)
    (hon : ReadsOn he least
      (.binary w.peek left op (expression op.precedence w.advance.advance).value)
      (expression op.precedence w.advance.advance).window) : ReadsOn he least left w := by
  rintro l rest rfl rfl hlt hl hends herr
  obtain ⟨t, rest, rfl, ht⟩ := exists_cons_of_suffix he h
  rw [suffixes_eq, h] at herr ⊢
  simp only [if_pos hp] at herr ⊢
  obtain ⟨herr₁, herr₂⟩ := List.append_eq_nil_iff.1 herr
  obtain ⟨r, rest', hr, rfl, hval, hwin, hends'⟩ := hinner rest rfl op.precedence_lt_call herr₁
  -- the operand so far binds at least as tightly as the operator that continues it
  have hphrase : Derives least.right (.binary l t op r) :=
    .binary (BinaryOp.right_le_precedence_iff.2 hp) (hl.of_le_level (hends t rfl _ ht))
      (Suffix.ofKind_of_operator ht) hr
  have hreads := hon (.binary l t op r) rest' hwin (by rw [hval]; rfl) hlt hphrase hends' herr₂
  simp only [herr₁, Reading.after_nil]
  rw [Phrase.tokens, List.append_assoc, List.cons_append] at hreads
  exact hreads

/-- The operator is left to the context. -/
theorem looser {op : BinaryOp} (h : Suffix.ofKind? w.peek.kind = some (.operator op))
    (hp : ¬ least < op.precedence) : ReadsOn he least left w := by
  rintro l rest rfl rfl _ hl _ _
  rw [suffixes_eq, h]
  simp only [if_neg hp]
  refine ⟨l, rest, hl, rfl, rfl, rfl, ends_of_peek he l.last ?_⟩
  intro s hs
  rw [h] at hs
  cases hs
  exact Precedence.le_of_not_lt hp

theorem call (h : Suffix.ofKind? w.peek.kind = some .call) (hp : least < .call)
    (hinner : ReadsArguments he w.advance)
    (hon : ReadsOn he least (.call w.peek left (arguments w.advance).value)
      (arguments w.advance).window) : ReadsOn he least left w := by
  rintro l rest rfl rfl hlt hl hends herr
  obtain ⟨t, rest, rfl, ht⟩ := exists_cons_of_suffix he h
  rw [suffixes_eq, h] at herr ⊢
  simp only [if_pos hp] at herr ⊢
  obtain ⟨herr₁, herr₂⟩ := List.append_eq_nil_iff.1 herr
  obtain ⟨args, closing, rest', hargs, hc, rfl, hval, hwin⟩ := hinner t rest rfl herr₁
  have hphrase : Derives least.right (.call l t args closing) :=
    .call (hl.of_le_level (hends t rfl _ ht)) (Suffix.leftParen_of_call ht) hargs hc
  have hreads := hon (.call l t args closing) rest' hwin (by rw [hval]; rfl) hlt hphrase
    (ends_call rest') herr₂
  simp only [herr₁, Reading.after_nil]
  rw [Phrase.tokens, List.append_assoc, List.cons_append, List.append_assoc] at hreads
  exact hreads

end ReadsOn

namespace ReadsArguments

theorem none (h : w.peek.kind = .rightParen) : ReadsArguments he w := by
  rintro t ts rfl herr
  obtain ⟨closing, rest, rfl, hc⟩ := exists_cons_of_peek he (by decide) h
  rw [arguments_eq, if_pos h]
  exact ⟨.none, closing, rest, .none, hc, rfl, rfl, rfl⟩

theorem some (h : w.peek.kind ≠ .rightParen) (hfirst : ReadsExpression he .lowest w.advance)
    (hmore : ReadsMore he (expression .lowest w.advance).window) : ReadsArguments he w := by
  rintro t ts rfl herr
  rw [arguments_eq, if_neg h] at herr ⊢
  obtain ⟨herr', hclose, hcall⟩ := errors_closing herr
  obtain ⟨herr₁, herr₂⟩ := List.append_eq_nil_iff.1 herr'
  obtain ⟨d, rest', hd, rfl, hval, hwin, -⟩ := hfirst ts rfl (by decide) herr₁
  obtain ⟨more, rest, hm, rfl, hvals, hwin'⟩ := hmore d.last rest' hwin herr₂
  rw [Reading.cons, hwin'] at hclose
  obtain ⟨closing, rest, rfl, hc⟩ := exists_cons_of_peek he (by decide) hclose
  refine ⟨.some d more, closing, rest, .some (hd.mono (by decide)) hm, hc, ?_, ?_, ?_⟩
  · rw [Arguments.tokens, List.append_assoc]
  · rw [hcall]
    exact congrArg₂ List.cons hval hvals
  · rw [hcall]
    exact congrArg Window.advance hwin'

end ReadsArguments

namespace ReadsMore

theorem nil (h : w.peek.kind ≠ .comma) : ReadsMore he w := by
  rintro t ts rfl herr
  rw [moreArguments_eq, if_neg h]
  exact ⟨.nil, ts, .nil, rfl, rfl, rfl⟩

theorem cons (h : w.peek.kind = .comma) (hnext : ReadsExpression he .lowest w.advance.advance)
    (hmore : ReadsMore he (expression .lowest w.advance.advance).window) : ReadsMore he w := by
  rintro t ts rfl herr
  obtain ⟨comma, ts, rfl, hcomma⟩ := exists_cons_of_peek he (by decide) h
  rw [moreArguments_eq, if_pos h] at herr ⊢
  obtain ⟨herr₁, herr₂⟩ := List.append_eq_nil_iff.1 herr
  obtain ⟨d, rest', hd, rfl, hval, hwin, -⟩ := hnext ts rfl (by decide) herr₁
  obtain ⟨more, rest, hm, rfl, hvals, hwin'⟩ := hmore d.last rest' hwin herr₂
  refine ⟨.cons comma d more, rest, .cons hcomma (hd.mono (by decide)) hm, ?_,
    congrArg₂ List.cons hval hvals, hwin'⟩
  rw [MoreArguments.tokens, List.cons_append, List.append_assoc]

end ReadsMore

/-- **Nothing but phrases is read without a mistake.** -/
theorem reads_without_errors (he : e.kind = .eof) :
    (∀ least w, ReadsExpression he least w) ∧ (∀ least left w, ReadsOn he least left w) ∧
      (∀ w, ReadsArguments he w) ∧ ∀ w, ReadsMore he w := by
  apply readings_induction
  case nothing =>
    intro least w h ts _ _ herr
    rw [expression_eq, h] at herr
    cases herr
  case invalid =>
    intro least w h _ ts _ _ herr
    rw [expression_eq, h] at herr
    cases herr
  case operand => exact fun _ _ _ h hon => .operand h hon
  case operator => exact fun _ _ _ h hinner hon => .operator h hinner hon
  case group => exact fun _ _ h hinner hon => .group h hinner hon
  case finished => exact fun _ _ _ h => .finished h
  case binary => exact fun _ _ _ _ h hp hinner hon => .binary h hp hinner hon
  case looser => exact fun _ _ _ _ h hp => .looser h hp
  case call => exact fun _ _ _ h hp hinner hon => .call h hp hinner hon
  case looserCall =>
    -- no context binds as tightly as a call
    intro least left w _ hp l rest _ _ hlt
    exact absurd hlt hp
  case noArguments => exact fun _ h => .none h
  case someArguments => exact fun _ h hfirst hmore => .some h hfirst hmore
  case comma => exact fun _ h hnext hmore => .cons h hnext hmore
  case noComma => exact fun _ h => .nil h

end Sound

/-! ### Statements -/

theorem Ends.suffix_eq_none {t : Token} {rest : List Token} (h : Ends .lowest (t :: rest)) :
    t.kind ≠ .leftParen ∧ BinaryOp.ofKind? t.kind = none := by
  constructor
  · intro hk
    exact absurd (h t rfl .call (suffix_of_leftParen hk)) (by decide)
  · cases hop : BinaryOp.ofKind? t.kind with
    | none => rfl
    | some op =>
      have hle : op.precedence ≤ .lowest := h t rfl (.operator op) (suffix_of_binary hop)
      exact absurd hle (by cases op <;> decide)

section Programs

variable {e : Token} (he : e.kind = .eof)

/-- What is passed over ends at a semicolon or at the end of the input. -/
theorem advanceToSemicolon_along {stop : Option Token} {rest : List Token}
    (hstop : ∀ t ∈ stop, t.kind = .semicolon) (hrest : stop = none → rest = []) :
    ∀ {skipped : List Token}, (∀ t ∈ skipped, t.kind ≠ .semicolon) →
      (∀ t ∈ skipped, t.kind ≠ .eof) →
      (advanceToSemicolon (along he (skipped ++ (stop.toList ++ rest)))).1
        = along he (stop.toList ++ rest) := by
  intro skipped
  induction skipped with
  | nil =>
    intro _ _
    rw [List.nil_append, advanceToSemicolon_eq]
    cases stop with
    | some t => exact if_pos (hstop t rfl)
    | none =>
      rw [hrest rfl]
      simp [current_along, he]
  | cons t skipped ih =>
    intro hk hn
    rw [List.cons_append, advanceToSemicolon_eq, current_along_cons, if_neg (hk t (by simp)),
      if_neg (hn t (by simp)), advance_along_cons]
    exact ih (fun u hu => hk u (by simp [hu])) (fun u hu => hn u (by simp [hu]))

/-- All tokens are passed over up to a semicolon, or to the end of the input. -/
theorem exists_skipped : ∀ ts : List Token, ∃ skipped stop rest,
    ts = skipped ++ (Option.toList stop ++ rest) ∧ (∀ t ∈ skipped, t.kind ≠ .semicolon) ∧
      (∀ t ∈ stop, t.kind = .semicolon) ∧ (stop = none → rest = []) := by
  intro ts
  induction ts with
  | nil => exact ⟨[], none, [], rfl, by simp, by simp, fun _ => rfl⟩
  | cons t ts ih =>
    by_cases ht : t.kind = .semicolon
    · exact ⟨[], some t, ts, rfl, by simp, by simpa using ht, by simp⟩
    · obtain ⟨skipped, stop, rest, rfl, hk, hstop, hrest⟩ := ih
      exact ⟨t :: skipped, stop, rest, rfl, by simpa using ⟨ht, hk⟩, hstop, hrest⟩

/-- A semicolon at the beginning of some tokens may be set apart. -/
theorem exists_stop : ∀ ts : List Token, ∃ stop rest, ts = Option.toList stop ++ rest ∧
    (∀ t ∈ stop, t.kind = .semicolon) ∧
      (stop = none → ∀ t ∈ rest.head?, t.kind ≠ .semicolon) := by
  intro ts
  cases ts with
  | nil => exact ⟨none, [], rfl, by simp, by simp⟩
  | cons t ts =>
    by_cases ht : t.kind = .semicolon
    · exact ⟨some t, ts, rfl, by simpa using ht, by simp⟩
    · exact ⟨none, t :: ts, rfl, by simp, by simpa using ht⟩

/-- A step off what ends a statement leads to the tokens after it. -/
theorem advance_along_stop {stop : Option Token} {rest : List Token}
    (hrest : stop = none → rest = []) :
    (along he (stop.toList ++ rest)).advance = along he rest := by
  cases stop with
  | some t => rfl
  | none => rw [hrest rfl]; rfl

theorem binding_along {t name assign : Token} {skipped : List Token} {stop : Option Token}
    {rest : List Token} (hname : name.kind = .ident) (hassign : assign.kind = .assign)
    (hk : ∀ t ∈ skipped, t.kind ≠ .semicolon) (hn : ∀ t ∈ skipped, t.kind ≠ .eof)
    (hstop : ∀ t ∈ stop, t.kind = .semicolon) (hrest : stop = none → rest = []) :
    (binding (along he (t :: name :: assign :: (skipped ++ (stop.toList ++ rest))))).1
      = ⟨some (.binding t ⟨name, name.literal⟩ .hole), [], along he (stop.toList ++ rest)⟩ := by
  have hskip : (advanceToSemicolon (along he (assign :: (skipped ++ (stop.toList ++ rest))))).1
      = along he (stop.toList ++ rest) := by
    have hk' : ∀ t ∈ assign :: skipped, t.kind ≠ .semicolon := by simpa [hassign] using hk
    have hn' : ∀ t ∈ assign :: skipped, t.kind ≠ .eof := by simpa [hassign] using hn
    exact advanceToSemicolon_along he hstop hrest hk' hn'
  rw [binding_eq, peek_along_cons, if_pos hname, advance_along_cons, peek_along_cons,
    if_pos hassign, advance_along_cons, hskip]
  rfl

theorem returning_along {t : Token} {skipped : List Token} {stop : Option Token}
    {rest : List Token} (hk : ∀ t ∈ skipped, t.kind ≠ .semicolon)
    (hn : ∀ t ∈ skipped, t.kind ≠ .eof) (hstop : ∀ t ∈ stop, t.kind = .semicolon)
    (hrest : stop = none → rest = []) :
    (returning (along he (t :: (skipped ++ (stop.toList ++ rest))))).1
      = ⟨some (.returning t .hole), [], along he (stop.toList ++ rest)⟩ := by
  unfold returning
  simp only [advance_along_cons, current_along_cons, Reading.here,
    advanceToSemicolon_along he hstop hrest hk hn]

/-- After an expression a semicolon is passed over. -/
theorem bareExpression_along {ts : List Token} {value : Expr} {t : Token} {stop : Option Token}
    {rest : List Token} (hstop : ∀ t ∈ stop, t.kind = .semicolon)
    (hsemi : stop = none → ∀ t ∈ rest.head?, t.kind ≠ .semicolon)
    (h : expression .lowest (along he ts) = .here (along he (t :: (stop.toList ++ rest))) value) :
    ∃ w, (bareExpression (along he ts)).1
        = ⟨some (.expression (along he ts).current value), [], w⟩ ∧ w.advance = along he rest := by
  rw [bareExpression_eq, h]
  cases stop with
  | some semi => exact ⟨_, if_pos (hstop semi rfl), rfl⟩
  | none =>
    have hpeek : (along he (t :: rest)).peek.kind ≠ .semicolon := by
      cases rest with
      | nil =>
        rw [peek_along, List.headD_nil, he]
        decide
      | cons u rest => exact hsemi rfl u rfl
    exact ⟨_, if_neg hpeek, rfl⟩

/-- **Every statement is read**, up to the tokens after it. -/
theorem statement_along {c : Clause} (hc : c.WellFormed) {rest : List Token}
    (hend : c.stop = none → c.MayPrecede rest)
    (hsemi : c.stop = none → ∀ t ∈ rest.head?, t.kind ≠ .semicolon)
    (hn : ∀ t ∈ c.tokens, t.kind ≠ .eof) :
    ∃ w, statement (along he (c.tokens ++ rest)) = ⟨some c.statement, [], w⟩ ∧
      w.advance = along he rest := by
  cases c with
  | binding t name assign skipped stop =>
    obtain ⟨ht, hname, hassign, hk, hstop⟩ := hc
    have hn' : ∀ u ∈ skipped, u.kind ≠ .eof := fun u hu => hn u (by simp [Clause.tokens, hu])
    refine ⟨along he (stop.toList ++ rest), ?_, advance_along_stop he hend⟩
    rw [Clause.tokens, List.cons_append, List.cons_append, List.cons_append, List.append_assoc,
      statement_eq_binding ht, binding_along he hname hassign hk hn' hstop hend]
    rfl
  | returning t skipped stop =>
    obtain ⟨ht, hk, hstop⟩ := hc
    have hn' : ∀ u ∈ skipped, u.kind ≠ .eof := fun u hu => hn u (by simp [Clause.tokens, hu])
    refine ⟨along he (stop.toList ++ rest), ?_, advance_along_stop he hend⟩
    rw [Clause.tokens, List.cons_append, List.append_assoc, statement_eq_returning ht,
      returning_along he hk hn' hstop hend]
    rfl
  | expression d stop =>
    obtain ⟨hd, hstop⟩ := hc
    have hstops : Stops .lowest (stop.toList ++ rest) := Clause.stops_expression hstop hend
    have hread : expression .lowest (along he (d.tokens ++ (stop.toList ++ rest)))
        = .here (along he (d.last :: (stop.toList ++ rest))) d.tree :=
      (expression_along he hd (by decide) d.right_lowest_le_level (hd.ends hstops)).trans
        (suffixes_along he hstops.ends _ _)
    obtain ⟨w, hw, hadv⟩ := bareExpression_along he hstop hsemi hread
    obtain ⟨more, hmore⟩ := d.tokens_eq_cons
    have hfirst : (along he (d.tokens ++ (stop.toList ++ rest))).current = d.first := by
      rw [hmore]
      rfl
    have hlet : d.first.kind ≠ .letWord := hd.startsPhrase.ne (by decide)
    have hreturn : d.first.kind ≠ .returnWord := hd.startsPhrase.ne (by decide)
    refine ⟨w, ?_, hadv⟩
    rw [Clause.tokens, List.append_assoc,
      statement_eq_bareExpression (by rwa [hfirst]) (by rwa [hfirst]), hw, hfirst]
    rfl

/-- A statement was read from a statement of the grammar at the beginning of the tokens, and a step
leads to the tokens after it. -/
def ReadsClause (ts : List Token) (r : Reading Replay (Option Statement)) : Prop :=
  ∃ (c : Clause) (rest : List Token), c.WellFormed ∧ (c.stop = none → c.MayPrecede rest) ∧
    ts = c.tokens ++ rest ∧ r.value = some c.statement ∧ r.window.advance = along he rest

theorem binding_readsClause {t : Token} {more : List Token} (ht : t.kind = .letWord)
    (hn : ∀ u ∈ more, u.kind ≠ .eof) (herr : (binding (along he (t :: more))).1.errors = []) :
    ReadsClause he (t :: more) (binding (along he (t :: more))).1 := by
  rw [binding_eq] at herr
  split at herr
  case isFalse => simp [Reading.mistake] at herr
  case isTrue hname =>
  obtain ⟨name, more, rfl, hident⟩ := exists_cons_of_peek he (by decide) hname
  split at herr
  case isFalse => simp [Reading.mistake] at herr
  case isTrue hassign =>
  rw [advance_along_cons] at hassign
  obtain ⟨assign, more, rfl, hequals⟩ := exists_cons_of_peek he (by decide) hassign
  obtain ⟨skipped, stop, rest, rfl, hk, hstop, hrest⟩ := exists_skipped more
  rw [binding_along he hident hequals hk (fun u hu => hn u (by simp [hu])) hstop hrest]
  refine ⟨.binding t name assign skipped stop, rest, ⟨ht, hident, hequals, hk, hstop⟩, hrest,
    ?_, rfl, advance_along_stop he hrest⟩
  simp [Clause.tokens]

theorem returning_readsClause {t : Token} {more : List Token} (ht : t.kind = .returnWord)
    (hn : ∀ u ∈ more, u.kind ≠ .eof) :
    ReadsClause he (t :: more) (returning (along he (t :: more))).1 := by
  obtain ⟨skipped, stop, rest, rfl, hk, hstop, hrest⟩ := exists_skipped more
  rw [returning_along he hk (fun u hu => hn u (by simp [hu])) hstop hrest]
  refine ⟨.returning t skipped stop, rest, ⟨ht, hk, hstop⟩, hrest, ?_, rfl,
    advance_along_stop he hrest⟩
  simp [Clause.tokens]

theorem bareExpression_readsClause {t : Token} {more : List Token}
    (herr : (bareExpression (along he (t :: more))).1.errors = []) :
    ReadsClause he (t :: more) (bareExpression (along he (t :: more))).1 := by
  have herr' : (expression .lowest (along he (t :: more))).errors = [] := by
    rw [bareExpression_eq] at herr
    split at herr <;> exact herr
  obtain ⟨d, rest, hd, htokens, hval, hwin, hends⟩ :=
    (reads_without_errors he).1 .lowest _ (t :: more) rfl (by decide) herr'
  have hread : expression .lowest (along he (t :: more))
      = .here (along he (d.last :: rest)) d.tree := by
    rw [Reading.here, ← hval, ← hwin, ← herr']
  have hfirst : t = d.first := by
    obtain ⟨tail, htail⟩ := d.tokens_eq_cons
    rw [htail, List.cons_append] at htokens
    exact (List.cons.inj htokens).1
  obtain ⟨stop, rest, rfl, hstop, hsemi⟩ := exists_stop rest
  obtain ⟨w, hw, hadv⟩ := bareExpression_along he hstop hsemi hread
  rw [hw]
  refine ⟨.expression d stop, rest, ⟨hd.mono (by decide), hstop⟩, ?_, ?_, ?_, hadv⟩
  · -- what would continue the expression was read as a part of it
    rintro rfl u hu
    obtain ⟨later, rfl⟩ := List.head?_eq_some_iff.1 hu
    exact hends.suffix_eq_none
  · rw [htokens, Clause.tokens, List.append_assoc]
  · rw [Clause.statement, ← hfirst, current_along_cons]

/-- **Nothing but statements is read without a mistake.** -/
theorem statement_readsClause {ts : List Token} (hne : ts ≠ []) (hn : ∀ t ∈ ts, t.kind ≠ .eof)
    (herr : (statement (along he ts)).errors = []) :
    ReadsClause he ts (statement (along he ts)) := by
  obtain ⟨t, more, rfl⟩ := List.exists_cons_of_ne_nil hne
  have hmore : ∀ u ∈ more, u.kind ≠ .eof := fun u hu => hn u (List.mem_cons_of_mem _ hu)
  by_cases hlet : t.kind = .letWord
  · rw [statement_eq_binding hlet] at herr ⊢
    exact binding_readsClause he hlet hmore herr
  by_cases hret : t.kind = .returnWord
  · rw [statement_eq_returning hret]
    exact returning_readsClause he hret hmore
  · rw [statement_eq_bareExpression hlet hret] at herr ⊢
    exact bareExpression_readsClause he herr

/-- What may follow a program.  If no semicolon ends its last statement, it may follow this
statement, and does not begin with the semicolon that is missing. -/
def Script.MayPrecede (s : Script) (later : List Token) : Prop :=
  ∀ c ∈ s.getLast?, c.stop = none →
    c.MayPrecede later ∧ ∀ t ∈ later.head?, t.kind ≠ .semicolon

/-- What follows a statement is judged by how it begins. -/
theorem Clause.MayPrecede.append {c : Clause} {later : List Token} (h : c.MayPrecede later)
    (hne : later ≠ []) (us : List Token) : c.MayPrecede (later ++ us) := by
  cases c with
  | binding => exact absurd h hne
  | returning => exact absurd h hne
  | expression =>
    obtain ⟨t, more, rfl⟩ := List.exists_cons_of_ne_nil hne
    exact h

/-- Nothing may follow every program. -/
theorem Script.mayPrecede_nil (s : Script) : s.MayPrecede [] := by
  intro c _ _
  refine ⟨?_, by simp⟩
  cases c with
  | binding => rfl
  | returning => rfl
  | expression => simp [Clause.MayPrecede]

/-- Each statement of a program ends where the next one begins, and the last where what follows the
program begins. -/
theorem Script.MayPrecede.of_cons {c : Clause} {later : Script} {us : List Token}
    (hs : Script.WellFormed (c :: later)) (h : Script.MayPrecede (c :: later) us) :
    (c.stop = none → c.MayPrecede (later.tokens ++ us) ∧
        ∀ t ∈ (later.tokens ++ us).head?, t.kind ≠ .semicolon) ∧
      later.MayPrecede us := by
  obtain ⟨-, hend, hlater⟩ := hs
  cases later with
  | nil => exact ⟨h c rfl, by simp [Script.MayPrecede]⟩
  | cons c' later =>
    obtain ⟨more, hmore⟩ : ∃ more, Script.tokens (c' :: later) = c'.first :: more := by
      obtain ⟨more, hmore⟩ := c'.tokens_eq_cons
      exact ⟨more ++ Script.tokens later, by rw [Script.tokens_cons, hmore, List.cons_append]⟩
    have hend : c.stop = none → c.MayPrecede (Script.tokens (c' :: later)) := hend
    have hsemi := Script.WellFormed.head_ne_semicolon hlater
    rw [hmore] at hend hsemi ⊢
    refine ⟨fun hstop => ⟨(hend hstop).append (List.cons_ne_nil _ _) us, hsemi⟩, fun d hd => h d ?_⟩
    rwa [List.getLast?_cons_cons]

/-- **Every program is read**, and what follows it is read as if it were alone. -/
theorem statements_along_append : ∀ {s : Script} {us : List Token}, s.WellFormed →
    s.MayPrecede us → (∀ t ∈ s.tokens, t.kind ≠ .eof) →
      (statements (along he (s.tokens ++ us))).value
          = s.map Clause.statement ++ (statements (along he us)).value ∧
        (statements (along he (s.tokens ++ us))).errors = (statements (along he us)).errors := by
  intro s us
  induction s with
  | nil => exact fun _ _ _ => ⟨rfl, rfl⟩
  | cons c later ih =>
    intro hs hjoin hn
    obtain ⟨hend, hjoin⟩ := hjoin.of_cons hs
    obtain ⟨hc, -, hlater⟩ := hs
    rw [Script.tokens_cons] at hn ⊢
    rw [List.append_assoc]
    obtain ⟨w, hw, hadv⟩ := statement_along he hc (fun hstop => (hend hstop).1)
      (fun hstop => (hend hstop).2) (fun t ht => hn t (List.mem_append_left _ ht))
    obtain ⟨more, hmore⟩ := c.tokens_eq_cons
    have hfirst : (along he (c.tokens ++ (Script.tokens later ++ us))).current.kind ≠ .eof := by
      rw [hmore]
      exact hn c.first (by simp [hmore])
    obtain ⟨hval, herr⟩ := ih hlater hjoin fun t ht => hn t (List.mem_append_right _ ht)
    rw [statements_eq, if_neg hfirst]
    simp only [hw, hadv, hval, herr]
    exact ⟨rfl, rfl⟩

/-- Every program is read, if nothing follows it. -/
theorem statements_along {s : Script} (hs : s.WellFormed) (hn : ∀ t ∈ s.tokens, t.kind ≠ .eof) :
    (statements (along he s.tokens)).value = s.map Clause.statement ∧
      (statements (along he s.tokens)).errors = [] := by
  obtain ⟨hval, herr⟩ := statements_along_append he hs s.mayPrecede_nil hn
  rw [statements_eq (along he []), if_pos (by simp [current_along, he])] at hval herr
  rw [List.append_nil] at hval herr
  exact ⟨hval.trans (List.append_nil _), herr⟩

/-- **Nothing but programs is read without a mistake.**  The induction is on the number of tokens: a
statement takes at least one. -/
theorem exists_script_of_statements : ∀ (n : Nat) {ts : List Token}, ts.length ≤ n →
    (∀ t ∈ ts, t.kind ≠ .eof) → (statements (along he ts)).errors = [] →
      ∃ s : Script, s.WellFormed ∧ s.tokens = ts := by
  intro n
  induction n with
  | zero =>
    intro ts hlen _ _
    obtain rfl := List.length_eq_zero_iff.1 (Nat.le_zero.1 hlen)
    exact ⟨[], trivial, rfl⟩
  | succ n ih =>
    intro ts hlen hn herr
    cases hts : ts with
    | nil => exact ⟨[], trivial, rfl⟩
    | cons t more =>
      have hne : ts ≠ [] := by simp [hts]
      have hfirst : (along he ts).current.kind ≠ .eof := by
        rw [hts]
        exact hn t (by simp [hts])
      rw [statements_eq, if_neg hfirst] at herr
      obtain ⟨herr₁, herr₂⟩ := List.append_eq_nil_iff.1 herr
      obtain ⟨c, rest, hc, hend, htokens, -, hadv⟩ := statement_readsClause he hne hn herr₁
      obtain ⟨us, hcons⟩ := c.tokens_eq_cons
      rw [hadv] at herr₂
      -- the statement has at least its first token, so fewer are left
      have hshort : rest.length ≤ n := by
        have hlength := congrArg List.length htokens
        rw [List.length_append, hcons, List.length_cons] at hlength
        omega
      obtain ⟨later, hlater, rfl⟩ := ih hshort
        (fun v hv => hn v (htokens ▸ List.mem_append_right _ hv)) herr₂
      exact ⟨c :: later, ⟨hc, hend, hlater⟩, by rw [Script.tokens_cons, ← htokens, hts]⟩

/-- **Every program is parsed** as what is meant, and without mistakes. -/
theorem parse_of_script {s : Script} (hs : s.WellFormed) (hn : ∀ t ∈ s.tokens, t.kind ≠ .eof) :
    parse (⟨s.tokens, e, he⟩ : Replay) = (s.program, []) := by
  obtain ⟨hvalue, herrors⟩ := statements_along he hs hn
  exact Prod.ext (congrArg Program.mk hvalue) herrors

/-- **Nothing but programs is parsed without mistakes.** -/
theorem exists_script_of_parse {ts : List Token} (hn : ∀ t ∈ ts, t.kind ≠ .eof)
    (h : (parse (⟨ts, e, he⟩ : Replay)).2 = []) : ∃ s : Script, s.WellFormed ∧ s.tokens = ts :=
  exists_script_of_statements he ts.length (Nat.le_refl _) hn h

end Programs

/-! ### The parser decides the grammar -/

/-- **The parser decides the grammar.**  On tokens without an end of input among them it finds no
mistake just if they have a derivation tree.  That tree is the only one, and the program answered is
the one that it stands for. -/
theorem parse_ofTokens_grammar (ts : List Token) (hts : ∀ t ∈ ts, t.kind ≠ .eof) :
    ((parse (Replay.ofTokens ts)).2 = [] ↔ ∃ s : Script, s.WellFormed ∧ s.tokens = ts) ∧
      ∀ s : Script, s.WellFormed → s.tokens = ts →
        (parse (Replay.ofTokens ts)).1 = s.program ∧
          ∀ s' : Script, s'.WellFormed → s'.tokens = ts → s' = s := by
  refine ⟨⟨exists_script_of_parse _ hts, ?_⟩, ?_⟩
  · rintro ⟨s, hs, rfl⟩
    exact congrArg Prod.snd (parse_of_script _ hs hts)
  · rintro s hs rfl
    refine ⟨congrArg Prod.fst (parse_of_script _ hs hts), ?_⟩
    intro s' hs' htokens
    exact Script.tokens_injective hs' hs htokens

/-- The tokens of `-a + f(b)`, which are read as a sum, whose left operand is `-a`. -/
theorem parse_ofTokens_grammar_sum :
    let minus : Token := ⟨.minus, "-", ⟨0, 1⟩⟩
    let a : Token := ⟨.ident, "a", ⟨1, 2⟩⟩
    let plus : Token := ⟨.plus, "+", ⟨3, 4⟩⟩
    let f : Token := ⟨.ident, "f", ⟨5, 6⟩⟩
    let opening : Token := ⟨.leftParen, "(", ⟨6, 7⟩⟩
    let b : Token := ⟨.ident, "b", ⟨7, 8⟩⟩
    let closing : Token := ⟨.rightParen, ")", ⟨8, 9⟩⟩
    let ts := [minus, a, plus, f, opening, b, closing]
    (∀ t ∈ ts, t.kind ≠ .eof) ∧
      parse (Replay.ofTokens ts) =
        (⟨[.expression minus (.binary plus (.unary minus .negate (.ident ⟨a, "a"⟩)) .add
          (.call opening (.ident ⟨f, "f"⟩) [.ident ⟨b, "b"⟩]))]⟩, []) := by
  intro minus a plus f opening b closing ts
  have hts : ∀ t ∈ ts, t.kind ≠ .eof := by decide
  let atom (t : Token) : Phrase := .operand t (.ident ⟨t, t.literal⟩)
  have hatom {p : Precedence} {t : Token} (h : t.kind = .ident) : Derives p (atom t) :=
    .operand (.ident h)
  let d : Phrase := .binary (.unary minus .negate (atom a)) plus .add
    (.call (atom f) opening (.some (atom b) .nil) closing)
  have hd : Derives .lowest d :=
    .binary (by decide) (.unary (by decide) rfl (hatom rfl)) rfl
      (.call (hatom rfl) rfl (.some (hatom rfl) .nil) rfl)
  let s : Script := [.expression d none]
  have hs : s.WellFormed := ⟨⟨hd, by simp⟩, fun _ => by simp [Clause.MayPrecede], trivial⟩
  obtain ⟨hiff, htree⟩ := parse_ofTokens_grammar ts hts
  exact ⟨hts, Prod.ext (htree s hs rfl).1 (hiff.2 ⟨s, hs, rfl⟩)⟩

end Sapling
