import Sapling.Proofs.ErrorDiagnostics

/-!
# The order of errors

Errors are found at the current token and at the one after it, and readings that go wrong do not
move on.  Still they come in the order of the text, and none comes twice.  The current token gives
an error at most once, when an operand is read from it.  The token after it gives one for each
parenthesis that should have been closed before it, the innermost first, and these are opened at
different places.

The order is that of the first bytes of tokens.  These grow along a text, until its end comes again
and again.

## Main definitions

* `Window.Ascends` — the tokens of a window, and those to come, stand in their order.
* `SyntaxError.Occurs lo v e` — the error `e` can have been found on the way to a window.
* `SyntaxError.Precedes` — one error before another.
* `Orderly lo es v` — the errors `es` can have been found on the way, one before the other.

## Main results

* `Orderly.append`, `Orderly.closing` — errors of one reading after those of another, and of a
  parenthesis that is not closed.
* `readings_orderly`, `statements_orderly` — the errors of all readings are orderly.
* `parseText_errors` — **the errors of a text are in order, precise, and pairwise different**.
-/

namespace Sapling

open Text TokenStream Sapling.Parser

/-! ### Windows in the order of a text -/

/-- A token stands before another one.  After an end of input there are only ends of input. -/
structure Token.Before (t u : Token) : Prop where
  /-- The other one does not begin earlier. -/
  le : t.span.start ≤ u.span.start
  /-- Any other token than an end of input begins earlier. -/
  lt : t.kind ≠ .eof → t.span.start < u.span.start
  /-- And it stops before the other one begins. -/
  stop_le : t.kind ≠ .eof → t.span.stop ≤ u.span.start
  /-- Nothing comes after the end. -/
  eof : t.kind = .eof → u.kind = .eof

section Order

variable {σ : Type} [TokenStream σ]

/-- The current token stands before the one after it, here and wherever the window moves. -/
def Window.Ascends (w : Window σ) : Prop := ∀ v, w.Reaches v → v.current.Before v.peek

namespace Window.Ascends

variable {w v : Window σ}

theorem before (h : w.Ascends) : w.current.Before w.peek := h w (.refl w)

theorem of_reaches (h : w.Ascends) (hreach : w.Reaches v) : v.Ascends :=
  fun u hu => h u (hreach.trans hu)

theorem advance (h : w.Ascends) : w.advance.Ascends := h.of_reaches w.reaches_advance

/-- The window moves towards the end of the text. -/
theorem start_le (h : w.Ascends) (hreach : w.Reaches v) :
    w.current.span.start ≤ v.current.span.start ∧ w.peek.span.start ≤ v.peek.span.start := by
  induction hreach with
  | refl => exact ⟨Nat.le_refl _, Nat.le_refl _⟩
  | @step w v _ ih =>
    obtain ⟨hcurrent, hpeek⟩ := ih h.advance
    exact ⟨Nat.le_trans h.before.le hcurrent, Nat.le_trans h.advance.before.le hpeek⟩

/-- If a token is still to come, the current one stands strictly before it. -/
theorem lt_of_peek (h : w.Ascends) (hpeek : w.peek.kind ≠ .eof) :
    w.current.span.start < w.peek.span.start :=
  h.before.lt fun heof => hpeek (h.before.eof heof)

end Window.Ascends

/-! ### Errors on the way to a window -/

omit [TokenStream σ] in
/-- The error can have been found on the way to a window, from tokens at or after `lo`. -/
inductive SyntaxError.Occurs (lo : Nat) (v : Window σ) : SyntaxError → Prop where
  /-- An operand is missing: the token was the current one, and begins no phrase. -/
  | noOperand {found : TokenKind} {span : Span} : ¬ found.StartsPhrase → lo ≤ span.start →
      span.start ≤ v.current.span.start → Occurs lo v ⟨.noOperand found, span, none⟩
  /-- An integer is invalid: its token was the current one, and denotes no number. -/
  | invalidInteger {literal : String} {span : Span} : Numeral.value? literal.toList = none →
      lo ≤ span.start → span.start ≤ v.current.span.start →
      Occurs lo v ⟨.invalidInteger literal, span, none⟩
  /-- A token other than a closing parenthesis is missing. -/
  | unexpected {expected found : TokenKind} {span : Span} : expected ≠ .rightParen →
      found ≠ expected → lo < span.start → span.start ≤ v.peek.span.start →
      Occurs lo v ⟨.unexpected expected found, span, none⟩
  /-- A closing parenthesis is missing: the opening one was the current token. -/
  | unclosed {found : TokenKind} {span opening : Span} : found ≠ .rightParen →
      lo ≤ opening.start → opening.start ≤ v.current.span.start →
      opening.start < span.start → opening.stop ≤ span.start → span.start ≤ v.peek.span.start →
      Occurs lo v ⟨.unexpected .rightParen found, span, some opening⟩

/-- One error comes before another, and blames another parenthesis.  At the same token, it blames
one that is further inside. -/
structure SyntaxError.Precedes (e f : SyntaxError) : Prop where
  /-- The other one is not found earlier in the text. -/
  start_le : e.span.start ≤ f.span.start
  /-- It is another one. -/
  ne : e ≠ f
  /-- If both blame a parenthesis, it is not the same. -/
  blame : ∀ p ∈ e.unclosed, ∀ q ∈ f.unclosed,
    p ≠ q ∧ (e.span.start = f.span.start → q.start < p.start)

namespace SyntaxError.Occurs

variable {lo : Nat} {w v : Window σ} {e : SyntaxError}

/-- What was found on the way to a window was found on the way further on. -/
theorem of_reaches (h : e.Occurs lo w) (hw : w.Ascends) (hreach : w.Reaches v) :
    e.Occurs lo v := by
  obtain ⟨hcurrent, hpeek⟩ := hw.start_le hreach
  cases h with
  | noOperand hk hlo hle => exact .noOperand hk hlo (Nat.le_trans hle hcurrent)
  | invalidInteger hn hlo hle => exact .invalidInteger hn hlo (Nat.le_trans hle hcurrent)
  | unexpected hx hf hlo hle => exact .unexpected hx hf hlo (Nat.le_trans hle hpeek)
  | unclosed hf hlo ho hlt hstop hle =>
    exact .unclosed hf hlo (Nat.le_trans ho hcurrent) hlt hstop (Nat.le_trans hle hpeek)

omit [TokenStream σ] in
theorem mono {lo' : Nat} (h : e.Occurs lo w) (hlo' : lo' ≤ lo) : e.Occurs lo' w := by
  cases h with
  | noOperand hk hlo hle => exact .noOperand hk (Nat.le_trans hlo' hlo) hle
  | invalidInteger hn hlo hle => exact .invalidInteger hn (Nat.le_trans hlo' hlo) hle
  | unexpected hx hf hlo hle => exact .unexpected hx hf (Nat.lt_of_le_of_lt hlo' hlo) hle
  | unclosed hf hlo ho hlt hstop hle =>
    exact .unclosed hf (Nat.le_trans hlo' hlo) ho hlt hstop hle

theorem start_bounds (h : e.Occurs lo v) (hv : v.Ascends) :
    lo ≤ e.span.start ∧ e.span.start ≤ v.peek.span.start := by
  have hle := hv.before.le
  cases h with
  | noOperand _ hlo hcurrent => exact ⟨hlo, Nat.le_trans hcurrent hle⟩
  | invalidInteger _ hlo hcurrent => exact ⟨hlo, Nat.le_trans hcurrent hle⟩
  | unexpected _ _ hlo hpeek => exact ⟨Nat.le_of_lt hlo, hpeek⟩
  | unclosed _ hlo _ hlt _ hpeek => exact ⟨Nat.le_trans hlo (Nat.le_of_lt hlt), hpeek⟩

omit [TokenStream σ] in
/-- A parenthesis that is blamed was passed over before the error was found. -/
theorem blamed_bounds (h : e.Occurs lo v) : ∀ p ∈ e.unclosed,
    lo ≤ p.start ∧ p.start ≤ v.current.span.start ∧ p.start < e.span.start ∧
      p.stop ≤ e.span.start := by
  cases h with
  | unclosed _ hlo ho hlt hstop _ => exact fun p hp => Option.some.inj hp ▸ ⟨hlo, ho, hlt, hstop⟩
  | _ => exact nofun

/-- **An error comes before those that are found after the next token was reached.**  They may be
found at the same token, but only the second one of them while it is the current token. -/
theorem precedes {f : SyntaxError} (he : e.Occurs lo w) (hf : f.Occurs w.peek.span.start v)
    (hw : w.Ascends) (hv : v.Ascends) (hpeek : w.peek.kind ≠ .eof) : e.Precedes f := by
  have hlt := hw.lt_of_peek hpeek
  have hpast := (he.start_bounds hw).2
  have hnext := (hf.start_bounds hv).1
  refine ⟨Nat.le_trans hpast hnext, ?_, ?_⟩
  · rintro rfl
    cases he with
    | noOperand _ _ hcurrent => exact Nat.not_le_of_lt hlt (Nat.le_trans hnext hcurrent)
    | invalidInteger _ _ hcurrent => exact Nat.not_le_of_lt hlt (Nat.le_trans hnext hcurrent)
    | unexpected =>
      cases hf with
      | unexpected _ _ hlo _ => omega
    | unclosed =>
      cases hf with
      | unclosed _ hlo _ _ _ _ => omega
  · intro p hp q hq
    have hpbounds := he.blamed_bounds p hp
    have hqbounds := hf.blamed_bounds q hq
    refine ⟨?_, by omega⟩
    rintro rfl
    omega

end SyntaxError.Occurs

/-- Errors that can have been found on the way to a window, from tokens at or after `lo`, each of
them before those after it. -/
structure Orderly (lo : Nat) (es : List SyntaxError) (v : Window σ) : Prop where
  /-- They can have been found. -/
  occurs : ∀ e ∈ es, e.Occurs lo v
  /-- They are in order. -/
  pairwise : es.Pairwise SyntaxError.Precedes

namespace Orderly

variable {lo : Nat} {w v : Window σ} {es fs : List SyntaxError}

omit [TokenStream σ] in
theorem nil (lo : Nat) (v : Window σ) : Orderly lo [] v := ⟨by simp, .nil⟩

omit [TokenStream σ] in
theorem singleton {e : SyntaxError} (h : e.Occurs lo v) : Orderly lo [e] v :=
  ⟨by simpa using h, List.pairwise_singleton _ _⟩

omit [TokenStream σ] in
theorem mono {lo' : Nat} (h : Orderly lo es v) (hlo : lo' ≤ lo) : Orderly lo' es v :=
  ⟨fun e he => (h.occurs e he).mono hlo, h.pairwise⟩

theorem of_reaches (h : Orderly lo es w) (hw : w.Ascends) (hreach : w.Reaches v) :
    Orderly lo es v :=
  ⟨fun e he => (h.occurs e he).of_reaches hw hreach, h.pairwise⟩

/-- **Errors of one reading, and of another one that goes on from its window.**  At the end of the
input, nothing more is found. -/
theorem append {u : Window σ} (hes : Orderly u.current.span.start es w)
    (hfs : Orderly w.peek.span.start fs v) (hu : u.Ascends) (huw : u.Reaches w)
    (hwv : w.Reaches v) (hend : w.peek.kind = .eof → fs = []) :
    Orderly u.current.span.start (es ++ fs) v := by
  have hw := hu.of_reaches huw
  by_cases hpeek : w.peek.kind = .eof
  · rw [hend hpeek, List.append_nil]
    exact hes.of_reaches hw hwv
  · have hlo : u.current.span.start ≤ w.peek.span.start :=
      Nat.le_trans (hu.start_le huw).1 hw.before.le
    refine ⟨List.forall_mem_append.2 ⟨(hes.of_reaches hw hwv).occurs, (hfs.mono hlo).occurs⟩,
      List.pairwise_append.2 ⟨hes.pairwise, hfs.pairwise, ?_⟩⟩
    intro e he f hf
    exact (hes.occurs e he).precedes (hfs.occurs f hf) hw (hw.of_reaches hwv) hpeek

/-- **A parenthesis that is not closed is blamed last**, after all that went wrong inside. -/
theorem closing {α : Type} {r : Reading σ α} (hw : w.Ascends) (hopening : w.current.kind ≠ .eof)
    (hreach : w.advance.Reaches r.window)
    (h : Orderly w.peek.span.start r.errors r.window) (instead : α) :
    Orderly w.current.span.start (r.closing w.current.span instead).errors
      (r.closing w.current.span instead).window := by
  have hr : r.window.Ascends := hw.advance.of_reaches hreach
  have hlt : w.current.span.start < w.peek.span.start := hw.before.lt hopening
  unfold Reading.closing
  split
  · exact (h.mono hw.before.le).of_reaches hr r.window.reaches_advance
  · next hclosing =>
    obtain ⟨hcurrent, hpeek⟩ := hw.advance.start_le hreach
    have hnext : w.peek.span.start ≤ r.window.peek.span.start :=
      Nat.le_trans hcurrent hr.before.le
    have hoccurs : SyntaxError.Occurs w.current.span.start r.window
        ⟨.unexpected .rightParen r.window.peek.kind, r.window.peek.span, some w.current.span⟩ :=
      .unclosed hclosing (Nat.le_refl _) (Nat.le_trans hw.before.le hcurrent)
        (Nat.lt_of_lt_of_le hlt hnext) (Nat.le_trans (hw.before.stop_le hopening) hnext)
        (Nat.le_refl _)
    refine ⟨List.forall_mem_append.2 ⟨(h.mono hw.before.le).occurs, by simpa using hoccurs⟩,
      List.pairwise_append.2 ⟨h.pairwise, List.pairwise_singleton _ _, ?_⟩⟩
    intro e he f hf
    obtain rfl := List.mem_singleton.1 hf
    have hblamed := (h.occurs e he).blamed_bounds
    refine ⟨((h.occurs e he).start_bounds hr).2, ?_, ?_⟩
    · rintro rfl
      have := hblamed w.current.span rfl
      omega
    · rintro p hp _ ⟨⟩
      have := hblamed p hp
      refine ⟨?_, fun _ => by omega⟩
      rintro rfl
      omega

end Orderly

/-! ### Errors of expressions -/

omit [TokenStream σ] in
/-- A token that starts no expression begins no phrase. -/
theorem Opening.not_startsPhrase {t : Token} (h : Opening.ofToken t = .nothing) :
    ¬ t.kind.StartsPhrase := by
  obtain ⟨kind, literal, span⟩ := t
  intro hstarts
  simp only [TokenKind.StartsPhrase, List.mem_cons, List.not_mem_nil, or_false] at hstarts
  rcases hstarts with rfl | rfl | rfl | rfl | rfl | rfl | rfl
  case inr.inl =>
    -- an integer is an operand or invalid
    simp only [Opening.ofToken] at h
    split at h <;> cases h
  all_goals cases h

omit [TokenStream σ] in
/-- An integer that is invalid denotes no number. -/
theorem Opening.value?_of_invalidInteger {t : Token} (h : Opening.ofToken t = .invalidInteger) :
    Numeral.value? t.literal.toList = none := by
  unfold Opening.ofToken at h
  split at h
  · cases h
  · split at h
    · cases h
    · assumption
  · cases h
  · cases h
  · cases h
  · split at h <;> cases h

/-- Nothing is found after an operand at the end of the input. -/
theorem errors_suffixes_of_eof {least : Precedence} {left : Expr} {w : Window σ}
    (h : w.peek.kind = .eof) : (suffixes least left w).errors = [] := by
  rw [suffixes_eq, h]
  rfl

theorem errors_moreArguments_of_eof {w : Window σ} (h : w.peek.kind = .eof) :
    (moreArguments w).errors = [] := by
  rw [moreArguments_eq, h]
  rfl

/-- **The errors of expressions are orderly.** -/
theorem readings_orderly :
    (∀ least (w : Window σ), w.Ascends →
      Orderly w.current.span.start (expression least w).errors (expression least w).window) ∧
    (∀ least left (w : Window σ), w.Ascends →
      Orderly w.peek.span.start (suffixes least left w).errors (suffixes least left w).window) ∧
    (∀ w : Window σ, w.Ascends → w.current.kind = .leftParen →
      Orderly w.current.span.start (arguments w).errors (arguments w).window) ∧
    ∀ w : Window σ, w.Ascends →
      Orderly w.peek.span.start (moreArguments w).errors (moreArguments w).window := by
  apply readings_induction
  case nothing =>
    intro least w h hw
    rw [expression_eq, h]
    exact .singleton (.noOperand (Opening.not_startsPhrase h) (Nat.le_refl _) (Nat.le_refl _))
  case operand =>
    intro least w e h ihs hw
    rw [expression_eq, h]
    exact (ihs hw).mono hw.before.le
  case invalid =>
    intro least w h ihs hw
    have hinvalid : Orderly w.current.span.start
        [⟨.invalidInteger w.current.literal, w.current.span, none⟩] w :=
      .singleton (.invalidInteger (Opening.value?_of_invalidInteger h) (Nat.le_refl _)
        (Nat.le_refl _))
    rw [expression_eq, h]
    exact hinvalid.append (ihs hw) hw (.refl w) (reaches_suffixes _ _ _) errors_suffixes_of_eof
  case operator =>
    intro least w op h ihe ihs hw
    have hreach := (reaches_expression .unary w.advance).step
    have hoperand := (ihe hw.advance).mono hw.before.le
    rw [expression_eq, h]
    exact hoperand.append (ihs (hw.of_reaches hreach)) hw hreach (reaches_suffixes _ _ _)
      errors_suffixes_of_eof
  case group =>
    intro least w h ihe ihs hw
    have hopening : w.current.kind ≠ .eof := kind_ne_eof_of_opening h nofun
    have hinner := reaches_expression .lowest w.advance
    have hreach := (Reading.reaches_closing hinner w.current.span .hole).step
    have hgroup := Orderly.closing hw hopening hinner (ihe hw.advance) .hole
    rw [expression_eq, h]
    exact hgroup.append (ihs (hw.of_reaches hreach)) hw hreach (reaches_suffixes _ _ _)
      errors_suffixes_of_eof
  case finished =>
    intro least left w h hw
    rw [suffixes_eq, h]
    exact .nil _ _
  case binary =>
    intro least left w op h hp ihe ihs hw
    have hnext := hw.advance
    have hreach := (reaches_expression op.precedence w.advance.advance).step
    have hright := (ihe hnext.advance).mono hnext.before.le
    rw [suffixes_eq, h]
    simp only [if_pos hp]
    exact hright.append (ihs (hnext.of_reaches hreach)) hnext hreach (reaches_suffixes _ _ _)
      errors_suffixes_of_eof
  case looser =>
    intro least left w op h hp hw
    rw [suffixes_eq, h]
    simp only [if_neg hp]
    exact .nil _ _
  case call =>
    intro least left w h hp iha ihs hw
    have hnext := hw.advance
    have hreach := (reaches_arguments w.advance).step
    have harguments := iha hnext (Suffix.leftParen_of_call h)
    rw [suffixes_eq, h]
    simp only [if_pos hp]
    exact harguments.append (ihs (hnext.of_reaches hreach)) hnext hreach (reaches_suffixes _ _ _)
      errors_suffixes_of_eof
  case looserCall =>
    intro least left w h hp hw
    rw [suffixes_eq, h]
    simp only [if_neg hp]
    exact .nil _ _
  case noArguments =>
    intro w h hw _
    rw [arguments_eq, if_pos h]
    exact .nil _ _
  case someArguments =>
    intro w h ihe ihm hw hkind
    have hopening : w.current.kind ≠ .eof := by simp [hkind]
    have hfirst := reaches_expression .lowest w.advance
    have hmore := reaches_moreArguments (expression .lowest w.advance).window
    have hall := (ihe hw.advance).append (ihm (hw.advance.of_reaches hfirst)) hw.advance hfirst
      hmore errors_moreArguments_of_eof
    rw [arguments_eq, if_neg h]
    exact Orderly.closing (r := (expression .lowest w.advance).cons (moreArguments _)) hw hopening
      (hfirst.trans hmore) hall []
  case comma =>
    intro w h ihe ihm hw
    have hnext := hw.advance
    have hreach := (reaches_expression .lowest w.advance.advance).step
    have hargument := (ihe hnext.advance).mono hnext.before.le
    rw [moreArguments_eq, if_pos h]
    exact hargument.append (ihm (hnext.of_reaches hreach)) hnext hreach (reaches_moreArguments _)
      errors_moreArguments_of_eof
  case noComma =>
    intro w h hw
    rw [moreArguments_eq, if_neg h]
    exact .nil _ _

/-! ### Errors of programs -/

theorem binding_orderly {w : Window σ} (hw : w.Ascends) (hlet : w.current.kind = .letWord) :
    Orderly w.current.span.start (binding w).1.errors (binding w).1.window := by
  have hpeek : w.current.span.start < w.peek.span.start := hw.before.lt (by simp [hlet])
  rw [binding_eq]
  split
  · split
    · exact .nil _ _
    · next hassign =>
      have hlater := Nat.lt_of_lt_of_le hpeek hw.advance.before.le
      exact .singleton (.unexpected (by decide) hassign hlater (Nat.le_refl _))
  · next hident => exact .singleton (.unexpected (by decide) hident hpeek (Nat.le_refl _))

/-- **The errors of a statement are orderly.** -/
theorem statement_orderly {w : Window σ} (hw : w.Ascends) :
    Orderly w.current.span.start (statement w).errors (statement w).window := by
  by_cases hlet : w.current.kind = .letWord
  · rw [statement_eq_binding hlet]
    exact binding_orderly hw hlet
  by_cases hreturn : w.current.kind = .returnWord
  · rw [statement_eq_returning hreturn]
    exact .nil _ _
  · have hexpression := readings_orderly.1 .lowest w hw
    have hend := hw.of_reaches (reaches_expression .lowest w)
    rw [statement_eq_bareExpression hlet hreturn, bareExpression_eq]
    split
    · exact hexpression.of_reaches hend (Window.reaches_advance _)
    · exact hexpression

/-- Reading statements only moves forward. -/
theorem reaches_statements (w : Window σ) : w.Reaches (statements w).window := by
  fun_induction statements w with
  | case1 w h => exact .refl w
  | case2 w h first more ih => exact ((reaches_statement w).advance).trans ih

/-- **The errors of a program are orderly.** -/
theorem statements_orderly (w : Window σ) : w.Ascends →
    Orderly w.current.span.start (statements w).errors (statements w).window := by
  fun_induction statements w with
  | case1 w h => exact fun _ => .nil _ _
  | case2 w h first more ih =>
    intro hw
    have hreach : w.Reaches first.window := reaches_statement w
    have hfirst : Orderly w.current.span.start first.errors first.window := statement_orderly hw
    have hmore : first.window.Reaches more.window :=
      (Window.reaches_advance _).trans (reaches_statements _)
    have hend : first.window.peek.kind = .eof → more.errors = [] := by
      intro hend
      show (statements first.window.advance).errors = []
      rw [statements_eq, if_pos (show first.window.advance.current.kind = .eof from hend)]
      rfl
    exact hfirst.append (ih (hw.of_reaches hreach).advance) hw hreach hmore hend

end Order

/-! ### Errors of texts -/

open Window in
/-- A window on tokens that stand one before the other, and before the end, ascends. -/
theorem ascends_along {e : Token} (he : e.kind = .eof) {ts : List Token}
    (h : (ts ++ [e]).Pairwise Token.Before) : (along he ts).Ascends := by
  intro v hreach
  generalize hw : along he ts = w at hreach
  induction hreach generalizing ts with
  | refl =>
    subst hw
    match ts, h with
    | [], _ => exact ⟨Nat.le_refl _, fun hne => absurd he hne, fun hne => absurd he hne, fun h => h⟩
    | [t], h => exact (List.pairwise_cons.1 h).1 e (by simp)
    | t :: u :: ts, h => exact (List.pairwise_cons.1 h).1 u (by simp)
  | step _ ih =>
    subst hw
    match ts, h with
    | [], h => exact ih h rfl
    | t :: ts, h => exact ih (List.pairwise_cons.1 h).2 rfl

/-- **The tokens of a text do not overlap**, and stand before its end. -/
theorem Laid.stop_le {text : List Char} {ts : List Token} (h : Laid 0 text ts) :
    (ts ++ [Token.eof (byteLength text)]).Pairwise fun t u => t.span.stop ≤ u.span.start := by
  refine List.pairwise_append.2 ⟨h.pairwise, List.pairwise_singleton _ _, ?_⟩
  intro t ht e he
  obtain rfl := List.mem_singleton.1 he
  obtain ⟨earlier, after, htext, hspan, -⟩ := h.exists_split [] rfl t ht
  rw [List.nil_append] at htext
  rw [hspan, htext, ← List.append_assoc, byteLength_append, byteLength_append]
  exact Nat.le_add_right _ _

theorem Laid.before {text : List Char} {ts : List Token} (h : Laid 0 text ts) :
    (ts ++ [Token.eof (byteLength text)]).Pairwise Token.Before := by
  obtain ⟨hts, -, hend⟩ := List.pairwise_append.1 h.stop_le
  have hbefore : ∀ t ∈ ts, ∀ u : Token, t.span.stop ≤ u.span.start → t.Before u := by
    intro t ht u hle
    have hlt := Nat.lt_of_lt_of_le (h.foundIn t ht).nonempty hle
    exact ⟨Nat.le_of_lt hlt, fun _ => hlt, fun _ => hle,
      fun heof => absurd heof (h.kind_ne_eof t ht)⟩
  refine List.pairwise_append.2 ⟨?_, List.pairwise_singleton _ _, ?_⟩
  · exact hts.imp_of_mem fun ht _ hle => hbefore _ ht _ hle
  · exact fun t ht e he => hbefore t ht e (hend t ht e he)

/-- **The errors of a text are orderly.** -/
theorem parseText_orderly (text : List Char) :
    ∃ v : Window Replay, Orderly 0 (parseText text).2 v := by
  obtain ⟨ts, hlaid⟩ := exists_laid text.length 0 (Nat.le_refl _)
  have hascends := ascends_along (Token.kind_eof (byteLength text)) hlaid.before
  rw [hlaid.parseText_eq]
  exact ⟨_, (statements_orderly _ hascends).mono (Nat.zero_le _)⟩

/-- Says what is wrong with a token, and that it is so. -/
def SyntaxError.Cause.Faults : SyntaxError.Cause → Token → Prop
  | unexpected expected found, t => t.kind = found ∧ found ≠ expected
  | noOperand found, t => t.kind = found ∧ ¬ found.StartsPhrase
  | invalidInteger literal, t =>
    t.kind = .int ∧ t.literal = literal ∧ Numeral.value? literal.toList = none

/-- What an error says of the token that it is found at is so. -/
theorem SyntaxError.Occurs.faults {lo : Nat} {v : Window Replay} {e : SyntaxError} {t : Token}
    (h : e.Occurs lo v) (ht : e.cause.Names t) : e.cause.Faults t := by
  cases h with
  | noOperand hk => exact ⟨ht, hk⟩
  | invalidInteger hn => exact ⟨ht.1, ht.2, hn⟩
  | unexpected _ hf => exact ⟨ht, hf⟩
  | unclosed hf => exact ⟨ht, hf⟩

/-- A parenthesis is blamed just if a closing one is missing. -/
theorem SyntaxError.Occurs.isSome_unclosed_iff {lo : Nat} {v : Window Replay} {e : SyntaxError}
    (h : e.Occurs lo v) :
    e.unclosed.isSome ↔ ∃ found, e.cause = .unexpected .rightParen found := by
  cases h with
  | unexpected hx => simp [hx]
  | _ => simp

/-- **The errors of a text are in order, precise, and pairwise different.**  None of them begins
before an earlier one.  Each has the span of a token, or of the end of the text, and tells rightly
what is wrong with it.  An opening parenthesis is blamed just if the closing one is missing.  It is
a token that stands before the error, and is blamed by no other error; of errors at the same place,
the earlier ones blame parentheses further inside. -/
theorem parseText_errors (text : List Char) :
    let errors := (parseText text).2
    (errors.Pairwise fun e f => e.span.start ≤ f.span.start) ∧
    errors.Nodup ∧
    (∀ e ∈ errors, ∃ t, HasToken text t ∧ t.span = e.span ∧ e.cause.Faults t) ∧
    (∀ e ∈ errors, e.unclosed.isSome ↔ ∃ found, e.cause = .unexpected .rightParen found) ∧
    (∀ e ∈ errors, ∀ p ∈ e.unclosed, ∃ t ∈ (drain (Lexer.ofText text)).1,
      t.kind = .leftParen ∧ t.span = p ∧ p.start < e.span.start ∧ p.stop ≤ e.span.start) ∧
    errors.Pairwise fun e f => ∀ p ∈ e.unclosed, ∀ q ∈ f.unclosed,
      p ≠ q ∧ (e.span.start = f.span.start → q.start < p.start) := by
  intro errors
  obtain ⟨v, hoccurs, hpairwise⟩ := parseText_orderly text
  have hfound := parseText_foundIn text
  refine ⟨hpairwise.imp fun h => h.start_le, hpairwise.imp fun h => h.ne, ?_, ?_, ?_,
    hpairwise.imp fun h => h.blame⟩
  · intro e he
    obtain ⟨t, ht, hspan, hnames⟩ := (hfound e he).found
    exact ⟨t, ht, hspan, (hoccurs e he).faults hnames⟩
  · exact fun e he => (hoccurs e he).isSome_unclosed_iff
  · intro e he p hp
    obtain ⟨t, ht, hspan, hkind⟩ := (hfound e he).unclosed p hp
    obtain ⟨-, -, hlt, hstop⟩ := (hoccurs e he).blamed_bounds p hp
    refine ⟨t, ?_, hkind, hspan, hlt, hstop⟩
    rcases ht with ht | rfl
    · exact ht
    · cases hkind

end Sapling
