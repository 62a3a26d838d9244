import Sapling.Parser.Program

/-!
# Where errors are found

Every error names a token that the parser was given: it has the span of that token, and its cause
says what the token is.  An unclosed parenthesis is one that the parser was given, too.

What the parser was given is described by a property of tokens that all tokens of its window have,
and all tokens that its stream will hand out.

## Main definitions

* `Yields T I` — streams with the property `I` hand out tokens with the property `T`.
* `SyntaxError.FoundIn T e` — the error `e` is about tokens with the property `T`.

## Main results

* `readings_foundIn` — all errors of the readings of expressions are about tokens they were given.
* `parse_foundIn` — all errors are.
-/

namespace Sapling

/-- Says what is wrong with a token. -/
def SyntaxError.Cause.Names : SyntaxError.Cause → Token → Prop
  | unexpected _ found, t => t.kind = found
  | noOperand found, t => t.kind = found
  | invalidInteger literal, t => t.kind = .int ∧ t.literal = literal

/-- An error about a token, and perhaps an opening parenthesis, of a given kind of tokens. -/
structure SyntaxError.FoundIn (T : Token → Prop) (e : SyntaxError) : Prop where
  /-- The token at which it was found. -/
  found : ∃ t, T t ∧ t.span = e.span ∧ e.cause.Names t
  /-- The parenthesis that is not closed. -/
  unclosed : ∀ s ∈ e.unclosed, ∃ t, T t ∧ t.span = s ∧ t.kind = .leftParen

section FoundIn

variable {σ : Type} [TokenStream σ] {T : Token → Prop} {I : σ → Prop}

/-- Streams with the property `I` hand out tokens with the property `T`, and keep theirs. -/
def Yields (T : Token → Prop) (I : σ → Prop) : Prop :=
  ∀ s, I s → T (TokenStream.next s).1 ∧ I (TokenStream.next s).2

omit [TokenStream σ] in
/-- The tokens of a window, and all that its stream will hand out, have the property `T`. -/
structure Window.Within (T : Token → Prop) (I : σ → Prop) (w : Window σ) : Prop where
  /-- The current token. -/
  current : T w.current
  /-- The token after it. -/
  peek : T w.peek
  /-- The stream. -/
  stream : I w.stream

open Sapling.Parser

theorem Window.Within.advance (hI : Yields T I) {w : Window σ} (h : w.Within T I) :
    w.advance.Within T I := by
  obtain ⟨hnext, hstream⟩ := hI _ h.stream
  exact ⟨h.peek, hnext, hstream⟩

/-- Moving forward stays within. -/
theorem Window.Reaches.within (hI : Yields T I) {w v : Window σ} (h : w.Reaches v)
    (hw : w.Within T I) : v.Within T I := by
  induction h with
  | refl => exact hw
  | step _ ih => exact ih (hw.advance hI)

theorem Window.Within.ofStream (hI : Yields T I) {s : σ} (h : I s) :
    (Window.ofStream s).Within T I := by
  obtain ⟨hfirst, h⟩ := hI s h
  obtain ⟨hsecond, h⟩ := hI _ h
  exact ⟨hfirst, hsecond, h⟩

/-- All errors of a reading are about tokens with the property `T`. -/
def AllFoundIn (T : Token → Prop) (es : List SyntaxError) : Prop := ∀ e ∈ es, e.FoundIn T

omit [TokenStream σ] in
theorem AllFoundIn.append {es fs : List SyntaxError} (h : AllFoundIn T es) (k : AllFoundIn T fs) :
    AllFoundIn T (es ++ fs) :=
  List.forall_mem_append.2 ⟨h, k⟩

theorem allFoundIn_nil : AllFoundIn T [] := by simp [AllFoundIn]

theorem allFoundIn_singleton {t : Token} (ht : T t) {cause : SyntaxError.Cause}
    (h : cause.Names t) : AllFoundIn T [⟨cause, t.span, none⟩] := by
  intro e he
  obtain rfl : e = ⟨cause, t.span, none⟩ := by simpa using he
  exact ⟨⟨t, ht, rfl, h⟩, by simp⟩

/-- A missing closing parenthesis is about the next token and the opening parenthesis. -/
theorem allFoundIn_closing {α : Type} {opening : Token} (hopening : T opening)
    (hkind : opening.kind = .leftParen) {r : Reading σ α} (hr : AllFoundIn T r.errors)
    (hw : r.window.Within T I) (instead : α) :
    AllFoundIn T (r.closing opening.span instead).errors := by
  unfold Reading.closing
  split
  · exact hr
  · refine hr.append ?_
    intro e he
    obtain rfl : e = _ := by simpa using he
    exact ⟨⟨_, hw.peek, rfl, rfl⟩, by simpa using ⟨opening, hopening, rfl, hkind⟩⟩

/-- **All errors of the readings are about tokens they were given.** -/
theorem readings_foundIn (hI : Yields T I) :
    (∀ least (w : Window σ), w.Within T I → AllFoundIn T (expression least w).errors) ∧
    (∀ least left (w : Window σ), w.Within T I → AllFoundIn T (suffixes least left w).errors) ∧
    (∀ w : Window σ, w.Within T I → w.current.kind = .leftParen →
      AllFoundIn T (arguments w).errors) ∧
    ∀ w : Window σ, w.Within T I → AllFoundIn T (moreArguments w).errors := by
  apply readings_induction
  case nothing =>
    intro least w h hw
    rw [expression_eq, h]
    exact allFoundIn_singleton hw.current rfl
  case operand =>
    intro least w e h ihs hw
    rw [expression_eq, h]
    exact ihs hw
  case invalid =>
    intro least w h ihs hw
    rw [expression_eq, h]
    have hnames : SyntaxError.Cause.Names (.invalidInteger w.current.literal) w.current :=
      ⟨Opening.int_of_invalidInteger h, rfl⟩
    exact (allFoundIn_singleton hw.current hnames).append (ihs hw)
  case operator =>
    intro least w op h ihe ihs hw
    rw [expression_eq, h]
    exact (ihe (hw.advance hI)).append
      (ihs ((reaches_expression _ _).within hI (hw.advance hI)))
  case group =>
    intro least w h ihe ihs hw
    have hinner := (reaches_expression .lowest w.advance).within hI (hw.advance hI)
    rw [expression_eq, h]
    have hkind := Opening.leftParen_of_group h
    exact (allFoundIn_closing hw.current hkind (ihe (hw.advance hI)) hinner _).append
      (ihs ((Reading.reaches_closing (.refl _) _ _).within hI hinner))
  case finished =>
    intro least left w h hw
    rw [suffixes_eq, h]
    exact allFoundIn_nil
  case binary =>
    intro least left w op h hp ihe ihs hw
    have hnext := (hw.advance hI).advance hI
    rw [suffixes_eq, h]
    simp only [if_pos hp]
    exact (ihe hnext).append (ihs ((reaches_expression _ _).within hI hnext))
  case looser =>
    intro least left w op h hp hw
    rw [suffixes_eq, h]
    simp only [if_neg hp]
    exact allFoundIn_nil
  case call =>
    intro least left w h hp iha ihs hw
    have hnext := hw.advance hI
    rw [suffixes_eq, h]
    simp only [if_pos hp]
    exact (iha hnext (Suffix.leftParen_of_call h)).append
      (ihs ((reaches_arguments _).within hI (hnext.advance hI)))
  case looserCall =>
    intro least left w h hp hw
    rw [suffixes_eq, h]
    simp only [if_neg hp]
    exact allFoundIn_nil
  case noArguments =>
    intro w h hw _
    rw [arguments_eq, if_pos h]
    exact allFoundIn_nil
  case someArguments =>
    intro w h ihe ihm hw hkind
    have hfirst := (reaches_expression .lowest w.advance).within hI (hw.advance hI)
    have hmore := (reaches_moreArguments _).within hI hfirst
    rw [arguments_eq, if_neg h]
    have hcons : AllFoundIn T ((expression .lowest w.advance).cons
        (moreArguments (expression .lowest w.advance).window)).errors :=
      (ihe (hw.advance hI)).append (ihm hfirst)
    exact allFoundIn_closing hw.current hkind hcons hmore []
  case comma =>
    intro w h ihe ihm hw
    have hnext := (hw.advance hI).advance hI
    rw [moreArguments_eq, if_pos h]
    exact (ihe hnext).append (ihm ((reaches_expression _ _).within hI hnext))
  case noComma =>
    intro w h hw
    rw [moreArguments_eq, if_neg h]
    exact allFoundIn_nil

/-! ### Statements and programs -/

theorem binding_foundIn (hI : Yields T I) {w : Window σ} (hw : w.Within T I) :
    AllFoundIn T (binding w).1.errors := by
  rw [binding_eq]
  split
  · split
    · exact allFoundIn_nil
    · exact allFoundIn_singleton (hw.advance hI).peek rfl
  · exact allFoundIn_singleton hw.peek rfl

theorem statement_foundIn (hI : Yields T I) {w : Window σ} (hw : w.Within T I) :
    AllFoundIn T (statement w).errors := by
  by_cases hlet : w.current.kind = .letWord
  · rw [statement_eq_binding hlet]
    exact binding_foundIn hI hw
  by_cases hret : w.current.kind = .returnWord
  · rw [statement_eq_returning hret]
    exact allFoundIn_nil
  · rw [statement_eq_bareExpression hlet hret, bareExpression_eq]
    split <;> exact (readings_foundIn hI).1 .lowest w hw

theorem statements_foundIn (hI : Yields T I) (w : Window σ) :
    w.Within T I → AllFoundIn T (statements w).errors := by
  fun_induction statements w with
  | case1 w h => exact fun _ => allFoundIn_nil
  | case2 w h first more ih =>
    intro hw
    have hnext := (reaches_statement w).within hI hw
    exact (statement_foundIn hI hw).append (ih (hnext.advance hI))

/-- **All errors are about tokens that the parser was given.** -/
theorem parse_foundIn (hI : Yields T I) {s : σ} (h : I s) : AllFoundIn T (parse s).2 :=
  statements_foundIn hI _ (.ofStream hI h)

end FoundIn

end Sapling
