import Sapling.Parser.Program

/-!
# Spans are only carried along

The parser looks at the kinds and the literals of tokens, never at their spans: it copies them into
the tree and into the errors.  So if two streams hand out the same tokens up to their spans, and the
spans of one are those of the other under a map, then so are the trees and the errors.

## Main definitions

* `mapSpan` — tokens, expressions, statements, programs and errors with all their spans mapped.
* `Relabels f R` — streams related by `R` hand out tokens related by `mapSpan f`, and stay related.
* `Window.Follows`, `Reading.Follows` — the same relation between windows, and between readings.

## Main results

* `readings_follow` — the readings of expressions respect it.
* `parse_relabel` — parsing commutes with a map of spans.
* `parse_eq_of_relabels` — streams that hand out the same tokens are parsed alike.
-/

namespace Sapling

/-! ### Mapping spans -/

/-- A token with its span mapped. -/
def Token.mapSpan (f : Span → Span) (t : Token) : Token := ⟨t.kind, t.literal, f t.span⟩

/-- A name with the span of its token mapped. -/
def Ident.mapSpan (f : Span → Span) (name : Ident) : Ident := ⟨name.token.mapSpan f, name.value⟩

namespace Expr

mutual

/-- An expression with the spans of all its tokens mapped. -/
def mapSpan (f : Span → Span) : Expr → Expr
  | hole => hole
  | ident name => ident (name.mapSpan f)
  | int t n => int (t.mapSpan f) n
  | bool t b => bool (t.mapSpan f) b
  | unary t op operand => unary (t.mapSpan f) op (operand.mapSpan f)
  | binary t left op right => binary (t.mapSpan f) (left.mapSpan f) op (right.mapSpan f)
  | call t function arguments =>
      call (t.mapSpan f) (function.mapSpan f) (mapSpans f arguments)

/-- Expressions with the spans of all their tokens mapped. -/
def mapSpans (f : Span → Span) : List Expr → List Expr
  | [] => []
  | e :: es => e.mapSpan f :: mapSpans f es

end

theorem mapSpans_eq_map (f : Span → Span) (es : List Expr) :
    mapSpans f es = es.map (mapSpan f) := by
  induction es with
  | nil => rfl
  | cons e es ih => rw [mapSpans, ih, List.map_cons]

end Expr

/-- A statement with the spans of all its tokens mapped. -/
def Statement.mapSpan (f : Span → Span) : Statement → Statement
  | .binding t name value => .binding (t.mapSpan f) (name.mapSpan f) (value.mapSpan f)
  | .returning t value => .returning (t.mapSpan f) (value.mapSpan f)
  | .expression t value => .expression (t.mapSpan f) (value.mapSpan f)

/-- A program with the spans of all its tokens mapped. -/
def Program.mapSpan (f : Span → Span) (p : Program) : Program :=
  ⟨p.statements.map (Statement.mapSpan f)⟩

/-- An error with its spans mapped. -/
def SyntaxError.mapSpan (f : Span → Span) (e : SyntaxError) : SyntaxError :=
  ⟨e.cause, f e.span, e.unclosed.map f⟩

@[simp] theorem Token.kind_mapSpan (f : Span → Span) (t : Token) :
    (t.mapSpan f).kind = t.kind := rfl

@[simp] theorem Token.literal_mapSpan (f : Span → Span) (t : Token) :
    (t.mapSpan f).literal = t.literal := rfl

@[simp] theorem Token.mapSpan_id (t : Token) : t.mapSpan id = t := rfl

@[simp] theorem Expr.mapSpan_id (e : Expr) : e.mapSpan id = e := by
  induction e with
  | call t function arguments ihf iha =>
    rw [mapSpan, mapSpans_eq_map, ihf, List.map_congr_left iha, List.map_id']
    rfl
  | hole => rfl
  | ident name => rfl
  | int t n => rfl
  | bool t b => rfl
  | unary t op operand ih => rw [mapSpan, ih]; rfl
  | binary t left op right ihl ihr => rw [mapSpan, ihl, ihr]; rfl

theorem Expr.mapSpan_mapSpan (f g : Span → Span) (e : Expr) :
    (e.mapSpan f).mapSpan g = e.mapSpan (g ∘ f) := by
  induction e with
  | call t function arguments ihf iha =>
    have hargs : (arguments.map (mapSpan f)).map (mapSpan g) = arguments.map (mapSpan (g ∘ f)) := by
      rw [List.map_map]
      exact List.map_congr_left iha
    simp only [mapSpan, mapSpans_eq_map, ihf, hargs]
    rfl
  | hole => rfl
  | ident name => rfl
  | int t n => rfl
  | bool t b => rfl
  | unary t op operand ih => simp only [mapSpan, ih]; rfl
  | binary t left op right ihl ihr => simp only [mapSpan, ihl, ihr]; rfl

@[simp] theorem Statement.mapSpan_id (s : Statement) : s.mapSpan id = s := by
  cases s <;> simp [mapSpan, Ident.mapSpan]

@[simp] theorem Program.mapSpan_id (p : Program) : p.mapSpan id = p := by
  rw [mapSpan, List.map_congr_left fun s _ => s.mapSpan_id, List.map_id']

@[simp] theorem SyntaxError.mapSpan_id (e : SyntaxError) : e.mapSpan id = e := by
  simp [mapSpan]

namespace Parser

/-- An expression that begins with a token, with the spans mapped. -/
def Opening.mapSpan (f : Span → Span) : Opening → Opening
  | operand e => operand (e.mapSpan f)
  | opening => opening

theorem Opening.ofToken_mapSpan (f : Span → Span) (t : Token) :
    ofToken (t.mapSpan f) = (ofToken t).mapSpan f := by
  obtain ⟨kind, literal, span⟩ := t
  cases kind
  case int =>
    unfold ofToken
    simp only [Token.kind_mapSpan, Token.literal_mapSpan]
    cases Numeral.value? literal.toList <;> rfl
  all_goals rfl

end Parser

/-! ### Streams, windows and readings that follow others -/

section Follows

variable {σ τ : Type} {R : σ → τ → Prop} {f : Span → Span}

/-- A window on the same tokens, with the spans mapped. -/
structure Window.Follows (f : Span → Span) (R : σ → τ → Prop) (v : Window τ) (w : Window σ) :
    Prop where
  /-- The current tokens. -/
  current : v.current = w.current.mapSpan f
  /-- The tokens after them. -/
  peek : v.peek = w.peek.mapSpan f
  /-- The streams of the tokens after those. -/
  stream : R w.stream v.stream

/-- A reading of the same, with the spans mapped.  How they are mapped in what was read is given by
`g`. -/
structure Reading.Follows {α : Type} (f : Span → Span) (R : σ → τ → Prop) (g : α → α)
    (q : Reading τ α) (r : Reading σ α) : Prop where
  /-- What was read. -/
  value : q.value = g r.value
  /-- The mistakes. -/
  errors : q.errors = r.errors.map (SyntaxError.mapSpan f)
  /-- The windows reached. -/
  window : q.window.Follows f R r.window

open Sapling.Parser

namespace Window.Follows

variable {v : Window τ} {w : Window σ}

theorem kind_current (h : v.Follows f R w) : v.current.kind = w.current.kind := by
  rw [h.current]; rfl

theorem kind_peek (h : v.Follows f R w) : v.peek.kind = w.peek.kind := by rw [h.peek]; rfl

theorem span_current (h : v.Follows f R w) : v.current.span = f w.current.span := by
  rw [h.current]; rfl

theorem span_peek (h : v.Follows f R w) : v.peek.span = f w.peek.span := by rw [h.peek]; rfl

theorem ofToken_current (h : v.Follows f R w) :
    Opening.ofToken v.current = (Opening.ofToken w.current).mapSpan f := by
  rw [h.current, Opening.ofToken_mapSpan]

end Window.Follows

namespace Reading.Follows

variable {α : Type} {g : α → α} {v : Window τ} {w : Window σ} {q : Reading τ α} {r : Reading σ α}

theorem here (h : v.Follows f R w) {x y : α} (hx : y = g x) :
    (Reading.here v y).Follows f R g (Reading.here w x) := ⟨hx, rfl, h⟩

theorem mistake (h : v.Follows f R w) {x y : α} (hx : y = g x) {d e : SyntaxError}
    (he : d = e.mapSpan f) : (Reading.mistake v y d).Follows f R g (Reading.mistake w x e) :=
  ⟨hx, by rw [he]; rfl, h⟩

theorem after (h : q.Follows f R g r) {ds es : List SyntaxError}
    (he : ds = es.map (SyntaxError.mapSpan f)) : (q.after ds).Follows f R g (r.after es) := by
  refine ⟨h.value, ?_, h.window⟩
  simp only [errors_after, List.map_append, he, h.errors]

theorem cons {g : Expr → Expr} {q : Reading τ Expr} {r : Reading σ Expr}
    {qs : Reading τ (List Expr)} {rs : Reading σ (List Expr)} (h : q.Follows f R g r)
    (hs : qs.Follows f R (List.map g) rs) : (q.cons qs).Follows f R (List.map g) (r.cons rs) := by
  refine ⟨?_, ?_, hs.window⟩
  · simp only [Reading.cons, h.value, hs.value, List.map_cons]
  · simp only [Reading.cons, h.errors, hs.errors, List.map_append]

end Reading.Follows

variable [TokenStream σ] [TokenStream τ]

/-- Related streams hand out the same tokens, with the spans mapped, and stay related. -/
def Relabels (f : Span → Span) (R : σ → τ → Prop) : Prop :=
  ∀ s t, R s t → (TokenStream.next t).1 = (TokenStream.next s).1.mapSpan f ∧
    R (TokenStream.next s).2 (TokenStream.next t).2

theorem Window.Follows.ofStream (hR : Relabels f R) {s : σ} {t : τ} (h : R s t) :
    (Window.ofStream t).Follows f R (Window.ofStream s) := by
  obtain ⟨hfirst, h⟩ := hR s t h
  obtain ⟨hsecond, h⟩ := hR _ _ h
  exact ⟨hfirst, hsecond, h⟩

theorem Window.Follows.advance (hR : Relabels f R) {v : Window τ} {w : Window σ}
    (h : v.Follows f R w) : v.advance.Follows f R w.advance := by
  obtain ⟨hnext, hstream⟩ := hR _ _ h.stream
  exact ⟨h.peek, hnext, hstream⟩

theorem Reading.Follows.closing (hR : Relabels f R) {α : Type} {g : α → α} {q : Reading τ α}
    {r : Reading σ α} (h : q.Follows f R g r) {x y : α} (hx : y = g x)
    {s t : Span} (hs : t = f s) : (q.closing t y).Follows f R g (r.closing s x) := by
  have hkind := h.window.kind_peek
  have hspan := h.window.span_peek
  unfold Reading.closing
  rw [hkind]
  split
  · exact ⟨h.value, h.errors, h.window.advance hR⟩
  · refine ⟨hx, ?_, h.window⟩
    simp only [h.errors, List.map_append, List.map_cons, List.map_nil, SyntaxError.mapSpan, hspan,
      hs, Option.map_some]

/-- **The readings of expressions respect the relation.** -/
theorem readings_follow (hR : Relabels f R) :
    (∀ least (w : Window σ), ∀ v : Window τ, v.Follows f R w →
      (expression least v).Follows f R (Expr.mapSpan f) (expression least w)) ∧
    (∀ least left (w : Window σ), ∀ v : Window τ, v.Follows f R w →
      (suffixes least (left.mapSpan f) v).Follows f R (Expr.mapSpan f) (suffixes least left w)) ∧
    (∀ w : Window σ, ∀ v : Window τ, v.Follows f R w →
      (arguments v).Follows f R (List.map (Expr.mapSpan f)) (arguments w)) ∧
    ∀ w : Window σ, ∀ v : Window τ, v.Follows f R w →
      (moreArguments v).Follows f R (List.map (Expr.mapSpan f)) (moreArguments w) := by
  -- Both windows show tokens of the same kinds, so both readings go the same way.
  apply readings_induction
  case nothing =>
    intro least w h v hv
    rw [expression_eq least v, expression_eq least w, hv.ofToken_current, h]
    refine .mistake hv (show Expr.hole = Expr.hole.mapSpan f from rfl) ?_
    rw [hv.kind_current, hv.span_current]
    rfl
  case operand =>
    intro least w e h ihs v hv
    rw [expression_eq least v, expression_eq least w, hv.ofToken_current, h]
    exact ihs v hv
  case invalid =>
    intro least w h ihs v hv
    rw [expression_eq least v, expression_eq least w, hv.ofToken_current, h]
    refine .after (ihs v hv) ?_
    rw [hv.current]
    rfl
  case operator =>
    intro least w op h ihe ihs v hv
    have he := ihe v.advance (hv.advance hR)
    rw [expression_eq least v, expression_eq least w, hv.ofToken_current, h]
    refine .after ?_ he.errors
    have hs := ihs _ he.window
    rw [Expr.mapSpan, ← he.value, ← hv.current] at hs
    exact hs
  case group =>
    intro least w h ihe ihs v hv
    have hgroup := (ihe v.advance (hv.advance hR)).closing hR
      (show Expr.hole = Expr.hole.mapSpan f from rfl) hv.span_current
    rw [expression_eq least v, expression_eq least w, hv.ofToken_current, h]
    refine .after ?_ hgroup.errors
    have hs := ihs _ hgroup.window
    rw [← hgroup.value] at hs
    exact hs
  case finished =>
    intro least left w h v hv
    rw [suffixes_eq least _ v, suffixes_eq least _ w, hv.kind_peek, h]
    exact .here hv rfl
  case binary =>
    intro least left w op h hp ihe ihs v hv
    have he := ihe v.advance.advance ((hv.advance hR).advance hR)
    rw [suffixes_eq least _ v, suffixes_eq least _ w, hv.kind_peek, h]
    simp only [if_pos hp]
    refine .after ?_ he.errors
    have hs := ihs _ he.window
    rw [Expr.mapSpan, ← he.value, ← hv.peek] at hs
    exact hs
  case looser =>
    intro least left w op h hp v hv
    rw [suffixes_eq least _ v, suffixes_eq least _ w, hv.kind_peek, h]
    simp only [if_neg hp]
    exact .here hv rfl
  case call =>
    intro least left w h hp iha ihs v hv
    have ha := iha v.advance (hv.advance hR)
    rw [suffixes_eq least _ v, suffixes_eq least _ w, hv.kind_peek, h]
    simp only [if_pos hp]
    refine .after ?_ ha.errors
    have hs := ihs _ ha.window
    rw [Expr.mapSpan, Expr.mapSpans_eq_map, ← ha.value, ← hv.peek] at hs
    exact hs
  case looserCall =>
    intro least left w h hp v hv
    rw [suffixes_eq least _ v, suffixes_eq least _ w, hv.kind_peek, h]
    simp only [if_neg hp]
    exact .here hv rfl
  case noArguments =>
    intro w h v hv
    rw [arguments_eq v, arguments_eq w, hv.kind_peek, if_pos h, if_pos h]
    exact .here (hv.advance hR) rfl
  case someArguments =>
    intro w h ihe ihm v hv
    have he := ihe v.advance (hv.advance hR)
    rw [arguments_eq v, arguments_eq w, hv.kind_peek, if_neg h, if_neg h]
    exact .closing hR (.cons he (ihm _ he.window)) (show [] = [].map (Expr.mapSpan f) from rfl)
      hv.span_current
  case comma =>
    intro w h ihe ihm v hv
    have he := ihe v.advance.advance ((hv.advance hR).advance hR)
    rw [moreArguments_eq v, moreArguments_eq w, hv.kind_peek, if_pos h, if_pos h]
    exact .cons he (ihm _ he.window)
  case noComma =>
    intro w h v hv
    rw [moreArguments_eq v, moreArguments_eq w, hv.kind_peek, if_neg h, if_neg h]
    exact .here hv rfl

/-! ### Statements and programs -/

theorem advanceToSemicolon_follows (hR : Relabels f R) (w : Window σ) :
    ∀ v : Window τ, v.Follows f R w →
      (advanceToSemicolon v).1.Follows f R (advanceToSemicolon w).1 := by
  fun_induction advanceToSemicolon w with
  | case1 w h =>
    intro v hv
    rw [advanceToSemicolon_eq v, if_pos (hv.kind_current.trans h)]
    exact hv
  | case2 w h h' =>
    intro v hv
    rw [advanceToSemicolon_eq v, hv.kind_current, if_neg h, if_pos h']
    exact hv
  | case3 w h h' stop ih =>
    intro v hv
    rw [advanceToSemicolon_eq v, hv.kind_current, if_neg h, if_neg h']
    exact ih _ (hv.advance hR)

theorem binding_follows (hR : Relabels f R) {w : Window σ} {v : Window τ} (h : v.Follows f R w) :
    (binding v).1.Follows f R (Option.map (Statement.mapSpan f)) (binding w).1 := by
  have hnext := h.advance hR
  rw [binding_eq v, binding_eq w, h.kind_peek, hnext.kind_peek, h.span_peek, hnext.span_peek]
  split
  · split
    · refine .here (advanceToSemicolon_follows hR _ _ (hnext.advance hR)) ?_
      rw [h.current, h.peek]
      rfl
    · exact ⟨rfl, rfl, hnext⟩
  · exact ⟨rfl, rfl, h⟩

theorem returning_follows (hR : Relabels f R) {w : Window σ} {v : Window τ} (h : v.Follows f R w) :
    (returning v).1.Follows f R (Option.map (Statement.mapSpan f)) (returning w).1 := by
  refine .here (advanceToSemicolon_follows hR _ _ (h.advance hR)) ?_
  rw [h.current]
  rfl

theorem bareExpression_follows (hR : Relabels f R) {w : Window σ} {v : Window τ}
    (h : v.Follows f R w) :
    (bareExpression v).1.Follows f R (Option.map (Statement.mapSpan f)) (bareExpression w).1 := by
  have he := (readings_follow hR).1 .lowest w v h
  rw [bareExpression_eq v, bareExpression_eq w, he.window.kind_peek, he.value, h.current]
  split
  · exact ⟨rfl, he.errors, he.window.advance hR⟩
  · exact ⟨rfl, he.errors, he.window⟩

theorem statement_follows (hR : Relabels f R) {w : Window σ} {v : Window τ} (h : v.Follows f R w) :
    (statement v).Follows f R (Option.map (Statement.mapSpan f)) (statement w) := by
  by_cases hlet : w.current.kind = .letWord
  · rw [statement_eq_binding hlet, statement_eq_binding (h.kind_current.trans hlet)]
    exact binding_follows hR h
  by_cases hret : w.current.kind = .returnWord
  · rw [statement_eq_returning hret, statement_eq_returning (h.kind_current.trans hret)]
    exact returning_follows hR h
  · rw [statement_eq_bareExpression hlet hret, statement_eq_bareExpression
      (h.kind_current ▸ hlet) (h.kind_current ▸ hret)]
    exact bareExpression_follows hR h

theorem statements_follow (hR : Relabels f R) (w : Window σ) :
    ∀ v : Window τ, v.Follows f R w →
      (statements v).Follows f R (List.map (Statement.mapSpan f)) (statements w) := by
  fun_induction statements w with
  | case1 w h =>
    intro v hv
    rw [statements_eq v, if_pos (hv.kind_current.trans h)]
    exact .here hv rfl
  | case2 w h first more ih =>
    intro v hv
    have hfirst := statement_follows hR hv
    have hmore := ih _ (hfirst.window.advance hR)
    rw [statements_eq v, hv.kind_current, if_neg h]
    refine ⟨?_, ?_, hmore.window⟩
    · simp only [hfirst.value, hmore.value, List.map_append, Option.toList_map]
      rfl
    · simp only [hfirst.errors, hmore.errors, List.map_append]
      rfl

/-- **Parsing commutes with a map of spans.** -/
theorem parse_relabel (hR : Relabels f R) {s : σ} {t : τ} (h : R s t) :
    (parse t).1 = (parse s).1.mapSpan f ∧
      (parse t).2 = (parse s).2.map (SyntaxError.mapSpan f) := by
  have hs := statements_follow hR _ _ (Window.Follows.ofStream hR h)
  exact ⟨congrArg Program.mk hs.value, hs.errors⟩

/-- The same tokens are parsed alike, whatever hands them out. -/
theorem parse_eq_of_relabels (hR : Relabels id R) {s : σ} {t : τ} (h : R s t) :
    parse t = parse s := by
  obtain ⟨hprogram, herrors⟩ := parse_relabel hR h
  rw [Program.mapSpan_id] at hprogram
  rw [List.map_congr_left fun e _ => e.mapSpan_id, List.map_id'] at herrors
  exact Prod.ext hprogram herrors

end Follows

/-! ### Lists of tokens -/

/-- A list of tokens, to be handed out again, with all spans mapped. -/
def Replay.mapSpan (f : Span → Span) (r : Replay) : Replay :=
  ⟨r.tokens.map (Token.mapSpan f), r.eof.mapSpan f, r.kind_eof⟩

/-- **Parsing commutes with a map of the spans in a list of tokens.** -/
theorem parse_mapSpan (f : Span → Span) (r : Replay) :
    (parse (r.mapSpan f)).1 = (parse r).1.mapSpan f ∧
      (parse (r.mapSpan f)).2 = (parse r).2.map (SyntaxError.mapSpan f) := by
  have hrelabels : Relabels f fun r q : Replay => q = r.mapSpan f := by
    rintro ⟨ts, e, he⟩ _ rfl
    cases ts with
    | nil => exact ⟨rfl, rfl⟩
    | cons t ts => exact ⟨rfl, rfl⟩
  exact parse_relabel hrelabels rfl

end Sapling
