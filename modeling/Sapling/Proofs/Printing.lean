import Sapling.Proofs.SourceText

/-!
# Printing, and reading back

The printed form of an expression stands in parentheses wherever an operator is applied, so it is
laid out as a phrase that is finished: nothing around it can take it apart.  Reading it back gives
the same tree, with other spans.

The lemmas about layout are stated with an arbitrary text after the printed one, whose layout is
known already.  This way printed texts are laid out from their ends, as the rules for layouts are.

## Main definitions

* `Expr.WellFormed`, `Statement.WellFormed`, `Program.WellFormed` — trees without holes whose tokens
  are what the nodes say.
* `Statement.source`, `Program.source` — printed statements and programs, as source text.
* `Statement.bare` — a statement without the places of its tokens.
* `Prints`, `PrintsPhrase`, `WrittenProgram` — what a text stands for: tokens, with any text after
  it; a phrase that nothing takes apart; a program.

## Main results

* `Expr.WellFormed.printsPhrase` — printed expressions stand for phrases.
* `Program.WellFormed.written` — printed programs are written as programs.
* `wellFormed_of_parseText` — what is parsed without errors is well formed.
* `parseText_source` — **printing and then parsing is the identity**.
-/

namespace Sapling

open Text Lexer TokenKind

/-! ### Well formed trees -/

/-- The literal of a token is one that belongs to its kind. -/
def Token.WellSpelled (t : Token) : Prop := Spells t.kind t.literal.toList

/-- An expression without holes, whose tokens are what the nodes say. -/
inductive Expr.WellFormed : Expr → Prop where
  /-- A name or a literal. -/
  | atom {t : Token} {e : Expr} : Atom t e → t.WellSpelled → WellFormed e
  /-- An operator before its operand. -/
  | unary {t : Token} {op : UnaryOp} {operand : Expr} : UnaryOp.ofKind? t.kind = some op →
      t.WellSpelled → WellFormed operand → WellFormed (.unary t op operand)
  /-- An operator between its operands. -/
  | binary {t : Token} {left right : Expr} {op : BinaryOp} : BinaryOp.ofKind? t.kind = some op →
      t.WellSpelled → WellFormed left → WellFormed right → WellFormed (.binary t left op right)
  /-- A call. -/
  | call {t : Token} {function : Expr} {arguments : List Expr} : t.kind = .leftParen →
      t.WellSpelled → WellFormed function → (∀ a ∈ arguments, WellFormed a) →
      WellFormed (.call t function arguments)

/-- A statement whose tokens are what it says.  What is bound or returned is absent, and an
expression is well formed; the token that it starts with does not matter. -/
def Statement.WellFormed : Statement → Prop
  | .binding t name value =>
    t.kind = .letWord ∧ t.WellSpelled ∧ name.token.kind = .ident ∧ name.token.WellSpelled ∧
      name.value = name.token.literal ∧ value = .hole
  | .returning t value => t.kind = .returnWord ∧ t.WellSpelled ∧ value = .hole
  | .expression _ value => value.WellFormed

/-- All statements of the program are well formed. -/
def Program.WellFormed (p : Program) : Prop := ∀ s ∈ p.statements, s.WellFormed

/-! ### Printed programs -/

/-- A printed statement, with a semicolon at its end. -/
def Statement.source : Statement → String
  | .expression t value => (Statement.expression t value).display ++ ";"
  | s => s.display

/-- The printed statements of a program, each on a line of its own. -/
def Program.source (p : Program) : String := "\n".intercalate (p.statements.map Statement.source)

/-! ### Trees without places -/

/-- A statement without the places of its tokens.  The first token of an expression is left out,
because it may be a parenthesis that leaves no trace in the tree. -/
def Statement.bare : Statement → Statement
  | .binding t name value =>
      .binding (t.mapSpan .forget) (name.mapSpan .forget) (value.mapSpan .forget)
  | .returning t value => .returning (t.mapSpan .forget) (value.mapSpan .forget)
  | .expression _ value => .expression (.eof 0) (value.mapSpan .forget)

/-- The printed form does not depend on spans. -/
@[simp] theorem Expr.display_mapSpan (f : Span → Span) (e : Expr) :
    (e.mapSpan f).display = e.display := by
  induction e with
  | call t function arguments ihf iha =>
    have hargs : arguments.map (display ∘ mapSpan f) = arguments.map display :=
      List.map_congr_left iha
    simp only [mapSpan, mapSpans_eq_map, display, displays_eq_map, List.map_map, ihf, hargs]
  | hole => rfl
  | ident name => rfl
  | int t n => rfl
  | bool t b => rfl
  | unary t op operand ih => simp only [mapSpan, display, ih]
  | binary t left op right ihl ihr => simp only [mapSpan, display, ihl, ihr]

@[simp] theorem Statement.display_mapSpan (f : Span → Span) (s : Statement) :
    (s.mapSpan f).display = s.display := by
  cases s <;> simp [mapSpan, display, Ident.mapSpan]

@[simp] theorem Program.display_mapSpan (f : Span → Span) (p : Program) :
    (p.mapSpan f).display = p.display := by
  simp [mapSpan, display, Function.comp_def]

theorem Atom.mapSpan (f : Span → Span) {t : Token} {e : Expr} (h : Atom t e) :
    Atom (t.mapSpan f) (e.mapSpan f) := by
  cases h with
  | ident h => exact .ident h
  | int h hn => exact .int h hn
  | trueWord h => exact .trueWord h
  | falseWord h => exact .falseWord h

theorem Atom.kind_ne_illegal {t : Token} {e : Expr} (h : Atom t e) : t.kind ≠ .illegal := by
  cases h with
  | ident h => rw [h]; decide
  | int h => rw [h]; decide
  | trueWord h => rw [h]; decide
  | falseWord h => rw [h]; decide

theorem Atom.display {t : Token} {e : Expr} (h : Atom t e) : e.display = t.literal := by
  cases h <;> rfl

/-! ### Tokens that are what they say -/

theorem Token.WellSpelled.literal_of_symbol {t : Token} {s : String} (h : t.WellSpelled)
    (hs : t.kind.symbol? = some s) : t.literal = s :=
  String.toList_inj.1 (Spells.eq_of_symbol h hs)

theorem UnaryOp.symbol_ofKind {kind : TokenKind} {op : UnaryOp} (h : ofKind? kind = some op) :
    kind.symbol? = some op.symbol := by
  cases kind <;> cases h <;> rfl

theorem BinaryOp.symbol_ofKind {kind : TokenKind} {op : BinaryOp} (h : ofKind? kind = some op) :
    kind.symbol? = some op.symbol := by
  cases kind <;> cases h <;> rfl

theorem TokenKind.ne_illegal_of_symbol {kind : TokenKind} {s : String} (h : kind.symbol? = some s) :
    kind ≠ .illegal := by
  rintro rfl
  cases h

/-! ### Printed expressions -/

/-- Names and literals go on over letters, digits and underscores. -/
theorem Atom.continuedBy {t : Token} {e : Expr} (h : Atom t e) (c : Char) :
    t.kind.ContinuedBy c ↔ isWordChar c := by
  cases h with
  | ident h => rw [h]; exact Iff.rfl
  | int h => rw [h]; exact Iff.rfl
  | trueWord h => rw [h]; exact Iff.rfl
  | falseWord h => rw [h]; exact Iff.rfl

/-- Operators before an operand do not go on over what printed expressions begin with. -/
theorem UnaryOp.endsBefore {kind : TokenKind} {op : UnaryOp} (h : ofKind? kind = some op) {c : Char}
    (hc : isWordChar c ∨ c = '(') (rest : List Char) : kind.EndsBefore (c :: rest) := by
  intro d hd hcont
  obtain rfl : c = d := by simpa using hd
  cases kind <;> cases h
  case minus => exact hcont
  case bang =>
    obtain rfl : c = '=' := hcont
    revert hc
    decide

/-- Printed expressions begin like a word, like an integer literal, or with a parenthesis. -/
theorem Expr.WellFormed.exists_display_eq_cons {e : Expr} (h : e.WellFormed) :
    ∃ c w, e.display.toList = c :: w ∧ (isWordChar c ∨ c = '(') := by
  induction h with
  | @atom t e ha ht =>
    obtain ⟨c, w, hw⟩ := List.exists_cons_of_ne_nil (Spells.ne_nil ht)
    have hspells : Spells t.kind (c :: w) := hw ▸ ht
    refine ⟨c, w, by rw [ha.display, hw], Or.inl ?_⟩
    exact hspells.isWordChar_head ((ha.continuedBy 'a').2 (by decide))
  | unary => exact ⟨'(', _, by simp [display]; rfl, Or.inr rfl⟩
  | binary => exact ⟨'(', _, by simp [display]; rfl, Or.inr rfl⟩
  | call _ _ _ _ ihf _ =>
    obtain ⟨c, w, hf, hc⟩ := ihf
    exact ⟨c, _, by simp [display, hf]; rfl, hc⟩

/-- A text stands for some tokens, wherever no word goes on after it. -/
def Prints (text : List Char) (us : List Token) : Prop :=
  ∀ after vs, (∀ c ∈ after.head?, ¬ isWordChar c) → WrittenAs after vs →
    WrittenAs (text ++ after) (us ++ vs)

/-- A token of a kind that has a symbol, at no place. -/
def symbolToken (kind : TokenKind) (s : String) : Token := ⟨kind, s, .empty 0⟩

/-- A printed expression stands for a phrase that nothing takes apart, with the same tree. -/
def PrintsPhrase (e : Expr) : Prop :=
  ∃ d : Phrase, Derives .call d ∧ d.tree = e.mapSpan .forget ∧ Prints e.display.toList d.tokens

/-- A symbol in front of a text. -/
theorem WrittenAs.symbol (kind : TokenKind) (s : String) (hs : kind.symbol? = some s)
    {rest : List Char} {us : List Token} (hends : kind.EndsBefore rest) (h : WrittenAs rest us) :
    WrittenAs (s.toList ++ rest) (symbolToken kind s :: us) := by
  have ht : Lexeme (symbolToken kind s).kind (symbolToken kind s).literal.toList :=
    .spelled (.symbol hs)
  exact WrittenAs.token ht hends h

theorem WrittenAs.space {rest : List Char} {us : List Token} (h : WrittenAs rest us) :
    WrittenAs (' ' :: rest) us :=
  h.blank rfl

/-- All tokens may end before a space. -/
theorem endsBefore_space (kind : TokenKind) (rest : List Char) : kind.EndsBefore (' ' :: rest) :=
  kind.endsBefore_cons (by decide) (by decide) (by decide) rest

theorem WrittenAs.openParen {rest : List Char} {us : List Token} (h : WrittenAs rest us) :
    WrittenAs ('(' :: rest) (symbolToken .leftParen "(" :: us) :=
  h.symbol .leftParen "(" rfl fun _ _ h => h

theorem WrittenAs.closeParen {rest : List Char} {us : List Token} (h : WrittenAs rest us) :
    WrittenAs (')' :: rest) (symbolToken .rightParen ")" :: us) :=
  h.symbol .rightParen ")" rfl fun _ _ h => h

/-- Strings with a separator between them are the first one, and each other one after a separator.
-/
theorem toList_intercalate_cons (separator first : String) (more : List String) :
    (separator.intercalate (first :: more)).toList
      = first.toList ++ more.flatMap fun s => separator.toList ++ s.toList := by
  induction more generalizing first with
  | nil => simp
  | cons second more ih =>
    rw [String.intercalate_cons_cons, String.toList_append, ih second]
    simp

/-- No word goes on into further arguments, nor past them. -/
theorem head_moreArguments (es : List Expr) {after : List Char}
    (hafter : ∀ c ∈ after.head?, ¬ isWordChar c) :
    ∀ c ∈ ((es.flatMap fun e => ',' :: ' ' :: e.display.toList) ++ after).head?,
      ¬ isWordChar c := by
  cases es with
  | nil => exact hafter
  | cons e es =>
    simp
    decide

/-- Further arguments are printed with commas before them. -/
theorem exists_moreArguments : ∀ {es : List Expr}, (∀ e ∈ es, PrintsPhrase e) →
    ∃ more : MoreArguments, DerivesMore more ∧ more.trees = es.map (Expr.mapSpan .forget) ∧
      Prints (es.flatMap fun e => ',' :: ' ' :: e.display.toList) more.tokens := by
  intro es
  induction es with
  | nil =>
    intro _
    exact ⟨.nil, .nil, rfl, fun _ _ _ h => h⟩
  | cons e es ih =>
    intro hes
    obtain ⟨d, hd, htree, hprints⟩ := hes e (by simp)
    obtain ⟨more, hmore, htrees, hprints'⟩ := ih fun e he => hes e (by simp [he])
    refine ⟨.cons (symbolToken .comma ",") d more, .cons rfl (hd.mono (by decide)) hmore, ?_, ?_⟩
    · rw [MoreArguments.trees, htree, htrees, List.map_cons]
    · intro after vs hafter hwritten
      have hfirst := hprints _ _ (head_moreArguments es hafter) (hprints' after vs hafter hwritten)
      have hcomma := hfirst.space.symbol .comma "," rfl fun _ _ h => h
      simpa [MoreArguments.tokens] using hcomma

/-- Arguments are printed with commas between them. -/
theorem exists_arguments {es : List Expr} (hes : ∀ e ∈ es, PrintsPhrase e) :
    ∃ args : Arguments, DerivesArguments args ∧ args.trees = es.map (Expr.mapSpan .forget) ∧
      Prints (", ".intercalate (es.map Expr.display)).toList args.tokens := by
  cases es with
  | nil => exact ⟨.none, .none, rfl, fun _ _ _ h => h⟩
  | cons e es =>
    obtain ⟨d, hd, htree, hprints⟩ := hes e (by simp)
    obtain ⟨more, hmore, htrees, hprints'⟩ :=
      exists_moreArguments fun e he => hes e (List.mem_cons_of_mem _ he)
    refine ⟨.some d more, .some (hd.mono (by decide)) hmore, ?_, ?_⟩
    · rw [Arguments.trees, htree, htrees, List.map_cons]
    · intro after vs hafter hwritten
      have hfirst := hprints _ _ (head_moreArguments es hafter) (hprints' after vs hafter hwritten)
      rw [List.map_cons, toList_intercalate_cons, List.append_assoc, Arguments.tokens,
        List.append_assoc, List.flatMap_map]
      exact hfirst

/-- **Printed expressions stand for phrases** that nothing takes apart. -/
theorem Expr.WellFormed.printsPhrase {e : Expr} (h : e.WellFormed) : PrintsPhrase e := by
  induction h with
  | @atom t e ha ht =>
    refine ⟨.operand (t.mapSpan .forget) (e.mapSpan .forget), .operand (ha.mapSpan .forget), rfl,
      ?_⟩
    intro after vs hafter hwritten
    rw [ha.display]
    refine hwritten.token (.spelled ht) ?_
    intro c hc hcont
    exact hafter c hc ((ha.continuedBy c).1 hcont)
  | @unary t op operand hop ht hoperand ih =>
    obtain ⟨d, hd, htree, hprints⟩ := ih
    have hliteral : t.literal = op.symbol := ht.literal_of_symbol (UnaryOp.symbol_ofKind hop)
    refine ⟨.group (symbolToken .leftParen "(") (.unary (t.mapSpan .forget) op d)
      (symbolToken .rightParen ")"), .group rfl (.unary (by decide) hop (hd.mono (by decide))) rfl,
      ?_, ?_⟩
    · rw [Phrase.tree, Phrase.tree, htree, mapSpan]
    · -- the text is put together from its end, where its layout is known
      intro after vs _ hwritten
      obtain ⟨c, w, hdisplay, hc⟩ := hoperand.exists_display_eq_cons
      have hinner := hprints (')' :: after) _ (by simp; decide) hwritten.closeParen
      have htoken := hinner.token (.spelled ht) (hdisplay ▸ UnaryOp.endsBefore hop hc _)
      simpa [Phrase.tokens, display, hliteral] using htoken.openParen
  | @binary t left right op hop ht _ _ ihl ihr =>
    obtain ⟨l, hl, htreeL, hprintsL⟩ := ihl
    obtain ⟨r, hr, htreeR, hprintsR⟩ := ihr
    have hliteral : t.literal = op.symbol := ht.literal_of_symbol (BinaryOp.symbol_ofKind hop)
    have hphrase : Derives .lowest (.binary l (t.mapSpan .forget) op r) :=
      .binary (Nat.zero_le _) (hl.mono (Precedence.le_call _)) hop (hr.mono (Precedence.le_call _))
    refine ⟨.group (symbolToken .leftParen "(") (.binary l (t.mapSpan .forget) op r)
      (symbolToken .rightParen ")"), .group rfl hphrase rfl, ?_, ?_⟩
    · rw [Phrase.tree, Phrase.tree, htreeL, htreeR, mapSpan]
    · intro after vs _ hwritten
      have hright := hprintsR (')' :: after) _ (by simp; decide) hwritten.closeParen
      have htoken := hright.space.token (.spelled ht) (endsBefore_space _ _)
      have hleft := hprintsL _ _ (by simp; decide) htoken.space
      simpa [Phrase.tokens, display, hliteral] using hleft.openParen
  | @call t function arguments hk ht _ _ ihf iha =>
    obtain ⟨d, hd, htree, hprints⟩ := ihf
    obtain ⟨args, hargs, htrees, hprints'⟩ := exists_arguments iha
    have hliteral : t.literal = "(" := ht.literal_of_symbol (by rw [hk]; rfl)
    refine ⟨.call d (t.mapSpan .forget) args (symbolToken .rightParen ")"),
      .call hd hk hargs rfl, ?_, ?_⟩
    · rw [Phrase.tree, htree, htrees, mapSpan, mapSpans_eq_map]
    · -- what is called ends before the parenthesis, since no word goes on over it
      intro after vs _ hwritten
      have hinner := hprints' (')' :: after) _ (by simp; decide) hwritten.closeParen
      have htoken := hinner.token (.spelled ht) (by rw [hk]; exact fun _ _ h => h)
      rw [hliteral] at htoken
      have hfunction := hprints _ _ (by simp; decide) htoken
      simpa [Phrase.tokens, display, displays_eq_map, hliteral] using hfunction

/-! ### What is parsed is well formed -/

/-- The literals of all tokens belong to their kinds. -/
def AllLexemes (ts : List Token) : Prop := ∀ t ∈ ts, Lexeme t.kind t.literal.toList

mutual

theorem Derives.wellFormed {p : Precedence} :
    ∀ {d : Phrase}, Derives p d → AllLexemes d.tokens → d.tree.WellFormed
  | .operand t _, .operand ha, hts => by
    have ht : t.WellSpelled := (hts t (by simp [Phrase.tokens])).spells ha.kind_ne_illegal
    exact .atom ha ht
  | .group _ _ _, .group _ hd _, hts =>
    hd.wellFormed fun t ht => hts t (by simp [Phrase.tokens, ht])
  | .unary t op d, .unary _ hop hd, hts => by
    have ht : t.WellSpelled := (hts t (by simp [Phrase.tokens])).spells
      (ne_illegal_of_symbol (UnaryOp.symbol_ofKind hop))
    exact .unary hop ht (hd.wellFormed fun t ht => hts t (by simp [Phrase.tokens, ht]))
  | .binary l t op r, .binary _ hl hop hr, hts => by
    have ht : t.WellSpelled := (hts t (by simp [Phrase.tokens])).spells
      (ne_illegal_of_symbol (BinaryOp.symbol_ofKind hop))
    exact .binary hop ht (hl.wellFormed fun t ht => hts t (by simp [Phrase.tokens, ht]))
      (hr.wellFormed fun t ht => hts t (by simp [Phrase.tokens, ht]))
  | .call f opening args closing, .call hf hk hargs _, hts => by
    have ht : opening.WellSpelled :=
      (hts opening (by simp [Phrase.tokens])).spells (by rw [hk]; decide)
    exact .call hk ht (hf.wellFormed fun t ht => hts t (by simp [Phrase.tokens, ht]))
      (hargs.wellFormed fun t ht => hts t (by simp [Phrase.tokens, ht]))

theorem DerivesArguments.wellFormed :
    ∀ {args : Arguments}, DerivesArguments args → AllLexemes args.tokens →
      ∀ e ∈ args.trees, e.WellFormed
  | .none, .none, _ => by simp [Arguments.trees]
  | .some d more, .some hd hmore, hts => by
    have hfirst := hd.wellFormed fun t ht => hts t (by simp [Arguments.tokens, ht])
    have hlater := hmore.wellFormed fun t ht => hts t (by simp [Arguments.tokens, ht])
    simpa [Arguments.trees] using ⟨hfirst, hlater⟩

theorem DerivesMore.wellFormed :
    ∀ {more : MoreArguments}, DerivesMore more → AllLexemes more.tokens →
      ∀ e ∈ more.trees, e.WellFormed
  | .nil, .nil, _ => by simp [MoreArguments.trees]
  | .cons _ d more, .cons _ hd hmore, hts => by
    have hfirst := hd.wellFormed fun t ht => hts t (by simp [MoreArguments.tokens, ht])
    have hlater := hmore.wellFormed fun t ht => hts t (by simp [MoreArguments.tokens, ht])
    simpa [MoreArguments.trees] using ⟨hfirst, hlater⟩

end

theorem Clause.WellFormed.statement {c : Clause} (h : c.WellFormed) (hts : AllLexemes c.tokens) :
    c.statement.WellFormed := by
  cases c with
  | binding t name assign skipped stop =>
    obtain ⟨hlet, hident, -⟩ := h
    have ht : t.WellSpelled := (hts t (by simp [Clause.tokens])).spells (by rw [hlet]; decide)
    have hname : name.WellSpelled :=
      (hts name (by simp [Clause.tokens])).spells (by rw [hident]; decide)
    exact ⟨hlet, ht, hident, hname, rfl, rfl⟩
  | returning t skipped stop =>
    obtain ⟨hret, -⟩ := h
    exact ⟨hret, (hts t (by simp [Clause.tokens])).spells (by rw [hret]; decide), rfl⟩
  | expression d stop => exact h.1.wellFormed fun t ht => hts t (by simp [Clause.tokens, ht])

theorem Script.WellFormed.program : ∀ {s : Script}, s.WellFormed → AllLexemes s.tokens →
    s.program.WellFormed := by
  intro s
  induction s with
  | nil =>
    intro _ _ p hp
    cases hp
  | cons c later ih =>
    intro hs hts
    obtain ⟨hc, -, hlater⟩ := hs
    rw [Script.tokens_cons] at hts
    have hfirst := hc.statement fun t ht => hts t (List.mem_append_left _ ht)
    have hmore := ih hlater fun t ht => hts t (List.mem_append_right _ ht)
    exact List.forall_mem_cons.2 ⟨hfirst, hmore⟩

/-- **What is parsed without errors is well formed.** -/
theorem wellFormed_of_parseText {text : List Char} (h : (parseText text).2 = []) :
    (parseText text).1.WellFormed := by
  obtain ⟨s, hs, hlaid, hprogram⟩ := exists_script_of_parseText h
  rw [hprogram]
  exact hs.program hlaid.lexeme

/-! ### Printed programs are parsed -/

/-- A printed statement is written as a statement that its semicolon ends. -/
theorem Statement.WellFormed.exists_clause {s : Statement} (h : s.WellFormed) {after : List Char}
    {us : List Token} (hafter : WrittenAs after us) :
    ∃ c : Clause, c.WellFormed ∧ c.stop ≠ none ∧ c.statement.bare = s.bare ∧
      WrittenAs (s.source.toList ++ after) (c.tokens ++ us) := by
  have hsemi : WrittenAs (';' :: after) (symbolToken .semicolon ";" :: us) :=
    hafter.symbol .semicolon ";" rfl fun _ _ h => h
  cases s with
  | binding t name value =>
    obtain ⟨hlet, ht, hident, hname, hvalue, rfl⟩ := h
    have hassign := hsemi.space.symbol .assign "=" rfl (endsBefore_space _ _)
    have hname' := hassign.space.token (.spelled hname) (endsBefore_space _ _)
    have ht' := hname'.space.token (.spelled ht) (endsBefore_space _ _)
    refine ⟨.binding (t.mapSpan .forget) (name.token.mapSpan .forget) (symbolToken .assign "=") []
      (some (symbolToken .semicolon ";")), ⟨hlet, hident, rfl, by simp, by simp; rfl⟩,
      by simp [Clause.stop], ?_, ?_⟩
    · rw [Clause.statement, bare, bare, Ident.mapSpan, Ident.mapSpan, hvalue]
      rfl
    · simpa [Clause.tokens, source, display, Expr.display, hvalue] using ht'
  | returning t value =>
    obtain ⟨hret, ht, rfl⟩ := h
    have ht' := hsemi.space.token (.spelled ht) (endsBefore_space _ _)
    refine ⟨.returning (t.mapSpan .forget) [] (some (symbolToken .semicolon ";")),
      ⟨hret, by simp, by simp; rfl⟩, by simp [Clause.stop], rfl, ?_⟩
    simpa [Clause.tokens, source, display, Expr.display] using ht'
  | expression t value =>
    obtain ⟨d, hd, htree, hprints⟩ := Expr.WellFormed.printsPhrase h
    refine ⟨.expression d (some (symbolToken .semicolon ";")), ⟨hd.mono (by decide), by simp; rfl⟩,
      by simp [Clause.stop], ?_, ?_⟩
    · rw [Clause.statement, bare, bare, htree, Expr.mapSpan_mapSpan]
      rfl
    · have hwritten := hprints _ _ (by simp; decide) hsemi
      simpa [Clause.tokens, source, display] using hwritten

/-- A text is written as a program with the given statements. -/
def WrittenProgram (text : List Char) (ss : List Statement) : Prop :=
  ∃ script : Script, script.WellFormed ∧
    script.map (Statement.bare ∘ Clause.statement) = ss.map Statement.bare ∧
    WrittenAs text script.tokens

namespace WrittenProgram

variable {text : List Char} {ss : List Statement}

theorem nil : WrittenProgram [] [] := ⟨[], trivial, rfl, .nil⟩

theorem blank {c : Char} (hc : Lexer.isBlank c) (h : WrittenProgram text ss) :
    WrittenProgram (c :: text) ss := by
  obtain ⟨script, hscript, hbare, hwritten⟩ := h
  exact ⟨script, hscript, hbare, hwritten.blank hc⟩

/-- A printed statement in front of a program. -/
theorem cons {s : Statement} (hs : s.WellFormed) (h : WrittenProgram text ss) :
    WrittenProgram (s.source.toList ++ text) (s :: ss) := by
  obtain ⟨script, hscript, hbare, hwritten⟩ := h
  obtain ⟨c, hc, hstop, hbare', hwritten'⟩ := hs.exists_clause hwritten
  refine ⟨c :: script, ⟨hc, fun h => absurd h hstop, hscript⟩, ?_, hwritten'⟩
  rw [List.map_cons, List.map_cons, hbare]
  exact congrArg (· :: _) hbare'

/-- Printed statements, each after a line break. -/
theorem of_forall (hss : ∀ s ∈ ss, s.WellFormed) :
    WrittenProgram (ss.flatMap fun s => '\n' :: s.source.toList) ss := by
  induction ss with
  | nil => exact nil
  | cons s ss ih =>
    obtain ⟨hs, hss⟩ := List.forall_mem_cons.1 hss
    exact ((ih hss).cons hs).blank rfl

end WrittenProgram

/-- **Printed programs are written as programs** with the same statements. -/
theorem Program.WellFormed.written {p : Program} (h : p.WellFormed) :
    WrittenProgram p.source.toList p.statements := by
  obtain ⟨ss⟩ := p
  cases ss with
  | nil => exact .nil
  | cons s ss =>
    obtain ⟨hs, hss⟩ := List.forall_mem_cons.1 h
    rw [source, List.map_cons, toList_intercalate_cons, List.flatMap_map]
    exact (WrittenProgram.of_forall hss).cons hs

theorem Statement.bare_mapSpan (s : Statement) : (s.mapSpan .forget).bare = s.bare := by
  cases s with
  | binding t name value =>
    rw [mapSpan, bare, bare, Expr.mapSpan_mapSpan]
    rfl
  | returning t value =>
    rw [mapSpan, bare, bare, Expr.mapSpan_mapSpan]
    rfl
  | expression t value =>
    rw [mapSpan, bare, bare, Expr.mapSpan_mapSpan]
    rfl

/-- **Printing and then parsing is the identity.**  A printed program is parsed without errors as
the same program, the places of its tokens aside.  What is parsed without errors is well formed, so
this holds of it.  The printed form of an expression comes back as it is. -/
theorem parseText_source :
    (∀ p : Program, p.WellFormed → (parseText p.source.toList).2 = [] ∧
      (parseText p.source.toList).1.statements.map Statement.bare
        = p.statements.map Statement.bare) ∧
    (∀ text, (parseText text).2 = [] → (parseText text).1.WellFormed) ∧
    ∀ e : Expr, e.WellFormed → (parseText e.display.toList).2 = [] ∧
      (parseText e.display.toList).1.display = e.display := by
  refine ⟨?_, fun _ => wellFormed_of_parseText, ?_⟩
  · intro p hp
    obtain ⟨script, hscript, hbare, hwritten⟩ := hp.written
    obtain ⟨hprogram, herrors⟩ := hwritten.parseText_eq hscript
    have hstatements := congrArg (fun q : Program => q.statements.map Statement.bare) hprogram
    simp only [Program.mapSpan, Script.program, List.map_map, Function.comp_def,
      Statement.bare_mapSpan] at hstatements
    exact ⟨herrors, hstatements.trans hbare⟩
  · intro e he
    obtain ⟨d, hd, htree, hprints⟩ := he.printsPhrase
    have hscript : Script.WellFormed [.expression d none] :=
      ⟨⟨hd.mono (by decide), by simp⟩, fun _ => by simp [Clause.MayPrecede], trivial⟩
    have hwritten : WrittenAs e.display.toList (Script.tokens [.expression d none]) := by
      have := hprints [] [] (by simp) .nil
      simpa [Clause.tokens] using this
    obtain ⟨hprogram, herrors⟩ := hwritten.parseText_eq hscript
    refine ⟨herrors, ?_⟩
    rw [← Program.display_mapSpan .forget, hprogram]
    simp [Script.program, Program.display, Clause.statement, Statement.display, htree]

/-- The expression `(!f)(1)`, on its own and as a program. -/
theorem parseText_source_call :
    let bang : Token := ⟨.bang, "!", ⟨1, 2⟩⟩
    let f : Token := ⟨.ident, "f", ⟨2, 3⟩⟩
    let opening : Token := ⟨.leftParen, "(", ⟨4, 5⟩⟩
    let one : Token := ⟨.int, "1", ⟨5, 6⟩⟩
    let e : Expr := .call opening (.unary bang .not (.ident ⟨f, "f"⟩)) [.int one 1]
    let p : Program := ⟨[.expression bang e]⟩
    p.WellFormed ∧ (parseText p.source.toList).2 = [] ∧
      (parseText p.source.toList).1.statements.map Statement.bare
        = p.statements.map Statement.bare ∧
      (parseText p.source.toList).1.WellFormed ∧
      (parseText e.display.toList).1.display = "(!f)(1)" := by
  intro bang f opening one e p
  have htextF : "f".toList = ['f'] := by decide
  have htextOne : "1".toList = ['1'] := by decide
  have hspellsF : Spells .ident "f".toList := by
    rw [htextF]
    refine .name (by decide) (List.all_eq_true.1 (by decide)) ?_
    intro kind
    cases kind <;> decide
  have hspellsOne : Spells .int "1".toList := by
    rw [htextOne]
    exact .int (by decide) (List.all_eq_true.1 (by decide))
  have hvalue : Numeral.value? "1".toList = some 1 := by decide
  have hf : Expr.WellFormed (.ident ⟨f, "f"⟩) := .atom (t := f) (.ident rfl) hspellsF
  have hone : Expr.WellFormed (.int one 1) := .atom (t := one) (.int rfl hvalue) hspellsOne
  have he : e.WellFormed :=
    .call rfl (.symbol rfl) (.unary rfl (.symbol rfl) hf) (by simpa using hone)
  have hp : p.WellFormed := by
    intro s hs
    obtain rfl : s = .expression bang e := by simpa [p] using hs
    exact he
  obtain ⟨hprogram, hparsed, hexpr⟩ := parseText_source
  obtain ⟨herrors, hbare⟩ := hprogram p hp
  exact ⟨hp, herrors, hbare, hparsed _ herrors, (hexpr e he).2.trans (by decide)⟩

end Sapling
