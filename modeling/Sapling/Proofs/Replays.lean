import Sapling.Proofs.ErrorDiagnostics
import Sapling.Proofs.Trails

/-!
# Tokens that are pulled, and tokens that are collected

It makes no difference whether tokens are pulled from a text as they are needed, or collected first,
or some pulled and the rest collected: streams that hand out the same tokens are parsed alike.  The
text makes its ends of input anew each time, the collected tokens repeat the one they ended with.

If only the tokens are kept and not the end that was found, the end of the input is put right after
the last token.  This shows in the errors at the end of the input, and nowhere else: no tree has the
end of the input for a token, and no parenthesis stands there.

## Main definitions

* `SyntaxError.Cause.found` — the kind of token that an error is about.
* `SyntaxError.withEnd` — an error as it is where the input ends at another offset.

## Main results

* `pull_of_relabels`, `pull_replay` — what is pulled from related streams, and from collected
  tokens.
* `collect_pull` — what is pulled from a text, and what is collected then.
* `parse_handle` — a stream is parsed alike behind a reference.
* `mapSpan_parse_eq` — a map of spans that changes no token of the input changes no program.
* `parse_collect` — pulling and collecting agree.
-/

namespace Sapling

open Text TokenStream Sapling.Parser

/-! ### Pulling -/

section Pulling

variable {σ τ : Type} {R : σ → τ → Prop}

/-- The same tokens are pulled from related streams, which stay related. -/
theorem pull_of_relabels [TokenStream σ] [TokenStream τ] (hR : Relabels id R) (n : Nat) :
    ∀ {s : σ} {t : τ}, R s t → (pull n t).1 = (pull n s).1 ∧ R (pull n s).2 (pull n t).2 := by
  induction n with
  | zero => exact fun h => ⟨rfl, h⟩
  | succ n ih =>
    intro s t h
    obtain ⟨hnext, hlater⟩ := hR s t h
    obtain ⟨htokens, hrest⟩ := ih hlater
    rw [Token.mapSpan_id] at hnext
    refine ⟨?_, hrest⟩
    rw [pull, pull, hnext, htokens]

/-- Collected tokens are handed out in order, and after them their end again and again. -/
theorem pull_replay (n : Nat) : ∀ r : Replay,
    pull n r = (r.tokens.take n ++ List.replicate (n - r.tokens.length) r.eof,
      ⟨r.tokens.drop n, r.eof, r.kind_eof⟩) := by
  induction n with
  | zero =>
    intro r
    simp [pull]
  | succ n ih =>
    rintro ⟨ts, e, he⟩
    cases ts with
    | nil =>
      have hnext : TokenStream.next (⟨[], e, he⟩ : Replay) = (e, ⟨[], e, he⟩) := rfl
      simp [pull, hnext, ih, List.replicate_succ]
    | cons t ts =>
      have hnext : TokenStream.next (⟨t :: ts, e, he⟩ : Replay) = (t, ⟨ts, e, he⟩) := rfl
      simp [pull, hnext, ih]

/-- What is collected from what is left of a text are the tokens that it is laid out as. -/
theorem Cuts.collect_eq {l : Lexer} {r : Replay} (h : Cuts l r) : collect l = r := by
  obtain ⟨ts, e, he⟩ := r
  obtain ⟨hlaid, rfl⟩ : Laid l.cursor.offset l.cursor.rest ts ∧
    e = .eof (l.cursor.offset + byteLength l.cursor.rest) := h
  have hdrain : drain l = (ts, .eof (l.cursor.offset + byteLength l.cursor.rest)) := hlaid.drain_eq
  simp only [collect, hdrain]

/-- Every text is laid out as the tokens that are collected from it, with its end after them. -/
theorem exists_collect (text : List Char) : ∃ ts, Laid 0 text ts ∧
    Cuts (Lexer.ofText text) ⟨ts, .eof (byteLength text), rfl⟩ ∧
      collect (Lexer.ofText text) = ⟨ts, .eof (byteLength text), rfl⟩ := by
  obtain ⟨ts, hlaid⟩ := exists_laid text.length 0 (Nat.le_refl _)
  have hcuts : Cuts (Lexer.ofText text) ⟨ts, .eof (byteLength text), rfl⟩ :=
    ⟨hlaid, congrArg Token.eof (Nat.zero_add _).symm⟩
  exact ⟨ts, hlaid, hcuts, hcuts.collect_eq⟩

/-- **Some tokens of a text are pulled, the others collected**: the tokens are divided between the
two, and none of them is an end of input. -/
theorem collect_pull (text : List Char) (k : Nat) :
    let whole := collect (Lexer.ofText text)
    (pull k (Lexer.ofText text)).1.filter (·.kind ≠ .eof) = whole.tokens.take k ∧
      collect (pull k (Lexer.ofText text)).2
        = ⟨whole.tokens.drop k, whole.eof, whole.kind_eof⟩ := by
  obtain ⟨ts, hlaid, hcuts, hcollect⟩ := exists_collect text
  obtain ⟨htokens, hrest⟩ := pull_of_relabels relabels_cuts k hcuts
  rw [pull_replay] at htokens hrest
  rw [hcollect]
  refine ⟨?_, hrest.collect_eq⟩
  have htaken : (ts.take k).filter (·.kind ≠ .eof) = ts.take k := by
    refine List.filter_eq_self.2 ?_
    intro t ht
    simpa using hlaid.kind_ne_eof t (List.mem_of_mem_take ht)
  rw [← htokens, List.filter_append, htaken]
  simp

/-- **Parsing a text is parsing the tokens that are collected from it.** -/
theorem parse_collect_eq (text : List Char) :
    parse (collect (Lexer.ofText text)) = parseText text := by
  obtain ⟨ts, -, hcuts, hcollect⟩ := exists_collect text
  rw [hcollect]
  exact parse_eq_of_relabels relabels_cuts hcuts

/-- **A stream is parsed alike behind a reference.** -/
theorem parse_handle [TokenStream σ] (s : σ) : parse (⟨s⟩ : Handle σ) = parse s := by
  have hR : Relabels id fun (s : σ) (h : Handle σ) => h.stream = s := by
    rintro _ h rfl
    exact ⟨rfl, rfl⟩
  exact parse_eq_of_relabels hR rfl

end Pulling

/-! ### Maps that change no token of a tree -/

section MapSpan

variable {f : Span → Span}

theorem Token.mapSpan_eq_self {t : Token} (h : f t.span = t.span) : t.mapSpan f = t := by
  rw [mapSpan, h]

theorem Expr.mapSpan_of_walk {e : Expr} (h : ∀ t ∈ e.walk, f t.span = t.span) :
    e.mapSpan f = e := by
  induction e with
  | hole => rfl
  | ident name =>
    have hname := Token.mapSpan_eq_self (h name.token (by simp [walk]))
    rw [mapSpan, Ident.mapSpan, hname]
  | int t n =>
    have ht := Token.mapSpan_eq_self (h t (by simp [walk]))
    rw [mapSpan, ht]
  | bool t b =>
    have ht := Token.mapSpan_eq_self (h t (by simp [walk]))
    rw [mapSpan, ht]
  | unary t op operand ih =>
    obtain ⟨ht, hoperand⟩ := List.forall_mem_cons.1 h
    rw [mapSpan, Token.mapSpan_eq_self ht, ih hoperand]
  | binary t left op right ihl ihr =>
    obtain ⟨hleft, hlater⟩ := List.forall_mem_append.1 h
    obtain ⟨ht, hright⟩ := List.forall_mem_cons.1 hlater
    rw [mapSpan, Token.mapSpan_eq_self ht, ihl hleft, ihr hright]
  | call t function arguments ihf iha =>
    obtain ⟨hfunction, hlater⟩ := List.forall_mem_append.1 h
    obtain ⟨ht, harguments⟩ := List.forall_mem_cons.1 hlater
    have hmap : arguments.map (mapSpan f) = arguments := by
      have hsame : ∀ a ∈ arguments, a.mapSpan f = a := fun a ha =>
        iha a ha fun t ht => harguments t (mem_walks.2 ⟨a, ha, ht⟩)
      rw [List.map_congr_left hsame]
      exact List.map_id' _
    rw [mapSpan, mapSpans_eq_map, Token.mapSpan_eq_self ht, ihf hfunction, hmap]

/-- A map of spans matters only at the tokens of a statement. -/
theorem Statement.mapSpan_of_walk {s : Statement} (htoken : f s.token.span = s.token.span)
    (h : ∀ t ∈ s.walk, f t.span = t.span) : s.mapSpan f = s := by
  have ht := Token.mapSpan_eq_self htoken
  cases s with
  | binding t name value =>
    obtain ⟨-, hlater⟩ := List.forall_mem_cons.1 h
    obtain ⟨hname, hvalue⟩ := List.forall_mem_cons.1 hlater
    rw [mapSpan, Ident.mapSpan, Token.mapSpan_eq_self hname, Expr.mapSpan_of_walk hvalue]
    exact congrArg (Statement.binding · name value) ht
  | returning t value =>
    obtain ⟨-, hvalue⟩ := List.forall_mem_cons.1 h
    rw [mapSpan, Expr.mapSpan_of_walk hvalue]
    exact congrArg (Statement.returning · value) ht
  | expression t value =>
    rw [mapSpan, Expr.mapSpan_of_walk h]
    exact congrArg (Statement.expression · value) ht

end MapSpan

/-- All tokens of a program that is read from a list of tokens are tokens of the list. -/
theorem mem_of_parse {ts : List Token} {e : Token} (he : e.kind = .eof) :
    ∀ s ∈ (parse (⟨ts, e, he⟩ : Replay)).1.statements, s.token ∈ ts ∧ ∀ t ∈ s.walk, t ∈ ts := by
  obtain ⟨rounds, rest, hrounds, hvalue, hfaithful⟩ := exists_rounds he _ ts rfl
  have hstatements : (parse (⟨ts, e, he⟩ : Replay)).1.statements
      = rounds.filterMap Round.statement := hvalue
  rw [hstatements]
  intro s hs
  obtain ⟨r, hr, hs⟩ := List.mem_filterMap.1 hs
  have hsub : ∀ t ∈ r.tokens, t ∈ ts := by
    intro t ht
    rw [hrounds.tokens_eq]
    exact List.mem_append_left _ (List.mem_flatMap.2 ⟨r, hr, ht⟩)
  exact ⟨hsub _ (List.mem_of_head? ((hfaithful r hr).token s hs)),
    fun t ht => hsub t (((hfaithful r hr).walk s hs).subset ht)⟩

/-- **A map of spans that changes none of the given tokens changes nothing in a program.** -/
theorem mapSpan_parse_eq {f : Span → Span} {ts : List Token} {e : Token} (he : e.kind = .eof)
    (h : ∀ t ∈ ts, f t.span = t.span) :
    (parse (⟨ts, e, he⟩ : Replay)).1.mapSpan f = (parse (⟨ts, e, he⟩ : Replay)).1 := by
  have hmap : ∀ s ∈ (parse (⟨ts, e, he⟩ : Replay)).1.statements, s.mapSpan f = s := by
    intro s hs
    obtain ⟨htoken, hwalk⟩ := mem_of_parse he s hs
    exact Statement.mapSpan_of_walk (h _ htoken) fun t ht => h t (hwalk t ht)
  rw [Program.mapSpan, List.map_congr_left hmap, List.map_id']

/-! ### The end of the input in another place -/

/-- The kind of token that an error is about. -/
def SyntaxError.Cause.found : SyntaxError.Cause → TokenKind
  | unexpected _ found => found
  | noOperand found => found
  | invalidInteger _ => .int

theorem SyntaxError.Cause.Names.kind_eq {cause : SyntaxError.Cause} {t : Token}
    (h : cause.Names t) : t.kind = cause.found := by
  cases cause with
  | unexpected _ _ => exact h
  | noOperand _ => exact h
  | invalidInteger _ => exact h.1

/-- The same error where the input ends at another offset: it is in another place if it is about the
end of the input. -/
def SyntaxError.withEnd (offset : Nat) (e : SyntaxError) : SyntaxError :=
  if e.cause.found = .eof then ⟨e.cause, .empty offset, e.unclosed⟩ else e

/-- The map of spans that moves the end of the input from an offset to another one. -/
def Span.moveEnd (old new : Nat) (s : Span) : Span := if s = .empty old then .empty new else s

theorem Token.FoundIn.moveEnd_eq {text : List Char} {t : Token} (h : t.FoundIn text)
    (old new : Nat) : t.span.moveEnd old new = t.span := by
  have hne : t.span ≠ .empty old := by
    intro heq
    have hlt := h.nonempty
    rw [heq] at hlt
    exact absurd hlt (Nat.lt_irrefl old)
  exact if_neg hne

/-- A token of a text is its end, or stands somewhere in it. -/
theorem Text.HasToken.cases {text : List Char} {t : Token} (h : HasToken text t) :
    t = .eof (byteLength text) ∨ t.kind ≠ .eof ∧ t.FoundIn text := by
  obtain ⟨ts, hlaid⟩ := exists_laid text.length 0 (Nat.le_refl _)
  rcases h with ht | rfl
  · have hmem := (hlaid.mem_iff t).1 ht
    exact Or.inr ⟨hlaid.kind_ne_eof t hmem, hlaid.foundIn t hmem⟩
  · exact Or.inl rfl

/-- An error about tokens of a text is about its end just if it is in that place. -/
theorem SyntaxError.FoundIn.found_eq_iff {text : List Char} {e : SyntaxError}
    (h : e.FoundIn (HasToken text)) :
    e.cause.found = .eof ↔ e.span = .empty (byteLength text) := by
  obtain ⟨t, ht, hspan, hnames⟩ := h.found
  rw [← hspan, ← hnames.kind_eq]
  rcases ht.cases with rfl | ⟨hkind, hfound⟩
  · simp [Token.eof]
  · constructor
    · exact fun heof => absurd heof hkind
    · intro heq
      have hlt := hfound.nonempty
      rw [heq] at hlt
      exact absurd hlt (Nat.lt_irrefl _)

/-- Moving the end of the input moves the errors about it, and no parenthesis. -/
theorem SyntaxError.FoundIn.mapSpan_moveEnd {text : List Char} {e : SyntaxError}
    (h : e.FoundIn (HasToken text)) (new : Nat) :
    e.mapSpan (Span.moveEnd (byteLength text) new) = e.withEnd new := by
  have hiff := h.found_eq_iff
  obtain ⟨cause, span, unclosed⟩ := e
  -- an opening parenthesis is a token of the text, which has a width
  have hopening : unclosed.map (Span.moveEnd (byteLength text) new) = unclosed := by
    cases unclosed with
    | none => rfl
    | some s =>
      obtain ⟨t, ht, rfl, hkind⟩ := h.unclosed s rfl
      rcases ht.cases with rfl | ⟨-, hfound⟩
      · cases hkind
      · rw [Option.map_some, hfound.moveEnd_eq]
  simp only [mapSpan, withEnd, hopening, Span.moveEnd]
  by_cases hend : span = .empty (byteLength text)
  · rw [if_pos hend, if_pos (hiff.2 hend)]
  · rw [if_neg hend, if_neg fun hfound => hend (hiff.1 hfound)]

/-- The collected tokens with the end right after the last of them are the collected tokens with the
end moved. -/
theorem ofTokens_eq_mapSpan {text : List Char} {ts : List Token} (h : Laid 0 text ts) :
    Replay.ofTokens ts = (⟨ts, .eof (byteLength text), rfl⟩ : Replay).mapSpan
      (Span.moveEnd (byteLength text) (ts.getLast?.elim 0 fun t => t.span.stop)) := by
  have htokens : ts.map (Token.mapSpan (Span.moveEnd (byteLength text)
      (ts.getLast?.elim 0 fun t => t.span.stop))) = ts := by
    rw [List.map_congr_left fun t ht => Token.mapSpan_eq_self ((h.foundIn t ht).moveEnd_eq _ _)]
    exact List.map_id' _
  have hmoved : (Span.empty (byteLength text)).moveEnd (byteLength text)
      (ts.getLast?.elim 0 fun t => t.span.stop)
        = .empty (ts.getLast?.elim 0 fun t => t.span.stop) := if_pos rfl
  simp only [Replay.mapSpan, htokens, Token.mapSpan, Token.eof, hmoved]
  rfl

/-- **If the end of a text is not kept with its tokens**, only the errors about it are in another
place. -/
theorem parse_ofTokens_of_laid {text : List Char} {ts : List Token} (h : Laid 0 text ts) :
    (parse (Replay.ofTokens ts)).1 = (parseText text).1 ∧
      (parse (Replay.ofTokens ts)).2 = (parseText text).2.map
        (SyntaxError.withEnd (ts.getLast?.elim 0 fun t => t.span.stop)) := by
  obtain ⟨hprogram, herrors⟩ := parse_mapSpan (Span.moveEnd (byteLength text)
    (ts.getLast?.elim 0 fun t => t.span.stop)) ⟨ts, .eof (byteLength text), rfl⟩
  rw [← ofTokens_eq_mapSpan h] at hprogram herrors
  constructor
  · -- no token of the program is the end that was moved
    have hsame := mapSpan_parse_eq (Token.kind_eof (byteLength text)) fun t ht =>
      (h.foundIn t ht).moveEnd_eq (byteLength text) (ts.getLast?.elim 0 fun t => t.span.stop)
    exact hprogram.trans (hsame.trans (congrArg Prod.fst h.parseText_eq).symm)
  · have hmoved : ∀ e ∈ (parseText text).2, e.mapSpan (Span.moveEnd (byteLength text)
        (ts.getLast?.elim 0 fun t => t.span.stop))
          = e.withEnd (ts.getLast?.elim 0 fun t => t.span.stop) :=
      fun e he => (parseText_foundIn text e he).mapSpan_moveEnd _
    have hplain := congrArg Prod.snd h.parseText_eq
    exact (herrors.trans (congrArg _ hplain.symm)).trans (List.map_congr_left hmoved)

/-! ### Pulling and collecting -/

/-- **Pulling and collecting agree.**  However many tokens are pulled from a text before the rest is
collected, these are the tokens that are collected at once, with the same end, which is handed out
again and again after them.  The tokens are parsed alike, whether they are pulled, collected, or
behind a reference.  If the end that was found is not kept, only the errors about it are in another
place: right after the last token. -/
theorem parse_collect (text : List Char) :
    let whole := collect (Lexer.ofText text)
    (∀ k, let pulled := pull k (Lexer.ofText text)
      pulled.1.filter (·.kind ≠ .eof) ++ (collect pulled.2).tokens = whole.tokens ∧
        (collect pulled.2).eof = whole.eof ∧
        ∀ n, (pull ((collect pulled.2).tokens.length + n) (collect pulled.2)).1
          = (collect pulled.2).tokens ++ List.replicate n whole.eof) ∧
      parse whole = parseText text ∧
      (∀ (σ : Type) [TokenStream σ] (s : σ), parse (⟨s⟩ : Handle σ) = parse s) ∧
      (parse (Replay.ofTokens whole.tokens)).1 = (parseText text).1 ∧
      (parse (Replay.ofTokens whole.tokens)).2 = (parseText text).2.map
        (SyntaxError.withEnd (whole.tokens.getLast?.elim 0 fun t => t.span.stop)) ∧
      whole.eof.span = .empty (byteLength text) ∧
      ∀ e ∈ (parseText text).2, e.cause.found = .eof ↔ e.span = .empty (byteLength text) := by
  intro whole
  obtain ⟨ts, hlaid, -, hcollect⟩ := exists_collect text
  have hwhole : whole = ⟨ts, .eof (byteLength text), rfl⟩ := hcollect
  have hend := parse_ofTokens_of_laid hlaid
  refine ⟨?_, parse_collect_eq text, fun σ _ s => parse_handle s, ?_, ?_, ?_, ?_⟩
  · intro k pulled
    obtain ⟨htokens, hrest⟩ := collect_pull text k
    rw [htokens, hrest]
    refine ⟨List.take_append_drop k _, rfl, ?_⟩
    intro n
    rw [pull_replay, List.take_of_length_le (Nat.le_add_right _ _), Nat.add_sub_cancel_left]
  · rw [hwhole]
    exact hend.1
  · rw [hwhole]
    exact hend.2
  · rw [hwhole]
    rfl
  · exact fun e he => (parseText_foundIn text e he).found_eq_iff

end Sapling
