import Mathlib.Data.List.Basic
import Sapling.Proofs.ErrorDiagnostics
import Sapling.Proofs.SourceText
import Sapling.Value

/-!
# Programs one after the other

A text that was parsed without errors may be gone on with on the next line.  If the parser is done
with its last statement there, what follows is parsed as if it were alone, mistakes included, only
further to the right.

## Main definitions

* `Span.shift` — a span further to the right.
* `MayContinue a b` — the statements of `a` end before those of `b` begin on the next line.

## Main results

* `Laid.append_newline`, `drain_append_newline` — the tokens of two texts with an end of line
  between them.
* `parse_append` — the parser on the tokens of a program, and more tokens.
* `parseText_append_newline` — the statements, the errors and the value of two texts with an end of
  line between them.
-/

namespace Sapling

open Text TokenStream Sapling.Parser

/-! ### Tokens of texts one after the other -/

/-- A span moved to the right. -/
def Span.shift (n : Nat) (s : Span) : Span := ⟨s.start + n, s.stop + n⟩

/-- A text further to the right is laid out alike. -/
theorem Laid.shift {offset : Nat} {text : List Char} {ts : List Token} (h : Laid offset text ts)
    (n : Nat) : Laid (offset + n) text (ts.map (Token.mapSpan (.shift n))) := by
  induction h with
  | done hgap => exact .done hgap
  | @token offset gap literal rest kind ts hgap hlex hends _ ih =>
    have hmore := ih
    rw [Nat.add_right_comm, Nat.add_right_comm offset] at hmore
    have hlaid := Laid.token hgap hlex hends hmore
    simpa only [List.map_cons, Token.mapSpan, Span.shift, Nat.add_right_comm _ _ n] using hlaid

/-- A token that may end where a text begins may also end there if more lines follow. -/
theorem TokenKind.EndsBefore.append_newline {kind : TokenKind} {rest : List Char}
    (h : kind.EndsBefore rest) (b : List Char) : kind.EndsBefore (rest ++ '\n' :: b) := by
  cases rest with
  | nil => exact endsBefore_cons kind (by decide) (by decide) (by decide) b
  | cons c rest => exact h

/-- **The tokens of two texts with an end of line between them** are those of the first, and then
those of the second. -/
theorem Laid.append_newline {offset : Nat} {a b : List Char} {ts us : List Token}
    (ha : Laid offset a ts) (hb : Laid (offset + byteLength a + 1) b us) :
    Laid offset (a ++ '\n' :: b) (ts ++ us) := by
  induction ha with
  | @done offset gap hgap =>
    -- a comment at the end of the first text ends with its line
    have hfirst : Gap ('\n' :: b) gap := hgap.of_head (by simp)
    have hsecond : Gap b ['\n'] := .blank (by decide) .nil
    exact .gap_append offset hfirst (.gap_append _ hsecond hb)
  | @token offset gap literal rest kind ts hgap hlex hends _ ih =>
    have hmore := ih (by simpa only [byteLength_append, Nat.add_assoc] using hb)
    have hgap' : Gap (literal ++ (rest ++ '\n' :: b)) gap := by
      obtain ⟨c, w, rfl⟩ := List.exists_cons_of_ne_nil hlex.ne_nil
      exact hgap.of_head fun d hd => Or.inr hd
    have hlaid := Laid.token hgap' hlex (hends.append_newline b) hmore
    simpa only [List.append_assoc, List.cons_append] using hlaid

theorem Laid.append_line {a b : List Char} {ts us : List Token} (ha : Laid 0 a ts)
    (hb : Laid 0 b us) :
    Laid 0 (a ++ '\n' :: b) (ts ++ us.map (Token.mapSpan (.shift (byteLength a + 1)))) := by
  have hright := hb.shift (byteLength a + 1)
  rw [Nat.zero_add] at hright
  refine ha.append_newline ?_
  rwa [Nat.zero_add]

/-- Two texts with an end of line between them end where the second does, further to the right. -/
theorem eof_append_newline (a b : List Char) :
    Token.eof (byteLength (a ++ '\n' :: b))
      = (Token.eof (byteLength b)).mapSpan (.shift (byteLength a + 1)) := by
  have hlength : byteLength (a ++ '\n' :: b) = byteLength b + (byteLength a + 1) := by
    rw [byteLength_append, byteLength_cons, show '\n'.utf8Size = 1 by decide]
    omega
  rw [hlength]
  rfl

/-- **An end of line is a hard boundary.**  Whatever the text before it ends with, be it a comment,
a part of an operator or a part of a word, and whatever the text after it begins with, the tokens of
both are those of the first, and then those of the second, further to the right. -/
theorem drain_append_newline (a b : List Char) :
    let right := Token.mapSpan (.shift (byteLength a + 1))
    drain (Lexer.ofText (a ++ '\n' :: b))
      = ((drain (Lexer.ofText a)).1 ++ (drain (Lexer.ofText b)).1.map right,
          right (drain (Lexer.ofText b)).2) := by
  intro right
  obtain ⟨ts, ha⟩ := exists_laid a.length 0 (Nat.le_refl _)
  obtain ⟨us, hb⟩ := exists_laid b.length 0 (Nat.le_refl _)
  have hboth := (ha.append_line hb).drain_eq
  rw [Nat.zero_add, eof_append_newline] at hboth
  simp only [Lexer.ofText, Cursor.ofText, ha.drain_eq, hb.drain_eq, Nat.zero_add]
  exact hboth

/-! ### Programs before other tokens -/

/-- The parser on the tokens of a program, and more tokens. -/
theorem parse_append {s : Script} {us : List Token} {e : Token} (he : e.kind = .eof)
    (hs : s.WellFormed) (hn : ∀ t ∈ s.tokens, t.kind ≠ .eof) (hjoin : s.MayPrecede us) :
    (parse (⟨s.tokens ++ us, e, he⟩ : Replay)).1.statements
        = s.program.statements ++ (parse (⟨us, e, he⟩ : Replay)).1.statements ∧
      (parse (⟨s.tokens ++ us, e, he⟩ : Replay)).2 = (parse (⟨us, e, he⟩ : Replay)).2 :=
  statements_along_append he hs hjoin hn

mutual

/-- No semicolon is part of an expression. -/
theorem Derives.kind_ne_semicolon {p : Precedence} : ∀ {d : Phrase}, Derives p d →
    ∀ t ∈ d.tokens, t.kind ≠ .semicolon
  | .operand _ _, .operand h => by
    have hkind := h.startsPhrase
    simpa [Phrase.tokens] using hkind.ne (by decide)
  | .group _ _ _, .group ho hd hc => by
    have hinner := hd.kind_ne_semicolon
    simpa [Phrase.tokens, or_imp, forall_and, ho, hc] using hinner
  | .unary t _ _, .unary _ ht hd => by
    have hkind : t.kind ≠ .semicolon := (UnaryOp.startsPhrase ht).ne (by decide)
    have hinner := hd.kind_ne_semicolon
    simpa [Phrase.tokens, hkind] using hinner
  | .binary _ t _ _, .binary _ hl ht hr => by
    have hkind : t.kind ≠ .semicolon := by
      intro h
      rw [h] at ht
      cases ht
    have hleft := hl.kind_ne_semicolon
    have hright := hr.kind_ne_semicolon
    simpa [Phrase.tokens, or_imp, forall_and, hkind] using ⟨hleft, hright⟩
  | .call _ _ _ _, .call hf ho ha hc => by
    have hcalled := hf.kind_ne_semicolon
    have hargs := ha.kind_ne_semicolon
    simpa [Phrase.tokens, or_imp, forall_and, ho, hc] using ⟨hcalled, hargs⟩

theorem DerivesArguments.kind_ne_semicolon : ∀ {args : Arguments}, DerivesArguments args →
    ∀ t ∈ args.tokens, t.kind ≠ .semicolon
  | .none, .none => by simp [Arguments.tokens]
  | .some _ _, .some hd hm => by
    have hfirst := hd.kind_ne_semicolon
    have hmore := hm.kind_ne_semicolon
    simpa [Arguments.tokens, or_imp, forall_and] using ⟨hfirst, hmore⟩

theorem DerivesMore.kind_ne_semicolon : ∀ {more : MoreArguments}, DerivesMore more →
    ∀ t ∈ more.tokens, t.kind ≠ .semicolon
  | .nil, .nil => by simp [MoreArguments.tokens]
  | .cons _ _ _, .cons hc hd hm => by
    have hfirst := hd.kind_ne_semicolon
    have hmore := hm.kind_ne_semicolon
    simpa [MoreArguments.tokens, or_imp, forall_and, hc] using ⟨hfirst, hmore⟩

end

/-- No semicolon is part of a statement, but the one that ends it. -/
theorem Clause.WellFormed.kind_ne_semicolon {c : Clause} (hc : c.WellFormed)
    (hstop : c.stop = none) : ∀ t ∈ c.tokens, t.kind ≠ .semicolon := by
  cases c with
  | binding t name assign skipped stop =>
    obtain rfl : stop = none := hstop
    obtain ⟨ht, hname, hassign, hskipped, -⟩ := hc
    simpa [Clause.tokens, ht, hname, hassign] using hskipped
  | returning t skipped stop =>
    obtain rfl : stop = none := hstop
    obtain ⟨ht, hskipped, -⟩ := hc
    simpa [Clause.tokens, ht] using hskipped
  | expression d stop =>
    obtain rfl : stop = none := hstop
    simpa [Clause.tokens] using hc.1.kind_ne_semicolon

theorem Script.WellFormed.of_mem {s : Script} (hs : s.WellFormed) : ∀ c ∈ s, c.WellFormed := by
  induction s with
  | nil => simp
  | cons c later ih =>
    obtain ⟨hc, -, hlater⟩ := hs
    exact List.forall_mem_cons.2 ⟨hc, ih hlater⟩

/-! ### Texts one after the other -/

/-- The text `b` may go on after the text `a` on the next line.  There are no tokens before it, or a
semicolon is the last of them, or else they end with an expression, which the first token of `b`
would not continue, nor end. -/
def MayContinue (a b : List Char) : Prop :=
  let ts := (drain (Lexer.ofText a)).1
  let us := (drain (Lexer.ofText b)).1
  ts = [] ∨ (∃ t ∈ ts.getLast?, t.kind = .semicolon) ∨
    (∃ t value, (parseText a).1.statements.getLast? = some (.expression t value)) ∧
      ∀ u ∈ us.head?, u.kind ≠ .semicolon ∧ u.kind ≠ .leftParen ∧ BinaryOp.ofKind? u.kind = none

/-- Where a text may go on, its program is over. -/
theorem MayContinue.mayPrecede {a b : List Char} {s : Script} {us : List Token}
    (h : MayContinue a b) (hs : s.WellFormed) (ha : Laid 0 a s.tokens)
    (hprogram : (parseText a).1 = s.program) (hb : Laid 0 b us) (f : Span → Span) :
    s.MayPrecede (us.map (Token.mapSpan f)) := by
  intro c hc hstop
  obtain ⟨earlier, rfl⟩ := List.getLast?_eq_some_iff.1 hc
  have hclause : c.WellFormed := hs.of_mem c (by simp)
  have htokens : Script.tokens (earlier ++ [c]) = Script.tokens earlier ++ c.tokens := by
    simp [Script.tokens]
  obtain ⟨more, hmore⟩ := c.tokens_eq_cons
  unfold MayContinue at h
  simp only [Lexer.ofText, Cursor.ofText, ha.drain_eq, hb.drain_eq, htokens, hprogram] at h
  rcases h with hnil | ⟨t, ht, hsemi⟩ | ⟨⟨t, value, hlast⟩, hhead⟩
  · simp [hmore] at hnil
  · -- the last token of the program is one of its last statement
    have hmem : t ∈ c.tokens := by
      rw [List.getLast?_append_of_ne_nil _ (by simp [hmore])] at ht
      exact List.mem_of_getLast? ht
    exact absurd hsemi (hclause.kind_ne_semicolon hstop t hmem)
  · have hstatement : c.statement = .expression t value := by
      simpa [Script.program] using hlast
    cases c with
    | binding => cases hstatement
    | returning => cases hstatement
    | expression d stop =>
      have hkinds : ∀ u ∈ (us.map (Token.mapSpan f)).head?, u.kind ≠ .semicolon ∧
          u.kind ≠ .leftParen ∧ BinaryOp.ofKind? u.kind = none := by
        rw [List.head?_map]
        intro u hu
        obtain ⟨v, hv, rfl⟩ := Option.map_eq_some_iff.1 hu
        exact hhead v hv
      exact ⟨fun u hu => (hkinds u hu).2, fun u hu => (hkinds u hu).1⟩

/-! ### Values -/

theorem Expr.value?_mapSpan (f : Span → Span) (e : Expr) : (e.mapSpan f).value? = e.value? := by
  cases e <;> rfl

theorem Statement.value?_mapSpan (f : Span → Span) (s : Statement) :
    (s.mapSpan f).value? = s.value? := by
  cases s with
  | binding => rfl
  | returning => rfl
  | expression t value => exact value.value?_mapSpan f

/-- Values do not depend on where a program stands. -/
theorem Program.value?_mapSpan (f : Span → Span) (p : Program) :
    (p.mapSpan f).value? = p.value? := by
  unfold Program.value? Program.mapSpan
  rw [List.getLast?_map]
  cases p.statements.getLast? with
  | none => rfl
  | some s => exact s.value?_mapSpan f

/-- The value of statements one after the other is that of the later ones, if there are any. -/
theorem Program.value?_append (p q : Program) :
    Program.value? ⟨p.statements ++ q.statements⟩
      = if q.statements = [] then p.value? else q.value? := by
  unfold Program.value?
  by_cases hq : q.statements = []
  · rw [if_pos hq, hq, List.append_nil]
  · rw [if_neg hq, List.getLast?_append_of_ne_nil _ hq]

/-! ### The laws of concatenation -/

/-- **Programs compose.**  If a text is parsed without errors, and another one may go on after it on
the next line, then the statements of both together are those of the first, and then those of the
second, further to the right.  The errors are those of the second.  The value is the one of the
second, if it has any statement. -/
theorem parseText_append_newline (a b : List Char) (ha : (parseText a).2 = [])
    (hjoin : MayContinue a b) :
    let right := Span.shift (byteLength a + 1)
    let both := parseText (a ++ '\n' :: b)
    both.1.statements = (parseText a).1.statements ++ ((parseText b).1.mapSpan right).statements ∧
      both.2 = (parseText b).2.map (SyntaxError.mapSpan right) ∧
      both.1.value?
        = if (parseText b).1.statements = [] then (parseText a).1.value?
          else (parseText b).1.value? := by
  intro right both
  obtain ⟨s, hs, hlaidA, hprogram⟩ := exists_script_of_parseText ha
  obtain ⟨us, hlaidB⟩ := exists_laid b.length 0 (Nat.le_refl _)
  have hmay := hjoin.mayPrecede hs hlaidA hprogram hlaidB right
  have hlaid := hlaidA.append_line hlaidB
  have hend : (⟨us.map (Token.mapSpan right), .eof (byteLength (a ++ '\n' :: b)), rfl⟩ : Replay)
      = (⟨us, .eof (byteLength b), rfl⟩ : Replay).mapSpan right := by
    simp only [eof_append_newline]
    rfl
  have hparse :
      parse (⟨us.map (Token.mapSpan right), .eof (byteLength (a ++ '\n' :: b)), rfl⟩ : Replay)
        = ((parseText b).1.mapSpan right, (parseText b).2.map (SyntaxError.mapSpan right)) := by
    rw [hend, hlaidB.parseText_eq]
    obtain ⟨hmapped, hmappedErrors⟩ :=
      parse_mapSpan right (⟨us, .eof (byteLength b), rfl⟩ : Replay)
    exact Prod.ext hmapped hmappedErrors
  obtain ⟨hstatements, herrors⟩ :=
    parse_append (Token.kind_eof (byteLength (a ++ '\n' :: b))) hs hlaidA.kind_ne_eof hmay
  have hboth : both = _ := hlaid.parseText_eq
  rw [hparse, ← hprogram, ← hboth] at hstatements
  rw [hparse, ← hboth] at herrors
  refine ⟨hstatements, herrors, ?_⟩
  calc both.1.value?
      = Program.value?
          ⟨(parseText a).1.statements ++ ((parseText b).1.mapSpan right).statements⟩ := by
        rw [← hstatements]
    _ = if ((parseText b).1.mapSpan right).statements = [] then (parseText a).1.value?
          else ((parseText b).1.mapSpan right).value? := Program.value?_append _ _
    _ = if (parseText b).1.statements = [] then (parseText a).1.value?
          else (parseText b).1.value? := by
        rw [Program.value?_mapSpan]
        simp only [Program.mapSpan, List.map_eq_nil_iff]

/-- After `1;` the text `(` may go on, and no call is read: the number is a statement, and the
errors are those of an unclosed parenthesis on the second line. -/
theorem parseText_append_newline_paren :
    let one : Token := ⟨.int, "1", ⟨0, 1⟩⟩
    (parseText ['1', ';']).2 = [] ∧ MayContinue ['1', ';'] ['('] ∧
      (parseText ['1', ';', '\n', '(']).1.statements.head? = some (.expression one (.int one 1)) ∧
      (parseText ['1', ';', '\n', '(']).2 =
        [⟨.noOperand .eof, ⟨4, 4⟩, none⟩, ⟨.unexpected .rightParen .eof, ⟨4, 4⟩, some ⟨3, 4⟩⟩] := by
  intro one
  let semi : Token := ⟨.semicolon, ";", ⟨1, 2⟩⟩
  let s : Script := [.expression (.operand one (.int one 1)) (some semi)]
  have hone : Lexeme .int ['1'] := .spelled (.int (by decide) (by simp))
  have hsemi : Lexeme .semicolon [';'] := .spelled (.symbol (s := ";") rfl)
  have hlaid : Laid 0 ['1', ';'] s.tokens :=
    .token .nil hone (TokenKind.endsBefore_cons _ (by decide) (by decide) (by decide) _)
      (.token .nil hsemi (fun _ _ h => h) (.done .nil))
  have hs : s.WellFormed := by
    have hvalue : Numeral.value? "1".toList = some 1 := by decide
    exact ⟨⟨.operand (.int rfl hvalue), by simp [semi]⟩, by simp [Clause.stop], trivial⟩
  have hparse : parseText ['1', ';'] = (s.program, []) :=
    hlaid.parseText_eq.trans (parse_of_script _ hs hlaid.kind_ne_eof)
  have ha : (parseText ['1', ';']).2 = [] := congrArg Prod.snd hparse
  have hjoin : MayContinue ['1', ';'] ['('] := by
    have htokens : (drain (Lexer.ofText ['1', ';'])).1 = s.tokens :=
      congrArg Prod.fst hlaid.drain_eq
    exact Or.inr (Or.inl ⟨semi, by rw [htokens]; rfl, rfl⟩)
  obtain ⟨hstatements, herrors, -⟩ := parseText_append_newline ['1', ';'] ['('] ha hjoin
  rw [hparse] at hstatements
  rw [parseText_paren] at herrors
  exact ⟨ha, hjoin, congrArg List.head? hstatements, herrors⟩

end Sapling
