import Sapling.Proofs.Concatenation
import Sapling.Proofs.Printing

/-!
# Layout and meaning

A text may be laid out in many ways: with other blanks, other line breaks, other comments.  As long
as its tokens have the same kinds and the same literals, its program is the same, and so are its
printed form, its value, and what is said about its mistakes.  Only places differ.

For the parser, a change of layout is a map of the spans of the tokens.  All spans are forgotten
here, which makes the tokens of two layouts equal.

## Main definitions

* `Token.reading` — the kind and the literal of a token.
* `Text.SameTokens a b` — two texts whose tokens are the same, their places aside.

## Main results

* `Text.SameTokens.parse_eq` — texts with the same tokens are parsed alike, but for the places.
* `parse_relayout` — parsing commutes with maps of spans; layout does not change the meaning.
-/

namespace Sapling

open Text TokenStream Sapling.Parser

/-- The kind and the literal of a token: what it is, wherever it stands. -/
def Token.reading (t : Token) : TokenKind × String := (t.kind, t.literal)

/-- A token with a given kind and literal, at no place. -/
def Token.placeless (reading : TokenKind × String) : Token := ⟨reading.1, reading.2, .empty 0⟩

/-- Two texts whose tokens agree in kind and literal, in the same order.  They may differ in blanks,
line breaks and comments. -/
def Text.SameTokens (a b : List Char) : Prop :=
  (drain (Lexer.ofText a)).1.map Token.reading = (drain (Lexer.ofText b)).1.map Token.reading

/-- Without their places, tokens are their kinds and literals. -/
theorem map_mapSpan_forget (ts : List Token) :
    ts.map (Token.mapSpan .forget) = (ts.map Token.reading).map Token.placeless := by
  rw [List.map_map]
  rfl

/-- Texts with the same tokens have the same program and the same errors, without their places. -/
theorem Text.SameTokens.parse_eq {a b : List Char} (h : SameTokens a b) :
    (parseText a).1.mapSpan .forget = (parseText b).1.mapSpan .forget ∧
      (parseText a).2.map (SyntaxError.mapSpan .forget)
        = (parseText b).2.map (SyntaxError.mapSpan .forget) := by
  obtain ⟨ts, hlaidA⟩ := exists_laid a.length 0 (Nat.le_refl _)
  obtain ⟨us, hlaidB⟩ := exists_laid b.length 0 (Nat.le_refl _)
  have hreadings : ts.map Token.reading = us.map Token.reading := by
    simpa only [SameTokens, Lexer.ofText, Cursor.ofText, hlaidA.drain_eq, hlaidB.drain_eq] using h
  have htokens : ts.map (Token.mapSpan .forget) = us.map (Token.mapSpan .forget) := by
    rw [map_mapSpan_forget, map_mapSpan_forget, hreadings]
  have hparse := hlaidA.parse_forget
  rw [htokens, hlaidB.parse_forget] at hparse
  exact ⟨(congrArg Prod.fst hparse).symm, (congrArg Prod.snd hparse).symm⟩

/-- The cause of an error does not depend on spans. -/
theorem map_cause_of_map_forget {ds es : List SyntaxError}
    (h : ds.map (SyntaxError.mapSpan .forget) = es.map (SyntaxError.mapSpan .forget)) :
    ds.map SyntaxError.cause = es.map SyntaxError.cause := by
  have hcauses := congrArg (List.map SyntaxError.cause) h
  simpa only [List.map_map, Function.comp_def, SyntaxError.mapSpan] using hcauses

/-- **Layout never changes meaning.**  Parsing commutes with every map of the spans of the tokens,
the one of the end of the input included: the program and the errors are the same, with all their
spans mapped.  So texts whose tokens agree in kind and literal have the same program but for the
spans in it, with the same printed form and the same value, and the same errors in the same order,
with the same messages, but for the spans in them. -/
theorem parse_relayout :
    (∀ (f : Span → Span) (r : Replay),
      (parse (r.mapSpan f)).1 = (parse r).1.mapSpan f ∧
        (parse (r.mapSpan f)).2 = (parse r).2.map (SyntaxError.mapSpan f)) ∧
    ∀ a b : List Char, SameTokens a b →
      (parseText a).1.mapSpan .forget = (parseText b).1.mapSpan .forget ∧
        (parseText a).1.display = (parseText b).1.display ∧
        (parseText a).1.value? = (parseText b).1.value? ∧
        (parseText a).2.length = (parseText b).2.length ∧
        (parseText a).2.map SyntaxError.cause = (parseText b).2.map SyntaxError.cause ∧
        (parseText a).2.map SyntaxError.message = (parseText b).2.map SyntaxError.message := by
  refine ⟨parse_mapSpan, ?_⟩
  intro a b h
  obtain ⟨hprogram, herrors⟩ := h.parse_eq
  have hdisplay := congrArg Program.display hprogram
  have hvalue := congrArg Program.value? hprogram
  rw [Program.display_mapSpan, Program.display_mapSpan] at hdisplay
  rw [Program.value?_mapSpan, Program.value?_mapSpan] at hvalue
  have hcauses := map_cause_of_map_forget herrors
  have hlength := congrArg List.length hcauses
  have hmessages := congrArg (List.map SyntaxError.Cause.message) hcauses
  rw [List.length_map, List.length_map] at hlength
  rw [List.map_map, List.map_map] at hmessages
  exact ⟨hprogram, hdisplay, hvalue, hlength, hcauses, hmessages⟩

/-- The text `(`, and the same after a comment, on a line that it does not begin, with a tab at its
end.  Both are parsed with the same two mistakes. -/
theorem parse_relayout_paren :
    let plain : List Char := ['(']
    let spread : List Char := ['/', '/', '(', '\n', ' ', '(', '\t']
    SameTokens spread plain ∧ (parseText spread).1.value? = (parseText plain).1.value? ∧
      (parseText spread).1.display = (parseText plain).1.display ∧
      (parseText spread).2.map SyntaxError.cause
        = [.noOperand .eof, .unexpected .rightParen .eof] := by
  intro plain spread
  have hlex : Lexeme .leftParen ['('] := .spelled (.symbol (s := "(") rfl)
  have hplain : Laid 0 plain [⟨.leftParen, "(", ⟨0, 1⟩⟩] :=
    .token .nil hlex (fun _ _ h => h) (.done .nil)
  have hspread : Laid 0 spread [⟨.leftParen, "(", ⟨5, 6⟩⟩] := by
    have hgap : Gap ['(', '\t'] ('/' :: '/' :: (['('] ++ ['\n', ' '])) :=
      .comment (by simp) (by simp) (.blank (by decide) (.blank (by decide) .nil))
    exact .token hgap hlex (fun _ _ h => h) (.done (.blank (by decide) .nil))
  have hsame : SameTokens spread plain := by
    simp only [SameTokens, Lexer.ofText, Cursor.ofText, hspread.drain_eq, hplain.drain_eq]
    rfl
  obtain ⟨-, hdisplay, hvalue, -, hcauses, -⟩ := parse_relayout.2 spread plain hsame
  rw [parseText_paren] at hcauses
  exact ⟨hsame, hvalue, hdisplay, hcauses⟩

end Sapling
