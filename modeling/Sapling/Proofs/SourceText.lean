import Sapling.Proofs.Derivation
import Sapling.Proofs.Layout
import Sapling.Proofs.Relabeling

/-!
# Programs in source text

A text is parsed while it is cut into tokens, but the tokens might as well be collected first.  So
what is known about lists of tokens holds for texts: a text is parsed without errors just if the
tokens it is laid out as have a derivation tree.

## Main definitions

* `WrittenAs text us` — the text is laid out as the tokens `us`, up to spans.

## Main results

* `Laid.parseText_eq` — parsing a text is parsing its tokens.
* `Laid.parse_forget` — and so it is without their places.
* `exists_script_of_parseText` — what is parsed without errors is laid out as a program.
* `WrittenAs.parseText_eq` — what is written as a program is parsed as it, up to spans.
-/

namespace Sapling

open Text TokenStream Sapling.Parser

/-- What is left of a text, and the tokens that it is laid out as. -/
def Cuts (l : Lexer) (r : Replay) : Prop :=
  Laid l.cursor.offset l.cursor.rest r.tokens ∧
    r.eof = .eof (l.cursor.offset + byteLength l.cursor.rest)

/-- A text hands out the tokens that it is laid out as. -/
theorem relabels_cuts : Relabels id Cuts := by
  intro l r hcuts
  obtain ⟨⟨offset, text⟩⟩ := l
  obtain ⟨ts, e, he⟩ := r
  obtain ⟨hlaid, rfl⟩ : Laid offset text ts ∧ e = .eof (offset + byteLength text) := hcuts
  induction hlaid with
  | @done offset gap hgap =>
    have hnext : TokenStream.next (⟨⟨offset, gap⟩⟩ : Lexer) = _ := next_gap offset hgap
    rw [hnext]
    exact ⟨rfl, .done .nil, rfl⟩
  | @token offset gap literal rest kind ts hgap hlex hends hmore _ =>
    have hnext : TokenStream.next (⟨⟨offset, gap ++ (literal ++ rest)⟩⟩ : Lexer) = _ :=
      next_lexeme offset hgap hlex hends
    rw [hnext]
    refine ⟨rfl, hmore, ?_⟩
    show Token.eof _ = Token.eof _
    simp only [byteLength_append, Nat.add_assoc]

/-- **Parsing a text is parsing its tokens.** -/
theorem Laid.parseText_eq {text : List Char} {ts : List Token} (h : Laid 0 text ts) :
    parseText text = parse (⟨ts, .eof (byteLength text), rfl⟩ : Replay) := by
  have hcuts : Cuts (Lexer.ofText text) ⟨ts, .eof (byteLength text), rfl⟩ :=
    ⟨h, congrArg Token.eof (Nat.zero_add _).symm⟩
  exact (parse_eq_of_relabels relabels_cuts hcuts).symm

/-- No token of a text is an end of input. -/
theorem Laid.kind_ne_eof {offset : Nat} {text : List Char} {ts : List Token}
    (h : Laid offset text ts) : ∀ t ∈ ts, t.kind ≠ .eof := fun t ht => (h.lexeme t ht).ne_eof

/-- **A text that is parsed without errors is laid out as a program**, and parsed as this program.
-/
theorem exists_script_of_parseText {text : List Char} (h : (parseText text).2 = []) :
    ∃ s : Script, s.WellFormed ∧ Laid 0 text s.tokens ∧ (parseText text).1 = s.program := by
  obtain ⟨ts, hlaid⟩ := exists_laid text.length 0 (Nat.le_refl _)
  rw [hlaid.parseText_eq] at h ⊢
  obtain ⟨s, hs, rfl⟩ := exists_script_of_parse _ hlaid.kind_ne_eof h
  exact ⟨s, hs, hlaid, congrArg Prod.fst (parse_of_script _ hs hlaid.kind_ne_eof)⟩

/-! ### Up to spans -/

/-- The map that forgets all spans. -/
def Span.forget : Span → Span := fun _ => .empty 0

/-- **The program and the errors of a text, without places**, are those of its tokens without
places. -/
theorem Laid.parse_forget {text : List Char} {ts : List Token} (h : Laid 0 text ts) :
    parse (⟨ts.map (Token.mapSpan .forget), .eof 0, rfl⟩ : Replay)
      = ((parseText text).1.mapSpan .forget,
          (parseText text).2.map (SyntaxError.mapSpan .forget)) := by
  obtain ⟨hprogram, herrors⟩ := parse_mapSpan .forget (⟨ts, .eof (byteLength text), rfl⟩ : Replay)
  rw [h.parseText_eq]
  exact Prod.ext hprogram herrors

/-- A text is written as some tokens: wherever it starts, it is laid out as they are, up to spans.
-/
def WrittenAs (text : List Char) (us : List Token) : Prop :=
  ∀ offset, ∃ ts, Laid offset text ts ∧ ts.map (Token.mapSpan .forget) = us

namespace WrittenAs

variable {text rest : List Char} {us : List Token}

theorem nil : WrittenAs [] [] := fun _ => ⟨[], .done .nil, rfl⟩

/-- A blank in front of a text. -/
theorem blank {c : Char} (hc : Lexer.isBlank c) (h : WrittenAs text us) :
    WrittenAs (c :: text) us := by
  intro offset
  obtain ⟨ts, hlaid, hts⟩ := h (offset + c.utf8Size)
  have hlen : byteLength [c] = c.utf8Size := rfl
  exact ⟨ts, .gap_append offset (.blank hc .nil) (by rwa [hlen]), hts⟩

/-- A token in front of a text. -/
theorem token {t : Token} (ht : Lexeme t.kind t.literal.toList) (hends : t.kind.EndsBefore rest)
    (h : WrittenAs rest us) : WrittenAs (t.literal.toList ++ rest) (t.mapSpan .forget :: us) := by
  intro offset
  obtain ⟨ts, hlaid, hts⟩ := h (offset + byteLength t.literal.toList)
  refine ⟨_, .token .nil ht hends hlaid, ?_⟩
  rw [List.map_cons, hts, String.ofList_toList]
  rfl

/-- A text is parsed as the tokens that it is written as, up to spans. -/
theorem parse_eq (h : WrittenAs text us) :
    parse (⟨us, .eof 0, rfl⟩ : Replay)
      = ((parseText text).1.mapSpan .forget,
          (parseText text).2.map (SyntaxError.mapSpan .forget)) := by
  obtain ⟨ts, hlaid, rfl⟩ := h 0
  exact hlaid.parse_forget

/-- No token that a text is written as is an end of input. -/
theorem kind_ne_eof (h : WrittenAs text us) : ∀ u ∈ us, u.kind ≠ .eof := by
  obtain ⟨ts, hlaid, rfl⟩ := h 0
  intro u hu
  obtain ⟨t, ht, rfl⟩ := List.mem_map.1 hu
  exact hlaid.kind_ne_eof t ht

/-- **A text that is written as a program is parsed as this program**, up to spans. -/
theorem parseText_eq {s : Script} (h : WrittenAs text s.tokens) (hs : s.WellFormed) :
    (parseText text).1.mapSpan .forget = s.program ∧ (parseText text).2 = [] := by
  have hscript := parse_of_script (Token.kind_eof 0) hs h.kind_ne_eof
  obtain ⟨hprogram, herrors⟩ := Prod.mk.inj (hscript.symm.trans h.parse_eq)
  exact ⟨hprogram.symm, List.map_eq_nil_iff.1 herrors.symm⟩

end WrittenAs

end Sapling
