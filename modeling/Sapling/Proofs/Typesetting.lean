import Sapling.Proofs.Layout

/-!
# Setting lexemes apart

A text may be set from lexemes, with separators before, between and after them: blanks, and comments
that run up to the end of their line.  Cutting the text gives back the lexemes where they were put,
unless two of them are glued: the character after a lexeme is one that the lexeme goes on over.

That nothing is glued is what makes the setting a layout of the text, and cutting finds the layout.
In the other direction, every text has some layout.  If its tokens are those that were set, then
they begin and end where the lexemes were put, so that the same text follows each of them; and in a
layout no token goes on over what follows it.

## Main definitions

* `Separator`, `LastSeparator` — what may stand before a lexeme, and what may end a text.
* `Typesetting` — lexemes with separators around them; `Typesetting.text`, `Typesetting.tokens` are
  the text that is set and the tokens that were put there.
* `Typesetting.Glued` — a lexeme goes on over the next character.

## Main results

* `laid_of_endApart`, `endApart_of_laid` — the setting is a layout just if nothing is glued.
* `Typesetting.drain_eq_iff` — **cutting undoes setting just if nothing is glued**.
-/

namespace Sapling

open Text Lexer TokenStream

/-! ### Separators -/

/-- Blanks and comments.  Each comment is ended by a line feed. -/
inductive Separator : List Char → Prop where
  /-- Nothing at all. -/
  | nil : Separator []
  /-- A blank. -/
  | blank {c : Char} {later : List Char} : isBlank c → Separator later → Separator (c :: later)
  /-- A comment, and the line feed that ends it. -/
  | comment {body later : List Char} : (∀ c ∈ body, c ≠ '\n') → Separator later →
      Separator ('/' :: '/' :: (body ++ '\n' :: later))

/-- Blanks and comments at the end of a text, where the last comment need not be ended. -/
inductive LastSeparator : List Char → Prop where
  /-- All comments are ended. -/
  | ended {text : List Char} : Separator text → LastSeparator text
  /-- The last comment goes on up to the end of the text. -/
  | unended {text body : List Char} : Separator text → (∀ c ∈ body, c ≠ '\n') →
      LastSeparator (text ++ '/' :: '/' :: body)

/-- Separators are gaps, whatever follows them. -/
theorem Separator.gap {text : List Char} (h : Separator text) (after : List Char) :
    Gap after text := by
  induction h with
  | nil => exact .nil
  | blank hc _ ih => exact .blank hc ih
  | comment hbody _ ih =>
    -- the line feed is a blank after the comment
    refine .comment hbody ?_ (.blank (by decide) ih)
    intro c hc
    exact (Option.some.inj hc).symm

theorem LastSeparator.gap {text : List Char} (h : LastSeparator text) : Gap [] text := by
  cases h with
  | ended h => exact h.gap []
  | @unended text body h hbody =>
    have hcomment : Gap [] ('/' :: '/' :: (body ++ [])) := .comment hbody (by simp) .nil
    rw [List.append_nil] at hcomment
    exact (h.gap _).append hcomment

/-! ### Settings -/

/-- A lexeme, and the separator before it. -/
structure SpacedLexeme where
  /-- The separator. -/
  separator : List Char
  /-- It is one. -/
  isSeparator : Separator separator
  /-- The kind of the lexeme. -/
  kind : TokenKind
  /-- The text of the lexeme. -/
  literal : List Char
  /-- Tokens of the kind are written so. -/
  isLexeme : Lexeme kind literal

/-- The text that is set from lexemes, and ends with a given separator. -/
def setText (last : List Char) : List SpacedLexeme → List Char
  | [] => last
  | s :: later => s.separator ++ (s.literal ++ setText last later)

/-- The tokens of lexemes that are set one after the other, from an offset on. -/
def setTokens (offset : Nat) : List SpacedLexeme → List Token
  | [] => []
  | s :: later =>
    let start := offset + byteLength s.separator
    let stop := start + byteLength s.literal
    ⟨s.kind, String.ofList s.literal, ⟨start, stop⟩⟩ :: setTokens stop later

/-- Lexemes that are set with separators before, between and after them. -/
structure Typesetting where
  /-- The lexemes, each with the separator before it. -/
  lexemes : List SpacedLexeme
  /-- What follows the last of them. -/
  last : List Char
  /-- It is a separator. -/
  isLast : LastSeparator last

namespace Typesetting

/-- The text that is set. -/
def text (s : Typesetting) : List Char := setText s.last s.lexemes

/-- The lexemes as tokens, where they were put. -/
def tokens (s : Typesetting) : List Token := setTokens 0 s.lexemes

/-- A lexeme is glued to what follows: it goes on over the next character of the text. -/
def Glued (s : Typesetting) : Prop :=
  ∃ earlier lexeme later, s.lexemes = earlier ++ lexeme :: later ∧
    ∃ c ∈ (setText s.last later).head?, lexeme.kind.ContinuedBy c

end Typesetting

/-! ### Settings and layouts -/

/-- Each lexeme may end before what follows it. -/
def EndApart (last : List Char) : List SpacedLexeme → Prop
  | [] => True
  | s :: later => s.kind.EndsBefore (setText last later) ∧ EndApart last later

/-- **A setting in which nothing is glued is a layout of its text.** -/
theorem laid_of_endApart {last : List Char} (hlast : LastSeparator last)
    {lexemes : List SpacedLexeme}
    (h : EndApart last lexemes) (offset : Nat) :
    Laid offset (setText last lexemes) (setTokens offset lexemes) := by
  induction lexemes generalizing offset with
  | nil => exact .done hlast.gap
  | cons s later ih =>
    obtain ⟨hends, hlater⟩ := h
    exact .token (s.isSeparator.gap _) s.isLexeme hends (ih hlater _)

/-- **A layout into the tokens that were set glues nothing.**  Where a token begins and ends is told
by its span, so what follows it is what was set after it. -/
theorem endApart_of_laid {last : List Char} {lexemes : List SpacedLexeme} {offset : Nat}
    (h : Laid offset (setText last lexemes) (setTokens offset lexemes)) :
    EndApart last lexemes := by
  induction lexemes generalizing offset with
  | nil => trivial
  | cons s later ih =>
    -- the layout begins with some gap and some token, which are the first that were set
    generalize htext : setText last (s :: later) = text at h
    generalize htokens : setTokens offset (s :: later) = ts at h
    cases h with
    | done => cases htokens
    | @token _ gap literal rest kind ts hgap hlexeme hends hmore =>
      obtain ⟨hfirst, rfl⟩ := List.cons.inj htokens
      obtain ⟨rfl, hliteral, hspan⟩ := Token.mk.inj hfirst
      obtain rfl : s.literal = literal := String.ofList_injective hliteral
      have hstart : byteLength s.separator = byteLength gap :=
        Nat.add_left_cancel (Span.mk.inj hspan).1
      obtain ⟨rfl, hrest⟩ := append_inj_of_byteLength htext hstart
      obtain rfl := List.append_cancel_left hrest
      exact ⟨hends, ih hmore⟩

/-- Nothing is glued just if no lexeme goes on over what follows it. -/
theorem endApart_iff {last : List Char} {lexemes : List SpacedLexeme} :
    EndApart last lexemes ↔ ∀ earlier s later, lexemes = earlier ++ s :: later →
      s.kind.EndsBefore (setText last later) := by
  induction lexemes with
  | nil => simp [EndApart]
  | cons s later ih =>
    rw [EndApart, ih]
    constructor
    · rintro ⟨hends, hlater⟩ earlier u after h
      cases earlier with
      | nil =>
        obtain ⟨rfl, rfl⟩ := List.cons.inj h
        exact hends
      | cons v earlier => exact hlater earlier u after (List.cons.inj h).2
    · intro h
      refine ⟨h [] s later rfl, ?_⟩
      rintro earlier u after rfl
      exact h (s :: earlier) u after rfl

namespace Typesetting

theorem not_glued_iff (s : Typesetting) : ¬ s.Glued ↔ EndApart s.last s.lexemes := by
  rw [endApart_iff]
  constructor
  · intro h earlier lexeme later hsplit c hc hcontinued
    exact h ⟨earlier, lexeme, later, hsplit, c, hc, hcontinued⟩
  · rintro h ⟨earlier, lexeme, later, hsplit, c, hc, hcontinued⟩
    exact h earlier lexeme later hsplit c hc hcontinued

/-- **Cutting a text undoes setting it, just if nothing is glued.**  The tokens of a text that was
set from lexemes are those lexemes, with their kinds and where they were put, just if there is no
lexeme that goes on over the next character: a word or an integer literal over a letter, a digit or
an underscore, `=` and `!` over `=`, and `/` over `/`, which may be the first slash of a comment.
The input ends after the last separator in any case. -/
theorem drain_eq_iff (s : Typesetting) :
    ((drain (Lexer.ofText s.text)).1 = s.tokens ↔ ¬ s.Glued) ∧
      (drain (Lexer.ofText s.text)).2 = .eof (byteLength s.text) := by
  obtain ⟨ts, hlaid⟩ := exists_laid s.text.length 0 (Nat.le_refl _)
  have hdrain : drain (Lexer.ofText s.text) = (ts, .eof (0 + byteLength s.text)) := hlaid.drain_eq
  rw [hdrain, Nat.zero_add, not_glued_iff]
  refine ⟨⟨?_, ?_⟩, rfl⟩
  · rintro rfl
    exact endApart_of_laid hlaid
  · intro h
    have hset : Laid 0 s.text s.tokens := laid_of_endApart s.isLast h 0
    exact congrArg Prod.fst (hdrain.symm.trans hset.drain_eq)

/-- Two equals signs: with a blank between them they are cut apart again, without one they are cut
as a single sign. -/
theorem drain_eq_iff_equals :
    let sign : Lexeme .assign ['='] := .spelled (.symbol (s := "=") rfl)
    let first : SpacedLexeme := ⟨[], .nil, .assign, ['='], sign⟩
    let second : SpacedLexeme := ⟨[' '], .blank (by decide) .nil, .assign, ['='], sign⟩
    let apart : Typesetting := ⟨[first, second], [], .ended .nil⟩
    let together : Typesetting := ⟨[first, first], [], .ended .nil⟩
    apart.text = "= =".toList ∧ ¬ apart.Glued ∧
      (drain (Lexer.ofText apart.text)).1 = apart.tokens ∧
      together.text = "==".toList ∧ together.Glued ∧
      (drain (Lexer.ofText together.text)).1 ≠ together.tokens := by
  intro sign first second apart together
  have happart : ¬ apart.Glued := by
    rw [not_glued_iff]
    refine ⟨?_, ?_, trivial⟩
    · intro c hc
      obtain rfl : ' ' = c := Option.some.inj hc
      exact (by decide : ' ' ≠ '=')
    · intro c hc
      cases hc
  have htogether : together.Glued := ⟨[], first, [first], rfl, '=', rfl, rfl⟩
  exact ⟨rfl, happart, apart.drain_eq_iff.1.2 happart, rfl, htogether,
    fun h => together.drain_eq_iff.1.1 h htogether⟩

end Typesetting

end Sapling
