import Sapling.Proofs.Concatenation
import Sapling.Proofs.Numerals
import Sapling.Proofs.Printing
import Sapling.Proofs.Trails
import Sapling.Value

/-!
# Values survive printing and running again

The values of programs are booleans and integers that are not negative, because only literals have a
value, and no literal has a sign.  Such a value is printed as the literal it could come from, so
running the printed form gives it back.  A negative integer is printed with a sign, which reads as an
operator: it is parsed, but has no value.  The least integer is not even parsed without errors, for
what follows its sign is too large.

## Main definitions

* `Value.OfLiteral` — the values of literals.

## Main results

* `ofLiteral_of_parseText` — the values that a program can have, whatever mistakes there are in it.
* `Value.OfLiteral.exists_wellFormed` — each of them is printed as an expression that has it.
* `Phrase.parseText_eq` — a text that is written as a phrase is one statement.
* `parse_negated_invalid` — a sign before an integer literal that is too large.
* `parseText_display_value` — values survive printing and running again.
-/

namespace Sapling

open Text Sapling.Parser

/-! ### The values of programs -/

/-- Literals denote integers that are not too large. -/
theorem Numeral.le_largest_of_value? {literal : List Char} {n : Nat}
    (h : Numeral.value? literal = some n) : n ≤ Numeral.largest := by
  obtain ⟨-, hle⟩ := Option.filter_eq_some_iff.1 h
  exact of_decide_eq_true hle

/-- The values that literals have: booleans, and integers that are neither negative nor too large.
-/
inductive Value.OfLiteral : Value → Prop where
  /-- A boolean. -/
  | boolean (b : Bool) : OfLiteral (.boolean b)
  /-- An integer. -/
  | integer {n : Nat} : n ≤ Numeral.largest → OfLiteral (.integer n)

/-- If the nodes of an expression agree with their tokens, its value is that of a literal. -/
theorem Expr.Agrees.ofLiteral {e : Expr} {v : Value} (h : e.Agrees) (hv : e.value? = some v) :
    v.OfLiteral := by
  cases h with
  | hole => cases hv
  | atom ha =>
    cases ha with
    | ident => cases hv
    | int _ hn =>
      obtain rfl := Option.some.inj hv
      exact .integer (Numeral.le_largest_of_value? hn)
    | trueWord =>
      obtain rfl := Option.some.inj hv
      exact .boolean true
    | falseWord =>
      obtain rfl := Option.some.inj hv
      exact .boolean false
  | unary => cases hv
  | binary => cases hv
  | call => cases hv

/-- The value of a program is that of one of its expressions. -/
theorem Program.exists_of_value? {p : Program} {v : Value} (h : p.value? = some v) :
    ∃ t e, .expression t e ∈ p.statements ∧ e.value? = some v := by
  obtain ⟨s, hs, hv⟩ := Option.bind_eq_some_iff.1 h
  have hmem := List.mem_of_getLast? hs
  cases s with
  | binding => cases hv
  | returning => cases hv
  | expression t e => exact ⟨t, e, hmem, hv⟩

/-- **The values of texts**, mistaken or not, are those of literals. -/
theorem ofLiteral_of_parseText {text : List Char} {v : Value}
    (h : (parseText text).1.value? = some v) : v.OfLiteral := by
  obtain ⟨t, e, hmem, hv⟩ := Program.exists_of_value? h
  obtain ⟨-, -, -, he⟩ := parse_agrees _ _ hmem
  exact he.ofLiteral hv

/-! ### Texts of one phrase -/

/-- A text that is written as a phrase is parsed without errors, as one statement that has the value
of the phrase. -/
theorem Phrase.parseText_eq {text : List Char} {d : Phrase} (h : WrittenAs text d.tokens)
    (hd : Derives .lowest d) : (parseText text).2 = [] ∧
      (parseText text).1.statements.length = 1 ∧ (parseText text).1.value? = d.tree.value? := by
  have hscript : Script.WellFormed [.expression d none] :=
    ⟨⟨hd, by simp⟩, fun _ => by simp [Clause.MayPrecede], trivial⟩
  have hwritten : WrittenAs text (Script.tokens [.expression d none]) := by
    simpa [Clause.tokens] using h
  obtain ⟨hprogram, herrors⟩ := hwritten.parseText_eq hscript
  have hlength := congrArg (fun p : Program => p.statements.length) hprogram
  have hvalue := congrArg Program.value? hprogram
  rw [Program.value?_mapSpan] at hvalue
  exact ⟨herrors, by simpa [Program.mapSpan, Script.program] using hlength, hvalue⟩

/-- A printed expression is parsed without errors, as one statement with the same value. -/
theorem Expr.WellFormed.parseText_display {e : Expr} (h : e.WellFormed) :
    (parseText e.display.toList).2 = [] ∧
      (parseText e.display.toList).1.statements.length = 1 ∧
      (parseText e.display.toList).1.value? = e.value? := by
  obtain ⟨d, hd, htree, hprints⟩ := h.printsPhrase
  have hwritten : WrittenAs e.display.toList d.tokens := by
    simpa using hprints [] [] (by simp) .nil
  have hparse := Phrase.parseText_eq hwritten (hd.mono (by decide))
  rwa [htree, Expr.value?_mapSpan] at hparse

/-! ### Printed values -/

/-- The token that a number is written as in decimal, at no place. -/
def decimalToken (n : Nat) : Token := ⟨.int, Numeral.decimal n, .empty 0⟩

theorem toList_literal_decimalToken (n : Nat) :
    (decimalToken n).literal.toList = Nat.toDigits 10 n := String.toList_ofList

/-- A number in decimal has the form of an integer literal. -/
theorem spells_decimalToken (n : Nat) : Spells .int (decimalToken n).literal.toList := by
  have hdigits := Numeral.isDigit_of_mem_toDigits (n := n)
  rw [toList_literal_decimalToken]
  obtain ⟨c, w, hcons⟩ := List.exists_cons_of_ne_nil (Nat.toDigits_ne_nil (n := n) (b := 10))
  rw [hcons] at hdigits ⊢
  obtain ⟨hc, hw⟩ := List.forall_mem_cons.1 hdigits
  exact .int hc fun d hd => isWordChar_of_isDigit (hw d hd)

/-- If it is not too large, it denotes the number. -/
theorem atom_decimalToken {n : Nat} (h : n ≤ Numeral.largest) :
    Atom (decimalToken n) (.int (decimalToken n) n) := by
  refine .int rfl ?_
  rw [toList_literal_decimalToken, Numeral.value?_toDigits, if_pos h]

/-- **The value of a literal** is printed as an expression that has it. -/
theorem Value.OfLiteral.exists_wellFormed {v : Value} (h : v.OfLiteral) :
    ∃ e : Expr, e.WellFormed ∧ e.display = v.display ∧ e.value? = some v := by
  cases h with
  | boolean b =>
    cases b with
    | true =>
      let t : Token := ⟨.trueWord, "true", .empty 0⟩
      have ht : t.WellSpelled := .keyword rfl
      exact ⟨.bool t true, .atom (.trueWord rfl) ht, rfl, rfl⟩
    | false =>
      let t : Token := ⟨.falseWord, "false", .empty 0⟩
      have ht : t.WellSpelled := .keyword rfl
      exact ⟨.bool t false, .atom (.falseWord rfl) ht, rfl, rfl⟩
  | @integer n hn =>
    exact ⟨.int (decimalToken n) n, .atom (atom_decimalToken hn) (spells_decimalToken n), rfl, rfl⟩

/-! ### Negative integers -/

/-- A negative integer in decimal is written as a sign and a number. -/
theorem writtenAs_negated (n : Nat) :
    WrittenAs ("-" ++ Numeral.decimal n).toList [symbolToken .minus "-", decimalToken n] := by
  have hnumber : WrittenAs ((decimalToken n).literal.toList ++ []) [decimalToken n] :=
    WrittenAs.nil.token (.spelled (spells_decimalToken n)) (by simp [TokenKind.EndsBefore])
  rw [List.append_nil] at hnumber
  rw [String.toList_append]
  exact hnumber.symbol .minus "-" rfl fun _ _ h => h

section Negated

variable {e : Token} (he : e.kind = .eof)

/-- **A sign before an integer literal that denotes nothing** is one mistake, at the literal.  There
is a statement, but no operand in it. -/
theorem parse_negated_invalid {m i : Token} (hm : m.kind = .minus) (hi : i.kind = .int)
    (hvalue : Numeral.value? i.literal.toList = none) :
    parse (⟨[m, i], e, he⟩ : Replay)
      = (⟨[.expression m (.unary m .negate .hole)]⟩,
          [⟨.invalidInteger i.literal, i.span, none⟩]) := by
  let mistake : SyntaxError := ⟨.invalidInteger i.literal, i.span, none⟩
  -- nothing follows the literal
  have hstop : ∀ least left, suffixes least left (Window.along he [i]) = .here (.along he [i]) left :=
    fun least left => suffixes_along he (by simp [Ends]) left i
  have hoperand : expression .unary (Window.along he [i]) = ⟨.hole, [mistake], .along he [i]⟩ := by
    have hopening : Opening.ofToken i = .invalidInteger := by
      rw [Opening.ofToken, hi]
      simp only [hvalue]
    rw [expression_eq, Window.current_along_cons, hopening]
    simp only [hstop]
    rfl
  have hexpression : expression .lowest (Window.along he [m, i])
      = ⟨.unary m .negate .hole, [mistake], .along he [i]⟩ := by
    have hopening : Opening.ofToken m = .operator .negate := UnaryOp.ofToken (by rw [hm]; rfl)
    rw [expression_eq, Window.current_along_cons, hopening, Window.advance_along_cons]
    simp only [hoperand, hstop]
    rfl
  have hstatement : statement (Window.along he [m, i])
      = ⟨some (.expression m (.unary m .negate .hole)), [mistake], .along he [i]⟩ := by
    have hpeek : (Window.along he [i]).peek.kind ≠ .semicolon := by
      rw [Window.peek_along, List.headD_nil, he]
      decide
    rw [statement_eq_bareExpression (by simp [hm]) (by simp [hm]), bareExpression_eq, hexpression,
      if_neg hpeek]
    rfl
  have hend : statements (Window.along he []) = .here (.along he []) [] := by
    rw [statements_eq]
    exact if_pos he
  show ((⟨(statements (Window.along he [m, i])).value⟩ : Program),
    (statements (Window.along he [m, i])).errors) = _
  rw [statements_eq, if_neg (by simp [hm]), hstatement]
  simp only [Window.advance_along_cons, hend]
  rfl

end Negated

/-- A number that is too large, with a sign before it, is one mistake, and leaves no value. -/
theorem parseText_negated_invalid {n : Nat} (h : Numeral.largest < n) :
    (parseText ("-" ++ Numeral.decimal n).toList).2.map SyntaxError.cause
        = [.invalidInteger (Numeral.decimal n)] ∧
      (parseText ("-" ++ Numeral.decimal n).toList).1.value? = none := by
  have hinvalid : Numeral.value? (decimalToken n).literal.toList = none := by
    rw [toList_literal_decimalToken, Numeral.value?_toDigits, if_neg (by omega)]
  have htokens := parse_negated_invalid (Token.kind_eof 0)
    (show (symbolToken .minus "-").kind = .minus from rfl) (show (decimalToken n).kind = .int from rfl)
    hinvalid
  obtain ⟨hprogram, herrors⟩ := Prod.mk.inj (htokens.symm.trans (writtenAs_negated n).parse_eq)
  have hcauses := congrArg (List.map SyntaxError.cause) herrors
  have hvalue := congrArg Program.value? hprogram
  rw [Program.value?_mapSpan] at hvalue
  rw [List.map_map] at hcauses
  exact ⟨hcauses.symm, hvalue.symm⟩

/-- A number that is not too large, with a sign before it, is parsed, but has no value. -/
theorem parseText_negated {n : Nat} (h : n ≤ Numeral.largest) :
    (parseText ("-" ++ Numeral.decimal n).toList).2 = [] ∧
      (parseText ("-" ++ Numeral.decimal n).toList).1.value? = none := by
  let d : Phrase := .unary (symbolToken .minus "-") .negate
    (.operand (decimalToken n) (.int (decimalToken n) n))
  have hd : Derives .lowest d := .unary (by decide) rfl (.operand (atom_decimalToken h))
  have hparse := Phrase.parseText_eq (d := d) (writtenAs_negated n) hd
  exact ⟨hparse.1, hparse.2.2⟩

/-! ### Running printed values -/

/-- The printed value of a literal is a program with this value. -/
theorem Value.OfLiteral.parseText_display {v : Value} (h : v.OfLiteral) :
    (parseText v.display.toList).2 = [] ∧
      (parseText v.display.toList).1.statements.length = 1 ∧
      (parseText v.display.toList).1.value? = some v := by
  obtain ⟨e, he, hdisplay, hvalue⟩ := h.exists_wellFormed
  rw [← hdisplay, ← hvalue]
  exact he.parseText_display

/-- **Values survive printing and running again.**  If a text has a value, with mistakes in it or
without, this is a boolean or an integer of 64 bits that is not negative; its printed form is parsed
without errors as one statement, and has the same value.  An integer of 64 bits in decimal has its
own value, if it is not negative.  If it is negative it is parsed, but has no value.  The least one
is not parsed without errors: what follows the sign is no integer. -/
theorem parseText_display_value :
    (∀ (text : List Char) (v : Value), (parseText text).1.value? = some v →
      ((∃ b, v = .boolean b) ∨ ∃ n : Int64, 0 ≤ n.toInt ∧ v = .integer n.toInt) ∧
        (parseText v.display.toList).2 = [] ∧
        (parseText v.display.toList).1.statements.length = 1 ∧
        (parseText v.display.toList).1.value? = some v) ∧
    ∀ n : Int64, let text := (Numeral.signedDecimal n.toInt).toList
      (0 ≤ n.toInt → (parseText text).2 = [] ∧
        (parseText text).1.value? = some (.integer n.toInt)) ∧
      (Int64.minValue.toInt < n.toInt → n.toInt < 0 →
        (parseText text).2 = [] ∧ (parseText text).1.value? = none) ∧
      (n = Int64.minValue →
        (parseText text).2.map SyntaxError.cause = [.invalidInteger "9223372036854775808"] ∧
          (parseText text).1.value? = none) := by
  have hlargest : Numeral.largest = 9223372036854775807 := rfl
  have hmin : Int64.minValue.toInt = -9223372036854775808 := by decide
  refine ⟨?_, ?_⟩
  · intro text v hv
    have hliteral := ofLiteral_of_parseText hv
    refine ⟨?_, hliteral.parseText_display⟩
    cases hliteral with
    | boolean b => exact Or.inl ⟨b, rfl⟩
    | @integer k hk =>
      have htoInt : (Int64.ofInt k).toInt = k := Int64.toInt_ofInt_of_le (by omega) (by omega)
      exact Or.inr ⟨Int64.ofInt k, by omega, by rw [htoInt]⟩
  · intro n text
    have hbound := n.toInt_lt
    refine ⟨?_, ?_, ?_⟩
    · intro hn
      obtain ⟨k, hk⟩ := Int.eq_ofNat_of_zero_le hn
      have hliteral : Value.OfLiteral (.integer n.toInt) := by
        rw [hk]
        exact .integer (by omega)
      obtain ⟨herrors, -, hvalue⟩ := hliteral.parseText_display
      exact ⟨herrors, hvalue⟩
    · intro hgt hneg
      have htext : text = ("-" ++ Numeral.decimal n.toInt.natAbs).toList :=
        congrArg String.toList (if_pos hneg)
      rw [htext]
      exact parseText_negated (by omega)
    · rintro rfl
      have htext : text = ("-" ++ Numeral.decimal 9223372036854775808).toList :=
        congrArg String.toList (if_pos (by decide))
      have hdecimal : Numeral.decimal 9223372036854775808 = "9223372036854775808" := by decide
      rw [htext, ← hdecimal]
      exact parseText_negated_invalid (by omega)

/-- The text `0xFf` has the value 255, which is printed in decimal and comes back; 7 comes back, with a
sign it has no value, and the least integer is a mistake. -/
theorem parseText_display_value_hex :
    (parseText "0xFf".toList).1.value? = some (.integer 255) ∧
      (parseText (Value.integer 255).display.toList).2 = [] ∧
      (parseText (Value.integer 255).display.toList).1.value? = some (.integer 255) ∧
      (parseText (Numeral.signedDecimal (7 : Int64).toInt).toList).1.value? = some (.integer 7) ∧
      (parseText (Numeral.signedDecimal (-7 : Int64).toInt).toList).1.value? = none ∧
      (parseText (Numeral.signedDecimal Int64.minValue.toInt).toList).2.map SyntaxError.cause
        = [.invalidInteger "9223372036854775808"] := by
  let t : Token := ⟨.int, "0xFf", .empty 0⟩
  have hspells : Spells .int "0xFf".toList := by
    rw [show "0xFf".toList = ['0', 'x', 'F', 'f'] by decide]
    exact .int (by decide) (List.all_eq_true.1 (by decide))
  have hwritten : WrittenAs "0xFf".toList [t] := by
    rw [← List.append_nil "0xFf".toList]
    exact WrittenAs.nil.token (t := t) (.spelled hspells) (by simp [TokenKind.EndsBefore])
  have hatom : Atom t (.int t 255) := .int rfl (by decide)
  obtain ⟨-, -, hvalue⟩ := Phrase.parseText_eq (d := .operand t (.int t 255)) hwritten
    (.operand hatom)
  obtain ⟨-, herrors, -, hagain⟩ := parseText_display_value.1 _ _ hvalue
  obtain ⟨hseven, -, -⟩ := parseText_display_value.2 7
  obtain ⟨-, hminusSeven, -⟩ := parseText_display_value.2 (-7)
  obtain ⟨-, -, hleast⟩ := parseText_display_value.2 Int64.minValue
  exact ⟨hvalue, herrors, hagain, (hseven (by decide)).2, (hminusSeven (by decide) (by decide)).2,
    (hleast rfl).1⟩

end Sapling
