import Sapling.Numeral

/-!
# Decimal numerals are read back

A number written in decimal is read as itself.  It begins with no zero, unless it is zero, so its
radix is ten; it has no digit separators; and its digits are those that were written.  Only a number
that is too large is not read.

## Main definitions

* `digitValue` — the number that a decimal digit stands for.

## Main results

* `digits?_of_isDigit` — the digits of a text of decimal digits.
* `radix_toDigits` — numbers written in decimal are in radix ten.
* `value?_toDigits` — they are read as themselves, if they are not too large.
* `length_decimal_le` — larger numbers have no fewer digits.
-/

namespace Sapling.Numeral

/-! ### Digits -/

/-- The number that a decimal digit stands for. -/
def digitValue (c : Char) : Nat := c.toNat - '0'.toNat

theorem digitValue_lt_ten {c : Char} (h : c.isDigit) : digitValue c < 10 := by
  have hle : c.toNat ≤ 57 := (Char.isDigit_iff_toNat.1 h).2
  show c.toNat - 48 < 10
  omega

theorem digit?_of_isDigit {c : Char} (h : c.isDigit) : digit? 10 c = some (digitValue c) := by
  have hlt := digitValue_lt_ten h
  unfold digit?
  rw [if_pos h]
  exact Option.filter_some_pos (decide_eq_true hlt)

theorem moreDigits?_of_isDigit {cs : List Char} (h : ∀ c ∈ cs, c.isDigit) :
    moreDigits? 10 cs = some (cs.map digitValue) := by
  induction cs with
  | nil => rfl
  | cons c cs ih =>
    obtain ⟨hc, hcs⟩ := List.forall_mem_cons.1 h
    have hsep : c ≠ '_' := by
      rintro rfl
      cases hc
    rw [moreDigits?.eq_3 _ _ _ (by simp [hsep]), digit?_of_isDigit hc, ih hcs]
    rfl

/-- The digits of a text of decimal digits are those of its characters. -/
theorem digits?_of_isDigit {cs : List Char} (hne : cs ≠ []) (h : ∀ c ∈ cs, c.isDigit) :
    digits? 10 cs = some (cs.map digitValue) := by
  cases cs with
  | nil => exact absurd rfl hne
  | cons c cs =>
    obtain ⟨hc, hcs⟩ := List.forall_mem_cons.1 h
    rw [digits?, digit?_of_isDigit hc, moreDigits?_of_isDigit hcs]
    rfl

/-- Numbers are made of decimal digits the way that the standard library does it. -/
theorem ofDigits_map_digitValue (cs : List Char) :
    ofDigits 10 (cs.map digitValue) = Nat.ofDigitChars 10 cs 0 := by
  simp only [Nat.ofDigitChars_eq_foldl, ofDigits, List.foldl_map, digitValue, Nat.mul_comm]

/-! ### Numbers written in decimal -/

theorem isDigit_of_mem_toDigits {n : Nat} : ∀ c ∈ Nat.toDigits 10 n, c.isDigit :=
  fun _ hc => Nat.isDigit_of_mem_toDigits (by decide) (by decide) hc

/-- No number but zero begins with a zero.  The induction follows the writing of the number, whose
last digit is written after the others. -/
theorem head?_toDigits_ne {n : Nat} (hn : 0 < n) : (Nat.toDigits 10 n).head? ≠ some '0' := by
  induction n using Nat.strongRecOn with
  | ind n ih =>
    rw [Nat.toDigits_eq_if (by decide)]
    split
    · rw [List.head?_cons, ne_eq, Option.some.injEq, Nat.digitChar_eq_zero]
      omega
    · have hfirst := ih (n / 10) (by omega) (by omega)
      obtain ⟨c, cs, hcs⟩ := List.exists_cons_of_ne_nil (Nat.toDigits_ne_nil (n := n / 10) (b := 10))
      rw [hcs] at hfirst ⊢
      exact hfirst

/-- The radix is ten where no zero comes first. -/
theorem radix_of_head? {cs : List Char} (h : cs.head? ≠ some '0') : radix cs = (10, cs) := by
  unfold radix
  split <;> first | rfl | exact absurd rfl h

/-- Numbers written in decimal are in radix ten. -/
theorem radix_toDigits (n : Nat) : radix (Nat.toDigits 10 n) = (10, Nat.toDigits 10 n) := by
  rcases Nat.eq_zero_or_pos n with rfl | hn
  · rfl
  · exact radix_of_head? (head?_toDigits_ne hn)

/-- **A number written in decimal is read as itself**, if it is not too large. -/
theorem value?_toDigits (n : Nat) :
    value? (Nat.toDigits 10 n) = if n ≤ largest then some n else none := by
  have hdigits := digits?_of_isDigit Nat.toDigits_ne_nil (isDigit_of_mem_toDigits (n := n))
  have hvalue : ofDigits 10 ((Nat.toDigits 10 n).map digitValue) = n := by
    rw [ofDigits_map_digitValue, Nat.ofDigitChars_ten_toDigits]
  unfold value?
  rw [radix_toDigits, hdigits, Option.map_some, hvalue]
  split
  · next hle => exact Option.filter_some_pos (decide_eq_true hle)
  · next hgt => exact Option.filter_some_neg (by simpa using hgt)

/-- Larger numbers have no fewer digits. -/
theorem length_decimal_le {m n : Nat} (h : m ≤ n) : (decimal m).length ≤ (decimal n).length := by
  simp only [decimal, String.length_ofList]
  rw [Nat.length_toDigits_le_iff (by decide) Nat.length_toDigits_pos]
  refine Nat.lt_of_le_of_lt h ?_
  exact (Nat.length_toDigits_le_iff (by decide) Nat.length_toDigits_pos).1 (Nat.le_refl _)

end Sapling.Numeral
