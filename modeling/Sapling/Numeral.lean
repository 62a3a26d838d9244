/-!
# Numerals

Integer literals in four radices, and the decimal writing of integers.  A literal says its radix by
how it begins: `0x`, `0o` and `0b`, in either case, stand for 16, 8 and 2; another leading `0` with
anything after it stands for 8; all else is decimal.  Single underscores may stand between digits,
and one may follow what announces the radix.

## Main definitions

* `digit?` — the value of a digit in a radix.
* `digits?` — the digits of a text, single underscores between them left out.
* `value?` — the integer that a literal denotes, if it is well formed and not too large.
* `decimal`, `signedDecimal` — the decimal writing of a natural number and of an integer.
-/

namespace Sapling.Numeral

/-! ### Reading -/

/-- The largest integer: values are signed and 64 bits wide, so it is one less than `2 ^ 63`. -/
def largest : Nat := 9223372036854775807

/-- The value of a digit, where letters of either case go on from ten, if the radix has that digit.
-/
def digit? (radix : Nat) (c : Char) : Option Nat :=
  let value :=
    if c.isDigit then some (c.toNat - '0'.toNat)
    else if c.isLower then some (c.toNat - 'a'.toNat + 10)
    else if c.isUpper then some (c.toNat - 'A'.toNat + 10)
    else none
  value.filter (· < radix)

/-- The digits that follow a digit, each with at most one underscore before it. -/
def moreDigits? (radix : Nat) : List Char → Option (List Nat)
  | [] => some []
  | '_' :: c :: cs => (digit? radix c).bind fun d => (moreDigits? radix cs).map (d :: ·)
  | c :: cs => (digit? radix c).bind fun d => (moreDigits? radix cs).map (d :: ·)

/-- The digits of a text that is one or more digits with single underscores between them. -/
def digits? (radix : Nat) : List Char → Option (List Nat)
  | [] => none
  | c :: cs => (digit? radix c).bind fun d => (moreDigits? radix cs).map (d :: ·)

/-- The number that digits denote in a radix, the most significant digit first. -/
def ofDigits (radix : Nat) (digits : List Nat) : Nat :=
  digits.foldl (fun value d => value * radix + d) 0

/-- A text without the underscore it may start with. -/
def dropSeparator : List Char → List Char
  | '_' :: cs => cs
  | cs => cs

/-- The radix of a literal, and the text in which its digits stand. -/
def radix : List Char → Nat × List Char
  | '0' :: 'x' :: cs => (16, dropSeparator cs)
  | '0' :: 'X' :: cs => (16, dropSeparator cs)
  | '0' :: 'o' :: cs => (8, dropSeparator cs)
  | '0' :: 'O' :: cs => (8, dropSeparator cs)
  | '0' :: 'b' :: cs => (2, dropSeparator cs)
  | '0' :: 'B' :: cs => (2, dropSeparator cs)
  | '0' :: c :: cs => (8, dropSeparator (c :: cs))
  | cs => (10, cs)

/-- The integer that a literal denotes; none if it is malformed or denotes one beyond the largest.
-/
def value? (literal : List Char) : Option Nat :=
  ((digits? (radix literal).1 (radix literal).2).map (ofDigits (radix literal).1)).filter (· ≤ largest)

/-! ### Writing -/

/-- A number in decimal. -/
def decimal (n : Nat) : String := String.ofList (Nat.toDigits 10 n)

/-- An integer in decimal, with a minus sign if it is negative. -/
def signedDecimal (n : Int) : String :=
  if n < 0 then "-" ++ decimal n.natAbs else decimal n.natAbs

end Sapling.Numeral
