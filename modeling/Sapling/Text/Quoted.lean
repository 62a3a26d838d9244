import Sapling.Text.Extending
import Sapling.Text.Unprintable

/-!
# Quoted text

A text in double quotes, in which nothing is invisible: a character that does not print, or that
would merge with the one before it, is written by its code point in hexadecimal.

## Main definitions

* `escape` — how one character is written between the quotes.
* `quote` — a text in quotes.
-/

namespace Sapling.Text

/-- A code point in hexadecimal, without leading zeros. -/
def codePoint (c : Char) : List Char := '\\' :: 'u' :: '\x7b' :: Nat.toDigits 16 c.toNat ++ ['\x7d']

/-- How a character is written between double quotes. -/
def escape (c : Char) : List Char :=
  match c with
  | '\x00' => ['\\', '0']
  | '\t' => ['\\', 't']
  | '\n' => ['\\', 'n']
  | '\r' => ['\\', 'r']
  | '"' => ['\\', '"']
  | '\\' => ['\\', '\\']
  | c => if isExtending c || isUnprintable c then codePoint c else [c]

/-- A text in double quotes. -/
def quote (text : String) : String :=
  String.ofList ('"' :: text.toList.flatMap escape ++ ['"'])

end Sapling.Text
