import Sapling.Text.Cursor
import Sapling.Token.Stream

/-!
# Cutting text into tokens

Between tokens stand gaps: blanks and comments, which run from two slashes up to the end of their
line.  A token is the longest lexeme that starts where the gap ends: a word, an integer literal (a
digit with all letters, digits and underscores after it), a symbol of one or two characters, or else
one character that starts no token.

## Main definitions

* `leadingGap` — the gap that a text starts with.
* `lexeme` — the kind of the token at a character, and the further characters it takes.
* `Lexer`, `Lexer.next` — a text that tokens are read from, one by one.

## Main results

* `length_rest_next` — each token but the end of input takes some of the text.
-/

namespace Sapling

open Text

/-- A text from which tokens are read on demand. -/
structure Lexer where
  /-- What has been read, and what not. -/
  cursor : Cursor
  deriving DecidableEq, Repr, Inhabited

namespace Lexer

/-! ### Gaps and lexemes -/

/-- Blank characters between tokens: space, tab, line feed, form feed and carriage return. -/
def isBlank (c : Char) : Bool :=
  c = ' ' || c = '\t' || c = '\n' || c = '\x0c' || c = '\r'

/-- The characters a word starts with: ASCII letters and the underscore. -/
def isWordStart (c : Char) : Bool := c.isAlpha || c = '_'

/-- The characters inside words and integer literals: ASCII letters, digits and the underscore. -/
def isWordChar (c : Char) : Bool := c.isAlphanum || c = '_'

/-- The blanks and comments that a text starts with; `inComment` says whether a comment is open. -/
def leadingGap (inComment : Bool) : List Char → List Char
  | [] => []
  | c :: rest =>
    if inComment then c :: leadingGap (c ≠ '\n') rest
    else if isBlank c then c :: leadingGap false rest
    else if c = '/' ∧ rest.head? = some '/' then c :: leadingGap true rest
    else []

/-- The token that starts with `c`, when `rest` follows: its kind, and its characters after `c`. -/
def lexeme (c : Char) (rest : List Char) : TokenKind × List Char :=
  match TokenKind.ofSymbol? c with
  | some .assign => if rest.head? = some '=' then (.equal, ['=']) else (.assign, [])
  | some .bang => if rest.head? = some '=' then (.notEqual, ['=']) else (.bang, [])
  | some kind => (kind, [])
  | none =>
    let word := rest.takeWhile isWordChar
    if c.isDigit then (.int, word)
    else if isWordStart c then (.ofWord (String.ofList (c :: word)), word)
    else (.illegal, [])

/-! ### Tokens on demand -/

/-- Starts at the beginning of a text. -/
def ofText (text : List Char) : Lexer := ⟨.ofText text⟩

/-- The next token.  At the end of the text it is an end of input, however often it is asked for. -/
def next (l : Lexer) : Token × Lexer :=
  let start := l.cursor.advance (leadingGap false l.cursor.rest)
  match start.rest with
  | [] => (.eof start.offset, ⟨start⟩)
  | c :: rest =>
    let found := lexeme c rest
    let literal := c :: found.2
    let stop := start.advance literal
    (⟨found.1, String.ofList literal, ⟨start.offset, stop.offset⟩⟩, ⟨stop⟩)

/-- Each token that is not an end of input takes at least one character. -/
theorem length_rest_next (l : Lexer) :
    l.next.2.cursor.rest.length + l.next.1.weight ≤ l.cursor.rest.length := by
  unfold next
  dsimp only
  split
  · simp [Cursor.advance]
  · rename_i c rest h
    refine Nat.le_trans (Nat.add_le_add_left (Token.weight_le_one _) _) ?_
    have hlen := congrArg List.length h
    simp only [Cursor.advance, List.length_drop, List.length_cons] at hlen ⊢
    omega

instance : TokenStream Lexer where
  next := next
  remaining l := l.cursor.rest.length
  remaining_next := length_rest_next

end Lexer

end Sapling
