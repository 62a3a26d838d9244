import Sapling.Span

/-!
# Tokens

A token is a piece of source text together with its kind and its span.

## Main definitions

* `TokenKind` — the kinds, with the name each is shown under in messages.
* `TokenKind.ofSymbol?`, `TokenKind.ofWord` — the kinds of one-character symbols and of words.
* `Token` — a kind, the text it was read from, and where that text stands.
-/

namespace Sapling

/-- What a token is. -/
inductive TokenKind where
  /-- A character that starts no token. -/
  | illegal
  /-- The end of the input. -/
  | eof
  /-- A word that is no keyword. -/
  | ident
  /-- An integer literal, well formed or not. -/
  | int
  /-- The keyword `true`. -/
  | trueWord
  /-- The keyword `false`. -/
  | falseWord
  /-- The symbol `=`. -/
  | assign
  /-- The symbol `+`. -/
  | plus
  /-- The symbol `-`. -/
  | minus
  /-- The symbol `!`. -/
  | bang
  /-- The symbol `*`. -/
  | asterisk
  /-- The symbol `/`. -/
  | slash
  /-- The symbol `<`. -/
  | less
  /-- The symbol `>`. -/
  | greater
  /-- The symbol `==`. -/
  | equal
  /-- The symbol `!=`. -/
  | notEqual
  /-- The symbol `,`. -/
  | comma
  /-- The symbol `;`. -/
  | semicolon
  /-- The symbol `(`. -/
  | leftParen
  /-- The symbol `)`. -/
  | rightParen
  /-- The opening brace. -/
  | leftBrace
  /-- The closing brace. -/
  | rightBrace
  /-- The keyword `fn`. -/
  | fnWord
  /-- The keyword `let`. -/
  | letWord
  /-- The keyword `if`. -/
  | ifWord
  /-- The keyword `else`. -/
  | elseWord
  /-- The keyword `return`. -/
  | returnWord
  deriving DecidableEq, Repr, Inhabited

namespace TokenKind

/-- The name of a kind in messages: symbols stand for themselves, all else is in capitals. -/
def name : TokenKind → String
  | illegal => "ILLEGAL"
  | eof => "EOF"
  | ident => "IDENT"
  | int => "INT"
  | trueWord => "TRUE"
  | falseWord => "FALSE"
  | assign => "="
  | plus => "+"
  | minus => "-"
  | bang => "!"
  | asterisk => "*"
  | slash => "/"
  | less => "<"
  | greater => ">"
  | equal => "=="
  | notEqual => "!="
  | comma => ","
  | semicolon => ";"
  | leftParen => "("
  | rightParen => ")"
  | leftBrace => "\x7b"
  | rightBrace => "\x7d"
  | fnWord => "FUNCTION"
  | letWord => "LET"
  | ifWord => "IF"
  | elseWord => "ELSE"
  | returnWord => "RETURN"

/-- The kind of a symbol of one character, if the character is one. -/
def ofSymbol? : Char → Option TokenKind
  | '=' => some assign
  | '!' => some bang
  | '+' => some plus
  | '-' => some minus
  | '*' => some asterisk
  | '/' => some slash
  | '<' => some less
  | '>' => some greater
  | ',' => some comma
  | ';' => some semicolon
  | '(' => some leftParen
  | ')' => some rightParen
  | '\x7b' => some leftBrace
  | '\x7d' => some rightBrace
  | _ => none

/-- The kind of a word: that of a keyword, or `ident`. -/
def ofWord (word : String) : TokenKind :=
  match word with
  | "fn" => fnWord
  | "let" => letWord
  | "true" => trueWord
  | "false" => falseWord
  | "if" => ifWord
  | "else" => elseWord
  | "return" => returnWord
  | _ => ident

end TokenKind

/-- A piece of source text, classified. -/
structure Token where
  /-- What the token is. -/
  kind : TokenKind
  /-- The text of the token, empty at the end of the input. -/
  literal : String
  /-- Where the token stands. -/
  span : Span
  deriving DecidableEq, Repr, Inhabited

namespace Token

/-- The token that marks the end of the input at an offset. -/
def eof (offset : Nat) : Token := ⟨.eof, "", .empty offset⟩

/-- How much a token counts towards the input that is left: the end of the input counts nothing. -/
def weight (t : Token) : Nat := if t.kind = .eof then 0 else 1

@[simp] theorem kind_eof (offset : Nat) : (eof offset).kind = .eof := rfl

@[simp] theorem weight_eof (offset : Nat) : (eof offset).weight = 0 := rfl

theorem weight_eq_one {t : Token} (h : t.kind ≠ .eof) : t.weight = 1 := if_neg h

theorem weight_eq_zero {t : Token} (h : t.kind = .eof) : t.weight = 0 := if_pos h

theorem weight_le_one (t : Token) : t.weight ≤ 1 := by
  unfold weight
  split <;> omega

end Token

end Sapling
