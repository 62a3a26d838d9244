import Sapling.Token.Lexer

/-!
# Lexemes

The texts that tokens of each kind are written as, given on their own, and what the cutting of one
token has to do with them: it takes a lexeme of the kind it answers, and the longest that stands
there.

## Main definitions

* `TokenKind.symbol?`, `TokenKind.keyword?` — the fixed writing of kinds that have one.
* `Lexeme kind text` — a token of the kind may be written as the text.
* `TokenKind.ContinuedBy kind c`, `TokenKind.EndsBefore kind text` — a token of the kind goes on
  over the character, or may end where the text begins.

## Main results

* `Lexeme.length_le` — a lexeme that nothing continues is the longest one there.
* `exists_lexeme` — such a lexeme stands wherever no gap goes on.
* `Lexeme.lexeme_eq` — it is the one that is cut off.
-/

namespace Sapling

open Lexer

namespace TokenKind

/-- How the symbol of a kind is written. -/
def symbol? : TokenKind → Option String
  | assign => some "="
  | plus => some "+"
  | minus => some "-"
  | bang => some "!"
  | asterisk => some "*"
  | slash => some "/"
  | less => some "<"
  | greater => some ">"
  | equal => some "=="
  | notEqual => some "!="
  | comma => some ","
  | semicolon => some ";"
  | leftParen => some "("
  | rightParen => some ")"
  | leftBrace => some "\x7b"
  | rightBrace => some "\x7d"
  | _ => none

/-- How the keyword of a kind is written. -/
def keyword? : TokenKind → Option String
  | fnWord => some "fn"
  | letWord => some "let"
  | trueWord => some "true"
  | falseWord => some "false"
  | ifWord => some "if"
  | elseWord => some "else"
  | returnWord => some "return"
  | _ => none

/-- Characters that cannot follow a token of a kind, because the token would go on over them:
letters, digits and underscores after words and integer literals, `=` after `=` and `!`.  Two
slashes are the beginning of a comment. -/
def ContinuedBy : TokenKind → Char → Prop
  | assign, c => c = '='
  | bang, c => c = '='
  | slash, c => c = '/'
  | int, c => isWordChar c
  | ident, c => isWordChar c
  | fnWord, c => isWordChar c
  | letWord, c => isWordChar c
  | trueWord, c => isWordChar c
  | falseWord, c => isWordChar c
  | ifWord, c => isWordChar c
  | elseWord, c => isWordChar c
  | returnWord, c => isWordChar c
  | _, _ => False

/-- A token of the kind may end where the text begins. -/
def EndsBefore (kind : TokenKind) (text : List Char) : Prop :=
  ∀ c ∈ text.head?, ¬ kind.ContinuedBy c

/-- All tokens may end before a character that is not in words, and is neither `=` nor `/`. -/
theorem endsBefore_cons (kind : TokenKind) {c : Char} (hword : ¬ isWordChar c) (hequals : c ≠ '=')
    (hslash : c ≠ '/') (rest : List Char) : kind.EndsBefore (c :: rest) := by
  intro d hd
  obtain rfl : c = d := by simpa using hd
  cases kind <;> first | assumption | exact id

end TokenKind

open TokenKind

/-- The texts of tokens, those of no kind of their own aside. -/
inductive Spells : TokenKind → List Char → Prop where
  /-- A symbol. -/
  | symbol {kind : TokenKind} {s : String} : kind.symbol? = some s → Spells kind s.toList
  /-- A keyword. -/
  | keyword {kind : TokenKind} {s : String} : kind.keyword? = some s → Spells kind s.toList
  /-- A name: a word that is no keyword. -/
  | name {c : Char} {w : List Char} : isWordStart c → (∀ d ∈ w, isWordChar d) →
      (∀ kind : TokenKind, kind.keyword? ≠ some (String.ofList (c :: w))) → Spells .ident (c :: w)
  /-- An integer literal: a digit, and then letters, digits and underscores. -/
  | int {c : Char} {w : List Char} : c.isDigit → (∀ d ∈ w, isWordChar d) → Spells .int (c :: w)

/-- The texts of tokens. -/
inductive Lexeme : TokenKind → List Char → Prop where
  /-- A token of a kind of its own. -/
  | spelled {kind : TokenKind} {text : List Char} : Spells kind text → Lexeme kind text
  /-- A character that no gap and no other token starts with. -/
  | illegal {c : Char} : ¬ isBlank c → (∀ kind w, ¬ Spells kind (c :: w)) → Lexeme .illegal [c]

/-! ### Classes of characters -/

theorem isWordChar_of_isDigit {c : Char} (h : c.isDigit) : isWordChar c := by
  simp [isWordChar, Char.isAlphanum, h]

theorem isWordChar_of_isWordStart {c : Char} (h : isWordStart c) : isWordChar c := by
  simp only [isWordStart, Bool.or_eq_true] at h
  rcases h with h | h
  · simp [isWordChar, Char.isAlphanum, h]
  · simp [isWordChar, h]

theorem isWordStart_or_isDigit {c : Char} (h : isWordChar c) : isWordStart c ∨ c.isDigit := by
  simp only [isWordChar, Char.isAlphanum, Bool.or_eq_true] at h
  rcases h with (h | h) | h
  · exact Or.inl (by simp [isWordStart, h])
  · exact Or.inr h
  · exact Or.inl (by simp [isWordStart, h])

/-- Letters and the underscore come after the digits. -/
theorem not_isWordStart_of_isDigit {c : Char} (h : c.isDigit) : ¬ isWordStart c := by
  intro hw
  have hdigit : c.val ≤ '9'.val := (Char.isDigit_iff_toNat.1 h).2
  have hword : ((c.val ≥ 'A'.val ∧ c.val ≤ 'Z'.val : Bool) ||
      (c.val ≥ 'a'.val && c.val ≤ 'z'.val) || c = '_') = true := hw
  simp only [Bool.or_eq_true, Bool.and_eq_true, decide_eq_true_eq] at hword
  rcases hword with (⟨hupper, -⟩ | ⟨hlower, -⟩) | rfl
  · exact absurd (UInt32.le_trans hupper hdigit) (by decide)
  · exact absurd (UInt32.le_trans hlower hdigit) (by decide)
  · exact absurd hdigit (by decide)

theorem not_isBlank_of_isWordChar {c : Char} (h : isWordChar c) : ¬ isBlank c := by
  intro hb
  simp only [isBlank, Bool.or_eq_true, decide_eq_true_eq] at hb
  rcases hb with (((rfl | rfl) | rfl) | rfl) | rfl <;> exact absurd h (by decide)

/-- Symbols begin with none of the characters of words. -/
theorem not_isWordChar_of_ofSymbol {c : Char} {kind : TokenKind} (h : ofSymbol? c = some kind) :
    ¬ isWordChar c := by
  unfold ofSymbol? at h
  split at h <;> first | decide | cases h

theorem not_isBlank_of_ofSymbol {c : Char} {kind : TokenKind} (h : ofSymbol? c = some kind) :
    ¬ isBlank c := by
  unfold ofSymbol? at h
  split at h <;> first | decide | cases h

theorem ofSymbol_eq_none {c : Char} (h : isWordChar c) : ofSymbol? c = none := by
  cases hs : ofSymbol? c with
  | none => rfl
  | some kind => exact absurd h (not_isWordChar_of_ofSymbol hs)

/-! ### Symbols and words -/

theorem symbol_of_ofSymbol {c : Char} {kind : TokenKind} (h : ofSymbol? c = some kind) :
    kind.symbol? = some (String.ofList [c]) := by
  unfold ofSymbol? at h
  split at h <;> cases h <;> rfl

theorem spells_of_ofSymbol {c : Char} {kind : TokenKind} (h : ofSymbol? c = some kind) :
    Spells kind [c] := by
  have hspells := Spells.symbol (symbol_of_ofSymbol h)
  rwa [String.toList_ofList] at hspells

/-- A word is of the kind of a keyword just if it is that keyword. -/
theorem keyword_ofWord (s : String) :
    (ofWord s).keyword? = some s ∨ ofWord s = .ident ∧ ∀ kind, keyword? kind ≠ some s := by
  unfold ofWord
  split
  case h_8 h₁ h₂ h₃ h₄ h₅ h₆ h₇ =>
    refine Or.inr ⟨rfl, ?_⟩
    intro kind hk
    cases kind <;> cases hk
    all_goals contradiction
  all_goals exact Or.inl rfl

theorem ofWord_of_keyword {kind : TokenKind} {s : String} (h : kind.keyword? = some s) :
    ofWord s = kind := by
  cases kind <;> cases h <;> rfl

theorem ofWord_of_not_keyword {s : String} (h : ∀ kind : TokenKind, kind.keyword? ≠ some s) :
    ofWord s = .ident := by
  rcases keyword_ofWord s with hk | ⟨hk, -⟩
  · exact absurd hk (h _)
  · exact hk

/-- Words go on over letters, digits and underscores. -/
theorem continuedBy_ofWord (s : String) (c : Char) :
    (ofWord s).ContinuedBy c ↔ isWordChar c := by
  unfold ofWord
  split <;> exact Iff.rfl

theorem spells_word {c : Char} {w : List Char} (hc : isWordStart c) (hw : ∀ d ∈ w, isWordChar d) :
    Spells (ofWord (String.ofList (c :: w))) (c :: w) := by
  rcases keyword_ofWord (String.ofList (c :: w)) with hk | ⟨hk, hno⟩
  · have hspells := Spells.keyword hk
    rwa [String.toList_ofList] at hspells
  · rw [hk]
    exact .name hc hw hno

/-- Keywords are words. -/
theorem exists_word_of_keyword {kind : TokenKind} {s : String} (h : kind.keyword? = some s) :
    ∃ c w, s.toList = c :: w ∧ isWordStart c ∧ ∀ d ∈ w, isWordChar d := by
  cases kind <;> cases h
  all_goals exact ⟨_, _, rfl, by decide, List.all_eq_true.1 (by decide)⟩

/-- Symbols are single characters, or one of two with `=` after it. -/
theorem symbol_cases {kind : TokenKind} {s : String} (h : kind.symbol? = some s) :
    (∃ c, s.toList = [c] ∧ ofSymbol? c = some kind) ∨
      s.toList = ['=', '='] ∧ kind = .equal ∨ s.toList = ['!', '='] ∧ kind = .notEqual := by
  cases kind <;> cases h
  case equal => exact Or.inr (Or.inl ⟨rfl, rfl⟩)
  case notEqual => exact Or.inr (Or.inr ⟨rfl, rfl⟩)
  all_goals exact Or.inl ⟨_, rfl, rfl⟩

/-- Only `=`, `!` and `/` go on over a character: the first two over `=`, and slashes over slashes.
-/
theorem continuedBy_of_ofSymbol {c d : Char} {kind : TokenKind} (h : ofSymbol? c = some kind)
    (hcont : kind.ContinuedBy d) :
    c = '=' ∧ d = '=' ∨ c = '!' ∧ d = '=' ∨ c = '/' ∧ d = '/' := by
  unfold ofSymbol? at h
  split at h <;> cases h
  case h_1 => exact Or.inl ⟨rfl, hcont⟩
  case h_2 => exact Or.inr (Or.inl ⟨rfl, hcont⟩)
  case h_6 => exact Or.inr (Or.inr ⟨rfl, hcont⟩)
  all_goals exact False.elim hcont

/-! ### What texts of tokens look like -/

/-- A text of a token is a word, an integer literal, or a symbol. -/
theorem Spells.cases_head {kind : TokenKind} {c : Char} {w : List Char} (h : Spells kind (c :: w)) :
    (isWordStart c ∧ (∀ d ∈ w, isWordChar d) ∧ kind = ofWord (String.ofList (c :: w))) ∨
      (c.isDigit ∧ (∀ d ∈ w, isWordChar d) ∧ kind = .int) ∨
      (ofSymbol? c = some kind ∧ w = []) ∨
      (c = '=' ∧ w = ['='] ∧ kind = .equal) ∨ (c = '!' ∧ w = ['='] ∧ kind = .notEqual) := by
  generalize htext : c :: w = text at h
  cases h with
  | @symbol _ s hs =>
    rcases symbol_cases hs with ⟨c', hs', hc⟩ | ⟨hs', rfl⟩ | ⟨hs', rfl⟩
    · cases htext.trans hs'
      exact Or.inr (Or.inr (Or.inl ⟨hc, rfl⟩))
    · cases htext.trans hs'
      exact Or.inr (Or.inr (Or.inr (Or.inl ⟨rfl, rfl, rfl⟩)))
    · cases htext.trans hs'
      exact Or.inr (Or.inr (Or.inr (Or.inr ⟨rfl, rfl, rfl⟩)))
  | @keyword _ s hs =>
    obtain ⟨c', w', hs', hc, hw⟩ := exists_word_of_keyword hs
    cases htext.trans hs'
    exact Or.inl ⟨hc, hw, by rw [String.ofList_toList, ofWord_of_keyword hs]⟩
  | name hc hw hno =>
    cases htext
    exact Or.inl ⟨hc, hw, (ofWord_of_not_keyword hno).symm⟩
  | int hc hw =>
    cases htext
    exact Or.inr (Or.inl ⟨hc, hw, rfl⟩)

theorem Spells.ne_nil {kind : TokenKind} {text : List Char} (h : Spells kind text) : text ≠ [] := by
  rintro htext
  cases h with
  | symbol hs =>
    rcases symbol_cases hs with ⟨c, hs', -⟩ | ⟨hs', -⟩ | ⟨hs', -⟩ <;> cases htext.symm.trans hs'
  | keyword hs =>
    obtain ⟨c, w, hs', -⟩ := exists_word_of_keyword hs
    cases htext.symm.trans hs'
  | name => cases htext
  | int => cases htext

/-- Tokens that go on over letters begin like words or integer literals. -/
theorem Spells.isWordChar_head {kind : TokenKind} {c : Char} {w : List Char}
    (h : Spells kind (c :: w)) (hcont : kind.ContinuedBy 'a') : isWordChar c := by
  rcases h.cases_head with ⟨hc, -, -⟩ | ⟨hc, -, -⟩ | ⟨hc, -⟩ | ⟨-, -, rfl⟩ | ⟨-, -, rfl⟩
  · exact isWordChar_of_isWordStart hc
  · exact isWordChar_of_isDigit hc
  · rcases continuedBy_of_ofSymbol hc hcont with ⟨-, ha⟩ | ⟨-, ha⟩ | ⟨-, ha⟩ <;>
      exact absurd ha (by decide)
  · exact False.elim hcont
  · exact False.elim hcont

/-- A kind with a symbol is written as that symbol only. -/
theorem Spells.eq_of_symbol {kind : TokenKind} {text : List Char} {s : String}
    (h : Spells kind text) (hs : kind.symbol? = some s) : text = s.toList := by
  cases h with
  | symbol hs' => rw [Option.some.inj (hs'.symm.trans hs)]
  | keyword hk => cases kind <;> first | cases hs; done | cases hk
  | name => cases hs
  | int => cases hs

/-- The characters that start no token. -/
theorem forall_not_spells_iff {c : Char} :
    (∀ kind w, ¬ Spells kind (c :: w)) ↔ ¬ isWordChar c ∧ ofSymbol? c = none := by
  constructor
  · intro hno
    constructor
    · intro hc
      rcases isWordStart_or_isDigit hc with hs | hd
      · exact hno _ [] (spells_word hs (by simp))
      · exact hno _ [] (.int hd (by simp))
    · cases hs : ofSymbol? c with
      | none => rfl
      | some kind => exact absurd (spells_of_ofSymbol hs) (hno _ [])
  · rintro ⟨hc, hs⟩ kind w h
    rcases h.cases_head with ⟨hw, -, -⟩ | ⟨hd, -, -⟩ | ⟨hs', -⟩ | ⟨rfl, -, -⟩ | ⟨rfl, -, -⟩
    · exact hc (isWordChar_of_isWordStart hw)
    · exact hc (isWordChar_of_isDigit hd)
    · cases hs.symm.trans hs'
    · cases hs
    · cases hs

namespace Lexeme

theorem ne_nil {kind : TokenKind} {text : List Char} (h : Lexeme kind text) : text ≠ [] := by
  cases h with
  | spelled h => exact h.ne_nil
  | illegal => simp

theorem spells {kind : TokenKind} {text : List Char} (h : Lexeme kind text) (hk : kind ≠ .illegal) :
    Spells kind text := by
  cases h with
  | spelled h => exact h
  | illegal => exact absurd rfl hk

theorem ne_eof {kind : TokenKind} {text : List Char} (h : Lexeme kind text) : kind ≠ .eof := by
  rintro rfl
  cases h with
  | spelled h => cases h <;> contradiction

/-- What begins with a letter, a digit or an underscore consists of such characters, and goes on
over them. -/
theorem of_isWordChar {kind : TokenKind} {c : Char} {w : List Char} (h : Lexeme kind (c :: w))
    (hc : isWordChar c) :
    (∀ d ∈ w, isWordChar d) ∧ ∀ d, kind.ContinuedBy d ↔ isWordChar d := by
  cases h with
  | spelled h =>
    rcases h.cases_head with ⟨-, hw, rfl⟩ | ⟨-, hw, rfl⟩ | ⟨hs, -⟩ | ⟨rfl, -, -⟩ | ⟨rfl, -, -⟩
    · exact ⟨hw, continuedBy_ofWord _⟩
    · exact ⟨hw, fun _ => Iff.rfl⟩
    · exact absurd hc (not_isWordChar_of_ofSymbol hs)
    · exact absurd hc (by decide)
    · exact absurd hc (by decide)
  | illegal _ hno => exact absurd hc (forall_not_spells_iff.1 hno).1

theorem not_isBlank {kind : TokenKind} {c : Char} {w : List Char} (h : Lexeme kind (c :: w)) :
    ¬ isBlank c := by
  cases h with
  | spelled h =>
    rcases h.cases_head with ⟨hc, -, -⟩ | ⟨hc, -, -⟩ | ⟨hc, -⟩ | ⟨rfl, -, -⟩ | ⟨rfl, -, -⟩
    · exact not_isBlank_of_isWordChar (isWordChar_of_isWordStart hc)
    · exact not_isBlank_of_isWordChar (isWordChar_of_isDigit hc)
    · exact not_isBlank_of_ofSymbol hc
    · decide
    · decide
  | illegal hc => exact hc

/-- What begins with another character is that character alone, unless it is `==` or `!=`. -/
theorem of_not_isWordChar {kind : TokenKind} {c : Char} {w : List Char} (h : Lexeme kind (c :: w))
    (hc : ¬ isWordChar c) : w = [] ∨ w = ['='] ∧ (c = '=' ∨ c = '!') := by
  cases h with
  | spelled h =>
    rcases h.cases_head with ⟨hs, -, -⟩ | ⟨hd, -, -⟩ | ⟨-, hw⟩ | ⟨hc', hw, -⟩ | ⟨hc', hw, -⟩
    · exact absurd (isWordChar_of_isWordStart hs) hc
    · exact absurd (isWordChar_of_isDigit hd) hc
    · exact Or.inl hw
    · exact Or.inr ⟨hw, Or.inl hc'⟩
    · exact Or.inr ⟨hw, Or.inr hc'⟩
  | illegal => exact Or.inl rfl

/-- No character of a token is blank. -/
theorem forall_not_isBlank {kind : TokenKind} {text : List Char} (h : Lexeme kind text) :
    ∀ c ∈ text, ¬ isBlank c := by
  obtain ⟨c, w, rfl⟩ := List.exists_cons_of_ne_nil h.ne_nil
  refine List.forall_mem_cons.2 ⟨h.not_isBlank, ?_⟩
  intro d hd
  by_cases hc : isWordChar c
  · exact not_isBlank_of_isWordChar ((h.of_isWordChar hc).1 d hd)
  · rcases h.of_not_isWordChar hc with rfl | ⟨rfl, -⟩
    · cases hd
    · obtain rfl : d = '=' := by simpa using hd
      decide

/-- A symbol of one character is nothing else. -/
theorem of_ofSymbol {kind kind' : TokenKind} {c : Char} (h : Lexeme kind [c])
    (hc : ofSymbol? c = some kind') : kind = kind' := by
  cases h with
  | spelled h =>
    rcases h.cases_head with ⟨hs, -, -⟩ | ⟨hd, -, -⟩ | ⟨hs, -⟩ | ⟨-, hw, -⟩ | ⟨-, hw, -⟩
    · exact absurd (isWordChar_of_isWordStart hs) (not_isWordChar_of_ofSymbol hc)
    · exact absurd (isWordChar_of_isDigit hd) (not_isWordChar_of_ofSymbol hc)
    · exact Option.some.inj (hs.symm.trans hc)
    · cases hw
    · cases hw
  | illegal _ hno => exact absurd (spells_of_ofSymbol hc) (hno _ [])

end Lexeme

/-! ### The longest lexeme -/

/-- An initial part whose characters pass a test is no longer than one that ends where the test
fails. -/
theorem length_le_of_initial {test : Char → Bool} {v w after : List Char}
    (hv : ∀ d ∈ v, test d) (hafter : ∀ d ∈ after.head?, ¬ test d) (h : v <+: w ++ after) :
    v.length ≤ w.length := by
  rcases Nat.lt_or_ge w.length v.length with hlt | hle
  · obtain ⟨u, rfl⟩ : w <+: v :=
      List.prefix_of_prefix_length_le (List.prefix_append w after) h (Nat.le_of_lt hlt)
    cases u with
    | nil => simp
    | cons d u =>
      rw [List.prefix_append_right_inj] at h
      obtain ⟨later, rfl⟩ := h
      exact absurd (hv d (by simp)) (hafter d (by simp))
  · exact hle

/-- **Maximal munch**: a lexeme that nothing continues is the longest one that stands there. -/
theorem Lexeme.length_le {kind kind' : TokenKind} {text text' after : List Char}
    (h : Lexeme kind text) (hends : kind.EndsBefore after) (h' : Lexeme kind' text')
    (hinitial : text' <+: text ++ after) : text'.length ≤ text.length := by
  obtain ⟨c, w, rfl⟩ := List.exists_cons_of_ne_nil h.ne_nil
  obtain ⟨c', w', rfl⟩ := List.exists_cons_of_ne_nil h'.ne_nil
  obtain ⟨rfl, htail⟩ : c' = c ∧ w' <+: w ++ after := List.cons_prefix_cons.1 hinitial
  -- both begin with the same character, which tells what they consist of
  by_cases hc : isWordChar c'
  · obtain ⟨-, hcont⟩ := h.of_isWordChar hc
    obtain ⟨hw', -⟩ := h'.of_isWordChar hc
    have hafter : ∀ d ∈ after.head?, ¬ isWordChar d := by
      intro d hd hword
      exact hends d hd ((hcont d).2 hword)
    exact Nat.succ_le_succ (length_le_of_initial hw' hafter htail)
  · rcases h'.of_not_isWordChar hc with rfl | ⟨rfl, hc'⟩
    · simp
    · rcases h.of_not_isWordChar hc with rfl | ⟨rfl, -⟩
      · -- `=` and `!` alone do not end before the `=` that the longer text goes on with
        obtain ⟨later, rfl⟩ := htail
        have hno : ¬ kind.ContinuedBy '=' := hends '=' rfl
        rcases hc' with rfl | rfl
        · exact absurd (h.of_ofSymbol rfl ▸ rfl) hno
        · exact absurd (h.of_ofSymbol rfl ▸ rfl) hno
      · exact Nat.le_refl _

namespace Lexer

/-! ### The lexeme that is cut off -/

theorem lexeme_symbol {c : Char} {kind : TokenKind} {rest : List Char}
    (hc : ofSymbol? c = some kind) (hends : kind.EndsBefore rest) : lexeme c rest = (kind, []) := by
  unfold lexeme
  rw [hc]
  cases kind with
  | assign =>
    have hnext : rest.head? ≠ some '=' := fun h => hends '=' h rfl
    exact if_neg hnext
  | bang =>
    have hnext : rest.head? ≠ some '=' := fun h => hends '=' h rfl
    exact if_neg hnext
  | _ => rfl

theorem lexeme_equal (rest : List Char) : lexeme '=' ('=' :: rest) = (.equal, ['=']) := rfl

theorem lexeme_notEqual (rest : List Char) : lexeme '!' ('=' :: rest) = (.notEqual, ['=']) := rfl

theorem lexeme_int {c : Char} (hc : c.isDigit) (rest : List Char) :
    lexeme c rest = (.int, rest.takeWhile isWordChar) := by
  unfold lexeme
  rw [ofSymbol_eq_none (isWordChar_of_isDigit hc)]
  exact if_pos hc

theorem lexeme_word {c : Char} (hc : isWordStart c) (rest : List Char) :
    lexeme c rest
      = (ofWord (String.ofList (c :: rest.takeWhile isWordChar)), rest.takeWhile isWordChar) := by
  have hdigit : ¬ c.isDigit := fun hd => not_isWordStart_of_isDigit hd hc
  unfold lexeme
  rw [ofSymbol_eq_none (isWordChar_of_isWordStart hc)]
  simp only [if_neg hdigit, if_pos hc]

theorem lexeme_illegal {c : Char} (hc : ¬ isWordChar c) (hs : ofSymbol? c = none)
    (rest : List Char) : lexeme c rest = (.illegal, []) := by
  have hdigit : ¬ c.isDigit := fun hd => hc (isWordChar_of_isDigit hd)
  have hstart : ¬ isWordStart c := fun hd => hc (isWordChar_of_isWordStart hd)
  unfold lexeme
  rw [hs]
  simp only [if_neg hdigit, if_neg hstart]

/-- The longest initial part of a class, if it is followed by a character that is not of the class.
-/
theorem takeWhile_append {test : Char → Bool} {w after : List Char} (hw : ∀ d ∈ w, test d)
    (hafter : ∀ d ∈ after.head?, ¬ test d) : (w ++ after).takeWhile test = w := by
  rw [List.takeWhile_append_of_pos hw]
  cases after with
  | nil => simp
  | cons d after => simp [hafter d rfl]

end Lexer

open Lexer

/-- **Each lexeme is cut off** where nothing continues it. -/
theorem Lexeme.lexeme_eq {kind : TokenKind} {c : Char} {w rest : List Char}
    (h : Lexeme kind (c :: w)) (hends : kind.EndsBefore rest) :
    lexeme c (w ++ rest) = (kind, w) := by
  have htake (hc : isWordChar c) : (w ++ rest).takeWhile isWordChar = w := by
    obtain ⟨hw, hcont⟩ := h.of_isWordChar hc
    refine takeWhile_append hw ?_
    intro d hd hword
    exact hends d hd ((hcont d).2 hword)
  cases h with
  | spelled h =>
    rcases h.cases_head with ⟨hc, -, rfl⟩ | ⟨hc, -, rfl⟩ | ⟨hc, rfl⟩ | ⟨rfl, rfl, rfl⟩ |
      ⟨rfl, rfl, rfl⟩
    · rw [lexeme_word hc, htake (isWordChar_of_isWordStart hc)]
    · rw [lexeme_int hc, htake (isWordChar_of_isDigit hc)]
    · exact lexeme_symbol hc hends
    · exact lexeme_equal rest
    · exact lexeme_notEqual rest
  | illegal _ hno =>
    obtain ⟨hc, hs⟩ := forall_not_spells_iff.1 hno
    exact lexeme_illegal hc hs _

/-- What stands at a character is a lexeme that nothing continues, if no gap goes on there. -/
theorem exists_lexeme {c : Char} {rest : List Char} (hblank : ¬ isBlank c)
    (hcomment : ¬ (c = '/' ∧ rest.head? = some '/')) :
    ∃ kind w after, rest = w ++ after ∧ Lexeme kind (c :: w) ∧ kind.EndsBefore after := by
  have hsplit : rest = rest.takeWhile isWordChar ++ rest.dropWhile isWordChar :=
    List.takeWhile_append_dropWhile.symm
  have hall : ∀ d ∈ rest.takeWhile isWordChar, isWordChar d := fun d hd =>
    List.all_eq_true.1 List.all_takeWhile d hd
  have hstop : ∀ d ∈ (rest.dropWhile isWordChar).head?, ¬ isWordChar d := by
    intro d hd
    have := List.head?_dropWhile_not isWordChar rest
    rw [hd] at this
    simpa using this
  by_cases hc : isWordChar c
  · -- words and integer literals take all that goes on with letters, digits and underscores
    rcases isWordStart_or_isDigit hc with hs | hd
    · refine ⟨_, _, _, hsplit, .spelled (spells_word hs hall), ?_⟩
      intro d hd hcont
      exact hstop d hd ((continuedBy_ofWord _ d).1 hcont)
    · exact ⟨_, _, _, hsplit, .spelled (.int hd hall), hstop⟩
  cases hs : ofSymbol? c with
  | none =>
    exact ⟨_, [], _, rfl, .illegal hblank (forall_not_spells_iff.2 ⟨hc, hs⟩), fun _ _ h => h⟩
  | some kind =>
    by_cases hends : kind.EndsBefore rest
    · exact ⟨kind, [], _, rfl, .spelled (spells_of_ofSymbol hs), hends⟩
    · -- what continues a symbol makes it `==` or `!=`, since it cannot begin a comment
      obtain ⟨d, hd, hcont⟩ : ∃ d, rest.head? = some d ∧ kind.ContinuedBy d := by
        simpa [EndsBefore] using hends
      obtain ⟨after, rfl⟩ := List.head?_eq_some_iff.1 hd
      rcases continuedBy_of_ofSymbol hs hcont with ⟨rfl, rfl⟩ | ⟨rfl, rfl⟩ | h
      · exact ⟨.equal, ['='], after, rfl, .spelled (.symbol (s := "==") rfl), fun _ _ h => h⟩
      · exact ⟨.notEqual, ['='], after, rfl, .spelled (.symbol (s := "!=") rfl), fun _ _ h => h⟩
      · exact absurd ⟨h.1, congrArg some h.2⟩ hcomment

end Sapling
