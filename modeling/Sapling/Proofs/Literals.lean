import Mathlib.Data.Nat.Digits.Lemmas
import Sapling.Proofs.Numerals

/-!
# Which texts are integer literals

A literal is either decimal, or it announces its radix.  The grammar here says which digits it is
written with, and where underscores may stand; the number is the one that the digits denote.
Reading a literal decides this grammar: it finds the number, if that has less than 64 bits, and
refuses every other text.

## Main definitions

* `WrittenDigit`, `Written` — digits as they are written, with single underscores between them.
* `Announces` — the beginnings that announce a radix.
* `Literal text n` — the text `text` is an integer literal for `n`, however large.
* `spell` — digits written with a choice of capitals and of underscores.

## Main results

* `digits?_eq_some_iff` — the digits of a text are found just if they are written there.
* `radix_announced`, `exists_announced` — the radix of a literal is found.
* `value?_eq_some_iff_literal` — **literals are accepted exactly as the grammar has it**.
-/

namespace Sapling.Numeral

/-! ### The grammar -/

/-- A character is a digit.  From ten on digits are letters, small or capital. -/
def WrittenDigit (d : Nat) (c : Char) : Prop := c = Nat.digitChar d ∨ c = (Nat.digitChar d).toUpper

/-- A text is one or more digits of a radix, with at most one underscore between two of them. -/
inductive Written (radix : Nat) : List Nat → List Char → Prop where
  /-- The last digit. -/
  | last {d : Nat} {c : Char} : d < radix → WrittenDigit d c → Written radix [d] [c]
  /-- A digit right before the next one. -/
  | next {d : Nat} {c : Char} {ds : List Nat} {cs : List Char} : d < radix → WrittenDigit d c →
      Written radix ds cs → Written radix (d :: ds) (c :: cs)
  /-- A digit, an underscore, and the next digit. -/
  | separated {d : Nat} {c : Char} {ds : List Nat} {cs : List Char} : d < radix →
      WrittenDigit d c → Written radix ds cs → Written radix (d :: ds) (c :: '_' :: cs)

/-- The beginning of a literal announces a radix. -/
inductive Announces : List Char → Nat → Prop where
  /-- Hexadecimal digits follow. -/
  | hexadecimal {c : Char} : c = 'x' ∨ c = 'X' → Announces ['0', c] 16
  /-- Octal digits follow. -/
  | octal {c : Char} : c = 'o' ∨ c = 'O' → Announces ['0', c] 8
  /-- Binary digits follow. -/
  | binary {c : Char} : c = 'b' ∨ c = 'B' → Announces ['0', c] 2
  /-- Octal digits follow a zero alone. -/
  | leadingZero : Announces ['0'] 8

/-- What may stand between the beginning that announces a radix and the digits. -/
def Separator (cs : List Char) : Prop := cs = [] ∨ cs = ['_']

/-- A text is an integer literal for a number.  The digits have the most significant one first. -/
inductive Literal : List Char → Nat → Prop where
  /-- The radix is announced. -/
  | announced {announced separator cs : List Char} {radix : Nat} {ds : List Nat} :
      Announces announced radix → Separator separator → Written radix ds cs →
      Literal (announced ++ separator ++ cs) (Nat.ofDigits radix ds.reverse)
  /-- Zero. -/
  | zero : Literal ['0'] 0
  /-- All other decimal literals begin with no zero. -/
  | decimal {cs : List Char} {ds : List Nat} : Written 10 ds cs → cs.head? ≠ some '0' →
      Literal cs (Nat.ofDigits 10 ds.reverse)

/-! ### Digits -/

theorem Announces.radix_le {announced : List Char} {radix : Nat} (h : Announces announced radix) :
    radix ≤ 16 := by
  cases h <;> decide

/-- Beyond nine, digits are letters. -/
theorem toNat_digitChar_of_ten_le : ∀ d < 16, 10 ≤ d →
    (Nat.digitChar d).toNat = d + 87 ∧ (Nat.digitChar d).toUpper.toNat = d + 55 := by
  decide

/-- Reading a digit finds it as it is written. -/
theorem digit?_of_writtenDigit {radix d : Nat} {c : Char} (hradix : radix ≤ 16) (hd : d < radix)
    (h : WrittenDigit d c) : digit? radix c = some d := by
  have hsixteen : ∀ e < 16, digit? 16 (Nat.digitChar e) = some e ∧
      digit? 16 (Nat.digitChar e).toUpper = some e := by decide
  have hfound : digit? 16 c = some d := by
    rcases h with rfl | rfl
    · exact (hsixteen d (by omega)).1
    · exact (hsixteen d (by omega)).2
  -- the radix plays no part in the value of a digit, but only in whether there is one
  unfold digit? at hfound ⊢
  exact Option.filter_eq_some_iff.2 ⟨(Option.filter_eq_some_iff.1 hfound).1, decide_eq_true hd⟩

/-- A digit that is read is one of the radix, and is written there. -/
theorem writtenDigit_of_digit? {radix d : Nat} {c : Char} (hradix : radix ≤ 16)
    (h : digit? radix c = some d) : d < radix ∧ WrittenDigit d c := by
  obtain ⟨hvalue, hlt⟩ := Option.filter_eq_some_iff.1 h
  have hd : d < radix := of_decide_eq_true hlt
  refine ⟨hd, ?_⟩
  split at hvalue
  · next hdigit =>
    obtain ⟨hlow, hhigh⟩ := Char.isDigit_iff_toNat.1 hdigit
    have hd : c.toNat - 48 = d := Option.some.inj hvalue
    refine Or.inl (Char.toNat_inj.1 ?_)
    rw [Nat.toNat_digitChar_of_lt_ten (by change c.toNat ≤ 57 at hhigh; omega)]
    change 48 ≤ c.toNat at hlow
    omega
  · split at hvalue
    · next hlower =>
      have hlow : 97 ≤ c.toNat :=
        (of_decide_eq_true (Bool.and_eq_true_iff.1 hlower).1 : 'a'.val ≤ c.val)
      have hd : c.toNat - 97 + 10 = d := Option.some.inj hvalue
      refine Or.inl (Char.toNat_inj.1 ?_)
      rw [(toNat_digitChar_of_ten_le d (by omega) (by omega)).1]
      omega
    · split at hvalue
      · next hupper =>
        have hlow : 65 ≤ c.toNat :=
          (of_decide_eq_true hupper : 'A'.val ≤ c.val ∧ c.val ≤ 'Z'.val).1
        have hd : c.toNat - 65 + 10 = d := Option.some.inj hvalue
        refine Or.inr (Char.toNat_inj.1 ?_)
        rw [(toNat_digitChar_of_ten_le d (by omega) (by omega)).2]
        omega
      · cases hvalue

/-- No digit is written as an underscore. -/
theorem WrittenDigit.ne_separator {d : Nat} {c : Char} (hd : d < 16) (h : WrittenDigit d c) :
    c ≠ '_' := by
  rintro rfl
  have hfound := digit?_of_writtenDigit (Nat.le_refl 16) hd h
  cases hfound

/-- **Written digits are read**: first one digit, and then the others. -/
theorem Written.moreDigits?_eq {radix : Nat} (hradix : radix ≤ 16) {ds : List Nat}
    {cs : List Char} (h : Written radix ds cs) : ∃ d more c later, ds = d :: more ∧
      cs = c :: later ∧ d < radix ∧ WrittenDigit d c ∧ moreDigits? radix later = some more := by
  induction h with
  | @last d c hd hc => exact ⟨d, [], c, [], rfl, rfl, hd, hc, rfl⟩
  | @next d c ds cs hd hc _ ih =>
    obtain ⟨e, more, b, later, rfl, rfl, he, hb, hmore⟩ := ih
    refine ⟨d, _, c, _, rfl, rfl, hd, hc, ?_⟩
    have hb' : b ≠ '_' := hb.ne_separator (Nat.lt_of_lt_of_le he hradix)
    rw [moreDigits?.eq_3 _ _ _ (by simp [hb']), digit?_of_writtenDigit hradix he hb, hmore]
    rfl
  | @separated d c ds cs hd hc _ ih =>
    obtain ⟨e, more, b, later, rfl, rfl, he, hb, hmore⟩ := ih
    refine ⟨d, _, c, _, rfl, rfl, hd, hc, ?_⟩
    rw [moreDigits?, digit?_of_writtenDigit hradix he hb, hmore]
    rfl

/-- Digits that are read after a digit are written after it. -/
theorem written_of_moreDigits? {radix : Nat} (hradix : radix ≤ 16) (cs : List Char) :
    ∀ {d : Nat} {c : Char} {ds : List Nat}, d < radix → WrittenDigit d c →
      moreDigits? radix cs = some ds → Written radix (d :: ds) (c :: cs) := by
  fun_induction moreDigits? radix cs with
  | case1 =>
    rintro d c ds hd hc ⟨⟩
    exact .last hd hc
  | case2 b later ih =>
    intro d c ds hd hc h
    obtain ⟨e, he, h⟩ := Option.bind_eq_some_iff.1 h
    obtain ⟨more, hmore, rfl⟩ := Option.map_eq_some_iff.1 h
    obtain ⟨he, hb⟩ := writtenDigit_of_digit? hradix he
    exact .separated hd hc (ih he hb hmore)
  | case3 b later _ ih =>
    intro d c ds hd hc h
    obtain ⟨e, he, h⟩ := Option.bind_eq_some_iff.1 h
    obtain ⟨more, hmore, rfl⟩ := Option.map_eq_some_iff.1 h
    obtain ⟨he, hb⟩ := writtenDigit_of_digit? hradix he
    exact .next hd hc (ih he hb hmore)

/-- **Digits are read just if they are written.** -/
theorem digits?_eq_some_iff {radix : Nat} (hradix : radix ≤ 16) {cs : List Char} {ds : List Nat} :
    digits? radix cs = some ds ↔ Written radix ds cs := by
  constructor
  · intro h
    cases cs with
    | nil => cases h
    | cons c cs =>
      obtain ⟨d, hd, h⟩ := Option.bind_eq_some_iff.1 h
      obtain ⟨more, hmore, rfl⟩ := Option.map_eq_some_iff.1 h
      obtain ⟨hd, hc⟩ := writtenDigit_of_digit? hradix hd
      exact written_of_moreDigits? hradix cs hd hc hmore
  · intro h
    obtain ⟨d, more, c, later, rfl, rfl, hd, hc, hmore⟩ := h.moreDigits?_eq hradix
    rw [digits?, digit?_of_writtenDigit hradix hd hc, hmore]
    rfl

/-- The number that digits denote is made of them the way that the standard library does it. -/
theorem ofDigits_eq (radix : Nat) (ds : List Nat) :
    ofDigits radix ds = Nat.ofDigits radix ds.reverse := by
  rw [Nat.ofDigits_eq_foldr, List.foldr_reverse, ofDigits]
  congr 1
  funext value d
  rw [Nat.cast_id, Nat.mul_comm, Nat.add_comm]

/-! ### The radix -/

theorem exists_separator (cs : List Char) : ∃ separator, Separator separator ∧
    cs = separator ++ dropSeparator cs := by
  unfold dropSeparator
  split
  · exact ⟨['_'], Or.inr rfl, rfl⟩
  · exact ⟨[], Or.inl rfl, rfl⟩

/-- Every text announces a radix, or else it is decimal. -/
theorem exists_announced (text : List Char) :
    (∃ announced separator, Announces announced (radix text).1 ∧ Separator separator ∧
      text = announced ++ separator ++ (radix text).2) ∨
    radix text = (10, text) ∧ (text = ['0'] ∨ text.head? ≠ some '0') := by
  have hannounced {announced cs : List Char} {r : Nat} (h : Announces announced r) :
      ∃ announced' separator, Announces announced' r ∧ Separator separator ∧
        announced ++ cs = announced' ++ separator ++ dropSeparator cs := by
    obtain ⟨separator, hseparator, hcs⟩ := exists_separator cs
    refine ⟨announced, separator, h, hseparator, ?_⟩
    rw [List.append_assoc, ← hcs]
  unfold radix
  split
  · exact Or.inl (hannounced (.hexadecimal (Or.inl rfl)))
  · exact Or.inl (hannounced (.hexadecimal (Or.inr rfl)))
  · exact Or.inl (hannounced (.octal (Or.inl rfl)))
  · exact Or.inl (hannounced (.octal (Or.inr rfl)))
  · exact Or.inl (hannounced (.binary (Or.inl rfl)))
  · exact Or.inl (hannounced (.binary (Or.inr rfl)))
  · exact Or.inl (hannounced .leadingZero)
  · next hzero =>
    refine Or.inr ⟨rfl, ?_⟩
    cases text with
    | nil => exact Or.inr (by simp)
    | cons c cs =>
      by_cases hc : c = '0'
      · subst hc
        cases cs with
        | nil => exact Or.inl rfl
        | cons d cs => exact absurd rfl (hzero d cs)
      · exact Or.inr (by simpa using hc)

/-- A zero announces octal digits unless a letter that announces another radix follows. -/
theorem radix_leadingZero {b : Char} (hb : b ∉ ['x', 'X', 'o', 'O', 'b', 'B']) (cs : List Char) :
    radix ('0' :: b :: cs) = (8, dropSeparator (b :: cs)) := by
  unfold radix
  split <;> first | rfl | simp_all

/-- No octal digit announces a radix. -/
theorem WrittenDigit.not_mem_announcing {d : Nat} {c : Char} (hd : d < 8) (h : WrittenDigit d c) :
    c ∉ ['x', 'X', 'o', 'O', 'b', 'B'] := by
  have hnone : ∀ d < 8, Nat.digitChar d ∉ ['x', 'X', 'o', 'O', 'b', 'B'] ∧
      (Nat.digitChar d).toUpper ∉ ['x', 'X', 'o', 'O', 'b', 'B'] := by decide
  rcases h with rfl | rfl
  · exact (hnone d hd).1
  · exact (hnone d hd).2

/-- **The radix that is announced is found**, and so is the beginning of the digits. -/
theorem radix_announced {announced separator cs : List Char} {r : Nat} {ds : List Nat}
    (h : Announces announced r) (hseparator : Separator separator) (hcs : Written r ds cs) :
    radix (announced ++ separator ++ cs) = (r, cs) := by
  obtain ⟨d, -, c, later, -, rfl, hd, hc, -⟩ := hcs.moreDigits?_eq h.radix_le
  have hdrop : dropSeparator (separator ++ c :: later) = c :: later := by
    rcases hseparator with rfl | rfl
    · have hne := hc.ne_separator (Nat.lt_of_lt_of_le hd h.radix_le)
      unfold dropSeparator
      split
      · next heq => exact absurd (List.cons.inj heq).1 hne
      · rfl
    · rfl
  rw [List.append_assoc]
  cases h with
  | hexadecimal hx => rcases hx with rfl | rfl <;> exact congrArg (Prod.mk 16) hdrop
  | octal ho => rcases ho with rfl | rfl <;> exact congrArg (Prod.mk 8) hdrop
  | binary hb => rcases hb with rfl | rfl <;> exact congrArg (Prod.mk 2) hdrop
  | leadingZero =>
    refine Eq.trans ?_ (congrArg (Prod.mk 8) hdrop)
    rcases hseparator with rfl | rfl
    · exact radix_leadingZero (hc.not_mem_announcing hd) later
    · exact radix_leadingZero (by decide) (c :: later)

/-! ### Literals -/

theorem value?_eq_some_iff {text : List Char} {n : Nat} :
    value? text = some n ↔
      ∃ ds, digits? (radix text).1 (radix text).2 = some ds ∧ ofDigits (radix text).1 ds = n ∧
        n < 2 ^ 63 := by
  rw [value?, Option.filter_eq_some_iff, Option.map_eq_some_iff, decide_eq_true_iff, largest,
    ← Nat.lt_succ_iff]
  constructor
  · rintro ⟨⟨ds, hds, hn⟩, hlt⟩
    exact ⟨ds, hds, hn, hlt⟩
  · rintro ⟨ds, hds, hn, hlt⟩
    exact ⟨⟨ds, hds, hn⟩, hlt⟩

/-- What is read is a literal. -/
theorem literal_of_value? {text : List Char} {n : Nat} (h : value? text = some n) :
    Literal text n ∧ n < 2 ^ 63 := by
  obtain ⟨ds, hds, rfl, hlt⟩ := value?_eq_some_iff.1 h
  refine ⟨?_, hlt⟩
  rw [ofDigits_eq]
  rcases exists_announced text with
    ⟨announced, separator, hannounced, hseparator, htext⟩ | ⟨hradix, hzero⟩
  · rw [digits?_eq_some_iff hannounced.radix_le] at hds
    generalize radix text = r at *
    rw [htext]
    exact .announced hannounced hseparator hds
  · have hten : (10 : Nat) ≤ 16 := by decide
    rw [hradix] at hds ⊢
    rcases hzero with rfl | hzero
    · obtain rfl : [0] = ds := Option.some.inj hds
      exact .zero
    · exact .decimal ((digits?_eq_some_iff hten).1 hds) hzero

/-- Literals that are not too large are read. -/
theorem Literal.value?_eq {text : List Char} {n : Nat} (h : Literal text n) (hn : n < 2 ^ 63) :
    value? text = some n := by
  rw [value?_eq_some_iff]
  cases h with
  | announced hannounced hseparator hcs =>
    rw [radix_announced hannounced hseparator hcs]
    exact ⟨_, (digits?_eq_some_iff hannounced.radix_le).2 hcs, ofDigits_eq _ _, hn⟩
  | zero => exact ⟨[0], rfl, rfl, hn⟩
  | decimal hcs hzero =>
    have hten : (10 : Nat) ≤ 16 := by decide
    rw [radix_of_head? hzero]
    exact ⟨_, (digits?_eq_some_iff hten).2 hcs, ofDigits_eq _ _, hn⟩

/-! ### Writing literals -/

/-- A digit as it is written, small or capital. -/
def spellDigit (capital : Bool) (d : Nat) : Char :=
  if capital then (Nat.digitChar d).toUpper else Nat.digitChar d

/-- Digits as they are written, with a choice for each: whether it is a capital, and whether an
underscore follows.  No underscore follows the last one.  Where the choices end, all further digits
are small, and no underscores follow. -/
def spell : List Nat → List (Bool × Bool) → List Char
  | [], _ => []
  | [d], choices => [spellDigit (choices.headD (false, false)).1 d]
  | d :: e :: ds, choices =>
    let choice := choices.headD (false, false)
    let later := spell (e :: ds) choices.tail
    spellDigit choice.1 d :: if choice.2 then '_' :: later else later

example : spell [2, 10] [(false, true), (true, false)] = ['2', '_', 'A'] := by decide

theorem writtenDigit_spellDigit (capital : Bool) (d : Nat) :
    WrittenDigit d (spellDigit capital d) := by
  unfold spellDigit
  split
  · exact Or.inr rfl
  · exact Or.inl rfl

/-- Digits are written with any choices. -/
theorem written_spell {radix : Nat} (ds : List Nat) (choices : List (Bool × Bool)) :
    ds ≠ [] → (∀ d ∈ ds, d < radix) → Written radix ds (spell ds choices) := by
  fun_induction spell ds choices with
  | case1 => exact fun h => absurd rfl h
  | case2 d choices =>
    intro _ hds
    exact .last (hds d (by simp)) (writtenDigit_spellDigit _ _)
  | case3 d e ds choices choice later ih =>
    intro _ hds
    obtain ⟨hd, hds⟩ := List.forall_mem_cons.1 hds
    have hlater : Written radix (e :: ds) later := ih (by simp) hds
    split
    · exact .separated hd (writtenDigit_spellDigit _ _) hlater
    · exact .next hd (writtenDigit_spellDigit _ _) hlater

/-- Writing a number in decimal begins with no zero, unless the number is zero. -/
theorem head?_spell_ne {n : Nat} (hn : n ≠ 0) (choices : List (Bool × Bool)) :
    (spell (Nat.digits 10 n).reverse choices).head? ≠ some '0' := by
  have hne : Nat.digits 10 n ≠ [] := Nat.digits_ne_nil_iff_ne_zero.2 hn
  have hlast := Nat.getLast_digit_ne_zero 10 hn
  have hlt : (Nat.digits 10 n).getLast hne < 10 :=
    Nat.digits_lt_base (by decide) (List.getLast_mem hne)
  have hnozero : ∀ d < 10, d ≠ 0 → ∀ capital, spellDigit capital d ≠ '0' := by decide
  have hdigit := hnozero _ hlt hlast
  obtain ⟨first, ds, hds⟩ := List.exists_cons_of_ne_nil (List.reverse_ne_nil_iff.2 hne)
  obtain rfl : first = (Nat.digits 10 n).getLast hne := by
    rw [← List.head_reverse (List.reverse_ne_nil_iff.2 hne)]
    simp only [hds, List.head_cons]
  rw [hds]
  cases ds with
  | nil => simpa [spell] using hdigit _
  | cons d ds => simpa [spell] using hdigit _

/-- A number is written in an announced radix, with any number of zeros in front. -/
theorem literal_announced {announced separator : List Char} {radix zeros n : Nat}
    (hannounced : Announces announced radix) (hseparator : Separator separator)
    (hpos : 0 < zeros + n) (choices : List (Bool × Bool)) :
    Literal (announced ++ separator ++
      spell (List.replicate zeros 0 ++ (Nat.digits radix n).reverse) choices) n := by
  have hbase : 1 < radix := by cases hannounced <;> decide
  let ds := List.replicate zeros 0 ++ (Nat.digits radix n).reverse
  have hne : ds ≠ [] := by
    intro hnil
    obtain ⟨hzeros, hdigits⟩ := List.append_eq_nil_iff.1 hnil
    obtain rfl : zeros = 0 := List.replicate_eq_nil_iff 0 |>.1 hzeros
    obtain rfl : n = 0 := Nat.digits_eq_nil_iff_eq_zero.1 (List.reverse_eq_nil_iff.1 hdigits)
    exact absurd hpos (by decide)
  have hlt : ∀ d ∈ ds, d < radix := by
    intro d hd
    rcases List.mem_append.1 hd with hd | hd
    · rw [(List.mem_replicate.1 hd).2]
      omega
    · exact Nat.digits_lt_base hbase (List.mem_reverse.1 hd)
  -- the zeros in front are the last digits of the list that the library takes
  have hvalue : Nat.ofDigits radix ds.reverse = n := by
    rw [List.reverse_append, List.reverse_reverse, List.reverse_replicate,
      Nat.ofDigits_append_replicate_zero, Nat.ofDigits_digits]
  have hliteral := Literal.announced hannounced hseparator (written_spell ds choices hne hlt)
  rwa [hvalue] at hliteral

/-- A number other than zero is written in decimal. -/
theorem literal_decimal {n : Nat} (hn : n ≠ 0) (choices : List (Bool × Bool)) :
    Literal (spell (Nat.digits 10 n).reverse choices) n := by
  have hne : (Nat.digits 10 n).reverse ≠ [] :=
    List.reverse_ne_nil_iff.2 (Nat.digits_ne_nil_iff_ne_zero.2 hn)
  have hlt : ∀ d ∈ (Nat.digits 10 n).reverse, d < 10 :=
    fun d hd => Nat.digits_lt_base (by decide) (List.mem_reverse.1 hd)
  have hliteral := Literal.decimal (written_spell _ choices hne hlt) (head?_spell_ne hn choices)
  rwa [List.reverse_reverse, Nat.ofDigits_digits] at hliteral

/-- **Literals are accepted exactly as the grammar has it.**  A text is read as a number just if it
is a literal for that number, which has less than 64 bits.  So every such number is read back from
all ways to write it: after any beginning that announces a radix, perhaps with an underscore, with
any number of zeros in front, any capitals, and any underscores between digits; and in decimal. -/
theorem value?_eq_some_iff_literal (text : List Char) (n : Nat) :
    (value? text = some n ↔ Literal text n ∧ n < 2 ^ 63) ∧
    (n < 2 ^ 63 →
      (∀ announced separator radix zeros choices, Announces announced radix → Separator separator →
        0 < zeros + n →
        value? (announced ++ separator ++
          spell (List.replicate zeros 0 ++ (Nat.digits radix n).reverse) choices) = some n) ∧
      (∀ choices, n ≠ 0 → value? (spell (Nat.digits 10 n).reverse choices) = some n) ∧
      value? ['0'] = some 0) := by
  refine ⟨⟨literal_of_value?, fun h => h.1.value?_eq h.2⟩, fun hn => ⟨?_, ?_, ?_⟩⟩
  · intro announced separator radix zeros choices hannounced hseparator hpos
    exact (literal_announced hannounced hseparator hpos choices).value?_eq hn
  · exact fun choices hzero => (literal_decimal hzero choices).value?_eq hn
  · exact Literal.zero.value?_eq (by decide)

end Sapling.Numeral
