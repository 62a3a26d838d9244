import Sapling.Text.Width.Classes

/-!
# Display width

The number of columns that a text takes on a screen.  Most characters take one or two columns, marks
and invisible characters none; but some sequences are shown as one sign, such as an emoji with its
skin tone or two emoji joined to one.  The width is found by reading the text from its end, so that
each character is met when it is known what follows it.

## Main definitions

* `charWidth` — the columns of a character by itself.
* `Following`, `Context` — what stands after a character, as far as it matters for its width.
* `plainStep`, `widthStep` — the columns that a character adds in front of a context, and the new
  context.
* `displayWidth` — the columns of a text.
-/

namespace Sapling.Text

/-! ### Single characters -/

/-- The joiner, an invisible character that joins its neighbours to one sign. -/
def joiner : Char := '\u200d'

/-- The columns that a character takes by itself.  Control characters are shown in one column. -/
def charWidth (c : Char) : Nat :=
  if c.toNat ≤ 0xA0 then 1
  else if c = '\u17d8' then 3
  else if inRanges wideRanges c then 2
  else if inRanges zeroWidthRanges c then 0
  else 1

/-- A letter that may be written as one with the letters before it. -/
inductive Ligature where
  /-- Arabic alef, which joins with a lam. -/
  | alef
  /-- Hebrew lamed, which joins with an alef. -/
  | lamed
  /-- Buginese ya. -/
  | ya
  /-- Buginese ya with the vowel sign that is joined to it. -/
  | vowelYa
  /-- A Tifinagh consonant. -/
  | consonant
  /-- A Tifinagh consonant with the joining sign before it. -/
  | joinedConsonant
  /-- A Lisu tone letter that combines with one of another series. -/
  | tone
  /-- The Old Turkic letter i. -/
  | orkhon
  /-- A Khmer letter that can be written below another. -/
  | subscript
  deriving DecidableEq, Repr, Inhabited

/-- What stands after a place in a text, as far as it matters for the width of what stands before.
-/
inductive Following where
  /-- Nothing that matters. -/
  | plain
  /-- A line feed. -/
  | lineFeed
  /-- A skin tone. -/
  | skinTone
  /-- One regional indicator. -/
  | regional
  /-- Several regional indicators. -/
  | regionals
  /-- An emoji. -/
  | emoji
  /-- A joiner and an emoji. -/
  | joinedEmoji
  /-- A key cap, a joiner and an emoji. -/
  | joinedKeycap
  /-- One regional indicator, a joiner and an emoji. -/
  | joinedRegional
  /-- An even number of regional indicators, a joiner and an emoji. -/
  | joinedEven
  /-- An odd number, from three on, of regional indicators, a joiner and an emoji. -/
  | joinedOdd
  /-- The end of a regional flag, with so many tag letters and, before them, tag digits; then a
  joiner and an emoji. -/
  | joinedFlag (letters digits : Nat)
  /-- A letter that may be written as one with what is before it; `joined` if a joiner asks for it.
  -/
  | ligature (l : Ligature) (joined : Bool)
  deriving DecidableEq, Repr, Inhabited

/-- How a variation selector asks for a character to be shown. -/
inductive Selector where
  /-- As text. -/
  | text
  /-- As an emoji. -/
  | emoji
  deriving DecidableEq, Repr, Inhabited

/-- What stands after a place in a text: perhaps a variation selector, and then what follows. -/
structure Context where
  /-- What stands after the selector. -/
  following : Following
  /-- The selector. -/
  selector : Option Selector
  deriving DecidableEq, Repr, Inhabited

/-- The context that a character makes by itself. -/
def Following.ofChar (c : Char) : Following :=
  let n := c.toNat
  if 0x1F3FB ≤ n && n ≤ 0x1F3FF then skinTone
  else if 0x1F1E6 ≤ n && n ≤ 0x1F1FF then regional
  else if inRanges emojiRanges c then emoji
  else if inRanges [(0x622, 0x623), (0x625, 0x625), (0x627, 0x627), (0x671, 0x673), (0x675, 0x675),
      (0x773, 0x774), (0x870, 0x882)] c then ligature .alef false
  else if c = '\u05dc' then ligature .lamed false
  else if c = '\u1a10' then ligature .ya false
  else if inRanges [(0x2D31, 0x2D65), (0x2D6F, 0x2D6F)] c then ligature .consonant false
  else if inRanges [(0xA4FC, 0xA4FD)] c then ligature .tone false
  else if n = 0x10C03 then ligature .orkhon false
  else if inRanges [(0x1780, 0x1782), (0x1784, 0x1787), (0x1789, 0x178C), (0x178E, 0x1793),
      (0x1795, 0x1798), (0x179B, 0x179D), (0x17A0, 0x17A0), (0x17A2, 0x17A2), (0x17A7, 0x17A7),
      (0x17AB, 0x17AC), (0x17AF, 0x17AF)] c then ligature .subscript false
  else plain

/-! ### Sequences -/

/-- The columns that a character adds in front of a letter that joins it to one sign. -/
def ligate? (l : Ligature) (joined : Bool) (c : Char) : Option (Int × Following) :=
  if l = .alef then
    if inRanges [(0x644, 0x644), (0x6B5, 0x6B8), (0x76A, 0x76A), (0x8A6, 0x8A6), (0x8C7, 0x8C7)] c
    then some (0, .plain)
    else if c.toNat ≠ 0x200C && c ≠ joiner && inRanges zeroWidthRanges c
    then some (0, .ligature .alef false)
    else none
  else if c = joiner then some (0, .ligature l true)
  else if inRanges [(0x34F, 0x34F), (0x17B4, 0x17B5), (0x180B, 0x180D), (0x180F, 0x180F),
      (0xFE00, 0xFE0F), (0xE0100, 0xE01EF)] c then some (0, .ligature l joined)
  else
    let n := c.toNat
    match l, joined with
    | .lamed, true => if n = 0x5D0 then some (0, .plain) else none
    | .ya, true => if n = 0x1A17 then some (0, .ligature .vowelYa false) else none
    | .vowelYa, _ => if n = 0x1A15 then some (0, .plain) else none
    | .consonant, joined =>
      if n = 0x2D7F then some (1, .ligature .joinedConsonant false)
      else if joined && inRanges [(0x2D31, 0x2D65), (0x2D6F, 0x2D6F)] c then some (0, .plain)
      else none
    | .joinedConsonant, false =>
      if inRanges [(0x2D31, 0x2D65), (0x2D6F, 0x2D6F)] c then some (-1, .plain) else none
    | .tone, _ => if 0xA4F8 ≤ n && n ≤ 0xA4FB then some (0, .plain) else none
    | .orkhon, true => if n = 0x10C32 then some (0, .plain) else none
    | .subscript, _ => if n = 0x17D2 then some (-1, .plain) else none
    | _, _ => none

/-- The columns that a character adds in front of what it forms one sign with. -/
def combine? (f : Following) (c : Char) : Option (Int × Following) :=
  let n := c.toNat
  let isRegional := 0x1F1E6 ≤ n && n ≤ 0x1F1FF
  match f with
  | .plain | .lineFeed => none
  | .ligature l joined => ligate? l joined c
  | .skinTone =>
    if inRanges tonedEmojiRanges c then some (0, .emoji)
    else if c = joiner then some (0, .joinedEmoji)
    else none
  | .regional => if isRegional then some (1, .regionals) else none
  | .regionals =>
    if isRegional then some (1, .regionals)
    else if c = joiner then some (0, .joinedEmoji)
    else none
  | .emoji => if c = joiner then some (0, .joinedEmoji) else none
  | .joinedEmoji =>
    if n = 0x20E3 then some (0, .joinedKeycap)
    else if isRegional then some (1, .joinedRegional)
    else if 0x1F3FB ≤ n && n ≤ 0x1F3FF then some (0, .skinTone)
    else if n = 0xE007F then some (0, .joinedFlag 0 0)
    else if inRanges emojiRanges c then some (0, .emoji)
    else none
  | .joinedKeycap => none
  | .joinedRegional => if isRegional then some (-1, .joinedEven) else none
  | .joinedEven =>
    if isRegional then some (3, .joinedOdd)
    else if c = joiner then some (0, .joinedEmoji)
    else none
  | .joinedOdd =>
    if isRegional then some (-1, .joinedEven)
    else if c = joiner then some (0, .joinedEmoji)
    else none
  | .joinedFlag letters digits =>
    if 0xE0061 ≤ n && n ≤ 0xE007A && digits = 0 && letters < 6 then
      some (0, .joinedFlag (letters + 1) 0)
    else if 0xE0030 ≤ n && n ≤ 0xE0039 && (if digits = 0 then letters ≤ 4 else digits < 3) then
      some (0, .joinedFlag letters (digits + 1))
    else if n = 0x1F3F4 && (digits = 3 || (digits = 0 && 3 ≤ letters)) then some (0, .emoji)
    else none

/-- What remains of what follows when a variation selector is put before it.  A joined emoji is
still in reach of an emoji selector, and a ligature of both. -/
def Following.select (f : Following) (s : Selector) : Following :=
  match f with
  | .ligature l joined => .ligature l joined
  | .joinedEmoji => if s = .emoji then .joinedEmoji else .plain
  | .joinedKeycap => if s = .emoji then .joinedKeycap else .plain
  | _ => .plain

/-- What remains of a context whose selector did not apply. -/
def Context.dropSelector (ctx : Context) : Following :=
  match ctx.selector, ctx.following with
  | none, f => f
  | some _, .ligature l joined => .ligature l joined
  | some _, _ => .plain

/-- The columns that a character adds where no emoji selector applies to it. -/
def plainStep (c : Char) (ctx : Context) : Int × Context :=
  if c.toNat ≤ 0xA0 then
    if c = '\n' then (1, ⟨.lineFeed, none⟩)
    else if c = '\r' ∧ ctx = ⟨.lineFeed, none⟩ then (0, ⟨.plain, none⟩)
    else (1, ⟨.plain, none⟩)
  else if c = '\ufe0f' then (0, ⟨ctx.following.select .emoji, some .emoji⟩)
  else if c = '\ufe0e' then (0, ⟨ctx.following.select .text, some .text⟩)
  else if ctx.selector = some .text ∧ inRanges textSelectableRanges c then (1, ⟨.plain, none⟩)
  else
    match combine? ctx.dropSelector c with
    | some (columns, f) => (columns, ⟨f, none⟩)
    | none => (charWidth c, ⟨.ofChar c, none⟩)

/-- The columns that a character adds in front of a context, and the context that it makes with it.
-/
def widthStep (c : Char) (ctx : Context) : Int × Context :=
  if ctx.selector = some .emoji then
    if inRanges emojiSelectableRanges c then
      -- an emoji that is joined to the next one is part of its sign
      (if ctx.following = .joinedEmoji ∨ ctx.following = .joinedKeycap then 0 else 2, ⟨.emoji, none⟩)
    else plainStep c ⟨ctx.dropSelector, none⟩
  else plainStep c ctx

/-- The columns of a text, and the context that it makes. -/
def widthFrom : List Char → Int × Context
  | [] => (0, ⟨.plain, none⟩)
  | c :: cs =>
    let rest := widthFrom cs
    let step := widthStep c rest.2
    (step.1 + rest.1, step.2)

/-- The number of columns that a text takes on a screen. -/
def displayWidth (text : List Char) : Nat := (widthFrom text).1.toNat

end Sapling.Text
