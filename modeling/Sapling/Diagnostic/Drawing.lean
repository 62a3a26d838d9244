import Sapling.Numeral

/-!
# Drawings

A drawing is text with styles switched on and off, possibly broken off by a failure.  What was drawn
before a failure stays.  A drawing can be shown with colours, as terminal escape sequences, or
without.

## Main definitions

* `Colour`, `Style` — colour and weight of text.
* `Piece`, `Drawing` — what is drawn, and why the drawing broke off.
* `Drawing.Failure.error?` — the error that is reported then.
* `Drawing.plain`, `Drawing.ansi` — the drawing as text.

## Main results

* `Drawing.append_assoc`, `Drawing.concat_flatMap` — drawings are put together in any grouping.
-/

namespace Sapling

/-- The colours that have names. -/
inductive NamedColour where
  /-- Black. -/
  | black
  /-- Red. -/
  | red
  /-- Green. -/
  | green
  /-- Yellow. -/
  | yellow
  /-- Blue. -/
  | blue
  /-- Magenta. -/
  | magenta
  /-- Cyan. -/
  | cyan
  /-- White. -/
  | white
  deriving DecidableEq, Repr, Inhabited

/-- The colours that text and what is behind it can have. -/
inductive Colour where
  /-- A colour with a name. -/
  | named (name : NamedColour)
  /-- One of the 256 colours of a terminal. -/
  | indexed (index : UInt8)
  /-- A mixture of red, green and blue. -/
  | mixed (red green blue : UInt8)
  deriving DecidableEq, Repr, Inhabited

/-- The look of text. -/
structure Style where
  /-- The colour of the text. -/
  colour : Option Colour := none
  /-- The colour behind the text. -/
  background : Option Colour := none
  /-- Whether it is bold. -/
  bold : Bool := false
  /-- Whether named colours are the intense ones. -/
  intense : Bool := false
  /-- Whether it is underlined. -/
  underlined : Bool := false
  /-- Whether it is dimmed. -/
  dimmed : Bool := false
  /-- Whether it is italic. -/
  italic : Bool := false
  /-- Whether it is struck through. -/
  struck : Bool := false
  /-- Whether what was on before is switched off. -/
  afresh : Bool := true
  deriving DecidableEq, Repr, Inhabited

/-- A step of drawing. -/
inductive Piece where
  /-- Text, in the style that is switched on. -/
  | text (s : String)
  /-- A style is switched on. -/
  | style (s : Style)
  /-- The ordinary style is switched on. -/
  | reset
  deriving DecidableEq, Repr, Inhabited

/-- Why a drawing breaks off. -/
inductive Drawing.Failure where
  /-- There is no source of the given index. -/
  | sourceMissing
  /-- An offset lies outside its source. -/
  | outOfBounds
  /-- An offset lies inside a character. -/
  | insideCharacter
  deriving DecidableEq, Repr, Inhabited

/-- The kinds of errors that a drawing can end with. -/
inductive Drawing.ErrorKind where
  /-- Something that is needed is not there. -/
  | notFound
  /-- What was asked for makes no sense. -/
  | invalidInput
  deriving DecidableEq, Repr, Inhabited

/-- The error that a failure is reported as, and its message.  A cut inside a character is not
reported: it ends the program. -/
def Drawing.Failure.error? : Drawing.Failure → Option (Drawing.ErrorKind × String)
  | sourceMissing => some (.notFound, "source missing")
  | outOfBounds => some (.invalidInput, "span out of bounds")
  | insideCharacter => none

/-- What is drawn. -/
structure Drawing where
  /-- The steps, in order. -/
  pieces : List Piece
  /-- Why it breaks off after them, if it does. -/
  failure : Option Drawing.Failure
  deriving DecidableEq, Repr, Inhabited

namespace Drawing

/-- The drawing of nothing. -/
def nothing : Drawing := ⟨[], none⟩

/-- Text in the ordinary style. -/
def text (s : String) : Drawing := ⟨[.text s], none⟩

/-- Text in a style, which is switched off again. -/
def styled (style : Style) (s : String) : Drawing := ⟨[.style style, .text s, .reset], none⟩

/-- A drawing that breaks off at once. -/
def fail (failure : Failure) : Drawing := ⟨[], some failure⟩

/-- One drawing and then another.  Nothing is drawn after a failure. -/
def append (d e : Drawing) : Drawing :=
  match d.failure with
  | none => ⟨d.pieces ++ e.pieces, e.failure⟩
  | some _ => d

instance : Append Drawing := ⟨append⟩

/-- Drawings one after the other. -/
def concat (ds : List Drawing) : Drawing := ds.foldr (· ++ ·) nothing

/-! ### Laws -/

theorem append_of_ok {d : Drawing} (h : d.failure = none) (e : Drawing) :
    d ++ e = ⟨d.pieces ++ e.pieces, e.failure⟩ := by
  change append d e = _
  rw [append, h]

theorem append_of_failure {d : Drawing} {f : Failure} (h : d.failure = some f) (e : Drawing) :
    d ++ e = d := by
  change append d e = _
  rw [append, h]

theorem append_assoc (a b c : Drawing) : a ++ b ++ c = a ++ (b ++ c) := by
  cases ha : a.failure with
  | none =>
    cases hb : b.failure with
    | none =>
      rw [append_of_ok ha, append_of_ok hb, append_of_ok ha,
        append_of_ok (d := ⟨a.pieces ++ b.pieces, b.failure⟩) hb, List.append_assoc]
    | some f =>
      rw [append_of_failure hb, append_of_ok ha,
        append_of_failure (d := ⟨a.pieces ++ b.pieces, b.failure⟩) hb]
  | some f => rw [append_of_failure ha, append_of_failure ha, append_of_failure ha]

theorem concat_cons (d : Drawing) (ds : List Drawing) : concat (d :: ds) = d ++ concat ds := rfl

theorem concat_append (ds es : List Drawing) : concat (ds ++ es) = concat ds ++ concat es := by
  induction ds with
  | nil => rfl
  | cons d ds ih => rw [List.cons_append, concat_cons, ih, concat_cons, append_assoc]

/-- Drawings that are themselves put together from some are put together from all of these. -/
theorem concat_flatMap {α : Type} (f : α → List Drawing) (as : List α) :
    concat (as.flatMap f) = concat (as.map fun a => concat (f a)) := by
  induction as with
  | nil => rfl
  | cons a as ih => rw [List.flatMap_cons, concat_append, ih, List.map_cons, concat_cons]

end Drawing

/-! ### Showing a drawing -/

/-- The number that a terminal knows a named colour by. -/
def NamedColour.number : NamedColour → Nat
  | black => 0
  | red => 1
  | green => 2
  | yellow => 3
  | blue => 4
  | magenta => 5
  | cyan => 6
  | white => 7

/-- What switches a colour on.  The ground is `3` for the text, and `4` for what is behind it.  The
named colours are the first eight of the 256 of a terminal, and the intense ones the next eight. -/
def Colour.code (ground : String) (intense : Bool) : Colour → String
  | named name =>
    if intense then ground ++ "8;5;" ++ Numeral.decimal (8 + name.number)
    else ground ++ Numeral.decimal name.number
  | indexed index => ground ++ "8;5;" ++ Numeral.decimal index.toNat
  | mixed r g b =>
    ground ++ "8;2;" ++ Numeral.decimal r.toNat ++ ";" ++ Numeral.decimal g.toNat ++ ";"
      ++ Numeral.decimal b.toNat

/-- What switches a style on, one thing after the other. -/
def Style.codes (s : Style) : List String :=
  (if s.afresh then ["0"] else [])
    ++ (if s.bold then ["1"] else [])
    ++ (if s.dimmed then ["2"] else [])
    ++ (if s.italic then ["3"] else [])
    ++ (if s.underlined then ["4"] else [])
    ++ (if s.struck then ["9"] else [])
    ++ (s.colour.map (Colour.code "3" s.intense)).toList
    ++ (s.background.map (Colour.code "4" s.intense)).toList

namespace Drawing

/-- The escape sequence with a number. -/
def escape (code : String) : String := "\x1b[" ++ code ++ "m"

/-- The escape sequences that switch a style on. -/
def switchOn (s : Style) : String := String.join (s.codes.map escape)

end Drawing

/-- A step of drawing without colours: only text shows. -/
def Piece.plain : Piece → String
  | text s => s
  | style _ => ""
  | reset => ""

/-- A step of drawing with colours. -/
def Piece.ansi : Piece → String
  | text s => s
  | style s => Drawing.switchOn s
  | reset => Drawing.escape "0"

namespace Drawing

/-- The drawing as text without colours. -/
def plain (d : Drawing) : String := String.join (d.pieces.map Piece.plain)

/-- The drawing as text with escape sequences for colours. -/
def ansi (d : Drawing) : String := String.join (d.pieces.map Piece.ansi)

/-- The drawing as text, with colours or without. -/
def toText (colours : Bool) (d : Drawing) : String := if colours then d.ansi else d.plain

end Drawing

end Sapling
