import Sapling.Proofs.Numerals
import Sapling.Proofs.Rendering

/-!
# Drawings with and without colours

A drawing is shown with colours by escape sequences between its texts.  If no text has an escape
character in it, the sequences can be told from the texts, and without them the drawing reads as it
does without colours.  Every style that the renderer switches on is switched off again before it can
break off, so whatever comes after a drawing has the ordinary style.

## Main definitions

* `withoutEscapes` — a text without its escape sequences.
* `Drawing.outcome` — how a drawing comes out, with colours or without.
* `Drawing.Tidy p d` — the characters in the texts of a drawing have a property, and its last step
  that is not text, if there is one, switches the ordinary style on.
* `Render.Written p` — the characters that a diagnostic is drawn from have a property.

## Main results

* `withoutEscapes_pieces` — any steps of drawing read the same with colours as without.
* `Drawing.Tidy.append`, `Drawing.Tidy.concat` — drawings one after the other are tidy if each is.
* `Render.tidy_render` — drawings of diagnostics are tidy.
* `render_with_colours` — the drawing of a diagnostic with colours and without.
-/

namespace Sapling

/-! ### Characters of texts -/

/-- All characters of a text have a property. -/
def AllOf (p : Char → Prop) (s : String) : Prop := ∀ c ∈ s.toList, p c

section AllOf

variable {p : Char → Prop}

instance [DecidablePred p] (s : String) : Decidable (AllOf p s) :=
  decidable_of_decidable_of_iff (p := s.toList.all (p ·) = true) (by simp [AllOf])

@[simp] theorem allOf_append {s t : String} : AllOf p (s ++ t) ↔ AllOf p s ∧ AllOf p t := by
  simp only [AllOf, String.toList_append, List.mem_append, or_imp, forall_and]

theorem allOf_ofList {cs : List Char} : AllOf p (String.ofList cs) ↔ ∀ c ∈ cs, p c := by
  rw [AllOf, String.toList_ofList]

theorem allOf_join {ss : List String} : AllOf p (String.join ss) ↔ ∀ s ∈ ss, AllOf p s := by
  simp only [AllOf, String.toList_join, List.mem_flatMap]
  exact ⟨fun h s hs c hc => h c ⟨s, hs, hc⟩, fun h c ⟨s, hs, hc⟩ => h s hs c hc⟩

theorem allOf_decimal (h : ∀ c : Char, c.isDigit → p c) (n : Nat) : AllOf p (Numeral.decimal n) :=
  allOf_ofList.2 fun c hc => h c (Numeral.isDigit_of_mem_toDigits c hc)

theorem AllOf.imp {q : Char → Prop} {s : String} (hs : AllOf p s) (h : ∀ c, p c → q c) :
    AllOf q s :=
  fun c hc => h c (hs c hc)

end AllOf

/-! ### Escape sequences -/

/-- The character that escape sequences begin with. -/
def escapeCharacter : Char := '\x1b'

/-- A text without its escape sequences, each of which goes on up to the next `m`; `inside` says
whether one is open. -/
def dropEscapes (inside : Bool) : List Char → List Char
  | [] => []
  | c :: rest =>
    if inside then dropEscapes (c ≠ 'm') rest
    else if c = escapeCharacter then dropEscapes true rest
    else c :: dropEscapes false rest

/-- A text without its escape sequences. -/
def withoutEscapes (s : String) : String := String.ofList (dropEscapes false s.toList)

/-- What has no escape character stays. -/
theorem dropEscapes_append {text : List Char} (h : ∀ c ∈ text, c ≠ escapeCharacter)
    (rest : List Char) : dropEscapes false (text ++ rest) = text ++ dropEscapes false rest := by
  induction text with
  | nil => rfl
  | cons c text ih =>
    obtain ⟨hc, htext⟩ := List.forall_mem_cons.1 h
    rw [List.cons_append, dropEscapes, if_neg (by decide), if_neg hc, ih htext, List.cons_append]

/-- An open escape sequence goes on up to the next `m`. -/
theorem dropEscapes_inside {code : List Char} (h : ∀ c ∈ code, c ≠ 'm') (rest : List Char) :
    dropEscapes true (code ++ 'm' :: rest) = dropEscapes false rest := by
  induction code with
  | nil => rfl
  | cons c code ih =>
    obtain ⟨hc, hcode⟩ := List.forall_mem_cons.1 h
    rw [List.cons_append, dropEscapes, if_pos rfl, decide_eq_true hc, ih hcode]

/-- The characters between the beginning of an escape sequence and its end. -/
def IsCodeCharacter (c : Char) : Prop := c.isDigit ∨ c = ';'

instance : DecidablePred IsCodeCharacter :=
  fun c => inferInstanceAs (Decidable (c.isDigit ∨ c = ';'))

theorem IsCodeCharacter.ne_end {c : Char} (h : IsCodeCharacter c) : c ≠ 'm' := by
  rintro rfl
  rcases h with h | h
  · exact absurd h (by decide)
  · exact absurd h (by decide)

theorem dropEscapes_escape {code : String} (h : AllOf IsCodeCharacter code) (rest : List Char) :
    dropEscapes false ((Drawing.escape code).toList ++ rest) = dropEscapes false rest := by
  have hescape : (Drawing.escape code).toList ++ rest
      = escapeCharacter :: '[' :: (code.toList ++ 'm' :: rest) := by
    simp [Drawing.escape, escapeCharacter]
  rw [hescape, dropEscapes, if_neg (by decide), if_pos rfl, dropEscapes, if_pos rfl]
  exact dropEscapes_inside (fun c hc => (h c hc).ne_end) rest

/-! ### Styles -/

theorem allOf_code {ground : String} (h : AllOf IsCodeCharacter ground) (intense : Bool)
    (c : Colour) : AllOf IsCodeCharacter (c.code ground intense) := by
  have hnumber (n : Nat) : AllOf IsCodeCharacter (Numeral.decimal n) :=
    allOf_decimal (fun _ => Or.inl) n
  have hpalette : AllOf IsCodeCharacter "8;5;" := by decide
  have hmixture : AllOf IsCodeCharacter "8;2;" := by decide
  have hbetween : AllOf IsCodeCharacter ";" := by decide
  cases c with
  | named name =>
    simp only [Colour.code]
    split
    · simp [h, hnumber, hpalette]
    · simp [h, hnumber]
  | indexed index => simp [Colour.code, h, hnumber, hpalette]
  | mixed r g b => simp [Colour.code, h, hnumber, hmixture, hbetween]

/-- **Styles are switched on by numbers alone.** -/
theorem allOf_codes (s : Style) : ∀ code ∈ s.codes, AllOf IsCodeCharacter code := by
  have hflag (b : Bool) {code : String} (h : AllOf IsCodeCharacter code) :
      ∀ code' ∈ if b then [code] else [], AllOf IsCodeCharacter code' := by
    intro code' hcode'
    split at hcode'
    · rwa [List.mem_singleton.1 hcode']
    · cases hcode'
  have hcolour (ground : String) (h : AllOf IsCodeCharacter ground) (c : Option Colour) :
      ∀ code ∈ (c.map (Colour.code ground s.intense)).toList, AllOf IsCodeCharacter code := by
    intro code hcode
    obtain ⟨colour, -, rfl⟩ := Option.map_eq_some_iff.1 (Option.mem_toList.1 hcode)
    exact allOf_code h s.intense colour
  simp only [Style.codes, List.forall_mem_append]
  exact ⟨⟨⟨⟨⟨⟨⟨hflag _ (by decide), hflag _ (by decide)⟩, hflag _ (by decide)⟩,
    hflag _ (by decide)⟩, hflag _ (by decide)⟩, hflag _ (by decide)⟩,
    hcolour "3" (by decide) s.colour⟩, hcolour "4" (by decide) s.background⟩

theorem dropEscapes_switchOn (s : Style) (rest : List Char) :
    dropEscapes false ((Drawing.switchOn s).toList ++ rest) = dropEscapes false rest := by
  have hcodes := allOf_codes s
  unfold Drawing.switchOn
  generalize s.codes = codes at hcodes ⊢
  induction codes with
  | nil => rfl
  | cons code codes ih =>
    obtain ⟨hcode, hcodes⟩ := List.forall_mem_cons.1 hcodes
    rw [List.map_cons, String.join_cons, String.toList_append, List.append_assoc,
      dropEscapes_escape hcode, ih hcodes]

/-- A step of drawing with colours reads as the step without them. -/
theorem dropEscapes_ansi {step : Piece} (h : ∀ s, step = .text s → AllOf (· ≠ escapeCharacter) s)
    (rest : List Char) :
    dropEscapes false (step.ansi.toList ++ rest) = step.plain.toList ++ dropEscapes false rest := by
  cases step with
  | text s => exact dropEscapes_append (h s rfl) rest
  | style s => exact dropEscapes_switchOn s rest
  | reset => exact dropEscapes_escape (by decide) rest

/-- **Any steps of drawing read the same with colours as without**, if their texts have no escape
characters. -/
theorem withoutEscapes_pieces {steps : List Piece}
    (h : ∀ s, .text s ∈ steps → AllOf (· ≠ escapeCharacter) s) :
    withoutEscapes (String.join (steps.map Piece.ansi)) = String.join (steps.map Piece.plain) := by
  refine String.toList_inj.1 ?_
  rw [withoutEscapes, String.toList_ofList]
  induction steps with
  | nil => rfl
  | cons step steps ih =>
    have hstep : ∀ s, step = .text s → AllOf (· ≠ escapeCharacter) s :=
      fun s hs => h s (hs ▸ List.mem_cons_self)
    rw [List.map_cons, String.join_cons, String.toList_append, dropEscapes_ansi hstep,
      ih fun s hs => h s (List.mem_cons_of_mem _ hs), List.map_cons, String.join_cons,
      String.toList_append]

/-! ### Tidy drawings -/

/-- How a drawing comes out, with colours or without: its text, and why it breaks off after that. -/
def Drawing.outcome (colours : Bool) (d : Drawing) : String × Option Drawing.Failure :=
  (d.toText colours, d.failure)

/-- Whether a step switches a style on, be it the ordinary one. -/
def Piece.isSwitch : Piece → Bool
  | text _ => false
  | style _ => true
  | reset => true

namespace Drawing

/-- The characters in the texts of a drawing have a property, and the last step that switches a
style on, if there is one, switches the ordinary style on. -/
structure Tidy (p : Char → Prop) (d : Drawing) : Prop where
  /-- The texts have the property. -/
  texts : ∀ s, .text s ∈ d.pieces → AllOf p s
  /-- The last style is the ordinary one. -/
  settled : ∀ step ∈ (d.pieces.filter Piece.isSwitch).getLast?, step = .reset

namespace Tidy

variable {p : Char → Prop} {d e : Drawing}

theorem nothing : Drawing.nothing.Tidy p := ⟨by simp [Drawing.nothing], by simp [Drawing.nothing]⟩

theorem fail (failure : Failure) : (Drawing.fail failure).Tidy p :=
  ⟨by simp [Drawing.fail], by simp [Drawing.fail]⟩

theorem text {s : String} (h : AllOf p s) : (Drawing.text s).Tidy p :=
  ⟨by simpa [Drawing.text] using h, by simp [Drawing.text, Piece.isSwitch]⟩

theorem styled (style : Style) {s : String} (h : AllOf p s) : (Drawing.styled style s).Tidy p :=
  ⟨by simpa [Drawing.styled] using h, by simp [Drawing.styled, Piece.isSwitch]⟩

/-- **Tidy drawings one after the other** are tidy, even if the first one breaks off. -/
theorem append (hd : d.Tidy p) (he : e.Tidy p) : (d ++ e).Tidy p := by
  cases hfailure : d.failure with
  | some failure => rwa [append_of_failure hfailure]
  | none =>
    rw [append_of_ok hfailure]
    constructor
    · intro s hs
      rcases List.mem_append.1 hs with hs | hs
      · exact hd.texts s hs
      · exact he.texts s hs
    · intro step hstep
      -- the last switch is one of the second drawing, unless there is none in it
      rw [List.filter_append, List.getLast?_append] at hstep
      rcases Option.or_eq_some_iff.1 hstep with hlast | ⟨-, hlast⟩
      · exact he.settled step hlast
      · exact hd.settled step hlast

theorem concat {ds : List Drawing} (h : ∀ d ∈ ds, d.Tidy p) : (Drawing.concat ds).Tidy p := by
  induction ds with
  | nil => exact nothing
  | cons d ds ih =>
    obtain ⟨hd, hds⟩ := List.forall_mem_cons.1 h
    exact hd.append (ih hds)

theorem concat_map {α : Type} {f : α → Drawing} {as : List α} (h : ∀ a ∈ as, (f a).Tidy p) :
    (Drawing.concat (as.map f)).Tidy p :=
  concat (by simpa using h)

end Tidy

end Drawing

/-! ### What diagnostics are drawn from -/

/-- The characters in the texts of a configuration have a property. -/
structure Config.Written (p : Char → Prop) (config : Config) : Prop where
  /-- Those between line numbers and lines. -/
  gutter : AllOf p config.gutter
  /-- Those before notes. -/
  note : AllOf p config.note
  /-- Those of underlines. -/
  underline : AllOf p config.underline
  /-- Those after underlines. -/
  underlineAfter : AllOf p config.underlineAfter

/-- The characters in a source, in its name and in its path have a property. -/
structure Source.Written (p : Char → Prop) (source : Source) : Prop where
  /-- Those of the name. -/
  name : AllOf p source.name
  /-- Those of the path. -/
  path : ∀ path ∈ source.path, AllOf p path
  /-- Those of the text. -/
  text : AllOf p source.text

/-- The characters in the texts of a diagnostic have a property. -/
structure Diagnostic.Written (p : Char → Prop) (d : Diagnostic) : Prop where
  /-- Those of the message. -/
  message : ∀ message ∈ d.message, AllOf p message
  /-- Those of the labels. -/
  labels : ∀ s ∈ d.snippets, AllOf p s.label
  /-- Those of the notes. -/
  notes : ∀ note ∈ d.notes, AllOf p note

namespace Render

open Text

/-- The characters that a diagnostic is drawn from have a property. -/
structure Written (p : Char → Prop) (config : Config) (sources : List Source) (d : Diagnostic) :
    Prop where
  /-- Those of the configuration. -/
  config : config.Written p
  /-- Those of the sources. -/
  sources : ∀ source ∈ sources, source.Written p
  /-- Those of the diagnostic. -/
  diagnostic : d.Written p

theorem Written.any (config : Config) (sources : List Source) (d : Diagnostic) :
    Written (fun _ => True) config sources d where
  config := ⟨fun _ _ => trivial, fun _ _ => trivial, fun _ _ => trivial, fun _ _ => trivial⟩
  sources := fun _ _ => ⟨fun _ _ => trivial, fun _ _ _ _ => trivial, fun _ _ => trivial⟩
  diagnostic := ⟨fun _ _ _ _ => trivial, fun _ _ _ _ => trivial, fun _ _ _ _ => trivial⟩

/-- What a mark is drawn from: its label, and its source. -/
structure Mark.Written (p : Char → Prop) (m : Mark) : Prop where
  /-- The label. -/
  label : AllOf p m.snippet.label
  /-- The source. -/
  source : m.source.Written p

/-- Marks are of the snippets, and in the sources. -/
theorem mem_of_marks {sources : List Source} {snippets : List Snippet} {marks : List Mark}
    (h : marks? sources snippets = .ok marks) :
    ∀ m ∈ marks, m.snippet ∈ snippets ∧ m.source ∈ sources := by
  obtain ⟨rfl, hplaces⟩ := marks_eq_ok h
  intro m hm
  obtain ⟨-, hsource, -⟩ := mark_eq_ok (hplaces m hm)
  exact ⟨List.mem_map_of_mem hm, List.mem_of_getElem? hsource⟩

/-! ### Drawings of diagnostics are tidy -/

section Tidy

variable {p : Char → Prop} (hown : ∀ c, c ≠ escapeCharacter → p c) {config : Config}
  (hconfig : config.Written p) {severity : Severity} {m : Mark} {marks : List Mark}
  {sources : List Source} {d : Diagnostic}
include hown

/-- What the renderer writes of its own has no escape character. -/
theorem allOf_own {s : String} (h : AllOf (· ≠ escapeCharacter) s) : AllOf p s := h.imp hown

theorem allOf_number (n : Nat) : AllOf p (Numeral.decimal n) := by
  refine allOf_own hown (allOf_decimal ?_ n)
  rintro c hc rfl
  exact absurd hc (by decide)

theorem allOf_blanks (n : Nat) : AllOf p (blanks n) := by
  refine allOf_own hown (allOf_ofList.2 ?_)
  intro c hc
  rw [List.eq_of_mem_replicate hc]
  decide

theorem allOf_expandTabs {text : List Char} (h : ∀ c ∈ text, p c) :
    AllOf p (String.ofList (expandTabs text)) := by
  refine allOf_ofList.2 ?_
  intro c hc
  obtain ⟨b, hb, hc⟩ := List.mem_flatMap.1 hc
  split at hc
  · refine hown c ?_
    rintro rfl
    exact absurd hc (by decide)
  · rw [List.mem_singleton.1 hc]
    exact h b hb

theorem allOf_place {name : String} (h : AllOf p name) (position : Nat × Nat) :
    AllOf p (place name position) := by
  have hcolon : AllOf p ":" := allOf_own hown (by decide)
  simp [place, h, hcolon, allOf_number hown]

include hconfig

theorem tidy_gutter (width : Nat) (number : Option Nat) : (gutter config width number).Tidy p := by
  have hdigits : AllOf p (number.elim "" Numeral.decimal) := by
    cases number with
    | none => exact allOf_own hown (by decide)
    | some n => exact allOf_number hown n
  have hspace : AllOf p " " := allOf_own hown (by decide)
  refine .styled _ ?_
  simp [allOf_blanks hown, hdigits, hspace, hconfig.gutter]

theorem tidy_underline (hm : m.Written p) (line : Line) :
    (underline config severity line m).Tidy p := by
  have hend : AllOf p "\n" := allOf_own hown (by decide)
  have hsigns (n : Nat) : AllOf p (String.join (List.replicate n config.underline)) := by
    refine allOf_join.2 ?_
    intro s hs
    rw [List.eq_of_mem_replicate hs]
    exact hconfig.underline
  unfold underline
  simp only
  split
  · refine .styled _ ?_
    simp [allOf_blanks hown, hsigns, hconfig.underlineAfter, hm.label, hend]
  · exact .fail _

/-- Rows are tidy, even one that breaks off at an underline. -/
theorem tidy_row (hmarks : ∀ m ∈ marks, m.Written p) {lines : List Line}
    (hlines : ∀ line ∈ lines, ∀ c ∈ line.content, p c) (width index : Nat) :
    (row config severity width lines marks index).Tidy p := by
  have hend : AllOf p "\n" := allOf_own hown (by decide)
  unfold row
  refine .append (tidy_gutter hown hconfig _ _) ?_
  split
  · exact .fail _
  · next line hline =>
    have hcontent := allOf_expandTabs hown (hlines line (List.mem_of_getElem? hline))
    refine .append (.text (allOf_append.2 ⟨hcontent, hend⟩)) (.concat_map ?_)
    intro m hm
    have hwritten := hmarks m (List.mem_filter.1 hm).1
    exact .append (tidy_gutter hown hconfig _ _) (tidy_underline hown hconfig hwritten line)

omit hconfig in
theorem tidy_blockHead (hm : m.Written p) : (blockHead config m).Tidy p := by
  have hin : AllOf p "In " := allOf_own hown (by decide)
  have hopen : AllOf p " (" := allOf_own hown (by decide)
  have hclose : AllOf p ")" := allOf_own hown (by decide)
  have hend : AllOf p "\n" := allOf_own hown (by decide)
  unfold blockHead
  split
  · exact .fail _
  · next position _ =>
    have hname := allOf_place hown hm.source.name position
    refine .styled _ ?_
    cases hpath : m.source.path with
    | none => simp [hin, hname, hend]
    | some path =>
      have hplace := allOf_place hown (hm.source.path path hpath) position
      simp [hin, hname, hopen, hplace, hclose, hend]

theorem tidy_block {cluster : Cluster Mark} (hmarks : ∀ m ∈ cluster.items, m.Written p) :
    (block config severity cluster).Tidy p := by
  unfold block blockShowing
  split
  · exact .nothing
  · next first later hitems =>
    have hfirst : first.Written p := hmarks first (by simp [hitems])
    have hlines : ∀ line ∈ first.source.lines, ∀ c ∈ line.content, p c :=
      fun line hline c hc => hfirst.source.text c (mem_of_mem_content hline c hc)
    exact .append (tidy_blockHead hown hfirst)
      (.concat_map fun i _ => tidy_row hown hconfig hmarks hlines _ i)

theorem tidy_blocks (hmarks : ∀ m ∈ marks, m.Written p) :
    (blocks config severity marks).Tidy p := by
  refine .concat_map fun group hgroup => .concat_map fun cluster hcluster => ?_
  refine tidy_block hown hconfig fun m hm => ?_
  obtain ⟨i, -, rfl⟩ := List.mem_map.1 hgroup
  have hmem := (Cluster.mem_gather Mark.range _ m).1 ⟨cluster, hcluster, hm⟩
  exact hmarks m (List.mem_filter.1 hmem).1

theorem tidy_note {text : String} (h : AllOf p text) : (note config text).Tidy p := by
  have hsign : AllOf p " note:" := allOf_own hown (by decide)
  have hspace : AllOf p " " := allOf_own hown (by decide)
  have hend : AllOf p "\n" := allOf_own hown (by decide)
  refine .append (.styled _ ?_) (.text ?_)
  · simp [hconfig.note, hsign]
  · simp [hspace, h, hend]

omit hconfig in
theorem tidy_header (h : d.Written p) : (header config d).Tidy p := by
  have hspace : AllOf p " " := allOf_own hown (by decide)
  have hcolon : AllOf p ":" := allOf_own hown (by decide)
  have hend : AllOf p "\n" := allOf_own hown (by decide)
  have hname : AllOf p d.severity.name := allOf_own hown (by cases d.severity <;> decide)
  refine .append (.styled _ ?_) (.text ?_)
  · simp [hname, hcolon]
  · cases hmessage : d.message with
    | none => simpa using hend
    | some message => simp [hspace, h.message message hmessage, hend]

omit hconfig in
/-- **Drawings of diagnostics are tidy**, whether they break off or not. -/
theorem tidy_render (h : Written p config sources d) : (d.render config sources).Tidy p := by
  unfold Diagnostic.render Diagnostic.renderBy
  refine .append (tidy_header hown h.diagnostic) ?_
  split
  · exact .fail _
  · next marks hmarks =>
    have hwritten : ∀ m ∈ marks, m.Written p := by
      intro m hm
      obtain ⟨hsnippet, hsource⟩ := mem_of_marks hmarks m hm
      exact ⟨h.diagnostic.labels _ hsnippet, h.sources _ hsource⟩
    have hnotes : (Drawing.concat (d.notes.map (note config))).Tidy p :=
      .concat_map fun text htext => tidy_note hown h.config (h.diagnostic.notes text htext)
    exact ((tidy_blocks hown h.config hwritten).append hnotes).append
      (.text (allOf_own hown (by decide)))

end Tidy

/-- The head of a diagnostic switches styles, so something does in each drawing. -/
theorem exists_switch_render (config : Config) (sources : List Source) (d : Diagnostic) :
    ∃ step ∈ (d.render config sources).pieces, step.isSwitch := by
  have hheader : (header config d).failure = none := rfl
  refine ⟨.reset, ?_, rfl⟩
  rw [Diagnostic.render, Diagnostic.renderBy, Drawing.append_of_ok hheader]
  exact List.mem_append_left _ (by simp [header, Drawing.styled, Drawing.append_of_ok])

/-- **Colours change nothing but the colour, and never leak.**  However a drawing comes out, the
last style that is switched on is the ordinary one.  If there is no escape character in what it is
drawn from, it comes out the same with colours and without, but for the escape sequences: the text
is the same, also up to any step, and so is the failure, if there is one. -/
theorem render_with_colours (config : Config) (sources : List Source) (d : Diagnostic) :
    let drawing := d.render config sources
    (drawing.pieces.filter Piece.isSwitch).getLast? = some .reset ∧
      (Written (· ≠ escapeCharacter) config sources d →
        (drawing.outcome true).map withoutEscapes id = drawing.outcome false ∧
          ∀ steps, steps <+: drawing.pieces →
            withoutEscapes (String.join (steps.map Piece.ansi))
              = String.join (steps.map Piece.plain)) := by
  intro drawing
  refine ⟨?_, ?_⟩
  · -- whatever the texts are, they do not matter for what is switched on
    have hwritten : Written (fun _ => True) config sources d := .any config sources d
    have htidy : drawing.Tidy fun _ => True := tidy_render (fun _ _ => trivial) hwritten
    obtain ⟨step, hstep, hswitch⟩ := exists_switch_render config sources d
    have hmem : step ∈ drawing.pieces.filter Piece.isSwitch := List.mem_filter.2 ⟨hstep, hswitch⟩
    obtain ⟨last, hlast⟩ := Option.isSome_iff_exists.1
      (List.getLast?_isSome.2 (List.ne_nil_of_mem hmem))
    rw [hlast, htidy.settled last hlast]
  · intro hwritten
    have htidy : drawing.Tidy (· ≠ escapeCharacter) := tidy_render (fun _ hc => hc) hwritten
    refine ⟨?_, ?_⟩
    · exact Prod.ext (withoutEscapes_pieces htidy.texts) rfl
    · intro steps hsteps
      exact withoutEscapes_pieces fun s hs => htidy.texts s (hsteps.subset hs)

/-- A snippet that starts inside the letter `é` breaks a drawing off below its line, after the block
of another source.  The style of the gutter is switched off by then. -/
theorem render_with_colours_letter :
    let sources : List Source := [⟨"main", none, "é"⟩, ⟨"other", none, "é"⟩]
    let whole : Snippet := ⟨"here", .secondary, 0, ⟨0, 2⟩⟩
    let inside : Snippet := ⟨"there", .primary, 1, ⟨1, 2⟩⟩
    let d : Diagnostic := ⟨.error, some "cut", [whole, inside], ["never drawn"]⟩
    Written (· ≠ escapeCharacter) .standard sources d ∧
      (d.render .standard sources).outcome true
        = ("\x1b[0m\x1b[1m\x1b[31mError:\x1b[0m cut\n"
          ++ "\x1b[0m\x1b[2m\x1b[3mIn main:1:1\n\x1b[0m"
          ++ "\x1b[0m\x1b[2m\x1b[3m1 │ \x1b[0mé\n"
          ++ "\x1b[0m\x1b[2m\x1b[3m  │ \x1b[0m\x1b[0m\x1b[1m^ here\n\x1b[0m"
          ++ "\x1b[0m\x1b[2m\x1b[3mIn other:1:2\n\x1b[0m"
          ++ "\x1b[0m\x1b[2m\x1b[3m1 │ \x1b[0mé\n"
          ++ "\x1b[0m\x1b[2m\x1b[3m  │ \x1b[0m", some .insideCharacter) ∧
      (d.render .standard sources).outcome false
        = ("Error: cut\nIn main:1:1\n1 │ é\n  │ ^ here\nIn other:1:2\n1 │ é\n  │ ",
          some .insideCharacter) ∧
      ((d.render .standard sources).outcome true).map withoutEscapes id
        = (d.render .standard sources).outcome false := by
  intro sources whole inside d
  have hsources : ∀ source ∈ sources, source.Written (· ≠ escapeCharacter) := by
    refine List.forall_mem_cons.2 ⟨⟨by decide, by simp, by decide⟩, ?_⟩
    exact List.forall_mem_singleton.2 ⟨by decide, by simp, by decide⟩
  have hwritten : Written (· ≠ escapeCharacter) .standard sources d :=
    ⟨⟨by decide, by decide, by decide, by decide⟩, hsources, ⟨by decide, by decide, by decide⟩⟩
  refine ⟨hwritten, by decide +kernel, by decide +kernel, ?_⟩
  exact ((render_with_colours .standard sources d).2 hwritten).1

end Render

end Sapling
