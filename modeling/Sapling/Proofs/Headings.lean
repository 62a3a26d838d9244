import Sapling.Diagnostic.Render

/-!
# Names of sources show in headings only

The name and the path of a source show nowhere in a drawing but in the heads of its blocks.  So a
drawing is a form with some blanks: for each head the source and the position are fixed, and what is
filled in is what the source is called.  To see this, sources are called by other names, and it is
followed through each step of the rendering that everything but the heads stays.

## Main definitions

* `Heading` — what a source is called: its name, and its path if it has one.
* `headAll` — sources that are called by other names.
* `Slot`, `Slot.fill` — a step of drawing, perhaps with the name of a source left open.
* `Drawing.Form` — drawings that are one form filled in.

## Main results

* `Cluster.gather_map` — items are gathered by their ranges alone.
* `Diagnostic.render_form` — the drawing of a diagnostic is a form.
-/

namespace Sapling

/-- What a source is called. -/
structure Heading where
  /-- The name. -/
  name : String
  /-- The path shown after the name, if there is one. -/
  path : Option String

/-- A source that is called something else. -/
def Source.headed (h : Heading) (s : Source) : Source := ⟨h.name, h.path, s.text⟩

/-- Sources that are called something else, each by its index. -/
def headAll (headings : Nat → Heading) (sources : List Source) : List Source :=
  sources.mapIdx fun i => Source.headed (headings i)

/-- A step of drawing, perhaps with the name of a source left open. -/
inductive Slot where
  /-- A step without a name in it. -/
  | piece (p : Piece)
  /-- The head of a block: the place of its first mark in a source. -/
  | head (source : Nat) (position : Nat × Nat)

/-- The step of drawing when the sources are called something. -/
def Slot.fill (headings : Nat → Heading) : Slot → Piece
  | piece p => p
  | head source position =>
    let h := headings source
    .text ("In " ++ Render.place h.name position
      ++ h.path.elim "" (fun path => " (" ++ Render.place path position ++ ")") ++ "\n")

/-! ### Forms -/

namespace Drawing

/-- Drawings that are one form filled in, and break off for the same reason if they do. -/
def Form (draw : (Nat → Heading) → Drawing) : Prop :=
  ∃ (slots : List Slot) (failure : Option Failure),
    ∀ headings, draw headings = ⟨slots.map (Slot.fill headings), failure⟩

namespace Form

/-- A drawing in which no source is named. -/
theorem const (d : Drawing) : Form fun _ => d := by
  refine ⟨d.pieces.map .piece, d.failure, ?_⟩
  intro headings
  have hpieces : (d.pieces.map Slot.piece).map (Slot.fill headings) = d.pieces := by
    rw [List.map_map]
    exact List.map_id _
  rw [hpieces]

/-- Drawings that are the same as those of a form. -/
theorem congr {draw draw' : (Nat → Heading) → Drawing} (h : Form draw)
    (hsame : ∀ headings, draw' headings = draw headings) : Form draw' := by
  obtain rfl : draw' = draw := funext hsame
  exact h

theorem append {draw more : (Nat → Heading) → Drawing} (h : Form draw) (k : Form more) :
    Form fun headings => draw headings ++ more headings := by
  obtain ⟨slots, failure, hdraw⟩ := h
  cases failure with
  | some failure =>
    have hsame : ∀ headings, draw headings ++ more headings = draw headings := fun headings =>
      append_of_failure (by rw [hdraw]) _
    exact congr ⟨slots, some failure, hdraw⟩ hsame
  | none =>
    obtain ⟨others, failure, hmore⟩ := k
    refine ⟨slots ++ others, failure, ?_⟩
    intro headings
    calc draw headings ++ more headings
        = ⟨(draw headings).pieces ++ (more headings).pieces, (more headings).failure⟩ :=
          append_of_ok (by rw [hdraw]) _
      _ = ⟨(slots ++ others).map (Slot.fill headings), failure⟩ := by
          rw [hdraw, hmore, List.map_append]

theorem concat {α : Type} {draw : α → (Nat → Heading) → Drawing} {items : List α}
    (h : ∀ a ∈ items, Form (draw a)) :
    Form fun headings => Drawing.concat (items.map fun a => draw a headings) := by
  induction items with
  | nil => exact const nothing
  | cons a items ih =>
    obtain ⟨ha, hitems⟩ := List.forall_mem_cons.1 h
    exact ha.append (ih hitems)

end Form

end Drawing

/-! ### Clusters of other items -/

namespace Cluster

variable {α β : Type} {f : α → β} {range : α → Span} {range' : β → Span}

/-- A cluster of other items. -/
def map (f : α → β) (c : Cluster α) : Cluster β := ⟨c.items.map f, c.cover⟩

theorem sweep_map (hrange : ∀ a, range' (f a) = range a) (gathered : List α) (cover : Span)
    (later : List α) :
    sweep range' (gathered.map f) cover (later.map f)
      = (sweep range gathered cover later).map (map f) := by
  have hclose (gathered : List α) (cover : Span) :
      close (gathered.map f) cover = (close gathered cover).map (map f) := by
    cases gathered <;> rfl
  induction later generalizing gathered cover with
  | nil => exact hclose gathered cover
  | cons item later ih =>
    rw [List.map_cons, sweep, sweep, hrange]
    split
    · rw [List.map_append, hclose, ← ih]
      rfl
    · rw [← ih, List.map_append]
      rfl

/-- **Items are gathered by their ranges alone.** -/
theorem gather_map (hrange : ∀ a, range' (f a) = range a) (items : List α) :
    gather range' (items.map f) = (gather range items).map (map f) := by
  have hsorted : sortByStart range' (items.map f) = (sortByStart range items).map f := by
    unfold sortByStart
    exact (List.map_mergeSort fun a _ b _ => by rw [hrange, hrange]).symm
  rw [gather, hsorted]
  exact sweep_map hrange [] (.empty 0) (sortByStart range items)

end Cluster

/-! ### Marks in other sources -/

namespace Render

variable (headings : Nat → Heading) {sources : List Source}

/-- A mark in a source that is called something else. -/
def Mark.headed (m : Mark) : Mark :=
  { m with source := m.source.headed (headings m.snippet.source) }

theorem mark_headed (s : Snippet) :
    mark? (headAll headings sources) s = (mark? sources s).map (Mark.headed headings) := by
  have hsource : (headAll headings sources)[s.source]?
      = sources[s.source]?.map (Source.headed (headings s.source)) := List.getElem?_mapIdx
  rw [mark?, mark?, hsource]
  cases sources[s.source]? with
  | none => rfl
  | some source =>
    -- the lines are those of the text
    have hline : (source.headed (headings s.source)).lineIndex? s.span.start
        = source.lineIndex? s.span.start := rfl
    rw [Option.map_some]
    simp only [hline]
    cases source.lineIndex? s.span.start <;> rfl

theorem marks_headed (snippets : List Snippet) :
    marks? (headAll headings sources) snippets
      = (marks? sources snippets).map (List.map (Mark.headed headings)) := by
  unfold marks?
  induction snippets with
  | nil => rfl
  | cons s snippets ih =>
    rw [List.mapM_cons, List.mapM_cons, mark_headed, ih]
    cases mark? sources s with
    | error failure => rfl
    | ok m => cases snippets.mapM (mark? sources) <;> rfl

theorem marksBySource_headed (marks : List Mark) :
    marksBySource (marks.map (Mark.headed headings))
      = (marksBySource marks).map (List.map (Mark.headed headings)) := by
  unfold marksBySource
  rw [List.map_map, List.map_map]
  refine List.map_congr_left ?_
  intro i _
  exact List.filter_map

/-- The rows of a block are those of other sources with the same texts. -/
theorem row_headed (config : Config) (severity : Severity) (width : Nat) (lines : List Text.Line)
    (marks : List Mark) (index : Nat) :
    row config severity width lines (marks.map (Mark.headed headings)) index
      = row config severity width lines marks index := by
  have hmarks : (marks.map (Mark.headed headings)).filter (·.line = index)
      = (marks.filter (·.line = index)).map (Mark.headed headings) := List.filter_map
  unfold row
  rw [hmarks]
  simp only [List.map_map]
  rfl

/-! ### Drawings with other sources -/

theorem blockHead_form (config : Config) (m : Mark) :
    Drawing.Form fun headings => blockHead config (m.headed headings) := by
  -- the position is that in the text
  have hposition : ∀ headings, (m.headed headings).source.position?
      (m.headed headings).snippet.span.start = m.source.position? m.snippet.span.start :=
    fun _ => rfl
  cases h : m.source.position? m.snippet.span.start with
  | none =>
    refine (Drawing.Form.const (.fail .outOfBounds)).congr ?_
    intro headings
    unfold blockHead
    rw [hposition, h]
  | some position =>
    let slots : List Slot :=
      [.piece (.style config.subtle), .head m.snippet.source position, .piece .reset]
    have hhead : ∀ headings,
        blockHead config (m.headed headings) = ⟨slots.map (Slot.fill headings), none⟩ := by
      intro headings
      unfold blockHead
      rw [hposition, h]
      rfl
    exact ⟨slots, none, hhead⟩

theorem block_form (config : Config) (severity : Severity) (cluster : Cluster Mark) :
    Drawing.Form fun headings => block config severity (cluster.map (Mark.headed headings)) := by
  obtain ⟨items, cover⟩ := cluster
  cases items with
  | nil => exact .const .nothing
  | cons first items =>
    let lines := first.source.lines
    let shown := shownLines config cover lines.length
    let width := (Numeral.decimal shown.stop).length
    have hrows := Drawing.Form.const
      (.concat (shown.offsets.map (row config severity width lines (first :: items))))
    refine ((blockHead_form config first).append hrows).congr ?_
    intro headings
    have hsame : row config severity width lines ((first :: items).map (Mark.headed headings))
        = row config severity width lines (first :: items) :=
      funext (row_headed headings config severity width lines (first :: items))
    rw [← hsame]
    rfl

/-- **The blocks of marks** name the sources in their heads only. -/
theorem blocks_form (config : Config) (severity : Severity) (marks : List Mark) :
    Drawing.Form fun headings => blocks config severity (marks.map (Mark.headed headings)) := by
  have hform : Drawing.Form fun headings => .concat ((marksBySource marks).map fun group =>
      .concat ((Cluster.gather Mark.range group).map fun cluster =>
        block config severity (cluster.map (Mark.headed headings)))) :=
    .concat fun group _ => .concat fun cluster _ => block_form config severity cluster
  refine hform.congr ?_
  intro headings
  unfold blocks blocksBy
  rw [marksBySource_headed, List.map_map]
  refine congrArg Drawing.concat (List.map_congr_left ?_)
  intro group _
  have hgather : Cluster.gather Mark.range (group.map (Mark.headed headings))
      = (Cluster.gather Mark.range group).map (Cluster.map (Mark.headed headings)) :=
    Cluster.gather_map (fun _ => rfl) group
  rw [Function.comp_apply, hgather, List.map_map]
  rfl

end Render

open Render in
/-- **The drawing of a diagnostic is a form**: whatever the sources are called, it is the same but
for the heads of its blocks, and these name the same positions. -/
theorem Diagnostic.render_form (config : Config) (sources : List Source) (d : Diagnostic) :
    Drawing.Form fun headings => d.render config (headAll headings sources) := by
  have hheader := Drawing.Form.const (header config d)
  cases h : marks? sources d.snippets with
  | error failure =>
    refine (hheader.append (.const (.fail failure))).congr ?_
    intro headings
    unfold render renderBy
    rw [marks_headed, h]
    rfl
  | ok marks =>
    have hbody := ((blocks_form config d.severity marks).append
      (.const (.concat (d.notes.map (note config))))).append (.const (.text "\n"))
    refine (hheader.append hbody).congr ?_
    intro headings
    unfold render renderBy
    rw [marks_headed, h]
    rfl

end Sapling
