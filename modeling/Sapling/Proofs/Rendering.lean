import Sapling.Diagnostic.Render
import Sapling.Proofs.Clusters
import Sapling.Proofs.Lines
import Sapling.Proofs.Numerals

/-!
# Diagnostics that are drawn to the end

A drawing is unbroken just if all its parts are.  The parts of the drawing of a diagnostic are
broken off only by a snippet that has no place, or one whose underline would start or stop inside a
character.  If there is none of these, every snippet is underlined below the line that it starts on.

## Main definitions

* `Render.Mark.Fits` — a mark, the line it is drawn on, and the parts of the text that its underline
  is measured by.
* `Render.underlinedLine` — a line of the source with underlines below it, as it is drawn.
* `Render.Shows` — a mark is underlined below its line.

## Main results

* `Drawing.concat_of_ok`, `Drawing.infix_concat` — drawings and their parts.
* `Render.failure_block`, `Render.shows_block` — blocks are drawn to the end, and show their marks.
* `Render.render_of_fits` — so are whole diagnostics.
-/

namespace Sapling

namespace Drawing

/-! ### Parts of drawings -/

/-- Unbroken drawings one after the other. -/
theorem concat_of_ok {ds : List Drawing} (h : ∀ d ∈ ds, d.failure = none) :
    concat ds = ⟨ds.flatMap pieces, none⟩ := by
  induction ds with
  | nil => rfl
  | cons d ds ih =>
    obtain ⟨hd, hds⟩ := List.forall_mem_cons.1 h
    rw [concat_cons, append_of_ok hd, ih hds, List.flatMap_cons]

/-- Unbroken drawings one after the other show each of them. -/
theorem infix_concat {d : Drawing} {ds : List Drawing} (h : ∀ d ∈ ds, d.failure = none)
    (hd : d ∈ ds) : d.pieces <:+: (concat ds).pieces := by
  obtain ⟨before, after, rfl⟩ := List.append_of_mem hd
  rw [concat_of_ok h, List.flatMap_append, List.flatMap_cons]
  exact ⟨before.flatMap pieces, after.flatMap pieces, by rw [List.append_assoc]⟩

end Drawing

namespace Render

open Text

/-! ### Marks that fit -/

/-- A mark in its place: its line, the part of the line before the snippet, and the part of the
snippet that is underlined. -/
structure Mark.Fits (m : Mark) (line : Line) (before marked : List Char) : Prop where
  /-- The line is the one on which the snippet starts. -/
  index_eq : m.source.lineIndex? m.snippet.span.start = some m.line
  /-- It is a line of the source. -/
  line_eq : m.source.lines[m.line]? = some line
  /-- What stands on it before the snippet. -/
  before_eq : slice? m.source.chars line.start m.snippet.span.start = some before
  /-- What is underlined. -/
  marked_eq : slice? m.source.chars m.snippet.span.start (underlineStop line m.snippet.span)
    = some marked

variable {config : Config} {severity : Severity} {m : Mark} {line : Line}
  {before marked : List Char}

/-- The underline of a mark that fits. -/
theorem underline_eq (h : m.Fits line before marked) :
    underline config severity line m =
      .styled (config.snippet severity m.snippet.role)
        (blanks (columns before)
          ++ String.join (List.replicate (max (columns marked) 1) config.underline)
          ++ config.underlineAfter ++ m.snippet.label ++ "\n") := by
  simp only [underline, h.before_eq, h.marked_eq]

/-- The underlines of marks below one line, each in a row of its own. -/
def underlines (config : Config) (severity : Severity) (width : Nat) (line : Line)
    (marks : List Mark) : List Piece :=
  marks.flatMap fun m => (gutter config width none ++ underline config severity line m).pieces

/-- A line of the source, with its number, and below it the underlines of some marks. -/
def underlinedLine (config : Config) (severity : Severity) (width index : Nat) (line : Line)
    (marks : List Mark) : List Piece :=
  (gutter config width (some (index + 1))).pieces ++
    .text (String.ofList (expandTabs line.content) ++ "\n") ::
      underlines config severity width line marks

/-- Gutters are as wide as each other, if the line numbers before them are not too long. -/
theorem length_gutter {width : Nat} {number : Option Nat}
    (h : (number.elim "" Numeral.decimal).length ≤ width) :
    (gutter config width number).plain.length = width + config.gutter.length + 2 := by
  have hblank : " ".length = 1 := by decide
  simp only [gutter, Drawing.styled, Drawing.plain, List.map_cons, List.map_nil, Piece.plain,
    String.join_cons, String.join_nil, String.length_append, String.length_empty, blanks,
    String.length_ofList, List.length_replicate, hblank]
  omega

/-- Pieces of a drawing show a mark: the line it is on, with its number before the gutter, and below
it the underline of the mark, after those of other marks on the line. -/
def Shows (config : Config) (severity : Severity) (m : Mark) (line : Line)
    (pieces : List Piece) : Prop :=
  ∃ width others, (Numeral.decimal (m.line + 1)).length ≤ width ∧
    (∀ o ∈ others, o.line = m.line) ∧
    underlinedLine config severity width m.line line (others ++ [m]) <:+: pieces

theorem Shows.mono {pieces more : List Piece} (h : Shows config severity m line pieces)
    (hmore : pieces <:+: more) : Shows config severity m line more := by
  obtain ⟨width, others, hwidth, hothers, hshown⟩ := h
  exact ⟨width, others, hwidth, hothers, hshown.trans hmore⟩

/-! ### Rows and blocks -/

section Rows

variable {width : Nat} {lines : List Line} {marks : List Mark} {index : Nat}

/-- The rows below a line are unbroken if the marks on it fit. -/
theorem failure_underlines (hfits : ∀ m ∈ marks, ∃ before marked, m.Fits line before marked) :
    ∀ d ∈ marks.map fun m => gutter config width none ++ underline config severity line m,
      d.failure = none := by
  intro d hd
  obtain ⟨m, hm, rfl⟩ := List.mem_map.1 hd
  obtain ⟨before, marked, hfit⟩ := hfits m hm
  rw [underline_eq hfit]
  rfl

/-- A row is unbroken if the marks on its line fit; then it shows them below the line. -/
theorem row_eq (hline : lines[index]? = some line)
    (hfits : ∀ m ∈ marks, m.line = index → ∃ before marked, m.Fits line before marked) :
    row config severity width lines marks index
      = ⟨underlinedLine config severity width index line (marks.filter (·.line = index)),
          none⟩ := by
  have hbelow : ∀ d ∈ (marks.filter (·.line = index)).map fun m =>
      gutter config width none ++ underline config severity line m, d.failure = none := by
    refine failure_underlines ?_
    intro m hm
    obtain ⟨hm, hindex⟩ := List.mem_filter.1 hm
    exact hfits m hm (by simpa using hindex)
  rw [row, hline]
  simp only [Drawing.concat_of_ok hbelow]
  rw [Drawing.append_of_ok (show (Drawing.text _).failure = none from rfl),
    Drawing.append_of_ok (show (gutter config width _).failure = none from rfl),
    List.flatMap_map]
  rfl

/-- A row shows each mark on its line. -/
theorem shows_row (hwidth : (Numeral.decimal (m.line + 1)).length ≤ width)
    (hline : lines[m.line]? = some line) (hm : m ∈ marks)
    (hfits : ∀ o ∈ marks, o.line = m.line → ∃ before marked, o.Fits line before marked) :
    Shows config severity m line (row config severity width lines marks m.line).pieces := by
  have hmem : m ∈ marks.filter (·.line = m.line) := List.mem_filter.2 ⟨hm, by simp⟩
  obtain ⟨others, more, hsplit⟩ := List.append_of_mem hmem
  refine ⟨width, others, hwidth, ?_, ?_⟩
  · intro o ho
    have hmem : o ∈ marks.filter (·.line = m.line) := hsplit ▸ List.mem_append_left _ ho
    simpa using (List.mem_filter.1 hmem).2
  · rw [row_eq hline hfits, hsplit]
    refine ⟨[], underlines config severity width line more, ?_⟩
    simp [underlinedLine, underlines]

end Rows

/-- All marks of a cluster are marks in one source, and each of them fits. -/
def Fitting (source : Source) (marks : List Mark) : Prop :=
  ∀ m ∈ marks, m.source = source ∧ ∃ line before marked, m.Fits line before marked

theorem Fitting.fits {source : Source} {marks : List Mark} (h : Fitting source marks) {index : Nat}
    (hline : source.lines[index]? = some line) :
    ∀ m ∈ marks, m.line = index → ∃ before marked, m.Fits line before marked := by
  rintro m hm rfl
  obtain ⟨rfl, line', before, marked, hfit⟩ := h m hm
  obtain rfl : line' = line := Option.some.inj (hfit.line_eq.symm.trans hline)
  exact ⟨before, marked, hfit⟩

/-- The lines that a block shows are lines of the source. -/
theorem mem_shownLines {cover : Span} {lineCount index : Nat} :
    index ∈ (shownLines config cover lineCount).offsets →
      index < lineCount := by
  simp only [Span.mem_offsets, shownLines]
  omega

/-- The lines of the marks in a cluster are among those that its block shows. -/
theorem line_mem_shownLines {cluster : Cluster Mark} {lineCount : Nat}
    (hcovers : Cluster.Covers Mark.range cluster) (hm : m ∈ cluster.items)
    (hlt : m.line < lineCount) :
    m.line ∈ (shownLines config cluster.cover lineCount).offsets := by
  obtain ⟨hlow, hhigh⟩ := hcovers m hm
  simp only [Mark.range] at hlow hhigh
  simp only [Span.mem_offsets, shownLines]
  omega

/-- The head of a block is unbroken if the first mark is in its place. -/
theorem failure_blockHead
    (h : lineIndex? m.source.chars m.snippet.span.start = some m.line) :
    (blockHead config m).failure = none := by
  obtain ⟨line, -, -, hline, -⟩ := exists_line_of_lineIndex? h
  simp only [blockHead, Source.position?, position?, h, Option.bind_some, hline, Option.map_some]
  rfl

/-- The rows of a block are unbroken. -/
theorem failure_rows {source : Source} {marks : List Mark} {indices : List Nat} {width : Nat}
    (h : Fitting source marks) (hindices : ∀ i ∈ indices, i < source.lines.length) :
    ∀ d ∈ indices.map (row config severity width source.lines marks), d.failure = none := by
  intro d hd
  obtain ⟨i, hi, rfl⟩ := List.mem_map.1 hd
  have hline := List.getElem?_eq_getElem (hindices i hi)
  rw [row_eq hline (h.fits hline)]

/-- **Blocks are drawn to the end** if their marks fit. -/
theorem failure_block {source : Source} {cluster : Cluster Mark}
    (h : Fitting source cluster.items) : (block config severity cluster).failure = none := by
  unfold block blockShowing
  split
  · rfl
  · next first later hitems =>
    obtain ⟨rfl, line, before, marked, hfit⟩ := h first (by simp [hitems])
    rw [Drawing.append_of_ok (failure_blockHead hfit.index_eq),
      Drawing.concat_of_ok (failure_rows h fun _ => mem_shownLines)]

/-- **Blocks show their marks**, each below the line that it starts on. -/
theorem shows_block {source : Source} {cluster : Cluster Mark}
    (h : Fitting source cluster.items) (hcovers : Cluster.Covers Mark.range cluster)
    (hm : m ∈ cluster.items) (hline : source.lines[m.line]? = some line) :
    Shows config severity m line (block config severity cluster).pieces := by
  unfold block blockShowing
  split
  · next hitems => simp [hitems] at hm
  · next first later hitems =>
    obtain ⟨rfl, line', before, marked, hfit⟩ := h first (by simp [hitems])
    have hshown : m.line ∈ (shownLines config cluster.cover first.source.lines.length).offsets :=
      line_mem_shownLines hcovers hm (List.getElem?_eq_some_iff.1 hline).1
    -- the row of the mark's line is one of the rows below the head of the block
    rw [Drawing.append_of_ok (failure_blockHead hfit.index_eq)]
    refine Shows.mono ?_ (List.suffix_append _ _).isInfix
    refine Shows.mono ?_ (Drawing.infix_concat (failure_rows h fun _ => mem_shownLines)
      (List.mem_map_of_mem hshown))
    refine shows_row ?_ hline hm (h.fits hline)
    exact Numeral.length_decimal_le (Span.mem_offsets.1 hshown).2

/-! ### Whole diagnostics -/

section Diagnostics

variable {sources : List Source}

theorem mark_eq_ok {s : Snippet} (h : mark? sources s = .ok m) :
    m.snippet = s ∧ sources[s.source]? = some m.source ∧
      m.source.lineIndex? s.span.start = some m.line := by
  unfold mark? at h
  split at h
  · cases h
  · next source hsource =>
    split at h
    · cases h
    · next line hline =>
      cases h
      exact ⟨rfl, hsource, hline⟩

/-- The marks of snippets are their places, in the order of the snippets. -/
theorem marks_eq_ok {snippets : List Snippet} {marks : List Mark}
    (h : marks? sources snippets = .ok marks) :
    marks.map Mark.snippet = snippets ∧ ∀ m ∈ marks, mark? sources m.snippet = .ok m := by
  induction snippets generalizing marks with
  | nil =>
    obtain rfl := Except.ok.inj h
    exact ⟨rfl, by simp⟩
  | cons s snippets ih =>
    rw [marks?, List.mapM_cons, ← marks?] at h
    cases hs : mark? sources s with
    | error failure =>
      rw [hs] at h
      cases h
    | ok first =>
      cases hlater : marks? sources snippets with
      | error failure =>
        rw [hs, hlater] at h
        cases h
      | ok later =>
        rw [hs, hlater] at h
        obtain rfl := Except.ok.inj h
        obtain ⟨rfl, -⟩ := mark_eq_ok hs
        obtain ⟨hsnippets, hplaces⟩ := ih hlater
        exact ⟨by rw [List.map_cons, hsnippets], List.forall_mem_cons.2 ⟨hs, hplaces⟩⟩

/-- If all snippets have their places, there are marks for them. -/
theorem marks_of_forall {snippets : List Snippet}
    (h : ∀ s ∈ snippets, ∃ m, mark? sources s = .ok m) :
    ∃ marks, marks? sources snippets = .ok marks ∧ marks.map Mark.snippet = snippets ∧
      ∀ m ∈ marks, mark? sources m.snippet = .ok m := by
  have hmarks : ∃ marks, marks? sources snippets = .ok marks := by
    induction snippets with
    | nil => exact ⟨[], rfl⟩
    | cons s snippets ih =>
      obtain ⟨⟨m, hm⟩, h⟩ := List.forall_mem_cons.1 h
      obtain ⟨marks, hmarks⟩ := ih h
      refine ⟨m :: marks, ?_⟩
      rw [marks?, List.mapM_cons, hm, ← marks?, hmarks]
      rfl
  obtain ⟨marks, hmarks⟩ := hmarks
  exact ⟨marks, hmarks, marks_eq_ok hmarks⟩

/-- The mark is one in its source, and fits. -/
def Mark.Placed (sources : List Source) (m : Mark) : Prop :=
  sources[m.snippet.source]? = some m.source ∧ ∃ line before marked, m.Fits line before marked

theorem Mark.Placed.index_eq (h : m.Placed sources) :
    m.source.lineIndex? m.snippet.span.start = some m.line := by
  obtain ⟨-, line, before, marked, hfits⟩ := h
  exact hfits.index_eq

/-- The marks in one source are some of all marks. -/
theorem exists_source_of_mem {marks group : List Mark}
    (hmarks : ∀ m ∈ marks, sources[m.snippet.source]? = some m.source)
    (hgroup : group ∈ marksBySource marks) :
    ∃ source, ∀ m ∈ group, m ∈ marks ∧ m.source = source := by
  obtain ⟨i, hi, rfl⟩ := List.mem_map.1 hgroup
  obtain ⟨first, hfirst, rfl⟩ := List.mem_map.1 (List.mem_eraseDups.1 hi)
  refine ⟨first.source, ?_⟩
  intro m hm
  obtain ⟨hm, hsame⟩ := List.mem_filter.1 hm
  have hsource := hmarks m hm
  rw [of_decide_eq_true hsame, hmarks first hfirst] at hsource
  exact ⟨hm, (Option.some.inj hsource).symm⟩

/-- The marks in one source, of some that fit. -/
theorem fitting_of_mem {marks group : List Mark} (hmarks : ∀ m ∈ marks, m.Placed sources)
    (hgroup : group ∈ marksBySource marks) : ∃ source, Fitting source group := by
  obtain ⟨source, hsource⟩ := exists_source_of_mem (fun m hm => (hmarks m hm).1) hgroup
  refine ⟨source, ?_⟩
  intro m hm
  obtain ⟨hm, heq⟩ := hsource m hm
  exact ⟨heq, (hmarks m hm).2⟩

/-- The marks in one cluster, of some that fit. -/
theorem fitting_of_cluster {marks group : List Mark} (hmarks : ∀ m ∈ marks, m.Placed sources)
    (hgroup : group ∈ marksBySource marks) {cluster : Cluster Mark}
    (hcluster : cluster ∈ Cluster.gather Mark.range group) :
    ∃ source, Fitting source cluster.items := by
  obtain ⟨source, hfitting⟩ := fitting_of_mem hmarks hgroup
  refine ⟨source, ?_⟩
  intro m hm
  exact hfitting m ((Cluster.mem_gather _ _ m).1 ⟨cluster, hcluster, hm⟩)

theorem mem_marksBySource {marks : List Mark} (hm : m ∈ marks) :
    ∃ group ∈ marksBySource marks, m ∈ group := by
  have hsource : m.snippet.source ∈ (marks.map (·.snippet.source)).eraseDups :=
    List.mem_eraseDups.2 (List.mem_map_of_mem hm)
  exact ⟨_, List.mem_map_of_mem hsource, List.mem_filter.2 ⟨hm, by simp⟩⟩

/-- **The blocks for marks that fit are drawn to the end**, and show each mark. -/
theorem blocks_of_fits {marks : List Mark} (hmarks : ∀ m ∈ marks, m.Placed sources) :
    (blocks config severity marks).failure = none ∧
      ∀ m ∈ marks, ∀ line before marked, m.Fits line before marked →
        Shows config severity m line (blocks config severity marks).pieces := by
  have hblocks : ∀ group ∈ marksBySource marks,
      ∀ d ∈ (Cluster.gather Mark.range group).map (block config severity), d.failure = none := by
    intro group hgroup d hd
    obtain ⟨cluster, hcluster, rfl⟩ := List.mem_map.1 hd
    obtain ⟨source, hitems⟩ := fitting_of_cluster hmarks hgroup hcluster
    exact failure_block hitems
  have hgroups : ∀ d ∈ (marksBySource marks).map fun group =>
      Drawing.concat ((Cluster.gather Mark.range group).map (block config severity)),
      d.failure = none := by
    intro d hd
    obtain ⟨group, hgroup, rfl⟩ := List.mem_map.1 hd
    rw [Drawing.concat_of_ok (hblocks group hgroup)]
  refine ⟨by rw [blocks, blocksBy, Drawing.concat_of_ok hgroups], ?_⟩
  intro m hm line before marked hfit
  -- the mark is in one cluster of one group, whose block is a part of the whole
  obtain ⟨group, hgroup, hmem⟩ := mem_marksBySource hm
  obtain ⟨cluster, hcluster, hitem⟩ := (Cluster.mem_gather Mark.range group m).2 hmem
  obtain ⟨source, hitems⟩ := fitting_of_cluster hmarks hgroup hcluster
  obtain ⟨rfl, -⟩ := hitems m hitem
  have hcovers := Cluster.covers_gather (fun m _ => m.start_le_stop) cluster hcluster
  have hshown : Shows config severity m line (block config severity cluster).pieces :=
    shows_block hitems hcovers hitem hfit.line_eq
  have hingroup := hshown.mono
    (Drawing.infix_concat (hblocks group hgroup) (List.mem_map_of_mem hcluster))
  exact hingroup.mono (Drawing.infix_concat hgroups (List.mem_map_of_mem hgroup))

theorem failure_notes (config : Config) (notes : List String) :
    ∀ e ∈ notes.map (note config), e.failure = none := by
  intro e he
  obtain ⟨text, -, rfl⟩ := List.mem_map.1 he
  rfl

/-- **Diagnostics are drawn to the end** if all their snippets have their places and fit, and then
each snippet is underlined below the line that it starts on. -/
theorem render_of_fits {d : Diagnostic}
    (h : ∀ s ∈ d.snippets, ∃ m, mark? sources s = .ok m ∧
      ∃ line before marked, m.Fits line before marked) :
    (d.render config sources).failure = none ∧
      ∀ s ∈ d.snippets, ∀ m, mark? sources s = .ok m → ∀ line before marked,
        m.Fits line before marked →
          Shows config d.severity m line (d.render config sources).pieces := by
  obtain ⟨marks, hmarks, hsnippets, hplaces⟩ :=
    marks_of_forall fun s hs => (h s hs).imp fun _ hm => hm.1
  have hplaced : ∀ m ∈ marks, m.Placed sources := by
    intro m hm
    obtain ⟨m', hmark', hfit⟩ := h m.snippet (hsnippets ▸ List.mem_map_of_mem hm)
    obtain rfl : m' = m := Except.ok.inj (hmark'.symm.trans (hplaces m hm))
    exact ⟨(mark_eq_ok hmark').2.1, hfit⟩
  obtain ⟨hfailure, hshown⟩ : (blocks config d.severity marks).failure = none ∧ _ :=
    blocks_of_fits hplaced
  have hnotes := failure_notes config d.notes
  have hheader : (header config d).failure = none := rfl
  have hrender : d.render config sources
      = ⟨(header config d).pieces ++ ((blocks config d.severity marks).pieces ++
          ((d.notes.map (note config)).flatMap Drawing.pieces ++ [.text "\n"])), none⟩ := by
    rw [Diagnostic.render_of_marks hmarks]
    simp only [Drawing.append_assoc, Drawing.concat_of_ok hnotes]
    rw [Drawing.append_of_ok hheader, Drawing.append_of_ok hfailure]
    rfl
  refine ⟨by rw [hrender], ?_⟩
  intro s hs m hm line before marked hfit
  have hmem : m ∈ marks := by
    rw [← hsnippets] at hs
    obtain ⟨m', hm', rfl⟩ := List.mem_map.1 hs
    rwa [Except.ok.inj (hm.symm.trans (hplaces m' hm'))]
  refine (hshown m hmem line before marked hfit).mono ?_
  rw [hrender]
  exact ⟨(header config d).pieces, _, by rw [List.append_assoc]⟩

end Diagnostics

end Render

end Sapling
