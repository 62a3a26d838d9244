import Sapling.Proofs.KeyedLists
import Sapling.Proofs.Numerals
import Sapling.Proofs.Rendering

/-!
# Excerpts of sources

An excerpt is a block of lines of a source with their numbers, and below each line the underlines
of the snippets that start on it.  The block of a cluster of snippets is drawn as one: from some
lines above the first snippet to some lines below the last, without a gap, and with each snippet
underlined once, below its own line.

## Main definitions

* `Render.RowBody`, `Render.ExcerptRow`, `Render.Excerpt` — excerpts as data, and how they are
  drawn.
* `Render.Excerpt.Faithful` — what an excerpt has to show for its snippets.
* `Render.excerptOf` — the excerpt of a cluster.

## Main results

* `Render.block_eq_drawing` — the block of a cluster is drawn as its excerpt.
* `Render.faithful_excerptOf` — that excerpt is faithful.
-/

namespace Sapling

namespace Render

open Text

/-! ### Excerpts -/

/-- What a row of an excerpt shows after the gutter. -/
inductive RowBody where
  /-- A line of the source. -/
  | line (index : Nat) (content : List Char)
  /-- The underline of a snippet: so many blanks, then so many signs. -/
  | underline (m : Mark) (offset length : Nat)

/-- The number of the line that a row shows. -/
def RowBody.number? : RowBody → Option Nat
  | line index _ => some (index + 1)
  | underline .. => none

/-- The snippet that a row underlines. -/
def RowBody.mark? : RowBody → Option Mark
  | line .. => none
  | underline m .. => some m

/-- A row of an excerpt, with what stands before the gutter. -/
structure ExcerptRow where
  /-- What stands before the gutter. -/
  cell : String
  /-- What stands after it. -/
  body : RowBody

/-- Some lines of a source with underlines. -/
structure Excerpt where
  /-- The index of the source. -/
  index : Nat
  /-- The snippets that are underlined. -/
  marks : List Mark
  /-- The index of the first line on which one of them starts. -/
  first : Nat
  /-- The index of the last such line. -/
  last : Nat
  /-- The rows. -/
  rows : List ExcerptRow

variable (config : Config) (severity : Severity)

/-- What a row draws after the gutter. -/
def RowBody.drawing : RowBody → Drawing
  | line _ content => .text (String.ofList (expandTabs content) ++ "\n")
  | underline m offset length =>
    .styled (config.snippet severity m.snippet.role)
      (blanks offset ++ String.join (List.replicate length config.underline)
        ++ config.underlineAfter ++ m.snippet.label ++ "\n")

/-- A row as it is drawn. -/
def ExcerptRow.drawing (r : ExcerptRow) : Drawing :=
  .styled config.subtle (r.cell ++ " " ++ config.gutter ++ " ") ++ r.body.drawing config severity

/-- An excerpt as it is drawn, below the place of its first snippet. -/
def Excerpt.drawing (e : Excerpt) : Drawing :=
  e.marks.head?.elim .nothing (blockHead config)
    ++ .concat (e.rows.map (ExcerptRow.drawing config severity))

/-- The index of the first line that an excerpt shows: the context is above its first snippet, as far
as there are lines. -/
def Excerpt.top (e : Excerpt) : Nat := e.first - config.contextSize

/-- The index of the last line that an excerpt shows, in a source with so many lines: the context is
below its last snippet, as far as there are lines. -/
def Excerpt.bottom (lineCount : Nat) (e : Excerpt) : Nat :=
  min (e.last + config.contextSize) (lineCount - 1)

/-- What an excerpt of a source has to show. -/
structure Excerpt.Faithful (source : Source) (e : Excerpt) : Prop where
  /-- The snippets are all about the source. -/
  source_eq : ∀ m ∈ e.marks, m.snippet.source = e.index ∧ m.source = source
  /-- The first snippet starts on the first line. -/
  first_eq : e.marks.head?.map Mark.line = some e.first
  /-- The last snippet starts on the last line. -/
  last_eq : e.marks.getLast?.map Mark.line = some e.last
  /-- Each snippet starts on the line of the one before it, or on the next one. -/
  steps : ∀ before m n after, e.marks = before ++ m :: n :: after →
    m.line ≤ n.line ∧ n.line ≤ m.line + 1
  /-- The lines are shown one after the other, with the context above and below. -/
  numbers : e.rows.filterMap (·.body.number?) = List.range' (e.top config + 1)
    (e.bottom config source.lineCount + 1 - e.top config)
  /-- Rows with a number show the line of this number. -/
  contents : ∀ r ∈ e.rows, ∀ i content, r.body = .line i content →
    source.lineContent? i = some content
  /-- Each snippet has one underline, and these are in order. -/
  underlined : e.rows.filterMap (·.body.mark?) = e.marks
  /-- The last line above an underline is the one on which its snippet starts. -/
  placed : ∀ above r below m offset length, e.rows = above ++ r :: below →
    r.body = .underline m offset length →
      (above.filterMap (·.body.number?)).getLast? = some (m.line + 1)
  /-- Underlines are as long as the parts of the line that they are measured by. -/
  measured : ∀ r ∈ e.rows, ∀ m offset length, r.body = .underline m offset length →
    ∃ line before marked, m.Fits line before marked ∧
      offset = columns before ∧ length = max (columns marked) 1
  /-- What stands before the gutter is a number or nothing, right-aligned in as many columns as the
  largest number has digits. -/
  cells : ∀ r ∈ e.rows,
    r.cell.length = (Numeral.decimal (e.bottom config source.lineCount + 1)).length ∧
      ∃ n, r.cell = blanks n ++ r.body.number?.elim "" Numeral.decimal

/-! ### The excerpt of a cluster -/

/-- A line number, or none, right-aligned. -/
def cell (width : Nat) (number : Option Nat) : String :=
  let digits := number.elim "" Numeral.decimal
  blanks (width - digits.length) ++ digits

/-- The underline of a mark, by the parts of its line. -/
def underlineBody (line : Line) (m : Mark) : RowBody :=
  .underline m
    (columns ((slice? m.source.chars line.start m.snippet.span.start).getD []))
    (max (columns ((slice? m.source.chars m.snippet.span.start
      (underlineStop line m.snippet.span)).getD [])) 1)

/-- A line and the underlines below it. -/
def rowBodies (lines : List Line) (marks : List Mark) (index : Nat) : List RowBody :=
  match lines[index]? with
  | none => []
  | some line =>
    .line index line.content :: (marks.filter (·.line = index)).map (underlineBody line)

/-- The excerpt for a cluster of marks in the source of an index, which has these lines. -/
def excerptOf (lines : List Line) (index : Nat) (c : Cluster Mark) : Excerpt :=
  let shown := shownLines config c.cover lines.length
  { index := index
    marks := c.items
    first := c.cover.start
    last := c.cover.stop - 1
    rows := (shown.offsets.flatMap (rowBodies lines c.items)).map fun body =>
      ⟨cell (Numeral.decimal shown.stop).length body.number?, body⟩ }

/-! ### Blocks are drawn as excerpts -/

section Drawn

variable {config severity} {m : Mark} {line : Line} {before marked : List Char}

theorem underlineBody_eq (h : m.Fits line before marked) :
    underlineBody line m = .underline m (columns before) (max (columns marked) 1) := by
  rw [underlineBody, h.before_eq, h.marked_eq]
  rfl

/-- The underline of a mark that fits is drawn as its row. -/
theorem underline_eq_drawing (h : m.Fits line before marked) :
    underline config severity line m = (underlineBody line m).drawing config severity := by
  rw [underline_eq h, underlineBody_eq h]
  rfl

/-- A line and the underlines below it are drawn as rows. -/
theorem row_eq_drawing {width index : Nat} {lines : List Line} {marks : List Mark}
    (hline : lines[index]? = some line)
    (hfits : ∀ m ∈ marks, m.line = index → ∃ before marked, m.Fits line before marked) :
    row config severity width lines marks index
      = .concat ((rowBodies lines marks index).map fun body =>
          ExcerptRow.drawing config severity ⟨cell width body.number?, body⟩) := by
  have hunderlines : ((marks.filter (·.line = index)).map fun m =>
      gutter config width none ++ underline config severity line m)
      = (marks.filter (·.line = index)).map fun m =>
        ExcerptRow.drawing config severity ⟨cell width none, underlineBody line m⟩ := by
    apply List.map_congr_left
    intro m hm
    obtain ⟨hmem, hindex⟩ := List.mem_filter.1 hm
    obtain ⟨before, marked, hfit⟩ := hfits m hmem (of_decide_eq_true hindex)
    rw [underline_eq_drawing hfit]
    rfl
  rw [row, rowBodies, hline]
  simp only [hunderlines]
  rw [List.map_cons, List.map_map, Drawing.concat_cons, ← Drawing.append_assoc]
  rfl

/-- **The block of a cluster is drawn as an excerpt.** -/
theorem block_eq_drawing {source : Source} {c : Cluster Mark} (index : Nat)
    (hfitting : Fitting source c.items) (hne : c.items ≠ []) :
    block config severity c = (excerptOf config source.lines index c).drawing config severity := by
  obtain ⟨first, later, hitems⟩ := List.exists_cons_of_ne_nil hne
  obtain ⟨rfl, -⟩ := hfitting first (by simp [hitems])
  have hrows : ∀ i ∈ (shownLines config c.cover first.source.lines.length).offsets,
      ∀ width, row config severity width first.source.lines c.items i
        = .concat ((rowBodies first.source.lines c.items i).map fun body =>
            ExcerptRow.drawing config severity ⟨cell width body.number?, body⟩) := by
    intro i hi width
    have hline := List.getElem?_eq_getElem (mem_shownLines hi)
    exact row_eq_drawing hline (hfitting.fits hline)
  unfold block blockShowing Excerpt.drawing excerptOf
  simp only [hitems, List.head?_cons, Option.elim_some, List.map_map, List.map_flatMap] at hrows ⊢
  rw [Drawing.concat_flatMap]
  congr 2
  exact List.map_congr_left fun i hi => hrows i hi _

end Drawn

/-! ### Excerpts are faithful -/

section Faithful

variable {config} {source : Source} {c : Cluster Mark} {index i : Nat} {lines : List Line}
  {line : Line} {marks : List Mark}

theorem number?_underlineBody (line : Line) (m : Mark) : (underlineBody line m).number? = none :=
  rfl

/-- A line and the underlines below it have one number. -/
theorem numbers_underlines (marks : List Mark) :
    (marks.map (underlineBody line)).filterMap RowBody.number? = [] := by
  rw [List.filterMap_map, List.filterMap_eq_nil_iff]
  exact fun m _ => number?_underlineBody line m

theorem numbers_rowBodies (hline : lines[i]? = some line) :
    (rowBodies lines marks i).filterMap RowBody.number? = [i + 1] := by
  have hnumber : (RowBody.line i line.content).number? = some (i + 1) := rfl
  rw [rowBodies, hline]
  simp only
  rw [List.filterMap_cons_some hnumber, numbers_underlines]

theorem marks_rowBodies (hline : lines[i]? = some line) :
    (rowBodies lines marks i).filterMap RowBody.mark? = marks.filter (·.line = i) := by
  rw [rowBodies, hline]
  simp only
  rw [List.filterMap_cons_none rfl, List.filterMap_map]
  exact List.filterMap_some

/-- An underline stands below its line, and other underlines at most. -/
theorem above_underline (hline : lines[i]? = some line) {left right : List RowBody} {m : Mark}
    {offset length : Nat}
    (h : rowBodies lines marks i = left ++ .underline m offset length :: right) :
    left.filterMap RowBody.number? = [i + 1] ∧ m ∈ marks ∧ m.line = i ∧
      underlineBody line m = .underline m offset length := by
  rw [rowBodies, hline] at h
  simp only at h
  cases left with
  | nil => cases (List.cons.inj h).1
  | cons b left =>
    obtain ⟨rfl, hunderlines⟩ := List.cons.inj h
    obtain ⟨earlier, later, hmarks, rfl, hthis⟩ := List.map_eq_append_iff.1 hunderlines
    obtain ⟨m', later', rfl, hm', -⟩ := List.map_eq_cons_iff.1 hthis
    obtain rfl : m' = m := (RowBody.underline.inj hm').1
    have hmem : m' ∈ marks.filter (·.line = i) := hmarks ▸ List.mem_append_right _ (by simp)
    obtain ⟨hmem, hindex⟩ := List.mem_filter.1 hmem
    refine ⟨?_, hmem, of_decide_eq_true hindex, hm'⟩
    have hnumber : (RowBody.line i line.content).number? = some (i + 1) := rfl
    rw [List.filterMap_cons_some hnumber, numbers_underlines]

theorem cell_length {width : Nat} {number : Option Nat}
    (h : (number.elim "" Numeral.decimal).length ≤ width) : (cell width number).length = width := by
  simp only [cell, blanks, String.length_append, String.length_ofList, List.length_replicate]
  omega

/-- A cluster of marks ends on the line of its last one. -/
theorem getLast?_line (hcoherent : Cluster.Coherent Mark.range c) :
    ∃ m, c.items.getLast? = some m ∧ c.cover.stop = m.line + 1 := by
  obtain ⟨m, hm, hstop⟩ := hcoherent.stops
  obtain ⟨last, hlast⟩ := Option.isSome_iff_exists.1
    (List.getLast?_isSome.2 (List.ne_nil_of_mem hm))
  have hcovers := (hcoherent.covers last (List.mem_of_getLast? hlast)).2
  have hsorted := hcoherent.sorted
  refine ⟨last, hlast, ?_⟩
  obtain ⟨earlier, hitems⟩ := List.getLast?_eq_some_iff.1 hlast
  rw [hitems] at hsorted hm
  have hle : m.line ≤ last.line := by
    rcases List.mem_append.1 hm with hm | hm
    · exact (List.pairwise_append.1 hsorted).2.2 m hm last (by simp)
    · exact Nat.le_of_eq (congrArg Mark.line (List.mem_singleton.1 hm))
  simp only [Mark.range] at hstop hcovers
  omega

theorem line_lt (hfitting : Fitting source marks) {m : Mark} (hm : m ∈ marks) :
    m.line < source.lines.length := by
  obtain ⟨rfl, line, before, marked, hfit⟩ := hfitting m hm
  exact (List.getElem?_eq_some_iff.1 hfit.line_eq).1

theorem shown_stop (hfitting : Fitting source c.items)
    (hcoherent : Cluster.Coherent Mark.range c) :
    (shownLines config c.cover source.lines.length).stop
      = (excerptOf config source.lines index c).bottom config source.lineCount + 1 := by
  obtain ⟨m, hlast, hstop⟩ := getLast?_line hcoherent
  have hlt := line_lt hfitting (List.mem_of_getLast? hlast)
  have hcount : source.lineCount = source.lines.length := rfl
  simp only [shownLines, Excerpt.bottom, excerptOf]
  omega

/-- What is collected from the rows of some lines is collected line by line. -/
theorem filterMap_rowBodies {β : Type} {f : RowBody → Option β} {g : Nat → List β}
    {indices : List Nat} (h : ∀ i ∈ indices, (rowBodies lines marks i).filterMap f = g i) :
    (indices.flatMap (rowBodies lines marks)).filterMap f = indices.flatMap g := by
  rw [List.filterMap_flatMap]
  exact List.flatMap_congr h

/-- The rows of some lines have the numbers of these lines. -/
theorem numbers_flatMap (marks : List Mark) {indices : List Nat}
    (hlt : ∀ i ∈ indices, i < lines.length) :
    (indices.flatMap (rowBodies lines marks)).filterMap RowBody.number? = indices.map (· + 1) := by
  rw [filterMap_rowBodies fun i hi => numbers_rowBodies (List.getElem?_eq_getElem (hlt i hi)),
    List.map_eq_flatMap]

theorem numbers_excerptOf (index : Nat) (lines : List Line) (c : Cluster Mark) :
    (excerptOf config lines index c).rows.filterMap (·.body.number?)
      = (shownLines config c.cover lines.length).offsets.map (· + 1) := by
  rw [← numbers_flatMap c.items fun _ => mem_shownLines]
  exact List.filterMap_map ..

theorem marks_excerptOf (index : Nat) (lines : List Line) (c : Cluster Mark) :
    (excerptOf config lines index c).rows.filterMap (·.body.mark?)
      = (shownLines config c.cover lines.length).offsets.flatMap fun i =>
          c.items.filter (·.line = i) := by
  rw [← filterMap_rowBodies fun i hi =>
    marks_rowBodies (List.getElem?_eq_getElem (mem_shownLines hi))]
  exact List.filterMap_map ..

/-- No number is too long for its cell. -/
theorem length_number_le {lines : List Line} {c : Cluster Mark} {body : RowBody}
    (h : body ∈ (shownLines config c.cover lines.length).offsets.flatMap
      (rowBodies lines c.items)) :
    (body.number?.elim "" Numeral.decimal).length
      ≤ (Numeral.decimal (shownLines config c.cover lines.length).stop).length := by
  cases hnumber : body.number? with
  | none => exact Nat.zero_le _
  | some number =>
    have hmem := List.mem_filterMap.2 ⟨body, h, hnumber⟩
    rw [numbers_flatMap c.items fun _ => mem_shownLines] at hmem
    obtain ⟨i, hi, rfl⟩ := List.mem_map.1 hmem
    exact Numeral.length_decimal_le (Span.mem_offsets.1 hi).2

/-- A row of some lines is one of a line among them. -/
theorem exists_index_of_mem {indices : List Nat} {body : RowBody}
    (h : body ∈ indices.flatMap (rowBodies lines marks)) :
    ∃ i line, lines[i]? = some line ∧ (body = .line i line.content ∨
      ∃ m ∈ marks, m.line = i ∧ body = underlineBody line m) := by
  obtain ⟨i, -, hbody⟩ := List.mem_flatMap.1 h
  unfold rowBodies at hbody
  split at hbody
  · cases hbody
  · next line hline =>
    refine ⟨i, line, hline, ?_⟩
    rcases List.mem_cons.1 hbody with hbody | hbody
    · exact Or.inl hbody
    · obtain ⟨m, hm, rfl⟩ := List.mem_map.1 hbody
      obtain ⟨hm, hindex⟩ := List.mem_filter.1 hm
      exact Or.inr ⟨m, hm, of_decide_eq_true hindex, rfl⟩

/-- **The excerpt of a coherent cluster is faithful.** -/
theorem faithful_excerptOf (hfitting : Fitting source c.items)
    (hindex : ∀ m ∈ c.items, m.snippet.source = index)
    (hcoherent : Cluster.Coherent Mark.range c) :
    (excerptOf config source.lines index c).Faithful config source where
  source_eq := fun m hm => ⟨hindex m hm, (hfitting m hm).1⟩
  first_eq := hcoherent.starts
  last_eq := by
    obtain ⟨m, hlast, hstop⟩ := getLast?_line hcoherent
    rw [excerptOf]
    simp only [hlast, hstop, Option.map_some, Nat.add_sub_cancel]
  steps := by
    intro before m n after hitems
    have hitems' : c.items = (before ++ [m]) ++ n :: after := by simpa [excerptOf] using hitems
    have hsorted := hcoherent.sorted
    obtain ⟨e, he, hle⟩ := hcoherent.linked (before ++ [m]) n after hitems' (by simp)
    rw [hitems', List.append_assoc, List.singleton_append] at hsorted
    obtain ⟨-, hsorted, hbefore⟩ := List.pairwise_append.1 hsorted
    have hmn : m.line ≤ n.line := (List.pairwise_cons.1 hsorted).1 n (by simp)
    have hem : e.line ≤ m.line := by
      rcases List.mem_append.1 he with he | he
      · exact hbefore e he m (by simp)
      · exact Nat.le_of_eq (congrArg Mark.line (List.mem_singleton.1 he))
    simp only [Mark.range] at hle
    omega
  numbers := by
    have hsucc (least count : Nat) :
        (List.range' least count).map (· + 1) = List.range' (least + 1) count := by
      rw [Nat.add_comm least 1, ← List.map_add_range']
      exact List.map_congr_left fun i _ => Nat.add_comm i 1
    rw [numbers_excerptOf, Span.offsets, hsucc, shown_stop hfitting hcoherent]
    rfl
  contents := by
    intro r hr i content hbody
    obtain ⟨body, hmem, rfl⟩ := List.mem_map.1 hr
    obtain ⟨i', line, hline, hcases⟩ := exists_index_of_mem hmem
    obtain rfl : body = .line i content := hbody
    rcases hcases with hthis | ⟨m, -, -, hthis⟩
    · obtain ⟨rfl, rfl⟩ := RowBody.line.inj hthis
      rw [Source.lineContent?, hline, Option.map_some]
    · cases hthis
  underlined := by
    rw [marks_excerptOf, Span.offsets]
    refine flatMap_filter_range' hcoherent.sorted ?_
    intro m hm
    have hshown : m.line ∈ (shownLines config c.cover source.lines.length).offsets :=
      line_mem_shownLines hcoherent.covers hm (line_lt hfitting hm)
    have hbounds := Span.mem_offsets.1 hshown
    omega
  placed := by
    intro above r below m offset length hrows hbody
    obtain ⟨bodies, bodies', hbodies, rfl, hbelow⟩ := List.map_eq_append_iff.1 hrows
    obtain ⟨body, bodies'', rfl, rfl, -⟩ := List.map_eq_cons_iff.1 hbelow
    obtain rfl : body = .underline m offset length := hbody
    obtain ⟨earlier, i, later, left, right, hindices, hrow, rfl⟩ :=
      exists_of_flatMap_eq_append hbodies
    have hi : i < source.lines.length :=
      mem_shownLines (hindices ▸ List.mem_append_right _ (by simp))
    obtain ⟨hleft, -, rfl, -⟩ := above_underline (List.getElem?_eq_getElem hi) hrow
    rw [List.filterMap_map]
    show (List.filterMap RowBody.number? _).getLast? = _
    rw [List.filterMap_append, hleft, List.getLast?_concat]
  measured := by
    intro r hr m offset length hbody
    obtain ⟨body, hmem, rfl⟩ := List.mem_map.1 hr
    obtain ⟨i, line, hline, hcases⟩ := exists_index_of_mem hmem
    obtain rfl : body = .underline m offset length := hbody
    rcases hcases with hthis | ⟨m', hm', hi, hthis⟩
    · cases hthis
    · obtain ⟨before, marked, hfit⟩ := hfitting.fits hline m' hm' hi
      rw [underlineBody_eq hfit] at hthis
      obtain ⟨rfl, rfl, rfl⟩ := RowBody.underline.inj hthis
      exact ⟨line, before, marked, hfit, rfl, rfl⟩
  cells := by
    intro r hr
    obtain ⟨body, hmem, rfl⟩ := List.mem_map.1 hr
    rw [← shown_stop hfitting hcoherent]
    exact ⟨cell_length (length_number_le hmem), _, rfl⟩

end Faithful

end Render

end Sapling
