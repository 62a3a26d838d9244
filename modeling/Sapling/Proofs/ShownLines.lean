import Sapling.Proofs.WholeDrawings

/-!
# Lines that are shown

Excerpts are made for lines with snippets, and the context is put around them afterwards.  Within an
excerpt each line is shown once.  A line without snippets that is near enough to several excerpts is
shown in each of them, so the line numbers of a source may go back from one excerpt to the next.

## Main definitions

* `Render.Excerpt.lineNumbers`, `Render.lineNumbersOf` — the line numbers of an excerpt, and of a
  source.
* `Render.Excerpt.Reaches` — an excerpt is near enough to a line to show it.

## Main results

* `Render.Excerpt.Faithful.mem_lineNumbers` — the lines that an excerpt shows.
* `Render.lineNumbers_lt_iff` — when the numbers of one excerpt come before those of another.
* `Render.render_lineNumbers` — the line numbers of a source over all of its excerpts.
-/

namespace Sapling

namespace Render

open Text

variable (config : Config)

/-- The numbers of the lines that an excerpt shows. -/
def Excerpt.lineNumbers (e : Excerpt) : List Nat := e.rows.filterMap (·.body.number?)

/-- The numbers of the lines of one source that excerpts show, one excerpt after the other. -/
def lineNumbersOf (index : Nat) (es : List Excerpt) : List Nat :=
  (es.filter (·.index = index)).flatMap Excerpt.lineNumbers

/-- An excerpt is near enough to a line to show it: the line is not further above its first snippet
than the context goes, nor further below its last one. -/
def Excerpt.Reaches (line : Nat) (e : Excerpt) : Prop :=
  e.first ≤ line + config.contextSize ∧ line ≤ e.last + config.contextSize

instance (line : Nat) : DecidablePred (Excerpt.Reaches config line) :=
  fun _ => inferInstanceAs (Decidable (_ ∧ _))

/-- An excerpt is made for lines of a source. -/
structure Excerpt.Within (source : Source) (e : Excerpt) : Prop where
  /-- They are in order. -/
  first_le : e.first ≤ e.last
  /-- The source has them. -/
  last_lt : e.last < source.lineCount

variable {config} {source : Source} {sources : List Source} {marks : List Mark}

/-! ### Numbers of an excerpt -/

namespace Excerpt.Faithful

variable {e : Excerpt} {line number : Nat}

theorem mem_lineNumbers_iff (h : e.Faithful config source) :
    number ∈ e.lineNumbers ↔ e.top config < number ∧
      number ≤ max (e.top config) (e.bottom config source.lineCount + 1) := by
  rw [lineNumbers, h.numbers, List.mem_range'_1]
  omega

/-- **Within an excerpt the line numbers go up.** -/
theorem pairwise_lineNumbers (h : e.Faithful config source) : e.lineNumbers.Pairwise (· < ·) := by
  rw [lineNumbers, h.numbers]
  exact List.pairwise_lt_range'

/-- **The lines that an excerpt shows** are those of its source that it reaches. -/
theorem mem_lineNumbers (h : e.Faithful config source) (hwithin : e.Within source) :
    line + 1 ∈ e.lineNumbers ↔ e.Reaches config line ∧ line < source.lineCount := by
  obtain ⟨hfirst, hlast⟩ := hwithin
  rw [h.mem_lineNumbers_iff]
  simp only [Reaches, top, bottom]
  omega

end Excerpt.Faithful

/-- **The numbers of one excerpt come before those of another** of the same source just if the
context below the one ends above the context of the other. -/
theorem lineNumbers_lt_iff {a b : Excerpt} (ha : a.Faithful config source)
    (hina : a.Within source) (hb : b.Faithful config source) (hinb : b.Within source) :
    (∀ x ∈ a.lineNumbers, ∀ y ∈ b.lineNumbers, x < y) ↔
      a.last + 2 * config.contextSize < b.first := by
  obtain ⟨hfirsta, hlasta⟩ := hina
  obtain ⟨hfirstb, hlastb⟩ := hinb
  simp only [ha.mem_lineNumbers_iff, hb.mem_lineNumbers_iff, Excerpt.top, Excerpt.bottom]
  constructor
  · intro h
    -- the last line of the one and the first line of the other decide
    have hlt := h (min (a.last + config.contextSize) (source.lineCount - 1) + 1) (by omega)
      (b.first - config.contextSize + 1) (by omega)
    omega
  · intro h x hx y hy
    omega

/-! ### Numbers of a source -/

/-- Excerpts for marks that fit are made for lines of their sources. -/
theorem within_excerpts (hmarks : ∀ m ∈ marks, m.Placed sources) {e : Excerpt}
    (he : e ∈ excerpts config sources marks) :
    ∃ source, sources[e.index]? = some source ∧ e.Faithful config source ∧ e.Within source := by
  obtain ⟨index, source, c, hcluster, rfl⟩ := exists_cluster_of_mem hmarks he
  obtain ⟨m, hlast, hstop⟩ := getLast?_line hcluster.coherent
  have hm := List.mem_of_getLast? hlast
  have hbounds := line_bounds config source.lines index hcluster.coherent hm
  have hlt : m.line < source.lineCount := line_lt hcluster.fitting hm
  refine ⟨source, hcluster.source_eq, faithful_excerptOf hcluster.fitting hcluster.index_eq
    hcluster.coherent, Nat.le_trans hbounds.1 hbounds.2, ?_⟩
  simp only [excerptOf]
  omega

/-- The excerpts of one source. -/
theorem mem_of_index (hmarks : ∀ m ∈ marks, m.Placed sources) {index : Nat}
    (hsource : sources[index]? = some source) {e : Excerpt}
    (he : e ∈ (excerpts config sources marks).filter (·.index = index)) :
    e.Faithful config source ∧ e.Within source := by
  obtain ⟨hmem, hindex⟩ := List.mem_filter.1 he
  obtain ⟨source', hsource', hfaithful⟩ := within_excerpts hmarks hmem
  rw [of_decide_eq_true hindex] at hsource'
  rw [hsource] at hsource'
  obtain rfl := Option.some.inj hsource'
  exact hfaithful

/-- **The line numbers of a source go up** over all of its excerpts just if these are further apart
than their contexts. -/
theorem pairwise_lineNumbersOf_iff (hmarks : ∀ m ∈ marks, m.Placed sources) {index : Nat}
    (hsource : sources[index]? = some source) :
    (lineNumbersOf index (excerpts config sources marks)).Pairwise (· < ·) ↔
      ((excerpts config sources marks).filter (·.index = index)).Pairwise fun a b =>
        a.last + 2 * config.contextSize < b.first := by
  have hmem {e : Excerpt} (he : e ∈ (excerpts config sources marks).filter (·.index = index)) :
      e.Faithful config source ∧ e.Within source := mem_of_index hmarks hsource he
  rw [lineNumbersOf, List.pairwise_flatMap,
    and_iff_right fun e he => (hmem he).1.pairwise_lineNumbers]
  apply List.Pairwise.iff_of_mem
  intro a b ha hb
  exact lineNumbers_lt_iff (hmem ha).1 (hmem ha).2 (hmem hb).1 (hmem hb).2

/-- **A line is shown as often as excerpts reach it.** -/
theorem count_lineNumbersOf (hmarks : ∀ m ∈ marks, m.Placed sources) {index : Nat}
    (hsource : sources[index]? = some source) {line : Nat} (hline : line < source.lineCount) :
    (lineNumbersOf index (excerpts config sources marks)).count (line + 1)
      = ((excerpts config sources marks).filter (·.index = index)).countP
          (Excerpt.Reaches config line) := by
  have hmem {e : Excerpt} (he : e ∈ (excerpts config sources marks).filter (·.index = index)) :
      e.Faithful config source ∧ e.Within source := mem_of_index hmarks hsource he
  rw [lineNumbersOf, count_flatMap_of_nodup]
  · apply List.countP_congr
    intro e he
    simp [(hmem he).1.mem_lineNumbers (hmem he).2, hline]
  · intro e he
    exact (hmem he).1.pairwise_lineNumbers.imp Nat.ne_of_lt

/-- **The line numbers that a diagnostic shows**, if it is drawn to the end, and the context and the
lines of each source are counted in a machine word.  They go up within each excerpt.  Excerpts are
not made one when their contexts meet, so over all excerpts of one source the numbers go up just if
each excerpt starts further below the one before it than both contexts go.  A line is shown once for
each excerpt that reaches it. -/
theorem render_lineNumbers {config : Config} {sources : List Source} {d : Diagnostic}
    (hfits : config.FitsWord sources) (h : (d.renderInWord config sources).failure = none) :
    ∃ marks es, marks.map Mark.snippet = d.snippets ∧
      (∀ m ∈ marks, sources[m.snippet.source]? = some m.source ∧
        m.source.lineIndex? m.snippet.span.start = some m.line) ∧
      Excerpted config sources marks es ∧
      d.renderInWord config sources
        = header config d ++ (.concat (es.map (Excerpt.drawing config d.severity))
            ++ .concat (d.notes.map (note config)) ++ .text "\n") ∧
      (∀ e ∈ es, e.lineNumbers.Pairwise (· < ·)) ∧
      ∀ index source, sources[index]? = some source →
        ((lineNumbersOf index es).Pairwise (· < ·) ↔
          (es.filter (·.index = index)).Pairwise fun a b =>
            a.last + 2 * config.contextSize < b.first) ∧
        ∀ line < source.lineCount, (lineNumbersOf index es).count (line + 1)
          = (es.filter (·.index = index)).countP (Excerpt.Reaches config line) := by
  obtain ⟨marks, hsnippets, hplaced, hdrawing⟩ := drawing_of_render hfits h
  refine ⟨marks, excerpts config sources marks, hsnippets,
    fun m hm => ⟨(hplaced m hm).1, (hplaced m hm).index_eq⟩, excerpted_excerpts hplaced, hdrawing,
    ?_, ?_⟩
  · intro e he
    obtain ⟨source, -, hfaithful, -⟩ := within_excerpts hplaced he
    exact hfaithful.pairwise_lineNumbers
  · intro index source hsource
    exact ⟨pairwise_lineNumbersOf_iff hplaced hsource,
      fun line => count_lineNumbersOf hplaced hsource⟩

/-- Two lines without snippets between two lines with one: each of them is in the context of one
excerpt, and not of the other. -/
theorem render_lineNumbers_apart :
    let main : Source := ⟨"main", none, "a\nb\nc\nd"⟩
    let above : Snippet := ⟨"p", .primary, 0, ⟨0, 1⟩⟩
    let below : Snippet := ⟨"q", .secondary, 0, ⟨6, 7⟩⟩
    let d : Diagnostic := ⟨.error, none, [below, above], []⟩
    Config.standard.FitsWord [main] ∧ (d.renderInWord .standard [main]).failure = none ∧
      ∃ marks es, marks.map Mark.snippet = d.snippets ∧
        Excerpted .standard [main] marks es ∧
        (∀ e ∈ es, e.lineNumbers.Pairwise (· < ·)) ∧
        ((lineNumbersOf 0 es).Pairwise (· < ·) ↔
          (es.filter (·.index = 0)).Pairwise fun a b => a.last + 2 < b.first) ∧
        (lineNumbersOf 0 es).count 2
          = (es.filter (·.index = 0)).countP (Excerpt.Reaches .standard 1) := by
  intro main above below d
  have habove : (⟨above, main, 0⟩ : Mark).Fits ⟨0, ['a'], ['\n']⟩ [] ['a'] :=
    ⟨by decide, by decide, by decide, by decide⟩
  have hbelow : (⟨below, main, 3⟩ : Mark).Fits ⟨6, ['d'], []⟩ [] ['d'] :=
    ⟨by decide, by decide, by decide, by decide⟩
  have hplaced : ∀ s ∈ d.snippets, ∃ m, mark? [main] s = .ok m ∧
      ∃ line before marked, m.Fits line before marked := by
    intro s hs
    simp only [d, List.mem_cons, List.not_mem_nil, or_false] at hs
    rcases hs with rfl | rfl
    · exact ⟨⟨below, main, 3⟩, by decide, _, _, _, hbelow⟩
    · exact ⟨⟨above, main, 0⟩, by decide, _, _, _, habove⟩
  have hfits : Config.standard.FitsWord [main] := by decide
  have hwhole : (d.renderInWord .standard [main]).failure = none := by
    rw [Diagnostic.renderInWord_eq hfits]
    exact (render_of_fits hplaced).1
  obtain ⟨marks, es, hsnippets, -, hexcerpted, -, hwithin, hover⟩ :=
    render_lineNumbers hfits hwhole
  obtain ⟨hup, hcount⟩ := hover 0 main rfl
  exact ⟨hfits, hwhole, marks, es, hsnippets, hexcerpted, hwithin, hup, hcount 1 (by decide)⟩

/-- A line without snippets between two lines with one.  It is shown with each of them, so the line
numbers do not go up. -/
theorem render_lineNumbers_again :
    let main : Source := ⟨"main", none, "a\nb\nc"⟩
    let above : Snippet := ⟨"p", .primary, 0, ⟨0, 1⟩⟩
    let below : Snippet := ⟨"q", .secondary, 0, ⟨4, 5⟩⟩
    let d : Diagnostic := ⟨.error, some "syntax error", [above, below], []⟩
    let marks : List Mark := [⟨above, main, 0⟩, ⟨below, main, 2⟩]
    marks? [main] d.snippets = .ok marks ∧
      (d.renderInWord .standard [main]).failure = none ∧
      (d.renderInWord .standard [main]).plain
        = "Error: syntax error\nIn main:1:1\n1 │ a\n  │ ^ p\n2 │ b\n"
          ++ "In main:3:1\n2 │ b\n3 │ c\n  │ ^ q\n\n" ∧
      lineNumbersOf 0 (excerpts .standard [main] marks) = [1, 2, 2, 3] ∧
      ¬ (lineNumbersOf 0 (excerpts .standard [main] marks)).Pairwise (· < ·) := by
  intro main above below d marks
  let first : Cluster Mark := ⟨[⟨above, main, 0⟩], ⟨0, 1⟩⟩
  let second : Cluster Mark := ⟨[⟨below, main, 2⟩], ⟨2, 3⟩⟩
  have hmarks : marks? [main] d.snippets = .ok marks := by decide +kernel
  have hgather : Cluster.gather Mark.range marks = [first, second] := by
    rw [Cluster.gather, Cluster.sortByStart_of_pairwise (by decide)]
    rfl
  have hrender : d.render .standard [main] = header .standard d ++
      (.concat [.concat [block .standard .error first, block .standard .error second]]
        ++ .nothing ++ .text "\n") := by
    have hsources : marksBySource marks = [marks] := by decide
    rw [Diagnostic.render_of_marks hmarks]
    simp only [blocks, blocksBy, hsources, List.map_cons, List.map_nil, hgather]
    rfl
  have hexcerpts : excerpts .standard [main] marks
      = [excerptOf .standard main.lines 0 first, excerptOf .standard main.lines 0 second] := by
    have hsources : (marks.map (·.snippet.source)).eraseDups = [0] := by decide
    have hall : marks.filter (·.snippet.source = 0) = marks := by decide
    simp only [excerpts, hsources, List.flatMap_cons, List.flatMap_nil, hall, hgather]
    rfl
  have hnumbers : lineNumbersOf 0 (excerpts .standard [main] marks) = [1, 2, 2, 3] := by
    rw [hexcerpts]
    decide +kernel
  rw [Diagnostic.renderInWord_eq (by decide), hrender, hnumbers]
  exact ⟨hmarks, by decide +kernel, by decide +kernel, rfl, by decide⟩

end Render

end Sapling
