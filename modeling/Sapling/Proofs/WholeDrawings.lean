import Sapling.Proofs.BrokenDrawings
import Sapling.Proofs.Columns
import Sapling.Proofs.Excerpts
import Sapling.Proofs.WordSizes

/-!
# Diagnostics as excerpts of sources

A diagnostic that is drawn to the end shows excerpts of its sources, and between its header and its
notes nothing else.  Snippets of one source share an excerpt if their lines are neighbours, or are
linked by neighbours.  So every snippet is underlined once, and in its place.

## Main definitions

* `Render.Excerpted` — excerpts that show some snippets, each of them once.
* `Render.excerpts` — the excerpts for the snippets of a diagnostic.

## Main results

* `Render.blocks_eq_drawing` — the blocks for snippets are drawn as their excerpts.
* `Render.excerpted_excerpts` — these show each snippet once.
* `Render.render_excerpts` — diagnostics that are drawn to the end are drawn as excerpts, if their
  context fits.
-/

namespace Sapling

namespace Render

open Text

variable (config : Config)

/-- Excerpts that show some snippets. -/
structure Excerpted (sources : List Source) (marks : List Mark) (excerpts : List Excerpt) :
    Prop where
  /-- Each excerpt is one of a source, and faithful. -/
  faithful : ∀ e ∈ excerpts, ∃ source, sources[e.index]? = some source ∧ e.Faithful config source
  /-- The sources are in the order in which snippets first name them, and the excerpts of one source
  are in the order of its lines, with a line between them on which no snippet starts. -/
  ordered : excerpts.Pairwise fun a b =>
    (marks.map (·.snippet.source)).idxOf a.index < (marks.map (·.snippet.source)).idxOf b.index ∨
      a.index = b.index ∧ a.last + 1 < b.first
  /-- No snippet of the source of an excerpt is left out that starts on the line of one that is in
  it, or next to it. -/
  maximal : ∀ e ∈ excerpts, ∀ m ∈ e.marks, ∀ n ∈ marks, n.snippet.source = e.index →
    n.line ≤ m.line + 1 → m.line ≤ n.line + 1 → n ∈ e.marks
  /-- Each snippet is underlined once in all. -/
  once : ((excerpts.flatMap Excerpt.rows).filterMap (·.body.mark?)).Perm marks
  /-- The snippets of one line keep their order. -/
  stable : ∀ index line, ((excerpts.flatMap Excerpt.rows).filterMap (·.body.mark?)).filter
      (fun m => m.snippet.source = index ∧ m.line = line)
    = marks.filter fun m => m.snippet.source = index ∧ m.line = line

/-- The excerpts for marks in sources. -/
def excerpts (sources : List Source) (marks : List Mark) : List Excerpt :=
  (marks.map (·.snippet.source)).eraseDups.flatMap fun i =>
    (Cluster.gather Mark.range (marks.filter (·.snippet.source = i))).map
      (excerptOf config (sources[i]?.elim [] Source.lines) i)

/-! ### Clusters of snippets -/

section Diagnostics

variable {config} {severity : Severity} {sources : List Source} {marks : List Mark}

/-- A cluster of marks in one source. -/
structure ClusterOf (sources : List Source) (index : Nat) (source : Source) (c : Cluster Mark) :
    Prop where
  /-- The source is the one of the index. -/
  source_eq : sources[index]? = some source
  /-- They are marks in the source. -/
  index_eq : ∀ m ∈ c.items, m.snippet.source = index
  /-- They fit. -/
  fitting : Fitting source c.items
  /-- They hang together. -/
  coherent : Cluster.Coherent Mark.range c

theorem clusterOf_of_mem (hmarks : ∀ m ∈ marks, m.Placed sources) {index : Nat}
    (hindex : index ∈ (marks.map (·.snippet.source)).eraseDups) :
    ∃ source, sources[index]? = some source ∧
      ∀ c ∈ Cluster.gather Mark.range (marks.filter (·.snippet.source = index)),
        ClusterOf sources index source c := by
  obtain ⟨first, hfirst, rfl⟩ := List.mem_map.1 (List.mem_eraseDups.1 hindex)
  refine ⟨first.source, (hmarks first hfirst).1, ?_⟩
  intro c hc
  have hitems : ∀ m ∈ c.items, m ∈ marks ∧ m.snippet.source = first.snippet.source := by
    intro m hm
    have hmem := (Cluster.mem_gather _ _ m).1 ⟨c, hc, hm⟩
    obtain ⟨hmem, hsame⟩ := List.mem_filter.1 hmem
    exact ⟨hmem, of_decide_eq_true hsame⟩
  refine ⟨(hmarks first hfirst).1, fun m hm => (hitems m hm).2, ?_,
    Cluster.coherent_gather (fun m _ => m.start_le_stop) c hc⟩
  intro m hm
  obtain ⟨hmem, hsame⟩ := hitems m hm
  obtain ⟨hsource, hfit⟩ := hmarks m hmem
  rw [hsame, (hmarks first hfirst).1] at hsource
  exact ⟨(Option.some.inj hsource).symm, hfit⟩

/-- The excerpts for marks are those of their clusters. -/
theorem exists_cluster_of_mem (hmarks : ∀ m ∈ marks, m.Placed sources) {e : Excerpt}
    (he : e ∈ excerpts config sources marks) :
    ∃ index source c, ClusterOf sources index source c ∧
      e = excerptOf config source.lines index c := by
  obtain ⟨index, hindex, he⟩ := List.mem_flatMap.1 he
  obtain ⟨source, hsource, hclusters⟩ := clusterOf_of_mem hmarks hindex
  obtain ⟨c, hc, rfl⟩ := List.mem_map.1 he
  exact ⟨index, source, c, hclusters c hc, by rw [hsource]; rfl⟩

/-- **The blocks for marks are drawn as their excerpts.** -/
theorem blocks_eq_drawing (hmarks : ∀ m ∈ marks, m.Placed sources) :
    blocks config severity marks
      = .concat ((excerpts config sources marks).map (Excerpt.drawing config severity)) := by
  rw [blocks, blocksBy, marksBySource, excerpts, List.map_map, List.map_flatMap,
    Drawing.concat_flatMap]
  refine congrArg Drawing.concat (List.map_congr_left ?_)
  intro index hindex
  obtain ⟨source, hsource, hclusters⟩ := clusterOf_of_mem hmarks hindex
  rw [List.map_map]
  refine congrArg Drawing.concat (List.map_congr_left ?_)
  intro c hc
  have hcluster := hclusters c hc
  obtain ⟨m, hm, -⟩ := hcluster.coherent.stops
  rw [Function.comp_apply, hsource]
  exact block_eq_drawing index hcluster.fitting (List.ne_nil_of_mem hm)

/-- The marks of excerpts, one excerpt after the other, are the marks of each source, sorted. -/
theorem marks_excerpts (config : Config) (sources : List Source) (marks : List Mark) :
    (excerpts config sources marks).flatMap Excerpt.marks
      = (marks.map (·.snippet.source)).eraseDups.flatMap fun i =>
          Cluster.sortByStart Mark.range (marks.filter (·.snippet.source = i)) := by
  rw [excerpts, List.flatMap_assoc]
  apply List.flatMap_congr
  intro i _
  rw [← Cluster.flatten_gather, List.flatMap_map, List.flatMap_def]
  rfl

/-- The marks of one source and line are among those of excerpts in the order in which they were. -/
theorem filter_marks_excerpts (config : Config) (sources : List Source) (marks : List Mark)
    (index line : Nat) :
    ((excerpts config sources marks).flatMap Excerpt.marks).filter
        (fun m => m.snippet.source = index ∧ m.line = line)
      = marks.filter fun m => m.snippet.source = index ∧ m.line = line := by
  rw [marks_excerpts, List.filter_flatMap]
  have hsort (i : Nat) (m : Mark)
      (hm : m ∈ Cluster.sortByStart Mark.range (marks.filter (·.snippet.source = i))) :
      m.snippet.source = i := by
    have hmem := (Cluster.perm_sortByStart _ _).mem_iff.1 hm
    exact of_decide_eq_true (List.mem_filter.1 hmem).2
  refine flatMap_eq_of_unique (a := index) ?_ ?_ ?_ ?_
  · refine (pairwise_eraseDups _).imp ?_
    rintro i j hlt rfl
    exact absurd hlt (Nat.lt_irrefl _)
  · intro _
    have hline : (Cluster.sortByStart Mark.range (marks.filter (·.snippet.source = index))).filter
          (fun m => m.snippet.source = index ∧ m.line = line)
        = (Cluster.sortByStart Mark.range (marks.filter (·.snippet.source = index))).filter
          fun m => m.line = line := by
      apply List.filter_congr
      intro m hm
      simp [hsort index m hm]
    rw [hline]
    refine (Cluster.filter_sortByStart Mark.range _ line).trans ?_
    rw [List.filter_filter]
    apply List.filter_congr
    intro m _
    rw [Bool.decide_and]
    exact Bool.and_comm _ _
  · intro hnot
    rw [List.filter_eq_nil_iff]
    intro m hm hboth
    apply hnot
    obtain ⟨rfl, -⟩ := of_decide_eq_true hboth
    exact List.mem_eraseDups.2 (List.mem_map_of_mem hm)
  · intro i _ hne
    rw [List.filter_eq_nil_iff]
    intro m hm hboth
    obtain ⟨rfl, -⟩ := of_decide_eq_true hboth
    exact hne (hsort i m hm).symm

/-- The rows of excerpts underline their marks. -/
theorem underlined_excerpts (hmarks : ∀ m ∈ marks, m.Placed sources) :
    ((excerpts config sources marks).flatMap Excerpt.rows).filterMap (·.body.mark?)
      = (excerpts config sources marks).flatMap Excerpt.marks := by
  rw [List.filterMap_flatMap]
  apply List.flatMap_congr
  intro e he
  obtain ⟨index, source, c, hcluster, rfl⟩ := exists_cluster_of_mem hmarks he
  exact (faithful_excerptOf hcluster.fitting hcluster.index_eq hcluster.coherent).underlined

/-- All marks are among those of the excerpts, each as often as it was. -/
theorem perm_marks_excerpts (config : Config) (sources : List Source) (marks : List Mark) :
    ((excerpts config sources marks).flatMap Excerpt.marks).Perm marks := by
  rw [List.perm_iff_count]
  intro m
  let beside : Mark → Bool := fun n => n.snippet.source = m.snippet.source ∧ n.line = m.line
  have hself : beside m := by simp [beside]
  calc ((excerpts config sources marks).flatMap Excerpt.marks).count m
      = (((excerpts config sources marks).flatMap Excerpt.marks).filter beside).count m :=
        (List.count_filter hself).symm
    _ = (marks.filter beside).count m := by rw [filter_marks_excerpts]
    _ = marks.count m := List.count_filter hself

/-- Clusters of one source are apart, with a line between them on which none of their marks is. -/
theorem last_add_one_lt {lines : List Line} {index : Nat} {c d : Cluster Mark}
    (hc : Cluster.Coherent Mark.range c) (hd : Cluster.Coherent Mark.range d)
    (hapart : ∀ m ∈ d.items, c.cover.stop < (Mark.range m).start) :
    (excerptOf config lines index c).last + 1 < (excerptOf config lines index d).first := by
  obtain ⟨m, -, hstop⟩ := getLast?_line hc
  obtain ⟨first, hfirst, hstart⟩ := Option.map_eq_some_iff.1 hd.starts
  have hlt := hapart first (List.mem_of_head? hfirst)
  simp only [excerptOf]
  omega

/-- **Excerpts are in the order of the sources**, and for one source in the order of its lines. -/
theorem pairwise_excerpts (hmarks : ∀ m ∈ marks, m.Placed sources) :
    (excerpts config sources marks).Pairwise fun a b =>
      (marks.map (·.snippet.source)).idxOf a.index < (marks.map (·.snippet.source)).idxOf b.index ∨
        a.index = b.index ∧ a.last + 1 < b.first := by
  refine List.pairwise_flatMap.2 ⟨?_, ?_⟩
  · intro index hindex
    obtain ⟨source, -, hclusters⟩ := clusterOf_of_mem hmarks hindex
    rw [List.pairwise_map]
    refine (Cluster.separated_gather _ _).imp_of_mem ?_
    intro c d hc hd hapart
    exact Or.inr ⟨rfl, last_add_one_lt (hclusters c hc).coherent (hclusters d hd).coherent hapart⟩
  · refine (pairwise_eraseDups _).imp ?_
    intro i j hlt a ha b hb
    obtain ⟨c, -, rfl⟩ := List.mem_map.1 ha
    obtain ⟨d, -, rfl⟩ := List.mem_map.1 hb
    exact Or.inl hlt

theorem line_bounds (config : Config) (lines : List Line) (index : Nat) {c : Cluster Mark}
    (hcoherent : Cluster.Coherent Mark.range c) {m : Mark} (hm : m ∈ c.items) :
    (excerptOf config lines index c).first ≤ m.line ∧
      m.line ≤ (excerptOf config lines index c).last := by
  obtain ⟨hlow, hhigh⟩ := hcoherent.covers m hm
  simp only [Mark.range] at hlow hhigh
  simp only [excerptOf]
  omega

/-- **The excerpts for marks that fit** show each of them once, and in its place. -/
theorem excerpted_excerpts (hmarks : ∀ m ∈ marks, m.Placed sources) :
    Excerpted config sources marks (excerpts config sources marks) where
  faithful := by
    intro e he
    obtain ⟨index, source, c, hcluster, rfl⟩ := exists_cluster_of_mem hmarks he
    exact ⟨source, hcluster.source_eq,
      faithful_excerptOf hcluster.fitting hcluster.index_eq hcluster.coherent⟩
  ordered := pairwise_excerpts hmarks
  maximal := by
    intro e he m hm n hn hsource hle hge
    have hmem := (perm_marks_excerpts config sources marks).mem_iff.2 hn
    obtain ⟨e', he', hn'⟩ := List.mem_flatMap.1 hmem
    have hordered : (excerpts config sources marks).Pairwise _ := pairwise_excerpts hmarks
    have hrel := rel_of_pairwise hordered he he'
    obtain ⟨index, source, c, hc, rfl⟩ := exists_cluster_of_mem hmarks he
    obtain ⟨index', source', d, hd, rfl⟩ := exists_cluster_of_mem hmarks he'
    obtain ⟨hlow, hhigh⟩ := line_bounds config source.lines index hc.coherent hm
    obtain ⟨hlow', hhigh'⟩ := line_bounds config source'.lines index' hd.coherent hn'
    have hindex : (excerptOf config source'.lines index' d).index
        = (excerptOf config source.lines index c).index :=
      (hd.index_eq n hn').symm.trans hsource
    -- excerpts of one source that are not the same are too far apart
    rcases hrel with heq | (hlt | ⟨-, hlt⟩) | (hlt | ⟨-, hlt⟩)
    · rw [heq]
      exact hn'
    · rw [hindex] at hlt
      exact absurd hlt (Nat.lt_irrefl _)
    · omega
    · rw [hindex] at hlt
      exact absurd hlt (Nat.lt_irrefl _)
    · omega
  once := by
    rw [underlined_excerpts hmarks]
    exact perm_marks_excerpts config sources marks
  stable := by
    intro index line
    rw [underlined_excerpts hmarks]
    exact filter_marks_excerpts config sources marks index line

/-- A diagnostic that is drawn to the end has no snippet that is not valid. -/
theorem valid_of_render {d : Diagnostic} (h : (d.render config sources).failure = none) :
    ∀ s ∈ d.snippets, s.Valid sources := by
  cases hfind : d.snippets.find? (fun s => ¬ s.Valid sources) with
  | none =>
    intro s hs
    simpa using List.find?_eq_none.1 hfind s hs
  | some s =>
    obtain ⟨hs, earlier, later, hsnippets, hearlier⟩ := List.find?_eq_some_iff_append.1 hfind
    have hrender : d.render config sources = _ := render_of_not_valid hsnippets
      (fun e he => by simpa using hearlier e he) (of_decide_eq_true hs)
    rw [hrender] at h
    cases h

/-- **The snippets of a diagnostic that is drawn to the end** have their places, and fit. -/
theorem placed_of_render {d : Diagnostic} (h : (d.render config sources).failure = none) :
    ∃ marks, marks? sources d.snippets = .ok marks ∧ marks.map Mark.snippet = d.snippets ∧
      ∀ m ∈ marks, m.Placed sources := by
  have hvalid := valid_of_render h
  have hcut : ∀ s ∈ d.snippets, ¬ s.Cut sources := by
    intro s hs hcut
    have hfailure : (d.render config sources).failure = _ :=
      (render_cutIff hvalid).cut ⟨s, hs, hcut⟩
    rw [h] at hfailure
    cases hfailure
  obtain ⟨marks, hmarks, hsnippets, hplaces⟩ :=
    marks_of_forall fun s hs => exists_mark (hvalid s hs)
  refine ⟨marks, hmarks, hsnippets, ?_⟩
  intro m hm
  obtain ⟨-, hsource, hindex⟩ := mark_eq_ok (hplaces m hm)
  obtain ⟨line, -, -, hline, -⟩ := exists_line_of_lineIndex? hindex
  have hnot := hcut m.snippet (hsnippets ▸ List.mem_map_of_mem hm)
  rw [cut_iff (hplaces m hm) hline, not_or, Classical.not_not, Classical.not_not] at hnot
  obtain ⟨before, marked, rest, -, -, -, hfits⟩ :=
    exists_parts_of_mark hindex hline hnot.1 hnot.2
  exact ⟨hsource, line, _, marked, hfits⟩

/-- A diagnostic that is drawn to the end is drawn as the excerpts for its snippets. -/
theorem drawing_of_render {d : Diagnostic} (hfits : config.FitsWord sources)
    (h : (d.renderInWord config sources).failure = none) :
    ∃ marks, marks.map Mark.snippet = d.snippets ∧ (∀ m ∈ marks, m.Placed sources) ∧
      d.renderInWord config sources
        = header config d ++
          (.concat ((excerpts config sources marks).map (Excerpt.drawing config d.severity))
            ++ .concat (d.notes.map (note config)) ++ .text "\n") := by
  rw [Diagnostic.renderInWord_eq hfits] at h ⊢
  obtain ⟨marks, hmarks, hsnippets, hplaced⟩ := placed_of_render h
  refine ⟨marks, hsnippets, hplaced, ?_⟩
  rw [Diagnostic.render_of_marks hmarks, ← blocks_eq_drawing hplaced]

end Diagnostics

end Render

end Sapling
