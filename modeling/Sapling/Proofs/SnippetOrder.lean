import Sapling.Proofs.BrokenDrawings
import Sapling.Proofs.KeyedLists

/-!
# Snippets in another order

Snippets are drawn source by source, and those of one source line by line.  The order in which a
diagnostic lists them matters in two ways only: it decides which source comes first, and which of
the snippets that start on one line is underlined first.

## Main definitions

* `Snippet.line?` — the line that a snippet starts on.

## Main results

* `Cluster.gather_congr` — items are gathered alike if those that start together are in order.
* `Render.blocks_congr` — the blocks for marks, likewise.
* `Diagnostic.render_of_perm` — diagnostics are drawn alike.
-/

namespace Sapling

/-- The index of the line that a snippet starts on. -/
def Snippet.line? (sources : List Source) (s : Snippet) : Option Nat :=
  sources[s.source]?.bind (·.lineIndex? s.span.start)

/-! ### Items and marks in another order -/

namespace Cluster

variable {α : Type} {range : α → Span} {items items' : List α}

/-- Items are in the same order, once sorted, if those that start together are. -/
theorem sortByStart_congr (h : ∀ start, items.filter (fun item => (range item).start = start)
      = items'.filter fun item => (range item).start = start) :
    sortByStart range items = sortByStart range items' := by
  refine eq_of_filter_eq (pairwise_sortByStart range items) (pairwise_sortByStart range items') ?_
  intro start
  rw [filter_sortByStart, filter_sortByStart, h]

/-- **Items are gathered alike** if those that start together are in the same order. -/
theorem gather_congr (h : ∀ start, items.filter (fun item => (range item).start = start)
      = items'.filter fun item => (range item).start = start) :
    gather range items = gather range items' := by
  rw [gather, gather, sortByStart_congr h]

end Cluster

namespace Render

variable {config : Config} {severity : Severity} {sources : List Source}

/-- **The blocks for marks are the same** if the sources come first in the same order, and the marks
of each line are in the same order. -/
theorem blocks_congr {marks marks' : List Mark}
    (hfirst : (marks.map (·.snippet.source)).eraseDups = (marks'.map (·.snippet.source)).eraseDups)
    (hlines : ∀ index line, marks.filter (fun m => m.snippet.source = index ∧ m.line = line)
      = marks'.filter fun m => m.snippet.source = index ∧ m.line = line) :
    blocks config severity marks = blocks config severity marks' := by
  rw [blocks, blocks, blocksBy, blocksBy, marksBySource, marksBySource, hfirst, List.map_map,
    List.map_map]
  refine congrArg Drawing.concat (List.map_congr_left ?_)
  intro index _
  have hparts (ms : List Mark) (line : Nat) :
      (ms.filter (·.snippet.source = index)).filter (fun m => m.range.start = line)
        = ms.filter fun m => m.snippet.source = index ∧ m.line = line := by
    rw [List.filter_filter]
    apply List.filter_congr
    intro m _
    rw [Bool.decide_and]
    exact Bool.and_comm _ _
  have hgather : Cluster.gather Mark.range (marks.filter (·.snippet.source = index))
      = Cluster.gather Mark.range (marks'.filter (·.snippet.source = index)) :=
    Cluster.gather_congr fun line => by rw [hparts, hparts, hlines]
  rw [Function.comp_apply, Function.comp_apply, hgather]

/-- The marks of a line are the places of the snippets that start on it. -/
theorem filter_marks {marks : List Mark} (hplaces : ∀ m ∈ marks, mark? sources m.snippet = .ok m)
    (index line : Nat) : marks.filter (fun m => m.snippet.source = index ∧ m.line = line)
      = ((marks.map Mark.snippet).filter
          fun s => s.source = index ∧ s.line? sources = some line).filterMap
            fun s => (mark? sources s).toOption := by
  have hsame : marks.filter (fun m => m.snippet.source = index ∧ m.line = line)
      = marks.filter ((fun s => decide (s.source = index ∧ s.line? sources = some line))
          ∘ Mark.snippet) := by
    apply List.filter_congr
    intro m hm
    obtain ⟨-, hsource, hline⟩ := mark_eq_ok (hplaces m hm)
    rw [Function.comp_apply, Snippet.line?, hsource, Option.bind_some, hline]
    simp only [Option.some.injEq]
  have hself : ∀ m ∈ marks.filter (fun m => m.snippet.source = index ∧ m.line = line),
      ((fun s => (mark? sources s).toOption) ∘ Mark.snippet) m = some m := by
    intro m hm
    rw [Function.comp_apply, hplaces m (List.mem_filter.1 hm).1]
    rfl
  rw [List.filter_map, List.filterMap_map, ← hsame, List.filterMap_congr hself, List.filterMap_some]

end Render

/-! ### Diagnostics -/

namespace Diagnostic

open Render

/-- **The order in which snippets are listed does not matter across lines.**  If diagnostics differ
by the order of their snippets only, all of which are valid, then they are drawn alike, as long as
the sources first appear in the same order, and the snippets that start on one line of a source are
in the same order. -/
theorem render_of_perm (config : Config) {sources : List Source} {d : Diagnostic}
    {snippets : List Snippet} (hperm : snippets.Perm d.snippets)
    (hvalid : ∀ s ∈ d.snippets, s.Valid sources)
    (hfirst : (snippets.map (·.source)).eraseDups = (d.snippets.map (·.source)).eraseDups)
    (hlines : ∀ index line,
      snippets.filter (fun s => s.source = index ∧ s.line? sources = some line)
        = d.snippets.filter fun s => s.source = index ∧ s.line? sources = some line) :
    { d with snippets := snippets }.render config sources = d.render config sources := by
  have hvalid' : ∀ s ∈ snippets, s.Valid sources := fun s hs => hvalid s (hperm.mem_iff.1 hs)
  obtain ⟨marks, hmarks, rfl, hplaces⟩ := marks_of_forall fun s hs => exists_mark (hvalid' s hs)
  obtain ⟨marks', hmarks', hsnippets, hplaces'⟩ :=
    marks_of_forall fun s hs => exists_mark (hvalid s hs)
  have hblocks : blocks config d.severity marks = blocks config d.severity marks' := by
    refine blocks_congr ?_ ?_
    · rw [← hsnippets, List.map_map, List.map_map] at hfirst
      exact hfirst
    · intro index line
      rw [filter_marks hplaces, filter_marks hplaces', hlines, hsnippets]
  rw [render_of_marks hmarks, render_of_marks hmarks']
  exact congrArg (fun drawing => header config d
    ++ (drawing ++ .concat (d.notes.map (note config)) ++ .text "\n")) hblocks

/-- Two snippets on one line, one below it and one in another source: the latter two can come
first. -/
theorem render_of_perm_lines :
    let sources : List Source := [⟨"main", none, "ab\nc\nd"⟩, ⟨"other", none, "e"⟩]
    let left : Snippet := ⟨"left", .primary, 0, ⟨0, 1⟩⟩
    let right : Snippet := ⟨"right", .secondary, 0, ⟨1, 2⟩⟩
    let below : Snippet := ⟨"below", .secondary, 0, ⟨5, 6⟩⟩
    let elsewhere : Snippet := ⟨"elsewhere", .secondary, 1, ⟨0, 1⟩⟩
    let d : Diagnostic := ⟨.error, none, [left, right, below, elsewhere], []⟩
    let snippets := [below, elsewhere, left, right]
    snippets.Perm d.snippets ∧ (∀ s ∈ d.snippets, s.Valid sources) ∧
      (snippets.map (·.source)).eraseDups = (d.snippets.map (·.source)).eraseDups ∧
      (∀ index line, snippets.filter (fun s => s.source = index ∧ s.line? sources = some line)
        = d.snippets.filter fun s => s.source = index ∧ s.line? sources = some line) ∧
      { d with snippets := snippets }.render .standard sources = d.render .standard sources := by
  intro sources left right below elsewhere d snippets
  have hperm : snippets.Perm d.snippets := by decide
  have hvalid : ∀ s ∈ d.snippets, s.Valid sources := by decide
  have hfirst : (snippets.map (·.source)).eraseDups = (d.snippets.map (·.source)).eraseDups := by
    decide
  have hlines (index line : Nat) :
      snippets.filter (fun s => s.source = index ∧ s.line? sources = some line)
        = d.snippets.filter fun s => s.source = index ∧ s.line? sources = some line := by
    have hleft : left.line? sources = some 0 := by decide
    have hright : right.line? sources = some 0 := by decide
    have hbelow : below.line? sources = some 2 := by decide
    -- no line holds one of the two snippets that were moved and one of the others
    simp only [snippets, d, List.filter_cons, List.filter_nil, hleft, hright, hbelow]
    grind
  exact ⟨hperm, hvalid, hfirst, hlines, render_of_perm .standard hperm hvalid hfirst hlines⟩

end Diagnostic

end Sapling
