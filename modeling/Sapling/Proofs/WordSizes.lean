import Sapling.Proofs.Rendering

/-!
# Lines counted in machine words

The context below a cluster is added to the line at which the cluster stops.  In a machine word this
sum starts over after the largest size, and then the block of the cluster does not reach its own
last line.  As long as the context and the lines of each source can be counted together, no sum
starts over, and diagnostics are drawn as they are where lines are counted without bound.

## Main definitions

* `Config.FitsWord` — the context and the lines of each source are counted in a machine word.

## Main results

* `Render.mem_shownLinesInWord_iff` — the last line of a cluster is shown just if the sum fits.
* `Diagnostic.renderInWord_eq` — if all sums fit, it does not matter how lines are counted.
-/

namespace Sapling

open Render

/-- The context can be counted in a machine word, together with the lines of any of the sources. -/
def Config.FitsWord (config : Config) (sources : List Source) : Prop :=
  ∀ source ∈ sources, config.contextSize + source.lineCount < wordSize

instance (config : Config) (sources : List Source) : Decidable (config.FitsWord sources) :=
  inferInstanceAs (Decidable (∀ _ ∈ _, _))

namespace Render

variable {config : Config} {severity : Severity} {cover : Span} {lineCount : Nat}

theorem shownLinesInWord_eq (h : cover.stop + config.contextSize < wordSize) :
    shownLinesInWord config cover lineCount = shownLines config cover lineCount := by
  rw [shownLinesInWord, Nat.mod_eq_of_lt h, shownLines]

/-- **The last line of a cluster is shown just if the sum fits**: a sum that starts over stops
before it. -/
theorem mem_shownLinesInWord_iff (hcover : cover.start < cover.stop)
    (hstop : cover.stop ≤ lineCount) (hlines : lineCount < wordSize)
    (hcontext : config.contextSize < wordSize) :
    cover.stop - 1 ∈ (shownLinesInWord config cover lineCount).offsets ↔
      cover.stop + config.contextSize < wordSize := by
  by_cases hfits : cover.stop + config.contextSize < wordSize
  · rw [shownLinesInWord_eq hfits]
    simp only [Span.mem_offsets, shownLines, iff_true, hfits]
    omega
  · have hover : (cover.stop + config.contextSize) % wordSize
        = cover.stop + config.contextSize - wordSize := by
      rw [Nat.mod_eq_sub_mod (Nat.le_of_not_lt hfits), Nat.mod_eq_of_lt (by omega)]
    simp only [Span.mem_offsets, shownLinesInWord, hover, hfits, iff_false]
    omega

/-- Blocks that show the same lines are the same. -/
theorem blockShowing_congr {shown shown' : Span → Nat → Span} {cluster : Cluster Mark}
    (h : ∀ lineCount, shown cluster.cover lineCount = shown' cluster.cover lineCount) :
    blockShowing shown config severity cluster = blockShowing shown' config severity cluster := by
  unfold blockShowing
  split
  · rfl
  · simp only [h]

/-- **The blocks for marks are the same** if the context below each of them fits. -/
theorem blocksInWord_eq {marks : List Mark}
    (h : ∀ m ∈ marks, m.line + 1 + config.contextSize < wordSize) :
    blocksInWord config severity marks = blocks config severity marks := by
  refine congrArg Drawing.concat (List.map_congr_left ?_)
  intro group hgroup
  refine congrArg Drawing.concat (List.map_congr_left ?_)
  intro cluster hcluster
  -- a cluster stops where one of its marks does
  obtain ⟨m, hm, hstop⟩ :=
    (Cluster.coherent_gather (fun m _ => m.start_le_stop) cluster hcluster).stops
  have hmem : m ∈ group := (Cluster.mem_gather Mark.range group m).1 ⟨cluster, hcluster, hm⟩
  obtain ⟨i, -, rfl⟩ := List.mem_map.1 hgroup
  have hfits : cluster.cover.stop + config.contextSize < wordSize :=
    hstop ▸ h m (List.mem_filter.1 hmem).1
  exact blockShowing_congr fun _ => shownLinesInWord_eq hfits

end Render

/-- **As long as all sums fit, it does not matter how lines are counted.** -/
theorem Diagnostic.renderInWord_eq {config : Config} {sources : List Source}
    (h : config.FitsWord sources) (d : Diagnostic) :
    d.renderInWord config sources = d.render config sources := by
  cases hmarks : marks? sources d.snippets with
  | error failure => rw [renderInWord, renderBy_of_error _ hmarks, render_of_error hmarks]
  | ok marks =>
    have hlines : ∀ m ∈ marks, m.line + 1 + config.contextSize < wordSize := by
      intro m hm
      obtain ⟨-, hsource, hindex⟩ := mark_eq_ok ((marks_eq_ok hmarks).2 m hm)
      obtain ⟨line, -, -, hline, -⟩ := Text.exists_line_of_lineIndex? hindex
      have hlt : m.line < m.source.lineCount := (List.getElem?_eq_some_iff.1 hline).1
      have hfits := h m.source (List.mem_of_getElem? hsource)
      omega
    rw [renderInWord, renderBy_of_marks _ hmarks, render_of_marks hmarks, blocksInWord_eq hlines]

end Sapling
