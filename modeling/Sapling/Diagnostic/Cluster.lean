import Sapling.Span

/-!
# Clusters of overlapping ranges

Items that have ranges are gathered into clusters: two neighbours in the order of their starts
belong together unless the later one starts after everything before it has stopped.  Ranges that
only touch belong together.

## Main definitions

* `Cluster` — items, and the range that covers them.
* `Cluster.gather` — the clusters of a list of items.

## Main results

* `Cluster.sweep_cons` — the first item opens a cluster, wherever it starts.
* `Cluster.flatten_gather` — the items of the clusters, one after the other, are the sorted items.
-/

namespace Sapling

/-- Items whose ranges hang together. -/
structure Cluster (α : Type) where
  /-- The items. -/
  items : List α
  /-- The range from the first start to the last stop. -/
  cover : Span

namespace Cluster

variable {α : Type}

/-- Closes a cluster.  Before the first item there is none to close. -/
def close (gathered : List α) (cover : Span) : List (Cluster α) :=
  if gathered.isEmpty then [] else [⟨gathered, cover⟩]

/-- Goes through items in the order of their starts, with a cluster open; answers that cluster and
those after it.  The cover starts where the open cluster does, and stops at the last stop so far,
also that of an item in a cluster which was closed. -/
def sweep (range : α → Span) (gathered : List α) (cover : Span) : List α → List (Cluster α)
  | [] => close gathered cover
  | item :: later =>
    if cover.stop < (range item).start then
      close gathered cover
        ++ sweep range [item] ⟨(range item).start, max cover.stop (range item).stop⟩ later
    else
      sweep range (gathered ++ [item]) ⟨cover.start, max cover.stop (range item).stop⟩ later

/-- The items in the order of their starts; items that start together keep their order. -/
def sortByStart (range : α → Span) (items : List α) : List α :=
  items.mergeSort fun a b => (range a).start ≤ (range b).start

/-- The clusters of some items, in the order of their starts. -/
def gather (range : α → Span) (items : List α) : List (Cluster α) :=
  sweep range [] (.empty 0) (sortByStart range items)

@[simp] theorem close_nil (cover : Span) : close ([] : List α) cover = [] := rfl

theorem flatten_close (gathered : List α) (cover : Span) :
    ((close gathered cover).map Cluster.items).flatten = gathered := by
  cases gathered <;> simp [close]

/-- **The first item opens a cluster with its own range.**  If it starts at zero it joins the cluster
that is open before, which is empty and starts there too. -/
theorem sweep_cons (range : α → Span) (first : α) (later : List α) :
    sweep range [] (.empty 0) (first :: later) = sweep range [first] (range first) later := by
  rw [sweep]
  split
  · rw [close_nil, List.nil_append, Span.empty, Nat.zero_max]
  · next hzero =>
    have hstart : 0 = (range first).start := (Nat.le_zero.1 (Nat.le_of_not_lt hzero)).symm
    rw [List.nil_append, Span.empty, Nat.zero_max, hstart]

/-- The clusters, if there are items: the first of them, when sorted, opens one. -/
theorem gather_eq_sweep {range : α → Span} {items later : List α} {first : α}
    (h : sortByStart range items = first :: later) :
    gather range items = sweep range [first] (range first) later := by
  rw [gather, h, sweep_cons]

theorem gather_eq_nil {range : α → Span} {items : List α} (h : sortByStart range items = []) :
    gather range items = [] := by
  rw [gather, h]
  rfl

theorem flatten_sweep (range : α → Span) (gathered : List α) (cover : Span) (later : List α) :
    ((sweep range gathered cover later).map Cluster.items).flatten = gathered ++ later := by
  induction later generalizing gathered cover with
  | nil => rw [sweep, flatten_close, List.append_nil]
  | cons item later ih =>
    unfold sweep
    split
    · rw [List.map_append, List.flatten_append, flatten_close, ih]
      rfl
    · rw [ih, List.append_assoc]
      rfl

/-- No item is lost, doubled or moved out of order. -/
theorem flatten_gather (range : α → Span) (items : List α) :
    ((gather range items).map Cluster.items).flatten = sortByStart range items :=
  flatten_sweep range [] (.empty 0) (sortByStart range items)

end Cluster

end Sapling
