import Sapling.Diagnostic.Cluster

/-!
# Clusters cover their items

While items are gathered in the order of their starts, the range of the open cluster covers the
items that were gathered so far, and starts where no later item starts before.  An item joins it
just if it starts before the cover stops, or where it stops; and there an item stops that is in it
already.  So each item of a cluster touches an earlier one, and none touches an item of another
cluster.

## Main definitions

* `Cluster.Covers range c` — the cover of a cluster reaches over the ranges of all its items.
* `Cluster.Coherent range c` — the items of a cluster hang together, and its cover reaches no
  further than they do.

## Main results

* `Cluster.mem_gather` — each item is in some cluster, and clusters have no other items.
* `Cluster.filter_sortByStart` — items that start together keep their order.
* `Cluster.coherent_gather`, `Cluster.covers_gather` — every cluster is coherent, and covers its
  items.
* `Cluster.separated_gather` — a cluster stops before the next one starts.
-/

namespace Sapling.Cluster

variable {α : Type} {range : α → Span}

/-- The cover of a cluster reaches over the ranges of all its items. -/
def Covers (range : α → Span) (c : Cluster α) : Prop :=
  ∀ item ∈ c.items, c.cover.start ≤ (range item).start ∧ (range item).stop ≤ c.cover.stop

/-- Each item is in some cluster, and clusters have no other items. -/
theorem mem_gather (range : α → Span) (items : List α) (item : α) :
    (∃ c ∈ gather range items, item ∈ c.items) ↔ item ∈ items := by
  have hsorted : item ∈ sortByStart range items ↔ item ∈ items := List.mem_mergeSort
  rw [← hsorted, ← flatten_gather, List.mem_flatten]
  constructor
  · rintro ⟨c, hc, hitem⟩
    exact ⟨c.items, List.mem_map_of_mem hc, hitem⟩
  · rintro ⟨_, hmem, hitem⟩
    obtain ⟨c, hc, rfl⟩ := List.mem_map.1 hmem
    exact ⟨c, hc, hitem⟩

/-! ### Sorting -/

theorem pairwise_sortByStart (range : α → Span) (items : List α) :
    (sortByStart range items).Pairwise fun a b => (range a).start ≤ (range b).start := by
  have h : (sortByStart range items).Pairwise
      fun a b => decide ((range a).start ≤ (range b).start) = true :=
    List.pairwise_mergeSort (by simpa using fun a b c => Nat.le_trans)
      (by simpa using fun a b => Nat.le_total _ _) items
  simpa using h

theorem perm_sortByStart (range : α → Span) (items : List α) :
    (sortByStart range items).Perm items := List.mergeSort_perm _ _

/-- Items that are in order stay as they are. -/
theorem sortByStart_of_pairwise {range : α → Span} {items : List α}
    (h : items.Pairwise fun a b => (range a).start ≤ (range b).start) :
    sortByStart range items = items :=
  List.mergeSort_of_pairwise (by simpa using h)

/-- **Items that start together keep their order.** -/
theorem filter_sortByStart (range : α → Span) (items : List α) (start : Nat) :
    (sortByStart range items).filter (fun item => (range item).start = start)
      = items.filter fun item => (range item).start = start := by
  -- they are in order as they stand, so sorting leaves them as a part of the whole
  have hordered : (items.filter fun item => (range item).start = start).Pairwise
      fun a b => decide ((range a).start ≤ (range b).start) = true := by
    refine List.pairwise_of_forall_mem_list ?_
    intro a ha b hb
    have hstart := (List.mem_filter.1 ha).2
    have hstart' := (List.mem_filter.1 hb).2
    simp only [decide_eq_true_eq] at hstart hstart' ⊢
    omega
  have hsublist : (items.filter fun item => (range item).start = start).Sublist
      (sortByStart range items) :=
    List.sublist_mergeSort (by simpa using fun a b c => Nat.le_trans)
      (by simpa using fun a b => Nat.le_total _ _) hordered List.filter_sublist
  have hfilter := hsublist.filter fun item => (range item).start = start
  rw [List.filter_filter] at hfilter
  simp only [Bool.and_self] at hfilter
  refine (hfilter.eq_of_length ?_).symm
  exact ((perm_sortByStart range items).filter _).length_eq.symm

/-! ### Coherent clusters -/

/-- The items of a cluster are in the order of their starts, each of them touches an earlier one,
and the cover reaches from the first start to the last stop. -/
structure Coherent (range : α → Span) (c : Cluster α) : Prop where
  /-- The cover reaches over the items. -/
  covers : Covers range c
  /-- It starts with the first of them. -/
  starts : c.items.head?.map (fun item => (range item).start) = some c.cover.start
  /-- It stops with one of them. -/
  stops : ∃ item ∈ c.items, (range item).stop = c.cover.stop
  /-- The items are in order. -/
  sorted : c.items.Pairwise fun a b => (range a).start ≤ (range b).start
  /-- Every item but the first starts at or before where an earlier one stops. -/
  linked : ∀ earlier item later, c.items = earlier ++ item :: later → earlier ≠ [] →
    ∃ e ∈ earlier, (range item).start ≤ (range e).stop

namespace Coherent

theorem single (range : α → Span) (item : α) : Coherent range ⟨[item], range item⟩ where
  covers := by simp [Covers]
  starts := rfl
  stops := ⟨item, List.mem_singleton_self _, rfl⟩
  sorted := List.pairwise_singleton _ _
  linked := by
    intro earlier next later hitems hne
    rcases List.append_eq_singleton_iff.1 hitems.symm with ⟨rfl, -⟩ | ⟨-, hnil⟩
    · exact absurd rfl hne
    · cases hnil

/-- **An item that touches the cover can be added.** -/
theorem extend {gathered : List α} {cover : Span} (h : Coherent range ⟨gathered, cover⟩) {next : α}
    (hafter : ∀ item ∈ gathered, (range item).start ≤ (range next).start)
    (htouches : (range next).start ≤ cover.stop) :
    Coherent range ⟨gathered ++ [next], ⟨cover.start, max cover.stop (range next).stop⟩⟩ where
  covers := by
    intro item hitem
    rcases List.mem_append.1 hitem with hitem | hitem
    · obtain ⟨hlow, hhigh⟩ := h.covers item hitem
      exact ⟨hlow, Nat.le_trans hhigh (Nat.le_max_left _ _)⟩
    · obtain rfl := List.mem_singleton.1 hitem
      obtain ⟨first, hfirst, hstart⟩ := Option.map_eq_some_iff.1 h.starts
      have hle := hafter first (List.mem_of_head? hfirst)
      exact ⟨hstart ▸ hle, Nat.le_max_right _ _⟩
  starts := by
    obtain ⟨first, hfirst, hstart⟩ := Option.map_eq_some_iff.1 h.starts
    rw [List.head?_append, hfirst, Option.some_or, Option.map_some, hstart]
  stops := by
    obtain ⟨item, hitem, hstop⟩ := h.stops
    by_cases hle : (range next).stop ≤ cover.stop
    · exact ⟨item, List.mem_append_left _ hitem, by rw [hstop, Nat.max_eq_left hle]⟩
    · exact ⟨next, by simp, by rw [Nat.max_eq_right (by omega)]⟩
  sorted := by
    refine List.pairwise_append.2 ⟨h.sorted, List.pairwise_singleton _ _, ?_⟩
    intro a ha b hb
    obtain rfl := List.mem_singleton.1 hb
    exact hafter a ha
  linked := by
    intro earlier item later hitems hne
    rcases List.eq_nil_or_concat later with rfl | ⟨later, last, rfl⟩
    · -- the added item touches the one with which the cover stops
      obtain ⟨rfl, hlast⟩ := List.append_inj' hitems rfl
      obtain rfl : next = item := by simpa using hlast
      obtain ⟨e, he, hstop⟩ := h.stops
      exact ⟨e, he, hstop ▸ htouches⟩
    · have hsplit : gathered ++ [next] = (earlier ++ item :: later) ++ [last] := by
        simpa using hitems
      obtain ⟨hgathered, -⟩ := List.append_inj' hsplit rfl
      exact h.linked earlier item later hgathered hne

end Coherent

/-- A cluster that is closed is the open one. -/
theorem eq_of_mem_close {gathered : List α} {cover : Span} {c : Cluster α}
    (hc : c ∈ close gathered cover) : c = ⟨gathered, cover⟩ := by
  cases gathered with
  | nil => cases hc
  | cons item gathered => exact List.mem_singleton.1 hc

theorem pairwise_close (gathered : List α) (cover : Span) (R : Cluster α → Cluster α → Prop) :
    (close gathered cover).Pairwise R := by
  cases gathered with
  | nil => exact List.Pairwise.nil
  | cons item gathered => exact List.pairwise_singleton _ _

/-- **The open cluster stays coherent**, and so are all clusters after it. -/
theorem coherent_sweep {later : List α} : ∀ {gathered : List α} {cover : Span},
    Coherent range ⟨gathered, cover⟩ →
      (∀ item ∈ gathered, ∀ next ∈ later, (range item).start ≤ (range next).start) →
        (later.Pairwise fun a b => (range a).start ≤ (range b).start) →
          (∀ next ∈ later, (range next).start ≤ (range next).stop) →
            ∀ c ∈ sweep range gathered cover later, Coherent range c := by
  induction later with
  | nil =>
    intro gathered cover hopen _ _ _ c hc
    obtain rfl := eq_of_mem_close hc
    exact hopen
  | cons next later ih =>
    intro gathered cover hopen hafter hsorted hle
    obtain ⟨hnext, hsorted⟩ := List.pairwise_cons.1 hsorted
    obtain ⟨hnextle, hle⟩ := List.forall_mem_cons.1 hle
    unfold sweep
    split
    · next hapart =>
      -- the next item opens a cluster of its own: nothing that came before stops after it
      have hmax : max cover.stop (range next).stop = (range next).stop :=
        Nat.max_eq_right (Nat.le_of_lt (Nat.lt_of_lt_of_le hapart hnextle))
      have hsingle := ih (.single range next) ?_ hsorted hle
      · rw [hmax]
        exact List.forall_mem_append.2 ⟨fun c hc => eq_of_mem_close hc ▸ hopen, hsingle⟩
      · intro item hitem
        obtain rfl := List.mem_singleton.1 hitem
        exact hnext
    · next htouches =>
      have hbefore : ∀ item ∈ gathered, (range item).start ≤ (range next).start :=
        fun item hitem => hafter item hitem next List.mem_cons_self
      refine ih (hopen.extend hbefore (Nat.le_of_not_lt htouches)) ?_ hsorted hle
      intro item hitem later' hlater
      rcases List.mem_append.1 hitem with hitem | hitem
      · exact hafter item hitem later' (List.mem_cons_of_mem _ hlater)
      · obtain rfl := List.mem_singleton.1 hitem
        exact hnext later' hlater

/-- **Every cluster is coherent**, if no range stops before it starts. -/
theorem coherent_gather {items : List α}
    (hle : ∀ item ∈ items, (range item).start ≤ (range item).stop) :
    ∀ c ∈ gather range items, Coherent range c := by
  cases hitems : sortByStart range items with
  | nil =>
    rw [gather_eq_nil hitems]
    exact List.forall_mem_nil _
  | cons first later =>
    have hsorted := pairwise_sortByStart range items
    have hmem : ∀ item ∈ first :: later, (range item).start ≤ (range item).stop :=
      fun item hitem => hle item ((perm_sortByStart range items).mem_iff.1 (hitems ▸ hitem))
    rw [hitems] at hsorted
    obtain ⟨hfirst, hsorted⟩ := List.pairwise_cons.1 hsorted
    rw [gather_eq_sweep hitems]
    refine coherent_sweep (.single range first) ?_ hsorted (List.forall_mem_cons.1 hmem).2
    intro item hitem
    obtain rfl := List.mem_singleton.1 hitem
    exact hfirst

/-- **Every cluster covers its items**, if no range stops before it starts. -/
theorem covers_gather {items : List α}
    (hle : ∀ item ∈ items, (range item).start ≤ (range item).stop) :
    ∀ c ∈ gather range items, Covers range c :=
  fun c hc => (coherent_gather hle c hc).covers

/-! ### Clusters are apart -/

theorem mem_of_mem_sweep {gathered later : List α} {cover : Span} {c : Cluster α}
    (hc : c ∈ sweep range gathered cover later) {item : α} (hitem : item ∈ c.items) :
    item ∈ gathered ∨ item ∈ later := by
  rw [← List.mem_append, ← flatten_sweep range gathered cover later]
  exact List.mem_flatten.2 ⟨c.items, List.mem_map_of_mem hc, hitem⟩

/-- A cluster stops before the items of all later clusters start. -/
theorem separated_sweep {later : List α} : ∀ {gathered : List α} {cover : Span},
    (later.Pairwise fun a b => (range a).start ≤ (range b).start) →
      (sweep range gathered cover later).Pairwise fun c d =>
        ∀ item ∈ d.items, c.cover.stop < (range item).start := by
  induction later with
  | nil => exact fun _ => pairwise_close _ _ _
  | cons next later ih =>
    intro gathered cover hsorted
    obtain ⟨hnext, hsorted⟩ := List.pairwise_cons.1 hsorted
    unfold sweep
    split
    · next hapart =>
      refine List.pairwise_append.2 ⟨pairwise_close _ _ _, ih hsorted, ?_⟩
      intro c hc d hd item hitem
      obtain rfl := eq_of_mem_close hc
      rcases mem_of_mem_sweep hd hitem with hmem | hmem
      · obtain rfl := List.mem_singleton.1 hmem
        exact hapart
      · exact Nat.lt_of_lt_of_le hapart (hnext item hmem)
    · exact ih hsorted

/-- **Every cluster stops before the items of all later clusters start.** -/
theorem separated_gather (range : α → Span) (items : List α) :
    (gather range items).Pairwise fun c d =>
      ∀ item ∈ d.items, c.cover.stop < (range item).start :=
  separated_sweep (pairwise_sortByStart range items)

end Sapling.Cluster
