import Mathlib.Data.List.Induction
import Mathlib.Logic.Relation
import Mathlib.Order.Bounds.Basic
import Sapling.Proofs.Clusters

/-!
# Clusters are connected components

Two ranges touch if they have a place in common, where a range has both of its ends.  Items whose
ranges touch are linked, and so are the ends of a chain of such items.  The clusters of some items
are the classes of this relation: within a cluster every item touches an earlier one, and an item
that touches one of a cluster does not start after the cluster has stopped.

## Main definitions

* `Span.Touches` — ranges with a place in common.
* `Cluster.Linked range items` — items at the ends of a chain of touching items.

## Main results

* `Cluster.Coherent.linked_of_mem` — the items of a cluster are linked.
* `Cluster.mem_of_linked` — items that are linked to one of a cluster are in it.
* `Cluster.gather_components` — the clusters are the classes of linked items, in order.
-/

namespace Sapling

/-- The ranges have a place in common, their ends included. -/
def Span.Touches (s t : Span) : Prop := s.start ≤ t.stop ∧ t.start ≤ s.stop

instance (s t : Span) : Decidable (s.Touches t) := inferInstanceAs (Decidable (_ ∧ _))

theorem Span.Touches.symm {s t : Span} (h : s.Touches t) : t.Touches s := And.symm h

namespace Cluster

variable {α : Type} {range : α → Span} {items : List α}

/-- The items are the ends of a chain of items, each of which touches the next one. -/
def Linked (range : α → Span) (items : List α) : α → α → Prop :=
  Relation.ReflTransGen fun a b => a ∈ items ∧ b ∈ items ∧ (range a).Touches (range b)

namespace Linked

variable {a b : α}

theorem symm (h : Linked range items a b) : Linked range items b a := by
  induction h with
  | refl => exact .refl
  | tail _ hstep ih =>
    obtain ⟨hb, hc, htouches⟩ := hstep
    exact .head ⟨hc, hb, htouches.symm⟩ ih

theorem of_touches (ha : a ∈ items) (hb : b ∈ items) (h : (range a).Touches (range b)) :
    Linked range items a b := .single ⟨ha, hb, h⟩

theorem mono {more : List α} (hsub : ∀ a ∈ items, a ∈ more) (h : Linked range items a b) :
    Linked range more a b := by
  refine Relation.ReflTransGen.mono ?_ _ _ h
  rintro a b ⟨ha, hb, htouches⟩
  exact ⟨hsub a ha, hsub b hb, htouches⟩

end Linked

/-! ### Items of one cluster -/

/-- The first items of a cluster are linked, however many of them are taken. -/
theorem Coherent.linked_of_prefix {c : Cluster α} (h : Coherent range c)
    (hle : ∀ item ∈ c.items, (range item).start ≤ (range item).stop) (front : List α) :
    ∀ rest, c.items = front ++ rest → ∀ a ∈ front, ∀ b ∈ front, Linked range c.items a b := by
  induction front using List.reverseRecOn with
  | nil => exact fun _ _ a ha => absurd ha List.not_mem_nil
  | append_singleton front last ih =>
    intro rest hitems
    have hsplit : c.items = front ++ last :: rest := by rw [hitems, List.append_assoc]; rfl
    have hmem {e : α} (he : e ∈ front ++ [last]) : e ∈ c.items :=
      hitems ▸ List.mem_append_left rest he
    -- the last of them touches an earlier one, so it is linked to all of them
    have hlast : ∀ a ∈ front, Linked range c.items a last := by
      intro a ha
      obtain ⟨e, he, hstart⟩ := h.linked front last rest hsplit (List.ne_nil_of_mem ha)
      have hbefore : (range e).start ≤ (range last).start :=
        (List.pairwise_append.1 (hsplit ▸ h.sorted)).2.2 e he last List.mem_cons_self
      have hstop := hle last (hmem (by simp))
      have hstep : Linked range c.items e last := .of_touches (hmem (List.mem_append_left _ he))
        (hmem (by simp)) ⟨Nat.le_trans hbefore hstop, hstart⟩
      exact (ih _ hsplit a ha e he).trans hstep
    intro a ha b hb
    rcases List.mem_append.1 ha with ha | ha <;> rcases List.mem_append.1 hb with hb | hb
    · exact ih _ hsplit a ha b hb
    · exact List.mem_singleton.1 hb ▸ hlast a ha
    · exact List.mem_singleton.1 ha ▸ (hlast b hb).symm
    · rw [List.mem_singleton.1 ha, List.mem_singleton.1 hb]
      exact .refl

/-- **The items of a cluster are linked.** -/
theorem Coherent.linked_of_mem {c : Cluster α} (h : Coherent range c)
    (hle : ∀ item ∈ c.items, (range item).start ≤ (range item).stop) {a b : α}
    (ha : a ∈ c.items) (hb : b ∈ c.items) : Linked range c.items a b :=
  h.linked_of_prefix hle c.items [] (List.append_nil _).symm a ha b hb

/-! ### Items of all clusters -/

section Gathered

variable {i j : Nat} {c d : Cluster α} {a b : α}
  (hle : ∀ item ∈ items, (range item).start ≤ (range item).stop)

theorem mem_of_getElem? (hc : (gather range items)[i]? = some c) (ha : a ∈ c.items) : a ∈ items :=
  (mem_gather range items a).1 ⟨c, List.mem_of_getElem? hc, ha⟩

include hle

theorem coherent_of_getElem? (hc : (gather range items)[i]? = some c) : Coherent range c :=
  coherent_gather hle c (List.mem_of_getElem? hc)

/-- Items of a cluster stop before the items of all later clusters start. -/
theorem stop_lt_start (hc : (gather range items)[i]? = some c)
    (hd : (gather range items)[j]? = some d) (hlt : i < j) (ha : a ∈ c.items) (hb : b ∈ d.items) :
    (range a).stop < (range b).start := by
  obtain ⟨hi, rfl⟩ := List.getElem?_eq_some_iff.1 hc
  obtain ⟨hj, rfl⟩ := List.getElem?_eq_some_iff.1 hd
  have hapart := List.pairwise_iff_getElem.1 (separated_gather range items) i j hi hj hlt b hb
  exact Nat.lt_of_le_of_lt ((coherent_of_getElem? hle hc).covers a ha).2 hapart

/-- **Items that touch are in one cluster.** -/
theorem index_eq_of_touches (hc : (gather range items)[i]? = some c)
    (hd : (gather range items)[j]? = some d) (ha : a ∈ c.items) (hb : b ∈ d.items)
    (h : (range a).Touches (range b)) : i = j := by
  rcases Nat.lt_trichotomy i j with hlt | heq | hgt
  · exact absurd h.2 (Nat.not_le_of_lt (stop_lt_start hle hc hd hlt ha hb))
  · exact heq
  · exact absurd h.1 (Nat.not_le_of_lt (stop_lt_start hle hd hc hgt hb ha))

/-- **Items that are linked to one of a cluster are in it.** -/
theorem mem_of_linked (hc : (gather range items)[i]? = some c) (ha : a ∈ c.items)
    (h : Linked range items a b) : b ∈ c.items := by
  induction h with
  | refl => exact ha
  | tail _ hstep ih =>
    obtain ⟨-, hmem, htouches⟩ := hstep
    obtain ⟨d, hd, hb⟩ := (mem_gather range items _).2 hmem
    obtain ⟨j, hd⟩ := List.mem_iff_getElem?.1 hd
    obtain rfl := index_eq_of_touches hle hc hd ih hb htouches
    obtain rfl := Option.some.inj (hc.symm.trans hd)
    exact hb

/-- Two items are in the same cluster just if they are linked. -/
theorem index_eq_iff_linked (hc : (gather range items)[i]? = some c)
    (hd : (gather range items)[j]? = some d) (ha : a ∈ c.items) (hb : b ∈ d.items) :
    i = j ↔ Linked range items a b := by
  constructor
  · rintro rfl
    obtain rfl := Option.some.inj (hc.symm.trans hd)
    have hmem {e : α} (he : e ∈ c.items) : e ∈ items := mem_of_getElem? hc he
    exact ((coherent_of_getElem? hle hc).linked_of_mem (fun e he => hle e (hmem he)) ha hb).mono
      fun _ => hmem
  · intro h
    have hself := hle b (mem_of_getElem? hd hb)
    exact index_eq_of_touches hle hc hd (mem_of_linked hle hc ha h) hb ⟨hself, hself⟩

end Gathered

/-- The cover of a coherent cluster goes from the least start to the greatest stop. -/
theorem Coherent.isLeast_isGreatest {c : Cluster α} (h : Coherent range c) :
    IsLeast {n | ∃ item ∈ c.items, (range item).start = n} c.cover.start ∧
      IsGreatest {n | ∃ item ∈ c.items, (range item).stop = n} c.cover.stop := by
  obtain ⟨first, hfirst, hstart⟩ := Option.map_eq_some_iff.1 h.starts
  refine ⟨⟨⟨first, List.mem_of_head? hfirst, hstart⟩, ?_⟩, ⟨h.stops, ?_⟩⟩
  · rintro n ⟨item, hitem, rfl⟩
    exact (h.covers item hitem).1
  · rintro n ⟨item, hitem, rfl⟩
    exact (h.covers item hitem).2

/-- **Clusters are the connected components of items**, if no range stops before it starts.  The
items of the clusters, one after the other, are all items in the order of their starts, and items
that start together keep their order.  A cluster has items, and its cover goes from the least of
their starts to the greatest of their stops.  Two items are in the same cluster just if a chain of
touching items links them, and each cluster starts after the ones before it have stopped. -/
theorem gather_components (hle : ∀ item ∈ items, (range item).start ≤ (range item).stop) :
    let groups := gather range items
    let sorted := (groups.map Cluster.items).flatten
    sorted.Perm items ∧ (sorted.Pairwise fun a b => (range a).start ≤ (range b).start) ∧
      (∀ start, sorted.filter (fun item => (range item).start = start)
        = items.filter fun item => (range item).start = start) ∧
      (∀ c ∈ groups, c.items ≠ [] ∧
        IsLeast {n | ∃ item ∈ c.items, (range item).start = n} c.cover.start ∧
        IsGreatest {n | ∃ item ∈ c.items, (range item).stop = n} c.cover.stop) ∧
      (∀ (i j : Nat) (c d : Cluster α), groups[i]? = some c → groups[j]? = some d →
        ∀ a ∈ c.items, ∀ b ∈ d.items, (i = j ↔ Linked range items a b)) ∧
      groups.Pairwise fun c d => c.cover.stop < d.cover.start := by
  intro groups sorted
  have hsorted : sorted = sortByStart range items := flatten_gather range items
  have hcoherent : ∀ c ∈ groups, Coherent range c := coherent_gather hle
  rw [hsorted]
  refine ⟨perm_sortByStart range items, pairwise_sortByStart range items,
    filter_sortByStart range items, ?_, fun _ _ _ _ hc hd _ ha _ hb =>
      index_eq_iff_linked hle hc hd ha hb, ?_⟩
  · intro c hc
    obtain ⟨item, hitem, -⟩ := (hcoherent c hc).stops
    exact ⟨List.ne_nil_of_mem hitem, (hcoherent c hc).isLeast_isGreatest⟩
  · refine (separated_gather range items).imp_of_mem ?_
    intro c d _ hd hapart
    obtain ⟨⟨first, hfirst, hstart⟩, -⟩ := (hcoherent d hd).isLeast_isGreatest.1
    exact hstart ▸ hapart first hfirst

/-- A long range takes up a later one that it holds, one that it touches and an empty one; behind
them an empty range stands alone. -/
theorem gather_components_long :
    let spans : List Span := [⟨4, 6⟩, ⟨0, 4⟩, ⟨7, 7⟩, ⟨1, 2⟩, ⟨3, 3⟩]
    (∀ s ∈ spans, s.start ≤ s.stop) ∧
      (((gather id spans).map Cluster.items).flatten).Perm spans ∧
      (∀ (i j : Nat) (c d : Cluster Span), (gather id spans)[i]? = some c →
        (gather id spans)[j]? = some d →
          ∀ a ∈ c.items, ∀ b ∈ d.items, (i = j ↔ Linked id spans a b)) ∧
      (gather id spans).Pairwise fun c d => c.cover.stop < d.cover.start := by
  intro spans
  have hle : ∀ s ∈ spans, s.start ≤ s.stop := by decide
  obtain ⟨hperm, -, -, -, hlinked, hapart⟩ :
      (((gather id spans).map Cluster.items).flatten).Perm spans ∧ _ := gather_components hle
  exact ⟨hle, hperm, hlinked, hapart⟩

end Cluster

end Sapling
