import Mathlib.Data.List.Basic

/-!
# Lists by keys

Lists that are put together from parts for some keys, and the order in which keys first appear.

## Main results

* `flatMap_filter_range'` — a list that is ordered by its keys is made up of the parts for the keys.
* `eq_of_filter_eq` — lists that are ordered by keys are the same if they have the same parts.
* `pairwise_eraseDups` — without repetitions, a list is in the order of first appearance.
-/

namespace Sapling

variable {α β : Type}

/-! ### Parts of lists -/

/-- Where an element of a concatenation comes from. -/
theorem exists_of_flatMap_eq_append {f : α → List β} {below : List β} {b : β} :
    ∀ {as : List α} {above : List β}, as.flatMap f = above ++ b :: below →
      ∃ earlier a later left right, as = earlier ++ a :: later ∧ f a = left ++ b :: right ∧
        above = earlier.flatMap f ++ left := by
  intro as
  induction as with
  | nil => simp
  | cons a as ih =>
    intro above h
    rw [List.flatMap_cons] at h
    rcases List.append_eq_append_iff.1 h with ⟨between, rfl, hrest⟩ | ⟨between, ha, hrest⟩
    · obtain ⟨earlier, a', later, left, right, rfl, ha', rfl⟩ := ih hrest
      exact ⟨a :: earlier, a', later, left, right, rfl, ha', by simp⟩
    · cases between with
      | nil =>
        have hlater : as.flatMap f = [] ++ b :: below := hrest.symm
        obtain ⟨earlier, a', later, left, right, rfl, ha', hnil⟩ := ih hlater
        refine ⟨a :: earlier, a', later, left, right, rfl, ha', ?_⟩
        rw [List.flatMap_cons, List.append_assoc, ← hnil, ha]
        simp
      | cons b' between =>
        obtain ⟨rfl, -⟩ := List.cons.inj hrest
        exact ⟨[], a, as, above, between, rfl, ha, by simp⟩

/-- A list that is ordered by keys starts with those of the least key. -/
theorem eq_filter_append_filter {key : α → Nat} {least : Nat} {as : List α}
    (hsorted : as.Pairwise fun a b => key a ≤ key b) (hleast : ∀ a ∈ as, least ≤ key a) :
    as = as.filter (key · = least) ++ as.filter (least + 1 ≤ key ·) := by
  induction as with
  | nil => rfl
  | cons a as ih =>
    obtain ⟨ha, hsorted⟩ := List.pairwise_cons.1 hsorted
    obtain ⟨hle, hleast⟩ := List.forall_mem_cons.1 hleast
    by_cases hkey : key a = least
    · rw [List.filter_cons_of_pos (by simpa using hkey),
        List.filter_cons_of_neg (by simp [hkey]), List.cons_append, ← ih hsorted hleast]
    · -- then no later one has the least key either
      have hnone : as.filter (key · = least) = [] := by
        rw [List.filter_eq_nil_iff]
        intro b hb
        have := ha b hb
        simp only [decide_eq_true_eq]
        omega
      have hall : as.filter (least + 1 ≤ key ·) = as := by
        rw [List.filter_eq_self]
        intro b hb
        have := ha b hb
        simp only [decide_eq_true_eq]
        omega
      rw [List.filter_cons_of_neg (by simpa using hkey), hnone,
        List.filter_cons_of_pos (by simp only [decide_eq_true_eq]; omega), hall, List.nil_append]

/-- A list that is ordered by keys is made up of the parts for the keys, one after the other. -/
theorem flatMap_filter_range' {key : α → Nat} : ∀ {count least : Nat} {as : List α},
    (as.Pairwise fun a b => key a ≤ key b) →
      (∀ a ∈ as, least ≤ key a ∧ key a < least + count) →
        (List.range' least count).flatMap (fun k => as.filter (key · = k)) = as := by
  intro count
  induction count with
  | zero =>
    intro least as _ hkeys
    refine (List.eq_nil_iff_forall_not_mem.2 ?_).symm
    intro a ha
    have := hkeys a ha
    omega
  | succ count ih =>
    intro least as hsorted hkeys
    have hsplit := eq_filter_append_filter hsorted fun a ha => (hkeys a ha).1
    have hbounds : ∀ a ∈ as.filter (least + 1 ≤ key ·),
        least + 1 ≤ key a ∧ key a < least + 1 + count := by
      intro a ha
      obtain ⟨ha, hkey⟩ := List.mem_filter.1 ha
      have := hkeys a ha
      simp only [decide_eq_true_eq] at hkey
      omega
    have hlater := ih (hsorted.filter (least + 1 ≤ key ·)) hbounds
    have hsame : (List.range' (least + 1) count).flatMap
          (fun k => (as.filter (least + 1 ≤ key ·)).filter (key · = k))
        = (List.range' (least + 1) count).flatMap fun k => as.filter (key · = k) := by
      apply List.flatMap_congr
      intro k hk
      have hle := (List.mem_range'_1.1 hk).1
      rw [List.filter_filter]
      apply List.filter_congr
      intro a _
      simp only [Bool.and_eq_left_iff_imp, decide_eq_true_eq]
      omega
    rw [List.range'_succ, List.flatMap_cons, ← hsame, hlater, ← hsplit]

theorem exists_key_lt (key : α → Nat) (as : List α) : ∃ count, ∀ a ∈ as, key a < count := by
  induction as with
  | nil => exact ⟨0, List.forall_mem_nil _⟩
  | cons a as ih =>
    obtain ⟨count, hcount⟩ := ih
    refine ⟨max count (key a + 1), List.forall_mem_cons.2 ⟨by omega, ?_⟩⟩
    intro b hb
    have := hcount b hb
    omega

/-- **Lists that are ordered by keys are the same** if they have the same part for each key. -/
theorem eq_of_filter_eq {key : α → Nat} {as bs : List α}
    (has : as.Pairwise fun a b => key a ≤ key b) (hbs : bs.Pairwise fun a b => key a ≤ key b)
    (h : ∀ k, as.filter (key · = k) = bs.filter (key · = k)) : as = bs := by
  obtain ⟨count, hcount⟩ := exists_key_lt key (as ++ bs)
  have hparts {cs : List α} (hcs : cs.Pairwise fun a b => key a ≤ key b)
      (hmem : ∀ c ∈ cs, c ∈ as ++ bs) :
      (List.range' 0 count).flatMap (fun k => cs.filter (key · = k)) = cs := by
    refine flatMap_filter_range' hcs ?_
    intro c hc
    have := hcount c (hmem c hc)
    omega
  calc as = (List.range' 0 count).flatMap (fun k => as.filter (key · = k)) :=
        (hparts has fun _ => List.mem_append_left bs).symm
    _ = (List.range' 0 count).flatMap (fun k => bs.filter (key · = k)) := by simp only [h]
    _ = bs := hparts hbs fun _ => List.mem_append_right as

/-! ### First appearance -/

/-- What comes first in a part of a list comes first in the list, if nothing of it is left out. -/
theorem idxOf_lt_of_filter [BEq α] [LawfulBEq α] {p : α → Bool} {a b : α} (hb : p b) :
    ∀ {as : List α}, (as.filter p).idxOf a < (as.filter p).idxOf b → as.idxOf a < as.idxOf b := by
  intro as
  induction as with
  | nil => exact id
  | cons c as ih =>
    intro h
    by_cases hca : c = a
    · subst hca
      have hcb : c ≠ b := by
        rintro rfl
        exact absurd h (Nat.lt_irrefl _)
      rw [List.idxOf_cons_self, List.idxOf_cons_ne _ hcb]
      exact Nat.succ_pos _
    · by_cases hcb : c = b
      · subst hcb
        rw [List.filter_cons_of_pos hb, List.idxOf_cons_self] at h
        exact absurd h (Nat.not_lt_zero _)
      · rw [List.idxOf_cons_ne _ hca, List.idxOf_cons_ne _ hcb]
        refine Nat.succ_lt_succ (ih ?_)
        by_cases hc : p c
        · rw [List.filter_cons_of_pos hc, List.idxOf_cons_ne _ hca, List.idxOf_cons_ne _ hcb] at h
          exact Nat.lt_of_succ_lt_succ h
        · rwa [List.filter_cons_of_neg hc] at h

/-- Without repetitions, a list is in the order of first appearance. -/
theorem pairwise_eraseDups [BEq α] [LawfulBEq α] : ∀ as : List α,
    as.eraseDups.Pairwise fun a b => as.idxOf a < as.idxOf b
  | [] => List.Pairwise.nil
  | a :: as => by
    rw [List.eraseDups_cons]
    have hne {b : α} (hb : b ∈ (as.filter fun b => !b == a).eraseDups) : b ∈ as ∧ a ≠ b := by
      obtain ⟨hmem, hba⟩ := List.mem_filter.1 (List.mem_eraseDups.1 hb)
      exact ⟨hmem, fun h => by simp [h] at hba⟩
    refine List.pairwise_cons.2 ⟨?_, ?_⟩
    · intro b hb
      rw [List.idxOf_cons_self, List.idxOf_cons_ne _ (hne hb).2]
      exact Nat.succ_pos _
    · refine (pairwise_eraseDups (as.filter fun b => !b == a)).imp_of_mem ?_
      intro b c hb hc hlt
      rw [List.idxOf_cons_ne _ (hne hb).2, List.idxOf_cons_ne _ (hne hc).2]
      refine Nat.succ_lt_succ (idxOf_lt_of_filter ?_ hlt)
      simpa using Ne.symm (hne hc).2
termination_by as => as.length
decreasing_by exact Nat.lt_succ_of_le (List.length_filter_le _ _)

/-- Of lists for some keys, only that of one key is not empty. -/
theorem flatMap_eq_of_unique {f : α → List β} {a : α} {bs : List β}
    {as : List α} (hnodup : as.Nodup) (hself : a ∈ as → f a = bs) (hnone : a ∉ as → bs = [])
    (hother : ∀ b ∈ as, b ≠ a → f b = []) : as.flatMap f = bs := by
  induction as with
  | nil => exact (hnone List.not_mem_nil).symm
  | cons b as ih =>
    obtain ⟨hb, hnodup⟩ := List.nodup_cons.1 hnodup
    obtain ⟨hhead, hother⟩ := List.forall_mem_cons.1 hother
    rw [List.flatMap_cons]
    by_cases hba : b = a
    · subst hba
      have hrest : as.flatMap f = [] := by
        rw [List.flatMap_eq_nil_iff]
        intro c hc
        exact hother c hc fun h => hb (h ▸ hc)
      rw [hrest, List.append_nil, hself List.mem_cons_self]
    · rw [hhead hba, List.nil_append]
      refine ih hnodup (fun ha => hself (List.mem_cons_of_mem _ ha)) (fun ha => hnone ?_) hother
      exact fun h => (List.mem_cons.1 h).elim (Ne.symm hba) ha

/-- In a list that is put together from parts without repetitions, an element is as often as there
are parts with it. -/
theorem count_flatMap_of_nodup [BEq β] [LawfulBEq β] {f : α → List β} {b : β} {as : List α}
    (h : ∀ a ∈ as, (f a).Nodup) : (as.flatMap f).count b = as.countP fun a => (f a).elem b := by
  induction as with
  | nil => rfl
  | cons a as ih =>
    obtain ⟨ha, has⟩ := List.forall_mem_cons.1 h
    rw [List.flatMap_cons, List.count_append, ih has, List.countP_cons, Nat.add_comm]
    simp only [List.Nodup.count ha, List.elem_iff]

/-- Two elements of a list that is ordered are the same, or in order one way or the other. -/
theorem rel_of_pairwise {R : α → α → Prop} {as : List α} (h : as.Pairwise R) {a b : α}
    (ha : a ∈ as) (hb : b ∈ as) : a = b ∨ R a b ∨ R b a := by
  induction h with
  | nil => cases ha
  | cons hfirst _ ih =>
    rcases List.mem_cons.1 ha with rfl | hlater
    · rcases List.mem_cons.1 hb with rfl | hlater'
      · exact Or.inl rfl
      · exact Or.inr (Or.inl (hfirst _ hlater'))
    · rcases List.mem_cons.1 hb with rfl | hlater'
      · exact Or.inr (Or.inr (hfirst _ hlater))
      · exact ih hlater hlater'

end Sapling
