import Mathlib.Data.List.Nodup

/-!
# Sorting by a text

Measures and failures are listed in the order of a text that each of them has: the name of the class, the target of
the failure. `keyLe key` is the comparison that all these lists are sorted by.

* `pairwise_mergeSort_key`, `filter_mergeSort_key`: the sorted list is in order, and what has one text stays in the
  order in which it came. These two determine the sorted list. If no text comes twice, it is in strict order
  (`pairwise_lt_mergeSort_key`).
* `eq_of_filter_key`: two lists in order are the same if what has one text is the same in both.
* `map_key_mergeSort_of_perm`, `mergeSort_key_of_perm`: which of two orders a list had does not show in the texts, and
  not at all if no text comes twice.
-/

namespace HandlerComplexity

variable {α : Type} {key : α → String}

/-- Comparison by a text. -/
abbrev keyLe (key : α → String) (a b : α) : Bool := decide (key a ≤ key b)

theorem keyLe_trans (a b c : α) (hab : keyLe key a b = true) (hbc : keyLe key b c = true) : keyLe key a c = true :=
  decide_eq_true (String.le_trans (of_decide_eq_true hab) (of_decide_eq_true hbc))

theorem keyLe_total (a b : α) : (keyLe key a b || keyLe key b a) = true := by
  rcases String.le_total (key a) (key b) with h | h
  · simp [keyLe, h]
  · simp [keyLe, h]

theorem pairwise_mergeSort_key (l : List α) :
    (l.mergeSort (keyLe key)).Pairwise fun a b => key a ≤ key b :=
  (List.pairwise_mergeSort keyLe_trans keyLe_total l).imp of_decide_eq_true

theorem pairwise_lt_mergeSort_key {l : List α} (hn : (l.map key).Nodup) :
    (l.mergeSort (keyLe key)).Pairwise fun a b => key a < key b := by
  have hdistinct : (l.mergeSort (keyLe key)).Pairwise fun a b => key a ≠ key b :=
    List.pairwise_map.mp (((List.mergeSort_perm l _).map key).symm.nodup hn)
  exact ((pairwise_mergeSort_key l).and hdistinct).imp fun h =>
    String.not_le.mp fun hge => h.2 (String.le_antisymm h.1 hge)

/-- Sorting is stable. What has one text is in order before the sort, so the sort keeps it as it is; and nothing else
with that text comes in. -/
theorem filter_mergeSort_key (l : List α) (k : String) :
    (l.mergeSort (keyLe key)).filter (fun a => key a = k) = l.filter (fun a => key a = k) := by
  have hsame : (l.filter fun a => key a = k).Pairwise fun a b => keyLe key a b = true := by
    refine List.pairwise_of_forall_mem_list fun a ha b hb => ?_
    have hka : key a = k := of_decide_eq_true (List.mem_filter.mp ha).2
    have hkb : key b = k := of_decide_eq_true (List.mem_filter.mp hb).2
    rw [keyLe, hka, hkb]
    exact decide_eq_true (String.le_refl k)
  have hsub := (List.sublist_mergeSort keyLe_trans keyLe_total hsame List.filter_sublist).filter (fun a => key a = k)
  rw [List.filter_filter] at hsub
  simp only [Bool.and_self] at hsub
  exact (hsub.eq_of_length ((List.mergeSort_perm l _).filter _).length_eq.symm).symm

theorem subset_of_filter_key {l l' : List α}
    (h : ∀ k, l.filter (fun a => key a = k) = l'.filter fun a => key a = k) : l ⊆ l' := by
  intro a ha
  have hfilter : a ∈ l'.filter fun b => key b = key a := by
    rw [← h]
    exact List.mem_filter.mpr ⟨ha, by simp⟩
  exact (List.mem_filter.mp hfilter).1

/-- Lists in the order of the texts are determined by what has each text. The heads have the same text, since each is
the least of its list and occurs in the other one. -/
theorem eq_of_filter_key {l l' : List α} (hl : l.Pairwise fun a b => key a ≤ key b)
    (hl' : l'.Pairwise fun a b => key a ≤ key b)
    (h : ∀ k, l.filter (fun a => key a = k) = l'.filter fun a => key a = k) : l = l' := by
  induction l generalizing l' with
  | nil => exact (List.subset_nil.mp (subset_of_filter_key fun k => (h k).symm)).symm
  | cons a l ih =>
    cases l' with
    | nil => exact absurd (subset_of_filter_key h List.mem_cons_self) List.not_mem_nil
    | cons b l' =>
      rw [List.pairwise_cons] at hl hl'
      have hkey : key a = key b := by
        refine String.le_antisymm ?_ ?_
        · rcases List.mem_cons.mp (subset_of_filter_key (fun k => (h k).symm) List.mem_cons_self) with rfl | hb
          · exact String.le_refl _
          · exact hl.1 b hb
        · rcases List.mem_cons.mp (subset_of_filter_key h List.mem_cons_self) with rfl | ha
          · exact String.le_refl _
          · exact hl'.1 a ha
      have hheads := h (key a)
      rw [List.filter_cons_of_pos (by simp), List.filter_cons_of_pos (by simp [hkey])] at hheads
      obtain ⟨rfl, htails⟩ := List.cons.inj hheads
      refine congrArg (a :: ·) (ih hl.2 hl'.2 fun k => ?_)
      by_cases hk : key a = k
      · subst hk
        exact htails
      · have hk' := h k
        rwa [List.filter_cons_of_neg (by simpa using hk), List.filter_cons_of_neg (by simpa using hk)] at hk'

theorem map_key_mergeSort_of_perm {l l' : List α} (h : l.Perm l') :
    (l.mergeSort (keyLe key)).map key = (l'.mergeSort (keyLe key)).map key := by
  have hsorted : ∀ m : List α, ((m.mergeSort (keyLe key)).map key).Pairwise (· ≤ ·) := fun m =>
    List.pairwise_map.mpr (pairwise_mergeSort_key m)
  refine List.Perm.eq_of_pairwise (fun a b _ _ => String.le_antisymm) (hsorted l) (hsorted l') ?_
  exact (((List.mergeSort_perm l _).trans h).trans (List.mergeSort_perm l' _).symm).map key

theorem mergeSort_key_of_perm {l l' : List α} (h : l.Perm l') (hn : (l.map key).Nodup) :
    l.mergeSort (keyLe key) = l'.mergeSort (keyLe key) := by
  refine List.Perm.eq_of_pairwise ?_ (pairwise_mergeSort_key l) (pairwise_mergeSort_key l')
    (((List.mergeSort_perm l _).trans h).trans (List.mergeSort_perm l' _).symm)
  intro a b ha hb hab hba
  have ha' : a ∈ l := List.mem_mergeSort.mp ha
  have hb' : b ∈ l := h.symm.subset (List.mem_mergeSort.mp hb)
  exact List.inj_on_of_nodup_map hn ha' hb' (String.le_antisymm hab hba)

end HandlerComplexity
