import Mathlib.Data.List.MinMax

/-!
# Stable sorting

Sorting moves no element past another that it need not be moved past: the elements that pass a test
stay in order if any two of them could stand in either order (`filter_mergeSort`). By a rank, then,
the elements of one rank stay in order, and the first element of the sorted list is the earliest of
least rank (`head?_mergeSort`).
-/

namespace CampaignRouting

variable {α : Type}

theorem filter_mergeSort {le : α → α → Bool} (htrans : ∀ a b c, le a b → le b c → le a c)
    (htotal : ∀ a b, le a b || le b a) {p : α → Bool} (hp : ∀ a b, p a → p b → le a b)
    (l : List α) : (l.mergeSort le).filter p = l.filter p := by
  have hsorted : (l.filter p).Pairwise fun a b => le a b :=
    List.pairwise_of_forall_mem_list fun a ha b hb =>
      hp a b (List.mem_filter.1 ha).2 (List.mem_filter.1 hb).2
  -- an ascending part of a list is still a part of it when it has been sorted
  have hsub : (l.filter p).Sublist (l.mergeSort le) :=
    List.sublist_mergeSort htrans htotal hsorted List.filter_sublist
  have hfilter : (l.filter p).Sublist ((l.mergeSort le).filter p) := by
    simpa [List.filter_filter] using hsub.filter p
  exact (hfilter.eq_of_length ((List.mergeSort_perm l le).filter p).length_eq.symm).symm

section Rank

variable (rank : α → Nat) (l : List α)

theorem rank_le_trans (a b c : α) :
    decide (rank a ≤ rank b) → decide (rank b ≤ rank c) → decide (rank a ≤ rank c) := by
  simp only [decide_eq_true_eq]
  exact Nat.le_trans

theorem rank_le_total (a b : α) : decide (rank a ≤ rank b) || decide (rank b ≤ rank a) := by
  simp only [Bool.or_eq_true, decide_eq_true_eq]
  exact Nat.le_total ..

theorem pairwise_mergeSort_rank :
    (l.mergeSort fun a b => rank a ≤ rank b).Pairwise fun a b => rank a ≤ rank b := by
  have hsorted := List.pairwise_mergeSort (rank_le_trans rank) (rank_le_total rank) l
  exact hsorted.imp of_decide_eq_true

theorem filter_mergeSort_rank (k : Nat) :
    (l.mergeSort fun a b => rank a ≤ rank b).filter (rank · = k) = l.filter (rank · = k) := by
  refine filter_mergeSort (rank_le_trans rank) (rank_le_total rank) (fun a b ha hb => ?_) l
  rw [of_decide_eq_true ha, of_decide_eq_true hb]
  simp

/-- Of the elements of least rank the earliest comes first. -/
theorem head?_mergeSort [DecidableEq α] :
    (l.mergeSort fun a b => rank a ≤ rank b).head? = l.argmin rank := by
  have hperm := List.mergeSort_perm l fun a b => rank a ≤ rank b
  have hsorted := pairwise_mergeSort_rank rank l
  have hstable := filter_mergeSort_rank rank l
  cases hs : l.mergeSort fun a b => rank a ≤ rank b with
  | nil =>
    rw [hs] at hperm
    rw [List.nil_perm.1 hperm]
    rfl
  | cons m s =>
    rw [hs] at hperm hsorted hstable
    have hleast : ∀ a ∈ l, rank m ≤ rank a := by
      intro a ha
      rcases List.mem_cons.1 (hperm.symm.subset ha) with rfl | ha
      · exact le_rfl
      · exact (List.pairwise_cons.1 hsorted).1 a ha
    have hfirst : l.find? (rank · = rank m) = some m := by
      rw [← List.head?_filter, ← hstable (rank m)]
      simp
    obtain ⟨-, before, after, rfl, hbefore⟩ := List.find?_eq_some_iff_append.1 hfirst
    symm
    refine List.argmin_eq_some_iff.2 ⟨by simp, hleast, fun a ha hle => ?_⟩
    have hne : ∀ b ∈ before, rank b ≠ rank m := by simpa using hbefore
    have hm : m ∉ before := fun hmem => hne m hmem rfl
    have ha : a ∉ before := fun hmem => hne a hmem (Nat.le_antisymm hle (hleast a ha))
    rw [List.idxOf_append_of_notMem hm, List.idxOf_append_of_notMem ha, List.idxOf_cons_self]
    omega

end Rank

end CampaignRouting
