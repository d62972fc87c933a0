import CampaignRouting.Proofs.Routing.TotalOrder
import CampaignRouting.Proofs.Sorting
import CampaignRouting.Routing.Compile

/-!
# Order by priority

Segments are put in the total order of floating-point numbers, the greatest first, and those of
one priority stay as they were. `priorityRank` is a rank for this order (`priorityRank_le_iff`),
and tells numbers apart (`priorityRank_inj`).
-/

namespace CampaignRouting

/-- Below zero the rank falls as the magnitude grows. -/
theorem priorityRank_of_signed {x : Float} (h : Signed x) :
    priorityRank x = 2 ^ 63 - 1 - magnitude x := by
  have hx : x.toBits.toNat < 2 ^ 64 := x.toBits.toNat_lt
  unfold Signed at h
  simp only [priorityRank, magnitude, UInt64.size]
  split <;> omega

theorem priorityRank_of_not_signed {x : Float} (h : ¬Signed x) :
    priorityRank x = 2 ^ 63 + magnitude x := by
  unfold Signed at h
  simp only [priorityRank, magnitude]
  split <;> omega

/-- The rank orders numbers as the total order does. -/
theorem priorityRank_le_iff {x y : Float} : priorityRank x ≤ priorityRank y ↔ TotalLE x y := by
  have hx := magnitude_lt x
  have hy := magnitude_lt y
  by_cases hsx : Signed x <;> by_cases hsy : Signed y <;>
    simp [TotalLE, hsx, hsy, priorityRank_of_signed, priorityRank_of_not_signed] <;> omega

theorem priorityRank_inj {x y : Float} : priorityRank x = priorityRank y ↔ x = y := by
  refine ⟨fun h => ?_, congrArg _⟩
  have hx : x.toBits.toNat < 2 ^ 64 := x.toBits.toNat_lt
  have hy : y.toBits.toNat < 2 ^ 64 := y.toBits.toNat_lt
  rw [← Float.toBits_inj, ← UInt64.toNat_inj]
  simp only [priorityRank, UInt64.size] at h
  split at h <;> split at h <;> omega

/-! ## Sorting -/

variable {segments : List RoutedSegment}

theorem byPriority_perm : (byPriority segments).Perm segments := List.mergeSort_perm ..

theorem mem_byPriority {s : RoutedSegment} : s ∈ byPriority segments ↔ s ∈ segments :=
  byPriority_perm.mem_iff

private theorem rank_trans (s t u : RoutedSegment) :
    decide (priorityRank t.priority ≤ priorityRank s.priority) →
      decide (priorityRank u.priority ≤ priorityRank t.priority) →
        decide (priorityRank u.priority ≤ priorityRank s.priority) := by
  simp only [decide_eq_true_eq]
  exact fun h h' => Nat.le_trans h' h

private theorem rank_total (s t : RoutedSegment) :
    decide (priorityRank t.priority ≤ priorityRank s.priority) ||
      decide (priorityRank s.priority ≤ priorityRank t.priority) := by
  simp only [Bool.or_eq_true, decide_eq_true_eq]
  exact Nat.le_total ..

/-- The router tries segments of higher priority first. -/
theorem byPriority_descending :
    (byPriority segments).Pairwise fun s t => TotalLE t.priority s.priority := by
  refine (List.pairwise_mergeSort rank_trans rank_total segments).imp fun h => ?_
  exact priorityRank_le_iff.1 (of_decide_eq_true h)

/-- The segments of one priority stay in order. -/
theorem byPriority_stable (p : Float) :
    (byPriority segments).filter (·.priority = p) = segments.filter (·.priority = p) := by
  refine filter_mergeSort rank_trans rank_total (fun s t hs ht => ?_) segments
  rw [of_decide_eq_true hs, of_decide_eq_true ht]
  simp

end CampaignRouting
