import CampaignRouting.Proofs.Decimal.Whole
import CampaignRouting.Sample.Campaign
import CampaignRouting.Validation.Percent

/-!
# Even shares

The whole percentages that are dealt out among the parts of something: there is one for each part
(`length_shares`), no two differ by more than one (`mem_shares`), and together they make a hundred
(`sum_shares`). So they do as the floating-point numbers that they are read as (`total_shares`).
-/

namespace CampaignRouting

/-- Shares that are whole numbers are added up without loss. -/
theorem Percent.total_whole {l : List Nat} (h : l.sum < 2 ^ 53) :
    total (l.map fun n : Nat => Float.ofInt n) = Float.ofInt l.sum := by
  have hfold (l : List Nat) (sofar : Nat) (h : sofar + l.sum < 2 ^ 53) :
      (l.map fun n : Nat => Float.ofInt n).foldl (· + ·) (Float.ofInt sofar) =
        Float.ofInt ((sofar + l.sum : Nat) : Int) := by
    induction l generalizing sofar with
    | nil => rfl
    | cons n l ih =>
      rw [List.sum_cons, ← Nat.add_assoc] at h
      rw [List.map_cons, List.foldl_cons, ofInt_add (by omega), ih _ h, List.sum_cons,
        Nat.add_assoc]
  have hzero : (0.0 : Float) = Float.ofInt (0 : Nat) := by decide +kernel
  rw [total, hzero, hfold l 0 (by omega), Nat.zero_add]

namespace Sample

variable {parts share : Nat}

theorem length_shares (h : 0 < parts) : (shares parts).length = parts := by
  have hrest : 100 % parts < parts := Nat.mod_lt _ h
  simp only [shares, List.length_append, List.length_replicate]
  omega

theorem mem_shares (h : share ∈ shares parts) : share = 100 / parts ∨ share = 100 / parts + 1 := by
  simp only [shares, List.mem_append, List.mem_replicate] at h
  exact h.elim (fun h => .inr h.2) fun h => .inl h.2

theorem sum_shares (h : 0 < parts) : (shares parts).sum = 100 := by
  have hrest : 100 % parts ≤ parts := (Nat.mod_lt _ h).le
  calc (shares parts).sum
      = 100 % parts * (100 / parts + 1) + (parts - 100 % parts) * (100 / parts) := by
        simp [shares]
    _ = (100 % parts + (parts - 100 % parts)) * (100 / parts) + 100 % parts := by ring
    _ = parts * (100 / parts) + 100 % parts := by rw [Nat.add_sub_cancel' hrest]
    _ = 100 := Nat.div_add_mod 100 parts

theorem le_of_mem_shares (h : 0 < parts) (hshare : share ∈ shares parts) : share ≤ 100 :=
  sum_shares h ▸ List.le_sum_of_mem hshare

theorem total_shares (h : 0 < parts) :
    Percent.total ((shares parts).map fun n : Nat => Float.ofInt n) = Float.ofInt (100 : Nat) := by
  rw [Percent.total_whole (by rw [sum_shares h]; decide), sum_shares h]

example : shares 3 = [34, 33, 33] := by decide

end Sample
end CampaignRouting
