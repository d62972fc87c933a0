import CampaignRouting.Proofs.Json.Tree
import Mathlib.Data.List.Induction

/-!
# Integers as they are spelled

The literal of an integer has no needless zero, so it is the only one of this integer but for `-0`,
and what is printed for an integer that a text holds are the digits that it was read from
(`Integral.printed`).
-/

namespace CampaignRouting.Json

/-- A literal without point and power of ten: digits, no zero in front of others, behind a minus
sign or not. -/
structure Integral where
  negative : Bool
  digits : List Char
  ne_nil : digits ≠ []
  isDigit : ∀ c ∈ digits, c.isDigit = true
  leading : digits.head? = some '0' → digits = ['0']

theorem digitChar_of_isDigit {c : Char} (h : c.isDigit = true) :
    c.toNat - '0'.toNat < 10 ∧ Nat.digitChar (c.toNat - '0'.toNat) = c := by
  obtain ⟨hleast, hgreatest⟩ : 48 ≤ c.toNat ∧ c.toNat ≤ 57 := by
    simpa [Char.isDigit, UInt32.le_iff_toNat_le] using h
  have hzero : '0'.toNat = 48 := rfl
  have hdigits : ∀ d < 10, Nat.digitChar d = Char.ofNat (d + 48) := by decide
  rw [hzero]
  refine ⟨by omega, ?_⟩
  rw [hdigits _ (by omega), Nat.sub_add_cancel hleast, Char.ofNat_toNat]

theorem digitsValue_append_singleton (ds : List Char) (c : Char) :
    Decimal.digitsValue (ds ++ [c]) = 10 * Decimal.digitsValue ds + (c.toNat - '0'.toNat) := by
  rw [Decimal.digitsValue, List.foldl_append]
  rfl

/-- Digits without a needless zero are those of their value. -/
theorem toDigits_digitsValue {ds : List Char} (hne : ds ≠ []) (hdigit : ∀ c ∈ ds, c.isDigit = true)
    (hleading : ds.head? = some '0' → ds = ['0']) :
    Nat.toDigits 10 (Decimal.digitsValue ds) = ds := by
  -- The last digit is split off on both sides. What is left starts as before, so it has no needless
  -- zero either, unless nothing is left.
  induction ds using List.reverseRecOn with
  | nil => exact absurd rfl hne
  | append_singleton ds c ih =>
    obtain ⟨hlt, hchar⟩ := digitChar_of_isDigit (hdigit c (by simp))
    rw [digitsValue_append_singleton]
    generalize c.toNat - '0'.toNat = d at hlt hchar
    cases hds : ds with
    | nil =>
      have hd : 10 * Decimal.digitsValue [] + d = d := Nat.zero_add d
      rw [hd, Nat.toDigits_of_lt_base hlt, hchar, List.nil_append]
    | cons c' ds' =>
      have hhead : ds.head? ≠ some '0' := fun h => by
        have hone := congrArg List.length (hleading (by rw [List.head?_append, h, Option.some_or]))
        simp [hds] at hone
      have hfirst := ih (by simp [hds]) (fun c hc => hdigit c (List.mem_append_left _ hc))
        fun h => absurd h hhead
      have hpos : 0 < Decimal.digitsValue ds := Nat.pos_of_ne_zero fun hzero => by
        rw [hzero] at hfirst
        exact hhead (hfirst ▸ rfl)
      have hdiv : (10 * Decimal.digitsValue ds + d) / 10 = Decimal.digitsValue ds := by omega
      have hmod : (10 * Decimal.digitsValue ds + d) % 10 = d := by omega
      rw [← hds, Nat.toDigits_of_base_le (by decide) (by omega), hdiv, hmod, hfirst, hchar]

namespace Integral

variable (l : Integral)

def text : List Char := if l.negative then '-' :: l.digits else l.digits

def value : Int :=
  if l.negative then -(Decimal.digitsValue l.digits : Int) else Decimal.digitsValue l.digits

theorem text_value (h : l.text ≠ ['-', '0']) : (Number.integer l.value).text.toList = l.text := by
  obtain ⟨negative, ds, hne, hdigit, hleading⟩ := l
  have hdigits := toDigits_digitsValue hne hdigit hleading
  cases negative with
  | false =>
    simp only [text, value, Bool.false_eq_true, if_false]
    exact String.toList_ofList.trans hdigits
  | true =>
    simp only [text, value, if_true] at h ⊢
    have hpos : 0 < Decimal.digitsValue ds := Nat.pos_of_ne_zero fun hzero => by
      rw [hzero] at hdigits
      exact h (hdigits ▸ rfl)
    obtain ⟨n, hn⟩ := Nat.exists_eq_succ_of_ne_zero hpos.ne'
    rw [hn] at hdigits ⊢
    exact (String.toList_append ..).trans (by simp [Nat.repr, hdigits])

/-- An integer that fits is read as such, and printed as it was spelled. -/
theorem printed (h : l.text ≠ ['-', '0']) (hleast : -0x8000000000000000 ≤ l.value)
    (hgreatest : l.value ≤ 0xFFFFFFFFFFFFFFFF) :
    (Json.number (.integer l.value)).compact = String.ofList l.text ∧
    ∀ rest, Delimits rest → Lexes [.scalar (.number (.integer l.value))] (l.text ++ rest) rest := by
  have htext := l.text_value h
  have hrange : (Number.integer l.value).InRange := ⟨hleast, by
    simp only [UInt64.size]
    omega⟩
  refine ⟨congrArg String.ofList htext, fun rest hrest => ?_⟩
  rw [← htext]
  exact .number (.integer hrange) hrest

end Integral
end CampaignRouting.Json
