import Mathlib

/-!
# The total order of numbers

`TotalLE` orders all floating-point numbers as their standard does, by sign and magnitude. It keeps
to the order by value (`TotalLE.not_lt`), and beyond that tells the two zeros apart and has a place
for what is no number. A number in its unpacked form, in which numbers are compared, has the same
magnitude as its bits (`measures_unpack`); comparison then has a case for each pair of forms
(`Measures.lt`). The order by value is transitive (`float_le_trans`).
-/

namespace CampaignRouting
open Float.Model UnpackedFloat

/-- The number has its sign bit set. So has the negative zero. -/
def Signed (x : Float) : Prop := 2 ^ 63 ≤ x.toBits.toNat

/-- What is left of the bits of a number without the sign; greater numbers have more. -/
def magnitude (x : Float) : Nat := x.toBits.toNat % 2 ^ 63

theorem magnitude_lt (x : Float) : magnitude x < 2 ^ 63 := Nat.mod_lt _ (Nat.two_pow_pos 63)

instance (x : Float) : Decidable (Signed x) := by unfold Signed; infer_instance

/-- The total order of numbers: those with a sign come first, by falling magnitude, and those
without come after them, by rising magnitude. -/
def TotalLE (x y : Float) : Prop :=
  if Signed x then Signed y → magnitude y ≤ magnitude x
  else ¬Signed y ∧ magnitude x ≤ magnitude y

instance (x y : Float) : Decidable (TotalLE x y) := by unfold TotalLE; infer_instance

/-- The two zeros differ. -/
example : TotalLE (-0.0) 0.0 ∧ ¬TotalLE 0.0 (-0.0) := by decide

/-! ## Unpacked numbers -/

/-- `Measures s k u`: the number `u` has the sign `s` and the magnitude `k`. A magnitude is the
exponent followed by the mantissa; the leading one of a mantissa, where it has one, counts as one
more in the exponent. -/
inductive Measures : Sign → Nat → UnpackedFloat → Prop
  | notANumber (s : Sign) (k : Nat) : Measures s k .notANumber
  | zero {s : Sign} {k : Nat} (hk : k = 0) : Measures s k (.zero s)
  | finite {s : Sign} {k m : Nat} {x : Int} (e : Nat) (h : 0 < m) (hk : k = e * 2 ^ 52 + m)
      (hx : x = e - 1074) (hm : m < 2 ^ 53) (hlead : 2 ^ 52 ≤ m ∨ e = 0) (hlt : k < 2047 * 2 ^ 52) :
      Measures s k (.finite s m x h)
  | infinity {s : Sign} {k : Nat} (hk : k = 2047 * 2 ^ 52) : Measures s k (.infinity s)

section Unpacking

variable (b : BitVec Format.binary64.numBits)

theorem toNat_unpackExponent : (unpackExponent b).toNat = b.toNat / 2 ^ 52 % 2 ^ 11 := by
  simp [unpackExponent, Nat.shiftRight_eq_div_pow]

theorem toNat_unpackMantissa : (unpackMantissa b).toNat = b.toNat % 2 ^ 52 := by
  simp [unpackMantissa]

theorem toNat_unpackSign : (unpackSign b).toNat = b.toNat / 2 ^ 63 := by
  have hb : b.toNat < 2 ^ 64 := b.isLt
  simp [unpackSign, Nat.shiftRight_eq_div_pow]
  omega

theorem apply_unpackSign (k : Int) :
    (Sign.ofBitVec (unpackSign b)).apply k = if 2 ^ 63 ≤ b.toNat then -k else k := by
  have hsign : unpackSign b = 0#1 ↔ ¬2 ^ 63 ≤ b.toNat := by
    rw [← BitVec.toNat_inj, toNat_unpackSign, BitVec.toNat_ofNat]
    omega
  simp only [Sign.ofBitVec, hsign]
  by_cases h : 2 ^ 63 ≤ b.toNat
  · simp only [h, not_true_eq_false, if_true, if_false, Sign.apply]
  · simp only [h, not_false_eq_true, if_true, if_false, Sign.apply]

theorem toNat_one_append (v : BitVec 52) : (1#1 ++ v).toNat = 2 ^ 52 + v.toNat := by
  rw [BitVec.toNat_append, ← Nat.shiftLeft_add_eq_or_of_lt v.isLt]
  rfl

theorem measures_unpack : Measures (Sign.ofBitVec (unpackSign b)) (b.toNat % 2 ^ 63)
    (UnpackedFloat.unpack Format.binary64 b) := by
  have hexponent := toNat_unpackExponent b
  have hmantissa := toNat_unpackMantissa b
  have hbias : (Format.binary64.exponentBias : Int) +
      (Format.binary64.mantissaBitsWithoutImplicit : Int) = 1075 := by decide
  simp only [UnpackedFloat.unpack, hbias]
  split
  · next hmax =>
    have hmax : (unpackExponent b).toNat = 2047 := congrArg BitVec.toNat hmax
    split
    · next hzero =>
      have hzero : (unpackMantissa b).toNat = 0 := congrArg BitVec.toNat hzero
      exact .infinity (by omega)
    · exact .notANumber ..
  · next hmax =>
    have hmax : (unpackExponent b).toNat ≠ 2047 := mt (BitVec.toNat_inj (y := -1#11)).1 hmax
    split
    · next hexp =>
      have hexp : (unpackExponent b).toNat = 0 := congrArg BitVec.toNat hexp
      split
      · next hzero =>
        have hzero : (unpackMantissa b).toNat = 0 := congrArg BitVec.toNat hzero
        exact .zero (by omega)
      · exact .finite 0 _ (by omega) (by omega) (by omega) (.inr rfl) (by omega)
    · next hexp =>
      have hexp : (unpackExponent b).toNat ≠ 0 := mt (BitVec.toNat_inj (y := 0#11)).1 hexp
      have hlead := toNat_one_append (unpackMantissa b)
      refine .finite ((unpackExponent b).toNat - 1) _ ?_ ?_ ?_ (.inl ?_) ?_ <;> omega

end Unpacking

/-! ## Comparison -/

theorem lt_of_compare_then {x y : Int} {e m e' m' : Nat} (hx : x = e - 1074) (hy : y = e' - 1074)
    (hm : m < 2 ^ 53) (hlead : 2 ^ 52 ≤ m' ∨ e' = 0)
    (h : (compare x y).then (compare m m') = .lt) : e * 2 ^ 52 + m < e' * 2 ^ 52 + m' := by
  rw [Ordering.then_eq_lt, Std.compare_eq_lt, Std.compare_eq_lt, Std.compare_eq_iff_eq] at h
  omega

/-- The lesser of two numbers has the lesser magnitude, if each is given its sign. -/
theorem Measures.lt {s t : Sign} {k l : Nat} {u v : UnpackedFloat} (hu : Measures s k u)
    (hv : Measures t l v) (h : u.compare v = some .lt) : s.apply k < t.apply l := by
  cases hu with
  | notANumber => cases h
  | zero hk =>
    cases hv with
    | notANumber | zero => cases h
    | finite | infinity =>
      cases s <;> cases t <;> simp_all [UnpackedFloat.compare, Sign.apply] <;> omega
  | infinity hk =>
    cases hv with
    | notANumber => cases s <;> cases h
    | zero | finite | infinity =>
      cases s <;> cases t <;> simp_all [UnpackedFloat.compare, Sign.apply] <;> omega
  | finite e hpos hk hx hm hlead =>
    cases hv with
    | notANumber => cases s <;> cases h
    | zero | infinity =>
      cases s <;> cases t <;> simp_all [UnpackedFloat.compare, Sign.apply] <;> omega
    | finite e' hpos' hl hy hm' hlead' =>
      cases s with
      | negative =>
        cases t with
        | negative =>
          have h := Option.some.inj h
          rw [Ordering.swap_then, ← Std.OrientedOrd.eq_swap, ← Std.OrientedOrd.eq_swap] at h
          have := lt_of_compare_then hy hx hm' hlead h
          simp only [Sign.apply]
          omega
        | positive =>
          simp only [Sign.apply]
          omega
      | positive =>
        cases t with
        | negative => cases h
        | positive =>
          have := lt_of_compare_then hx hy hm hlead' (Option.some.inj h)
          simp only [Sign.apply]
          omega

/-- Numbers of one value have one magnitude, if each is given its sign. -/
theorem Measures.eq {s t : Sign} {k l : Nat} {u v : UnpackedFloat} (hu : Measures s k u)
    (hv : Measures t l v) (h : u.compare v = some .eq) : s.apply k = t.apply l := by
  cases hu <;> cases hv <;> cases s <;> cases t <;> try cases h
  all_goals simp_all [UnpackedFloat.compare, Sign.apply, Ordering.then_eq_eq]

theorem compare_flip (u v : UnpackedFloat) : v.compare u = (u.compare v).map Ordering.swap := by
  rcases u with (_ | _) | _ | (_ | _) | ⟨_ | _, m, x, hm⟩ <;>
    rcases v with (_ | _) | _ | (_ | _) | ⟨_ | _, n, y, hn⟩ <;> try rfl
  -- what is left are two finite numbers of one sign, where exponents count before mantissas
  all_goals simp [UnpackedFloat.compare, Ordering.swap_then, ← Std.OrientedOrd.eq_swap]

theorem compare_eq_none_iff {u v : UnpackedFloat} :
    u.compare v = none ↔ u = .notANumber ∨ v = .notANumber := by
  rcases u with (_ | _) | _ | (_ | _) | ⟨_ | _, m, x, hm⟩ <;>
    rcases v with (_ | _) | _ | (_ | _) | ⟨_ | _, n, y, hn⟩ <;> simp [UnpackedFloat.compare]

/-! ## Order by value -/

/-- The magnitude of a number with its sign. Both zeros have the same. -/
def signedMagnitude (x : Float) : Int := if Signed x then -magnitude x else magnitude x

theorem signedMagnitude_lt {x y : Float} (h : x < y) : signedMagnitude x < signedMagnitude y := by
  have hlt := (measures_unpack x.toModel.toBits.toBitVec).lt
    (measures_unpack y.toModel.toBits.toBitVec) (eq_of_beq (of_decide_eq_true h))
  rw [apply_unpackSign, apply_unpackSign] at hlt
  exact hlt

theorem le_iff_compare {x y : Float} : x ≤ y ↔ ∃ o : Ordering,
    x.toModel.unpack.compare y.toModel.unpack = some o ∧ o.isLE = true :=
  decide_eq_true_iff.trans (Option.any_eq_true _ _)

theorem signedMagnitude_le_of_le {x y : Float} (h : x ≤ y) :
    signedMagnitude x ≤ signedMagnitude y := by
  obtain ⟨o, ho, hle⟩ := le_iff_compare.1 h
  cases o with
  | lt => exact (signedMagnitude_lt (decide_eq_true (beq_of_eq ho))).le
  | eq =>
    have heq := (measures_unpack x.toModel.toBits.toBitVec).eq
      (measures_unpack y.toModel.toBits.toBitVec) ho
    rw [apply_unpackSign, apply_unpackSign] at heq
    exact heq.le
  | gt => cases hle

/-- The order by value is transitive, although what is no number has no place in it. -/
theorem float_le_trans {x y z : Float} (hxy : x ≤ y) (hyz : y ≤ z) : x ≤ z := by
  obtain ⟨o, ho, -⟩ := le_iff_compare.1 hxy
  obtain ⟨o', ho', -⟩ := le_iff_compare.1 hyz
  have hle := (signedMagnitude_le_of_le hxy).trans (signedMagnitude_le_of_le hyz)
  match h : x.toModel.unpack.compare z.toModel.unpack with
  | none =>
    obtain hx | hz := compare_eq_none_iff.1 h
    · simp [compare_eq_none_iff.2 (.inl hx)] at ho
    · simp [compare_eq_none_iff.2 (.inr hz)] at ho'
  | some .gt =>
    have hflip := compare_flip x.toModel.unpack z.toModel.unpack
    rw [h] at hflip
    exact absurd hle (Int.not_le.2 (signedMagnitude_lt (decide_eq_true (beq_of_eq hflip))))
  | some .lt | some .eq => exact le_iff_compare.2 ⟨_, h, rfl⟩

theorem signedMagnitude_le {x y : Float} (h : TotalLE x y) :
    signedMagnitude x ≤ signedMagnitude y := by
  by_cases hx : Signed x <;> by_cases hy : Signed y <;> simp_all [TotalLE, signedMagnitude]

/-- The total order keeps to the order by value. -/
theorem TotalLE.not_lt {x y : Float} (h : TotalLE x y) : ¬y < x := fun hlt =>
  absurd (signedMagnitude_lt hlt) (Int.not_lt.2 (signedMagnitude_le h))

end CampaignRouting
