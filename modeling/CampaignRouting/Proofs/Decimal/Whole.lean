import CampaignRouting.Proofs.Routing.TotalOrder

/-!
# Whole floating-point numbers

A whole number of at most 53 bits is a floating-point number, and such numbers are added without
loss (`ofInt_add`). In its unpacked form such a number has a mantissa that fills the 53 bits
(`wholeForm`). Rounding brings every other form of it, with a further power of two in the mantissa,
to this one (`round_scaled`), as only zeros are shifted out (`shiftRight_exact`).
-/

namespace CampaignRouting
open Float.Model UnpackedFloat

/-- A positive whole number in its unpacked form, with the mantissa filled up to 53 bits. -/
def wholeForm (n : Nat) (h : 0 < n) : UnpackedFloat :=
  .finite .positive (n * 2 ^ (52 - n.log2)) (n.log2 - 52) (Nat.mul_pos h (Nat.two_pow_pos _))

theorem log2_mul_two_pow {n : Nat} (h : 0 < n) (k : Nat) : (n * 2 ^ k).log2 = n.log2 + k := by
  have hne : n * 2 ^ k ≠ 0 := (Nat.mul_pos h (Nat.two_pow_pos k)).ne'
  rw [Nat.log2_eq_iff hne, Nat.pow_add, Nat.add_right_comm, Nat.pow_add]
  exact ⟨Nat.mul_le_mul_right _ (Nat.log2_self_le h.ne'),
    Nat.mul_lt_mul_of_pos_right Nat.lt_log2_self (Nat.two_pow_pos k)⟩

/-- The exponent that rounding aims at does not depend on the form of the number. -/
theorem targetExponent_scaled {n : Nat} (h : 0 < n) (k : Nat) :
    Format.binary64.targetExponent (totalExponent (n * 2 ^ k) (-k)) = n.log2 - 52 := by
  simp only [Format.targetExponent, totalExponent, log2_mul_two_pow h, Format.mantissaBits,
    Format.minExponent]
  norm_num
  omega

/-- Nothing is lost where only zeros are shifted out. -/
theorem shiftRight_exact (m k : Nat) :
    ExtendedMantissa.ofMantissaAndAccuracy (m * 2 ^ k) .exact >>> k = ⟨m, false, false⟩ := by
  show k.repeat ExtendedMantissa.shiftRightOne ⟨m * 2 ^ k, false, false⟩ = _
  induction k generalizing m with
  | zero => simp [Nat.repeat]
  | succ k ih =>
    have hm : m * 2 ^ (k + 1) = (m * 2) * 2 ^ k := by ring
    rw [Nat.repeat, hm, ih]
    simp [ExtendedMantissa.shiftRightOne]

theorem shiftToTargetExponent_scaled {n : Nat} (h : 0 < n) (hlog : n.log2 ≤ 52) {k : Nat}
    (hk : 52 ≤ n.log2 + k) :
    shiftToTargetExponent Format.binary64 (n * 2 ^ k) (-k) .exact =
      (.mk (n * 2 ^ (52 - n.log2)) false false, (n.log2 - 52 : Int)) := by
  obtain ⟨j, rfl⟩ : ∃ j, k = (52 - n.log2) + j := ⟨n.log2 + k - 52, by omega⟩
  have hshift : ((n.log2 - 52 : Int) - -((52 - n.log2 + j : Nat) : Int)).toNat = j := by omega
  have hexponent : -((52 - n.log2 + j : Nat) : Int) + j = n.log2 - 52 := by omega
  simp only [shiftToTargetExponent, shiftToExponent, targetExponent_scaled h, hshift, hexponent]
  rw [Nat.pow_add, ← Nat.mul_assoc, shiftRight_exact]

/-- The first shift fills the mantissa, and the second one finds nothing left to do. -/
theorem roundWithAccuracy_scaled {n : Nat} (h : 0 < n) (hlog : n.log2 ≤ 52) {k : Nat}
    (hk : 52 ≤ n.log2 + k) :
    roundWithAccuracy Format.binary64 .positive (n * 2 ^ k) (-k) .exact = wholeForm n h := by
  have hagain := shiftToTargetExponent_scaled h hlog (k := 52 - n.log2) (by omega)
  have hexponent : -((52 - n.log2 : Nat) : Int) = n.log2 - 52 := by omega
  rw [hexponent] at hagain
  have hne : n * 2 ^ (52 - n.log2) ≠ 0 := (Nat.mul_pos h (Nat.two_pow_pos _)).ne'
  simp only [roundWithAccuracy, shiftToTargetExponent_scaled h hlog hk]
  simp only [ExtendedMantissa.roundedMantissa, ExtendedMantissa.accuracy,
    Accuracy.roundToNearestEven, hagain, dif_neg hne, wholeForm]

/-- A mantissa that is too short is filled up first. -/
theorem round_scaled {n : Nat} (h : 0 < n) (hlog : n.log2 ≤ 52) (k : Nat) :
    UnpackedFloat.round Format.binary64 .positive (n * 2 ^ k) (-k) = wholeForm n h := by
  simp only [UnpackedFloat.round, targetExponent_scaled h, decreaseExponent, Nat.shiftLeft_eq,
    Nat.mul_assoc, ← Nat.pow_add]
  have hexponent (j : Nat) : -(k : Int) - j = -((k + j : Nat) : Int) := by omega
  rw [hexponent]
  exact roundWithAccuracy_scaled h hlog (by omega)

theorem normalize_scaled {n : Nat} (h : 0 < n) (hlog : n.log2 ≤ 52) (k : Nat) :
    UnpackedFloat.normalize Format.binary64 ((n * 2 ^ k : Nat) : Int) (-k) .positive =
      wholeForm n h := by
  have hpos : compare ((n * 2 ^ k : Nat) : Int) 0 = .gt :=
    Int.compare_eq_gt.2 (Int.natCast_pos.2 (Nat.mul_pos h (Nat.two_pow_pos k)))
  simp only [UnpackedFloat.normalize, hpos]
  exact round_scaled h hlog k

theorem add_wholeForm {a b : Nat} (ha : 0 < a) (hb : 0 < b) (hab : (a + b).log2 ≤ 52) :
    UnpackedFloat.add Format.binary64 (wholeForm a ha) (wholeForm b hb) =
      wholeForm (a + b) (Nat.add_pos_left ha b) := by
  -- both mantissas are shifted to the lesser exponent
  let k := 52 - min a.log2 b.log2
  have halog : a.log2 ≤ (a + b).log2 :=
    (Nat.le_log2 (by omega)).2 ((Nat.log2_self_le ha.ne').trans (Nat.le_add_right a b))
  have hblog : b.log2 ≤ (a + b).log2 :=
    (Nat.le_log2 (by omega)).2 ((Nat.log2_self_le hb.ne').trans (Nat.le_add_left b a))
  have hmin : min (a.log2 - 52 : Int) (b.log2 - 52) = -(k : Int) := by omega
  have haligned {n : Nat} (hn : min a.log2 b.log2 ≤ n.log2) (hn' : n.log2 ≤ 52) :
      (decreaseExponent (n * 2 ^ (52 - n.log2)) (n.log2 - 52) (-k)).1 = n * 2 ^ k := by
    simp only [decreaseExponent, Nat.shiftLeft_eq, Nat.mul_assoc, ← Nat.pow_add]
    congr 2
    omega
  simp only [wholeForm, UnpackedFloat.add, hmin, haligned (min_le_left _ _) (halog.trans hab),
    haligned (min_le_right _ _) (hblog.trans hab), Sign.apply]
  rw [← Int.natCast_add, ← Nat.add_mul]
  exact normalize_scaled (Nat.add_pos_left ha b) hab k

theorem mul_wholeForm_one {n : Nat} (h : 0 < n) (hlog : n.log2 ≤ 52) :
    UnpackedFloat.mul Format.binary64 (wholeForm n h) (wholeForm 1 one_pos) = wholeForm n h := by
  have hmantissa : n * 2 ^ (52 - n.log2) * (1 * 2 ^ (52 - Nat.log2 1)) =
      n * 2 ^ (104 - n.log2) := by
    have hone : Nat.log2 1 = 0 := by decide
    rw [hone, one_mul, Nat.mul_assoc, ← Nat.pow_add]
    congr 2
    omega
  have hexponent : (n.log2 - 52 : Int) + ((Nat.log2 1 : Nat) - 52) =
      -((104 - n.log2 : Nat) : Int) := by
    have hone : Nat.log2 1 = 0 := by decide
    omega
  simp only [wholeForm, UnpackedFloat.mul, hmantissa, hexponent]
  exact roundWithAccuracy_scaled h hlog (by omega)

/-- A number with an exponent that is neither the least nor the greatest is a normal one. -/
theorem unpack_packComponents {e : BitVec 11} {m : BitVec 52} (hmax : e ≠ -1#11)
    (hzero : e ≠ 0#11) :
    UnpackedFloat.unpack Format.binary64 (packComponents Format.binary64 .positive e m) =
      .finite .positive (1#1 ++ m).toNat (e.toNat - 1075)
        (by rw [toNat_one_append]; omega) := by
  have hsign : unpackSign (packComponents Format.binary64 .positive e m) = 0#1 := by
    show (0#1 ++ e ++ m).extractLsb' 63 1 = 0#1
    rw [BitVec.extractLsb'_append_eq_of_le (by decide),
      BitVec.extractLsb'_append_eq_of_le (by decide)]
    rfl
  have hbias : (Format.binary64.exponentBias : Int) +
      (Format.binary64.mantissaBitsWithoutImplicit : Int) = 1075 := by decide
  simp only [UnpackedFloat.unpack, unpackExponent_packComponents, unpackMantissa_packComponents,
    hsign, hbias, if_neg hmax, if_neg hzero]
  rfl

/-- The exponent of a whole number is far from both ends of its range. -/
theorem unpack_pack_wholeForm {n : Nat} (h : 0 < n) (hlog : n.log2 ≤ 52) :
    (Float.Model.pack (wholeForm n h)).unpack = wholeForm n h := by
  have hfull : (n * 2 ^ (52 - n.log2)).log2 = 52 := by rw [log2_mul_two_pow h]; omega
  obtain ⟨hlow, hhigh⟩ := (Nat.log2_eq_iff (Nat.mul_pos h (Nat.two_pow_pos _)).ne').1 hfull
  have hexponent : (BitVec.ofNat 11 (n.log2 + 1023)).toNat = n.log2 + 1023 := by
    rw [BitVec.toNat_ofNat, Nat.mod_eq_of_lt (by omega)]
  have hmax : BitVec.ofNat 11 (n.log2 + 1023) ≠ -1#11 := fun heq => by
    have heq : n.log2 + 1023 = 2047 := hexponent.symm.trans (congrArg BitVec.toNat heq)
    omega
  have hzero : BitVec.ofNat 11 (n.log2 + 1023) ≠ 0#11 := fun heq => by
    have heq : n.log2 + 1023 = 0 := hexponent.symm.trans (congrArg BitVec.toNat heq)
    omega
  have hmantissa : (1#1 ++ BitVec.ofNat 52 (n * 2 ^ (52 - n.log2))).toNat =
      n * 2 ^ (52 - n.log2) := by
    rw [toNat_one_append, BitVec.toNat_ofNat]
    omega
  have hpack : UnpackedFloat.pack Format.binary64 (wholeForm n h) =
      packComponents Format.binary64 .positive (BitVec.ofNat 11 (n.log2 + 1023))
        (BitVec.ofNat 52 (n * 2 ^ (52 - n.log2))) := by
    have hbiased : ((n.log2 - 52 : Int) + (Format.binary64.exponentBias : Nat) +
        (52 : Nat)).toNat = n.log2 + 1023 := by
      have hbias : Format.binary64.exponentBias = 1023 := rfl
      omega
    have hroom : ¬2 ^ 11 ≤ n.log2 + 1023 + 1 := by omega
    simp only [wholeForm, UnpackedFloat.pack, hbiased, if_neg hroom, hfull]
    rfl
  have hunpack := unpack_packComponents (m := BitVec.ofNat 52 (n * 2 ^ (52 - n.log2))) hmax hzero
  have hsame : ((n.log2 + 1023 : Nat) : Int) - 1075 = n.log2 - 52 := by omega
  simp only [hmantissa, hexponent, hsame] at hunpack
  rw [Float.Model.unpack, Float.Model.pack, UInt64.toBitVec_ofBitVec, hpack, hunpack, wholeForm]

/-- A whole number comes from an integer of 64 bits, times one. -/
theorem toModel_ofInt {n : Nat} (h : 0 < n) (hlog : n.log2 ≤ 52) :
    (Float.ofInt n).toModel = Float.Model.pack (wholeForm n h) := by
  have hn : n < 2 ^ 53 := (Nat.log2_lt h.ne').1 (by omega)
  have hone : (Float.exactlyRepresentablePowersOfTen[0]).toModel.unpack = wholeForm 1 one_pos := by
    rfl
  have hwhole : UnpackedFloat.ofUInt64 Format.binary64 n.toUInt64 = wholeForm n h := by
    have hsize : n.toUInt64.toNat = n := Nat.mod_eq_of_lt (by omega)
    have hround := normalize_scaled h hlog 0
    rw [pow_zero, mul_one] at hround
    rw [UnpackedFloat.ofUInt64, hsize]
    exact hround
  have hmul : Float.ofInt n = n.toUInt64.toFloat * Float.exactlyRepresentablePowersOfTen[0] := by
    show Float.ofScientific n false 0 = _
    rw [Float.ofScientific, dif_pos ⟨hn, by decide⟩]
    rfl
  rw [hmul]
  show Float.Model.pack (UnpackedFloat.mul Format.binary64
    (Float.Model.pack (UnpackedFloat.ofUInt64 Format.binary64 n.toUInt64)).unpack _) = _
  rw [hwhole, unpack_pack_wholeForm h hlog, hone, mul_wholeForm_one h hlog]

theorem unpack_ofInt_zero : (Float.ofInt (0 : Nat)).toModel.unpack = .zero .positive := by
  rfl

/-- Whole numbers add up to whole numbers as long as these have at most 53 bits. -/
theorem ofInt_add {a b : Nat} (h : a + b < 2 ^ 53) :
    Float.ofInt a + Float.ofInt b = Float.ofInt ((a + b : Nat) : Int) := by
  have hunpack {n : Nat} (hn : 0 < n) (hle : n ≤ a + b) :
      (Float.ofInt n).toModel = Float.Model.pack (wholeForm n hn) ∧
        (Float.ofInt n).toModel.unpack = wholeForm n hn := by
    have hlog : n.log2 ≤ 52 := Nat.le_of_lt_succ ((Nat.log2_lt hn.ne').2 (hle.trans_lt h))
    have hmodel := toModel_ofInt hn hlog
    exact ⟨hmodel, hmodel ▸ unpack_pack_wholeForm hn hlog⟩
  suffices Float.Model.pack (UnpackedFloat.add Format.binary64 (Float.ofInt a).toModel.unpack
      (Float.ofInt b).toModel.unpack) = (Float.ofInt ((a + b : Nat) : Int)).toModel from
    congrArg Float.ofModel this
  rcases Nat.eq_zero_or_pos a with rfl | ha <;> rcases Nat.eq_zero_or_pos b with rfl | hb
  · rfl
  · rw [unpack_ofInt_zero, Nat.zero_add, (hunpack hb (by omega)).2, (hunpack hb (by omega)).1]
    rfl
  · rw [unpack_ofInt_zero, Nat.add_zero, (hunpack ha (by omega)).2, (hunpack ha (by omega)).1]
    rfl
  · have hab : 0 < a + b := Nat.add_pos_left ha b
    have hlog : (a + b).log2 ≤ 52 := Nat.le_of_lt_succ ((Nat.log2_lt hab.ne').2 h)
    rw [(hunpack ha (by omega)).2, (hunpack hb (by omega)).2, (hunpack hab le_rfl).1,
      add_wholeForm ha hb hlog]

end CampaignRouting
