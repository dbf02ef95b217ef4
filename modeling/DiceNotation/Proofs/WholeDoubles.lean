import DiceNotation.Proofs.Rounding

/-!
Whole numbers as doubles. Below `2 ^ 53` a whole number has a double of its own, which stands for
it exactly, and the product of two of them is the double of the product as long as that stays below,
too.
-/
namespace DiceNotation.Binary

open Float.Model (UnpackedFloat Format totalExponent)
open Float.Model.UnpackedFloat (Sign ExtendedMantissa pack unpack shiftToExponent
  shiftToTargetExponent roundWithAccuracy decreaseExponent)

/-- Fifty-three bits hold the numbers below. -/
def wholeLimit : Nat := 0x20000000000000

/-- A whole number with a sign, its significand shifted to fill 53 bits. -/
def whole (s : Sign) (n : Nat) : UnpackedFloat :=
  if h : n = 0 then .zero s
  else .finite s (n <<< (52 - n.log2)) (n.log2 - 52)
    (Nat.shiftLeft_pos_iff.mpr (Nat.pos_of_ne_zero h))

theorem whole_zero (s : Sign) : whole s 0 = .zero s := rfl

theorem whole_of_pos (s : Sign) {n : Nat} (pos : 0 < n) :
    whole s n = .finite s (n <<< (52 - n.log2)) (n.log2 - 52) (Nat.shiftLeft_pos_iff.mpr pos) :=
  dif_neg (Nat.ne_of_gt pos)

/- Rounding loses no bit of a number that fits. -/

theorem roundWithAccuracy_shift (s : Sign) {n k : Nat} (pos : 0 < n) (small : n < wholeLimit)
    (long : 52 ≤ n.log2 + k) :
    roundWithAccuracy Format.binary64 s (n <<< k) (-k) .exact = whole s n := by
  have bits := log2_le small
  have full : (n <<< (52 - n.log2)).log2 = 52 := (log2_shift pos _).trans (by omega)
  have some : n <<< (52 - n.log2) ≠ 0 := Nat.ne_of_gt (Nat.shiftLeft_pos_iff.mpr pos)
  have zeros : n <<< k = n <<< (52 - n.log2) <<< (n.log2 + k - 52) := by
    rw [← Nat.shiftLeft_add]
    congr 1
    omega
  obtain ⟨em, first, _, rounded⟩ := shiftToTargetExponent_shift (n := n <<< (52 - n.log2))
    (k := n.log2 + 1022) (s := n.log2 + k - 52) (e := -k)
    (by rw [← zeros, log2_shift pos]; unfold depth; omega) (by unfold depth; omega)
  have place : (-k + (n.log2 + k - 52 : Nat) : Int) = n.log2 - 52 := by omega
  -- The significand is as long as it can be, so the second shift is none.
  obtain ⟨em', second, kept, _⟩ := shiftToTargetExponent_shift (n := n <<< (52 - n.log2))
    (k := n.log2 + 1022) (s := 0) (e := n.log2 - 52)
    (by rw [Nat.shiftLeft_zero, full]; unfold depth; omega) (by unfold depth; omega)
  have still : (n.log2 - 52 + (0 : Nat) : Int) = n.log2 - 52 := Int.add_zero _
  rw [Nat.shiftLeft_zero, still] at second
  rw [zeros]
  unfold roundWithAccuracy
  simp only [first, place, rounded, second, kept, whole_of_pos s pos, dif_neg some]

theorem round_whole (s : Sign) {n : Nat} (pos : 0 < n) (small : n < wholeLimit) :
    UnpackedFloat.round Format.binary64 s n 0 = whole s n := by
  have bits := log2_le small
  have amount : (0 - max ((n.log2 : Int) + 0 - 52) (-depth)).toNat = 52 - n.log2 := by
    unfold depth
    omega
  have place : (0 : Int) - (52 - n.log2 : Nat) = -(52 - n.log2 : Nat) := by omega
  unfold UnpackedFloat.round decreaseExponent
  dsimp only
  rw [targetExponent_total, amount, place]
  exact roundWithAccuracy_shift s pos small (by omega)

theorem ofNat_whole {n : Nat} (small : n < wholeLimit) :
    UnpackedFloat.ofNat Format.binary64 n = whole .positive n := by
  unfold UnpackedFloat.ofNat UnpackedFloat.ofInt UnpackedFloat.normalize
  by_cases zero : n = 0
  · rw [zero]
    rfl
  · have pos := Nat.pos_of_ne_zero zero
    rw [Int.compare_eq_gt.mpr (by omega)]
    exact round_whole .positive pos small

theorem neg_whole (s : Sign) (n : Nat) : (whole s n).neg = whole (-s) n := by
  unfold whole
  split <;> rfl

theorem mul_whole (s t : Sign) {m n : Nat} (small : m < wholeLimit) (small' : n < wholeLimit)
    (product : m * n < wholeLimit) :
    UnpackedFloat.mul Format.binary64 (whole s m) (whole t n) = whole (s * t) (m * n) := by
  rcases Nat.eq_zero_or_pos m with rfl | pos
  · rw [Nat.zero_mul, whole_zero, whole_zero]
    unfold whole
    split <;> rfl
  rcases Nat.eq_zero_or_pos n with rfl | pos'
  · rw [Nat.mul_zero, whole_zero, whole_zero, whole_of_pos s pos]
    rfl
  have bits := log2_le small
  have bits' := log2_le small'
  have pos'' := Nat.mul_pos pos pos'
  have long : m.log2 + n.log2 ≤ (m * n).log2 := by
    rw [Nat.le_log2 (Nat.ne_of_gt pos''), Nat.pow_add]
    exact Nat.mul_le_mul (Nat.log2_self_le (Nat.ne_of_gt pos))
      (Nat.log2_self_le (Nat.ne_of_gt pos'))
  have significand : m <<< (52 - m.log2) * n <<< (52 - n.log2) =
      (m * n) <<< (52 - m.log2 + (52 - n.log2)) := by
    simp only [Nat.shiftLeft_eq, Nat.pow_add, Nat.mul_mul_mul_comm]
  have place : (m.log2 : Int) - 52 + (n.log2 - 52) = -(52 - m.log2 + (52 - n.log2) : Nat) := by
    omega
  rw [whole_of_pos s pos, whole_of_pos t pos']
  unfold UnpackedFloat.mul
  simp only [significand, place]
  exact roundWithAccuracy_shift (s * t) pos'' product (by omega)

/- Packing keeps the numbers. -/

/-- The magnitude bits of a whole number. -/
def wholeBits (n : Nat) : Nat :=
  if n = 0 then 0 else (n.log2 + 1022) * binadeSize + n <<< (52 - n.log2)

theorem significand_whole {n : Nat} (pos : 0 < n) (small : n < wholeLimit) :
    binadeSize ≤ n <<< (52 - n.log2) ∧ n <<< (52 - n.log2) < 2 * binadeSize := by
  have bits := log2_le small
  have log := log2_shift pos (52 - n.log2)
  exact (Nat.log2_eq_iff (Nat.ne_of_gt (Nat.shiftLeft_pos_iff.mpr pos))).mp
    (log.trans (by omega : n.log2 + (52 - n.log2) = 52))

theorem wholeBits_lt {n : Nat} (small : n < wholeLimit) : wholeBits n < infinity := by
  unfold wholeBits
  split
  · decide
  · rename_i some
    have bits := log2_le small
    obtain ⟨low, high⟩ := significand_whole (Nat.pos_of_ne_zero some) small
    unfold infinity binadeSize at *
    omega

theorem units_wholeBits {n : Nat} (small : n < wholeLimit) : units (wholeBits n) = n * one := by
  unfold wholeBits
  split
  · rename_i zero
    rw [zero, Nat.zero_mul]
    rfl
  · rename_i some
    have bits := log2_le small
    obtain ⟨low, high⟩ := significand_whole (Nat.pos_of_ne_zero some) small
    have place : 52 - n.log2 + (n.log2 + 1022) = depth := by
      unfold depth
      omega
    rw [units_of_full high (.inr low), ← Nat.shiftLeft_add, place, one, Nat.one_shiftLeft,
      Nat.shiftLeft_eq]

theorem whole_of_full (s : Sign) {n : Nat} (pos : 0 < n) :
    whole s n = .finite s (n <<< (52 - n.log2)) ((n.log2 + 1022 : Nat) - depth : Int)
      (Nat.shiftLeft_pos_iff.mpr pos) := by
  have place : ((n.log2 + 1022 : Nat) - depth : Int) = n.log2 - 52 := by
    unfold depth
    omega
  rw [whole_of_pos s pos]
  simp only [place]

theorem toNat_pack_whole (negative : Bool) {n : Nat} (small : n < wholeLimit) :
    (pack Format.binary64 (whole (signOf negative) n)).toNat =
      wholeBits n + if negative then signBit else 0 := by
  rcases Nat.eq_zero_or_pos n with rfl | pos
  · rw [whole_zero, toNat_pack_zero]
    exact (Nat.zero_add _).symm
  · obtain ⟨low, high⟩ := significand_whole pos small
    have value : wholeBits n = (n.log2 + 1022) * binadeSize + n <<< (52 - n.log2) :=
      if_neg (Nat.ne_of_gt pos)
    have finite := Nat.le_of_lt (wholeBits_lt small)
    rw [value] at finite
    rw [whole_of_full _ pos, toNat_pack_finite negative _ high (.inr low), Nat.min_eq_left finite,
      value]

theorem unpack_pack_whole (s : Sign) {n : Nat} (small : n < wholeLimit) :
    unpack Format.binary64 (pack Format.binary64 (whole s n)) = whole s n := by
  rcases Nat.eq_zero_or_pos n with rfl | pos
  · exact UnpackedFloat.unpack_packedZero
  · obtain ⟨low, high⟩ := significand_whole pos small
    have value : wholeBits n = (n.log2 + 1022) * binadeSize + n <<< (52 - n.log2) :=
      if_neg (Nat.ne_of_gt pos)
    have finite := wholeBits_lt small
    rw [value] at finite
    rw [whole_of_full s pos]
    cases s with
    | negative => exact unpack_pack_finite true _ high (.inr low) finite
    | positive => exact unpack_pack_finite false _ high (.inr low) finite

/- Conversions of integers. -/

theorem unpack_model_whole (s : Sign) {n : Nat} (small : n < wholeLimit) :
    (Float.Model.pack (whole s n)).unpack = whole s n :=
  unpack_pack_whole s small

theorem toModel_mul (x y : Float) : (x * y).toModel =
    .pack (UnpackedFloat.mul Format.binary64 x.toModel.unpack y.toModel.unpack) := rfl

theorem toModel_ofNat {n : Nat} (small : n < wholeLimit) :
    (Float.ofNat n).toModel = .pack (whole .positive n) := by
  have scientific : Float.ofNat n = n.toUInt64.toFloat * Float.ofBits 0x3ff0000000000000 :=
    dif_pos ⟨small, by decide⟩
  have word : n.toUInt64.toNat = n := Nat.mod_eq_of_lt (Nat.lt_trans small (by decide))
  have converted : n.toUInt64.toFloat.toModel = .pack (whole .positive n) := by
    show Float.Model.pack (UnpackedFloat.ofNat Format.binary64 n.toUInt64.toNat) = _
    rw [word, ofNat_whole small]
  have one : (Float.ofBits 0x3ff0000000000000).toModel.unpack = whole .positive 1 := by
    rfl
  rw [scientific, toModel_mul, one, converted, unpack_model_whole _ small,
    mul_whole _ _ small (by decide) (by rwa [Nat.mul_one]), Nat.mul_one]
  rfl

/-- Zero is positive. -/
def signOfInt (n : Int) : Sign := if n < 0 then .negative else .positive

theorem toModel_ofInt {n : Int} (small : n.natAbs < wholeLimit) :
    (Float.ofInt n).toModel = .pack (whole (signOfInt n) n.natAbs) := by
  cases n with
  | ofNat n => exact toModel_ofNat small
  | negSucc n =>
    have small : n.succ < wholeLimit := small
    have negated : (Float.ofInt (.negSucc n)).toModel =
        .pack (Float.ofNat n.succ).toModel.unpack.neg := rfl
    have sign : signOfInt (.negSucc n) = -.positive := if_pos (Int.negSucc_lt_zero n)
    rw [negated, toModel_ofNat small, unpack_model_whole _ small, neg_whole, sign,
      Int.natAbs_negSucc]

theorem unpack_ofInt {n : Int} (small : n.natAbs < wholeLimit) :
    (Float.ofInt n).toModel.unpack = whole (signOfInt n) n.natAbs := by
  rw [toModel_ofInt small, unpack_model_whole _ small]

theorem signOfInt_mul {m : Int} {n : Int} (pos : 0 < n) :
    signOfInt m * signOfInt n = signOfInt (m * n) := by
  have positive : ¬ n < 0 := by omega
  have same : m * n < 0 ↔ m < 0 :=
    ⟨fun h => neg_of_mul_neg_left h (Int.le_of_lt pos), fun h => mul_neg_of_neg_of_pos h pos⟩
  unfold signOfInt
  simp only [same, if_neg positive]
  split <;> rfl

/-- Products of whole numbers are exact up to the limit. -/
theorem ofInt_mul {m n : Int} (pos : 0 < n) (small : m.natAbs < wholeLimit)
    (small' : n.natAbs < wholeLimit) (product : (m * n).natAbs < wholeLimit) :
    Float.ofInt m * Float.ofInt n = Float.ofInt (m * n) := by
  have models : (Float.ofInt m * Float.ofInt n).toModel = (Float.ofInt (m * n)).toModel := by
    rw [toModel_mul, unpack_ofInt small, unpack_ofInt small', mul_whole _ _ small small',
      signOfInt_mul pos, ← Int.natAbs_mul, toModel_ofInt product]
    rwa [← Int.natAbs_mul]
  exact congrArg Float.ofModel models

/- The values of doubles. -/

/-- The number that a finite double stands for. -/
def toRat (x : Float) : ℚ := (if isNegative x then -1 else 1) * (units (magnitude x) / one)

theorem parts_ofInt {n : Int} (small : n.natAbs < wholeLimit) :
    magnitude (Float.ofInt n) = wholeBits n.natAbs ∧ isNegative (Float.ofInt n) = decide (n < 0) := by
  have sign : signOfInt n = signOf (decide (n < 0)) := by
    simp [signOfInt, signOf]
  apply parts_of_toNat (Nat.le_of_lt (wholeBits_lt small))
  show (Float.ofInt n).toModel.toBits.toNat = _
  rw [toModel_ofInt small, sign]
  exact toNat_pack_whole _ small

theorem units_ofInt {n : Int} (small : n.natAbs < wholeLimit) :
    units (magnitude (Float.ofInt n)) = n.natAbs * one := by
  rw [(parts_ofInt small).1, units_wholeBits small]

theorem isFinite_ofInt {n : Int} (small : n.natAbs < wholeLimit) :
    (Float.ofInt n).isFinite = true := by
  rw [isFinite_iff, (parts_ofInt small).1]
  exact wholeBits_lt small

/-- A whole number is the value of its double. -/
theorem toRat_ofInt {n : Int} (small : n.natAbs < wholeLimit) : toRat (Float.ofInt n) = n := by
  have unit : (one : ℚ) ≠ 0 := Nat.cast_ne_zero.mpr (by decide)
  unfold toRat
  rw [units_ofInt small, (parts_ofInt small).2, Nat.cast_mul, mul_div_cancel_right₀ _ unit,
    ← Int.cast_natCast]
  by_cases negative : n < 0
  · have size : (n.natAbs : Int) = -n := by omega
    rw [if_pos (decide_eq_true negative), size, Int.cast_neg, neg_one_mul, neg_neg]
  · have size : (n.natAbs : Int) = n := by omega
    rw [if_neg (by simpa using negative), size, one_mul]

end DiceNotation.Binary
