import DiceNotation.Proofs.DoubleBits
import DiceNotation.Proofs.Nearest

/-!
Rounding a number of any length to a double. The places that do not fit are cut off one by one; a
round bit and a sticky bit are all that is kept of them, and it is enough to find the nearest double.
-/
namespace DiceNotation.Binary

open Float.Model (UnpackedFloat Format totalExponent)
open Float.Model.UnpackedFloat (Sign ExtendedMantissa accuracyOfFraction pack unpack
  shiftToExponent shiftToTargetExponent roundWithAccuracy decreaseExponent)

/- Cutting off binary places. -/

/-- The whole part of `a / b`, with what rounding has to know of the rest. -/
structure Share (a b : Nat) (em : ExtendedMantissa) : Prop where
  mantissa : em.mantissa = a / b
  roundBit : em.roundBit = decide (b ≤ 2 * (a % b))
  stickyBit : em.stickyBit = decide (2 * (a % b) ≠ 0 ∧ 2 * (a % b) ≠ b)

theorem share_accuracy {b : Nat} (pos : 0 < b) (a : Nat) :
    Share a b (.ofMantissaAndAccuracy (a / b) (accuracyOfFraction (a % b) b)) := by
  unfold accuracyOfFraction
  split_ifs with exactly
  · constructor <;> simp [ExtendedMantissa.ofMantissaAndAccuracy, exactly, Nat.ne_of_gt pos]
  · cases order : compare (2 * (a % b)) b with
    | lt =>
      have below := Nat.compare_eq_lt.mp order
      constructor <;> simp [ExtendedMantissa.ofMantissaAndAccuracy] <;> omega
    | eq =>
      have half := Nat.compare_eq_eq.mp order
      constructor <;> simp [ExtendedMantissa.ofMantissaAndAccuracy] <;> omega
    | gt =>
      have above := Nat.compare_eq_gt.mp order
      constructor <;> simp [ExtendedMantissa.ofMantissaAndAccuracy] <;> omega

/-- The lowest place that is left becomes the round bit, and all behind it are one sticky bit. -/
theorem Share.shiftRightOne {a b : Nat} {em : ExtendedMantissa} (pos : 0 < b)
    (share : Share a b em) : Share a (b * 2) em.shiftRightOne := by
  have below := Nat.mod_lt a pos
  have rest : a % (b * 2) = a % b + b * (a / b % 2) := Nat.mod_mul
  have half : em.shiftRightOne.mantissa = a / (b * 2) := by
    rw [ExtendedMantissa.shiftRightOne, share.mantissa, Nat.div_div_eq_div_mul]
  have round : em.shiftRightOne.roundBit = decide (a / b % 2 ≠ 0) := by
    rw [ExtendedMantissa.shiftRightOne, share.mantissa]
    rw [Bool.eq_iff_iff]
    simp
  have sticky : em.shiftRightOne.stickyBit = decide (a % b ≠ 0) := by
    rw [ExtendedMantissa.shiftRightOne, share.roundBit, share.stickyBit, ← Bool.decide_or]
    apply decide_eq_decide.mpr
    omega
  refine ⟨half, round.trans ?_, sticky.trans ?_⟩
  all_goals
    apply decide_eq_decide.mpr
    rw [rest]
    rcases Nat.mod_two_eq_zero_or_one (a / b) with zero | one
    · rw [zero]
      omega
    · rw [one]
      omega

theorem Share.shiftRight {a b : Nat} {em : ExtendedMantissa} (pos : 0 < b) (share : Share a b em)
    (k : Nat) : Share a (b * 2 ^ k) (em >>> k) := by
  induction k with
  | zero =>
    rw [Nat.pow_zero, Nat.mul_one]
    exact share
  | succ k ih =>
    rw [Nat.pow_succ, ← Nat.mul_assoc]
    exact ih.shiftRightOne (Nat.mul_pos pos (Nat.two_pow_pos k))

theorem Share.roundedMantissa {a b : Nat} {em : ExtendedMantissa} (pos : 0 < b)
    (share : Share a b em) : em.roundedMantissa = nearestNat a b := by
  obtain ⟨mantissa, roundBit, stickyBit⟩ := em
  obtain ⟨rfl, round, sticky⟩ := share
  dsimp only at round sticky
  rw [nearestNat_eq]
  cases roundBit with
  | false =>
    have below : 2 * (a % b) < b := by simpa using round
    rw [if_pos below]
    cases stickyBit <;> rfl
  | true =>
    have above : b ≤ 2 * (a % b) := by simpa using round
    rw [if_neg (by omega)]
    cases stickyBit with
    | false =>
      have half : ¬ b < 2 * (a % b) := by
        simp at sticky
        omega
      rw [if_neg half]
      rfl
    | true =>
      have more : b < 2 * (a % b) := by
        simp at sticky
        omega
      rw [if_pos more]
      rfl

/- Rounding. -/

theorem targetExponent_total (m : Nat) (e : Int) :
    Format.binary64.targetExponent (totalExponent m e) = max (m.log2 + e - 52) (-depth) := by
  have bits : (Format.binary64.mantissaBits : Int) = 53 := rfl
  have least : Format.binary64.minExponent = -depth := rfl
  unfold Format.targetExponent totalExponent
  omega

/-- A shift to the exponent of binade `k`. -/
theorem shiftToTargetExponent_share {a b k s : Nat} {e : Int} (pos : 0 < b)
    (target : max ((a / b).log2 + e - 52) (-depth : Int) = k - depth)
    (amount : (k - depth - e).toNat = s) :
    ∃ em, Share a (b * 2 ^ s) em ∧
      shiftToTargetExponent Format.binary64 (a / b) e (accuracyOfFraction (a % b) b) =
        (em, e + s) := by
  refine ⟨_, (share_accuracy pos a).shiftRight pos s, ?_⟩
  unfold shiftToTargetExponent shiftToExponent
  rw [targetExponent_total, target]
  dsimp only
  rw [amount]

/-- No place is lost where only zeros are cut off. -/
theorem shiftToTargetExponent_shift {n k s : Nat} {e : Int}
    (target : max ((n <<< s).log2 + e - 52) (-depth : Int) = k - depth)
    (amount : (k - depth - e).toNat = s) :
    ∃ em, shiftToTargetExponent Format.binary64 (n <<< s) e .exact = (em, e + s) ∧
      em.mantissa = n ∧ em.roundedMantissa = n := by
  have whole := Nat.div_one (n <<< s)
  obtain ⟨em, share, shifted⟩ := shiftToTargetExponent_share Nat.one_pos (whole.symm ▸ target) amount
  have place := Nat.two_pow_pos s
  rw [Nat.one_mul, Nat.shiftLeft_eq] at share
  rw [whole, Nat.mod_one] at shifted
  exact ⟨em, shifted, share.mantissa.trans (Nat.mul_div_cancel n place),
    (share.roundedMantissa place).trans (nearestNat_mul_self n place)⟩

/-- A significand that has been rounded up to 54 bits is `2 ^ 53` and loses nothing when it is
shifted once more. -/
theorem shiftToTargetExponent_rounded {r k : Nat} (small : r ≤ 2 * binadeSize)
    (full : k = 0 ∨ binadeSize ≤ r) :
    ∃ (m j : Nat) (em : ExtendedMantissa),
      shiftToTargetExponent Format.binary64 r (k - depth : Int) .exact = (em, (j - depth : Int)) ∧
      em.mantissa = m ∧ m < 2 * binadeSize ∧ (j = 0 ∨ binadeSize ≤ m) ∧
      j * binadeSize + m = k * binadeSize + r := by
  rcases Nat.lt_or_eq_of_le small with fits | rfl
  · have high : r.log2 ≤ 52 := log2_le fits
    have low : k = 0 ∨ 52 ≤ r.log2 := full.imp_right fun bits =>
      (Nat.le_log2 (Nat.ne_of_gt (Nat.lt_of_lt_of_le (by decide) bits))).mpr bits
    obtain ⟨em, shifted, kept, _⟩ := shiftToTargetExponent_shift (n := r) (k := k) (s := 0)
      (e := k - depth) (by rw [Nat.shiftLeft_zero]; omega) (by omega)
    exact ⟨r, k, em, by simpa using shifted, kept, fits, full, rfl⟩
  · have log : (2 * binadeSize).log2 = 53 := by decide +kernel
    have double : binadeSize <<< 1 = 2 * binadeSize := rfl
    obtain ⟨em, shifted, half, _⟩ := shiftToTargetExponent_shift (n := binadeSize) (k := k + 1)
      (s := 1) (e := k - depth) (by rw [double]; omega) (by omega)
    refine ⟨binadeSize, k + 1, em, ?_, half, by decide, .inr (le_refl _), by ring⟩
    rw [← double, shifted]
    congr 1
    omega

/-- A quotient of two shifts is rounded at the place that its binade has. -/
theorem nearest_shifted {a b A B s : Nat} (pos : 0 < b) (long : 52 ≤ (a / b).log2 ∨ A ≤ B)
    (amount : (a / b).log2 + A - B - 52 + B - A = s) : nearest (a <<< A) (b <<< B) =
      min (((a / b).log2 + A - B - 52) * binadeSize + nearestNat a (b * 2 ^ s)) infinity := by
  have log : (a <<< A / b <<< B).log2 = (a / b).log2 + A - B := log2_div_shifts pos (by
    refine long.imp_left fun bits => ?_
    by_contra less
    rw [Nat.div_eq_of_lt (Nat.lt_of_not_le less)] at bits
    simp at bits)
  have scale : b <<< B <<< ((a / b).log2 + A - B - 52) = b * 2 ^ s * 2 ^ A := by
    rw [← Nat.shiftLeft_add, Nat.shiftLeft_eq, Nat.mul_assoc, ← Nat.pow_add]
    congr 2
    omega
  unfold nearest
  simp only [log, scale]
  rw [Nat.shiftLeft_eq a, nearestNat_mul_right _ _ (Nat.two_pow_pos A)]

/-- What is shorter than a significand is rounded only where doubles have no more places. -/
theorem toNat_pack_share (negative : Bool) {a b A B : Nat} (pos : 0 < b)
    (long : 52 ≤ (a / b).log2 ∨ A ≤ B) :
    (pack Format.binary64 (roundWithAccuracy Format.binary64 (signOf negative) (a / b)
        (A - B - depth : Int) (accuracyOfFraction (a % b) b))).toNat =
      nearest (a <<< A) (b <<< B) + if negative then signBit else 0 := by
  obtain ⟨k, binade⟩ : ∃ k, (a / b).log2 + A - B - 52 = k := ⟨_, rfl⟩
  obtain ⟨s, amount⟩ : ∃ s, k + B - A = s := ⟨_, rfl⟩
  have scale := Nat.mul_pos pos (Nat.two_pow_pos s)
  obtain ⟨em, share, shifted⟩ := shiftToTargetExponent_share (k := k) (s := s)
    (a := a) (e := A - B - depth) pos (by omega) (by omega)
  have quotient := Nat.div_div_eq_div_mul a b (2 ^ s)
  have small : nearestNat a (b * 2 ^ s) ≤ 2 * binadeSize :=
    (nearestNat_le a _).trans (quotient ▸ div_two_pow_lt (by omega))
  have full : k = 0 ∨ binadeSize ≤ nearestNat a (b * 2 ^ s) := by
    rcases Nat.eq_zero_or_pos k with zero | some
    · exact .inl zero
    · exact .inr ((quotient ▸ le_div_two_pow (by omega)).trans (div_le_nearestNat a _))
  obtain ⟨m, j, em', shifted', mantissa, small', full', same⟩ :=
    shiftToTargetExponent_rounded small full
  have place : (A - B - depth + s : Int) = k - depth := by omega
  rw [nearest_shifted pos long (by omega : _ = s), binade, ← same]
  unfold roundWithAccuracy
  simp only [shifted, share.roundedMantissa scale, place, shifted', mantissa]
  split
  · rename_i zero
    have first : j = 0 := by
      unfold binadeSize at full'
      omega
    rw [toNat_pack_zero, first, zero]
    simp
  · rename_i some
    exact toNat_pack_finite negative (Nat.pos_of_ne_zero some) small' full'

theorem toNat_pack_roundWithAccuracy (negative : Bool) {m A B : Nat}
    (long : 52 ≤ m.log2 ∨ A ≤ B) :
    (pack Format.binary64 (roundWithAccuracy Format.binary64 (signOf negative) m
        (A - B - depth : Int) .exact)).toNat =
      nearest (m <<< A) (1 <<< B) + if negative then signBit else 0 := by
  have whole := Nat.div_one m
  have rounded := toNat_pack_share negative (A := A) (B := B) Nat.one_pos (whole.symm ▸ long)
  rwa [whole, Nat.mod_one] at rounded

theorem toNat_pack_round (negative : Bool) {m j : Nat} (pos : 0 < m) :
    (pack Format.binary64 (UnpackedFloat.round Format.binary64 (signOf negative) m
        (j - depth : Int))).toNat =
      nearest (m <<< j) 1 + if negative then signBit else 0 := by
  obtain ⟨d, amount⟩ : ∃ d, ((j : Int) - depth -
      max ((m.log2 : Int) + (j - depth) - 52) (-depth)).toNat = d := ⟨_, rfl⟩
  have log := log2_shift pos d
  have rounded := toNat_pack_roundWithAccuracy negative (m := m <<< d) (A := j - d) (B := 0)
    (by omega)
  have place : ((j - d : Nat) - (0 : Nat) - depth : Int) = j - depth - d := by omega
  have whole : m <<< d <<< (j - d) = m <<< j := by
    rw [← Nat.shiftLeft_add]
    congr 1
    omega
  rw [place, whole] at rounded
  unfold UnpackedFloat.round decreaseExponent
  simp only [targetExponent_total, amount]
  exact rounded

end DiceNotation.Binary
