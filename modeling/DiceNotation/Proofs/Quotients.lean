import DiceNotation.Proofs.MonotoneDoubles

/-!
Quotients of doubles that are not negative. As with sums and products, the result is the double
nearest to the exact quotient.
-/
namespace DiceNotation.Binary

open Float.Model (UnpackedFloat Format totalExponent)
open Float.Model.UnpackedFloat (Sign pack divCore roundWithAccuracy accuracyOfFraction)

theorem le_log2_div {a b k : Nat} (pos : 0 < b) (some : 0 < a)
    (longer : b.log2 + 1 + k ≤ a.log2) : k ≤ (a / b).log2 := by
  have enough : 2 ^ k * b ≤ a := calc
    2 ^ k * b ≤ 2 ^ k * 2 ^ (b.log2 + 1) := Nat.mul_le_mul_left _ (Nat.le_of_lt Nat.lt_log2_self)
    _ = 2 ^ (b.log2 + 1 + k) := by rw [← Nat.pow_add, Nat.add_comm]
    _ ≤ 2 ^ a.log2 := Nat.pow_le_pow_right Nat.two_pos longer
    _ ≤ a := Nat.log2_self_le (Nat.ne_of_gt some)
  have quotient : 2 ^ k ≤ a / b := (Nat.le_div_iff_mul_le pos).mpr enough
  have whole : a / b ≠ 0 := Nat.ne_of_gt (Nat.lt_of_lt_of_le (Nat.two_pow_pos k) quotient)
  exact (Nat.le_log2 whole).mpr quotient

/-- The dividend is shifted until the quotient fills a significand or doubles have no more
places. -/
theorem divCore_shift (m n i j : Nat) :
    ∃ d : Nat, divCore Format.binary64 m (i - depth : Int) n (j - depth : Int) =
        (m <<< d / n, ((i + depth : Nat) - (j + d : Nat) - depth : Int),
          accuracyOfFraction (m <<< d % n) n) ∧
      (n.log2 + 53 ≤ m.log2 + d ∨ i + depth ≤ j + d) := by
  have bits : (Format.binary64.mantissaBits : Int) = 53 := rfl
  have least : Format.binary64.minExponent = -depth := rfl
  obtain ⟨t, target⟩ : ∃ t, min ((i - depth : Int) - (j - depth)) (Format.binary64.targetExponent
    (totalExponent m (i - depth) - totalExponent n (j - depth))) = t := ⟨_, rfl⟩
  obtain ⟨d, amount⟩ : ∃ d, ((i - depth : Int) - (j - depth) - t).toNat = d := ⟨_, rfl⟩
  have bound : t = min ((i : Int) - j) (max (m.log2 + i - (n.log2 + j) - 53) (-depth)) := by
    unfold Format.targetExponent totalExponent at target
    omega
  refine ⟨d, ?_, by omega⟩
  have place : t = ((i + depth : Nat) - (j + d : Nat) - depth : Int) := by omega
  unfold divCore
  simp only [target, amount]
  rw [← place]

theorem toNat_pack_div {m n i j : Nat} (pos : 0 < m) (pos' : 0 < n) :
    (pack Format.binary64 (UnpackedFloat.div Format.binary64
        (.finite .positive m (i - depth : Int) pos)
        (.finite .positive n (j - depth : Int) pos'))).toNat =
      nearest (m <<< i * one) (n <<< j) := by
  obtain ⟨d, core, enough⟩ := divCore_shift m n i j
  have long : 52 ≤ (m <<< d / n).log2 ∨ i + depth ≤ j + d := enough.imp_left fun bits =>
    le_log2_div pos' (Nat.shiftLeft_pos_iff.mpr pos) (by rw [log2_shift pos]; omega)
  have dividend : m <<< d <<< (i + depth) = m <<< i * one * 2 ^ d := by
    simp only [one, Nat.shiftLeft_eq, Nat.pow_add]
    ring
  have divisor : n <<< (j + d) = n <<< j * 2 ^ d := by
    simp only [Nat.shiftLeft_eq, Nat.pow_add]
    ring
  have rounded := toNat_pack_share false pos' long
  rw [dividend, divisor, nearest_mul_right _ _ (Nat.two_pow_pos d)] at rounded
  unfold UnpackedFloat.div
  simp only [core]
  exact rounded.trans (Nat.add_zero _)

theorem magnitude_div_of_zero {x y : Float} (zero : magnitude x = 0)
    (finite : magnitude y < infinity) (pos : 0 < magnitude y) : magnitude (x / y) = 0 := by
  change magnitude (.ofModel (.pack
    (UnpackedFloat.div Format.binary64 x.toModel.unpack y.toModel.unpack))) = 0
  rw [unpack_of_zero zero, unpack_of_pos finite pos]
  exact magnitude_pack_zero _

/-- The quotient is the double nearest to the exact quotient. -/
theorem rounds_div {x y : Float} (hx : Nonnegative x) (hy : Nonnegative y)
    (pos : 0 < magnitude y) :
    Rounds (units (magnitude x) * one) (units (magnitude y)) (x / y) := by
  rcases Nat.eq_zero_or_pos (magnitude x) with zero | some
  · have quotient := magnitude_div_of_zero zero hy.finite pos
    have none : units 0 = 0 := rfl
    rw [zero, none, Nat.zero_mul]
    exact ⟨quotient.trans (nearest_zero _).symm, fun _ => quotient⟩
  · apply rounds_of_toNat
    change (pack Format.binary64
      (UnpackedFloat.div Format.binary64 x.toModel.unpack y.toModel.unpack)).toNat = _
    rw [unpack_of_pos hx.finite some, unpack_of_pos hy.finite pos, hx.isNegative some,
      hy.isNegative pos]
    exact toNat_pack_div _ _

end DiceNotation.Binary
