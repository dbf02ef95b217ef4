import DiceNotation.Proofs.DoubleBits

/-!
Opposite doubles. A difference is the sum with the opposite. The sign of a factor or of a dividend
is that of the product or the quotient, and opposite integers have opposite doubles, but for zero.
What is no number is its own opposite.
-/
namespace DiceNotation.Binary

open Float.Model (UnpackedFloat Format)
open Float.Model.UnpackedFloat (Sign Accuracy pack unpack roundWithAccuracy)

/- Signs. -/

theorem neg_neg_sign (s : Sign) : - -s = s := by
  cases s <;> rfl

theorem neg_mul_sign (s t : Sign) : -s * t = -(s * t) := by
  cases s <;> cases t <;> rfl

theorem neg_div_sign (s t : Sign) : -s / t = -(s / t) := by
  cases s <;> cases t <;> rfl

theorem apply_neg_sign (s : Sign) (n : Int) : (-s).apply n = -s.apply n := by
  cases s
  · exact (Int.neg_neg n).symm
  · rfl

/- Unpacked doubles. -/

theorem neg_neg_unpacked (u : UnpackedFloat) : u.neg.neg = u := by
  cases u <;> simp only [UnpackedFloat.neg, neg_neg_sign]

theorem sub_unpacked (f : Format) (u v : UnpackedFloat) :
    UnpackedFloat.sub f u v = UnpackedFloat.add f u v.neg := by
  cases u <;> cases v <;>
    simp only [UnpackedFloat.sub, UnpackedFloat.add, UnpackedFloat.neg, apply_neg_sign,
      Int.sub_eq_add_neg]

theorem neg_roundWithAccuracy (f : Format) (s : Sign) (m : Nat) (e : Int) (a : Accuracy) :
    roundWithAccuracy f (-s) m e a = (roundWithAccuracy f s m e a).neg := by
  unfold roundWithAccuracy
  dsimp only
  split <;> rfl

theorem neg_mul_unpacked (f : Format) (u v : UnpackedFloat) :
    UnpackedFloat.mul f u.neg v = (UnpackedFloat.mul f u v).neg := by
  cases u <;> cases v <;>
    simp only [UnpackedFloat.mul, UnpackedFloat.neg, neg_mul_sign, neg_roundWithAccuracy]

theorem neg_div_unpacked (f : Format) (u v : UnpackedFloat) :
    UnpackedFloat.div f u.neg v = (UnpackedFloat.div f u v).neg := by
  cases u <;> cases v <;>
    simp only [UnpackedFloat.div, UnpackedFloat.neg, neg_div_sign, neg_roundWithAccuracy]

/- Packing. -/

theorem ofNat_ne_top {n : Nat} (small : n < 2047) : BitVec.ofNat 11 n ≠ -1#11 := by
  intro top
  have value : n % 2048 = 2047 := congrArg BitVec.toNat top
  omega

/-- The sign is a field of its own, and the others are those of a number or an infinity. -/
theorem pack_neg_fields (u : UnpackedFloat) : u = .notANumber ∨ ∃ s e m, (e = -1#11 → m = 0#52) ∧
    pack Format.binary64 u = fields s e m ∧ pack Format.binary64 u.neg = fields (-s) e m := by
  cases u with
  | notANumber => exact .inl rfl
  | infinity s => exact .inr ⟨s, _, _, fun _ => rfl, rfl, rfl⟩
  | zero s => exact .inr ⟨s, _, _, fun _ => rfl, rfl, rfl⟩
  | finite s m e pos =>
    right
    simp only [UnpackedFloat.neg, pack]
    split
    · exact ⟨s, _, _, fun _ => rfl, rfl, rfl⟩
    · rename_i small
      split
      · refine ⟨s, _, _, fun top => absurd top ?_, rfl, rfl⟩
        have width : 2 ^ Format.binary64.exponentBits = 2048 := rfl
        rw [width] at small
        exact ofNat_ne_top (by omega)
      · exact ⟨s, _, _, fun top => absurd top (by decide), rfl, rfl⟩

theorem neg_pack (u : UnpackedFloat) :
    pack Format.binary64 (unpack Format.binary64 (pack Format.binary64 u)).neg =
      pack Format.binary64 u.neg := by
  rcases pack_neg_fields u with rfl | ⟨s, e, m, number, packed, opposite⟩
  · rfl
  · rw [packed, neg_unpack_fields, pack_unpack_fields _ _ _ number, opposite]

/- Doubles. -/

theorem neg_ofModel_pack (u : UnpackedFloat) :
    -Float.ofModel (.pack u) = Float.ofModel (.pack u.neg) := by
  have bits := neg_pack u
  change Float.ofModel (.pack (unpack Format.binary64 (pack Format.binary64 u)).neg) = _
  simp only [Float.Model.pack, bits]

theorem unpack_neg (x : Float) : (-x).toModel.unpack = x.toModel.unpack.neg := by
  by_cases nan : x.isNaN = true
  · have packed : (-x).toModel = .pack x.toModel.unpack.neg := rfl
    rw [packed, UnpackedFloat.isNaN_iff.mp nan]
    rfl
  · have small : magnitude x ≤ infinity := isNaN_eq_false_iff.mp (Bool.not_eq_true _ ▸ nan)
    rw [← ofMagnitude_parts x, neg_ofMagnitude _ small, unpack_ofMagnitude _ small,
      unpack_ofMagnitude _ small, neg_unpack_fields, neg_signOf]

theorem neg_neg_float (x : Float) : - -x = x := by
  apply Float.toBits_inj.mp
  apply UInt64.toBitVec_inj.mp
  change pack Format.binary64 (-x).toModel.unpack.neg = x.toModel.toBits.toBitVec
  rw [unpack_neg, neg_neg_unpacked]
  exact UnpackedFloat.pack_unpack_of_valid x.toModel.valid

theorem sub_eq_add_neg_float (x y : Float) : x - y = x + -y := by
  change Float.ofModel (.pack (UnpackedFloat.sub _ _ _)) =
    Float.ofModel (.pack (UnpackedFloat.add _ _ (-y).toModel.unpack))
  rw [sub_unpacked, unpack_neg]

theorem neg_mul_float (x y : Float) : -x * y = -(x * y) := by
  change Float.ofModel (.pack (UnpackedFloat.mul _ (-x).toModel.unpack _)) =
    -Float.ofModel (.pack (UnpackedFloat.mul _ _ _))
  rw [unpack_neg, neg_mul_unpacked, neg_ofModel_pack]

theorem neg_div_float (x y : Float) : -x / y = -(x / y) := by
  change Float.ofModel (.pack (UnpackedFloat.div _ (-x).toModel.unpack _)) =
    -Float.ofModel (.pack (UnpackedFloat.div _ _ _))
  rw [unpack_neg, neg_div_unpacked, neg_ofModel_pack]

theorem ofInt_neg {n : Int} (some : n ≠ 0) : Float.ofInt (-n) = -Float.ofInt n := by
  cases n with
  | ofNat n =>
    cases n with
    | zero => exact absurd rfl some
    | succ n => rfl
  | negSucc n =>
    exact (neg_neg_float (Float.ofNat n.succ)).symm

end DiceNotation.Binary
