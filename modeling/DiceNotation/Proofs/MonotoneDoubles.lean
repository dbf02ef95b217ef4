import DiceNotation.Proofs.Rounding
import DiceNotation.Proofs.WholeDoubles

/-!
Sums and products of doubles that are not negative. The result is the double nearest to the exact
sum or product, so it grows with its operands.
-/
namespace DiceNotation.Binary

open Float.Model (UnpackedFloat Format)
open Float.Model.UnpackedFloat (Sign pack unpack decreaseExponent)

/-- Finite and not below zero. A zero may have either sign. -/
structure Nonnegative (x : Float) : Prop where
  finite : magnitude x < infinity
  sign : isNegative x = true → magnitude x = 0

/-- The double nearest to `a / b` units. A zero may have either sign. -/
structure Rounds (a b : Nat) (x : Float) : Prop where
  magnitude : magnitude x = nearest a b
  sign : isNegative x = true → Binary.magnitude x = 0

theorem Nonnegative.isNegative {x : Float} (nonneg : Nonnegative x) (pos : 0 < magnitude x) :
    isNegative x = false := by
  cases sign : Binary.isNegative x with
  | false => rfl
  | true => exact absurd (nonneg.sign sign) (Nat.ne_of_gt pos)

theorem Nonnegative.rounds {x : Float} (nonneg : Nonnegative x) :
    Rounds (units (magnitude x)) 1 x :=
  ⟨(nearest_units nonneg.finite).symm, nonneg.sign⟩

theorem rounds_of_toNat {x : Float} {a b : Nat} (value : x.toBits.toNat = nearest a b) :
    Rounds a b x := by
  have unsigned : x.toBits.toNat = nearest a b + if false then signBit else 0 :=
    value.trans (Nat.add_zero _).symm
  obtain ⟨bits, sign⟩ := parts_of_toNat (nearest_le a b) unsigned
  exact ⟨bits, fun negative => absurd (sign.symm.trans negative) Bool.false_ne_true⟩

theorem ofModel_pack_unpack {x : Float} (number : magnitude x ≤ infinity) :
    Float.ofModel (.pack x.toModel.unpack) = x := by
  have small : magnitude x < signBit := Nat.lt_of_le_of_lt number (by decide)
  apply Float.toBits_inj.mp
  apply UInt64.toNat_inj.mp
  show (pack Format.binary64 (unpack Format.binary64 x.toBits.toBitVec)).toNat = x.toBits.toNat
  rw [eq_fields small (toNat_toBits x), pack_unpack_fields _ _ _ (number_of_le number),
    ← eq_fields small (toNat_toBits x)]
  rfl

theorem add_eq_right {x y : Float} (zero : magnitude x = 0) (finite : magnitude y < infinity)
    (pos : 0 < magnitude y) : x + y = y := by
  show Float.ofModel (.pack (UnpackedFloat.add Format.binary64 x.toModel.unpack y.toModel.unpack)) = y
  rw [unpack_of_zero zero, unpack_of_pos finite pos]
  show Float.ofModel (.pack (.finite _ _ _ _)) = y
  rw [← unpack_of_pos finite pos, ofModel_pack_unpack (Nat.le_of_lt finite)]

theorem add_eq_left {x y : Float} (zero : magnitude y = 0) (finite : magnitude x < infinity)
    (pos : 0 < magnitude x) : x + y = x := by
  show Float.ofModel (.pack (UnpackedFloat.add Format.binary64 x.toModel.unpack y.toModel.unpack)) = x
  rw [unpack_of_zero zero, unpack_of_pos finite pos]
  show Float.ofModel (.pack (.finite _ _ _ _)) = x
  rw [← unpack_of_pos finite pos, ofModel_pack_unpack (Nat.le_of_lt finite)]

theorem magnitude_add_zeros {x y : Float} (zero : magnitude x = 0) (zero' : magnitude y = 0) :
    magnitude (x + y) = 0 := by
  show magnitude (.ofModel (.pack
    (UnpackedFloat.add Format.binary64 x.toModel.unpack y.toModel.unpack))) = 0
  rw [unpack_of_zero zero, unpack_of_zero zero']
  cases isNegative x <;> cases isNegative y <;> rfl

theorem add_finite {m n i j : Nat} (pos : 0 < m) (pos' : 0 < n) :
    UnpackedFloat.add Format.binary64 (.finite .positive m (i - depth : Int) pos)
        (.finite .positive n (j - depth : Int) pos') =
      UnpackedFloat.round Format.binary64 .positive
        (m <<< (i - min i j) + n <<< (j - min i j)) ((min i j : Nat) - depth : Int) := by
  have least : min (i - depth : Int) (j - depth) = (min i j : Nat) - depth := by omega
  have amount : ((i - depth : Int) - ((min i j : Nat) - depth)).toNat = i - min i j := by omega
  have amount' : ((j - depth : Int) - ((min i j : Nat) - depth)).toNat = j - min i j := by omega
  have some : (0 : Int) < (m <<< (i - min i j) : Nat) + (n <<< (j - min i j) : Nat) :=
    Int.add_pos_of_pos_of_nonneg (Int.natCast_pos.mpr (Nat.shiftLeft_pos_iff.mpr pos))
      (Int.natCast_nonneg _)
  unfold UnpackedFloat.add decreaseExponent
  simp only [least, amount, amount', Sign.apply]
  unfold UnpackedFloat.normalize
  rw [Int.compare_eq_gt.mpr some]
  rfl

/-- Numbers are added at the lower of their exponents, where both are whole. -/
theorem toNat_pack_add {m n i j : Nat} (pos : 0 < m) (pos' : 0 < n) :
    (pack Format.binary64 (UnpackedFloat.add Format.binary64
        (.finite .positive m (i - depth : Int) pos)
        (.finite .positive n (j - depth : Int) pos'))).toNat = nearest (m <<< i + n <<< j) 1 := by
  obtain ⟨k, lower⟩ : ∃ k, min i j = k := ⟨_, rfl⟩
  have aligned : (m <<< (i - k) + n <<< (j - k)) <<< k = m <<< i + n <<< j := by
    have back (n : Nat) {i : Nat} (le : k ≤ i) : n <<< (i - k) * 2 ^ k = n <<< i := by
      rw [← Nat.shiftLeft_eq, ← Nat.shiftLeft_add, Nat.sub_add_cancel le]
    rw [Nat.shiftLeft_eq _ k, Nat.add_mul, back m (by omega), back n (by omega)]
  have some : 0 < m <<< (i - k) + n <<< (j - k) :=
    Nat.add_pos_left (Nat.shiftLeft_pos_iff.mpr pos) _
  rw [add_finite, lower, ← aligned]
  exact (toNat_pack_round false some).trans (Nat.add_zero _)

theorem toNat_pack_mul {m n i j : Nat} (pos : 0 < m) (pos' : 0 < n)
    (full : i = 0 ∨ binadeSize ≤ m) (full' : j = 0 ∨ binadeSize ≤ n) :
    (pack Format.binary64 (UnpackedFloat.mul Format.binary64
        (.finite .positive m (i - depth : Int) pos)
        (.finite .positive n (j - depth : Int) pos'))).toNat =
      nearest (m <<< i * n <<< j) one := by
  have product := Nat.mul_pos pos pos'
  have place : (i - depth : Int) + (j - depth) = (i + j : Nat) - depth - depth := by omega
  have together : m <<< i * n <<< j = (m * n) <<< (i + j) := by
    simp only [Nat.shiftLeft_eq, Nat.pow_add]
    ring
  have long : 52 ≤ (m * n).log2 ∨ i + j ≤ depth := by
    rcases full with rfl | some
    · rcases full' with rfl | some
      · exact .inr (Nat.zero_le _)
      · exact .inl ((Nat.le_log2 (Nat.ne_of_gt product)).mpr
          (some.trans (Nat.le_mul_of_pos_left n pos)))
    · exact .inl ((Nat.le_log2 (Nat.ne_of_gt product)).mpr
        (some.trans (Nat.le_mul_of_pos_right m pos')))
  have rounded := toNat_pack_roundWithAccuracy false long
  rw [together, one]
  unfold UnpackedFloat.mul
  simp only [place]
  exact rounded.trans (Nat.add_zero _)

/-- The sum is the double nearest to the exact sum. -/
theorem rounds_add {x y : Float} (hx : Nonnegative x) (hy : Nonnegative y) :
    Rounds (units (magnitude x) + units (magnitude y)) 1 (x + y) := by
  have none : units 0 = 0 := rfl
  rcases Nat.eq_zero_or_pos (magnitude x) with zero | pos
  · rcases Nat.eq_zero_or_pos (magnitude y) with zero' | pos'
    · have zeros := magnitude_add_zeros zero zero'
      rw [zero, zero']
      exact ⟨zeros.trans (nearest_zero 1).symm, fun _ => zeros⟩
    · rw [add_eq_right zero hy.finite pos', zero, none, Nat.zero_add]
      exact hy.rounds
  · rcases Nat.eq_zero_or_pos (magnitude y) with zero' | pos'
    · rw [add_eq_left zero' hx.finite pos, zero', none, Nat.add_zero]
      exact hx.rounds
    · apply rounds_of_toNat
      show (pack Format.binary64
        (UnpackedFloat.add Format.binary64 x.toModel.unpack y.toModel.unpack)).toNat = _
      rw [unpack_of_pos hx.finite pos, unpack_of_pos hy.finite pos', hx.isNegative pos,
        hy.isNegative pos']
      exact toNat_pack_add _ _

theorem magnitude_pack_zero (s : Sign) : magnitude (.ofModel (.pack (.zero s))) = 0 := by
  cases s <;> rfl

theorem magnitude_mul_of_zero {x y : Float} (finite : magnitude x < infinity)
    (finite' : magnitude y < infinity) (zero : magnitude x = 0 ∨ magnitude y = 0) :
    magnitude (x * y) = 0 := by
  show magnitude (.ofModel (.pack
    (UnpackedFloat.mul Format.binary64 x.toModel.unpack y.toModel.unpack))) = 0
  rcases Nat.eq_zero_or_pos (magnitude x) with none | pos
  · rw [unpack_of_zero none]
    rcases Nat.eq_zero_or_pos (magnitude y) with none' | pos'
    · rw [unpack_of_zero none']
      exact magnitude_pack_zero _
    · rw [unpack_of_pos finite' pos']
      exact magnitude_pack_zero _
  · rw [unpack_of_pos finite pos, unpack_of_zero (zero.resolve_left (Nat.ne_of_gt pos))]
    exact magnitude_pack_zero _

/-- The product is the double nearest to the exact product. -/
theorem rounds_mul {x y : Float} (hx : Nonnegative x) (hy : Nonnegative y) :
    Rounds (units (magnitude x) * units (magnitude y)) one (x * y) := by
  by_cases zero : magnitude x = 0 ∨ magnitude y = 0
  · have product := magnitude_mul_of_zero hx.finite hy.finite zero
    have none : units (magnitude x) * units (magnitude y) = 0 := by
      have units_zero : units 0 = 0 := rfl
      rcases zero with zero | zero
      · rw [zero, units_zero, Nat.zero_mul]
      · rw [zero, units_zero, Nat.mul_zero]
    rw [none]
    exact ⟨product.trans (nearest_zero one).symm, fun _ => product⟩
  · have pos : 0 < magnitude x := by omega
    have pos' : 0 < magnitude y := by omega
    apply rounds_of_toNat
    show (pack Format.binary64
      (UnpackedFloat.mul Format.binary64 x.toModel.unpack y.toModel.unpack)).toNat = _
    rw [unpack_of_pos hx.finite pos, unpack_of_pos hy.finite pos', hx.isNegative pos,
      hy.isNegative pos']
    exact toNat_pack_mul _ _ (significand_full _) (significand_full _)

/- Order. -/

theorem le_iff_compare {x y : Float} :
    x ≤ y ↔ (x.toModel.unpack.compare y.toModel.unpack).any (·.isLE) = true :=
  decide_eq_true_iff

theorem compare_pos_iff {m n : Nat} (pos : 0 < m) (pos' : 0 < n) :
    ((UnpackedFloat.finite .positive (significand m) (binade m - depth : Int)
        (significand_pos pos)).compare (.finite .positive (significand n) (binade n - depth : Int)
        (significand_pos pos'))).any (·.isLE) = true ↔ m ≤ n := by
  unfold UnpackedFloat.compare
  rw [Option.any_some, Ordering.isLE_then_iff_or, Int.compare_eq_lt, Int.compare_eq_eq,
    Nat.isLE_compare]
  unfold significand binade binadeSize
  omega

theorem Nonnegative.le_iff {x y : Float} (hx : Nonnegative x) (hy : Nonnegative y) :
    x ≤ y ↔ magnitude x ≤ magnitude y := by
  rw [le_iff_compare]
  rcases Nat.eq_zero_or_pos (magnitude x) with zero | pos
  · rw [unpack_of_zero zero]
    rcases Nat.eq_zero_or_pos (magnitude y) with zero' | pos'
    · rw [unpack_of_zero zero', zero]
      exact iff_of_true rfl (Nat.zero_le _)
    · rw [unpack_of_pos hy.finite pos', hy.isNegative pos', zero]
      exact iff_of_true rfl (Nat.zero_le _)
  · rw [unpack_of_pos hx.finite pos, hx.isNegative pos]
    rcases Nat.eq_zero_or_pos (magnitude y) with zero' | pos'
    · rw [unpack_of_zero zero', zero']
      exact iff_of_false Bool.false_ne_true (by omega)
    · rw [unpack_of_pos hy.finite pos', hy.isNegative pos']
      exact compare_pos_iff pos pos'

theorem nonnegative_iff {x : Float} : Nonnegative x ↔ x.isFinite = true ∧ 0 ≤ x := by
  have zero : (0 : Float).toModel.unpack = .zero .positive := unpack_ofInt (n := 0) (by decide)
  rw [isFinite_iff, le_iff_compare, zero]
  constructor
  · intro nonneg
    refine ⟨nonneg.finite, ?_⟩
    rcases Nat.eq_zero_or_pos (magnitude x) with none | pos
    · rw [unpack_of_zero none]
      rfl
    · rw [unpack_of_pos nonneg.finite pos, nonneg.isNegative pos]
      rfl
  · rintro ⟨finite, le⟩
    refine ⟨finite, ?_⟩
    intro negative
    rcases Nat.eq_zero_or_pos (magnitude x) with none | pos
    · exact none
    · rw [unpack_of_pos finite pos, negative] at le
      exact absurd le Bool.false_ne_true

/-- In order, and neither is negative or infinite. -/
structure Under (x y : Float) : Prop where
  lower : Nonnegative x
  upper : Nonnegative y
  le : x ≤ y

theorem Nonnegative.under_self {x : Float} (nonneg : Nonnegative x) : Under x x :=
  ⟨nonneg, nonneg, (nonneg.le_iff nonneg).mpr (Nat.le_refl _)⟩

theorem Under.units_le {x y : Float} (under : Under x y) :
    units (magnitude x) ≤ units (magnitude y) :=
  (units_le_iff under.lower.finite under.upper.finite).mpr
    ((under.lower.le_iff under.upper).mp under.le)

/-- Rounding keeps the order, and what is below a finite number is finite. -/
theorem Rounds.under {a a' b : Nat} {x y : Float} (rounds : Rounds a b x) (rounds' : Rounds a' b y)
    (le : a ≤ a') (finite : y.isFinite = true) : Under x y := by
  have below : Binary.magnitude x ≤ Binary.magnitude y := by
    rw [rounds.magnitude, rounds'.magnitude]
    exact nearest_mono le b
  have upper : Nonnegative y := ⟨isFinite_iff.mp finite, rounds'.sign⟩
  have lower : Nonnegative x := ⟨Nat.lt_of_le_of_lt below upper.finite, rounds.sign⟩
  exact ⟨lower, upper, (lower.le_iff upper).mpr below⟩

theorem Under.add {x x' y y' : Float} (left : Under x x') (right : Under y y')
    (finite : (x' + y').isFinite = true) : Under (x + y) (x' + y') :=
  (rounds_add left.lower right.lower).under (rounds_add left.upper right.upper)
    (Nat.add_le_add left.units_le right.units_le) finite

theorem Under.mul {x x' y y' : Float} (left : Under x x') (right : Under y y')
    (finite : (x' * y').isFinite = true) : Under (x * y) (x' * y') :=
  (rounds_mul left.lower right.lower).under (rounds_mul left.upper right.upper)
    (Nat.mul_le_mul left.units_le right.units_le) finite

theorem nonnegative_ofInt {n : Int} (nonneg : 0 ≤ n) (small : n.natAbs < wholeLimit) :
    Nonnegative (Float.ofInt n) := by
  obtain ⟨bits, sign⟩ := parts_ofInt small
  have positive : ¬ n < 0 := by omega
  exact ⟨isFinite_iff.mp (isFinite_ofInt small), fun negative => absurd (sign.symm.trans negative)
    (by simpa using positive)⟩

theorem under_ofInt {m n : Int} (nonneg : 0 ≤ m) (le : m ≤ n) (small : n.natAbs < wholeLimit) :
    Under (Float.ofInt m) (Float.ofInt n) := by
  have smaller : m.natAbs < wholeLimit := by omega
  have lower := nonnegative_ofInt nonneg smaller
  have upper := nonnegative_ofInt (nonneg.trans le) small
  refine ⟨lower, upper, (lower.le_iff upper).mpr ?_⟩
  rw [← units_le_iff lower.finite upper.finite, units_ofInt smaller, units_ofInt small]
  exact Nat.mul_le_mul_right one (by omega)

end DiceNotation.Binary
