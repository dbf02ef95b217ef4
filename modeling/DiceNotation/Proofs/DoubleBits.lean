import Mathlib
import DiceNotation.Number.Binary

/-!
Doubles as a sign and the bits of a magnitude. Up to infinity every pair is a double of its own,
and negating the double turns the sign around and nothing else. The bits are read as a significand
and its place, and a significand that is as long as can be is written as its bits.
-/
namespace DiceNotation.Binary

open Float.Model (UnpackedFloat Format)
open Float.Model.UnpackedFloat (Sign packComponents isNaNBits pack unpack)

/- The fields of a double. -/

abbrev fields (s : Sign) (e : BitVec 11) (m : BitVec 52) : BitVec Format.binary64.numBits :=
  packComponents Format.binary64 s e m

theorem neg_unpack_fields (s : Sign) (e : BitVec 11) (m : BitVec 52) :
    (unpack Format.binary64 (fields s e m)).neg = unpack Format.binary64 (fields (-s) e m) := by
  simp only [unpack, UnpackedFloat.unpackMantissa_packComponents,
    UnpackedFloat.unpackExponent_packComponents, UnpackedFloat.unpackSign_packComponents,
    Sign.ofBitVec_toBitVec]
  split
  · split <;> rfl
  · split
    · split <;> rfl
    · rfl

theorem isFinite_unpack_fields (s : Sign) (e : BitVec 11) (m : BitVec 52) :
    (unpack Format.binary64 (fields s e m)).isFinite = true ↔ e ≠ -1#11 := by
  simp only [unpack, UnpackedFloat.unpackMantissa_packComponents,
    UnpackedFloat.unpackExponent_packComponents]
  split
  · rename_i top
    split <;> exact ⟨fun finite => Bool.noConfusion finite, fun h => absurd top h⟩
  · rename_i low
    refine ⟨fun _ => low, fun _ => ?_⟩
    split
    · split <;> rfl
    · rfl

theorem isNaN_unpack_fields (s : Sign) (e : BitVec 11) (m : BitVec 52) :
    (unpack Format.binary64 (fields s e m)).isNaN = true ↔ e = -1#11 ∧ m ≠ 0#52 := by
  simp only [unpack, UnpackedFloat.unpackMantissa_packComponents,
    UnpackedFloat.unpackExponent_packComponents]
  split
  · rename_i top
    split
    · rename_i none
      exact ⟨fun nan => Bool.noConfusion nan, fun h => absurd none h.2⟩
    · rename_i some
      exact ⟨fun _ => ⟨top, some⟩, fun _ => rfl⟩
  · rename_i low
    refine ⟨fun nan => ?_, fun h => absurd h.1 low⟩
    split at nan
    · split at nan <;> exact Bool.noConfusion nan
    · exact Bool.noConfusion nan

/-- Packing undoes unpacking where the fields are those of a number or an infinity. -/
theorem pack_unpack_fields (s : Sign) (e : BitVec 11) (m : BitVec 52)
    (number : e = -1#11 → m = 0#52) :
    pack Format.binary64 (unpack Format.binary64 (fields s e m)) = fields s e m := by
  have valid : isNaNBits (fields s e m) = false := by
    simpa [isNaNBits] using number
  rw [UnpackedFloat.pack_unpack, valid]
  rfl

/- The same on the numbers that the fields spell. -/

def signOf (negative : Bool) : Sign := if negative then .negative else .positive

theorem toNat_signOf (negative : Bool) :
    (signOf negative).toBitVec.toNat = if negative then 1 else 0 := by
  cases negative <;> rfl

theorem toNat_append {n k : Nat} (x : BitVec n) (y : BitVec k) :
    (x ++ y).toNat = x.toNat <<< k + y.toNat := by
  rw [BitVec.toNat_append, ← Nat.shiftLeft_add_eq_or_of_lt y.isLt]

theorem toNat_fields (s : Sign) (e : BitVec 11) (m : BitVec 52) :
    (fields s e m).toNat = (s.toBitVec.toNat * 0x800 + e.toNat) * binadeSize + m.toNat := by
  show (s.toBitVec ++ e ++ m).toNat = _
  rw [toNat_append, toNat_append, Nat.shiftLeft_eq, Nat.shiftLeft_eq]
  rfl

theorem eq_fields {negative : Bool} {bits : Nat} {w : BitVec 64} (small : bits < signBit)
    (value : w.toNat = bits + if negative then signBit else 0) :
    w = fields (signOf negative) (BitVec.ofNat 11 (bits / binadeSize)) (BitVec.ofNat 52 bits) := by
  apply BitVec.eq_of_toNat_eq
  rw [toNat_fields, value, toNat_signOf, BitVec.toNat_ofNat, BitVec.toNat_ofNat]
  unfold binadeSize signBit at *
  cases negative <;> simp <;> omega

theorem top_iff {bits : Nat} (small : bits < signBit) :
    BitVec.ofNat 11 (bits / binadeSize) = -1#11 ↔ infinity ≤ bits := by
  rw [← BitVec.toNat_inj]
  show bits / binadeSize % 0x800 = 0x7ff ↔ _
  unfold infinity binadeSize signBit at *
  omega

theorem number_of_le {bits : Nat} (h : bits ≤ infinity) :
    BitVec.ofNat 11 (bits / binadeSize) = -1#11 → BitVec.ofNat 52 bits = 0#52 := by
  intro top
  have exact : bits = infinity :=
    Nat.le_antisymm h ((top_iff (Nat.lt_of_le_of_lt h (by decide))).mp top)
  rw [exact]
  rfl

theorem toBits_ofMagnitude (negative : Bool) {bits : Nat} (h : bits ≤ infinity) :
    (ofMagnitude negative bits).toBits.toNat = bits + if negative then signBit else 0 := by
  have small : bits < signBit := Nat.lt_of_le_of_lt h (by decide)
  have value : (bits + if negative then signBit else 0).toUInt64.toBitVec.toNat =
      bits + if negative then signBit else 0 := by
    refine Nat.mod_eq_of_lt ?_
    unfold signBit at *
    cases negative <;> simp <;> omega
  show (pack Format.binary64 (unpack Format.binary64
    (bits + if negative then signBit else 0).toUInt64.toBitVec)).toNat = _
  rw [eq_fields small value, pack_unpack_fields _ _ _ (number_of_le h), ← eq_fields small value]
  exact value

theorem toNat_toBits (x : Float) :
    x.toBits.toNat = magnitude x + if isNegative x then signBit else 0 := by
  have bound := x.toBits.toNat_lt
  unfold magnitude isNegative signBit at *
  by_cases h : 0x8000000000000000 ≤ x.toBits.toNat <;> simp [h] <;> omega

theorem magnitude_lt (x : Float) : magnitude x < signBit := Nat.mod_lt _ (by decide)

theorem magnitude_ofMagnitude (negative : Bool) {bits : Nat} (h : bits ≤ infinity) :
    magnitude (ofMagnitude negative bits) = bits := by
  have small : bits < signBit := Nat.lt_of_le_of_lt h (by decide)
  rw [magnitude, toBits_ofMagnitude negative h]
  cases negative
  · exact Nat.mod_eq_of_lt small
  · exact (Nat.add_mod_right _ _).trans (Nat.mod_eq_of_lt small)

theorem isNegative_ofMagnitude (negative : Bool) {bits : Nat} (h : bits ≤ infinity) :
    isNegative (ofMagnitude negative bits) = negative := by
  have small : bits < signBit := Nat.lt_of_le_of_lt h (by decide)
  rw [isNegative, toBits_ofMagnitude negative h]
  cases negative
  · exact decide_eq_false (Nat.not_le_of_lt small)
  · exact decide_eq_true (Nat.le_add_left _ _)

theorem parts_of_toNat {x : Float} {negative : Bool} {bits : Nat} (small : bits ≤ infinity)
    (value : x.toBits.toNat = bits + if negative then signBit else 0) :
    magnitude x = bits ∧ isNegative x = negative := by
  have same : x = ofMagnitude negative bits :=
    Float.toBits_inj.mp (UInt64.toNat_inj.mp (value.trans (toBits_ofMagnitude negative small).symm))
  rw [same]
  exact ⟨magnitude_ofMagnitude negative small, isNegative_ofMagnitude negative small⟩

theorem ofMagnitude_parts (x : Float) : ofMagnitude (isNegative x) (magnitude x) = x := by
  unfold ofMagnitude
  rw [← toNat_toBits]
  simp [Nat.toUInt64]

theorem neg_signOf (negative : Bool) : -signOf negative = signOf !negative := by
  cases negative <;> rfl

theorem unpack_ofMagnitude (negative : Bool) {bits : Nat} (h : bits ≤ infinity) :
    (ofMagnitude negative bits).toModel.unpack = unpack Format.binary64
      (fields (signOf negative) (BitVec.ofNat 11 (bits / binadeSize)) (BitVec.ofNat 52 bits)) :=
  congrArg (unpack Format.binary64)
    (eq_fields (Nat.lt_of_le_of_lt h (by decide)) (toBits_ofMagnitude negative h))

theorem neg_ofMagnitude (negative : Bool) {bits : Nat} (h : bits ≤ infinity) :
    -ofMagnitude negative bits = ofMagnitude (!negative) bits := by
  have small : bits < signBit := Nat.lt_of_le_of_lt h (by decide)
  apply Float.toBits_inj.mp
  apply UInt64.toNat_inj.mp
  show (pack Format.binary64 (ofMagnitude negative bits).toModel.unpack.neg).toNat = _
  rw [unpack_ofMagnitude negative h, neg_unpack_fields, neg_signOf,
    pack_unpack_fields _ _ _ (number_of_le h)]
  exact congrArg BitVec.toNat (eq_fields small (toBits_ofMagnitude (!negative) h)).symm

theorem parts_neg {x : Float} (number : magnitude x ≤ infinity) :
    magnitude (-x) = magnitude x ∧ isNegative (-x) = !isNegative x := by
  have opposite := neg_ofMagnitude (isNegative x) number
  rw [ofMagnitude_parts] at opposite
  rw [opposite]
  exact ⟨magnitude_ofMagnitude _ number, isNegative_ofMagnitude _ number⟩

theorem isFinite_iff {x : Float} : x.isFinite = true ↔ magnitude x < infinity := by
  have w := eq_fields (magnitude_lt x) (toNat_toBits x)
  have value : x.isFinite = (unpack Format.binary64 x.toBits.toBitVec).isFinite := rfl
  rw [value, w, isFinite_unpack_fields, ne_eq, top_iff (magnitude_lt x), Nat.not_le]

theorem isNaN_iff {x : Float} : x.isNaN = true ↔ infinity < magnitude x := by
  have w := eq_fields (magnitude_lt x) (toNat_toBits x)
  have value : x.isNaN = (unpack Format.binary64 x.toBits.toBitVec).isNaN := rfl
  have small := magnitude_lt x
  have whole : BitVec.ofNat 52 (magnitude x) = 0#52 ↔ magnitude x % binadeSize = 0 := by
    rw [← BitVec.toNat_inj]
    exact Iff.rfl
  rw [value, w, isNaN_unpack_fields, top_iff small, ne_eq, whole]
  unfold infinity binadeSize signBit at *
  omega

theorem isNaN_eq_false_iff {x : Float} : x.isNaN = false ↔ magnitude x ≤ infinity := by
  rw [← Bool.not_eq_true, isNaN_iff, Nat.not_lt]

theorem isInf_iff {x : Float} : x.isInf = true ↔ magnitude x = infinity := by
  have third : x.isInf = (!x.isFinite && !x.isNaN) := by
    show x.toModel.unpack.isInf = (!x.toModel.unpack.isFinite && !x.toModel.unpack.isNaN)
    cases x.toModel.unpack <;> rfl
  have finite := @isFinite_iff x
  have number := @isNaN_eq_false_iff x
  rw [third, Bool.and_eq_true, Bool.not_eq_true', Bool.not_eq_true', ← Bool.not_eq_true, finite,
    number]
  omega

theorem isFinite_iff_not {x : Float} :
    x.isFinite = true ↔ x.isNaN = false ∧ x.isInf = false := by
  rw [← Bool.not_eq_true x.isInf, isFinite_iff, isNaN_eq_false_iff, isInf_iff]
  omega

/- Packing. -/

theorem toNat_fields_signOf (negative : Bool) (e : BitVec 11) (m : BitVec 52) :
    (fields (signOf negative) e m).toNat =
      e.toNat * binadeSize + m.toNat + if negative then signBit else 0 := by
  rw [toNat_fields, toNat_signOf]
  unfold signBit binadeSize
  split_ifs <;> omega

theorem toNat_pack_zero (negative : Bool) :
    (pack Format.binary64 (.zero (signOf negative))).toNat = if negative then signBit else 0 := by
  cases negative <;> rfl

theorem toNat_pack_finite (negative : Bool) {m k : Nat} (pos : 0 < m) (small : m < 2 * binadeSize)
    (full : k = 0 ∨ binadeSize ≤ m) :
    (pack Format.binary64 (.finite (signOf negative) m (k - depth : Int) pos)).toNat =
      min (k * binadeSize + m) infinity + if negative then signBit else 0 := by
  have biased : ((k - depth : Int) + Format.binary64.exponentBias +
      Format.binary64.mantissaBitsWithoutImplicit).toNat = k + 1 := by
    have bias : (Format.binary64.exponentBias : Int) = 1023 := rfl
    have width : (Format.binary64.mantissaBitsWithoutImplicit : Int) = 52 := rfl
    unfold depth
    omega
  have top : 2 ^ Format.binary64.exponentBits = 2048 := rfl
  have bits : Format.binary64.mantissaBits = 53 := rfl
  unfold pack
  simp only [biased, top, bits]
  by_cases large : 2048 ≤ k + 1 + 1
  · have above : infinity ≤ k * binadeSize + m := by
      unfold infinity binadeSize at *
      omega
    rw [if_pos large, Nat.min_eq_right above]
    exact toNat_fields_signOf negative _ _
  · have within : k * binadeSize + m ≤ infinity := by
      unfold infinity binadeSize at *
      omega
    rw [if_neg large, Nat.min_eq_left within]
    by_cases normal : binadeSize ≤ m
    · have log : m.log2 = 52 := (Nat.log2_eq_iff (Nat.ne_of_gt pos)).mpr ⟨normal, small⟩
      rw [if_pos (by omega), toNat_fields_signOf, BitVec.toNat_ofNat, BitVec.toNat_ofNat]
      unfold binadeSize at *
      omega
    · have log : m.log2 ≠ 52 := by
        intro log
        exact normal ((Nat.log2_eq_iff (Nat.ne_of_gt pos)).mp log).1
      obtain rfl := full.resolve_right normal
      rw [if_neg (by omega), toNat_fields_signOf, BitVec.toNat_ofNat]
      unfold binadeSize at *
      simp
      omega

/- Unpacking. -/

/-- The places of a double, of which its value has `binade bits` more. -/
def significand (bits : Nat) : Nat := bits - binade bits * binadeSize

theorem units_eq (bits : Nat) : units bits = significand bits <<< binade bits := rfl

theorem significand_pos {bits : Nat} (pos : 0 < bits) : 0 < significand bits := by
  unfold significand binade binadeSize
  omega

theorem significand_full (bits : Nat) : binade bits = 0 ∨ binadeSize ≤ significand bits := by
  unfold significand binade binadeSize
  omega

theorem unpack_fields (s : Sign) {e : BitVec 11} (low : e ≠ -1#11) (high : e ≠ 0#11)
    (m : BitVec 52) : unpack Format.binary64 (fields s e m) =
      .finite s (binadeSize + m.toNat) (e.toNat - 1075) (Nat.add_pos_left (by decide) _) := by
  have significand : (1#1 ++ m).toNat = binadeSize + m.toNat := toNat_append _ _
  have bias : ((Format.binary64.exponentBias : Int) + Format.binary64.mantissaBitsWithoutImplicit)
      = 1075 := rfl
  simp only [unpack, UnpackedFloat.unpackMantissa_packComponents,
    UnpackedFloat.unpackExponent_packComponents, UnpackedFloat.unpackSign_packComponents,
    Sign.ofBitVec_toBitVec, if_neg low, if_neg high, bias, significand]

theorem unpack_fields_low (s : Sign) {m : BitVec 52} (some : m ≠ 0#52) :
    unpack Format.binary64 (fields s 0#11 m) =
      .finite s m.toNat (-depth)
        (Nat.pos_of_ne_zero fun none => some (BitVec.eq_of_toNat_eq none)) := by
  have differs : (0#11 : BitVec 11) ≠ -1#11 := by decide
  have place : (((0#11).toNat : Int) - (Format.binary64.exponentBias +
      Format.binary64.mantissaBitsWithoutImplicit) + 1) = -depth := rfl
  simp only [unpack, UnpackedFloat.unpackMantissa_packComponents,
    UnpackedFloat.unpackExponent_packComponents, UnpackedFloat.unpackSign_packComponents,
    Sign.ofBitVec_toBitVec, if_neg differs, dif_neg some, place]
  rfl

theorem unpack_magnitude (s : Sign) {bits : Nat} (finite : bits < infinity) (pos : 0 < bits) :
    unpack Format.binary64 (fields s (BitVec.ofNat 11 (bits / binadeSize)) (BitVec.ofNat 52 bits)) =
      .finite s (significand bits) (binade bits - depth : Int) (significand_pos pos) := by
  have rest : (BitVec.ofNat 52 bits).toNat = bits % binadeSize := BitVec.toNat_ofNat bits 52
  by_cases normal : binadeSize ≤ bits
  · have field : (BitVec.ofNat 11 (bits / binadeSize)).toNat = bits / binadeSize := by
      rw [BitVec.toNat_ofNat]
      unfold infinity binadeSize at *
      omega
    have low : BitVec.ofNat 11 (bits / binadeSize) ≠ -1#11 := fun top =>
      absurd ((top_iff (Nat.lt_trans finite (by decide))).mp top) (Nat.not_le_of_lt finite)
    have high : BitVec.ofNat 11 (bits / binadeSize) ≠ 0#11 := by
      intro zero
      have none : bits / binadeSize = 0 := field.symm.trans (congrArg BitVec.toNat zero)
      unfold binadeSize at *
      omega
    have mantissa : binadeSize + bits % binadeSize = significand bits := by
      unfold significand binade binadeSize at *
      omega
    have place : ((bits / binadeSize : Nat) : Int) - 1075 = binade bits - depth := by
      unfold binade depth binadeSize at *
      omega
    rw [unpack_fields s low high]
    simp only [field, rest, mantissa, place]
  · have zero : BitVec.ofNat 11 (bits / binadeSize) = 0#11 := by
      rw [Nat.div_eq_of_lt (Nat.lt_of_not_le normal)]
    have some : BitVec.ofNat 52 bits ≠ 0#52 := by
      intro none
      have none : bits % binadeSize = 0 := rest.symm.trans (congrArg BitVec.toNat none)
      unfold binadeSize at *
      omega
    have mantissa : bits % binadeSize = significand bits := by
      unfold significand binade binadeSize at *
      omega
    have place : (-depth : Int) = binade bits - depth := by
      unfold binade binadeSize at *
      omega
    rw [zero, unpack_fields_low s some]
    simp only [rest, mantissa, place]

/-- A significand and its binade make up the bits of a magnitude. -/
theorem parts_of_full {m k : Nat} (small : m < 2 * binadeSize) (full : k = 0 ∨ binadeSize ≤ m) :
    significand (k * binadeSize + m) = m ∧ binade (k * binadeSize + m) = k := by
  unfold significand binade binadeSize at *
  omega

theorem units_of_full {m k : Nat} (small : m < 2 * binadeSize) (full : k = 0 ∨ binadeSize ≤ m) :
    units (k * binadeSize + m) = m <<< k := by
  obtain ⟨mantissa, place⟩ := parts_of_full small full
  rw [units_eq, mantissa, place]

theorem unpack_pack_finite (negative : Bool) {m k : Nat} (pos : 0 < m) (small : m < 2 * binadeSize)
    (full : k = 0 ∨ binadeSize ≤ m) (finite : k * binadeSize + m < infinity) :
    unpack Format.binary64
        (pack Format.binary64 (.finite (signOf negative) m (k - depth : Int) pos)) =
      .finite (signOf negative) m (k - depth : Int) pos := by
  have packed := toNat_pack_finite negative pos small full
  rw [Nat.min_eq_left (Nat.le_of_lt finite)] at packed
  obtain ⟨mantissa, place⟩ := parts_of_full small full
  rw [eq_fields (Nat.lt_trans finite (by decide)) packed,
    unpack_magnitude _ finite (Nat.add_pos_right _ pos)]
  simp only [mantissa, place]

theorem unpack_of_zero {x : Float} (zero : magnitude x = 0) :
    x.toModel.unpack = .zero (signOf (isNegative x)) := by
  rw [← ofMagnitude_parts x, unpack_ofMagnitude _ (by rw [zero]; decide), zero,
    isNegative_ofMagnitude _ (by decide)]
  cases isNegative x <;> rfl

theorem unpack_of_pos {x : Float} (finite : magnitude x < infinity) (pos : 0 < magnitude x) :
    x.toModel.unpack = .finite (signOf (isNegative x)) (significand (magnitude x))
      (binade (magnitude x) - depth : Int) (significand_pos pos) := by
  have unpacked := unpack_magnitude (signOf (isNegative x)) finite pos
  rwa [← unpack_ofMagnitude _ (Nat.le_of_lt finite), ofMagnitude_parts] at unpacked

end DiceNotation.Binary
