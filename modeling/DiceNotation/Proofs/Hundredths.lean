import DiceNotation.Proofs.Formats
import DiceNotation.Proofs.OppositeDoubles
import DiceNotation.Proofs.Quotients
import DiceNotation.Proofs.Spellings

/-!
The mean in a shown line. It is multiplied by a hundred, rounded to a whole number and divided by a
hundred. Only the multiplication can leave the range of doubles, and what left it never comes back:
a mean is shown as a number up to about a hundredth of the greatest double, and as infinite above.
-/
namespace DiceNotation

open Expression (flatNumbers)

namespace Binary

/- The end of the range. -/

/-- Halfway from the greatest double to the next power of two. -/
def overflow : Nat := 2 ^ 1024 - 2 ^ 970

theorem nearest_lt_infinity_iff {a : Nat} : nearest a 1 < infinity ↔ a < overflow * one := by
  have least : nearest (overflow * one) 1 = infinity := by decide +kernel
  have greatest : nearest (overflow * one - 1) 1 < infinity := by decide +kernel
  constructor
  · intro finite
    by_contra above
    have rounded := nearest_mono (Nat.le_of_not_lt above) 1
    omega
  · intro small
    exact Nat.lt_of_le_of_lt (nearest_mono (Nat.le_sub_one_of_lt small) 1) greatest

theorem eq_infinity {x : Float} (large : magnitude x = infinity) :
    x = ofMagnitude (isNegative x) infinity := by
  rw [← large]
  exact (ofMagnitude_parts x).symm

/- Opposites. -/

/-- A finite double or its opposite is not below zero. -/
theorem nonnegative_or_opposite {x : Float} (finite : magnitude x < infinity) :
    Nonnegative x ∧ isNegative x = false ∨ Nonnegative (-x) ∧ isNegative x = true := by
  cases sign : isNegative x with
  | false => exact .inl ⟨⟨finite, fun negative => by rw [sign] at negative; cases negative⟩, rfl⟩
  | true =>
    obtain ⟨same, opposite⟩ := parts_neg (Nat.le_of_lt finite)
    refine .inr ⟨⟨same ▸ finite, fun negative => ?_⟩, rfl⟩
    rw [opposite, sign] at negative
    cases negative

/- Rounding to whole numbers. -/

theorem magnitude_roundWhole_lt {x : Float} (finite : magnitude x < infinity) :
    magnitude (roundWhole x) < infinity := by
  unfold roundWhole
  dsimp only
  split
  · exact finite
  · rename_i fraction
    have top : units (1075 * binadeSize) = binadeSize * one := by decide +kernel
    have unit : 0 < one := by decide
    have below : units (magnitude x) ≤ binadeSize * one := by
      rw [← top, units_le_iff finite (by decide)]
      exact Nat.le_of_not_le fraction
    have whole : (2 * units (magnitude x) + one) / (2 * one) ≤ binadeSize := by
      have room : (binadeSize + 1) * (2 * one) = 2 * (binadeSize * one) + 2 * one := by ring
      apply Nat.le_of_lt_succ
      rw [Nat.div_lt_iff_lt_mul (by omega), Nat.succ_eq_add_one, room]
      omega
    have rounded : nearest ((2 * units (magnitude x) + one) / (2 * one) * one) 1 < infinity := by
      rw [nearest_lt_infinity_iff]
      calc
        _ ≤ binadeSize * one := Nat.mul_le_mul_right _ whole
        _ < overflow * one := Nat.mul_lt_mul_of_pos_right (by decide +kernel) unit
    rwa [magnitude_ofMagnitude _ (Nat.le_of_lt rounded)]

theorem roundWhole_neg {x : Float} (number : magnitude x ≤ infinity) :
    roundWhole (-x) = -roundWhole x := by
  obtain ⟨same, opposite⟩ := parts_neg number
  unfold roundWhole
  dsimp only
  rw [same, opposite]
  split
  · rfl
  · exact (neg_ofMagnitude _ (nearest_le _ _)).symm

theorem Nonnegative.roundWhole {x : Float} (nonneg : Nonnegative x) :
    Nonnegative (roundWhole x) := by
  refine ⟨magnitude_roundWhole_lt nonneg.finite, ?_⟩
  unfold Binary.roundWhole
  dsimp only
  split
  · exact nonneg.sign
  · rw [isNegative_ofMagnitude _ (nearest_le _ _), magnitude_ofMagnitude _ (nearest_le _ _)]
    intro negative
    -- Only a negative zero is negative here, and it is rounded to itself.
    rw [nonneg.sign negative]
    decide +kernel

/- Hundredths. -/

theorem units_hundred : units (magnitude 100) = 100 * one := units_ofInt (n := 100) (by decide)

theorem nonnegative_hundred : Nonnegative 100 where
  finite := isFinite_iff.mp (isFinite_ofInt (n := 100) (by decide))
  sign negative := by
    have positive : isNegative 100 = false := (parts_ofInt (n := 100) (by decide)).2
    rw [positive] at negative
    cases negative

theorem rounds_mul_hundred {x : Float} (nonneg : Nonnegative x) :
    Rounds (100 * units (magnitude x)) 1 (x * 100) := by
  obtain ⟨product, sign⟩ := rounds_mul nonneg nonnegative_hundred
  have scale : units (magnitude x) * units (magnitude 100) = 100 * units (magnitude x) * one := by
    rw [units_hundred]
    ring
  have exact := nearest_mul_right (100 * units (magnitude x)) 1 (c := one) (by decide)
  rw [Nat.one_mul] at exact
  exact ⟨by rw [product, scale, exact], sign⟩

theorem rounds_div_hundred {x : Float} (nonneg : Nonnegative x) :
    Rounds (units (magnitude x)) 100 (x / 100) := by
  have bits : magnitude 100 = wholeBits 100 := (parts_ofInt (n := 100) (by decide)).1
  obtain ⟨quotient, sign⟩ := rounds_div nonneg nonnegative_hundred (by rw [bits]; decide)
  have exact := nearest_mul_right (units (magnitude x)) 100 (c := one) (by decide)
  exact ⟨by rw [quotient, units_hundred, exact], sign⟩

/-- The hundredth part of a double is no greater than the double. -/
theorem magnitude_div_hundred_lt {x : Float} (nonneg : Nonnegative x) :
    magnitude (x / 100) < infinity := by
  rw [(rounds_div_hundred nonneg).magnitude]
  calc
    nearest (units (magnitude x)) 100 ≤ nearest (units (magnitude x) * 100) (1 * 100) :=
      nearest_mono (Nat.le_mul_of_pos_right _ (by decide)) 100
    _ = nearest (units (magnitude x)) 1 := nearest_mul_right _ 1 (by decide)
    _ = magnitude x := nearest_units nonneg.finite
    _ < infinity := nonneg.finite

theorem infinity_div_hundred (negative : Bool) :
    ofMagnitude negative infinity / 100 = ofMagnitude negative infinity := by
  cases negative <;> rfl

theorem roundWhole_infinity (negative : Bool) :
    roundWhole (ofMagnitude negative infinity) = ofMagnitude negative infinity := by
  unfold roundWhole
  rw [magnitude_ofMagnitude _ (le_refl _)]
  exact if_pos (by decide)

end Binary

open Binary

theorem magnitude_hundredths_lt {x : Float} (nonneg : Nonnegative x)
    (small : 100 * units (magnitude x) < overflow * one) :
    magnitude (hundredths x) < infinity := by
  obtain ⟨product, sign⟩ := rounds_mul_hundred nonneg
  have scaled : Nonnegative (x * 100) := ⟨product ▸ nearest_lt_infinity_iff.mpr small, sign⟩
  exact magnitude_div_hundred_lt scaled.roundWhole

/-- What the multiplication makes infinite stays infinite. -/
theorem hundredths_of_large {x : Float} (nonneg : Nonnegative x)
    (large : overflow * one ≤ 100 * units (magnitude x)) :
    hundredths x = ofMagnitude false infinity := by
  obtain ⟨product, sign⟩ := rounds_mul_hundred nonneg
  have top : magnitude (x * 100) = infinity := by
    have beyond := nearest_lt_infinity_iff.not.mpr (Nat.not_lt_of_le large)
    have bound := nearest_le (100 * units (magnitude x)) 1
    omega
  have positive : isNegative (x * 100) = false := by
    by_contra negative
    rw [Bool.not_eq_false] at negative
    rw [sign negative] at top
    exact absurd top (by decide)
  have scaled := eq_infinity top
  rw [positive] at scaled
  rw [hundredths, scaled, roundWhole_infinity, infinity_div_hundred]

theorem hundredths_neg {x : Float} (number : magnitude (x * 100) ≤ infinity) :
    hundredths (-x) = -hundredths x := by
  rw [hundredths, neg_mul_float, roundWhole_neg number, neg_div_float, hundredths]

theorem magnitude_mul_hundred_le {x : Float} (nonneg : Nonnegative x) :
    magnitude (x * 100) ≤ infinity := by
  rw [(rounds_mul_hundred nonneg).magnitude]
  exact nearest_le _ _

theorem hundredths_of_nonnegative {x : Float} (nonneg : Nonnegative x) :
    100 * units (magnitude x) < overflow * one ∧ magnitude (hundredths x) < infinity ∨
      overflow * one ≤ 100 * units (magnitude x) ∧ hundredths x = ofMagnitude false infinity :=
  (Nat.lt_or_ge _ _).imp (fun small => ⟨small, magnitude_hundredths_lt nonneg small⟩)
    fun large => ⟨large, hundredths_of_large nonneg large⟩

/-- What the mean becomes, by its size alone: a number, or an infinity of the same sign. -/
theorem hundredths_cases {x : Float} (finite : x.isFinite = true) :
    100 * units (magnitude x) < overflow * one ∧ (hundredths x).isFinite = true ∨
      overflow * one ≤ 100 * units (magnitude x) ∧
        hundredths x = ofMagnitude (isNegative x) infinity := by
  have below := isFinite_iff.mp finite
  rcases nonnegative_or_opposite below with ⟨nonneg, sign⟩ | ⟨nonneg, sign⟩
  · rw [sign, isFinite_iff]
    exact hundredths_of_nonnegative nonneg
  · have opposite := hundredths_neg (magnitude_mul_hundred_le nonneg)
    have cases := hundredths_of_nonnegative nonneg
    rw [neg_neg_float] at opposite
    rw [(parts_neg (Nat.le_of_lt below)).1] at cases
    rw [sign, opposite, isFinite_iff]
    rcases cases with ⟨small, finite'⟩ | ⟨large, infinite⟩
    · exact .inl ⟨small, by rwa [(parts_neg (Nat.le_of_lt finite')).1]⟩
    · refine .inr ⟨large, ?_⟩
      rw [infinite, neg_ofMagnitude _ (le_refl _)]
      rfl

/-- The limit on the value of a double. -/
theorem hundred_lt_iff (x : Float) : 100 * |toRat x| < 2 ^ 1024 - 2 ^ 970 ↔
    100 * units (magnitude x) < overflow * one := by
  have unit : (0 : ℚ) < one := Nat.cast_pos.mpr (by decide)
  have size : |toRat x| = units (magnitude x) / one := by
    have quotient : (0 : ℚ) ≤ units (magnitude x) / one :=
      div_nonneg (Nat.cast_nonneg _) (le_of_lt unit)
    unfold toRat
    split
    · rw [neg_one_mul, abs_neg, abs_of_nonneg quotient]
    · rw [one_mul, abs_of_nonneg quotient]
  have powers {k n : Nat} (le : k ≤ n) : ((2 ^ n - 2 ^ k : Nat) : ℚ) = 2 ^ n - 2 ^ k := by
    rw [Nat.cast_sub (Nat.pow_le_pow_right Nat.two_pos le), Nat.cast_pow, Nat.cast_pow,
      Nat.cast_ofNat]
  have limit : (overflow : ℚ) = 2 ^ 1024 - 2 ^ 970 := powers (by decide)
  have scaled : 100 * (units (magnitude x) / one : ℚ) = (100 * units (magnitude x) : Nat) / one := by
    rw [Nat.cast_mul, mul_div_assoc]
    rfl
  rw [size, ← limit, scaled, div_lt_iff₀ unit, ← Nat.cast_mul, Nat.cast_lt]

/- The line. -/

/-- A decimal number, with a sign or without, that reads back as the double. -/
def Spells (text : String) (x : Float) : Prop := ∃ digits, IsNumeral digits ∧
  readNumber digits = ofMagnitude false (magnitude x) ∧
    text.toList = if isNegative x then '-' :: digits else digits

theorem spells_write {x : Float} (finite : x.isFinite = true) :
    Spells (flatNumbers.write x) x :=
  ⟨_, isNumeral_writeMagnitude _, readNumber_writeMagnitude (isFinite_iff.mp finite),
    toList_write finite⟩

namespace Outcome

/-- The line of an outcome, with its flat text and the words for its mean. -/
def lineWith (o : Outcome Float) (text mean : String) : String :=
  text ++ " > " ++ flatNumbers.write o.value ++ " \x7bmin: " ++ flatNumbers.write o.stats.min ++
    ", max: " ++ flatNumbers.write o.stats.max ++ ", avg: " ++ mean ++ " \x7d"

theorem line_eq_lineWith {o : Outcome Float} {text : String}
    (tree : o.expression.flatText = .ok text) :
    o.line = .ok (o.lineWith text (flatNumbers.write (hundredths o.stats.avg))) := by
  unfold line
  rw [tree]
  simp only [lineWith, Stats.text, String.append_assoc]
  rfl

/-- As long as a hundred times the mean rounds to a double, a finite mean is shown as the number
that it is rounded to; beyond, it is shown as an infinity of its sign. -/
theorem mean_shown_below_limit (o : Outcome Float) (resolved : o.expression.isResolved = true)
    (finite : o.stats.avg.isFinite = true) :
    ∃ text mean, o.expression.flatText = .ok text ∧ o.line = .ok (o.lineWith text mean) ∧
      (100 * |toRat o.stats.avg| < 2 ^ 1024 - 2 ^ 970 →
        (hundredths o.stats.avg).isFinite = true ∧ Spells mean (hundredths o.stats.avg)) ∧
      (2 ^ 1024 - 2 ^ 970 ≤ 100 * |toRat o.stats.avg| →
        (hundredths o.stats.avg).isFinite = false ∧
          mean = if isNegative o.stats.avg then "-Infinity" else "Infinity") := by
  obtain ⟨text, tree⟩ := exists_flatText resolved
  refine ⟨text, _, tree, line_eq_lineWith tree, ?_⟩
  have limit := hundred_lt_iff o.stats.avg
  rcases hundredths_cases finite with ⟨small, finite'⟩ | ⟨large, infinite⟩
  · refine ⟨fun _ => ⟨finite', spells_write finite'⟩, fun beyond => ?_⟩
    exact absurd (limit.mpr small) (not_lt_of_ge beyond)
  · refine ⟨fun within => ?_, fun _ => ?_⟩
    · exact absurd (limit.mp within) (Nat.not_lt_of_le large)
    · rw [infinite]
      cases isNegative o.stats.avg <;> exact ⟨by decide +kernel, by decide +kernel⟩

/-- The greatest double is finite, and no number is shown for it. -/
theorem greatest_mean_shown :
    let x := ofMagnitude false (infinity - 1)
    let o : Outcome Float := ⟨.number x, x, .constant x⟩
    o.expression.isResolved = true ∧ o.stats.avg.isFinite = true ∧
      ∃ text, o.line = .ok (o.lineWith text "Infinity") := by
  intro x o
  have finite : o.stats.avg.isFinite = true := by decide +kernel
  obtain ⟨text, mean, -, line, -, beyond⟩ := o.mean_shown_below_limit rfl finite
  have large : 2 ^ 1024 - 2 ^ 970 ≤ 100 * |toRat o.stats.avg| := by
    rw [← not_lt, hundred_lt_iff]
    decide +kernel
  obtain ⟨-, rfl⟩ := beyond large
  exact ⟨rfl, finite, text, line⟩

end Outcome

/-- A text of a single numeral is worth its number. -/
theorem Session.execute_numeral {σ : Type} [Roller σ] (s : Session σ) {text : List Char}
    (numeral : IsNumeral text) :
    s.execute (String.ofList text) = (.ok (.number (readNumber text)), s) := by
  obtain ⟨kind, numeral, found⟩ := numeral
  have written : Written .sum text (.number (readNumber text)) :=
    ⟨_, .product (.term (.number numeral)), fun rest closed => lex_append found closed⟩
  unfold execute
  rw [Expression.parse_ofList_of_written written]
  rfl

/-- The mean of one and 308 zeros is finite, and is shown as an infinity. -/
theorem execute_long_numeral :
    let text := '1' :: List.replicate 308 '0'
    ∃ o t, (⟨defaultLimit, ⟨1, 1⟩⟩ : Session SteppedDice).execute (String.ofList text) =
        (.ok o, t) ∧
      o.expression.isResolved = true ∧ o.stats.avg.isFinite = true ∧
      (hundredths o.stats.avg).isFinite = false ∧
      o.line = .ok (o.lineWith (flatNumbers.write o.value) "Infinity") := by
  intro text
  have digits : Digits text := by
    refine ⟨List.cons_ne_nil _ _, fun c member => ?_⟩
    rcases List.mem_cons.mp member with rfl | zero
    · decide
    · rw [List.eq_of_mem_replicate zero]
      decide
  have value : readNumber text = ofMagnitude false 0x7fe1ccf385ebc8a0 := by decide +kernel
  refine ⟨_, _, Session.execute_numeral _ ⟨_, .integer, .integer digits⟩, rfl, ?_⟩
  rw [value]
  refine ⟨by decide +kernel, by decide +kernel, ?_⟩
  rw [Outcome.line_eq_lineWith rfl]
  have words : flatNumbers.write (hundredths (ofMagnitude false 0x7fe1ccf385ebc8a0)) = "Infinity" := by
    decide +kernel
  exact congrArg (fun mean => Except.ok (Outcome.lineWith _ _ mean)) words

end DiceNotation
