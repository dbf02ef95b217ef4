import DiceNotation.Proofs.Statistics
import DiceNotation.Proofs.WholeDoubles

/-!
The ranges of rolls and pairs. Each result of a roll is a face with the sign of the count, so the
total lies between the count and the count times the sides. Up to `2 ^ 31` dice it is added up
without leaving a word, and up to `2 ^ 21` dice the double that is reported for it is the total
itself.
-/
namespace DiceNotation

/-- As many results as dice, each with the sign of the count, and their total between its bounds. -/
structure RollRange (count : Int64) (die : Die) (results : List Int64) : Prop where
  length : results.length = count.toInt.natAbs
  faces : 0 ≤ count.toInt → ∀ result ∈ results, 1 ≤ result.toInt ∧ result.toInt ≤ die.sides
  negated : count.toInt < 0 → ∀ result ∈ results, -die.sides ≤ result.toInt ∧ result.toInt ≤ -1
  total : 0 ≤ count.toInt →
    count.toInt ≤ exactTotal results ∧ exactTotal results ≤ count.toInt * die.sides
  negatedTotal : count.toInt < 0 →
    count.toInt * die.sides ≤ exactTotal results ∧ exactTotal results ≤ count.toInt

theorem forall_signedFaces {count : Int64} {die : Die} {faces : List (Face die)}
    {motive : Int → Prop}
    (each : ∀ face ∈ faces, motive (if count.toInt < 0 then -(face.pips : Int) else face.pips)) :
    ∀ result ∈ signedFaces count faces, motive result.toInt := by
  intro result member
  obtain ⟨face, drawn, rfl⟩ := List.mem_map.mp member
  rw [toInt_signed]
  exact each face drawn

theorem rollRange_hand {count : Int64} {die : Die} (hand : Hand die count.toInt.natAbs) :
    RollRange count die (signedFaces count hand.faces) := by
  have length := length_signedFaces count hand
  have faces (positive : 0 ≤ count.toInt) : ∀ result ∈ signedFaces count hand.faces,
      1 ≤ result.toInt ∧ result.toInt ≤ die.sides := by
    apply forall_signedFaces (motive := fun result => 1 ≤ result ∧ result ≤ die.sides)
    intro face _
    have pos := face.pos
    have le := face.le
    rw [if_neg (by omega)]
    omega
  have negated (negative : count.toInt < 0) : ∀ result ∈ signedFaces count hand.faces,
      -die.sides ≤ result.toInt ∧ result.toInt ≤ -1 := by
    apply forall_signedFaces (motive := fun result => -die.sides ≤ result ∧ result ≤ -1)
    intro face _
    have pos := face.pos
    have le := face.le
    rw [if_pos negative]
    omega
  refine ⟨length, faces, negated, ?_, ?_⟩
  · intro positive
    have size : (count.toInt.natAbs : Int) = count.toInt := by omega
    have sums := exactTotal_bounds 1 die.sides _ (faces positive)
    rwa [length, size, Int.mul_one] at sums
  · intro negative
    have size : (count.toInt.natAbs : Int) = -count.toInt := by omega
    have sums := exactTotal_bounds (-die.sides) (-1) _ (negated negative)
    rwa [length, size, Int.neg_mul_neg, Int.neg_mul_neg, Int.mul_one] at sums

theorem toInt_signedFaces (count : Int64) {die : Die} (faces : List (Face die)) :
    (signedFaces count faces).map Int64.toInt =
      faces.map fun face => (if count.toInt < 0 then -1 else 1) * (face.pips : Int) := by
  unfold signedFaces
  rw [List.map_map]
  apply List.map_congr_left
  intro face _
  show (Int64.ofInt _).toInt = _
  rw [toInt_signed]
  split <;> omega

theorem max_bounds {die : Die} (first second : Face die) :
    (1 : Int) ≤ max (first.pips : Int) second.pips ∧
      max (first.pips : Int) second.pips ≤ die.sides := by
  have pos := first.pos
  have le := first.le
  have le' := second.le
  omega

theorem min_bounds {die : Die} (first second : Face die) :
    (1 : Int) ≤ min (first.pips : Int) second.pips ∧
      min (first.pips : Int) second.pips ≤ die.sides := by
  have pos := first.pos
  have pos' := second.pos
  have le := first.le
  omega

/- What has a double of its own. -/

theorem natAbs_sides_lt (die : Die) : (die.sides : Int).natAbs < Binary.wholeLimit :=
  Nat.lt_trans die.lt (by decide)

/-- Of `2 ^ 21` dice with fewer than `2 ^ 32` sides. -/
theorem natAbs_count_mul_sides_lt {limit : Nat} (small : limit ≤ 0x200000) {count : Int64}
    (within : count.toInt.natAbs ≤ limit) (die : Die) :
    (count.toInt * die.sides).natAbs < Binary.wholeLimit := by
  have product := natAbs_count_mul_sides_le within die
  unfold Binary.wholeLimit
  omega

theorem RollRange.natAbs_total_le {count : Int64} {die : Die} {results : List Int64}
    (range : RollRange count die results) :
    (exactTotal results).natAbs ≤ (count.toInt * die.sides).natAbs := by
  by_cases negative : count.toInt < 0
  · have bounds := range.negatedTotal negative
    omega
  · have bounds := range.total (Int.not_lt.mp negative)
    omega

theorem SumsFit.of_prefix {part results : List Int64} (fits : SumsFit results)
    (initial : part <+: results) : SumsFit part :=
  fun first shorter => fits first (shorter.trans initial)

/-- A roll within the limit succeeds with the faces of its hand, each times the sign of the count.
It stays in range and its sums stay in the word, and up to `2 ^ 21` dice the value that is reported
for it is exact. -/
theorem Session.roll_in_range {σ : Type} [Roller σ] {limit : Nat} (small : limit ≤ 0x80000000)
    {count : Int64} (within : count.toInt.natAbs ≤ limit) (die : Die) (s : σ) :
    ∃ results t, (⟨limit, s⟩ : Session σ).roll count die = (.ok results, t) ∧
      RollRange count die results ∧
      results.map Int64.toInt = (Roller.rollHand count.toInt.natAbs die s).1.faces.map
        (fun face => (if count.toInt < 0 then -1 else 1) * (face.pips : Int)) ∧
      SumsFit results ∧ (∀ part, part <+: results → wordTotal part = exactTotal part) ∧
      (limit ≤ 0x200000 → (exactTotal results).natAbs < 2 ^ 53 ∧
        ∃ o, (Expression.roll count die : Expression Float).evaluate ⟨limit, s⟩ = (.ok o, t) ∧
          o.value.isFinite ∧ Binary.toRat o.value = exactTotal results) := by
  let hand := (Roller.rollHand count.toInt.natAbs die s).1
  have rolled := roll_of_within within die s
  have range : RollRange count die (signedFaces count hand.faces) := rollRange_hand hand
  have word : (DiceLeaf.roll count die).FitsWord := DiceLeaf.fitsWord_of_within small within
  have fits : SumsFit (signedFaces count hand.faces) := sumsFit_signedFaces hand word
  refine ⟨_, _, rolled, range, toInt_signedFaces count hand.faces, fits, ?_, ?_⟩
  · intro part initial
    exact wordTotal_of_sumsFit (fits.of_prefix initial)
  · intro few
    have whole := Nat.lt_of_le_of_lt range.natAbs_total_le
      (natAbs_count_mul_sides_lt few within die)
    refine ⟨whole, _, Expression.evaluate_roll rolled, ?_⟩
    have value : (Outcome.rolled count die (signedFaces count hand.faces)
        (.dice count die) : Outcome Float).value =
          Float.ofInt (exactTotal (signedFaces count hand.faces)) :=
      congrArg Float.ofInt (wordTotal_of_sumsFit fits)
    rw [value]
    exact ⟨Binary.isFinite_ofInt whole, Binary.toRat_ofInt whole⟩

/-- As many dice of as many sides as can be, counted negative. -/
theorem roll_greatest_hand : ∃ results t,
    (⟨0x200000, ⟨7, 3⟩⟩ : Session SteppedDice).roll (-0x200000)
      ⟨0xffffffff, by decide, by decide⟩ = (.ok results, t) ∧
    results.length = 0x200000 ∧ SumsFit results ∧
    -0x200000 * 0xffffffff ≤ exactTotal results ∧ exactTotal results ≤ -0x200000 ∧
    ∃ o, (Expression.roll (-0x200000) ⟨0xffffffff, by decide, by decide⟩ :
        Expression Float).evaluate (⟨0x200000, ⟨7, 3⟩⟩ : Session SteppedDice) = (.ok o, t) ∧
      o.value.isFinite ∧ Binary.toRat o.value = exactTotal results := by
  have within : (-0x200000 : Int64).toInt.natAbs ≤ 0x200000 := by decide
  obtain ⟨results, t, rolled, range, -, fits, -, exact⟩ :=
    Session.roll_in_range (by decide) within ⟨0xffffffff, by decide, by decide⟩
      (⟨7, 3⟩ : SteppedDice)
  obtain ⟨low, high⟩ := range.negatedTotal (by decide)
  obtain ⟨-, value⟩ := exact (by decide)
  exact ⟨results, t, rolled, range.length, fits, low, high, value⟩

end DiceNotation
