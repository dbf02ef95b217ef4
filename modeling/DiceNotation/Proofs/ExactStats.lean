import DiceNotation.Stats
import Mathlib.Algebra.BigOperators.Intervals
import Mathlib.Algebra.BigOperators.Ring.Finset
import Mathlib.Algebra.Order.Ring.Rat
import Mathlib.Tactic.Ring
import Mathlib.Tactic.FieldSimp
import Mathlib.Tactic.Linarith

/-!
Statistics in rational numbers, which round nothing. The means of the higher and of the lower of
two dice have closed forms.
-/
namespace DiceNotation

open Arithmetic (ofInt)
open scoped BigOperators

instance : Arithmetic ℚ where
  ofInt n := n

namespace Exact

@[simp] theorem ofInt_eq (n : Int) : (ofInt n : ℚ) = n := rfl

@[simp] theorem add_eq (x y : ℚ) : Operator.add.apply x y = x + y := rfl

@[simp] theorem sub_eq (x y : ℚ) : Operator.sub.apply x y = x - y := rfl

@[simp] theorem mul_eq (x y : ℚ) : Operator.mul.apply x y = x * y := rfl

@[simp] theorem div_eq (x y : ℚ) : Operator.div.apply x y = x / y := rfl

end Exact

theorem Die.sides_ne_zero (die : Die) : (die.sides : ℚ) ≠ 0 :=
  Nat.cast_ne_zero.mpr (Nat.ne_of_gt die.pos)

namespace Stats

theorem sumTo_eq (n : Nat) (term : ℚ → ℚ) :
    sumTo n term = ∑ k ∈ Finset.range n, term (k + 1) := by
  unfold sumTo
  induction n with
  | zero => rfl
  | succ n ih =>
    rw [Nat.fold_succ, Finset.sum_range_succ, ih]
    simp

/-- The chances of the first `n` faces, each times its pips. -/
theorem sum_chanceAtMost (die : Die) (n : Nat) :
    (sumTo n fun k => k * (chanceAtMost die k - chanceAtMost die (k - ofInt 1)) : ℚ) =
      n * (n + 1) * (4 * n - 1) / (6 * die.sides ^ 2) := by
  have some := die.sides_ne_zero
  rw [sumTo_eq]
  induction n with
  | zero => simp
  | succ n ih =>
    rw [Finset.sum_range_succ, ih]
    simp only [chanceAtMost, Exact.ofInt_eq]
    push_cast
    field_simp
    ring

theorem sum_chanceAtLeast (die : Die) (n : Nat) :
    (sumTo n fun k => k * (chanceAtLeast die k - chanceAtLeast die (k + ofInt 1)) : ℚ) =
      n * (n + 1) * (6 * die.sides - 4 * n + 1) / (6 * die.sides ^ 2) := by
  have some := die.sides_ne_zero
  rw [sumTo_eq]
  induction n with
  | zero => simp
  | succ n ih =>
    rw [Finset.sum_range_succ, ih]
    simp only [chanceAtLeast, Exact.ofInt_eq]
    push_cast
    field_simp
    ring

theorem meanOfHigher_eq (die : Die) :
    (meanOfHigher die : ℚ) = (die.sides + 1) * (4 * die.sides - 1) / (6 * die.sides) := by
  have some := die.sides_ne_zero
  rw [meanOfHigher, sum_chanceAtMost]
  field_simp

theorem meanOfLower_eq (die : Die) :
    (meanOfLower die : ℚ) = (die.sides + 1) * (2 * die.sides + 1) / (6 * die.sides) := by
  have some := die.sides_ne_zero
  rw [meanOfLower, sum_chanceAtLeast]
  field_simp
  ring

end Stats

/- Sums over all pairs of numbers up to the sides. -/

theorem sum_max (n : Nat) :
    (∑ a ∈ Finset.range n, ∑ b ∈ Finset.range n, (max (a + 1) (b + 1) : Nat) : ℚ) =
      n * (n + 1) * (4 * n - 1) / 6 := by
  induction n with
  | zero => simp
  | succ n ih =>
    -- The new row and the new column hold `n + 1` alone.
    have column (a : Nat) (below : a ∈ Finset.range n) : max (a + 1) (n + 1) = n + 1 :=
      Nat.max_eq_right (Nat.succ_le_succ (Nat.le_of_lt (Finset.mem_range.mp below)))
    have row (b : Nat) (below : b ∈ Finset.range n) : max (n + 1) (b + 1) = n + 1 :=
      Nat.max_eq_left (Nat.succ_le_succ (Nat.le_of_lt (Finset.mem_range.mp below)))
    simp only [Finset.sum_range_succ, Finset.sum_add_distrib, ih, Nat.max_self]
    rw [Finset.sum_congr rfl fun a below => congrArg Nat.cast (column a below),
      Finset.sum_congr rfl fun b below => congrArg Nat.cast (row b below)]
    simp only [Finset.sum_const, Finset.card_range, nsmul_eq_mul]
    push_cast
    ring

theorem sum_succ (n : Nat) : (∑ a ∈ Finset.range n, (a + 1) : ℚ) = n * (n + 1) / 2 := by
  induction n with
  | zero => simp
  | succ n ih =>
    rw [Finset.sum_range_succ, ih]
    push_cast
    ring

theorem sum_add (n : Nat) :
    (∑ a ∈ Finset.range n, ∑ b ∈ Finset.range n, (a + 1 + (b + 1)) : ℚ) = n ^ 2 * (n + 1) := by
  have row (a : Nat) :
      (∑ b ∈ Finset.range n, (a + 1 + (b + 1)) : ℚ) = n * (a + 1) + n * (n + 1) / 2 := by
    rw [Finset.sum_add_distrib, sum_succ, Finset.sum_const, Finset.card_range, nsmul_eq_mul]
  simp only [row]
  rw [Finset.sum_add_distrib, ← Finset.mul_sum, sum_succ, Finset.sum_const, Finset.card_range,
    nsmul_eq_mul]
  ring

theorem sum_min (n : Nat) :
    (∑ a ∈ Finset.range n, ∑ b ∈ Finset.range n, (min (a + 1) (b + 1) : Nat) : ℚ) =
      n * (n + 1) * (2 * n + 1) / 6 := by
  have both (a b : Nat) : ((min (a + 1) (b + 1) : Nat) : ℚ) =
      (a + 1 + (b + 1)) - (max (a + 1) (b + 1) : Nat) := by
    have halves := congrArg (Nat.cast (R := ℚ)) (min_add_max (a + 1) (b + 1))
    push_cast at halves ⊢
    exact eq_sub_of_add_eq halves
  simp only [both, Finset.sum_sub_distrib, sum_add, sum_max]
  ring

/- Two dice. -/

/-- The mean over all pairs of faces, each as likely as any other. -/
def Die.pairMean (die : Die) (f : Nat → Nat → Nat) : ℚ :=
  (∑ a ∈ Finset.Icc 1 die.sides, ∑ b ∈ Finset.Icc 1 die.sides, (f a b : ℚ)) / die.sides ^ 2

theorem sum_from_one (n : Nat) (f : Nat → ℚ) :
    ∑ a ∈ Finset.Icc 1 n, f a = ∑ a ∈ Finset.range n, f (a + 1) := by
  rw [Finset.range_eq_Ico, Finset.sum_Ico_add' f 0 n 1, Nat.zero_add,
    Finset.Ico_add_one_right_eq_Icc]

open Stats (meanOfHigher meanOfLower meanOfHigher_eq meanOfLower_eq)

section

variable (die : Die)

theorem pairMean_max : die.pairMean max = meanOfHigher die := by
  have some := die.sides_ne_zero
  unfold Die.pairMean
  simp only [sum_from_one]
  rw [sum_max, meanOfHigher_eq]
  field_simp

theorem pairMean_min : die.pairMean min = meanOfLower die := by
  have some := die.sides_ne_zero
  unfold Die.pairMean
  simp only [sum_from_one]
  rw [sum_min, meanOfLower_eq]
  field_simp

theorem meanOfLower_add_meanOfHigher :
    (meanOfLower die + meanOfHigher die : ℚ) = die.sides + 1 := by
  have some := die.sides_ne_zero
  rw [meanOfLower_eq, meanOfHigher_eq]
  field_simp
  ring

theorem meanOfHigher_sub_meanOfLower : (meanOfHigher die - meanOfLower die : ℚ) =
    (die.sides + 1) * (die.sides - 1) / (3 * die.sides) := by
  have some := die.sides_ne_zero
  rw [meanOfLower_eq, meanOfHigher_eq]
  field_simp
  ring

theorem one_le_meanOfLower : (1 : ℚ) ≤ meanOfLower die := by
  have one : (1 : ℚ) ≤ die.sides := Nat.one_le_cast.mpr die.pos
  have pos : (0 : ℚ) < 6 * die.sides := by linarith
  have product : (0 : ℚ) ≤ (die.sides - 1) * (2 * die.sides - 1) :=
    mul_nonneg (by linarith) (by linarith)
  rw [meanOfLower_eq, le_div_iff₀ pos]
  linarith

theorem meanOfLower_le_meanOfHigher : (meanOfLower die : ℚ) ≤ meanOfHigher die := by
  have one : (1 : ℚ) ≤ die.sides := Nat.one_le_cast.mpr die.pos
  have gap : (0 : ℚ) ≤ (die.sides + 1) * (die.sides - 1) / (3 * die.sides) :=
    div_nonneg (mul_nonneg (by linarith) (by linarith)) (by linarith)
  rwa [← meanOfHigher_sub_meanOfLower, sub_nonneg] at gap

theorem meanOfLower_eq_meanOfHigher_iff :
    (meanOfLower die : ℚ) = meanOfHigher die ↔ die.sides = 1 := by
  have one : (1 : ℚ) ≤ die.sides := Nat.one_le_cast.mpr die.pos
  rw [eq_comm, ← sub_eq_zero, meanOfHigher_sub_meanOfLower, div_eq_zero_iff, mul_eq_zero,
    sub_eq_zero, Nat.cast_eq_one]
  constructor
  · rintro ((above | same) | none)
    · linarith
    · exact same
    · linarith
  · exact fun same => .inl (.inr same)

/-- The averages of two dice are the means of the higher and of the lower over all pairs of faces.
They coincide for one side only. -/
theorem means_of_two_dice :
    ((meanOfHigher die : ℚ) = die.pairMean max ∧
      (meanOfHigher die : ℚ) = (die.sides + 1) * (4 * die.sides - 1) / (6 * die.sides)) ∧
    ((meanOfLower die : ℚ) = die.pairMean min ∧
      (meanOfLower die : ℚ) = (die.sides + 1) * (2 * die.sides + 1) / (6 * die.sides)) ∧
    (meanOfLower die + meanOfHigher die : ℚ) = die.sides + 1 ∧
    (1 : ℚ) ≤ meanOfLower die ∧ (meanOfLower die : ℚ) ≤ meanOfHigher die ∧
    (meanOfHigher die : ℚ) ≤ die.sides ∧
    ((meanOfLower die : ℚ) = meanOfHigher die ↔ die.sides = 1) := by
  have sum := meanOfLower_add_meanOfHigher die
  have least := one_le_meanOfLower die
  have most : (meanOfHigher die : ℚ) ≤ die.sides := by linarith
  exact ⟨⟨(pairMean_max die).symm, meanOfHigher_eq die⟩,
    ⟨(pairMean_min die).symm, meanOfLower_eq die⟩, sum, least, meanOfLower_le_meanOfHigher die,
    most, meanOfLower_eq_meanOfHigher_iff die⟩

end

end DiceNotation
