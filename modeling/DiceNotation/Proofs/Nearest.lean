import Mathlib
import DiceNotation.Number.Binary

/-!
Rounding keeps the order. Of two numbers of units the greater has no smaller double, and doubles
stand in the order of their values.
-/
namespace DiceNotation.Binary

theorem nearest_le (a b : Nat) : nearest a b ≤ infinity := Nat.min_le_right _ _

theorem nearestNat_eq (a b : Nat) : nearestNat a b =
    if 2 * (a % b) < b then a / b
    else if b < 2 * (a % b) then a / b + 1 else a / b + a / b % 2 := by
  unfold nearestNat
  dsimp only
  split
  · rename_i lt
    rw [if_pos (Nat.compare_eq_lt.mp lt)]
  · rename_i gt
    have above := Nat.compare_eq_gt.mp gt
    rw [if_neg (by omega), if_pos above]
  · rename_i eq
    have half := Nat.compare_eq_eq.mp eq
    rw [if_neg (by omega), if_neg (by omega)]

theorem div_le_nearestNat (a b : Nat) : a / b ≤ nearestNat a b := by
  rw [nearestNat_eq]
  split_ifs <;> omega

theorem nearestNat_le (a b : Nat) : nearestNat a b ≤ a / b + 1 := by
  rw [nearestNat_eq]
  split_ifs <;> omega

theorem nearest_zero (b : Nat) : nearest 0 b = 0 := by
  simp [nearest, nearestNat_eq]

theorem nearestNat_mono {a a' : Nat} (le : a ≤ a') (b : Nat) :
    nearestNat a b ≤ nearestNat a' b := by
  rcases Nat.lt_or_eq_of_le (Nat.div_le_div_right (c := b) le) with further | same
  · calc
      nearestNat a b ≤ a / b + 1 := nearestNat_le a b
      _ ≤ a' / b := further
      _ ≤ nearestNat a' b := div_le_nearestNat a' b
  · -- Within one step the remainder decides, and it grows.
    have parts := Nat.div_add_mod a b
    have parts' := Nat.div_add_mod a' b
    rw [same] at parts
    have rest : a % b ≤ a' % b := by omega
    rw [nearestNat_eq, nearestNat_eq, same]
    split_ifs <;> omega

theorem log2_half (n : Nat) : (n / 2).log2 = n.log2 - 1 := by
  rw [Nat.log2_def n]
  split
  · rw [Nat.add_sub_cancel]
  · have none : n / 2 = 0 := by omega
    rw [none, Nat.log2_zero]

theorem log2_div_two_pow (n k : Nat) : (n / 2 ^ k).log2 = n.log2 - k := by
  induction k with
  | zero => simp
  | succ k ih => rw [Nat.pow_succ, ← Nat.div_div_eq_div_mul, log2_half, ih, Nat.sub_sub]

theorem log2_le {n : Nat} (small : n < 2 * binadeSize) : n.log2 ≤ 52 := by
  by_cases zero : n = 0
  · rw [zero, Nat.log2_zero]
    exact Nat.zero_le _
  · exact Nat.le_of_lt_succ ((Nat.log2_lt zero).mpr small)

theorem log2_shift {n : Nat} (pos : 0 < n) (k : Nat) : (n <<< k).log2 = n.log2 + k := by
  rw [Nat.log2_eq_iff (Nat.ne_of_gt (Nat.shiftLeft_pos_iff.mpr pos)), Nat.shiftLeft_eq,
    Nat.pow_add, Nat.add_right_comm, Nat.pow_add]
  exact ⟨Nat.mul_le_mul_right _ (Nat.log2_self_le (Nat.ne_of_gt pos)),
    Nat.mul_lt_mul_of_pos_right Nat.lt_log2_self (Nat.two_pow_pos k)⟩

/-- A quotient that is not below one grows by the places that its dividend is shifted by. -/
theorem log2_shift_div {a b : Nat} (pos : 0 < b) (le : b ≤ a) (k : Nat) :
    (a <<< k / b).log2 = (a / b).log2 + k := by
  have some : a / b ≠ 0 := Nat.ne_of_gt (Nat.div_pos le pos)
  have low : 2 ^ (a / b).log2 * b ≤ a := (Nat.le_div_iff_mul_le pos).mp (Nat.log2_self_le some)
  have high : a < 2 ^ ((a / b).log2 + 1) * b := (Nat.div_lt_iff_lt_mul pos).mp Nat.lt_log2_self
  have some' : a <<< k / b ≠ 0 := Nat.ne_of_gt (Nat.div_pos (le.trans Nat.le_shiftLeft) pos)
  rw [Nat.log2_eq_iff some', Nat.shiftLeft_eq, Nat.le_div_iff_mul_le pos,
    Nat.div_lt_iff_lt_mul pos, Nat.add_right_comm, Nat.pow_add, Nat.pow_add _ _ k,
    Nat.mul_right_comm, Nat.mul_right_comm _ _ b]
  exact ⟨Nat.mul_le_mul_right _ low, Nat.mul_lt_mul_of_pos_right high (Nat.two_pow_pos k)⟩

theorem log2_div_shifts {a b A B : Nat} (pos : 0 < b) (some : b ≤ a ∨ A ≤ B) :
    (a <<< A / b <<< B).log2 = (a / b).log2 + A - B := by
  rcases Nat.lt_or_ge a b with less | le
  · have few : A ≤ B := some.resolve_left (Nat.not_le_of_lt less)
    have below : a <<< A < b <<< B := by
      rw [Nat.shiftLeft_eq, Nat.shiftLeft_eq]
      exact Nat.mul_lt_mul_of_lt_of_le less (Nat.pow_le_pow_right Nat.two_pos few)
        (Nat.two_pow_pos B)
    rw [Nat.div_eq_of_lt below, Nat.div_eq_of_lt less, Nat.log2_zero]
    omega
  · rw [Nat.shiftLeft_eq b, ← Nat.div_div_eq_div_mul, log2_div_two_pow, log2_shift_div pos le]

/- What is left of a number when `k` binary places are cut off. -/

theorem div_two_pow_lt {n k : Nat} (enough : n.log2 ≤ 52 + k) : n / 2 ^ k < 2 * binadeSize := by
  have top : n < 2 ^ (53 + k) :=
    Nat.lt_of_lt_of_le Nat.lt_log2_self (Nat.pow_le_pow_right Nat.two_pos (by omega))
  rw [Nat.pow_add] at top
  exact Nat.div_lt_of_lt_mul (by rwa [Nat.mul_comm])

theorem le_div_two_pow {n k : Nat} (few : 52 + k ≤ n.log2) : binadeSize ≤ n / 2 ^ k := by
  have some : n ≠ 0 := by
    rintro rfl
    simp at few
  have bits : 2 ^ (52 + k) ≤ n := (Nat.le_log2 some).mp few
  rw [Nat.pow_add] at bits
  exact (Nat.le_div_iff_mul_le (Nat.two_pow_pos k)).mpr bits

theorem nearest_mono {a a' : Nat} (le : a ≤ a') (b : Nat) : nearest a b ≤ nearest a' b := by
  have quotients : a / b ≤ a' / b := Nat.div_le_div_right le
  have shifts : (a / b).log2 - 52 ≤ (a' / b).log2 - 52 := by
    rw [Nat.log2_eq_log_two, Nat.log2_eq_log_two]
    exact Nat.sub_le_sub_right (Nat.log_mono_right quotients) _
  have cut (n k : Nat) : n / b <<< k = n / b / 2 ^ k := by
    rw [Nat.shiftLeft_eq, Nat.div_div_eq_div_mul]
  refine min_le_min_right _ ?_
  rcases Nat.lt_or_eq_of_le shifts with further | same
  · -- The greater number is in a higher binade, whose least double is above all lower ones.
    have below : a / b / 2 ^ ((a / b).log2 - 52) < 2 * binadeSize := div_two_pow_lt (by omega)
    have above : binadeSize ≤ a' / b / 2 ^ ((a' / b).log2 - 52) := le_div_two_pow (by omega)
    have rounded := nearestNat_le a (b <<< ((a / b).log2 - 52))
    have rounded' := div_le_nearestNat a' (b <<< ((a' / b).log2 - 52))
    rw [cut] at rounded rounded'
    unfold binadeSize at *
    omega
  · rw [same]
    exact Nat.add_le_add_left (nearestNat_mono le _) _

/-- Doubles stand in the order of their values. -/
theorem units_le_iff {m n : Nat} (finite : m < infinity) (finite' : n < infinity) :
    units m ≤ units n ↔ m ≤ n := by
  have back {m n : Nat} (finite : m < infinity) (finite' : n < infinity)
      (le : units m ≤ units n) : m ≤ n := by
    rw [← nearest_units finite, ← nearest_units finite']
    exact nearest_mono le 1
  refine ⟨back finite finite', ?_⟩
  intro le
  rcases Nat.lt_or_eq_of_le le with lt | rfl
  · by_contra above
    exact absurd (back finite' finite (Nat.le_of_not_le above)) (Nat.not_le_of_lt lt)
  · exact le_refl _

end DiceNotation.Binary
