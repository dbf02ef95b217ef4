/-!
Doubles as whole numbers. Every finite double is a multiple of the least positive one,
`2 ^ -1074`, so the value of its magnitude bits is a number of these units, and the double
nearest to a quotient of naturals is found without rounding on the way. A double is the nearest
to its own value, which is what makes texts read back.
-/
namespace DiceNotation.Binary

/-- The units that make up one are `2 ^ depth`. -/
def depth : Nat := 1074

def one : Nat := 1 <<< depth

/-- The `2 ^ 52` doubles of a binade lie at one distance from each other, which is one unit in
binade 0 and twice that of the binade before it in the others. Binade 0 has as many doubles
again, down to zero. -/
def binadeSize : Nat := 0x10000000000000

def binade (bits : Nat) : Nat := bits / binadeSize - 1

def units (bits : Nat) : Nat := (bits - binade bits * binadeSize) <<< binade bits

/-- The magnitude bits of an infinity: smaller ones are finite, greater ones are no number. -/
def infinity : Nat := 0x7ff * binadeSize

/-- The natural number nearest to `a / b`; a tie goes to the even one. -/
def nearestNat (a b : Nat) : Nat :=
  let q := a / b
  match compare (2 * (a % b)) b with
  | .lt => q
  | .gt => q + 1
  | .eq => q + q % 2

/-- The magnitude bits of the double nearest to `a / b` units; what is too large is infinite. -/
def nearest (a b : Nat) : Nat :=
  let k := (a / b).log2 - 52
  min (k * binadeSize + nearestNat a (b <<< k)) infinity

/- A double is a sign and its magnitude bits. -/

def signBit : Nat := 0x8000000000000000

def isNegative (x : Float) : Bool := signBit ≤ x.toBits.toNat

def magnitude (x : Float) : Nat := x.toBits.toNat % signBit

def ofMagnitude (negative : Bool) (bits : Nat) : Float :=
  Float.ofBits (bits + if negative then signBit else 0).toUInt64

/-- The nearest whole number; a half goes away from zero. From `2 ^ 52` on all are whole. -/
def roundWhole (x : Float) : Float :=
  let bits := magnitude x
  if 1075 * binadeSize ≤ bits then x
  else
    let whole := (2 * units bits + one) / (2 * one)
    ofMagnitude (isNegative x) (nearest (whole * one) 1)

theorem nearestNat_mul_right (a b : Nat) {c : Nat} (hc : 0 < c) :
    nearestNat (a * c) (b * c) = nearestNat a b := by
  have e : compare (2 * (a * c % (b * c))) (b * c) = compare (2 * (a % b)) b := by
    rw [Nat.mul_mod_mul_right, ← Nat.mul_assoc]
    simp only [Nat.compare_eq_ite_lt, Nat.mul_lt_mul_right hc]
  simp only [nearestNat, e, Nat.mul_div_mul_right _ _ hc]

theorem nearest_mul_right (a b : Nat) {c : Nat} (hc : 0 < c) :
    nearest (a * c) (b * c) = nearest a b := by
  have e (k : Nat) : (b * c) <<< k = b <<< k * c := by
    rw [Nat.shiftLeft_eq, Nat.shiftLeft_eq, Nat.mul_right_comm]
  simp only [nearest, Nat.mul_div_mul_right _ _ hc, e, nearestNat_mul_right _ _ hc]

theorem nearestNat_mul_self (a : Nat) {b : Nat} (hb : 0 < b) : nearestNat (a * b) b = a := by
  have lt : compare (2 * (a * b % b)) b = .lt := by
    rw [Nat.mul_mod_left]; exact Nat.compare_eq_lt.2 hb
  simp only [nearestNat, lt, Nat.mul_div_cancel _ hb]

theorem nearestNat_one_shiftLeft (s k : Nat) : nearestNat (s <<< k) (1 <<< k) = s := by
  rw [Nat.shiftLeft_eq, Nat.shiftLeft_eq, Nat.one_mul]
  exact nearestNat_mul_self s (Nat.two_pow_pos k)

/-- A significand of 53 bits keeps its size when it is shifted. -/
theorem log2_shiftLeft {s k : Nat} (low : binadeSize ≤ s) (high : s < 2 * binadeSize) :
    (s <<< k).log2 = 52 + k := by
  have pos : s <<< k ≠ 0 := by
    rw [Nat.shiftLeft_eq]
    exact Nat.mul_ne_zero (Nat.pos_iff_ne_zero.1 (Nat.lt_of_lt_of_le (by decide) low))
      (Nat.pos_iff_ne_zero.1 (Nat.two_pow_pos k))
  refine Nat.le_antisymm (Nat.le_of_lt_succ ((Nat.log2_lt pos).2 ?_)) ((Nat.le_log2 pos).2 ?_)
  · rw [← Nat.succ_add, Nat.pow_add, Nat.shiftLeft_eq]
    exact Nat.mul_lt_mul_of_pos_right high (Nat.two_pow_pos k)
  · rw [Nat.pow_add, Nat.shiftLeft_eq]
    exact Nat.mul_le_mul_right _ low

/-- A double is the nearest one to its own value. -/
theorem nearest_units {bits : Nat} (finite : bits < infinity) : nearest (units bits) 1 = bits := by
  unfold nearest units
  have parts : bits = binade bits * binadeSize + (bits - binade bits * binadeSize) := by
    unfold binade binadeSize; omega
  have low : binade bits = 0 ∨ binadeSize ≤ bits - binade bits * binadeSize := by
    unfold binade binadeSize; omega
  have high : bits - binade bits * binadeSize < 2 * binadeSize := by
    unfold binade binadeSize; omega
  generalize binade bits = k at *
  generalize bits - k * binadeSize = s at *
  have size : (s <<< k / 1).log2 - 52 = k := by
    rw [Nat.div_one]
    rcases low with rfl | low
    · rw [Nat.shiftLeft_zero]
      by_cases zero : s = 0
      · rw [zero]; decide
      · exact Nat.sub_eq_zero_of_le (Nat.le_of_lt_succ ((Nat.log2_lt zero).2 high))
    · rw [log2_shiftLeft low high, Nat.add_sub_cancel_left]
  simp only [size, nearestNat_one_shiftLeft, ← parts]
  exact Nat.min_eq_left (Nat.le_of_lt finite)

end DiceNotation.Binary
