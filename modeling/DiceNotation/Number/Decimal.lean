import DiceNotation.Number.Binary

/-!
Decimal numbers: reading them from digits, and the shortest one that reads back as a given
double. On the grid of each power of ten only the two neighbours of a value can be the nearest
decimals to it, so the search tries these from the coarsest grid down. The finest grid holds
every double exactly, so it ends there at the latest.
-/
namespace DiceNotation

/-- The number `digits * 10 ^ exponent`. -/
structure Decimal where
  digits : Nat
  exponent : Int
  deriving DecidableEq

namespace Decimal

/-- Digits with at most one point among them. -/
def ofText (cs : List Char) : Decimal :=
  let places := (cs.dropWhile (· ≠ '.')).drop 1
  ⟨Nat.ofDigitChars 10 (cs.takeWhile (· ≠ '.') ++ places) 0, -places.length⟩

theorem ofText_point (whole places : List Char) (h : '.' ∉ whole) :
    ofText (whole ++ '.' :: places) =
      ⟨Nat.ofDigitChars 10 (whole ++ places) 0, -places.length⟩ := by
  have plain : ∀ c ∈ whole, decide (c ≠ '.') = true := fun c hc =>
    decide_eq_true (ne_of_mem_of_not_mem hc h)
  simp only [ofText, List.takeWhile_append_of_pos plain, List.dropWhile_append_of_pos plain,
    List.takeWhile_cons, List.dropWhile_cons, ne_eq, not_true_eq_false, decide_false,
    Bool.false_eq_true, if_false, List.append_nil, List.drop_succ_cons, List.drop_zero]

theorem ofText_whole (whole : List Char) (h : '.' ∉ whole) :
    ofText whole = ⟨Nat.ofDigitChars 10 whole 0, 0⟩ := by
  have plain : ∀ c ∈ whole, decide (c ≠ '.') = true := fun c hc =>
    decide_eq_true (ne_of_mem_of_not_mem hc h)
  have t := @List.takeWhile_append_of_pos _ _ whole [] plain
  have d := @List.dropWhile_append_of_pos _ _ whole [] plain
  rw [List.append_nil] at t d
  simp only [ofText, t, d, List.takeWhile_nil, List.dropWhile_nil, List.drop_nil, List.append_nil,
    List.length_nil, Int.natCast_zero, Int.neg_zero]

/-- The magnitude bits of the nearest double. -/
def toBinary (d : Decimal) : Nat :=
  Binary.nearest (d.digits * Nat.pow 10 d.exponent.toNat * Binary.one)
    (Nat.pow 10 (-d.exponent).toNat)

def ReadsAs (d : Decimal) (bits : Nat) : Prop := d.toBinary = bits

instance (d : Decimal) (bits : Nat) : Decidable (d.ReadsAs bits) :=
  inferInstanceAs (Decidable (_ = _))

/-- Ticks are the multiples of `10 ^ -1074`, which every finite double is. -/
def ticks (bits : Nat) : Nat := Binary.units bits * Nat.pow 5 Binary.depth

/-- The number `digits * 10 ^ p` ticks. -/
def ofGrid (digits p : Nat) : Decimal := ⟨digits, p - Binary.depth⟩

inductive Tie where
  | up
  | even
  deriving DecidableEq

/-- Whether `low + 1` is rather chosen than `low` for `t`, both in multiples of `step`. -/
def Tie.prefersAbove (tie : Tie) (t step low : Nat) : Bool :=
  match compare (2 * t) ((2 * low + 1) * step), tie with
  | .lt, _ => false
  | .gt, _ | .eq, .up => true
  | .eq, .even => low % 2 == 1

/-- The nearest to `t` ticks of its neighbours on a grid that read back as `bits`. -/
def neighbour? (tie : Tie) (bits t p : Nat) : Option Decimal :=
  let low := t / Nat.pow 10 p
  let below := ofGrid low p
  let above := ofGrid (low + 1) p
  if below.ReadsAs bits ∧ ¬(above.ReadsAs bits ∧ tie.prefersAbove t (Nat.pow 10 p) low) then
    some below
  else if above.ReadsAs bits then some above
  else none

/-- The first grid, from `10 ^ p` ticks down, with a neighbour of `t` that reads back. -/
def coarsest (tie : Tie) (bits t : Nat) : (p : Nat) → Decimal
  | 0 => ofGrid t 0
  | p + 1 => (neighbour? tie bits t (p + 1)).getD (coarsest tie bits t p)

/-- At least the number of decimal digits: a bit is worth fewer than 0.30103 of them. -/
def digitBound (n : Nat) : Nat := (n.log2 + 1) * 30103 / 100000 + 1

/-- The shortest decimal that reads back as a finite double; of these the nearest. -/
def shortest (tie : Tie) (bits : Nat) : Decimal :=
  if bits = 0 then ⟨0, 0⟩
  else coarsest tie bits (ticks bits) (digitBound (ticks bits))

/- The search ends on a decimal that reads back, on the finest grid if on no other. -/

theorem pow_five_mul_shiftLeft (n : Nat) : Nat.pow 5 n * 1 <<< n = Nat.pow 10 n := by
  rw [Nat.shiftLeft_eq, Nat.one_mul]
  exact (Nat.mul_pow 5 2 n).symm

theorem pow_ten_pos (n : Nat) : 0 < Nat.pow 10 n := Nat.pow_pos (by decide)

theorem readsAs_ofGrid_ticks {bits : Nat} (finite : bits < Binary.infinity) :
    (ofGrid (ticks bits) 0).ReadsAs bits := by
  have value : ticks bits * Nat.pow 10 0 * Binary.one =
      Binary.units bits * Nat.pow 10 Binary.depth := by
    have unit : Nat.pow 10 0 = 1 := rfl
    rw [ticks, unit, Nat.mul_one, Nat.mul_assoc, Binary.one, pow_five_mul_shiftLeft]
  have scale := Binary.nearest_mul_right (Binary.units bits) 1 (pow_ten_pos Binary.depth)
  rw [Nat.one_mul, Binary.nearest_units finite] at scale
  have e : (0 : Int) - Binary.depth = -(Binary.depth : Int) := Int.zero_sub _
  simp only [ReadsAs, toBinary, ofGrid, Int.natCast_zero, e, Int.toNat_neg_natCast, Int.neg_neg,
    Int.toNat_natCast, value]
  exact scale

theorem readsAs_of_neighbour? {tie : Tie} {bits t p : Nat} {d : Decimal}
    (h : neighbour? tie bits t p = some d) : d.ReadsAs bits := by
  dsimp only [neighbour?] at h
  generalize ofGrid (t / Nat.pow 10 p) p = below, ofGrid (t / Nat.pow 10 p + 1) p = above at h
  split at h
  next hits => exact Option.some.inj h ▸ hits.1
  next =>
    split at h
    next hit => exact Option.some.inj h ▸ hit
    next => exact absurd h (Option.some_ne_none d).symm

theorem readsAs_coarsest {tie : Tie} {bits : Nat} (finite : bits < Binary.infinity) (p : Nat) :
    (coarsest tie bits (ticks bits) p).ReadsAs bits := by
  induction p with
  | zero => exact readsAs_ofGrid_ticks finite
  | succ p ih =>
    cases h : neighbour? tie bits (ticks bits) (p + 1) with
    | none => rw [coarsest, h]; exact ih
    | some d => rw [coarsest, h]; exact readsAs_of_neighbour? h

/-- The shortest decimal of a double reads back as the double. -/
theorem readsAs_shortest {tie : Tie} {bits : Nat} (finite : bits < Binary.infinity) :
    (shortest tie bits).ReadsAs bits := by
  unfold shortest
  split
  next zero =>
    subst zero
    simp only [ReadsAs, toBinary, Nat.zero_mul]
    exact @Binary.nearest_units 0 finite
  next => exact readsAs_coarsest finite _

end Decimal

end DiceNotation
