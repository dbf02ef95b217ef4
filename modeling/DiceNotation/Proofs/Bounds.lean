import DiceNotation.Proofs.Deals
import DiceNotation.Proofs.Extremes
import DiceNotation.Proofs.MonotoneDoubles
import DiceNotation.Proofs.Rolls

/-!
The minimum and the maximum as bounds, in doubles. In sums and products of parts that are not
negative every operation grows with its operands, and rounding keeps their order. What is carried
from the parts to the whole is that the bounds and the value are finite and not negative; without
it a product would turn its bounds round.
-/
namespace DiceNotation

open Arithmetic (ofInt)
open Binary (Under)

/-- Sums and products grow with operands that are not negative. -/
def Operator.Grows : Operator → Prop
  | add | mul => True
  | sub | div => False

theorem Binary.Under.apply {x x' y y' : Float} (left : Under x x') (right : Under y y')
    {op : Operator} (grows : op.Grows) (finite : (op.apply x' y').isFinite = true) :
    Under (op.apply x y) (op.apply x' y') := by
  cases op with
  | add => exact left.add right finite
  | mul => exact left.mul right finite
  | sub => exact absurd grows id
  | div => exact absurd grows id

/-- The value lies between the bounds, and none of the three is negative or infinite. -/
structure Encloses (stats : Stats Float) (value : Float) : Prop where
  low : Under stats.min value
  high : Under value stats.max

theorem Encloses.combine {op : Operator} (grows : op.Grows) {a b : Stats Float} {x y : Float}
    (left : Encloses a x) (right : Encloses b y)
    (finite : (Stats.combine op a b).max.isFinite = true) :
    Encloses (.combine op a b) (op.apply x y) := by
  have high := left.high.apply right.high grows finite
  -- A value below a finite maximum is finite, which the minimum needs in turn.
  have low := left.low.apply right.low grows (Binary.isFinite_iff.mpr high.lower.finite)
  exact ⟨low, high⟩

theorem encloses_constant {x : Float} (nonneg : 0 ≤ x) (finite : x.isFinite = true) :
    Encloses (.constant x) x := by
  have self := (Binary.nonnegative_iff.mpr ⟨finite, nonneg⟩).under_self
  exact ⟨self, self⟩

theorem encloses_hand {limit : Nat} (small : limit ≤ 0x200000) {count : Int64}
    (positive : 0 ≤ count.toInt) (within : count.toInt.natAbs ≤ limit) {die : Die}
    (hand : Hand die count.toInt.natAbs) :
    Encloses (.dice count die) (ofInt (exactTotal (signedFaces count hand.faces))) := by
  have range := rollRange_hand hand
  obtain ⟨low, high⟩ := range.total positive
  have product := natAbs_count_mul_sides_lt small within die
  have total := Nat.lt_of_le_of_lt range.natAbs_total_le product
  refine ⟨Binary.under_ofInt positive low total, ?_⟩
  show Under _ (Float.ofInt count.toInt * Float.ofInt die.sides)
  rw [ofInt_count_mul_sides small within]
  exact Binary.under_ofInt (positive.trans low) high product

theorem encloses_pair {stats : Stats Float} {die : Die} {kept : Int} (min : stats.min = ofInt 1)
    (max : stats.max = ofInt die.sides) (low : 1 ≤ kept) (high : kept ≤ die.sides) :
    Encloses stats (ofInt kept) := by
  have size := natAbs_sides_lt die
  have one : (0 : Int) ≤ 1 := by decide
  refine ⟨?_, ?_⟩
  · rw [min]
    exact Binary.under_ofInt one low (by omega)
  · rw [max]
    exact Binary.under_ofInt (one.trans low) high size

namespace Expression

def subexpressions {α : Type} : Expression α → List (Expression α)
  | math op l r => .math op l r :: (l.subexpressions ++ r.subexpressions)
  | e => [e]

/-- Sums and products of numbers, rolls and pairs that are not negative. -/
def NonnegativeParts : Expression Float → Prop
  | number x => 0 ≤ x
  | roll count _ => 0 ≤ count.toInt
  | advantage _ | disadvantage _ => True
  | rolled .. => False
  | math op l r => op.Grows ∧ l.NonnegativeParts ∧ r.NonnegativeParts

theorem NonnegativeParts.fresh {e : Expression Float} (parts : e.NonnegativeParts) : e.Fresh := by
  induction e with
  | math op l r ihl ihr => exact ⟨ihl parts.2.1, ihr parts.2.2⟩
  | rolled count die results => exact absurd parts id
  | _ => trivial

theorem encloses_valueOn {limit : Nat} (small : limit ≤ 0x200000) {e : Expression Float}
    (parts : e.NonnegativeParts) (within : ∀ leaf ∈ e.diceLeaves, leaf.Within limit)
    (finite : ∀ part ∈ e.subexpressions, part.stats.max.isFinite = true) (deal : e.Deal) :
    Encloses e.stats (e.valueOn deal) := by
  induction e with
  | number x =>
    have whole := finite (.number x) List.mem_cons_self
    exact encloses_constant parts whole
  | roll count die => exact encloses_hand small parts (within _ List.mem_cons_self) deal
  | advantage die =>
    obtain ⟨low, high⟩ := max_bounds deal.1 deal.2
    exact encloses_pair rfl rfl low high
  | disadvantage die =>
    obtain ⟨low, high⟩ := min_bounds deal.1 deal.2
    exact encloses_pair rfl rfl low high
  | rolled count die results => exact absurd parts id
  | math op l r ihl ihr =>
    obtain ⟨grows, left, right⟩ := parts
    obtain ⟨leftWithin, rightWithin⟩ := List.forall_mem_append.mp within
    obtain ⟨whole, rest⟩ := List.forall_mem_cons.mp finite
    obtain ⟨leftFinite, rightFinite⟩ := List.forall_mem_append.mp rest
    exact (ihl left leftWithin leftFinite deal.1).combine grows
      (ihr right rightWithin rightFinite deal.2) whole

/-- However its dice fall, an expression of this kind has a value between its bounds. -/
theorem value_within_bounds {limit : Nat} (small : limit ≤ 0x200000) {e : Expression Float}
    (parts : e.NonnegativeParts) (within : ∀ leaf ∈ e.diceLeaves, leaf.Within limit)
    (finite : ∀ part ∈ e.subexpressions, part.stats.max.isFinite = true)
    {σ : Type} [Roller σ] (s : σ) :
    ∃ o t, e.evaluate ⟨limit, s⟩ = (.ok o, t) ∧
      o.stats.min ≤ o.value ∧ o.value ≤ o.stats.max := by
  have fits : ∀ leaf ∈ e.diceLeaves, leaf.FitsWord := fun leaf member =>
    DiceLeaf.fitsWord_of_within (by omega) (within leaf member)
  obtain ⟨o, t, evaluated⟩ := (evaluate_eq_ok_iff e s).mpr within
  obtain ⟨deal, value⟩ := exists_deal_of_evaluate parts.fresh fits evaluated
  have same : o.stats = e.stats := stats_evaluate (by rw [evaluated])
  have enclosed := encloses_valueOn small parts within finite deal
  refine ⟨o, t, evaluated, ?_, ?_⟩
  · rw [same, value]
    exact enclosed.low.le
  · rw [same, value]
    exact enclosed.high.le

/-- `(0.1 + 3d7) * ^d9 + (2097152d4294967295 + 0.3) * (vd11 * 1e-5)` -/
def roundedProducts : Expression Float :=
  .math .add
    (.math .mul (.math .add (.number 0.1) (.roll 3 ⟨7, by decide, by decide⟩))
      (.advantage ⟨9, by decide, by decide⟩))
    (.math .mul
      (.math .add (.roll 0x200000 ⟨0xffffffff, by decide, by decide⟩) (.number 0.3))
      (.math .mul (.disadvantage ⟨11, by decide, by decide⟩) (.number 1e-5)))

theorem roundedProducts_within_bounds : ∃ o t,
    roundedProducts.evaluate (⟨0x200000, ⟨4, 1⟩⟩ : Session SteppedDice) = (.ok o, t) ∧
      o.stats.min ≤ o.value ∧ o.value ≤ o.stats.max := by
  have parts : roundedProducts.NonnegativeParts := by
    have tenth : (0 : Float) ≤ 0.1 := by decide +kernel
    have tenths : (0 : Float) ≤ 0.3 := by decide +kernel
    have small : (0 : Float) ≤ 1e-5 := by decide +kernel
    have three : 0 ≤ (3 : Int64).toInt := by decide
    have many : 0 ≤ (0x200000 : Int64).toInt := by decide
    exact ⟨trivial, ⟨trivial, ⟨trivial, tenth, three⟩, trivial⟩, trivial,
      ⟨trivial, many, tenths⟩, trivial, trivial, small⟩
  have within : ∀ leaf ∈ roundedProducts.diceLeaves, leaf.Within 0x200000 := by decide
  have finite : ∀ part ∈ roundedProducts.subexpressions, part.stats.max.isFinite = true := by
    decide +kernel
  exact value_within_bounds (by decide) parts within finite (⟨4, 1⟩ : SteppedDice)

end Expression

end DiceNotation
