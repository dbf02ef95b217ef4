import DiceNotation.Proofs.Deals
import DiceNotation.Proofs.ExactStats
import Mathlib.Algebra.BigOperators.Expect
import Mathlib.Algebra.BigOperators.Field
import Mathlib.Algebra.Order.BigOperators.Expect
import Mathlib.Data.Fintype.BigOperators

/-!
The average as the mean of the values on all deals, in rational numbers. Each die shows each of its
faces with equal weight, whatever the other dice show. Hands that are too large for their word have
an average that is not the mean of what their runs add up to.
-/
namespace DiceNotation

open scoped BigOperators

def Face.equivFin (die : Die) : Face die ≃ Fin die.sides where
  toFun face := ⟨face.pips - 1, Nat.sub_one_lt_of_le face.pos face.le⟩
  invFun k := ⟨k + 1, Nat.succ_pos _, k.isLt⟩
  left_inv face := by
    obtain ⟨pips, pos, le⟩ := face
    simp only [Nat.sub_add_cancel pos]
  right_inv k := rfl

instance (die : Die) : Fintype (Face die) := .ofEquiv _ (Face.equivFin die).symm

instance (die : Die) : Nonempty (Face die) := ⟨.lowest die⟩

namespace Hand

variable {die : Die}

/-- The faces of no die. -/
def empty (die : Die) : Hand die 0 := ⟨[], rfl⟩

theorem eq_empty (hand : Hand die 0) : hand = empty die := by
  obtain ⟨faces, size⟩ := hand
  obtain rfl := List.eq_nil_of_length_eq_zero size
  rfl

def consEquiv (die : Die) (n : Nat) : Face die × Hand die n ≃ Hand die (n + 1) where
  toFun p := ⟨p.1 :: p.2.faces, congrArg (· + 1) p.2.size⟩
  invFun
    | ⟨face :: faces, size⟩ => (face, ⟨faces, Nat.succ.inj size⟩)
  left_inv _ := rfl
  right_inv
    | ⟨_ :: _, _⟩ => rfl

instance fintype (die : Die) : (n : Nat) → Fintype (Hand die n)
  | 0 => ⟨{empty die}, fun hand => Finset.mem_singleton.mpr hand.eq_empty⟩
  | n + 1 =>
    have := fintype die n
    .ofEquiv _ (consEquiv die n)

instance (die : Die) (n : Nat) : Nonempty (Hand die n) := ⟨.same n (.lowest die)⟩

end Hand

namespace Expression

variable {α : Type}

instance Deal.fintype : (e : Expression α) → Fintype e.Deal
  | number _ | rolled .. => inferInstanceAs (Fintype Unit)
  | roll count die => inferInstanceAs (Fintype (Hand die count.toInt.natAbs))
  | advantage die | disadvantage die => inferInstanceAs (Fintype (Face die × Face die))
  | math _ l r =>
    have := Deal.fintype l
    have := Deal.fintype r
    inferInstanceAs (Fintype (l.Deal × r.Deal))

instance Deal.nonempty : (e : Expression α) → Nonempty e.Deal
  | number _ | rolled .. => inferInstanceAs (Nonempty Unit)
  | roll count die => inferInstanceAs (Nonempty (Hand die count.toInt.natAbs))
  | advantage die | disadvantage die => inferInstanceAs (Nonempty (Face die × Face die))
  | math _ l r =>
    have := Deal.nonempty l
    have := Deal.nonempty r
    inferInstanceAs (Nonempty (l.Deal × r.Deal))

end Expression

/- Means of one leaf. -/

section

variable (die : Die)

theorem expect_face (f : Nat → ℚ) :
    𝔼 face : Face die, f face.pips = (∑ k ∈ Finset.range die.sides, f (k + 1)) / die.sides := by
  have numbered : 𝔼 face : Face die, f face.pips = 𝔼 k : Fin die.sides, f (k + 1) := by
    apply Fintype.expect_equiv (Face.equivFin die)
    intro face
    show f face.pips = f (face.pips - 1 + 1)
    rw [Nat.sub_add_cancel face.pos]
  rw [numbered, Fintype.expect_eq_sum_div_card, Fintype.card_fin,
    Fin.sum_univ_eq_sum_range fun k => f (k + 1)]

theorem expect_pips : 𝔼 face : Face die, (face.pips : ℚ) = (1 + die.sides) / 2 := by
  have some := die.sides_ne_zero
  rw [expect_face die fun k => (k : ℚ)]
  push_cast
  rw [sum_succ]
  field_simp
  ring

theorem expect_pair (f : Nat → Nat → ℚ) :
    𝔼 pair : Face die × Face die, f pair.1.pips pair.2.pips =
      (∑ a ∈ Finset.range die.sides, ∑ b ∈ Finset.range die.sides, f (a + 1) (b + 1)) /
        die.sides ^ 2 := by
  rw [← Finset.univ_product_univ, Finset.expect_product]
  simp only [expect_face die (f _)]
  rw [expect_face die fun a => (∑ b ∈ Finset.range die.sides, f a (b + 1)) / die.sides,
    ← Finset.sum_div, div_div, sq]

theorem expect_max :
    𝔼 pair : Face die × Face die, ((max pair.1.pips pair.2.pips : Int) : ℚ) =
      Stats.meanOfHigher die := by
  have some := die.sides_ne_zero
  simp only [← Nat.cast_max, Int.cast_natCast]
  rw [expect_pair die fun a b => (max a b : Nat), sum_max, Stats.meanOfHigher_eq]
  field_simp

theorem expect_min :
    𝔼 pair : Face die × Face die, ((min pair.1.pips pair.2.pips : Int) : ℚ) =
      Stats.meanOfLower die := by
  have some := die.sides_ne_zero
  simp only [← Nat.cast_min, Int.cast_natCast]
  rw [expect_pair die fun a b => (min a b : Nat), sum_min, Stats.meanOfLower_eq]
  field_simp

theorem expect_hand (n : Nat) :
    𝔼 hand : Hand die n, (pipCount hand.faces : ℚ) = n * (1 + die.sides) / 2 := by
  induction n with
  | zero =>
    have none (hand : Hand die 0) : pipCount hand.faces = 0 := by rw [hand.eq_empty]; rfl
    simp [none]
  | succ n ih =>
    have first : 𝔼 p : Face die × Hand die n, (p.1.pips + pipCount p.2.faces : ℚ) =
        𝔼 hand : Hand die (n + 1), (pipCount hand.faces : ℚ) := by
      apply Fintype.expect_equiv (Hand.consEquiv die n)
      intro p
      exact (Nat.cast_add _ _).symm
    rw [← first, ← Finset.univ_product_univ, Finset.expect_product]
    simp only [Finset.expect_add_distrib, Fintype.expect_const, ih, expect_pips]
    push_cast
    ring

end

theorem expect_roll (count : Int64) (die : Die) :
    𝔼 hand : Hand die count.toInt.natAbs,
      (exactTotal (signedFaces count hand.faces) : ℚ) = count.toInt * (1 + die.sides) / 2 := by
  have size : (count.toInt : ℚ) = count.toInt.sign * (count.toInt.natAbs : Nat) := by
    rw [← Int.cast_natCast, ← Int.cast_mul, Int.sign_mul_natAbs]
  simp only [exactTotal_hand, Int.cast_mul, Int.cast_natCast]
  rw [← Finset.mul_expect, expect_hand, size]
  ring

section

variable {A B : Type} [Fintype A] [Fintype B] [Nonempty A] [Nonempty B]

/-- The operands draw different dice. A quotient needs a divisor that the dice do not change. -/
theorem apply_expect (op : Operator) (f : A → ℚ) (g : B → ℚ)
    (fixed : op = .div → ∀ b b', g b = g b') :
    op.apply (𝔼 a, f a) (𝔼 b, g b) = 𝔼 p : A × B, op.apply (f p.1) (g p.2) := by
  rw [← Finset.univ_product_univ, Finset.expect_product]
  cases op with
  | add => simp [Finset.expect_add_distrib]
  | sub => simp [Finset.expect_sub_distrib]
  | mul => simp [← Finset.mul_expect, ← Finset.expect_mul]
  | div =>
    -- Division is linear in the dividend only.
    obtain ⟨b⟩ := ‹Nonempty B›
    have same (b' : B) : g b' = g b := fixed rfl b' b
    simp [same, ← Finset.expect_div]

end

namespace Expression

theorem Deal.eq_of_no_dice {α : Type} {e : Expression α} (none : e.diceLeaves = [])
    (deal deal' : e.Deal) : deal = deal' := by
  induction e with
  | number x => rfl
  | rolled count die results => rfl
  | math op l r ihl ihr =>
    obtain ⟨left, right⟩ := List.append_eq_nil_iff.mp none
    exact Prod.ext (ihl left deal.1 deal'.1) (ihr right deal.2 deal'.2)
  | _ => contradiction

/-- No divisor holds dice or is zero. -/
def DividesByConstants : Expression ℚ → Prop
  | number _ | roll .. | advantage _ | disadvantage _ | rolled .. => True
  | math op l r => (op = .div → r.diceLeaves = [] ∧ ∀ deal, r.valueOn deal ≠ 0) ∧
      l.DividesByConstants ∧ r.DividesByConstants

theorem stats_avg {e : Expression ℚ} (fresh : e.Fresh) (divides : e.DividesByConstants) :
    e.stats.avg = 𝔼 deal : e.Deal, e.valueOn deal := by
  induction e with
  | number x => exact (Fintype.expect_const x).symm
  | roll count die =>
    have mean := expect_roll count die
    simp only [stats, Stats.dice, Exact.ofInt_eq]
    push_cast
    exact mean.symm
  | advantage die => exact (expect_max die).symm
  | disadvantage die => exact (expect_min die).symm
  | math op l r ihl ihr =>
    obtain ⟨constant, left, right⟩ := divides
    simp only [stats, Stats.combine, ihl fresh.1 left, ihr fresh.2 right]
    apply apply_expect op l.valueOn r.valueOn
    intro quotient deal deal'
    rw [Deal.eq_of_no_dice (constant quotient).1 deal deal']
  | rolled count die results => exact absurd fresh id

/-- On each deal there is a run in which the dice fall as dealt, and this is the mean of the values
of these runs. -/
def IsMeanOfRuns (e : Expression ℚ) (limit : Nat) (mean : ℚ) : Prop :=
  ∃ value : e.Deal → ℚ,
    (∀ deal, ∃ o, e.evaluate ⟨limit, dealing (e.pips deal)⟩ = (.ok o, ⟨limit, dealing []⟩) ∧
      o.value = value deal) ∧
    mean = 𝔼 deal, value deal

theorem IsMeanOfRuns.unique {e : Expression ℚ} {limit : Nat} {mean mean' : ℚ}
    (first : e.IsMeanOfRuns limit mean) (second : e.IsMeanOfRuns limit mean') : mean = mean' := by
  obtain ⟨value, runs, rfl⟩ := first
  obtain ⟨value', runs', rfl⟩ := second
  apply Finset.expect_congr rfl
  intro deal _
  obtain ⟨o, evaluated, same⟩ := runs deal
  obtain ⟨o', evaluated', same'⟩ := runs' deal
  obtain rfl : o = o' := by simpa using evaluated.symm.trans evaluated'
  exact same.symm.trans same'

/-- The average of any outcome is the mean of the values of the runs on all deals, if no hand leaves
its word when it is added up. Up to `2 ^ 31` dice none does. -/
theorem avg_is_mean {limit : Nat} {e : Expression ℚ} (fresh : e.Fresh)
    (divides : e.DividesByConstants) (within : ∀ leaf ∈ e.diceLeaves, leaf.Within limit)
    (fits : limit ≤ 0x80000000 ∨ ∀ deal : e.Deal, e.SumsFitOn deal)
    {σ : Type} [Roller σ] (s : σ) :
    ∃ o t, e.evaluate ⟨limit, s⟩ = (.ok o, t) ∧ e.IsMeanOfRuns limit o.stats.avg := by
  obtain ⟨o, t, evaluated⟩ := (evaluate_eq_ok_iff e s).mpr within
  have same : o.stats = e.stats := stats_evaluate (by rw [evaluated])
  have fits : ∀ deal : e.Deal, e.SumsFitOn deal := by
    rcases fits with small | fits
    · have words : ∀ leaf ∈ e.diceLeaves, leaf.FitsWord := fun leaf member =>
        DiceLeaf.fitsWord_of_within small (within leaf member)
      exact sumsFitOn_of_fits words fresh.totalsFit
    · exact fits
  refine ⟨o, t, evaluated, e.valueOn, fun deal => evaluate_dealing within (fits deal), ?_⟩
  rw [same, stats_avg fresh divides]

/-- `(2d3 - ^d100) * vd30 / (4 - 2.5) + -3d5` -/
def mixedExpression : Expression ℚ :=
  .math .add
    (.math .div
      (.math .mul
        (.math .sub (.roll 2 ⟨3, by decide, by decide⟩) (.advantage ⟨100, by decide, by decide⟩))
        (.disadvantage ⟨30, by decide, by decide⟩))
      (.math .sub (.number 4) (.number (5 / 2))))
    (.roll (-3) ⟨5, by decide, by decide⟩)

theorem mixedExpression_avg : mixedExpression.Fresh ∧ mixedExpression.DividesByConstants ∧
    ∃ o t, mixedExpression.evaluate (⟨defaultLimit, ⟨4, 1⟩⟩ : Session SteppedDice) = (.ok o, t) ∧
      mixedExpression.IsMeanOfRuns defaultLimit o.stats.avg := by
  have fresh : mixedExpression.Fresh :=
    ⟨⟨⟨⟨trivial, trivial⟩, trivial⟩, trivial, trivial⟩, trivial⟩
  have divisor : (4 - 5 / 2 : ℚ) ≠ 0 := by norm_num
  have divides : mixedExpression.DividesByConstants := by
    refine ⟨nofun, ⟨fun _ => ⟨rfl, fun _ => divisor⟩, ?_, ?_⟩, trivial⟩
    · exact ⟨nofun, ⟨nofun, trivial, trivial⟩, trivial⟩
    · exact ⟨nofun, trivial, trivial⟩
  have within : ∀ leaf ∈ mixedExpression.diceLeaves, leaf.Within defaultLimit := by decide
  have small : defaultLimit ≤ 0x80000000 := by decide
  exact ⟨fresh, divides, avg_is_mean fresh divides within (.inl small) (⟨4, 1⟩ : SteppedDice)⟩

/- Hands too large for their word. -/

theorem isMeanOfRuns_roll {limit : Nat} {count : Int64} (within : count.toInt.natAbs ≤ limit)
    (die : Die) : (roll count die : Expression ℚ).IsMeanOfRuns limit
      (𝔼 hand : Hand die count.toInt.natAbs, (wordTotal (signedFaces count hand.faces) : ℚ)) := by
  refine ⟨fun hand => (wordTotal (signedFaces count hand.faces) : ℚ), ?_, rfl⟩
  intro hand
  have drawn := rollHand_dealing hand []
  rw [List.append_nil] at drawn
  have rolled := roll_of_within within die (dealing (hand.faces.map Face.pips))
  rw [drawn] at rolled
  exact ⟨_, evaluate_roll rolled, rfl⟩

end Expression

/-- The face that a face lies on. Both have as many pips together as the lowest and the highest. -/
def Face.underside {die : Die} (face : Face die) : Face die where
  pips := die.sides + 1 - face.pips
  pos := Nat.sub_pos_of_lt (Nat.lt_succ_of_le face.le)
  le := by have pos := face.pos; omega

theorem Face.underside_underside {die : Die} (face : Face die) : face.underside.underside = face := by
  obtain ⟨pips, pos, le⟩ := face
  simp only [underside, Nat.sub_sub_self (Nat.le_succ_of_le le)]

/-- The faces that a hand lies on. -/
def Hand.underside {die : Die} {n : Nat} (hand : Hand die n) : Hand die n :=
  ⟨hand.faces.map Face.underside, by rw [List.length_map, hand.size]⟩

theorem Hand.underside_underside {die : Die} {n : Nat} (hand : Hand die n) :
    hand.underside.underside = hand := by
  obtain ⟨faces, size⟩ := hand
  simp [underside, Function.comp_def, Face.underside_underside]

theorem pipCount_underside {die : Die} (faces : List (Face die)) :
    pipCount faces + pipCount (faces.map Face.underside) = faces.length * (die.sides + 1) := by
  induction faces with
  | nil => simp [pipCount]
  | cons face faces ih =>
    have le := face.le
    simp only [List.map_cons, pipCount, Face.underside, List.length_cons, Nat.succ_mul]
    omega

/-- Two sums that make a whole turn together are opposite in words, or both are the least. -/
theorem bmod_add_bmod_nonpos {m n : Int} (turn : m + n = Int64.size) :
    m.bmod Int64.size + n.bmod Int64.size ≤ 0 := by
  have size : Int64.size = 0x10000000000000000 := rfl
  rw [size] at turn ⊢
  rw [Int.bmod_eq_emod, Int.bmod_eq_emod]
  split <;> split <;> omega

/-- If a hand makes a whole turn with its underside, its totals are at most zero on the average. -/
theorem expect_wordTotal_nonpos {count : Int64} {die : Die} (positive : 0 < count.toInt)
    (turn : count.toInt * (die.sides + 1) = Int64.size) :
    𝔼 hand : Hand die count.toInt.natAbs, (wordTotal (signedFaces count hand.faces) : ℚ) ≤ 0 := by
  have paired (hand : Hand die count.toInt.natAbs) :
      (wordTotal (signedFaces count hand.faces) +
        wordTotal (signedFaces count hand.underside.faces) : ℚ) ≤ 0 := by
    have sum : exactTotal (signedFaces count hand.faces) +
        exactTotal (signedFaces count hand.underside.faces) = Int64.size := by
      have pips := pipCount_underside hand.faces
      have size : (hand.faces.length : Int) = count.toInt := by rw [hand.size]; omega
      rw [← size] at turn
      rw [exactTotal_signedFaces, exactTotal_signedFaces, if_neg (by omega), if_neg (by omega),
        ← turn]
      exact_mod_cast pips
    have bound := bmod_add_bmod_nonpos sum
    rw [← wordTotal_eq, ← wordTotal_eq] at bound
    exact_mod_cast bound
  have same : 𝔼 hand : Hand die count.toInt.natAbs,
      (wordTotal (signedFaces count hand.underside.faces) : ℚ) =
        𝔼 hand : Hand die count.toInt.natAbs, (wordTotal (signedFaces count hand.faces) : ℚ) :=
    Fintype.expect_equiv (Function.Involutive.toPerm Hand.underside Hand.underside_underside) _ _
      fun _ => rfl
  have twice := Finset.expect_le_expect fun hand (_ : hand ∈ Finset.univ) => paired hand
  rw [Finset.expect_add_distrib, same, Finset.expect_const_zero] at twice
  linarith

/-- The die with the most sides. -/
def Die.greatest : Die := ⟨UInt32.size - 1, by decide, by decide⟩

namespace Expression

/-- `4294967296d4294967295` -/
def greatestRoll : Expression ℚ := .roll 4294967296 .greatest

/-- The average of `2 ^ 32` dice of `2 ^ 32 - 1` sides is `2 ^ 63`, which is more than a word holds.
The mean of the totals that words make of them is not even positive. -/
theorem greatestRoll_avg : greatestRoll.Fresh ∧ greatestRoll.DividesByConstants ∧
    (∀ leaf ∈ greatestRoll.diceLeaves, leaf.Within 4294967296) ∧
    ∃ o t mean, greatestRoll.evaluate ⟨4294967296, FixedDice.lowest⟩ = (.ok o, t) ∧
      o.stats.avg = 9223372036854775808 ∧ greatestRoll.IsMeanOfRuns 4294967296 mean ∧ mean ≤ 0 ∧
      ¬ greatestRoll.IsMeanOfRuns 4294967296 o.stats.avg := by
  have within : (4294967296 : Int64).toInt.natAbs ≤ 4294967296 := by decide
  have leaves : ∀ leaf ∈ greatestRoll.diceLeaves, leaf.Within 4294967296 :=
    List.forall_mem_singleton.mpr within
  obtain ⟨o, t, evaluated⟩ := (evaluate_eq_ok_iff greatestRoll FixedDice.lowest).mpr leaves
  have same : o.stats = Stats.dice 4294967296 .greatest := stats_evaluate (by rw [evaluated])
  have avg : o.stats.avg = 9223372036854775808 := by
    have count : (4294967296 : Int64).toInt = 4294967296 := by decide
    have sides : Die.greatest.sides = 4294967295 := rfl
    rw [same]
    simp only [Stats.dice, Exact.ofInt_eq, count, sides]
    norm_num
  have turn : (4294967296 : Int64).toInt * (Die.greatest.sides + 1) = Int64.size := by decide
  have runs := isMeanOfRuns_roll within .greatest
  have most := expect_wordTotal_nonpos (by decide) turn
  refine ⟨trivial, trivial, leaves, o, t, _, evaluated, avg, runs, most, fun claimed => ?_⟩
  have same := claimed.unique runs
  linarith

end Expression

end DiceNotation
