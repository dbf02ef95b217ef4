import DiceNotation.Command
import DiceNotation.Proofs.Deals
import DiceNotation.Proofs.ExactStats
import DiceNotation.Proofs.Rolls
import Mathlib.Tactic.Linarith

/-!
Values between the minimum and the maximum, for sums and differences in rational numbers. The
bounds of a difference are the differences of the bounds, so they hold for every run just when the
dice that are subtracted cannot vary.
-/
namespace DiceNotation

/-- All dice of the leaf show the same in every run. -/
def DiceLeaf.Fixed : DiceLeaf → Prop
  | roll count die => count.toInt = 0 ∨ die.sides = 1
  | advantage die | disadvantage die => die.sides = 1

/-- `x ≤ y`, or the other way round for what is negated. -/
def Below : (negated : Bool) → ℚ → ℚ → Prop
  | false, x, y => x ≤ y
  | true, x, y => y ≤ x

theorem Below.add {negated : Bool} {x y x' y' : ℚ} (below : Below negated x y)
    (below' : Below negated x' y') : Below negated (x + x') (y + y') := by
  cases negated <;> exact add_le_add below below'

theorem Below.sub {negated : Bool} {x y x' y' : ℚ} (below : Below negated x y)
    (below' : Below (!negated) x' y') : Below negated (x - x') (y - y') := by
  cases negated <;> exact sub_le_sub below below'

/-- Neither sum can be reached unless both of its parts are. -/
theorem Below.of_add {negated : Bool} {x y x' y' : ℚ} (sum : Below negated (x + x') (y + y'))
    (below : Below negated y x) (below' : Below negated y' x') :
    Below negated x y ∧ Below negated x' y' := by
  cases negated <;> simp only [Below] at sum below below' ⊢ <;> constructor <;> linarith

theorem Below.of_sub {negated : Bool} {x y x' y' : ℚ} (sum : Below negated (x - x') (y - y'))
    (below : Below negated y x) (below' : Below (!negated) y' x') :
    Below negated x y ∧ Below (!negated) x' y' := by
  cases negated <;> simp only [Below, Bool.not_false, Bool.not_true] at sum below below' ⊢ <;>
    constructor <;> linarith

theorem Die.sides_eq_one_iff (die : Die) : die.sides = 1 ↔ (die.sides : Int) ≤ 1 := by
  have pos := die.pos
  omega

namespace Expression

variable {α : Type}

/-- A number, a roll that counts positive, or a pair. -/
def IsTerm : Expression α → Prop
  | number _ | advantage _ | disadvantage _ => True
  | roll count _ => 0 ≤ count.toInt
  | rolled .. | math .. => False

inductive Additive : Expression α → Prop where
  | term {e} : e.IsTerm → Additive e
  | add {l r} : l.Additive → r.Additive → Additive (.math .add l r)
  | sub {l r} : l.Additive → r.Additive → Additive (.math .sub l r)

/-- The dice leaves that count negative, in the value or in its negation. -/
def subtracted (negated : Bool) : Expression α → List DiceLeaf
  | math .sub l r => l.subtracted negated ++ r.subtracted (!negated)
  | math _ l r => l.subtracted negated ++ r.subtracted negated
  | e => if negated then e.diceLeaves else []

/-- The deal of least value, or with the least negation of it. -/
def leastDeal (negated : Bool) : (e : Expression α) → e.Deal
  | number _ | rolled .. => ()
  | roll _ die => .same _ (if negated then .highest die else .lowest die)
  | advantage die | disadvantage die =>
    let face := if negated then Face.highest die else .lowest die
    (face, face)
  | math .sub l r => (l.leastDeal negated, r.leastDeal (!negated))
  | math _ l r => (l.leastDeal negated, r.leastDeal negated)

theorem Additive.fresh {e : Expression α} (additive : e.Additive) : e.Fresh := by
  induction additive with
  | @term e term =>
    cases e with
    | rolled count die results => exact absurd term id
    | math op l r => exact absurd term id
    | _ => trivial
  | add _ _ ihl ihr => exact ⟨ihl, ihr⟩
  | sub _ _ ihl ihr => exact ⟨ihl, ihr⟩

theorem IsTerm.subtracted_eq {e : Expression α} (term : e.IsTerm) (negated : Bool) :
    e.subtracted negated = if negated then e.diceLeaves else [] := by
  cases e with
  | math op l r => exact absurd term id
  | _ => rfl

section

variable {e : Expression ℚ}

theorem IsTerm.contained (term : e.IsTerm) (deal : e.Deal) :
    e.stats.min ≤ e.valueOn deal ∧ e.valueOn deal ≤ e.stats.max := by
  cases e with
  | number x => exact ⟨le_refl x, le_refl x⟩
  | roll count die =>
    obtain ⟨low, high⟩ := (rollRange_hand deal).total term
    have high : ((exactTotal (signedFaces count _) : Int) : ℚ) ≤ _ := Int.cast_le.mpr high
    rw [Int.cast_mul] at high
    exact ⟨Int.cast_le.mpr low, high⟩
  | advantage die =>
    obtain ⟨low, high⟩ := max_bounds deal.1 deal.2
    exact ⟨Int.cast_le.mpr low, Int.cast_le.mpr high⟩
  | disadvantage die =>
    obtain ⟨low, high⟩ := min_bounds deal.1 deal.2
    exact ⟨Int.cast_le.mpr low, Int.cast_le.mpr high⟩
  | rolled count die results => exact absurd term id
  | math op l r => exact absurd term id

theorem IsTerm.valueOn_leastDeal (term : e.IsTerm) (negated : Bool) :
    e.valueOn (e.leastDeal negated) = if negated then e.stats.max else e.stats.min := by
  cases e with
  | number x => cases negated <;> rfl
  | roll count die =>
    cases negated with
    | false =>
      have ones := exactTotal_of_same (.same count.toInt.natAbs (.lowest die))
        fun _ => Hand.pips_of_mem_same
      exact congrArg Int.cast (ones.trans (Int.mul_one _))
    | true =>
      have sides := exactTotal_of_same (.same count.toInt.natAbs (.highest die))
        fun _ => Hand.pips_of_mem_same
      exact (congrArg Int.cast sides).trans (Int.cast_mul _ _)
  | advantage die =>
    cases negated with
    | false => exact congrArg Int.cast (Int.max_self (Face.lowest die).pips)
    | true => exact congrArg Int.cast (Int.max_self (Face.highest die).pips)
  | disadvantage die =>
    cases negated with
    | false => exact congrArg Int.cast (Int.min_self (Face.lowest die).pips)
    | true => exact congrArg Int.cast (Int.min_self (Face.highest die).pips)
  | rolled count die results => exact absurd term id
  | math op l r => exact absurd term id

/-- The dice of a term vary unless its bounds coincide. -/
theorem IsTerm.fixed_iff (term : e.IsTerm) :
    (∀ leaf ∈ e.diceLeaves, leaf.Fixed) ↔ e.stats.max ≤ e.stats.min := by
  cases e with
  | number x => exact iff_of_true (List.forall_mem_nil _) (le_refl x)
  | roll count die =>
    have product : (count.toInt * die.sides : ℚ) ≤ count.toInt ↔
        count.toInt * die.sides ≤ count.toInt := by
      rw [← Int.cast_natCast, ← Int.cast_mul, Int.cast_le]
    refine List.forall_mem_singleton.trans (Iff.trans ?_ product.symm)
    constructor
    · rintro (none | one)
      · rw [none, Int.zero_mul]
      · rw [one, Int.natCast_one, Int.mul_one]
    · intro le
      rcases Int.lt_or_eq_of_le term with positive | none
      · have one : (die.sides : Int) ≤ 1 :=
          Int.le_of_mul_le_mul_left (by rwa [Int.mul_one]) positive
        exact .inr (die.sides_eq_one_iff.mpr one)
      · exact .inl none.symm
  | advantage die =>
    exact List.forall_mem_singleton.trans (die.sides_eq_one_iff.trans Int.cast_le.symm)
  | disadvantage die =>
    exact List.forall_mem_singleton.trans (die.sides_eq_one_iff.trans Int.cast_le.symm)
  | rolled count die results => exact absurd term id
  | math op l r => exact absurd term id

theorem Additive.contained (additive : e.Additive) (negated : Bool) (deal : e.Deal)
    (fixed : ∀ leaf ∈ e.subtracted negated, leaf.Fixed) :
    Below negated e.stats.min (e.valueOn deal) ∧ Below negated (e.valueOn deal) e.stats.max := by
  -- The sign is general because a subtrahend is met in the negation of what it stands in.
  induction additive generalizing negated with
  | term term =>
    obtain ⟨low, high⟩ := term.contained deal
    rw [term.subtracted_eq] at fixed
    cases negated with
    | false => exact ⟨low, high⟩
    | true =>
      -- A term that cannot vary lies between its bounds in both directions.
      have point := term.fixed_iff.mp fixed
      exact ⟨high.trans point, point.trans low⟩
  | add _ _ ihl ihr =>
    obtain ⟨left, right⟩ := List.forall_mem_append.mp fixed
    obtain ⟨low, high⟩ := ihl negated deal.1 left
    obtain ⟨low', high'⟩ := ihr negated deal.2 right
    exact ⟨low.add low', high.add high'⟩
  | sub _ _ ihl ihr =>
    obtain ⟨left, right⟩ := List.forall_mem_append.mp fixed
    obtain ⟨low, high⟩ := ihl negated deal.1 left
    obtain ⟨low', high'⟩ := ihr (!negated) deal.2 right
    exact ⟨low.sub low', high.sub high'⟩

theorem Additive.least (additive : e.Additive) (negated : Bool) :
    Below negated (e.valueOn (e.leastDeal negated)) e.stats.min := by
  induction additive generalizing negated with
  | term term =>
    rw [term.valueOn_leastDeal]
    cases negated with
    | false => exact le_refl _
    | true => exact (term.contained (leastDeal false _)).1.trans (term.contained _).2
  | add _ _ ihl ihr => exact (ihl negated).add (ihr negated)
  | sub _ _ ihl ihr => exact (ihl negated).sub (ihr (!negated))

theorem Additive.fixed_of_least (additive : e.Additive) (negated : Bool)
    (reached : Below negated e.stats.min (e.valueOn (e.leastDeal negated))) :
    ∀ leaf ∈ e.subtracted negated, leaf.Fixed := by
  induction additive generalizing negated with
  | term term =>
    rw [term.valueOn_leastDeal] at reached
    rw [term.subtracted_eq]
    cases negated with
    | false => exact List.forall_mem_nil _
    | true => exact term.fixed_iff.mpr reached
  | add left right ihl ihr =>
    obtain ⟨l, r⟩ := reached.of_add (left.least negated) (right.least negated)
    exact List.forall_mem_append.mpr ⟨ihl negated l, ihr negated r⟩
  | sub left right ihl ihr =>
    obtain ⟨l, r⟩ := reached.of_sub (left.least negated) (right.least (!negated))
    exact List.forall_mem_append.mpr ⟨ihl negated l, ihr (!negated) r⟩

end

/-- The bounds contain the values of all runs just when the dice that are subtracted cannot vary.
-/
theorem bounds_contain_iff {limit : Nat} {e : Expression ℚ} (additive : e.Additive)
    (within : ∀ leaf ∈ e.diceLeaves, leaf.Within limit)
    (fits : limit ≤ 0x80000000 ∨ ∀ leaf ∈ e.diceLeaves, leaf.FitsWord) :
    (∀ {σ : Type} [Roller σ] (s : σ) (o : Outcome ℚ) (t : Session σ),
      e.evaluate ⟨limit, s⟩ = (.ok o, t) → o.stats.min ≤ o.value ∧ o.value ≤ o.stats.max) ↔
    ∀ leaf ∈ e.subtracted false, leaf.Fixed := by
  have fits := fitsWord_of_small_or within fits
  constructor
  · intro contained
    -- The least value of all is not below the minimum.
    have least := sumsFitOn_of_fits fits additive.fresh.totalsFit (e.leastDeal false)
    obtain ⟨o, run, value⟩ := evaluate_dealing within least
    have low := (contained _ o _ run).1
    have same : o.stats = e.stats := stats_evaluate (by rw [run])
    rw [same, value] at low
    exact additive.fixed_of_least false low
  · intro fixed σ _ s o t evaluated
    obtain ⟨deal, value⟩ := exists_deal_of_evaluate additive.fresh fits evaluated
    have same : o.stats = e.stats := stats_evaluate (by rw [evaluated])
    rw [same, value]
    exact additive.contained false deal fixed

/-- The difference of two equal dice. -/
def difference (die : Die) : Expression ℚ := .math .sub (.roll 1 die) (.roll 1 die)

theorem difference_not_contained :
    (difference ⟨6, by decide, by decide⟩).Additive ∧
    ¬ ∀ {σ : Type} [Roller σ] (s : σ) (o : Outcome ℚ) (t : Session σ),
      (difference ⟨6, by decide, by decide⟩).evaluate ⟨defaultLimit, s⟩ = (.ok o, t) →
        o.stats.min ≤ o.value ∧ o.value ≤ o.stats.max := by
  let die : Die := ⟨6, by decide, by decide⟩
  have one : 0 ≤ (1 : Int64).toInt := by decide
  have additive : (difference die).Additive := .sub (.term one) (.term one)
  have within : ∀ leaf ∈ (difference die).diceLeaves, leaf.Within defaultLimit := by decide
  refine ⟨additive, ?_⟩
  intro contained
  have fixed := (bounds_contain_iff additive within (.inl (by decide))).mp contained _
    List.mem_cons_self
  rcases fixed with none | single
  · contradiction
  · exact absurd single (by decide : 6 ≠ 1)

end Expression

/-- A six and a one differ by five, and both bounds are zero. -/
theorem execute_difference : ∃ o t,
    (⟨defaultLimit, ⟨.start 6 [1]⟩⟩ : Session RepeatedDice).execute "d6 - d6" = (.ok o, t) ∧
      o.value = 5 ∧ o.stats = ⟨0, 0, 0⟩ := by
  refine ⟨_, _, rfl, ?_, ?_⟩ <;> decide +kernel

end DiceNotation
