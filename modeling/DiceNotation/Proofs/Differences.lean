import DiceNotation.Proofs.Hands
import DiceNotation.Proofs.OppositeDoubles

/-!
Differences as sums. Taking a number or a roll away is adding its opposite, anywhere in an
expression and as often as one likes: the same dice are asked for, and the values and the statistics
are the same doubles. Only of more than `2 ^ 31` dice can the total be a word without an opposite of
its own, and then the values differ. What a roll with a negative count has for statistics follows
from this.
-/
namespace DiceNotation

/-- Some differences of an expression: none, those of its operands, or the expression itself and
those of its left operand. -/
inductive Marks where
  | none
  | operands (left right : Marks)
  | here (left : Marks)

/-- The marks are on differences, and what these take away is such. -/
def Marks.On (such : Expression Float → Prop) : Marks → Expression Float → Prop
  | none, _ => True
  | operands left right, .math _ l r => left.On such l ∧ right.On such r
  | here left, .math .sub l r => left.On such l ∧ such r
  | _, _ => False

namespace Expression

def opposite : Expression Float → Expression Float
  | number x => number (-x)
  | roll count die => roll (-count) die
  | rolled count die results => rolled (-count) die (results.map (-·))
  | e => e

/-- With the opposite added in each marked difference. -/
def addingOpposites : Marks → Expression Float → Expression Float
  | .operands left right, math op l r =>
    math op (l.addingOpposites left) (r.addingOpposites right)
  | .here left, math _ l r => math .add (l.addingOpposites left) r.opposite
  | _, e => e

/-- A number, or a roll whose count has an opposite other than itself. -/
def HasOpposite : Expression Float → Prop
  | number _ => True
  | roll count _ => count ≠ 0 ∧ count ≠ Int64.minValue
  | advantage _ | disadvantage _ | rolled .. | math .. => False

/-- A total that has an opposite of its own. -/
def TotalTurns : Expression Float → Prop
  | rolled _ _ results => total results ≠ 0 ∧ total results ≠ Int64.minValue
  | _ => True

end Expression

/- Opposite leaves. -/

theorem total_neg (results : List Int64) : total (results.map (-·)) = -total results := by
  have turned (start : Int64) :
      (results.map (-·)).foldl (· + ·) (-start) = -results.foldl (· + ·) start := by
    induction results generalizing start with
    | nil => rfl
    | cons result results ih =>
      have sum : -start + -result = -(start + result) := by
        rw [Int64.neg_add, Int64.sub_eq_add_neg]
      simp only [List.map_cons, List.foldl_cons, sum, ih]
  exact turned 0

/-- Up to `2 ^ 31` dice the total of a roll is not zero and not the least word. -/
theorem totalTurns_hand {limit : Nat} (small : limit ≤ 0x80000000) {count : Int64}
    (some : count ≠ 0) (within : count.toInt.natAbs ≤ limit) {die : Die}
    (hand : Hand die count.toInt.natAbs) :
    (Expression.rolled count die (signedFaces count hand.faces)).TotalTurns := by
  have word : (DiceLeaf.roll count die).FitsWord := DiceLeaf.fitsWord_of_within small within
  have exact : (total (signedFaces count hand.faces)).toInt =
      exactTotal (signedFaces count hand.faces) :=
    wordTotal_of_sumsFit (sumsFit_signedFaces hand word)
  have range := rollRange_hand hand
  have nonzero : count.toInt ≠ 0 := fun zero => some (Int64.toInt_inj.mp zero)
  have most := range.natAbs_total_le
  have product := natAbs_count_mul_sides_le within die
  have least : Int64.minValue.toInt = -0x8000000000000000 := rfl
  constructor
  · intro zero
    have none : (0 : Int64).toInt = 0 := rfl
    rw [zero, none] at exact
    by_cases negative : count.toInt < 0
    · have bounds := range.negatedTotal negative
      omega
    · have bounds := range.total (Int.not_lt.mp negative)
      omega
  · intro bottom
    rw [bottom, least] at exact
    omega

def Stats.opposite (s : Stats Float) : Stats Float := ⟨-s.min, -s.max, -s.avg⟩

theorem Stats.dice_neg {count : Int64} (some : count ≠ 0) (proper : count ≠ Int64.minValue)
    (die : Die) : (Stats.dice (-count) die : Stats Float) = (Stats.dice count die).opposite := by
  have nonzero : count.toInt ≠ 0 := fun zero => some (Int64.toInt_inj.mp zero)
  have turned : (Arithmetic.ofInt (-count).toInt : Float) = -Arithmetic.ofInt count.toInt := by
    rw [toInt_neg_of_ne proper]
    exact Binary.ofInt_neg nonzero
  simp only [Stats.dice, Stats.opposite, turned, Binary.neg_mul_float, Binary.neg_div_float]

theorem Stats.combine_opposite (a b : Stats Float) :
    Stats.combine .add a b.opposite = Stats.combine .sub a b := by
  simp only [Stats.combine, Stats.opposite, Operator.apply, Binary.sub_eq_add_neg_float]

theorem ofInt_total_neg {count : Int64} {die : Die} {results : List Int64}
    (turns : (Expression.rolled count die results).TotalTurns) :
    Float.ofInt (total (results.map (-·))).toInt = -Float.ofInt (total results).toInt := by
  rw [total_neg, toInt_neg_of_ne turns.2]
  exact Binary.ofInt_neg fun zero => turns.1 (Int64.toInt_inj.mp zero)

/- Runs. -/

/-- Both runs are refused for one reason, or both have outcomes, the second the opposite of the
first once its total turns. They leave the same session. -/
inductive Opposed {σ : Type} : Except RollError (Outcome Float) × Session σ →
    Except RollError (Outcome Float) × Session σ → Prop where
  | refused (why t) : Opposed (.error why, t) (.error why, t)
  | served {o t value} : (o.expression.TotalTurns → value = -o.value) →
      Opposed (.ok o, t) (.ok ⟨o.expression.opposite, value, o.stats.opposite⟩, t)

namespace Marks

/-- Both runs are refused for one reason, or both have outcomes, the second with opposites added at
the marks. They leave the same session. -/
inductive Alike {σ : Type} (marks : Marks) : Except RollError (Outcome Float) × Session σ →
    Except RollError (Outcome Float) × Session σ → Prop where
  | refused (why t) : Alike marks (.error why, t) (.error why, t)
  | served (o t) :
      Alike marks (.ok o, t) (.ok ⟨o.expression.addingOpposites marks, o.value, o.stats⟩, t)

/-- The runs are alike, but for values to which a total adds that does not turn. -/
inductive AlikeUpToTotals {σ : Type} (marks : Marks) :
    Except RollError (Outcome Float) × Session σ →
      Except RollError (Outcome Float) × Session σ → Prop where
  | refused (why t) : AlikeUpToTotals marks (.error why, t) (.error why, t)
  | served {o t value} : (marks.On Expression.TotalTurns o.expression → value = o.value) →
      AlikeUpToTotals marks (.ok o, t)
        (.ok ⟨o.expression.addingOpposites marks, value, o.stats⟩, t)

theorem AlikeUpToTotals.alike {σ : Type} {marks : Marks}
    {run run' : Except RollError (Outcome Float) × Session σ}
    (upTo : marks.AlikeUpToTotals run run')
    (turns : ∀ o t, run = (.ok o, t) → marks.On Expression.TotalTurns o.expression) :
    marks.Alike run run' := by
  cases upTo with
  | refused why t => exact .refused why t
  | @served o t value same =>
    obtain rfl := same (turns o t rfl)
    exact .served o t

end Marks

namespace Expression

variable {σ : Type}

theorem addingOpposites_none (e : Expression Float) : e.addingOpposites .none = e := by
  cases e <;> rfl

/-- A mark that is on an expression is on a difference. -/
theorem exists_difference {such : Expression Float → Prop} {left : Marks} {e : Expression Float}
    (on : (Marks.here left).On such e) : ∃ l r, e = .math .sub l r := by
  cases e with
  | math op l r => cases op <;> first | exact ⟨l, r, rfl⟩ | exact absurd on id
  | _ => exact absurd on id

theorem alike_none (run : Except RollError (Outcome Float) × Session σ) :
    Marks.none.AlikeUpToTotals run run := by
  obtain ⟨why | o, t⟩ := run
  · exact .refused why t
  · have served : Marks.none.AlikeUpToTotals (.ok o, t)
        (.ok ⟨o.expression.addingOpposites .none, o.value, o.stats⟩, t) :=
      .served fun _ => rfl
    rwa [addingOpposites_none] at served

variable [Roller σ]

theorem evaluate_opposite {e : Expression Float} (has : e.HasOpposite) (s : Session σ) :
    Opposed (e.evaluate s) (e.opposite.evaluate s) := by
  cases e with
  | number x => exact .served fun _ => rfl
  | roll count die =>
    obtain ⟨some, proper⟩ := has
    have opposite := s.roll_neg some proper die
    simp only [Expression.opposite, evaluate, opposite]
    cases s.roll count die with
    | mk result t =>
      cases result with
      | error why => exact .refused why t
      | ok results =>
        have served : Opposed (.ok (.rolled count die results (.dice count die)), t)
            (.ok ⟨_, _, (Stats.dice count die).opposite⟩, t) :=
          .served ofInt_total_neg
        rw [← Stats.dice_neg some proper] at served
        exact served
  | _ => exact absurd has id

theorem evaluate_alike {marks : Marks} {e : Expression Float} (on : marks.On HasOpposite e)
    (s : Session σ) :
    marks.AlikeUpToTotals (e.evaluate s) ((e.addingOpposites marks).evaluate s) := by
  induction marks generalizing e s with
  | none =>
    rw [addingOpposites_none]
    exact alike_none _
  | operands left right ihl ihr =>
    cases e with
    | math op l r =>
      have alike := ihl on.1 s
      simp only [addingOpposites, evaluate]
      generalize l.evaluate s = run, (l.addingOpposites left).evaluate s = run' at alike ⊢
      cases alike with
      | refused why t => exact .refused why t
      | @served a t value same =>
        have alike := ihr on.2 t
        dsimp only
        generalize r.evaluate t = run, (r.addingOpposites right).evaluate t = run' at alike ⊢
        cases alike with
        | refused why u => exact .refused why u
        | served same' =>
          exact .served fun turns => by
            simp only [Outcome.math, same turns.1, same' turns.2]
    | _ => exact absurd on id
  | here left ih =>
    obtain ⟨l, r, rfl⟩ := exists_difference on
    have alike := ih on.1 s
    simp only [addingOpposites, evaluate]
    generalize l.evaluate s = run, (l.addingOpposites left).evaluate s = run' at alike ⊢
    cases alike with
    | refused why t => exact .refused why t
    | @served a t value same =>
      have opposed := evaluate_opposite on.2 t
      dsimp only
      generalize r.evaluate t = run, r.opposite.evaluate t = run' at opposed ⊢
      cases opposed with
      | refused why u => exact .refused why u
      | @served b u value' same' =>
        have served : (Marks.here left).AlikeUpToTotals (.ok (.math .sub a b), u)
            (.ok ⟨_, value + value', _⟩, u) :=
          .served fun turns => by
            rw [same turns.1, same' turns.2]
            exact (Binary.sub_eq_add_neg_float a.value b.value).symm
        simp only [Outcome.math, Stats.combine_opposite]
        exact served

/- Which totals turn. -/

theorem HasOpposite.totalTurns {limit : Nat} (small : limit ≤ 0x80000000) {e e' : Expression Float}
    {draws : List Draw} {x : Float} (has : e.HasOpposite)
    (within : ∀ leaf ∈ e.diceLeaves, leaf.Within limit)
    (resolved : Resolves wordTotal e draws e' x) : e'.TotalTurns := by
  cases resolved with
  | number x => trivial
  | roll count die hand => exact totalTurns_hand small has.1 (within _ List.mem_cons_self) hand
  | _ => exact absurd has id

theorem totalsTurn_of_small {limit : Nat} (small : limit ≤ 0x80000000) {marks : Marks}
    {e e' : Expression Float} {draws : List Draw} {x : Float} (on : marks.On HasOpposite e)
    (within : ∀ leaf ∈ e.diceLeaves, leaf.Within limit)
    (resolved : Resolves wordTotal e draws e' x) : marks.On TotalTurns e' := by
  induction marks generalizing e e' draws x with
  | none => trivial
  | operands left right ihl ihr =>
    cases resolved with
    | math l r =>
      obtain ⟨first, rest⟩ := List.forall_mem_append.mp within
      exact ⟨ihl on.1 first l, ihr on.2 rest r⟩
    | _ => exact absurd on id
  | here left ih =>
    obtain ⟨l, r, rfl⟩ := exists_difference on
    obtain ⟨first, rest⟩ := List.forall_mem_append.mp within
    cases resolved with
    | math l r => exact ⟨ih on.1 first l, HasOpposite.totalTurns small on.2 rest r⟩

theorem exists_plain_run {limit : Nat} {e : Expression Float} {s : σ} {o : Outcome Float}
    {t : Session (Recorder σ)}
    (recorded : e.evaluate (⟨limit, ⟨s, []⟩⟩ : Session (Recorder σ)) = (.ok o, t)) :
    ∃ u, e.evaluate ⟨limit, s⟩ = (.ok o, u) := by
  have within := (evaluate_eq_ok_iff e (⟨s, []⟩ : Recorder σ)).mp ⟨o, t, recorded⟩
  obtain ⟨o', _, plain, again, _⟩ := evaluate_of_within e within s []
  obtain ⟨rfl, -⟩ : o = o' ∧ t = _ := by simpa using recorded.symm.trans again
  exact ⟨_, plain⟩

/-- Adding opposites of literals in the place of differences shows nowhere but in the expression of
the outcome: the refusal is the same, or the value and the statistics, and so are all draws and the
session that is left. This takes a total at each mark that turns, which all have up to `2 ^ 31`
dice: a total beyond that can leave its word and come out as zero or as the least number. -/
theorem opposites_added_alike {marks : Marks} {e : Expression Float}
    (on : marks.On HasOpposite e) {limit : Nat} {s : σ} (turning : limit ≤ 0x80000000 ∨
      ∀ o t, e.evaluate ⟨limit, s⟩ = (.ok o, t) → marks.On TotalTurns o.expression) :
    marks.Alike (e.evaluate ⟨limit, s⟩) ((e.addingOpposites marks).evaluate ⟨limit, s⟩) ∧
      marks.Alike (e.evaluate (⟨limit, ⟨s, []⟩⟩ : Session (Recorder σ)))
        ((e.addingOpposites marks).evaluate (⟨limit, ⟨s, []⟩⟩ : Session (Recorder σ))) := by
  have turns (o t) (evaluated : e.evaluate ⟨limit, s⟩ = (.ok o, t)) :
      marks.On TotalTurns o.expression := by
    rcases turning with small | turns
    · obtain ⟨within, _, _, _, resolved⟩ := resolves_of_evaluate evaluated
      exact totalsTurn_of_small small on within resolved
    · exact turns o t evaluated
  refine ⟨(evaluate_alike on _).alike turns, (evaluate_alike on _).alike fun o t recorded => ?_⟩
  obtain ⟨u, plain⟩ := exists_plain_run recorded
  exact turns o u plain

/-- `(10 - 2d14) * (^d24 - 1.5 - -3d16)` -/
def threeDifferences : Expression Float :=
  .math .mul (.math .sub (.number 10) (.roll 2 ⟨14, by decide, by decide⟩))
    (.math .sub (.math .sub (.advantage ⟨24, by decide, by decide⟩) (.number 1.5))
      (.roll (-3) ⟨16, by decide, by decide⟩))

def allThree : Marks := .operands (.here .none) (.here (.here .none))

theorem threeDifferences_alike : allThree.On HasOpposite threeDifferences ∧ ∃ o o' t,
    threeDifferences.evaluate (⟨3, ⟨4, 1⟩⟩ : Session SteppedDice) = (.ok o, t) ∧
      (threeDifferences.addingOpposites allThree).evaluate
        (⟨3, ⟨4, 1⟩⟩ : Session SteppedDice) = (.ok o', t) ∧
      o'.expression = o.expression.addingOpposites allThree ∧
      o'.value = o.value ∧ o'.stats = o.stats := by
  have on : allThree.On HasOpposite threeDifferences :=
    ⟨⟨trivial, by decide, by decide⟩, ⟨trivial, trivial⟩, by decide, by decide⟩
  have few : 3 ≤ 0x80000000 := by decide
  obtain ⟨o, t, evaluated⟩ :
      ∃ o t, threeDifferences.evaluate (⟨3, ⟨4, 1⟩⟩ : Session SteppedDice) = (.ok o, t) :=
    (evaluate_eq_ok_iff threeDifferences _).mpr (by decide)
  have alike := (opposites_added_alike on (s := (⟨4, 1⟩ : SteppedDice)) (.inl few)).1
  rw [evaluated] at alike
  generalize (threeDifferences.addingOpposites allThree).evaluate
    (⟨3, ⟨4, 1⟩⟩ : Session SteppedDice) = run at alike ⊢
  cases alike with
  | served => exact ⟨on, o, _, t, evaluated, rfl, rfl, rfl, rfl⟩

/-- `1 - 4294967296d2147483648` -/
def greatestDifference : Expression Float :=
  .math .sub (.number 1) (.roll 4294967296 ⟨2147483648, by decide, by decide⟩)

/-- When all `2 ^ 32` dice show their `2 ^ 31` sides, their total leaves its word and comes out as
the least number, and so does that of as many dice counted negative. -/
theorem greatestDifference_not_alike :
    (Marks.here .none).On HasOpposite greatestDifference ∧ ∃ o o' t,
      greatestDifference.evaluate ⟨4294967296, FixedDice.highest⟩ = (.ok o, t) ∧
        (greatestDifference.addingOpposites (.here .none)).evaluate
          ⟨4294967296, FixedDice.highest⟩ = (.ok o', t) ∧
        o.value = 9223372036854775808 ∧ o'.value = -9223372036854775808 ∧
        o'.value ≠ o.value := by
  let die : Die := ⟨2147483648, by decide, by decide⟩
  have within : (4294967296 : Int64).toInt.natAbs ≤ 4294967296 := by decide
  have within' : (-4294967296 : Int64).toInt.natAbs ≤ 4294967296 := by decide
  obtain ⟨a, taken, total⟩ := FixedDice.highest.evaluate_turned (α := Float) within die
  obtain ⟨b, added, total'⟩ := FixedDice.highest.evaluate_turned (α := Float) within' die
  have turned : ((4294967296 : Int64).toInt * (FixedDice.highest.face die).pips).bmod
      Int64.size = -0x8000000000000000 := by decide
  have turned' : ((-4294967296 : Int64).toInt * (FixedDice.highest.face die).pips).bmod
      Int64.size = -0x8000000000000000 := by decide
  rw [turned] at total
  rw [turned'] at total'
  have difference : 1 - a.value = 9223372036854775808 := by rw [total]; rfl
  have sum : 1 + b.value = -9223372036854775808 := by rw [total']; rfl
  have other : 1 + b.value ≠ 1 - a.value := by rw [difference, sum]; decide
  exact ⟨⟨trivial, by decide, by decide⟩, _, _, _, evaluate_math rfl taken,
    evaluate_math rfl added, difference, sum, other⟩

end Expression

end DiceNotation
