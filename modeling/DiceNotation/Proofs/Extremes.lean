import DiceNotation.Proofs.Rolls

/-!
The minimum and the maximum as values of real runs, in doubles. A run in which each die shows one
has the minimum as its value, and a run in which each die shows its sides has the maximum. Equal
doubles agree in every bit, where all NaNs are one. Up to `2 ^ 21` dice a roll no product of a
count and a number of sides is rounded.
-/
namespace DiceNotation

theorem ofInt_count_mul_sides {limit : Nat} (small : limit ≤ 0x200000) {count : Int64}
    (within : count.toInt.natAbs ≤ limit) (die : Die) :
    Float.ofInt count.toInt * Float.ofInt die.sides = Float.ofInt (count.toInt * die.sides) := by
  have few : count.toInt.natAbs < Binary.wholeLimit := by
    unfold Binary.wholeLimit
    omega
  exact Binary.ofInt_mul (Int.natCast_pos.mpr die.pos) few (natAbs_sides_lt die)
    (natAbs_count_mul_sides_lt small within die)

namespace Expression

theorem stats_max {limit : Nat} (small : limit ≤ 0x200000) {e : Expression Float}
    (fresh : e.Fresh) (within : ∀ leaf ∈ e.diceLeaves, leaf.Within limit) :
    e.stats.max = e.valueShowing Die.sides := by
  induction e with
  | roll count die => exact ofInt_count_mul_sides small (within _ List.mem_cons_self) die
  | math op l r ihl ihr =>
    obtain ⟨left, right⟩ := List.forall_mem_append.mp within
    simp only [stats, Stats.combine, valueShowing, ihl fresh.1 left, ihr fresh.2 right]
  | rolled count die results => exact absurd fresh id
  | _ => rfl

/-- The minimum of any outcome is the value of the run in which each die shows one, and the
maximum that of the run in which each die shows its sides; every run with such faces has this
value. -/
theorem extremes_are_runs {limit : Nat} (small : limit ≤ 0x200000) {e : Expression Float}
    (fresh : e.Fresh) {σ : Type} [Roller σ] {s : σ} {t : Session σ} {o : Outcome Float}
    (evaluated : e.evaluate ⟨limit, s⟩ = (.ok o, t)) :
    (∃ p, e.evaluate ⟨limit, FixedDice.lowest⟩ = (.ok p, ⟨limit, FixedDice.lowest⟩) ∧
      o.stats.min = p.value) ∧
    (∃ p, e.evaluate ⟨limit, FixedDice.highest⟩ = (.ok p, ⟨limit, FixedDice.highest⟩) ∧
      o.stats.max = p.value) ∧
    ∀ {τ : Type} [Roller τ] (s u : τ) (p : Outcome Float) (draws : List Draw),
      e.evaluate (⟨limit, ⟨s, []⟩⟩ : Session (Recorder τ)) = (.ok p, ⟨limit, ⟨u, draws⟩⟩) →
        ((∀ draw ∈ draws, draw.Shows fun _ => 1) → o.stats.min = p.value) ∧
        ((∀ draw ∈ draws, draw.Shows Die.sides) → o.stats.max = p.value) := by
  have within := (evaluate_eq_ok_iff e s).mp ⟨o, t, evaluated⟩
  have fits : ∀ leaf ∈ e.diceLeaves, leaf.FitsWord := fun leaf member =>
    DiceLeaf.fitsWord_of_within (by omega) (within leaf member)
  have same : o.stats = e.stats := stats_evaluate (by rw [evaluated])
  have least : o.stats.min = e.valueShowing fun _ => 1 := by rw [same, stats_min fresh]
  have greatest : o.stats.max = e.valueShowing Die.sides := by
    rw [same, stats_max small fresh within]
  refine ⟨?_, ?_, ?_⟩
  · obtain ⟨p, run, value⟩ := FixedDice.lowest.evaluate_eq fresh within fits
    exact ⟨p, run, least.trans value.symm⟩
  · obtain ⟨p, run, value⟩ := FixedDice.highest.evaluate_eq fresh within fits
    exact ⟨p, run, greatest.trans value.symm⟩
  · intro τ _ s u p draws recorded
    have resolved := (resolves_of_recorded recorded).exact_of_fits fits fresh.totalsFit
    constructor
    · intro ones
      exact least.trans (resolved.eq_valueShowing ones).symm
    · intro sides
      exact greatest.trans (resolved.eq_valueShowing sides).symm

/-- `(-2d8 + ^d12) * vd10 / 0d4`, of which both extremes are infinite. -/
def infiniteQuotient : Expression Float :=
  .math .div
    (.math .mul
      (.math .add (.roll (-2) ⟨8, by decide, by decide⟩) (.advantage ⟨12, by decide, by decide⟩))
      (.disadvantage ⟨10, by decide, by decide⟩))
    (.roll 0 ⟨4, by decide, by decide⟩)

theorem infiniteQuotient_extremes : infiniteQuotient.Fresh ∧
    ∃ o t, infiniteQuotient.evaluate (⟨2, ⟨4, 1⟩⟩ : Session SteppedDice) = (.ok o, t) ∧
      (∃ p, infiniteQuotient.evaluate ⟨2, FixedDice.lowest⟩ = (.ok p, ⟨2, FixedDice.lowest⟩) ∧
        o.stats.min = p.value) ∧
      ∃ p, infiniteQuotient.evaluate ⟨2, FixedDice.highest⟩ = (.ok p, ⟨2, FixedDice.highest⟩) ∧
        o.stats.max = p.value := by
  have fresh : infiniteQuotient.Fresh := ⟨⟨⟨trivial, trivial⟩, trivial⟩, trivial⟩
  obtain ⟨o, t, evaluated⟩ :
      ∃ o t, infiniteQuotient.evaluate (⟨2, ⟨4, 1⟩⟩ : Session SteppedDice) = (.ok o, t) :=
    (evaluate_eq_ok_iff infiniteQuotient _).mpr (by decide)
  obtain ⟨least, greatest, _⟩ := extremes_are_runs (by decide) fresh evaluated
  exact ⟨fresh, o, t, evaluated, least, greatest⟩

end Expression

end DiceNotation
