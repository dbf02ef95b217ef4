import DiceNotation.Proofs.Fairness
import DiceNotation.Proofs.Rolls
import DiceNotation.Roller.Generators

/-!
Hands in parts. A roller that draws its hands one die after the other serves two hands as it serves
one hand of all their dice: the same faces in the same order, and the same state behind them. A
count and its opposite ask for the same hand.
-/
namespace DiceNotation

namespace Hand

variable {d : Die} {σ : Type} (draw : σ → Face d × σ)

theorem drawFrom_add (a b : Nat) (drawn : List (Face d)) (s : σ) :
    drawFrom draw (a + b) drawn s =
      drawFrom draw b (drawFrom draw a drawn s).1.reverse (drawFrom draw a drawn s).2 := by
  induction a generalizing drawn s with
  | zero => simp [drawFrom]
  | succ a ih => simp only [Nat.succ_add, drawFrom, ih]

/-- What has been drawn before changes nothing. -/
theorem drawFrom_drawn (count : Nat) (drawn : List (Face d)) (s : σ) :
    drawFrom draw count drawn s =
      (drawn.reverse ++ (drawFrom draw count [] s).1, (drawFrom draw count [] s).2) := by
  induction count generalizing drawn s with
  | zero => simp [drawFrom]
  | succ count ih =>
    simp only [drawFrom]
    rw [ih ((draw s).1 :: drawn), ih [(draw s).1]]
    simp

theorem drawEach_add (a b : Nat) (s : σ) :
    (drawEach draw (a + b) s).1.faces =
        (drawEach draw a s).1.faces ++ (drawEach draw b (drawEach draw a s).2).1.faces ∧
      (drawEach draw (a + b) s).2 = (drawEach draw b (drawEach draw a s).2).2 := by
  have parts := drawFrom_add draw a b [] s
  rw [drawFrom_drawn draw b, List.reverse_reverse] at parts
  exact Prod.ext_iff.mp parts

end Hand

/-- Every hand is drawn one die after the other. -/
def DrawsOneByOne (σ : Type) [Roller σ] : Prop :=
  ∃ draw : (d : Die) → σ → Face d × σ,
    ∀ count d (s : σ), Roller.rollHand count d s = Hand.drawEach (draw d) count s

theorem WordDice.drawsOneByOne (σ : Type) [WordSource σ] : DrawsOneByOne σ :=
  ⟨fun d => drawWithin (handZone d) d, fun _ _ _ => rfl⟩

theorem DrawsOneByOne.rollHand_add {σ : Type} [Roller σ] (each : DrawsOneByOne σ) (a b : Nat)
    (d : Die) (s : σ) :
    (Roller.rollHand (a + b) d s).1.faces =
        (Roller.rollHand a d s).1.faces ++
          (Roller.rollHand b d (Roller.rollHand a d s).2).1.faces ∧
      (Roller.rollHand (a + b) d s).2 = (Roller.rollHand b d (Roller.rollHand a d s).2).2 := by
  obtain ⟨draw, hands⟩ := each
  simp only [hands]
  exact Hand.drawEach_add (draw d) a b s

/- Opposite counts. -/

theorem toInt_neg_of_ne {x : Int64} (proper : x ≠ Int64.minValue) : (-x).toInt = -x.toInt := by
  have bottom : x.toInt ≠ Int64.minValue.toInt := fun same => proper (Int64.toInt_inj.mp same)
  have value : Int64.minValue.toInt = -0x8000000000000000 := rfl
  have least := x.le_toInt
  have most := x.toInt_lt
  rw [Int64.toInt_neg]
  apply Int.bmod_eq_of_le <;> omega

theorem signedFaces_neg {count : Int64} (some : count ≠ 0) (proper : count ≠ Int64.minValue)
    {die : Die} (faces : List (Face die)) :
    signedFaces (-count) faces = (signedFaces count faces).map (-·) := by
  have opposite := toInt_neg_of_ne proper
  have nonzero : count.toInt ≠ 0 := fun zero => some (Int64.toInt_inj.mp zero)
  unfold signedFaces
  rw [List.map_map]
  apply List.map_congr_left
  intro face _
  change Int64.ofInt _ = -Int64.ofInt _
  rw [opposite, ← Int64.ofInt_neg]
  congr 1
  split <;> split <;> omega

/-- Opposite counts ask for the same hand, and get opposite results. -/
theorem Session.roll_neg {σ : Type} [Roller σ] (s : Session σ) {count : Int64} (some : count ≠ 0)
    (proper : count ≠ Int64.minValue) (die : Die) :
    s.roll (-count) die = ((s.roll count die).1.map (List.map (-·)), (s.roll count die).2) := by
  obtain ⟨limit, roller⟩ := s
  have size : (-count).toInt.natAbs = count.toInt.natAbs := by
    rw [toInt_neg_of_ne proper, Int.natAbs_neg]
  by_cases within : count.toInt.natAbs ≤ limit
  · rw [roll_of_within within, roll_of_within (size ▸ within), signedFaces_neg some proper, size]
    rfl
  · have many := Nat.lt_of_not_le within
    rw [roll_of_refused many, roll_of_refused (size ▸ many), size]
    rfl

/-- Two rolls in a row are one roll of all their dice, and a roll of as many dice counted negative
has the opposite results. -/
structure Session.RollsInParts {σ : Type} [Roller σ] (s : Session σ) (die : Die) : Prop where
  parts {a b both : Int64} : 0 ≤ a.toInt → 0 ≤ b.toInt → both.toInt = a.toInt + b.toInt →
    both.toInt ≤ s.limit → ∃ first t second u, s.roll a die = (.ok first, t) ∧
      t.roll b die = (.ok second, u) ∧ s.roll both die = (.ok (first ++ second), u)
  opposite {n : Int64} : 1 ≤ n.toInt → n.toInt ≤ s.limit → ∃ results opposite t,
    s.roll n die = (.ok results, t) ∧ s.roll (-n) die = (.ok opposite, t) ∧
      opposite.map Int64.toInt = results.map fun result => -result.toInt

theorem signedFaces_of_nonneg {count : Int64} (nonneg : 0 ≤ count.toInt) {die : Die}
    (faces : List (Face die)) : signedFaces count faces = faces.map Face.toInt64 := by
  rw [signedFaces_eq, if_neg fun negative => ?_]
  exact Int.not_lt.mpr nonneg (toInt_neg_iff.mp negative)

section

variable {σ : Type} [Roller σ] {s : Session σ} {die : Die}

theorem DrawsOneByOne.roll_parts (each : DrawsOneByOne σ) {a b both : Int64} (ha : 0 ≤ a.toInt)
    (hb : 0 ≤ b.toInt) (sum : both.toInt = a.toInt + b.toInt) (within : both.toInt ≤ s.limit) :
    ∃ first t second u, s.roll a die = (.ok first, t) ∧ t.roll b die = (.ok second, u) ∧
      s.roll both die = (.ok (first ++ second), u) := by
  obtain ⟨limit, roller⟩ := s
  have size : both.toInt.natAbs = a.toInt.natAbs + b.toInt.natAbs := by omega
  have few : both.toInt.natAbs ≤ limit := by dsimp only at within; omega
  obtain ⟨faces, state⟩ := each.rollHand_add a.toInt.natAbs b.toInt.natAbs die roller
  refine ⟨_, _, _, _, roll_of_within (by omega) die roller, roll_of_within (by omega) die _, ?_⟩
  rw [roll_of_within few, size, faces, state, signedFaces_of_nonneg ha, signedFaces_of_nonneg hb,
    signedFaces_of_nonneg (by omega), List.map_append]

theorem exists_roll_opposite {n : Int64} (pos : 1 ≤ n.toInt) (within : n.toInt ≤ s.limit) :
    ∃ results opposite t, s.roll n die = (.ok results, t) ∧ s.roll (-n) die = (.ok opposite, t) ∧
      opposite.map Int64.toInt = results.map fun result => -result.toInt := by
  obtain ⟨limit, roller⟩ := s
  have few : n.toInt.natAbs ≤ limit := by dsimp only at within; omega
  have some : n ≠ 0 := by rintro rfl; exact absurd pos (by decide)
  have proper : n ≠ Int64.minValue := by rintro rfl; exact absurd pos (by decide)
  have rolled := roll_of_within few die roller
  have negated := (⟨limit, roller⟩ : Session σ).roll_neg some proper die
  rw [rolled] at negated
  refine ⟨_, _, _, rolled, negated, ?_⟩
  rw [List.map_map]
  apply List.map_congr_left
  intro result member
  have least := ((rollRange_hand _).faces (by omega) result member).1
  exact toInt_neg_of_ne (by rintro rfl; exact absurd least (by decide))

theorem DrawsOneByOne.rollsInParts (each : DrawsOneByOne σ) (s : Session σ) (die : Die) :
    s.RollsInParts die :=
  ⟨each.roll_parts, exists_roll_opposite⟩

end

/-- Dice from words can be rolled in parts, whatever the words, and so can all dice whose hands are
repeated rolls. -/
theorem Session.rolls_in_parts :
    (∀ {σ : Type} [WordSource σ] (s : Session σ) (die : Die), s.RollsInParts die) ∧
    ∀ {σ : Type} [Roller σ],
      (∀ count d (s : σ), Roller.rollHand count d s = Hand.drawEach (Roller.roll d) count s) →
        ∀ (s : Session σ) (die : Die), s.RollsInParts die := by
  constructor
  · intro σ _ s die
    exact (WordDice.drawsOneByOne σ).rollsInParts s die
  · intro σ _ repeated s die
    exact DrawsOneByOne.rollsInParts ⟨Roller.roll, repeated⟩ s die

/-- Of these words the zone of a `d6` refuses every third. -/
def refusedThird : RepeatedWords := ⟨.start 715827882 [0, 0x80000000]⟩

theorem refusedThird_firsts : ∃ t, WordDice.Firsts (WordDice.handZone ⟨6, by decide, by decide⟩)
    ⟨6, by decide, by decide⟩ refusedThird [0, 0x80000000, 0] t := by
  refine ⟨_, .cons (.refuse rfl ?_ (.accept rfl ?_))
    (.cons (.accept rfl ?_) (.cons (.refuse rfl ?_ (.accept rfl ?_)) (.nil _)))⟩
  all_goals rw [WordDice.mem_accepted]; decide

theorem three_dice_in_parts : ∃ first t second u opposite,
    (⟨3, refusedThird⟩ : Session RepeatedWords).roll 1 ⟨6, by decide, by decide⟩ = (.ok first, t) ∧
      t.roll 2 ⟨6, by decide, by decide⟩ = (.ok second, u) ∧
      (⟨3, refusedThird⟩ : Session RepeatedWords).roll 3 ⟨6, by decide, by decide⟩ =
        (.ok (first ++ second), u) ∧
      (⟨3, refusedThird⟩ : Session RepeatedWords).roll (-3) ⟨6, by decide, by decide⟩ =
        (.ok opposite, u) ∧
      first ++ second = [1, 4, 1] ∧ opposite.map Int64.toInt = [-1, -4, -1] := by
  let d : Die := ⟨6, by decide, by decide⟩
  have words := Session.rolls_in_parts.1 (⟨3, refusedThird⟩ : Session RepeatedWords) d
  have sum : (3 : Int64).toInt = (1 : Int64).toInt + (2 : Int64).toInt := by decide
  have few : (3 : Int64).toInt.natAbs ≤ 3 := by decide
  obtain ⟨first, t, second, u, one, two, both⟩ :=
    words.parts (by decide) (by decide) sum (by decide)
  obtain ⟨results, opposite, v, three, negated, values⟩ :=
    words.opposite (n := 3) (by decide) (by decide)
  obtain ⟨rfl, rfl⟩ : results = first ++ second ∧ v = u := by simpa using three.symm.trans both
  obtain ⟨w, firsts⟩ := refusedThird_firsts
  obtain ⟨hand, rolled, faces⟩ := firsts.rollHand
  have size : (3 : Int64).toInt.natAbs = [(0 : UInt32), 0x80000000, 0].length := rfl
  have shown : first ++ second = [1, 4, 1] := by
    have served := roll_of_within few d refusedThird
    rw [both, size, rolled, faces] at served
    exact Except.ok.inj (congrArg Prod.fst served)
  rw [shown] at values
  exact ⟨first, t, second, v, opposite, one, two, both, negated, shown, values⟩

end DiceNotation
