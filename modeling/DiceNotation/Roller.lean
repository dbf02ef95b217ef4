import DiceNotation.Die

/-!
Sources of die faces. A roller serves three requests: one die, a hand of equal dice, and a pair
of dice in the order in which they fall. What it serves are faces of the die that was asked
for, and a hand has as many as were asked for; nothing else is known of it.
-/
namespace DiceNotation

structure Hand (d : Die) (count : Nat) where
  faces : List (Face d)
  size : faces.length = count

class Roller (σ : Type) where
  roll : (d : Die) → σ → Face d × σ
  rollHand : (count : Nat) → (d : Die) → σ → Hand d count × σ
  rollPair : (d : Die) → σ → (Face d × Face d) × σ := fun d s =>
    let (first, s) := roll d s
    let (second, s) := roll d s
    ((first, second), s)

namespace Hand

variable {d : Die} {σ : Type}

/-- `count` faces drawn after those in `drawn`, which holds the latest first. -/
def drawFrom (draw : σ → Face d × σ) : (count : Nat) → List (Face d) → σ → List (Face d) × σ
  | 0, drawn, s => (drawn.reverse, s)
  | count + 1, drawn, s =>
    let (face, s) := draw s
    drawFrom draw count (face :: drawn) s

theorem length_drawFrom (draw : σ → Face d × σ) (count : Nat) (drawn : List (Face d)) (s : σ) :
    (drawFrom draw count drawn s).1.length = drawn.length + count := by
  induction count generalizing drawn s with
  | zero => simp [drawFrom]
  | succ count ih => simp [drawFrom, ih]; omega

/-- A hand drawn one die after the other. -/
def drawEach (draw : σ → Face d × σ) (count : Nat) (s : σ) : Hand d count × σ :=
  let drawn := drawFrom draw count [] s
  (⟨drawn.1, by simp [drawn, length_drawFrom]⟩, drawn.2)

end Hand

end DiceNotation
