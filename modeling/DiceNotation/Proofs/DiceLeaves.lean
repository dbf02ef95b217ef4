import DiceNotation.Evaluation

/-!
The dice of an expression, from left to right: which of its leaves a limit refuses, what each
asks of a roller, and how the roller is left when a row of them has been served.
-/
namespace DiceNotation

inductive DiceLeaf where
  | roll (count : Int64) (die : Die)
  | advantage (die : Die)
  | disadvantage (die : Die)
  deriving DecidableEq

namespace DiceLeaf

/-- The number of dice, whatever the sign of the count. Of `-2 ^ 63` it is `2 ^ 63`. -/
def dice : DiceLeaf → Nat
  | roll count _ => count.toInt.natAbs
  | advantage _ | disadvantage _ => 2

/-- Only rolls are subject to the limit. -/
def Within (limit : Nat) : DiceLeaf → Prop
  | roll count _ => count.toInt.natAbs ≤ limit
  | advantage _ | disadvantage _ => True

instance (limit : Nat) : DecidablePred (Within limit)
  | roll count _ => inferInstanceAs (Decidable (count.toInt.natAbs ≤ limit))
  | advantage _ | disadvantage _ => inferInstanceAs (Decidable True)

variable {σ : Type} [Roller σ]

def serve : DiceLeaf → σ → σ
  | roll count die, s => (Roller.rollHand count.toInt.natAbs die s).2
  | advantage die, s | disadvantage die, s => (Roller.rollPair die s).2

def serveAll (leaves : List DiceLeaf) (s : σ) : σ := leaves.foldl (fun s leaf => leaf.serve s) s

@[simp] theorem serveAll_nil (s : σ) : serveAll [] s = s := rfl

@[simp] theorem serveAll_cons (leaf : DiceLeaf) (leaves : List DiceLeaf) (s : σ) :
    serveAll (leaf :: leaves) s = serveAll leaves (leaf.serve s) := rfl

@[simp] theorem serveAll_append (leaves more : List DiceLeaf) (s : σ) :
    serveAll (leaves ++ more) s = serveAll more (serveAll leaves s) :=
  List.foldl_append

end DiceLeaf

def Expression.diceLeaves {α : Type} : Expression α → List DiceLeaf
  | number _ | rolled .. => []
  | roll count die => [.roll count die]
  | advantage die => [.advantage die]
  | disadvantage die => [.disadvantage die]
  | math _ l r => l.diceLeaves ++ r.diceLeaves

end DiceNotation
