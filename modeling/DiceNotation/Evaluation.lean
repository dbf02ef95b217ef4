import DiceNotation.Expression
import DiceNotation.RollError
import DiceNotation.Roller
import DiceNotation.Stats

/-!
Evaluating expressions. Dice are rolled from left to right, each leaf once, and take the place
of their leaf in the outcome. A roll of more dice than the limit ends the evaluation before it
draws a die; dice to its left stay rolled.
-/
namespace DiceNotation

open Arithmetic (ofInt)

/-- A roller, and the most dice that one roll may ask of it. -/
structure Session (σ : Type) where
  limit : Nat
  roller : σ

def defaultLimit : Nat := 65536

structure Outcome (α : Type) where
  expression : Expression α
  value : α
  stats : Stats α
  deriving BEq, DecidableEq

def total (results : List Int64) : Int64 := results.foldl (· + ·) 0

def Face.toInt64 {d : Die} (f : Face d) : Int64 := Int64.ofNat f.pips

namespace Session

variable {σ : Type} [Roller σ]

/-- As many dice as the count says; a negative count negates each face. -/
def roll (s : Session σ) (count : Int64) (die : Die) :
    Except RollError (List Int64) × Session σ :=
  let n := count.toInt.natAbs
  if s.limit < n then (.error (.tooManyDice n s.limit), s)
  else
    let (hand, roller) := Roller.rollHand n die s.roller
    let faces := hand.faces.map Face.toInt64
    (.ok (if count < 0 then faces.map (-·) else faces), { s with roller })

/-- No roll changes the limit. -/
theorem limit_roll (s : Session σ) (count : Int64) (die : Die) :
    (s.roll count die).2.limit = s.limit := by
  unfold roll; dsimp only; split <;> rfl

def rollPair (s : Session σ) (die : Die) : (Int64 × Int64) × Session σ :=
  let ((first, second), roller) := Roller.rollPair die s.roller
  ((first.toInt64, second.toInt64), { s with roller })

end Session

namespace Outcome

variable {α : Type} [Arithmetic α]

def number (x : α) : Outcome α := ⟨.number x, x, .constant x⟩

def rolled (count : Int64) (die : Die) (results : List Int64) (stats : Stats α) : Outcome α :=
  ⟨.rolled count die results, ofInt (total results).toInt, stats⟩

/-- Two dice of which one counts. -/
def pair (die : Die) (dice : Int64 × Int64) (kept : Int64) (stats : Stats α) : Outcome α :=
  ⟨.rolled 2 die [dice.1, dice.2], ofInt kept.toInt, stats⟩

def math (op : Operator) (left right : Outcome α) : Outcome α :=
  ⟨.math op left.expression right.expression, op.apply left.value right.value,
    .combine op left.stats right.stats⟩

end Outcome

namespace Expression

variable {α σ : Type} [Arithmetic α] [Roller σ]

def evaluate : Expression α → Session σ → Except RollError (Outcome α) × Session σ
  | number x, s => (.ok (.number x), s)
  | roll count die, s =>
    match s.roll count die with
    | (.ok results, s) => (.ok (.rolled count die results (.dice count die)), s)
    | (.error e, s) => (.error e, s)
  | advantage die, s =>
    let (dice, s) := s.rollPair die
    (.ok (.pair die dice (max dice.1 dice.2) (.advantage die)), s)
  | disadvantage die, s =>
    let (dice, s) := s.rollPair die
    (.ok (.pair die dice (min dice.1 dice.2) (.disadvantage die)), s)
  | rolled count die results, s =>
    (.ok (.rolled count die results (.resolved count die)), s)
  | math op left right, s =>
    match left.evaluate s with
    | (.error e, s) => (.error e, s)
    | (.ok a, s) =>
      match right.evaluate s with
      | (.error e, s) => (.error e, s)
      | (.ok b, s) => (.ok (.math op a b), s)

theorem limit_evaluate (e : Expression α) (s : Session σ) : (e.evaluate s).2.limit = s.limit := by
  induction e generalizing s with
  | roll count die =>
    have := s.limit_roll count die
    unfold evaluate
    split <;> simp_all
  | math op l r ihl ihr =>
    unfold evaluate
    have := ihl s
    split
    next h => rw [h] at this; exact this
    next t h =>
      rw [h] at this
      have := ihr t
      split <;> simp_all
  | _ => rfl

/-- An outcome has no dice left to roll. -/
theorem isResolved_evaluate (e : Expression α) (s : Session σ) (o : Outcome α)
    (h : (e.evaluate s).1 = .ok o) : o.expression.isResolved := by
  induction e generalizing s o with
  | roll count die =>
    unfold evaluate at h
    split at h <;> cases h
    rfl
  | math op l r ihl ihr =>
    unfold evaluate at h
    split at h
    next => cases h
    next a t hl =>
      split at h
      next => cases h
      next b u hr =>
        cases h
        have hl := ihl s a (by rw [hl])
        have hr := ihr t b (by rw [hr])
        exact Bool.and_eq_true_iff.2 ⟨hl, hr⟩
  | _ => cases h; rfl

end Expression

end DiceNotation
