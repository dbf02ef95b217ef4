import DiceNotation.Roller

/-!
Dice from random words. A word of 32 bits times the number of sides has a high and a low half:
the high half is the face, counted from zero, and the word counts only if its low half is
within a zone that leaves every face equally many words. A hand of dice has a wider zone than
a single die, which rounds the number of sides up to a full word instead.
-/
namespace DiceNotation

/-- A source of words, each equally likely. -/
class WordSource (σ : Type) where
  next : σ → UInt32 × σ

namespace WordDice

def highHalf (d : Die) (word : UInt32) : Nat := word.toNat * d.sides / UInt32.size

def lowHalf (d : Die) (word : UInt32) : Nat := word.toNat * d.sides % UInt32.size

theorem highHalf_lt (d : Die) (word : UInt32) : highHalf d word < d.sides := by
  have h := Nat.mul_lt_mul_of_pos_right word.toNat_lt d.pos
  exact Nat.div_lt_of_lt_mul h

def faceOf (d : Die) (word : UInt32) : Face d :=
  ⟨highHalf d word + 1, Nat.succ_pos _, highHalf_lt d word⟩

/-- The sides times the power of two that takes them to the top bit of a word. -/
def singleZone (d : Die) : Nat := (d.sides <<< (31 - d.sides.log2)) - 1

/-- The greatest multiple of the sides that a word can count. -/
def handZone (d : Die) : Nat := UInt32.size - 1 - (UInt32.size - d.sides) % d.sides

variable {σ : Type} [WordSource σ]

/-- The next word: its face if the word is within the zone, or the source behind it. -/
def attempt (zone : Nat) (d : Die) (s : σ) : σ ⊕ Face d × σ :=
  let (word, s) := WordSource.next s
  if lowHalf d word ≤ zone then .inr (faceOf d word, s) else .inl s

/-- The face of the first word within the zone. From a source that has none it draws for ever. -/
def drawWithin (zone : Nat) (d : Die) (s : σ) : Face d × σ :=
  have : Nonempty (Face d × σ) := ⟨(.around d 0, s)⟩
  Id.run (repeatM (attempt zone d) s)

theorem drawWithin_eq (zone : Nat) (d : Die) (s : σ) : drawWithin zone d s =
    match attempt zone d s with
    | .inl s => drawWithin zone d s
    | .inr drawn => drawn := by
  have : Nonempty (Face d × σ) := ⟨(.around d 0, s)⟩
  have turn : drawWithin zone d s = _ :=
    repeatM_eq_of_monadTail (m := Id) (f := attempt zone d) s
  rw [turn, repeatM.body]
  cases attempt zone d s <;> rfl

instance : Roller σ where
  roll d := drawWithin (singleZone d) d
  rollHand count d := Hand.drawEach (drawWithin (handZone d) d) count

end WordDice

end DiceNotation
