/-!
A die and its faces. The number of sides is positive and fits a 32-bit word; a face is a
number of pips between one and the number of sides, so no roll can show anything else.
-/
namespace DiceNotation

structure Die where
  sides : Nat
  pos : 0 < sides
  lt : sides < UInt32.size
  deriving DecidableEq

/-- No die has zero sides, or `2 ^ 32` and more. -/
def Die.ofSides? (sides : Nat) : Option Die :=
  if h : 0 < sides ∧ sides < UInt32.size then some ⟨sides, h.1, h.2⟩ else none

theorem Die.ofSides?_sides (d : Die) : Die.ofSides? d.sides = some d :=
  dif_pos ⟨d.pos, d.lt⟩

theorem Die.sides_injective {d d' : Die} (same : d.sides = d'.sides) : d = d' := by
  obtain ⟨sides, pos, lt⟩ := d
  obtain ⟨sides', pos', lt'⟩ := d'
  cases same
  rfl

structure Face (d : Die) where
  pips : Nat
  pos : 0 < pips
  le : pips ≤ d.sides
  deriving DecidableEq

/-- The face reached after `k` steps from the first, going round the die. -/
def Face.around (d : Die) (k : Nat) : Face d where
  pips := k % d.sides + 1
  pos := Nat.succ_pos _
  le := Nat.mod_lt _ d.pos

end DiceNotation
