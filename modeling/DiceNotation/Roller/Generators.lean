import DiceNotation.Roller.Scripted
import DiceNotation.Roller.Words

/-!
Sources of words: a repeated list, a linear congruential generator, and a ChaCha generator of
twelve rounds whose key is spread from a 64-bit seed.
-/
namespace DiceNotation

structure RepeatedWords where
  words : Cycle UInt32

instance : WordSource RepeatedWords where
  next s :=
    let (word, words) := s.words.next
    (word, ⟨words⟩)

/-- The high half of each state is a word. -/
structure Congruential where
  state : UInt64

def Congruential.multiplier : UInt64 := 6364136223846793005

instance : WordSource Congruential where
  next s :=
    let state := s.state * Congruential.multiplier + 1442695040888963407
    ((state >>> 32).toUInt32, ⟨state⟩)

def rotateLeft (x k : UInt32) : UInt32 := (x <<< k) ||| (x >>> (32 - k))

def rotateRight (x k : UInt32) : UInt32 := (x >>> k) ||| (x <<< (32 - k))

namespace ChaCha

/-- Four of the sixteen words of a block, worked on together. -/
structure Row where
  a : UInt32
  b : UInt32
  c : UInt32
  d : UInt32

namespace Row

def zipWith (f : UInt32 → UInt32 → UInt32) (x y : Row) : Row :=
  ⟨f x.a y.a, f x.b y.b, f x.c y.c, f x.d y.d⟩

def add (x y : Row) : Row := zipWith (· + ·) x y

/-- The bits in which the rows differ, rotated within each word. -/
def mix (k : UInt32) (x y : Row) : Row := zipWith (fun u v => rotateLeft (u ^^^ v) k) x y

def shift (x : Row) : Row := ⟨x.b, x.c, x.d, x.a⟩

def toList (x : Row) : List UInt32 := [x.a, x.b, x.c, x.d]

end Row

structure Block where
  r0 : Row
  r1 : Row
  r2 : Row
  r3 : Row

namespace Block

/-- A quarter round on each of the four columns. -/
def columns (x : Block) : Block :=
  let r0 := x.r0.add x.r1
  let r3 := x.r3.mix 16 r0
  let r2 := x.r2.add r3
  let r1 := x.r1.mix 12 r2
  let r0 := r0.add r1
  let r3 := r3.mix 8 r0
  let r2 := r2.add r3
  let r1 := r1.mix 7 r2
  ⟨r0, r1, r2, r3⟩

def rotateRows (x : Block) : Block :=
  ⟨x.r0, x.r1.shift, x.r2.shift.shift, x.r3.shift.shift.shift⟩

def rotateRowsBack (x : Block) : Block :=
  ⟨x.r0, x.r1.shift.shift.shift, x.r2.shift.shift, x.r3.shift⟩

/-- Columns, then diagonals. -/
def doubleRound (x : Block) : Block := x.columns.rotateRows.columns.rotateRowsBack

def add (x y : Block) : Block := ⟨x.r0.add y.r0, x.r1.add y.r1, x.r2.add y.r2, x.r3.add y.r3⟩

def toList (x : Block) : List UInt32 :=
  x.r0.toList ++ x.r1.toList ++ x.r2.toList ++ x.r3.toList

/-- Twelve rounds, added to the block they start from. -/
def scramble (x : Block) : Block := (Nat.repeat doubleRound 6 x).add x

end Block

/-- The eight key words. -/
structure Key where
  low : Row
  high : Row

def firstBlock (key : Key) (counter : UInt64) : Block where
  r0 := ⟨0x61707865, 0x3320646e, 0x79622d32, 0x6b206574⟩
  r1 := key.low
  r2 := key.high
  r3 := ⟨counter.toUInt32, (counter >>> 32).toUInt32, 0, 0⟩

/-- The next word of a permuted congruential generator, and its state. -/
def seedWord (state : UInt64) : UInt32 × UInt64 :=
  let state := state * Congruential.multiplier + 11634580027462260723
  let x := (((state >>> 18) ^^^ state) >>> 27).toUInt32
  (rotateRight x (state >>> 59).toUInt32, state)

def seedRow (state : UInt64) : Row × UInt64 :=
  let (a, state) := seedWord state
  let (b, state) := seedWord state
  let (c, state) := seedWord state
  let (d, state) := seedWord state
  (⟨a, b, c, d⟩, state)

def Key.ofSeed (seed : UInt64) : Key :=
  let (low, state) := seedRow seed
  ⟨low, (seedRow state).1⟩

end ChaCha

/-- `ready` holds the words of the blocks before `counter` that are still to be given out. -/
structure SeededWords where
  key : ChaCha.Key
  counter : UInt64
  ready : List UInt32

def SeededWords.ofSeed (seed : UInt64) : SeededWords := ⟨ChaCha.Key.ofSeed seed, 0, []⟩

instance : WordSource SeededWords where
  next s :=
    match s.ready with
    | word :: ready => (word, { s with ready })
    | [] =>
      let block := (ChaCha.firstBlock s.key s.counter).scramble
      (block.r0.a, { s with counter := s.counter + 1, ready := block.toList.drop 1 })

end DiceNotation
