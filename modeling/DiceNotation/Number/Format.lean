import DiceNotation.Number.Decimal

/-!
Texts of doubles. The digits are the shortest that read back; a format says how they are laid
out, and what stands for the values that have no digits.
-/
namespace DiceNotation

/-- How far positional writing goes; beyond it there is one digit before the point. -/
inductive Positional where
  | always
  | between (least greatest : Int)

def Positional.includes : Positional → Int → Bool
  | .always, _ => true
  | .between least greatest, e => least ≤ e && e ≤ greatest

structure NumberFormat where
  positional : Positional
  /-- What a whole number ends in when it is written positionally. -/
  wholeMark : String
  tie : Decimal.Tie
  infinity : String
  negativeInfinity : String
  notANumber : String

namespace NumberFormat

def zeros (n : Nat) : List Char := List.replicate n '0'

/-- `point` is the number of digits before the point; it may lie outside the digits. -/
def writePositional (wholeMark : String) (digits : List Char) (point : Int) : List Char :=
  if point ≤ 0 then '0' :: '.' :: zeros (-point).toNat ++ digits
  else if point < digits.length then
    digits.take point.toNat ++ '.' :: digits.drop point.toNat
  else digits ++ zeros (point.toNat - digits.length) ++ wholeMark.toList

def writeScientific (digits : List Char) (exponent : Int) : List Char :=
  let places := digits.drop 1
  let sign := if exponent < 0 then '-' else '+'
  digits.take 1 ++ (if places.isEmpty then [] else '.' :: places) ++
    'e' :: sign :: Nat.toDigits 10 exponent.natAbs

def writeDecimal (f : NumberFormat) (d : Decimal) : List Char :=
  let digits := Nat.toDigits 10 d.digits
  let point := digits.length + d.exponent
  if f.positional.includes (point - 1) then writePositional f.wholeMark digits point
  else writeScientific digits (point - 1)

def writeMagnitude (f : NumberFormat) (bits : Nat) : List Char :=
  f.writeDecimal (Decimal.shortest f.tie bits)

def write (f : NumberFormat) (x : Float) : String :=
  let bits := Binary.magnitude x
  if Binary.infinity < bits then f.notANumber
  else if bits = Binary.infinity then
    if Binary.isNegative x then f.negativeInfinity else f.infinity
  else
    let text := f.writeMagnitude bits
    String.ofList (if Binary.isNegative x then '-' :: text else text)

theorem point_not_mem_toDigits (n : Nat) : '.' ∉ Nat.toDigits 10 n := fun h =>
  absurd (Nat.isDigit_of_mem_toDigits (by decide) (by decide) h) (by decide)

theorem toBinary_writePositional (d : Decimal) :
    let digits := Nat.toDigits 10 d.digits
    (Decimal.ofText (writePositional "" digits (digits.length + d.exponent))).toBinary =
      d.toBinary := by
  intro digits
  have plain : '.' ∉ digits := point_not_mem_toDigits d.digits
  have value : Nat.ofDigitChars 10 digits 0 = d.digits := Nat.ofDigitChars_ten_toDigits
  unfold writePositional
  generalize hlen : digits.length = n at *
  split
  next low =>
    have e : d.exponent = -(((-(n + d.exponent)).toNat + n : Nat) : Int) := by omega
    generalize (-(n + d.exponent)).toNat = z at e
    have text := Decimal.ofText_point ['0'] (zeros z ++ digits) (by decide)
    show (Decimal.ofText (['0'] ++ '.' :: (zeros z ++ digits))).toBinary = _
    rw [text]
    have : Nat.ofDigitChars 10 (['0'] ++ (zeros z ++ digits)) 0 = d.digits := by
      rw [← List.append_assoc, Nat.ofDigitChars_append]
      show Nat.ofDigitChars 10 digits (Nat.ofDigitChars 10 (List.replicate (z + 1) '0') 0) = _
      rw [Nat.ofDigitChars_replicate_zero, Nat.mul_zero, value]
    have len : (zeros z ++ digits).length = z + n := by
      rw [List.length_append, hlen, zeros, List.length_replicate]
    rw [this, len, ← e]
  next high =>
    split
    next inside =>
      have e : d.exponent = -((n - (n + d.exponent).toNat : Nat) : Int) := by omega
      generalize (n + d.exponent).toNat = k at e
      rw [Decimal.ofText_point _ _ fun h => plain (List.mem_of_mem_take h), List.take_append_drop,
        value, List.length_drop, hlen, ← e]
    next =>
      have e : d.exponent = (((n + d.exponent).toNat - n : Nat) : Int) := by omega
      generalize (n + d.exponent).toNat - n = z at e
      have whole : '.' ∉ digits ++ zeros z := fun h =>
        (List.mem_append.1 h).elim plain fun h => absurd (List.eq_of_mem_replicate h) (by decide)
      have : "".toList = [] := rfl
      rw [this, List.append_nil, Decimal.ofText_whole _ whole, Nat.ofDigitChars_append, zeros,
        Nat.ofDigitChars_replicate_zero, value]
      obtain ⟨m, k⟩ := d
      dsimp only at *
      subst e
      simp only [Decimal.toBinary, Int.toNat_natCast, Int.toNat_neg_natCast, Int.neg_zero,
        Int.toNat_zero, Nat.mul_comm m]
      exact congrArg (Binary.nearest · 1) (congrArg (· * Binary.one) (Nat.mul_one _))

/-- Where whole numbers keep no mark, positional texts of doubles read back. -/
theorem toBinary_writeMagnitude (f : NumberFormat) (always : f.positional = .always)
    (mark : f.wholeMark = "") {bits : Nat} (finite : bits < Binary.infinity) :
    (Decimal.ofText (f.writeMagnitude bits)).toBinary = bits := by
  rw [writeMagnitude, writeDecimal, always, mark]
  exact (toBinary_writePositional _).trans (Decimal.readsAs_shortest finite)

end NumberFormat

end DiceNotation
