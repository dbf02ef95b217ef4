import DiceNotation.Proofs.Nearest
import DiceNotation.Proofs.RoundTrip

/-!
Which expressions some text can say. All can that hold no drawn faces, no count without a positive
counterpart and no number that is none; infinite numbers come from literals too great for a
double. The notation of an expression that has been read is read as the same expression unless
one of its literals was as great as that.
-/
namespace DiceNotation

open Grammar

/- Literals too great for a double. -/

namespace Binary

/-- From `2 ^ 2098` units on, which are `2 ^ 1024`, the nearest double is infinite. -/
theorem nearest_of_large {a k : Nat} (high : 2098 ≤ k) (large : 2 ^ k ≤ a) :
    nearest a 1 = infinity := by
  have pos : a ≠ 0 := Nat.ne_of_gt (Nat.lt_of_lt_of_le (Nat.two_pow_pos k) large)
  have log : 2098 ≤ a.log2 := Nat.le_trans high ((Nat.le_log2 pos).mpr large)
  have bits : 2 ^ 52 * 2 ^ (a.log2 - 52) ≤ a := calc
    2 ^ 52 * 2 ^ (a.log2 - 52) = 2 ^ a.log2 := by
      rw [← Nat.pow_add]
      congr 1
      omega
    _ ≤ a := Nat.log2_self_le pos
  have significand : 2 ^ 52 ≤ nearestNat a (1 <<< (a.log2 - 52)) := calc
    2 ^ 52 ≤ a / 2 ^ (a.log2 - 52) := (Nat.le_div_iff_mul_le (Nat.two_pow_pos _)).mpr bits
    _ = a / 1 <<< (a.log2 - 52) := by rw [Nat.one_shiftLeft]
    _ ≤ _ := div_le_nearestNat _ _
  have least : infinity ≤ (a.log2 - 52) * binadeSize + nearestNat a (1 <<< (a.log2 - 52)) := by
    unfold infinity binadeSize
    omega
  unfold nearest
  rw [Nat.div_one]
  exact Nat.min_eq_right least

end Binary

theorem readNumber_of_large {n k : Nat} (high : 1024 ≤ k) (large : 2 ^ k ≤ n) :
    readNumber (Nat.toDigits 10 n) = Binary.ofMagnitude false Binary.infinity := by
  have value : Decimal.ofText (Nat.toDigits 10 n) = ⟨n, 0⟩ := by
    rw [Decimal.ofText_whole _ (NumberFormat.point_not_mem_toDigits n),
      Nat.ofDigitChars_ten_toDigits]
  have unit : Binary.one = 2 ^ Binary.depth := Nat.one_shiftLeft _
  have units : 2 ^ (k + Binary.depth) ≤ n * 1 * Binary.one := by
    rw [unit, Nat.pow_add, Nat.mul_one]
    exact Nat.mul_le_mul_right _ large
  have far : 2098 ≤ k + Binary.depth := Nat.add_le_add_right high 1074
  have infinite : (⟨n, 0⟩ : Decimal).toBinary = Binary.infinity :=
    Binary.nearest_of_large far units
  rw [readNumber, value, infinite]

theorem written_infinity (negative : Bool) {n k : Nat} (high : 1024 ≤ k) (large : 2 ^ k ≤ n) :
    Written .term (if negative then '-' :: Nat.toDigits 10 n else Nat.toDigits 10 n)
      (.number (Binary.ofMagnitude negative Binary.infinity)) :=
  written_numeral .integer (.integer (digits_toDigits n)) (Nat.le_refl _)
    (readNumber_of_large high large) negative

theorem magnitude_readNumber (text : List Char) :
    Binary.magnitude (readNumber text) ≤ Binary.infinity := by
  have bound : (Decimal.ofText text).toBinary ≤ Binary.infinity := Binary.nearest_le _ _
  rw [readNumber, Binary.magnitude_ofMagnitude _ bound]
  exact bound

theorem magnitude_neg_readNumber (text : List Char) :
    Binary.magnitude (-readNumber text) = Binary.magnitude (readNumber text) :=
  (Binary.parts_neg (magnitude_readNumber text)).1

namespace Expression

def literals : Expression Float → List Float
  | number x => [x]
  | roll .. | advantage _ | disadvantage _ | rolled .. => []
  | math _ l r => l.literals ++ r.literals

/-- What some text says: no drawn faces, no count without a positive counterpart, and no number
that is none. -/
structure Sayable (e : Expression Float) : Prop where
  undrawn : e.Undrawn
  numbers : ∀ x ∈ e.literals, x.isNaN = false

/- What a text says. -/

theorem numeral_iff {kind : TokenKind} : Numeral kind ↔ kind = .integer ∨ kind = .decimal := by
  constructor
  · rintro (_ | _) <;> simp
  · rintro (rfl | rfl)
    · exact .integer
    · exact .decimal

/-- The numbers of an expression are those of its lexemes, up to their signs. -/
theorem literals_of_derives {P : Float → Prop}
    (signless : ∀ text, P (-readNumber text) ↔ P (readNumber text))
    {p : Phrase} {ls : List Lexeme} {e : Expression Float} (h : Derives p ls e) :
    (∀ x ∈ e.literals, P x) ↔ ∀ l ∈ ls, Numeral l.1 → P (readNumber l.2) := by
  have minus : ¬ Numeral .minus := by rintro ⟨⟩
  induction h with
  | product _ ih => exact ih
  | term _ ih => exact ih
  | @addition ls rs l r kind sign op _ adds _ ihl ihr =>
    have none : ¬ Numeral kind := by cases adds <;> rintro ⟨⟩
    simp only [literals, List.forall_mem_append, List.forall_mem_cons, ihl, ihr, none,
      false_implies, true_and]
  | @multiplication ls rs l r kind sign op _ multiplies _ ihl ihr =>
    have none : ¬ Numeral kind := by cases multiplies <;> rintro ⟨⟩
    simp only [literals, List.forall_mem_append, List.forall_mem_cons, ihl, ihr, none,
      false_implies, true_and]
  | number numeral => simp [literals, numeral]
  | negatedNumber numeral => simp [literals, numeral, minus, signless]
  | parentheses _ ih =>
    simp only [ih, List.forall_mem_append, List.forall_mem_cons]
    simp [numeral_iff]
  | _ => simp [literals, numeral_iff]

theorem sayable_of_derives {p : Phrase} {ls : List Lexeme} {e : Expression Float}
    (h : Derives p ls e) : e.Sayable := by
  have signless (text : List Char) :
      (-readNumber text).isNaN = false ↔ (readNumber text).isNaN = false := by
    simp only [Binary.isNaN_eq_false_iff, magnitude_neg_readNumber]
  refine ⟨undrawn_of_derives h, (literals_of_derives signless h).mpr ?_⟩
  intro l _ _
  exact Binary.isNaN_eq_false_iff.mpr (magnitude_readNumber l.2)

/- A text for all the rest. -/

theorem exists_written_number {x : Float} (number : x.isNaN = false) :
    ∃ text, Written .term text (.number x) := by
  by_cases finite : x.isFinite = true
  · exact ⟨_, written_number finite⟩
  · have most := Binary.isNaN_eq_false_iff.mp number
    rw [Binary.isFinite_iff] at finite
    have infinite : Binary.magnitude x = Binary.infinity := by omega
    rw [← Binary.ofMagnitude_parts x, infinite]
    exact ⟨_, written_infinity (Binary.isNegative x) (Nat.le_refl 1024) (Nat.le_refl _)⟩

/-- With parentheses around each compound the operands always group as they should. -/
theorem exists_written {e : Expression Float} (h : e.Sayable) :
    ∃ text, Written .term text e := by
  induction e with
  | number x => exact exists_written_number (h.numbers x (List.mem_singleton_self x))
  | roll count die => exact ⟨_, written_roll h.undrawn die⟩
  | advantage die => exact ⟨_, written_advantage die⟩
  | disadvantage die => exact ⟨_, written_disadvantage die⟩
  | rolled _ _ _ => exact absurd h.undrawn id
  | math op l r ihl ihr =>
    obtain ⟨numbersLeft, numbersRight⟩ := List.forall_mem_append.mp h.numbers
    obtain ⟨left, hl⟩ := ihl ⟨h.undrawn.1, numbersLeft⟩
    obtain ⟨right, hr⟩ := ihr ⟨h.undrawn.2, numbersRight⟩
    have sum : Written .sum (left ++ ' ' :: op.symbol :: ' ' :: right) (.math op l r) := by
      cases op with
      | add => exact .addition .plus (hl.loosen (by decide)) (hr.loosen (by decide))
      | sub => exact .addition .minus (hl.loosen (by decide)) (hr.loosen (by decide))
      | mul => exact (Written.multiplication .star (hl.loosen (by decide)) hr).loosen (by decide)
      | div => exact (Written.multiplication .slash (hl.loosen (by decide)) hr).loosen (by decide)
    exact ⟨_, sum.parentheses⟩

theorem parse_ofList_of_written {text : List Char} {e : Expression Float}
    (written : Written .sum text e) : Expression.parse (String.ofList text) = .ok e := by
  apply parse_of_written
  rwa [String.toList_ofList]

theorem exists_parse_iff {e : Expression Float} :
    (∃ text, Expression.parse text = .ok e) ↔ e.Sayable := by
  constructor
  · rintro ⟨text, read⟩
    exact sayable_of_derives (parse_eq_ok_iff.mp read)
  · intro h
    obtain ⟨text, written⟩ := exists_written h
    exact ⟨_, parse_ofList_of_written (written.loosen (by decide))⟩

/- Infinite literals. -/

theorem writable_of_parse {e : Expression Float} (h : Expression.parse e.text = .ok e) :
    e.Writable :=
  writable_of_inked (undrawn_of_derives (parse_eq_ok_iff.mp h)) (inked_of_parse h)

theorem writable_iff {e : Expression Float} :
    e.Writable ↔ e.Sayable ∧ ∀ x ∈ e.literals, x.isInf = false := by
  have fields : e.Writable ↔ e.Undrawn ∧ ∀ x ∈ e.literals, x.isFinite = true := by
    induction e with
    | math op l r ihl ihr =>
      simp only [Writable, Undrawn, literals, List.forall_mem_append, ihl, ihr]
      exact and_and_and_comm
    | _ => simp [Writable, Undrawn, literals]
  simp only [fields, Binary.isFinite_iff_not, imp_and, forall_and]
  constructor
  · rintro ⟨undrawn, numbers, finite⟩
    exact ⟨⟨undrawn, numbers⟩, finite⟩
  · rintro ⟨⟨undrawn, numbers⟩, finite⟩
    exact ⟨undrawn, numbers, finite⟩

/-- A text says the expression if and only if the expression is free of drawn faces, of numbers
that are none, and of counts without a positive counterpart. The notation of a text's expression
says that expression again exactly when no literal of the text was too great for a double. -/
theorem said_iff_sayable (e : Expression Float) :
    ((∃ text, Expression.parse text = .ok e) ↔ e.Sayable) ∧
      ∀ text, Expression.parse text = .ok e →
        (Expression.parse e.text = .ok e ↔ ∀ x ∈ e.literals, x.isInf = false) ∧
        (Expression.parse e.text = .ok e ↔
          ∀ l ∈ lexemes text, Numeral l.1 → (readNumber l.2).isInf = false) := by
  refine ⟨exists_parse_iff, ?_⟩
  intro text read
  have derives := parse_eq_ok_iff.mp read
  have again : Expression.parse e.text = .ok e ↔ ∀ x ∈ e.literals, x.isInf = false := calc
    Expression.parse e.text = .ok e ↔ e.Writable := ⟨writable_of_parse, parse_text⟩
    _ ↔ e.Sayable ∧ ∀ x ∈ e.literals, x.isInf = false := writable_iff
    _ ↔ ∀ x ∈ e.literals, x.isInf = false := and_iff_right (sayable_of_derives derives)
  have signless (digits : List Char) :
      (-readNumber digits).isInf = false ↔ (readNumber digits).isInf = false := by
    simp only [← Bool.not_eq_true, Binary.isInf_iff, magnitude_neg_readNumber]
  exact ⟨again, again.trans (literals_of_derives signless derives)⟩

/-- Two dice through a divisor of 309 digits, which is read as an infinite number. -/
def overlong (die : Die) : Expression Float :=
  .math .div (.roll 2 die) (.number (Binary.ofMagnitude true Binary.infinity))

/-- The quotient is what a text says, and its notation does not say it again. -/
theorem overlong_said_only_in_digits :
    (∃ text, Expression.parse text = .ok (overlong ⟨6, by decide, by decide⟩)) ∧
      (overlong ⟨6, by decide, by decide⟩).Sayable ∧
      Expression.parse (overlong ⟨6, by decide, by decide⟩).text ≠
        .ok (overlong ⟨6, by decide, by decide⟩) := by
  let die : Die := ⟨6, by decide, by decide⟩
  have dice : Written .product (diceText 2 die).toList (.roll 2 die) :=
    (written_roll (by decide) die).loosen (by decide)
  have divisor := written_infinity true (Nat.le_refl 1024) (Nat.le_refl _)
  have written : Written .sum _ (overlong die) :=
    (Written.multiplication .slash dice divisor).loosen (by decide)
  have read := parse_ofList_of_written written
  obtain ⟨sayable, again⟩ := said_iff_sayable (overlong die)
  refine ⟨⟨_, read⟩, sayable.mp ⟨_, read⟩, fun printed => ?_⟩
  have finite := (again _ read).1.mp printed _ (List.mem_singleton_self _)
  have infinite : (Binary.ofMagnitude true Binary.infinity).isInf = true :=
    Binary.isInf_iff.mpr (Binary.magnitude_ofMagnitude true (Nat.le_refl _))
  exact absurd (infinite.symm.trans finite) (by decide)

end Expression

end DiceNotation
