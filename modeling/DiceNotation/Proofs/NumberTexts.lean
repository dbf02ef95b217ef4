import DiceNotation.Json
import DiceNotation.Proofs.RoundTrip

/-!
Texts of numbers tell them apart. A numeral reads back as its double also when it has an exponent,
or a point after a whole number, so finite doubles of the same text are the same; the words that
stand for the others contain no digit. Integers are told apart too, and so are rows of texts with
a mark between them.
-/
namespace DiceNotation

namespace Decimal

/-- A sign and digits, or nothing. -/
def exponentOf : List Char → Int
  | '-' :: ds => -Nat.ofDigitChars 10 ds 0
  | _ :: ds => Nat.ofDigitChars 10 ds 0
  | [] => 0

/-- Digits with at most one point among them, and an exponent of ten behind an `e`. -/
def ofScientific (cs : List Char) : Decimal :=
  let mantissa := ofText (cs.takeWhile (· ≠ 'e'))
  ⟨mantissa.digits, mantissa.exponent + exponentOf ((cs.dropWhile (· ≠ 'e')).drop 1)⟩

theorem ofScientific_append {mantissa rest : List Char} (plain : 'e' ∉ mantissa) :
    ofScientific (mantissa ++ 'e' :: rest) =
      ⟨(ofText mantissa).digits, (ofText mantissa).exponent + exponentOf rest⟩ := by
  have other : ∀ c ∈ mantissa, decide (c ≠ 'e') = true := fun c hc =>
    decide_eq_true (ne_of_mem_of_not_mem hc plain)
  simp only [ofScientific, List.takeWhile_append_of_pos other, List.dropWhile_append_of_pos other]
  simp

theorem ofScientific_plain {cs : List Char} (plain : 'e' ∉ cs) : ofScientific cs = ofText cs := by
  have other : ∀ c ∈ cs, decide (c ≠ 'e') = true := fun c hc =>
    decide_eq_true (ne_of_mem_of_not_mem hc plain)
  have t := @List.takeWhile_append_of_pos _ _ cs [] other
  have d := @List.dropWhile_append_of_pos _ _ cs [] other
  rw [List.append_nil] at t d
  simp only [ofScientific, t, d, List.takeWhile_nil, List.append_nil, List.dropWhile_nil,
    List.drop_nil, exponentOf, Int.add_zero]

theorem exponentOf_signed (e : Int) :
    exponentOf ((if e < 0 then '-' else '+') :: Nat.toDigits 10 e.natAbs) = e := by
  have value : Nat.ofDigitChars 10 (Nat.toDigits 10 e.natAbs) 0 = e.natAbs :=
    Nat.ofDigitChars_ten_toDigits
  by_cases negative : e < 0
  · rw [if_pos negative, exponentOf, value]
    omega
  · rw [if_neg negative, exponentOf.eq_2 _ _ (by simp), value]
    omega

/-- A point and a zero after a whole number do not change it. -/
theorem toBinary_point_zero {whole : List Char} (plain : '.' ∉ whole) :
    (ofText (whole ++ ['.', '0'])).toBinary = (ofText whole).toBinary := by
  have scale := Binary.nearest_mul_right (Nat.ofDigitChars 10 whole 0 * Binary.one) 1
    (by decide : 0 < 10)
  rw [ofText_point _ _ plain, ofText_whole _ plain, Nat.ofDigitChars_append]
  have more : Nat.ofDigitChars 10 ['0'] (Nat.ofDigitChars 10 whole 0) =
      Nat.ofDigitChars 10 whole 0 * 10 := by
    generalize Nat.ofDigitChars 10 whole 0 = n
    simp [Nat.ofDigitChars]
    omega
  rw [more]
  generalize Nat.ofDigitChars 10 whole 0 = n at scale ⊢
  change Binary.nearest (n * 10 * 1 * Binary.one) 10 = Binary.nearest (n * 1 * Binary.one) 1
  rw [Nat.mul_one, Nat.mul_one, Nat.mul_right_comm]
  exact scale

end Decimal

namespace NumberFormat

open Decimal (ofText ofScientific)

/-- A whole number ends in nothing or in a point and a zero. The words are made of letters, with
a sign perhaps, and so have no digit. -/
structure Legible (f : NumberFormat) : Prop where
  mark : f.wholeMark = "" ∨ f.wholeMark = ".0"
  words : ∀ word ∈ [f.infinity, f.negativeInfinity, f.notANumber],
    ∀ c ∈ word.toList, c.isAlpha ∨ c = '-'

/- Numerals read back. -/

theorem writePositional_mark {ds : List Char} (plain : '.' ∉ ds) (point : Int) :
    writePositional ".0" ds point = writePositional "" ds point ∨
      '.' ∉ writePositional "" ds point ∧
        writePositional ".0" ds point = writePositional "" ds point ++ ['.', '0'] := by
  unfold writePositional
  split
  · exact .inl rfl
  · split
    · exact .inl rfl
    · right
      simp [zeros, plain]

theorem toBinary_positional {mark : String} (known : mark = "" ∨ mark = ".0") (d : Decimal) :
    let digits := Nat.toDigits 10 d.digits
    (ofText (writePositional mark digits (digits.length + d.exponent))).toBinary = d.toBinary := by
  intro digits
  have read := toBinary_writePositional d
  rcases known with rfl | rfl
  · exact read
  · have plain : '.' ∉ digits := point_not_mem_toDigits d.digits
    rcases writePositional_mark plain (digits.length + d.exponent) with same | ⟨whole, marked⟩
    · rw [same]
      exact read
    · rw [marked, Decimal.toBinary_point_zero whole]
      exact read

theorem mem_writePositional {mark : String} (known : mark = "" ∨ mark = ".0") {ds : List Char}
    (digits : ∀ c ∈ ds, c.isDigit) {point : Int} {c : Char}
    (h : c ∈ writePositional mark ds point) : c.isDigit ∨ c = '.' := by
  have zero : ∀ n, c ∈ zeros n → c.isDigit := fun n member => digits_zeros n c member
  unfold writePositional at h
  split at h
  · simp only [List.cons_append, List.mem_cons, List.mem_append] at h
    rcases h with rfl | rfl | member | member
    · exact .inl rfl
    · exact .inr rfl
    · exact .inl (zero _ member)
    · exact .inl (digits c member)
  · split at h
    · rcases List.mem_append.mp h with member | member
      · exact .inl (digits c (List.mem_of_mem_take member))
      · rcases List.mem_cons.mp member with rfl | member
        · exact .inr rfl
        · exact .inl (digits c (List.mem_of_mem_drop member))
    · simp only [List.mem_append] at h
      rcases h with (member | member) | member
      · exact .inl (digits c member)
      · exact .inl (zero _ member)
      · rcases known with rfl | rfl
        · simp at member
        · simp at member
          rcases member with rfl | rfl
          · exact .inr rfl
          · exact .inl rfl

/-- One digit or several. -/
theorem toDigits_eq_cons (n : Nat) : ∃ c places, Nat.toDigits 10 n = c :: places ∧
    c.isDigit ∧ ∀ p ∈ places, p.isDigit := by
  obtain ⟨some, digits⟩ := digits_toDigits n
  obtain ⟨c, places, eq⟩ := List.exists_cons_of_ne_nil some
  rw [eq] at digits
  exact ⟨c, places, eq, List.forall_mem_cons.mp digits⟩

theorem ofScientific_writeScientific (n : Nat) (e : Int) :
    ofScientific (writeScientific (Nat.toDigits 10 n) e) =
      ⟨n, e + 1 - (Nat.toDigits 10 n).length⟩ := by
  have value : Nat.ofDigitChars 10 (Nat.toDigits 10 n) 0 = n := Nat.ofDigitChars_ten_toDigits
  obtain ⟨c, places, eq, digit, digits⟩ := toDigits_eq_cons n
  rw [eq] at value ⊢
  have letter : 'e' ≠ c := by rintro rfl; contradiction
  have point : '.' ∉ [c] := by
    rw [List.mem_singleton]
    rintro rfl
    contradiction
  cases places with
  | nil =>
    have plain : 'e' ∉ [c] := by simpa using letter
    change ofScientific ([c] ++ 'e' :: _) = _
    rw [Decimal.ofScientific_append plain, Decimal.ofText_whole _ point, value,
      Decimal.exponentOf_signed]
    simp
  | cons p ps =>
    have plain : 'e' ∉ [c] ++ '.' :: p :: ps := by
      have absent : 'e' ∉ p :: ps := fun member => absurd (digits _ member) (by decide)
      simpa [letter] using absent
    change ofScientific (([c] ++ '.' :: p :: ps) ++ 'e' :: _) = _
    rw [Decimal.ofScientific_append plain, Decimal.ofText_point _ _ point, List.singleton_append,
      value, Decimal.exponentOf_signed, Decimal.mk.injEq]
    refine ⟨rfl, ?_⟩
    simp only [List.length_cons]
    omega

variable {f : NumberFormat}

theorem toBinary_writeDecimal (legible : f.Legible) (d : Decimal) :
    (ofScientific (f.writeDecimal d)).toBinary = d.toBinary := by
  unfold writeDecimal
  dsimp only
  split
  · have plain : 'e' ∉ writePositional f.wholeMark (Nat.toDigits 10 d.digits)
        ((Nat.toDigits 10 d.digits).length + d.exponent) := by
      intro member
      rcases mem_writePositional legible.mark (digits_toDigits _).2 member with digit | point
      · exact absurd digit (by decide)
      · exact absurd point (by decide)
    rw [Decimal.ofScientific_plain plain]
    exact toBinary_positional legible.mark d
  · rw [ofScientific_writeScientific]
    congr 2
    omega

/-- The text of a magnitude reads back as the magnitude. -/
theorem toBinary_ofScientific (legible : f.Legible) {bits : Nat}
    (finite : bits < Binary.infinity) : (ofScientific (f.writeMagnitude bits)).toBinary = bits :=
  (toBinary_writeDecimal legible _).trans (Decimal.readsAs_shortest finite)

/- Characters of numerals. -/

/-- A letter, a digit, a sign or a point: none that separates numbers from what is around them. -/
def InWord (c : Char) : Prop := c.isAlphanum ∨ c = '.' ∨ c = '+' ∨ c = '-'

instance : DecidablePred InWord := fun _ => inferInstanceAs (Decidable (_ ∨ _))

theorem inWord_of_isDigit {c : Char} (digit : c.isDigit) : InWord c :=
  .inl (by simp [Char.isAlphanum, digit])

theorem writeDecimal_eq_cons (d : Decimal) : ∃ c cs, f.writeDecimal d = c :: cs ∧ c.isDigit := by
  obtain ⟨c, places, eq, digit, -⟩ := toDigits_eq_cons d.digits
  unfold writeDecimal
  dsimp only
  rw [eq]
  split
  · unfold writePositional
    split
    · exact ⟨_, _, rfl, rfl⟩
    · split
      · rename_i high inside
        obtain ⟨k, rest⟩ : ∃ k, (((c :: places).length : Int) + d.exponent).toNat = k + 1 :=
          Nat.exists_eq_succ_of_ne_zero (by omega)
        rw [rest]
        exact ⟨_, _, rfl, digit⟩
      · exact ⟨_, _, rfl, digit⟩
  · exact ⟨_, _, rfl, digit⟩

theorem mem_writeScientific {n : Nat} {e : Int} {c : Char}
    (h : c ∈ writeScientific (Nat.toDigits 10 n) e) : InWord c := by
  have digits {m : Nat} (member : c ∈ Nat.toDigits 10 m) : InWord c :=
    inWord_of_isDigit ((digits_toDigits m).2 c member)
  simp only [writeScientific, List.mem_append, List.mem_cons] at h
  rcases h with (member | member) | rfl | sign | member
  · exact digits (List.mem_of_mem_take member)
  · split at member
    · contradiction
    · rcases List.mem_cons.mp member with point | member
      · exact .inr (.inl point)
      · exact digits (List.mem_of_mem_drop member)
  · exact .inl rfl
  · split at sign
    · exact .inr (.inr (.inr sign))
    · exact .inr (.inr (.inl sign))
  · exact digits member

theorem mem_writeDecimal (legible : f.Legible) {d : Decimal} {c : Char}
    (h : c ∈ f.writeDecimal d) : InWord c := by
  unfold writeDecimal at h
  dsimp only at h
  split at h
  · rcases mem_writePositional legible.mark (digits_toDigits _).2 h with digit | point
    · exact inWord_of_isDigit digit
    · exact .inr (.inl point)
  · exact mem_writeScientific h

theorem letter_of_not_finite (legible : f.Legible) {x : Float} (h : x.isFinite ≠ true) {c : Char}
    (member : c ∈ (f.write x).toList) : c.isAlpha ∨ c = '-' := by
  refine legible.words (f.write x) ?_ c member
  rcases write_of_not_finite f h with ⟨-, text⟩ | ⟨-, text⟩ | ⟨-, text⟩ <;> simp [text]

theorem mem_write (legible : f.Legible) {x : Float} {c : Char} (h : c ∈ (f.write x).toList) :
    InWord c := by
  by_cases finite : x.isFinite = true
  · rw [toList_write finite] at h
    split at h
    · rcases List.mem_cons.mp h with sign | member
      · exact .inr (.inr (.inr sign))
      · exact mem_writeDecimal legible member
    · exact mem_writeDecimal legible h
  · rcases letter_of_not_finite legible finite h with letter | sign
    · exact .inl (by simp [Char.isAlphanum, letter])
    · exact .inr (.inr (.inr sign))

/- Texts and doubles. -/

theorem exists_digit_of_isFinite {x : Float} (finite : x.isFinite = true) :
    ∃ c ∈ (f.write x).toList, c.isDigit := by
  obtain ⟨c, cs, eq, digit⟩ := writeDecimal_eq_cons (Decimal.shortest f.tie (Binary.magnitude x))
  have text : f.writeMagnitude (Binary.magnitude x) = c :: cs := eq
  refine ⟨c, ?_, digit⟩
  rw [toList_write finite, text]
  split <;> simp

theorem not_isDigit_of_isAlpha {c : Char} (letter : c.isAlpha) : ¬c.isDigit := by
  simp only [Char.isAlpha, Char.isUpper, Char.isLower, Char.isDigit, Bool.or_eq_true,
    Bool.and_eq_true, decide_eq_true_eq, UInt32.le_iff_toNat_le] at letter ⊢
  simp at letter ⊢
  omega

theorem isFinite_of_write_eq (legible : f.Legible) {x y : Float} (finite : x.isFinite = true)
    (same : f.write x = f.write y) : y.isFinite = true := by
  obtain ⟨c, member, digit⟩ := @exists_digit_of_isFinite f x finite
  by_contra h
  rcases letter_of_not_finite legible h (same ▸ member) with letter | rfl
  · exact not_isDigit_of_isAlpha letter digit
  · contradiction

theorem unsigned_writeMagnitude (bits : Nat) : (f.writeMagnitude bits).head? ≠ some '-' := by
  obtain ⟨c, cs, eq, digit⟩ := writeDecimal_eq_cons (f := f) (Decimal.shortest f.tie bits)
  have text : f.writeMagnitude bits = c :: cs := eq
  rw [text]
  rintro ⟨⟩
  contradiction

theorem signed_injective {negative negative' : Bool} {cs cs' : List Char}
    (unsigned : cs.head? ≠ some '-') (unsigned' : cs'.head? ≠ some '-')
    (same : (if negative then '-' :: cs else cs) = if negative' then '-' :: cs' else cs') :
    negative = negative' ∧ cs = cs' := by
  cases negative <;> cases negative'
  · exact ⟨rfl, same⟩
  · exact absurd (congrArg List.head? same) unsigned
  · exact absurd (congrArg List.head? same).symm unsigned'
  · exact ⟨rfl, List.tail_eq_of_cons_eq same⟩

/-- Finite doubles of one text are the same, the sign of a zero included. -/
theorem write_injective (legible : f.Legible) {x y : Float} (finite : x.isFinite = true)
    (same : f.write x = f.write y) : x = y := by
  have finite' := isFinite_of_write_eq legible finite same
  have texts := congrArg String.toList same
  rw [toList_write finite, toList_write finite'] at texts
  obtain ⟨signs, magnitudes⟩ :=
    signed_injective (unsigned_writeMagnitude _) (unsigned_writeMagnitude _) texts
  have bits : Binary.magnitude x = Binary.magnitude y := by
    rw [← toBinary_ofScientific legible (Binary.isFinite_iff.mp finite), magnitudes,
      toBinary_ofScientific legible (Binary.isFinite_iff.mp finite')]
  rw [← Binary.ofMagnitude_parts x, ← Binary.ofMagnitude_parts y, signs, bits]

end NumberFormat

/- The two formats of the program. -/

theorem Expression.legible_flatNumbers : flatNumbers.Legible :=
  ⟨.inl rfl, by simp [flatNumbers, numbers]⟩

theorem Json.legible_numbers : Json.numbers.Legible := ⟨.inr rfl, by simp [numbers]⟩

/- Texts of integers. -/

theorem toString_int_injective {m n : Int} (same : toString m = toString n) : m = n := by
  have texts := congrArg String.toList same
  have signed (n : Int) : (toString n).toList =
      if decide (n < 0) = true then '-' :: Nat.toDigits 10 n.natAbs
      else Nat.toDigits 10 n.natAbs := by
    rw [toList_toString_int]
    by_cases negative : n < 0 <;> simp [negative]
  have unsigned (n : Nat) : (Nat.toDigits 10 n).head? ≠ some '-' := fun first =>
    absurd ((digits_toDigits n).2 '-' (List.mem_of_head? first)) (by decide)
  rw [signed, signed] at texts
  obtain ⟨signs, digits⟩ := NumberFormat.signed_injective (unsigned _) (unsigned _) texts
  have sizes : m.natAbs = n.natAbs := by
    rw [← @Nat.ofDigitChars_ten_toDigits m.natAbs, digits, Nat.ofDigitChars_ten_toDigits]
  rw [decide_eq_decide] at signs
  omega

theorem mem_toString_int {n : Int} {c : Char} (h : c ∈ (toString n).toList) :
    c.isDigit ∨ c = '-' := by
  rw [toList_toString_int] at h
  rcases List.mem_append.mp h with sign | member
  · split at sign
    · exact .inr (List.mem_singleton.mp sign)
    · contradiction
  · exact .inl ((digits_toDigits _).2 c member)

theorem toString_int_ne_nil (n : Int) : (toString n).toList ≠ [] := by
  rw [toList_toString_int]
  simp [Nat.toDigits_ne_nil]

/- Texts in a row. -/

/-- Texts that lack the character between them are told apart again. -/
theorem intercalate_injective {α : Type} {text : α → String} {sep : String} {c : Char}
    (between : sep.toList = [c]) (plain : ∀ a, (text a).toList ≠ [] ∧ c ∉ (text a).toList)
    (injective : Function.Injective text) :
    Function.Injective fun as : List α => sep.intercalate (as.map text) := by
  have split : ∀ as : List α, ((sep.intercalate (as.map text)).toList.splitOn c).filter (· ≠ []) =
      (as.map text).map String.toList := by
    intro as
    rw [String.toList_intercalate, between]
    cases as with
    | nil => rfl
    | cons a as =>
      rw [List.splitOn_intercalate c (by simp [plain]) (by simp)]
      simp [plain]
  intro as bs same
  change sep.intercalate (as.map text) = sep.intercalate (bs.map text) at same
  have texts := split as
  rw [same, split bs] at texts
  exact List.map_injective_iff.mpr injective
    ((List.map_injective_iff.mpr fun _ _ => String.toList_injective) texts.symm)

theorem mem_intercalate {sep : String} {ts : List String} {c : Char}
    (h : c ∈ (sep.intercalate ts).toList) : c ∈ sep.toList ∨ ∃ t ∈ ts, c ∈ t.toList := by
  induction ts with
  | nil => simp at h
  | cons t ts ih =>
    by_cases last : ts = []
    · rw [last, String.intercalate_singleton] at h
      exact .inr ⟨t, List.mem_cons_self, h⟩
    · rw [String.intercalate_cons_of_ne_nil last, String.toList_append, String.toList_append,
        List.mem_append, List.mem_append] at h
      rcases h with (member | member) | member
      · exact .inr ⟨t, List.mem_cons_self, member⟩
      · exact .inl member
      · rcases ih member with member | ⟨u, element, member⟩
        · exact .inl member
        · exact .inr ⟨u, List.mem_cons_of_mem t element, member⟩

end DiceNotation
