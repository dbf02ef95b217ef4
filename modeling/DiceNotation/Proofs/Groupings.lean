import DiceNotation.Proofs.NumberTexts

/-!
What flat texts say. The leaves and operators of an expression stand in the text in their order,
with blanks between them, and no two different ones look alike. So the text leaves out how they
are grouped, with the counts and sides of dice, and nothing else.
-/
namespace DiceNotation

open Expression (flatNumbers legible_flatNumbers)

/-- What stands between blanks in a flat text. Doubles are told apart by their bits; one of them
is no number. -/
inductive Part where
  | number (x : Float)
  | results (faces : List Int64)
  | operator (op : Operator)

namespace Part

def text : Part → String
  | number x => flatNumbers.write x
  | results faces => "[" ++ ",".intercalate (faces.map fun r => toString r.toInt) ++ "]"
  | operator op => op.text

/- No two parts look alike. -/

theorem number_injective {x y : Float} (same : (number x).text = (number y).text) : x = y := by
  have nan {x : Float} (h : x.isNaN = true) : x = Float.nan := by
    simpa [Float.isNaN_eq_decide_eq_nan] using h
  change flatNumbers.write x = flatNumbers.write y at same
  by_cases finite : x.isFinite = true
  · exact NumberFormat.write_injective legible_flatNumbers finite same
  · by_cases finite' : y.isFinite = true
    · exact (NumberFormat.write_injective legible_flatNumbers finite' same.symm).symm
    · -- Each word stands for one double, as there is one that is no number.
      rcases write_of_not_finite flatNumbers finite with ⟨hx, text⟩ | ⟨hx, text⟩ | ⟨hx, text⟩ <;>
        rcases write_of_not_finite flatNumbers finite' with
          ⟨hy, text'⟩ | ⟨hy, text'⟩ | ⟨hy, text'⟩ <;>
        rw [text, text'] at same
      · rw [nan hx, nan hy]
      all_goals first
        | exact hx.trans hy.symm
        | exact absurd same (by decide)

theorem results_injective {faces faces' : List Int64}
    (same : (results faces).text = (results faces').text) : faces = faces' := by
  have inner : ",".intercalate (faces.map fun r => toString r.toInt) =
      ",".intercalate (faces'.map fun r => toString r.toInt) := by
    simpa [text, ← String.toList_inj] using same
  have plain (r : Int64) : (toString r.toInt).toList ≠ [] ∧ ',' ∉ (toString r.toInt).toList := by
    refine ⟨toString_int_ne_nil r.toInt, fun comma => ?_⟩
    rcases mem_toString_int comma with digit | sign <;> contradiction
  have faces_injective : Function.Injective fun r : Int64 => toString r.toInt := fun _ _ h =>
    Int64.toInt_inj.mp (toString_int_injective h)
  exact intercalate_injective rfl plain faces_injective inner

theorem alphanum_mem_number (x : Float) : ∃ c ∈ (number x).text.toList, c.isAlphanum := by
  by_cases finite : x.isFinite = true
  · obtain ⟨c, member, digit⟩ := NumberFormat.exists_digit_of_isFinite (f := flatNumbers) finite
    exact ⟨c, member, by simp [Char.isAlphanum, digit]⟩
  · rcases write_of_not_finite flatNumbers finite with ⟨-, word⟩ | ⟨-, word⟩ | ⟨-, word⟩ <;>
      rw [text, word]
    · exact ⟨'N', by decide, rfl⟩
    · exact ⟨'I', by decide, rfl⟩
    · exact ⟨'I', by decide, rfl⟩

theorem alphanum_not_mem_operator {op : Operator} {c : Char} (member : c ∈ (operator op).text.toList) :
    ¬c.isAlphanum := by
  have symbol : c = op.symbol := by simpa [text, Operator.text] using member
  rw [symbol]
  cases op <;> decide

theorem number_ne_operator (x : Float) (op : Operator) : (number x).text ≠ (operator op).text := by
  intro same
  obtain ⟨c, member, letter⟩ := alphanum_mem_number x
  exact alphanum_not_mem_operator (same ▸ member) letter

theorem bracket_mem_results (faces : List Int64) : '[' ∈ (results faces).text.toList := by
  simp [text]

theorem number_ne_results (x : Float) (faces : List Int64) :
    (number x).text ≠ (results faces).text := by
  intro same
  have bracket : '[' ∈ (number x).text.toList := same ▸ bracket_mem_results faces
  rcases NumberFormat.mem_write legible_flatNumbers bracket with letter | mark | mark | mark <;>
    contradiction

theorem results_ne_operator (faces : List Int64) (op : Operator) :
    (results faces).text ≠ (operator op).text := by
  intro same
  have bracket : '[' ∈ (operator op).text.toList := same ▸ bracket_mem_results faces
  cases op <;> exact absurd bracket (by decide)

theorem text_injective : Function.Injective text := by
  intro p q same
  cases p with
  | number x =>
    cases q with
    | number y => rw [number_injective same]
    | results faces => exact absurd same (number_ne_results x faces)
    | operator op => exact absurd same (number_ne_operator x op)
  | results faces =>
    cases q with
    | number y => exact absurd same.symm (number_ne_results y faces)
    | results faces' => rw [results_injective same]
    | operator op => exact absurd same (results_ne_operator faces op)
  | operator op =>
    cases q with
    | number y => exact absurd same.symm (number_ne_operator y op)
    | results faces => exact absurd same.symm (results_ne_operator faces op)
    | operator op' => rw [Operator.text_injective same]

/- No part holds a blank. -/

theorem blank_not_mem_text (p : Part) : p.text.toList ≠ [] ∧ ' ' ∉ p.text.toList := by
  cases p with
  | number x =>
    obtain ⟨c, member, -⟩ := alphanum_mem_number x
    refine ⟨List.ne_nil_of_mem member, fun blank => ?_⟩
    rcases NumberFormat.mem_write legible_flatNumbers blank with letter | mark | mark | mark <;>
      contradiction
  | results faces =>
    refine ⟨List.ne_nil_of_mem (bracket_mem_results faces), fun blank => ?_⟩
    have inner : ' ' ∈ (",".intercalate (faces.map fun r => toString r.toInt)).toList := by
      simpa [text] using blank
    rcases mem_intercalate inner with comma | ⟨t, element, blank⟩
    · exact absurd comma (by decide)
    · obtain ⟨r, -, rfl⟩ := List.mem_map.mp element
      rcases mem_toString_int blank with digit | sign <;> contradiction
  | operator op => cases op <;> decide

end Part

namespace Expression

/-- The leaves and operators in their order, where a leaf of drawn faces is these faces. Dice
still to roll show nothing. -/
def parts : Expression Float → List Part
  | number x => [.number x]
  | rolled _ _ results => [.results results]
  | roll .. | advantage _ | disadvantage _ => []
  | math op l r => l.parts ++ .operator op :: r.parts

theorem parts_ne_nil {e : Expression Float} (resolved : e.isResolved = true) : e.parts ≠ [] := by
  cases e with
  | math op l r => simp [parts]
  | number _ | rolled _ _ _ => simp [parts]
  | _ => contradiction

theorem flatText_of_resolved {e : Expression Float} (resolved : e.isResolved = true) :
    e.flatText = .ok (" ".intercalate (e.parts.map Part.text)) := by
  induction e with
  | number x => simp [flatText, parts, Part.text]
  | rolled count die results => simp [flatText, parts, Part.text]
  | math op l r ihl ihr =>
    rw [isResolved, Bool.and_eq_true] at resolved
    have left := parts_ne_nil resolved.1
    have right := parts_ne_nil resolved.2
    rw [flatText, ihl resolved.1, ihr resolved.2, parts, List.map_append, List.map_cons,
      String.intercalate_append_of_ne_nil (by simpa using left) (by simp),
      String.intercalate_cons_of_ne_nil (by simpa using right)]
    simp [Part.text, bind, Except.bind, pure, Except.pure, String.append_assoc]
  | _ => contradiction

theorem flatText_of_unresolved {e : Expression Float} (unresolved : e.isResolved = false) :
    e.flatText = .error .unresolvedRoll := by
  induction e with
  | number _ | rolled _ _ _ => contradiction
  | math op l r ihl ihr =>
    rw [isResolved, Bool.and_eq_false_iff] at unresolved
    cases left : l.isResolved with
    | false => rw [flatText, ihl left]; rfl
    | true =>
      have right : r.isResolved = false := by simpa [left] using unresolved
      rw [flatText, flatText_of_resolved left, ihr right]
      rfl
  | _ => rfl

theorem flatText_eq_iff {e e' : Expression Float} (resolved : e.isResolved = true)
    (resolved' : e'.isResolved = true) : e.flatText = e'.flatText ↔ e.parts = e'.parts := by
  rw [flatText_of_resolved resolved, flatText_of_resolved resolved', Except.ok.injEq]
  exact (intercalate_injective rfl Part.blank_not_mem_text Part.text_injective).eq_iff

/-- An expression has a flat text exactly when it is resolved, and then the text is that of the
parts: grouping, counts and sides are all that it leaves out. -/
theorem flatText_leaves_out_grouping (e e' : Expression Float) :
    ((∃ text, e.flatText = .ok text) ↔ e.isResolved = true) ∧
      (e.isResolved = false → e.flatText = .error .unresolvedRoll) ∧
      (e.isResolved = true → e'.isResolved = true →
        (e.flatText = e'.flatText ↔ e.parts = e'.parts)) ∧
      ∀ x count die results, (number x).flatText ≠ (rolled count die results).flatText := by
  refine ⟨⟨?_, fun resolved => ⟨_, flatText_of_resolved resolved⟩⟩, flatText_of_unresolved,
    flatText_eq_iff, ?_⟩
  · rintro ⟨text, some⟩
    by_contra h
    rw [flatText_of_unresolved (by simpa using h)] at some
    contradiction
  · intro x count die results same
    have parts := (flatText_eq_iff rfl rfl).mp same
    simp [Expression.parts] at parts

/-- `8 - (2d60 + -1)` where 4 and 1 were drawn. -/
def groupedOnRight : Expression Float :=
  .math .sub (.number 8) (.math .add (.rolled 2 ⟨60, by decide, by decide⟩ [4, 1]) (.number (-1)))

/-- `(8 - 3d120) + -1` with the same faces. -/
def groupedOnLeft : Expression Float :=
  .math .add (.math .sub (.number 8) (.rolled 3 ⟨120, by decide, by decide⟩ [4, 1])) (.number (-1))

theorem groupings_look_alike : groupedOnRight ≠ groupedOnLeft ∧
    groupedOnRight.isResolved = true ∧ groupedOnLeft.isResolved = true ∧
    groupedOnRight.flatText = groupedOnLeft.flatText ∧
    (roll 2 ⟨60, by decide, by decide⟩).flatText = .error .unresolvedRoll :=
  ⟨by simp [groupedOnRight, groupedOnLeft], rfl, rfl,
    ((flatText_leaves_out_grouping groupedOnRight groupedOnLeft).2.2.1 rfl rfl).mpr rfl,
    (flatText_leaves_out_grouping (roll 2 ⟨60, by decide, by decide⟩) groupedOnLeft).2.1 rfl⟩

end Expression

end DiceNotation
