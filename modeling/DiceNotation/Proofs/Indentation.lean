import DiceNotation.Proofs.JsonTexts

/-!
Indented texts of JSON documents. They differ from the compact texts in spaces and line breaks
only, and where the strings of a document have no space, its compact text has none.
-/
namespace DiceNotation

open NumberFormat (InWord)

def isSpacing (c : Char) : Bool := c = ' ' || c = '\n' || c = '\r'

theorem isSpacing_iff {c : Char} : isSpacing c = true ↔ c = ' ' ∨ c = '\n' ∨ c = '\r' := by
  simp [isSpacing, or_assoc]

/-- A text without its spaces and line breaks. -/
def unspaced (text : String) : String := String.ofList (text.toList.filter (!isSpacing ·))

theorem unspaced_append (s t : String) : unspaced (s ++ t) = unspaced s ++ unspaced t := by
  simp [unspaced]

theorem unspaced_intercalate (sep : String) (ts : List String) :
    unspaced (sep.intercalate ts) = (unspaced sep).intercalate (ts.map unspaced) := by
  induction ts with
  | nil => rfl
  | cons t ts ih =>
    by_cases last : ts = []
    · simp [last]
    · rw [String.intercalate_cons_of_ne_nil last, unspaced_append, unspaced_append, ih,
        List.map_cons, String.intercalate_cons_of_ne_nil (by simpa using last)]

theorem unspaced_eq_self {text : String} (plain : ∀ c ∈ text.toList, isSpacing c = false) :
    unspaced text = text := by
  rw [unspaced, List.filter_eq_self.mpr (by simpa using plain), String.ofList_toList]

namespace Json

theorem indentedAll_eq_map (depth : Nat) (es : List Json) :
    indentedAll depth es = es.map (indented depth) := by
  induction es with
  | nil => rfl
  | cons e es ih => rw [indentedAll, ih, List.map_cons]

def indentedField (depth : Nat) (f : String × Json) : String :=
  stringText f.1 ++ ": " ++ f.2.indented depth

theorem indentedFields_eq_map (depth : Nat) (fs : List (String × Json)) :
    indentedFields depth fs = fs.map (indentedField depth) := by
  induction fs with
  | nil => rfl
  | cons f fs ih => rw [indentedFields, ih, List.map_cons, indentedField]

theorem unspaced_comma : unspaced "," = "," := by decide +kernel

theorem unspaced_blanks (n : Nat) : unspaced (String.ofList (List.replicate n ' ')) = "" := by
  simp [unspaced, isSpacing]

theorem unspaced_block (openBracket closeBracket : String) (depth : Nat) (items : List String) :
    unspaced (block openBracket closeBracket depth items) =
      unspaced openBracket ++ ",".intercalate (items.map unspaced) ++ unspaced closeBracket := by
  have lineFeed : unspaced "\n" = "" := by decide +kernel
  cases items with
  | nil => simp [block, unspaced_append]
  | cons item items =>
    unfold block
    simp only [unspaced_append, unspaced_intercalate, unspaced_blanks, unspaced_comma, lineFeed]
    simp

theorem unspaced_indentedField {depth : Nat} {f : String × Json}
    (value : unspaced (f.2.indented depth) = unspaced f.2.compact) :
    unspaced (indentedField depth f) = unspaced (fieldText f) := by
  have colon : unspaced ": " = unspaced ":" := by decide +kernel
  simp only [indentedField, fieldText, unspaced_append, value, colon]

/-- Indenting adds spaces and line breaks, and nothing else. -/
theorem unspaced_indented (j : Json) (depth : Nat) :
    unspaced (j.indented depth) = unspaced j.compact := by
  induction j using parts_induction generalizing depth with
  | int _ | float _ | string _ => rw [indented, compact]
  | list es ih =>
    have elements : (es.map (indented (depth + 1))).map unspaced = (es.map compact).map unspaced := by
      simpa using fun e member => ih e member (depth + 1)
    rw [indented, indentedAll_eq_map, unspaced_block, elements, compact, compactAll_eq_map,
      unspaced_append, unspaced_append, unspaced_intercalate, unspaced_comma]
  | record fs ih =>
    have fields : (fs.map (indentedField (depth + 1))).map unspaced =
        (fs.map fieldText).map unspaced := by
      rw [List.map_map, List.map_map]
      exact List.map_congr_left fun f member => unspaced_indentedField (ih f member (depth + 1))
    rw [indented, indentedFields_eq_map, unspaced_block, fields, compact, compactFields_eq_map,
      unspaced_append, unspaced_append, unspaced_intercalate, unspaced_comma]

/- Compact texts without spaces. -/

/-- The compact text has no spaces and no line breaks. -/
def Tight (j : Json) : Prop := unspaced j.compact = j.compact

theorem isSpacing_of_inWord {c : Char} (inside : InWord c) : isSpacing c = false := by
  rw [← Bool.not_eq_true, isSpacing_iff]
  rintro (rfl | rfl | rfl) <;> revert inside <;> decide

theorem tight_int (n : Int) : (int n).Tight :=
  unspaced_eq_self fun c member => isSpacing_of_inWord (inWord_int n c member)

theorem tight_float (x : Float) : (float x).Tight :=
  unspaced_eq_self fun c member => isSpacing_of_inWord (inWord_float x c member)

theorem not_mem_escapeChar {b c : Char} (spacing : isSpacing b = true) (ink : c ≠ ' ') :
    b ∉ escapeChar c := by
  rw [isSpacing_iff] at spacing
  unfold escapeChar
  split
  case h_6 _ _ _ newline return_ _ =>
    have digits (n : Nat) : b ∉ Nat.toDigits 16 n := by
      rcases spacing with rfl | rfl | rfl <;> exact not_mem_toDigits (by decide) (by decide) n
    split
    · rcases spacing with rfl | rfl | rfl <;> simp [digits]
    · split
      · rcases spacing with rfl | rfl | rfl <;> simp [digits]
      · rw [List.mem_singleton]
        rintro rfl
        rcases spacing with space | lineFeed | carriageReturn
        · exact ink space
        · exact newline lineFeed
        · exact return_ carriageReturn
  all_goals rcases spacing with rfl | rfl | rfl <;> decide

theorem unspaced_stringText {s : String} (solid : ' ' ∉ s.toList) :
    unspaced (stringText s) = stringText s := by
  refine unspaced_eq_self fun b member => ?_
  rw [toList_stringText] at member
  by_contra spacing
  rw [Bool.not_eq_false] at spacing
  rcases List.mem_cons.mp member with rfl | member
  · contradiction
  · rcases List.mem_append.mp member with member | quote
    · obtain ⟨c, inside, member⟩ := List.mem_flatMap.mp member
      exact not_mem_escapeChar spacing (ne_of_mem_of_not_mem inside solid) member
    · rw [List.mem_singleton.mp quote] at spacing
      contradiction

theorem tight_string {s : String} (solid : ' ' ∉ s.toList) : (string s).Tight :=
  unspaced_stringText solid

theorem tight_list {es : List Json} (each : ∀ e ∈ es, e.Tight) : (list es).Tight := by
  have elements : (es.map compact).map unspaced = es.map compact := by
    simpa [Tight] using each
  unfold Tight
  rw [compact, compactAll_eq_map, unspaced_append, unspaced_append, unspaced_intercalate, elements]
  rfl

theorem tight_record {fs : List (String × Json)} (each : ∀ f ∈ fs, ' ' ∉ f.1.toList ∧ f.2.Tight) :
    (record fs).Tight := by
  have colon : unspaced ":" = ":" := by decide +kernel
  have fields : (fs.map fieldText).map unspaced = fs.map fieldText := by
    rw [List.map_map]
    refine List.map_congr_left fun f member => ?_
    obtain ⟨name, value⟩ := each f member
    change unspaced (fieldText f) = fieldText f
    rw [fieldText, unspaced_append, unspaced_append, unspaced_stringText name, colon]
    exact congrArg _ value
  unfold Tight
  rw [compact, compactFields_eq_map, unspaced_append, unspaced_append, unspaced_intercalate, fields]
  rfl

end Json

end DiceNotation
