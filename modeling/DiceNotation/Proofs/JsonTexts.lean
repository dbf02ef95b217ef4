import DiceNotation.Proofs.NumberTexts

/-!
Texts of JSON documents. The compact text is a prefix code: behind it comes nothing or what ends
an element, and then it says where it stops and which document it is of, except that the doubles
that are not finite have one text.
-/
namespace DiceNotation

open NumberFormat (InWord)

/-- A double, or in place of one that is not finite the one that is no number. -/
def finiteOrNaN (x : Float) : Float := if x.isFinite then x else Float.nan

namespace Json

theorem compactAll_eq_map (es : List Json) : compactAll es = es.map compact := by
  induction es with
  | nil => rfl
  | cons e es ih => rw [compactAll, ih, List.map_cons]

def fieldText (f : String × Json) : String := stringText f.1 ++ ":" ++ f.2.compact

theorem compactFields_eq_map (fs : List (String × Json)) :
    compactFields fs = fs.map fieldText := by
  induction fs with
  | nil => rfl
  | cons f fs ih => rw [compactFields, ih, List.map_cons, fieldText]

theorem toList_list (es : List Json) : (list es).compact.toList =
    '[' :: ((",".intercalate (es.map compact)).toList ++ [']']) := by
  simp [compact, compactAll_eq_map]

theorem toList_record (fs : List (String × Json)) : (record fs).compact.toList =
    '\x7b' :: ((",".intercalate (fs.map fieldText)).toList ++ ['\x7d']) := by
  simp [compact, compactFields_eq_map]

/- Strings. -/

def hexValue (c : Char) : Nat := if c.isDigit then c.toNat - '0'.toNat else c.toNat - 'a'.toNat + 10

/-- What a backslash stands for, with the rest of the text behind it. -/
def unescapeBehind : List Char → Option (Char × List Char)
  | 'n' :: rest => some ('\n', rest)
  | 'r' :: rest => some ('\r', rest)
  | 't' :: rest => some ('\t', rest)
  | 'u' :: _ :: _ :: high :: low :: rest =>
    some (Char.ofNat (hexValue high * 16 + hexValue low), rest)
  | c :: rest => some (c, rest)
  | [] => none

/-- The next character of a string, with the rest of the text; none at its end. -/
def unescape : List Char → Option (Char × List Char)
  | '"' :: _ | [] => none
  | '\\' :: rest => unescapeBehind rest
  | c :: rest => some (c, rest)

theorem hexValue_digitChar : ∀ n < 16, hexValue n.digitChar = n := by decide

theorem unescape_hex {c high low : Char} (value : hexValue high * 16 + hexValue low = c.toNat)
    (rest : List Char) :
    unescape (['\\', 'u', '0', '0', high, low] ++ rest) = some (c, rest) := by
  change some (Char.ofNat (hexValue high * 16 + hexValue low), rest) = some (c, rest)
  rw [value, Char.ofNat_toNat]

theorem unescape_escapeChar (c : Char) (rest : List Char) :
    unescape (escapeChar c ++ rest) = some (c, rest) := by
  unfold escapeChar
  split
  case h_6 _ quote backslash _ _ _ =>
    split
    · rename_i low
      rw [Nat.toDigits_of_lt_base low]
      refine unescape_hex ?_ rest
      rw [hexValue_digitChar _ low]
      exact Nat.zero_add _
    · split
      · rename_i low high
        have tens : c.toNat / 16 < 16 := by omega
        have ones : c.toNat % 16 < 16 := by omega
        rw [Nat.toDigits_eq_if (by decide), if_neg low, Nat.toDigits_of_lt_base tens]
        refine unescape_hex ?_ rest
        rw [hexValue_digitChar _ tens, hexValue_digitChar _ ones]
        omega
      · exact unescape.eq_4 c rest quote backslash
  all_goals rfl

theorem escaped_prefix {cs ds rest rest' : List Char}
    (same : cs.flatMap escapeChar ++ '"' :: rest = ds.flatMap escapeChar ++ '"' :: rest') :
    cs = ds ∧ rest = rest' := by
  have next (c : Char) (cs rest : List Char) : unescape ((c :: cs).flatMap escapeChar ++ rest) =
      some (c, cs.flatMap escapeChar ++ rest) := by
    rw [List.flatMap_cons, List.append_assoc, unescape_escapeChar]
  induction cs generalizing ds with
  | nil =>
    cases ds with
    | nil => exact ⟨rfl, List.tail_eq_of_cons_eq same⟩
    | cons d ds =>
      have read := congrArg unescape same
      rw [next] at read
      contradiction
  | cons c cs ih =>
    have read := congrArg unescape same
    rw [next] at read
    cases ds with
    | nil => contradiction
    | cons d ds =>
      rw [next, Option.some.injEq, Prod.mk.injEq] at read
      obtain ⟨texts, rests⟩ := ih read.2
      exact ⟨by rw [read.1, texts], rests⟩

theorem toList_stringText (s : String) :
    (stringText s).toList = '"' :: (s.toList.flatMap escapeChar ++ ['"']) := by
  simp [stringText]

theorem stringText_prefix {s t : String} {rest rest' : List Char}
    (same : (stringText s).toList ++ rest = (stringText t).toList ++ rest') :
    s = t ∧ rest = rest' := by
  rw [toList_stringText, toList_stringText] at same
  have inner : s.toList.flatMap escapeChar ++ '"' :: rest =
      t.toList.flatMap escapeChar ++ '"' :: rest' := by simpa using same
  obtain ⟨texts, rests⟩ := escaped_prefix inner
  exact ⟨String.toList_injective texts, rests⟩

/- Numbers. -/

/-- What comes behind an element: nothing, a comma or a closing bracket. -/
def Ends (rest : List Char) : Prop := ∀ c ∈ rest.head?, c ∈ [',', ']', '\x7d']

theorem not_inWord_of_ends {c : Char} {rest : List Char} (ends : Ends (c :: rest)) :
    ¬InWord c := by
  have closing := ends c rfl
  simp only [List.mem_cons, List.not_mem_nil, or_false] at closing
  unfold InWord
  rcases closing with rfl | rfl | rfl <;> decide

theorem word_prefix {cs ds rest rest' : List Char} (inside : ∀ c ∈ cs, InWord c)
    (inside' : ∀ d ∈ ds, InWord d) (ends : Ends rest) (ends' : Ends rest')
    (same : cs ++ rest = ds ++ rest') : cs = ds ∧ rest = rest' := by
  induction cs generalizing ds with
  | nil =>
    cases ds with
    | nil => exact ⟨rfl, same⟩
    | cons d ds =>
      have front : rest = d :: (ds ++ rest') := same
      exact absurd (inside' d List.mem_cons_self) (not_inWord_of_ends (front ▸ ends))
  | cons c cs ih =>
    cases ds with
    | nil =>
      have front : c :: (cs ++ rest) = rest' := same
      exact absurd (inside c List.mem_cons_self) (not_inWord_of_ends (front ▸ ends'))
    | cons d ds =>
      rw [List.forall_mem_cons] at inside inside'
      rw [List.cons_append, List.cons_append, List.cons.injEq] at same
      obtain ⟨texts, rests⟩ := ih inside.2 inside'.2 same.2
      exact ⟨by rw [same.1, texts], rests⟩

theorem inWord_int (n : Int) : ∀ c ∈ (toString n).toList, InWord c := fun _ member =>
  (mem_toString_int member).elim NumberFormat.inWord_of_isDigit fun sign => .inr (.inr (.inr sign))

theorem inWord_float (x : Float) : ∀ c ∈ (numbers.write x).toList, InWord c := fun _ member =>
  NumberFormat.mem_write legible_numbers member

theorem write_nan {x : Float} (h : x.isFinite ≠ true) : numbers.write x = "null" := by
  rcases write_of_not_finite numbers h with ⟨-, text⟩ | ⟨-, text⟩ | ⟨-, text⟩ <;> exact text

theorem write_ne_nil (x : Float) : (numbers.write x).toList ≠ [] := by
  by_cases finite : x.isFinite = true
  · obtain ⟨c, member, -⟩ := NumberFormat.exists_digit_of_isFinite (f := numbers) finite
    exact List.ne_nil_of_mem member
  · rw [write_nan finite]
    decide

theorem finiteOrNaN_of_write_eq {x y : Float} (same : numbers.write x = numbers.write y) :
    finiteOrNaN x = finiteOrNaN y := by
  have keeps {x y : Float} (same : numbers.write x = numbers.write y) (finite : x.isFinite = true) :
      y.isFinite = true := NumberFormat.isFinite_of_write_eq legible_numbers finite same
  unfold finiteOrNaN
  by_cases finite : x.isFinite = true
  · rw [NumberFormat.write_injective legible_numbers finite same]
  · rw [if_neg finite, if_neg fun finite' => finite (keeps same.symm finite')]

theorem write_finiteOrNaN (x : Float) : numbers.write (finiteOrNaN x) = numbers.write x := by
  have nan : Float.nan.isFinite ≠ true := by
    have none : Float.nan.isNaN = true := by simp [Float.isNaN_eq_decide_eq_nan]
    intro finite
    rw [(Binary.isFinite_iff_not.mp finite).1] at none
    contradiction
  unfold finiteOrNaN
  split
  · rfl
  · rename_i h
    rw [write_nan nan, write_nan h]

theorem mark_mem_writeDecimal (d : Decimal) :
    '.' ∈ numbers.writeDecimal d ∨ 'e' ∈ numbers.writeDecimal d := by
  unfold NumberFormat.writeDecimal
  dsimp only
  split
  · left
    unfold NumberFormat.writePositional
    split
    · simp
    · split
      · simp
      · simp [numbers]
  · right
    simp [NumberFormat.writeScientific]

/-- A double is not written as an integer. -/
theorem write_ne_toString (x : Float) (n : Int) : numbers.write x ≠ toString n := by
  intro same
  have plain {c : Char} (member : c ∈ (numbers.write x).toList) : c.isDigit ∨ c = '-' :=
    mem_toString_int (same ▸ member)
  by_cases finite : x.isFinite = true
  · have within {c : Char}
        (member : c ∈ numbers.writeMagnitude (Binary.magnitude x)) :
        c ∈ (numbers.write x).toList := by
      rw [toList_write finite]
      split <;> simp [member]
    rcases mark_mem_writeDecimal (Decimal.shortest numbers.tie (Binary.magnitude x)) with
      point | exponent
    · exact absurd (plain (within point)) (by decide)
    · exact absurd (plain (within exponent)) (by decide)
  · have letter : 'n' ∈ (numbers.write x).toList := by
      rw [write_nan finite]
      decide
    exact absurd (plain letter) (by decide)

/- Kinds of documents. -/

inductive Kind where
  | number
  | string
  | list
  | record

def kind : Json → Kind
  | int _ | float _ => .number
  | string _ => .string
  | list _ => .list
  | record _ => .record

/-- The kind of the documents whose texts start with a character. -/
def kindOf? (first : Char) : Option Kind :=
  if first = '"' then some .string
  else if first = '[' then some .list
  else if first = '\x7b' then some .record
  else if InWord first then some .number
  else none

theorem kindOf?_of_inWord {c : Char} (inside : InWord c) : kindOf? c = some .number := by
  have quote : c ≠ '"' := by rintro rfl; revert inside; decide
  have bracket : c ≠ '[' := by rintro rfl; revert inside; decide
  have brace : c ≠ '\x7b' := by rintro rfl; revert inside; decide
  rw [kindOf?, if_neg quote, if_neg bracket, if_neg brace, if_pos inside]

theorem inWord_compact {j : Json} (number : j.kind = .number) :
    ∀ c ∈ j.compact.toList, InWord c := by
  cases j with
  | int n => exact inWord_int n
  | float x => exact inWord_float x
  | _ => cases number

/-- The first character of a text tells the kind of the document. -/
theorem compact_eq_cons (j : Json) :
    ∃ c cs, j.compact.toList = c :: cs ∧ kindOf? c = some j.kind := by
  have word {text : List Char} (some : text ≠ []) (inside : ∀ c ∈ text, InWord c) :
      ∃ c cs, text = c :: cs ∧ kindOf? c = .some .number := by
    obtain ⟨c, cs, eq⟩ := List.exists_cons_of_ne_nil some
    exact ⟨c, cs, eq, kindOf?_of_inWord (inside c (eq ▸ List.mem_cons_self))⟩
  cases j with
  | int n => exact word (toString_int_ne_nil n) (inWord_int n)
  | float x => exact word (write_ne_nil x) (inWord_float x)
  | string s => exact ⟨_, _, toList_stringText s, rfl⟩
  | list es => exact ⟨_, _, toList_list es, rfl⟩
  | record fs => exact ⟨_, _, toList_record fs, rfl⟩

theorem kind_eq_of_append_eq {j k : Json} {rest rest' : List Char}
    (same : j.compact.toList ++ rest = k.compact.toList ++ rest') : j.kind = k.kind := by
  obtain ⟨c, cs, left, kind⟩ := compact_eq_cons j
  obtain ⟨d, ds, right, kind'⟩ := compact_eq_cons k
  rw [left, right] at same
  rw [List.head_eq_of_cons_eq same, kind'] at kind
  exact (Option.some.inj kind).symm

/- Elements in a row. -/

theorem ends_closing {close : Char} (closes : close = ']' ∨ close = '\x7d') (rest : List Char) :
    Ends (close :: rest) := by
  rintro c ⟨⟩
  rcases closes with rfl | rfl <;> decide

/-- Whatever ends the element, its text says where it stops and, as far as the view goes, what the
element is. -/
def Determines {α β : Type} (text : α → String) (view : α → β) (a : α) : Prop :=
  ∀ b {rest rest'}, Ends rest → Ends rest' →
    (text a).toList ++ rest = (text b).toList ++ rest' → view a = view b ∧ rest = rest'

section

variable {α β : Type} {text : α → String} {view : α → β} {close : Char}

/-- The texts of the elements behind the first, each with the comma before it. -/
def textBehind (text : α → String) (as : List α) : List Char :=
  as.flatMap fun a => ',' :: (text a).toList

theorem toList_intercalate_cons (a : α) (as : List α) :
    (",".intercalate ((a :: as).map text)).toList = (text a).toList ++ textBehind text as := by
  induction as generalizing a with
  | nil => simp [textBehind]
  | cons b as ih =>
    have next := ih b
    rw [List.map_cons] at next
    simp only [List.map_cons, String.intercalate_cons_cons, String.toList_append, next]
    simp [textBehind]

theorem ends_textBehind (closes : close = ']' ∨ close = '\x7d') (as : List α)
    (rest : List Char) : Ends (textBehind text as ++ close :: rest) := by
  cases as with
  | nil => exact ends_closing closes rest
  | cons a as =>
    rintro c ⟨⟩
    decide

theorem textBehind_prefix (closes : close = ']' ∨ close = '\x7d') {as bs : List α}
    (each : ∀ a ∈ as, Determines text view a) {rest rest' : List Char}
    (same : textBehind text as ++ close :: rest = textBehind text bs ++ close :: rest') :
    as.map view = bs.map view ∧ rest = rest' := by
  have comma : close ≠ ',' := by rcases closes with rfl | rfl <;> decide
  induction as generalizing bs with
  | nil =>
    cases bs with
    | nil => exact ⟨rfl, List.tail_eq_of_cons_eq same⟩
    | cons b bs => exact absurd (List.head_eq_of_cons_eq same) comma
  | cons a as ih =>
    cases bs with
    | nil => exact absurd (List.head_eq_of_cons_eq same).symm comma
    | cons b bs =>
      have elements : (text a).toList ++ (textBehind text as ++ close :: rest) =
          (text b).toList ++ (textBehind text bs ++ close :: rest') := by
        simpa [textBehind] using same
      rw [List.forall_mem_cons] at each
      obtain ⟨first, behind⟩ :=
        each.1 b (ends_textBehind closes as rest) (ends_textBehind closes bs rest') elements
      obtain ⟨more, rests⟩ := ih each.2 behind
      exact ⟨congrArg₂ List.cons first more, rests⟩

theorem intercalate_prefix (closes : close = ']' ∨ close = '\x7d')
    (opens : ∀ a, ∃ c cs, (text a).toList = c :: cs ∧ c ≠ close) {as bs : List α}
    (each : ∀ a ∈ as, Determines text view a) {rest rest' : List Char}
    (same : (",".intercalate (as.map text)).toList ++ close :: rest =
      (",".intercalate (bs.map text)).toList ++ close :: rest') :
    as.map view = bs.map view ∧ rest = rest' := by
  cases as with
  | nil =>
    cases bs with
    | nil => exact ⟨rfl, List.tail_eq_of_cons_eq same⟩
    | cons b bs =>
      obtain ⟨c, cs, eq, other⟩ := opens b
      rw [toList_intercalate_cons, eq] at same
      exact absurd (List.head_eq_of_cons_eq same).symm other
  | cons a as =>
    rw [toList_intercalate_cons, List.append_assoc] at same
    cases bs with
    | nil =>
      obtain ⟨c, cs, eq, other⟩ := opens a
      rw [eq] at same
      exact absurd (List.head_eq_of_cons_eq same) other
    | cons b bs =>
      rw [toList_intercalate_cons, List.append_assoc] at same
      rw [List.forall_mem_cons] at each
      obtain ⟨first, behind⟩ :=
        each.1 b (ends_textBehind closes as rest) (ends_textBehind closes bs rest') same
      obtain ⟨more, rests⟩ := textBehind_prefix closes each.2 behind
      exact ⟨congrArg₂ List.cons first more, rests⟩

end

/- Documents. -/

theorem sizeOf_value_lt {f : String × Json} {fs : List (String × Json)} (member : f ∈ fs) :
    sizeOf f.2 < 1 + sizeOf fs := by
  have smaller := List.sizeOf_lt_of_mem member
  obtain ⟨name, value⟩ := f
  rw [Prod.mk.sizeOf_spec] at smaller
  dsimp only
  omega

/-- A document with one common double in place of those that are not finite. -/
def marked : Json → Json
  | int n => .int n
  | float x => .float (finiteOrNaN x)
  | string s => .string s
  | list es => .list (es.map marked)
  | record fs => .record (fs.map fun f => (f.1, f.2.marked))
termination_by j => sizeOf j
decreasing_by
  · decreasing_tactic
  · rename_i member
    simpa using sizeOf_value_lt member

/-- Lists and records have a property when their parts have it. -/
@[elab_as_elim]
theorem parts_induction {motive : Json → Prop} (int : ∀ n, motive (.int n))
    (float : ∀ x, motive (.float x)) (string : ∀ s, motive (.string s))
    (list : ∀ es, (∀ e ∈ es, motive e) → motive (.list es))
    (record : ∀ fs, (∀ f ∈ fs, motive f.2) → motive (.record fs)) : ∀ j, motive j
  | .int n => int n
  | .float x => float x
  | .string s => string s
  | .list es => list es fun e _ => parts_induction int float string list record e
  | .record fs => record fs fun f _ => parts_induction int float string list record f.2
termination_by j => sizeOf j
decreasing_by
  · decreasing_tactic
  · rename_i member
    simpa using sizeOf_value_lt member

def markedField (f : String × Json) : String × Json := (f.1, f.2.marked)

/- A compact text says where it stops and which document it is of: by the kind of the document,
where a list or a record does if its parts do. -/

theorem marked_eq_of_compact_eq {j k : Json} (number : j.kind = .number)
    (number' : k.kind = .number) (same : j.compact = k.compact) : j.marked = k.marked := by
  cases j with
  | int m =>
    cases k with
    | int n => rw [toString_int_injective same]
    | float y => exact absurd same.symm (write_ne_toString y m)
    | _ => cases number'
  | float x =>
    cases k with
    | int n => exact absurd same (write_ne_toString x n)
    | float y => rw [marked, marked, finiteOrNaN_of_write_eq same]
    | _ => cases number'
  | _ => cases number

theorem determines_number {j : Json} (number : j.kind = .number) :
    Determines compact marked j := by
  intro k rest rest' ends ends' same
  have number' : k.kind = .number := (kind_eq_of_append_eq same).symm.trans number
  obtain ⟨texts, rests⟩ :=
    word_prefix (inWord_compact number) (inWord_compact number') ends ends' same
  exact ⟨marked_eq_of_compact_eq number number' (String.toList_injective texts), rests⟩

theorem determines_string (s : String) : Determines compact marked (.string s) := by
  intro k rest rest' _ _ same
  have kinds := kind_eq_of_append_eq same
  cases k with
  | string t =>
    obtain ⟨texts, rests⟩ := stringText_prefix same
    exact ⟨by rw [texts], rests⟩
  | _ => cases kinds

theorem determines_list {es : List Json} (each : ∀ e ∈ es, Determines compact marked e) :
    Determines compact marked (.list es) := by
  intro k rest rest' _ _ same
  have kinds := kind_eq_of_append_eq same
  cases k with
  | list es' =>
    have opens (e : Json) : ∃ c cs, e.compact.toList = c :: cs ∧ c ≠ ']' := by
      obtain ⟨c, cs, eq, kind⟩ := compact_eq_cons e
      exact ⟨c, cs, eq, by rintro rfl; contradiction⟩
    have inner : (",".intercalate (es.map compact)).toList ++ ']' :: rest =
        (",".intercalate (es'.map compact)).toList ++ ']' :: rest' := by
      simpa [toList_list] using same
    obtain ⟨elements, rests⟩ := intercalate_prefix (.inl rfl) opens each inner
    exact ⟨by rw [marked, marked, elements], rests⟩
  | _ => cases kinds

theorem determines_fieldText {f : String × Json} (value : Determines compact marked f.2) :
    Determines fieldText markedField f := by
  intro g rest rest' ends ends' same
  simp only [fieldText, String.toList_append, List.append_assoc] at same
  obtain ⟨names, behind⟩ := stringText_prefix same
  obtain ⟨values, rests⟩ := value g.2 ends ends' (List.append_cancel_left behind)
  exact ⟨Prod.ext names values, rests⟩

theorem determines_record {fs : List (String × Json)}
    (each : ∀ f ∈ fs, Determines compact marked f.2) : Determines compact marked (.record fs) := by
  intro k rest rest' _ _ same
  have kinds := kind_eq_of_append_eq same
  cases k with
  | record fs' =>
    have opens (f : String × Json) : ∃ c cs, (fieldText f).toList = c :: cs ∧ c ≠ '\x7d' := by
      refine ⟨'"', f.1.toList.flatMap escapeChar ++ '"' :: ':' :: f.2.compact.toList, ?_, by decide⟩
      simp [fieldText, toList_stringText]
    have inner : (",".intercalate (fs.map fieldText)).toList ++ '\x7d' :: rest =
        (",".intercalate (fs'.map fieldText)).toList ++ '\x7d' :: rest' := by
      simpa [toList_record] using same
    have fields f (member : f ∈ fs) := determines_fieldText (each f member)
    obtain ⟨fields, rests⟩ := intercalate_prefix (.inr rfl) opens fields inner
    rw [marked, marked]
    exact ⟨congrArg record fields, rests⟩
  | _ => cases kinds

theorem determines_compact (j : Json) : Determines compact marked j := by
  induction j using parts_induction with
  | int n => exact determines_number rfl
  | float x => exact determines_number rfl
  | string s => exact determines_string s
  | list es each => exact determines_list each
  | record fs each => exact determines_record each

theorem compact_marked (j : Json) : j.marked.compact = j.compact := by
  induction j using parts_induction with
  | int _ | string _ => rw [marked]
  | float x => rw [marked, compact, compact, write_finiteOrNaN]
  | list es ih =>
    have elements : (es.map marked).map compact = es.map compact := by simpa using ih
    rw [marked, ← String.toList_inj, toList_list, toList_list, elements]
  | record fs ih =>
    have fields : (fs.map markedField).map fieldText = fs.map fieldText := by
      simpa [fieldText, markedField] using fun name value member => ih (name, value) member
    rw [marked, ← String.toList_inj, toList_record, toList_record]
    exact congrArg (fun texts => '\x7b' :: ((",".intercalate texts).toList ++ ['\x7d'])) fields

/-- Documents have one compact text exactly when they differ in doubles that are not finite. -/
theorem compact_eq_iff {j k : Json} : j.compact = k.compact ↔ j.marked = k.marked := by
  constructor
  · intro same
    have nothing : Ends [] := by rintro c ⟨⟩
    exact (determines_compact j k nothing nothing (by rw [same])).1
  · intro same
    rw [← compact_marked j, same, compact_marked k]

end Json

end DiceNotation
