import DiceNotation.CommandLine

/-!
Lines of an input and what they ask for. An input has one reading as lines, and a line that is not
all white space asks for what is left without the white space at its ends.
-/
namespace DiceNotation

/-- The lines of an input, each with a line feed behind it, which the last may lack. -/
inductive InLines : List Char → List (List Char) → Prop where
  | nil : InLines [] []
  | last {line} : line ≠ [] → '\n' ∉ line → InLines line [line]
  | cons {line rest lines} : '\n' ∉ line → InLines rest lines →
      InLines (line ++ '\n' :: rest) (line :: lines)

/-- The text is the line without the white space at its ends. -/
structure Trimmed (line text : List Char) : Prop where
  inside : ∃ left right, line = left ++ (text ++ right) ∧ (∀ c ∈ left, isWhiteSpace c) ∧
    ∀ c ∈ right, isWhiteSpace c
  first : ∀ c ∈ text.head?, isWhiteSpace c = false
  last : ∀ c ∈ text.getLast?, isWhiteSpace c = false

/-- What a line asks for, if it is not blank. -/
def command? (line : List Char) : Option String :=
  match trim line with
  | [] => none
  | text => some (String.ofList text)

/-- The text that a line asks for, or none. -/
inductive Asks (line : List Char) : Option String → Prop where
  | blank : (∀ c ∈ line, isWhiteSpace c) → Asks line none
  | text {text : String} : text ≠ "" → Trimmed line text.toList → Asks line (some text)

/- Lines. -/

theorem linesFrom_append {line : List Char} (plain : '\n' ∉ line) (read rest : List Char) :
    linesFrom read (line ++ '\n' :: rest) = (read.reverse ++ line) :: linesFrom [] rest := by
  induction line generalizing read with
  | nil => simp [linesFrom]
  | cons c line ih =>
    obtain ⟨other, plain⟩ := List.ne_and_not_mem_of_not_mem_cons plain
    rw [List.cons_append, linesFrom, if_neg other.symm, ih plain]
    simp

theorem linesFrom_last {line : List Char} (plain : '\n' ∉ line) (read : List Char)
    (some : read ≠ [] ∨ line ≠ []) : linesFrom read line = [read.reverse ++ line] := by
  induction line generalizing read with
  | nil => simpa [linesFrom] using some
  | cons c line ih =>
    obtain ⟨other, plain⟩ := List.ne_and_not_mem_of_not_mem_cons plain
    rw [linesFrom, if_neg other.symm, ih plain _ (.inl (List.cons_ne_nil _ _))]
    simp

theorem linesFrom_of_inLines {input : List Char} {ls : List (List Char)} (h : InLines input ls) :
    linesFrom [] input = ls := by
  induction h with
  | nil => rfl
  | last some plain => exact linesFrom_last plain [] (.inr some)
  | cons plain _ ih => rw [linesFrom_append plain, ih]; rfl

theorem exists_inLines (input : List Char) : ∃ ls, InLines input ls := by
  -- A line takes several characters at once, hence the induction on the length.
  induction size : input.length using Nat.strongRecOn generalizing input with
  | ind n ih =>
    by_cases h : '\n' ∈ input
    · obtain ⟨line, rest, rfl, plain⟩ := List.eq_append_cons_of_mem h
      have shorter : rest.length < n := by
        rw [← size, List.length_append, List.length_cons]
        omega
      obtain ⟨ls, inLines⟩ := ih _ shorter rest rfl
      exact ⟨_, .cons plain inLines⟩
    · cases input with
      | nil => exact ⟨[], .nil⟩
      | cons c cs => exact ⟨_, .last (List.cons_ne_nil _ _) h⟩

theorem lines_eq_iff {input : String} {ls : List (List Char)} :
    lines input = ls ↔ InLines input.toList ls := by
  constructor
  · rintro rfl
    obtain ⟨ls, h⟩ := exists_inLines input.toList
    rwa [lines, linesFrom_of_inLines h]
  · exact linesFrom_of_inLines

/- White space at the ends. -/

theorem dropWhile_of_head {p : Char → Bool} {cs : List Char}
    (first : ∀ c ∈ cs.head?, p c = false) : cs.dropWhile p = cs := by
  cases cs with
  | nil => rfl
  | cons c cs => simp [first c rfl]

theorem head_dropWhile (p : Char → Bool) (cs : List Char) :
    ∀ c ∈ (cs.dropWhile p).head?, p c = false := by
  intro c member
  have first := List.head?_dropWhile_not p cs
  rw [member] at first
  exact first

theorem trim_of_trimmed {line text : List Char} (h : Trimmed line text) : trim line = text := by
  obtain ⟨left, right, rfl, white, white'⟩ := h.inside
  have fromRight : ∀ c ∈ right.reverse, isWhiteSpace c := fun c member =>
    white' c (List.mem_reverse.mp member)
  unfold trim
  rw [List.dropWhile_append_of_pos white]
  cases text with
  | nil =>
    have none := @List.dropWhile_append_of_pos _ _ right [] white'
    rw [List.append_nil] at none
    rw [List.nil_append, none]
    rfl
  | cons c cs =>
    have start : ∀ d ∈ (c :: cs ++ right).head?, isWhiteSpace d = false := h.first
    have stop : ∀ d ∈ (c :: cs).reverse.head?, isWhiteSpace d = false := by
      rw [List.head?_reverse]
      exact h.last
    rw [dropWhile_of_head start, List.reverse_append, List.dropWhile_append_of_pos fromRight,
      dropWhile_of_head stop, List.reverse_reverse]

theorem trimmed_trim (line : List Char) : Trimmed line (trim line) := by
  let rest := line.dropWhile isWhiteSpace
  let right := (rest.reverse.takeWhile isWhiteSpace).reverse
  have parts : rest = trim line ++ right := by
    rw [trim, ← List.reverse_append, List.takeWhile_append_dropWhile, List.reverse_reverse]
  have white (cs : List Char) : ∀ c ∈ cs.takeWhile isWhiteSpace, isWhiteSpace c :=
    List.all_eq_true.mp List.all_takeWhile
  constructor
  case inside =>
    refine ⟨line.takeWhile isWhiteSpace, right, ?_, white line, ?_⟩
    · rw [← parts, List.takeWhile_append_dropWhile]
    · exact fun c member => white _ c (List.mem_reverse.mp member)
  case first =>
    intro c member
    have first : c ∈ rest.head? := by
      rw [parts, List.head?_append, Option.mem_def.mp member]
      rfl
    exact head_dropWhile isWhiteSpace line c first
  case last =>
    rw [trim, List.getLast?_reverse]
    exact head_dropWhile isWhiteSpace rest.reverse

theorem trim_eq_iff {line text : List Char} : trim line = text ↔ Trimmed line text :=
  ⟨fun h => h ▸ trimmed_trim line, trim_of_trimmed⟩

theorem trim_eq_nil_iff {line : List Char} : trim line = [] ↔ ∀ c ∈ line, isWhiteSpace c := by
  rw [trim_eq_iff]
  constructor
  · intro h
    obtain ⟨left, right, rfl, white, white'⟩ := h.inside
    exact List.forall_mem_append.mpr ⟨white, white'⟩
  · intro white
    exact ⟨⟨line, [], by simp, white, List.forall_mem_nil _⟩, nofun, nofun⟩

/-- More white space at the ends changes nothing. -/
theorem trim_padded {left right : List Char} (line : List Char)
    (white : ∀ c ∈ left, isWhiteSpace c) (white' : ∀ c ∈ right, isWhiteSpace c) :
    trim (left ++ line ++ right) = trim line := by
  have trimmed := trimmed_trim line
  obtain ⟨before, after, parts, blank, blank'⟩ := trimmed.inside
  rw [trim_eq_iff]
  refine ⟨⟨left ++ before, after ++ right, ?_, ?_, ?_⟩, trimmed.first, trimmed.last⟩
  · conv => lhs; rw [parts]
    simp only [List.append_assoc]
  · exact List.forall_mem_append.mpr ⟨white, blank⟩
  · exact List.forall_mem_append.mpr ⟨blank', white'⟩

theorem command?_eq_none_iff {line : List Char} :
    command? line = none ↔ ∀ c ∈ line, isWhiteSpace c := by
  rw [← trim_eq_nil_iff]
  unfold command?
  split <;> simp_all

theorem asks_command? (line : List Char) : Asks line (command? line) := by
  unfold command?
  split
  · rename_i blank
    exact .blank (trim_eq_nil_iff.mp blank)
  · rename_i some
    refine .text (fun empty => some (String.ofList_eq_empty_iff.mp empty)) ?_
    rw [String.toList_ofList]
    exact trimmed_trim line

theorem command?_padded {left right : List Char} (line : List Char)
    (white : ∀ c ∈ left, isWhiteSpace c) (white' : ∀ c ∈ right, isWhiteSpace c) :
    command? (left ++ line ++ right) = command? line := by
  unfold command?
  rw [trim_padded line white white']

end DiceNotation
