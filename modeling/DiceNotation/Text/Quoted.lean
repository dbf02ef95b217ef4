import DiceNotation.Text.Printable

/-!
Quoted text. What would end the quotation, break the line or stay invisible is escaped, so a
quotation is one line and shows every character of its text.
-/
namespace DiceNotation

def quotedChar (c : Char) : List Char :=
  match c with
  | '"' => ['\\', '"']
  | '\\' => ['\\', '\\']
  | '\t' => ['\\', 't']
  | '\n' => ['\\', 'n']
  | '\r' => ['\\', 'r']
  | '\x00' => ['\\', '0']
  | c =>
    if isPrintable c then [c]
    else '\\' :: 'u' :: '\x7b' :: Nat.toDigits 16 c.toNat ++ ['\x7d']

def quoted (cs : List Char) : List Char := '"' :: cs.flatMap quotedChar ++ ['"']

theorem not_mem_toDigits {b : Nat} (hb : 1 < b) {c : Char} (h : ∀ k < b, k.digitChar ≠ c)
    (n : Nat) : c ∉ Nat.toDigits b n := by
  induction n using Nat.strongRecOn with
  | ind n ih =>
    rw [Nat.toDigits_eq_if hb]
    split
    next small => exact fun m => h n small (List.mem_singleton.1 m).symm
    next large =>
      have pos : 0 < n := by omega
      intro m
      rcases List.mem_append.1 m with m | m
      · exact ih (n / b) (Nat.div_lt_self pos hb) m
      · exact h _ (Nat.mod_lt n (by omega)) (List.mem_singleton.1 m).symm

/-- What a character is quoted as does not break the line. -/
theorem not_mem_quotedChar {b : Char} (hb : b = '\n' ∨ b = '\r') (c : Char) :
    b ∉ quotedChar c := by
  unfold quotedChar
  split
  case h_7 _ _ _ newline return_ _ =>
    split
    next =>
      intro m
      rcases hb with rfl | rfl
      · exact newline (List.mem_singleton.1 m).symm
      · exact return_ (List.mem_singleton.1 m).symm
    next =>
      have digits (n : Nat) : b ∉ Nat.toDigits 16 n := by
        rcases hb with rfl | rfl <;> exact not_mem_toDigits (by decide) (by decide) n
      rcases hb with rfl | rfl <;> simp [digits]
  all_goals rcases hb with rfl | rfl <;> decide

/-- A quotation is one line. -/
theorem not_mem_quoted {b : Char} (hb : b = '\n' ∨ b = '\r') (cs : List Char) : b ∉ quoted cs := by
  unfold quoted
  intro m
  rcases List.mem_append.1 m with m | m
  · rcases List.mem_cons.1 m with m | m
    · rcases hb with rfl | rfl <;> cases m
    · obtain ⟨c, _, m⟩ := List.mem_flatMap.1 m
      exact not_mem_quotedChar hb c m
  · rcases hb with rfl | rfl <;> cases List.mem_singleton.1 m

end DiceNotation
