import DiceNotation.Token

/-!
Splitting a text into tokens. At each place the longest match of a token's pattern wins, and
what an incomplete tail has read is given back. Blanks separate tokens and belong to none.
-/
namespace DiceNotation

def isBlank (c : Char) : Bool := c = ' ' || c = '\t' || c = '\r' || c = '\n'

/-- The number of ASCII digits that the text starts with. -/
def leadingDigits : List Char → Nat
  | [] => 0
  | c :: cs => if c.isDigit then leadingDigits cs + 1 else 0

theorem leadingDigits_le (cs : List Char) : leadingDigits cs ≤ cs.length := by
  induction cs with
  | nil => exact Nat.le_refl 0
  | cons c cs ih =>
    unfold leadingDigits
    split
    · exact Nat.succ_le_succ ih
    · exact Nat.zero_le _

theorem leadingDigits_take (cs : List Char) : ∀ c ∈ cs.take (leadingDigits cs), c.isDigit := by
  induction cs with
  | nil => intro c h; cases h
  | cons c cs ih =>
    unfold leadingDigits
    split
    next digit =>
      intro d h
      rcases List.mem_cons.1 h with rfl | h
      · exact digit
      · exact ih d h
    next => intro d h; cases h

/-- `k` is the number of digits before `rest`. -/
def numberMatch (k : Nat) (rest : List Char) : Option (TokenKind × Nat) :=
  match rest with
  | 'd' :: faces =>
    if 0 < leadingDigits faces then some (.dice, k + 1 + leadingDigits faces) else whole
  | '.' :: places =>
    if 0 < k && 0 < leadingDigits places then some (.decimal, k + 1 + leadingDigits places)
    else whole
  | _ => whole
where
  whole : Option (TokenKind × Nat) := if 0 < k then some (.integer, k) else none

/-- The kind and the length of the longest token that the text starts with. -/
def longestMatch? (cs : List Char) : Option (TokenKind × Nat) :=
  match cs with
  | '(' :: _ => some (.leftParen, 1)
  | ')' :: _ => some (.rightParen, 1)
  | '+' :: _ => some (.plus, 1)
  | '-' :: _ => some (.minus, 1)
  | '*' :: _ => some (.star, 1)
  | '/' :: _ => some (.slash, 1)
  | '^' :: 'd' :: faces => pair .advantage faces
  | 'v' :: 'd' :: faces => pair .disadvantage faces
  | _ => numberMatch (leadingDigits cs) (cs.drop (leadingDigits cs))
where
  pair (kind : TokenKind) (faces : List Char) : Option (TokenKind × Nat) :=
    if 0 < leadingDigits faces then some (kind, 2 + leadingDigits faces) else none

/-- `covered` characters ahead belong to a token that is already listed. -/
def tokensFrom (position covered : Nat) : List Char → List Token
  | [] => []
  | c :: cs =>
    match covered with
    | covered + 1 => tokensFrom (position + c.utf8Size) covered cs
    | 0 =>
      if isBlank c then tokensFrom (position + c.utf8Size) 0 cs
      else
        match longestMatch? (c :: cs) with
        | some (kind, n) =>
          ⟨kind, (c :: cs).take n, position⟩ :: tokensFrom (position + c.utf8Size) (n - 1) cs
        | none => ⟨.error, [c], position⟩ :: tokensFrom (position + c.utf8Size) 0 cs

/-- Characters that are covered already only move the position. -/
theorem tokensFrom_covered (position n : Nat) (cs : List Char) :
    tokensFrom position n cs = tokensFrom (position + byteCount (cs.take n)) 0 (cs.drop n) := by
  induction cs generalizing position n with
  | nil => cases n <;> rfl
  | cons c cs ih =>
    cases n with
    | zero => rfl
    | succ n =>
      rw [tokensFrom, ih]
      show _ = tokensFrom (position + (c.utf8Size + byteCount (cs.take n))) 0 (cs.drop n)
      rw [Nat.add_assoc]

def tokens (text : String) : List Token := tokensFrom 0 0 text.toList

end DiceNotation
