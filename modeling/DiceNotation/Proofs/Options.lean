import DiceNotation.CommandLine

/-!
Options before an expression. A seed in digits is read back, and arguments that hold no
expression yet take the one behind a `--`, whatever their spelling and order.
-/
namespace DiceNotation.Arguments

/-- A seed and a format in their plain spelling. -/
def options (format : ReplyFormat) (seed : UInt64) : List String :=
  "--seed" :: toString seed.toNat :: match format with
    | .line => []
    | .json => ["--json"]

/-- The arguments set the seed and the format and hold no expression; what comes behind them can
still be one. -/
def Sets (arguments : List String) (format : ReplyFormat) (seed : UInt64) : Prop :=
  "--" ∉ arguments ∧ read? {} arguments = some ⟨none, format, some seed⟩

theorem readSeed?_toDigits (seed : UInt64) :
    readSeed? (Nat.toDigits 10 seed.toNat) = some seed := by
  have digits : ∀ c ∈ Nat.toDigits 10 seed.toNat, c.isDigit := fun c member =>
    Nat.isDigit_of_mem_toDigits (by decide) (by decide) member
  have small : seed.toNat < UInt64.size := seed.toNat_lt
  unfold readSeed?
  split
  · rename_i signed
    exact absurd (digits '+' (signed ▸ List.mem_cons_self)) (by decide)
  · simp [readSeed?.ofDigits?, Nat.ofDigitChars_ten_toDigits, small, Nat.toDigits_ne_nil]
    exact digits

theorem isOption_toDigits (n : Nat) : isOption (Nat.toDigits 10 n) = false := by
  unfold isOption
  split
  · rename_i hyphen
    exact absurd (Nat.isDigit_of_mem_toDigits (by decide) (by decide)
      (hyphen ▸ List.mem_cons_self)) (by decide)
  · rfl

theorem sets_options (format : ReplyFormat) (seed : UInt64) :
    Sets (options format seed) format seed := by
  have option := isOption_toDigits seed.toNat
  have value := readSeed?_toDigits seed
  have text : seed.toNat.repr.toList = Nat.toDigits 10 seed.toNat := Nat.toList_repr
  constructor
  · have other : "--" ≠ seed.toNat.repr := by
      intro same
      rw [← text, ← same] at option
      exact absurd option (by decide)
    cases format <;> simp [options, other]
  · cases format <;> simp [options, read?, option, addSeed, value, addJson]

theorem read?_cons {a : Arguments} {first : String} (texts : List String) (noEnd : first ≠ "--")
    (noJson : first ≠ "--json") (noSeed : first ≠ "--seed") :
    a.read? (first :: texts) = match "--seed=".toList.isPrefixOf? first.toList with
      | some value => (a.addSeed value).bind fun a => a.read? texts
      | none =>
        if isOption first.toList then none
        else (a.addExpression first).bind fun a => a.read? texts := by
  rw [read?]
  · rfl
  · exact noEnd
  · exact noJson
  · exact fun _ _ same _ => noSeed same

/-- An expression behind the mark is taken as one, whatever stands before. -/
theorem read?_behind {a b : Arguments} {arguments : List String} (text : String)
    (noMark : "--" ∉ arguments) (h : a.read? arguments = some b) :
    a.read? (arguments ++ ["--", text]) = b.addExpression text := by
  fun_induction a.read? arguments generalizing b with
  | case1 a =>
    cases h
    simp [read?, addAll]
  | case2 a texts => simp at noMark
  | case3 a texts ih =>
    obtain ⟨next, added, rest⟩ := Option.bind_eq_some_iff.mp h
    simp only [List.cons_append, read?, added, Option.bind_eq_bind, Option.bind_some]
    exact ih next (List.not_mem_of_not_mem_cons noMark) rest
  | case4 a value texts _ => simp at h
  | case5 a value texts plain ih =>
    obtain ⟨next, added, rest⟩ := Option.bind_eq_some_iff.mp h
    have noMark := List.not_mem_of_not_mem_cons (List.not_mem_of_not_mem_cons noMark)
    simp only [List.cons_append, read?, if_neg plain, added, Option.bind_eq_bind,
      Option.bind_some]
    exact ih next noMark rest
  | case6 a first texts noEnd noJson noSeed value found ih =>
    obtain ⟨next, added, rest⟩ := Option.bind_eq_some_iff.mp h
    have other : first ≠ "--seed" := by
      rintro rfl
      have none : "--seed=".toList.isPrefixOf? "--seed".toList = none := by decide
      cases none.symm.trans found
    rw [List.cons_append, read?_cons _ noEnd noJson other]
    simp only [found, added, Option.bind_some]
    exact ih next (List.not_mem_of_not_mem_cons noMark) rest
  | case7 a first texts noEnd noJson noSeed found option => simp at h
  | case8 a first texts noEnd noJson noSeed found plain ih =>
    obtain ⟨next, added, rest⟩ := Option.bind_eq_some_iff.mp h
    have other : first ≠ "--seed" := by
      rintro rfl
      exact plain (by decide)
    rw [List.cons_append, read?_cons _ noEnd noJson other]
    simp only [found, if_neg plain, added, Option.bind_some]
    exact ih next (List.not_mem_of_not_mem_cons noMark) rest

end DiceNotation.Arguments
