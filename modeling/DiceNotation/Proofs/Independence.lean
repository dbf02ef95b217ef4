import DiceNotation.Proofs.Resolution

/-!
What chance has no say in. Two evaluations of an expression under one limit, whatever their
rollers and however these stand, are refused for the same roll or agree in their statistics and in
all of their trees but the faces that were drawn.
-/
namespace DiceNotation

/-- Two resolutions of an expression that differ at most in the faces of the dice that it still
had to roll. -/
inductive DifferInFaces {α : Type} : Expression α → Expression α → Expression α → Prop where
  | number (x) : DifferInFaces (.number x) (.number x) (.number x)
  | rolled (count die results) : DifferInFaces (.rolled count die results)
      (.rolled count die results) (.rolled count die results)
  | roll (count die) {faces others : List Int64} : faces.length = count.toInt.natAbs →
      others.length = count.toInt.natAbs → DifferInFaces (.roll count die)
        (.rolled count die faces) (.rolled count die others)
  | advantage (die first second first' second') : DifferInFaces (.advantage die)
      (.rolled 2 die [first, second]) (.rolled 2 die [first', second'])
  | disadvantage (die first second first' second') : DifferInFaces (.disadvantage die)
      (.rolled 2 die [first, second]) (.rolled 2 die [first', second'])
  | math {op l r a b a' b'} : DifferInFaces l a a' → DifferInFaces r b b' →
      DifferInFaces (.math op l r) (.math op a b) (.math op a' b')

/-- Two results of evaluating an expression that tell nothing of the dice but their faces and the
value. -/
inductive Alike {α : Type} (e : Expression α) :
    Except RollError (Outcome α) → Except RollError (Outcome α) → Prop where
  | refused (why) : Alike e (.error why) (.error why)
  | outcome {o p : Outcome α} : o.stats = p.stats →
      DifferInFaces e o.expression p.expression → Alike e (.ok o) (.ok p)

section

variable {α σ τ : Type} [Arithmetic α] [Roller σ] [Roller τ]

theorem alike_roll (count : Int64) (die : Die) (limit : Nat) (s : σ) (t : τ) :
    Alike (.roll count die) ((Expression.roll count die : Expression α).evaluate ⟨limit, s⟩).1
      ((Expression.roll count die : Expression α).evaluate ⟨limit, t⟩).1 := by
  by_cases within : count.toInt.natAbs ≤ limit
  · simp only [Expression.evaluate, roll_of_within within]
    exact .outcome rfl (.roll count die (length_signedFaces count _) (length_signedFaces count _))
  · have many := Nat.lt_of_not_le within
    simp only [Expression.evaluate, roll_of_refused many]
    exact .refused _

/- The dice stay variables here, so that no proof runs a roller to compare the statistics. -/
theorem alike_pair {e : Expression α} {die : Die} (dice dice' : Int64 × Int64)
    (kept kept' : Int64) (stats : Stats α)
    (faces : DifferInFaces e (.rolled 2 die [dice.1, dice.2])
      (.rolled 2 die [dice'.1, dice'.2])) :
    Alike e (.ok (.pair die dice kept stats)) (.ok (.pair die dice' kept' stats)) :=
  .outcome rfl faces

theorem exists_evaluate (e : Expression α) (limit : Nat) (s : σ) :
    ∃ result t, e.evaluate ⟨limit, s⟩ = (result, ⟨limit, t⟩) := by
  have kept := e.limit_evaluate ⟨limit, s⟩
  generalize e.evaluate ⟨limit, s⟩ = evaluated at kept
  obtain ⟨result, _, t⟩ := evaluated
  cases kept
  exact ⟨result, t, rfl⟩

theorem alike_math {op : Operator} {l r : Expression α} {limit : Nat} {s : σ} {t : τ}
    (left : Alike l (l.evaluate ⟨limit, s⟩).1 (l.evaluate ⟨limit, t⟩).1)
    (right : ∀ (s : σ) (t : τ), Alike r (r.evaluate ⟨limit, s⟩).1 (r.evaluate ⟨limit, t⟩).1) :
    Alike (.math op l r) ((Expression.math op l r).evaluate ⟨limit, s⟩).1
      ((Expression.math op l r).evaluate ⟨limit, t⟩).1 := by
  -- The rollers that the left operand leaves differ, and the right one takes over from them.
  obtain ⟨first, s', left_s⟩ := exists_evaluate l limit s
  obtain ⟨second, t', left_t⟩ := exists_evaluate l limit t
  obtain ⟨third, _, right_s⟩ := exists_evaluate r limit s'
  obtain ⟨fourth, _, right_t⟩ := exists_evaluate r limit t'
  have right := right s' t'
  rw [left_s, left_t] at left
  rw [right_s, right_t] at right
  simp only [Expression.evaluate, left_s, left_t]
  cases left with
  | refused why => exact .refused why
  | outcome stats faces =>
    simp only [right_s, right_t]
    cases right with
    | refused why => exact .refused why
    | outcome stats' faces' =>
      refine .outcome ?_ (.math faces faces')
      simp only [Outcome.math, stats, stats']

/-- Chance shows in the faces and the value of an outcome, and nowhere else. -/
theorem evaluate_ignores_chance (e : Expression α) (limit : Nat) (s : σ) (t : τ) :
    Alike e (e.evaluate ⟨limit, s⟩).1 (e.evaluate ⟨limit, t⟩).1 := by
  induction e generalizing s t with
  | number x => exact .outcome rfl (.number x)
  | rolled count die results => exact .outcome rfl (.rolled count die results)
  | roll count die => exact alike_roll count die limit s t
  | advantage die => exact alike_pair _ _ _ _ _ (.advantage die _ _ _ _)
  | disadvantage die => exact alike_pair _ _ _ _ _ (.disadvantage die _ _ _ _)
  | math op l r ihl ihr => exact alike_math (ihl s t) ihr

end

end DiceNotation
