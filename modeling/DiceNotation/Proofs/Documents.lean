import DiceNotation.Outcome.Document
import DiceNotation.Proofs.Indentation

/-!
Outcomes as JSON. The compact text of an outcome determines it, except that the doubles in it
which are not finite are all one. The indented text is the same text with spaces and line breaks.
-/
namespace DiceNotation

namespace Expression

def map {α β : Type} (f : α → β) : Expression α → Expression β
  | number x => .number (f x)
  | roll count die => .roll count die
  | advantage die => .advantage die
  | disadvantage die => .disadvantage die
  | rolled count die results => .rolled count die results
  | math op l r => .math op (l.map f) (r.map f)

theorem toJson_injective {e e' : Expression Float} (same : e.toJson = e'.toJson) : e = e' := by
  induction e generalizing e' with
  | number x =>
    cases e' with
    | number y => simpa [toJson] using same
    | _ => simp [toJson] at same
  | roll count die =>
    cases e' with
    | roll count' die' =>
      have fields : count.toInt = count'.toInt ∧ die.sides = die'.sides := by
        simpa [toJson] using same
      rw [Int64.toInt_inj.mp fields.1, Die.sides_injective fields.2]
    | _ => simp [toJson] at same
  | advantage die =>
    cases e' with
    | advantage die' =>
      have sides : die.sides = die'.sides := by simpa [toJson] using same
      rw [Die.sides_injective sides]
    | _ => simp [toJson] at same
  | disadvantage die =>
    cases e' with
    | disadvantage die' =>
      have sides : die.sides = die'.sides := by simpa [toJson] using same
      rw [Die.sides_injective sides]
    | _ => simp [toJson] at same
  | rolled count die results =>
    cases e' with
    | rolled count' die' results' =>
      have fields : count.toInt = count'.toInt ∧ die.sides = die'.sides ∧
          (results.map fun r => Json.int r.toInt) = results'.map fun r => Json.int r.toInt := by
        simpa [toJson] using same
      have face_injective : Function.Injective fun r : Int64 => Json.int r.toInt :=
        fun _ _ h => Int64.toInt_inj.mp (Json.int.inj h)
      rw [Int64.toInt_inj.mp fields.1, Die.sides_injective fields.2.1,
        List.map_injective_iff.mpr face_injective fields.2.2]
    | _ => simp [toJson] at same
  | math op l r ihl ihr =>
    cases e' with
    | math op' l' r' =>
      have fields : op.text = op'.text ∧ l.toJson = l'.toJson ∧ r.toJson = r'.toJson := by
        simpa [toJson] using same
      rw [Operator.text_injective fields.1, ihl fields.2.1, ihr fields.2.2]
    | _ => simp [toJson] at same

theorem marked_toJson (e : Expression Float) : e.toJson.marked = (e.map finiteOrNaN).toJson := by
  induction e with
  | math op l r ihl ihr => simp [toJson, Json.marked, map, ihl, ihr]
  | _ => simp [toJson, Json.marked, map]

theorem tight_toJson (e : Expression Float) : e.toJson.Tight := by
  induction e with
  | number x =>
    refine Json.tight_record ?_
    simp [Json.tight_float, Json.tight_string]
  | rolled count die results =>
    have faces : (Json.list (results.map fun r => .int r.toInt)).Tight :=
      Json.tight_list (by simp [Json.tight_int])
    refine Json.tight_record ?_
    simp [Json.tight_int, Json.tight_string, faces]
  | math op l r ihl ihr =>
    have symbol : (Json.string op.text).Tight := Json.tight_string (by cases op <;> decide)
    refine Json.tight_record ?_
    simp [Json.tight_string, symbol, ihl, ihr]
  | _ =>
    refine Json.tight_record ?_
    simp [Json.tight_int, Json.tight_string]

end Expression

namespace Stats

def map {α β : Type} (f : α → β) (s : Stats α) : Stats β := ⟨f s.min, f s.max, f s.avg⟩

theorem toJson_injective {s s' : Stats Float} (same : s.toJson = s'.toJson) : s = s' := by
  obtain ⟨min, max, avg⟩ := s
  obtain ⟨min', max', avg'⟩ := s'
  simpa [toJson] using same

theorem marked_toJson (s : Stats Float) : s.toJson.marked = (s.map finiteOrNaN).toJson := by
  simp [toJson, Json.marked, map]

theorem tight_toJson (s : Stats Float) : s.toJson.Tight := by
  refine Json.tight_record ?_
  simp [Json.tight_float]

end Stats

namespace Outcome

def map {α β : Type} (f : α → β) (o : Outcome α) : Outcome β :=
  ⟨o.expression.map f, f o.value, o.stats.map f⟩

theorem toJson_injective {o o' : Outcome Float} (same : o.toJson = o'.toJson) : o = o' := by
  obtain ⟨expression, value, stats⟩ := o
  obtain ⟨expression', value', stats'⟩ := o'
  have fields : expression.toJson = expression'.toJson ∧ value = value' ∧
      stats.toJson = stats'.toJson := by
    simpa [toJson] using same
  rw [Expression.toJson_injective fields.1, fields.2.1, Stats.toJson_injective fields.2.2]

theorem marked_toJson (o : Outcome Float) : o.toJson.marked = (o.map finiteOrNaN).toJson := by
  simp [toJson, Json.marked, map, Expression.marked_toJson, Stats.marked_toJson]

theorem tight_toJson (o : Outcome Float) : o.toJson.Tight := by
  refine Json.tight_record ?_
  simp [Json.tight_float, Expression.tight_toJson, Stats.tight_toJson]

/-- Two outcomes have one compact text exactly when they are the same up to the doubles in them
that are not finite; without its spaces and line breaks the indented text is the compact one. -/
theorem json_determines_outcome (o o' : Outcome Float) :
    (o.toJson.compact = o'.toJson.compact ↔ o.map finiteOrNaN = o'.map finiteOrNaN) ∧
      unspaced o.toJson.pretty = o.toJson.compact := by
  refine ⟨?_, (Json.unspaced_indented o.toJson 0).trans o.tight_toJson⟩
  rw [Json.compact_eq_iff, marked_toJson, marked_toJson]
  exact ⟨toJson_injective, congrArg toJson⟩

end Outcome

end DiceNotation
