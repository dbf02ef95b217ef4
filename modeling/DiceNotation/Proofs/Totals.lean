import DiceNotation.Proofs.Resolution
import DiceNotation.Roller.Scripted

/-!
Sums of results in 64-bit words. A sum is exact as long as no partial sum leaves the word, which
holds of every hand within a limit of `2 ^ 31` dice. Up to that limit an outcome is exact.
-/
namespace DiceNotation

def exactTotal (results : List Int64) : Int := results.foldl (fun n result => n + result.toInt) 0

/-- No partial sum leaves the word. -/
def SumsFit (results : List Int64) : Prop :=
  ∀ part, part <+: results →
    Int64.minValue.toInt ≤ exactTotal part ∧ exactTotal part ≤ Int64.maxValue.toInt

/-- The results that an expression already holds can be added up. -/
def Expression.TotalsFit {α : Type} : Expression α → Prop
  | rolled _ _ results => SumsFit results
  | number _ | roll .. | advantage _ | disadvantage _ => True
  | math _ l r => l.TotalsFit ∧ r.TotalsFit

theorem foldl_toInt (results : List Int64) (n : Int) :
    results.foldl (fun n result => n + result.toInt) n = n + exactTotal results := by
  unfold exactTotal
  induction results generalizing n with
  | nil => simp
  | cons result results ih =>
    simp only [List.foldl_cons]
    rw [ih, ih (0 + result.toInt)]
    omega

theorem exactTotal_cons (result : Int64) (results : List Int64) :
    exactTotal (result :: results) = result.toInt + exactTotal results := by
  have h := foldl_toInt results (0 + result.toInt)
  simpa [exactTotal] using h

/-- Words drop whole turns of `2 ^ 64` on the way, so it is as if the exact sum drops them at the
end. -/
theorem toInt_foldl (results : List Int64) (start : Int64) :
    (results.foldl (· + ·) start).toInt = (start.toInt + exactTotal results).bmod Int64.size := by
  induction results generalizing start with
  | nil => simp [exactTotal]
  | cons result results ih =>
    have added : (start + result).toInt = (start.toInt + result.toInt).bmod Int64.size :=
      Int64.toInt_add start result
    rw [List.foldl_cons, ih, added, Int.bmod_add_bmod, exactTotal_cons, Int.add_assoc]

theorem wordTotal_eq (results : List Int64) :
    wordTotal results = (exactTotal results).bmod Int64.size := by
  have sum := toInt_foldl results 0
  rwa [Int64.toInt_zero, Int.zero_add] at sum

theorem wordTotal_of_sumsFit {results : List Int64} (fits : SumsFit results) :
    wordTotal results = exactTotal results := by
  have low : Int64.minValue.toInt = -0x8000000000000000 := rfl
  have high : Int64.maxValue.toInt = 0x7fffffffffffffff := rfl
  have size : (Int64.size : Int) = 0x10000000000000000 := rfl
  have bounds := fits results List.prefix_rfl
  rw [wordTotal_eq]
  apply Int.bmod_eq_of_le <;> omega

theorem natAbs_exactTotal_le {bound : Nat} (results : List Int64)
    (small : ∀ result ∈ results, result.toInt.natAbs ≤ bound) :
    (exactTotal results).natAbs ≤ results.length * bound := by
  induction results with
  | nil => simp [exactTotal]
  | cons result results ih =>
    have first := small result List.mem_cons_self
    have rest := ih fun result member => small result (List.mem_cons_of_mem _ member)
    simp only [exactTotal_cons, List.length_cons, Nat.succ_mul]
    omega

theorem sumsFit_of_natAbs_le (bound : Nat) {results : List Int64}
    (small : ∀ result ∈ results, result.toInt.natAbs ≤ bound)
    (few : results.length * bound < 0x8000000000000000) : SumsFit results := by
  intro part initial
  have low : Int64.minValue.toInt = -0x8000000000000000 := rfl
  have high : Int64.maxValue.toInt = 0x7fffffffffffffff := rfl
  have sum := natAbs_exactTotal_le part fun result member => small result (initial.subset member)
  have shorter := Nat.mul_le_mul_right bound initial.length_le
  omega

theorem exactTotal_bounds (low high : Int) (results : List Int64)
    (each : ∀ result ∈ results, low ≤ result.toInt ∧ result.toInt ≤ high) :
    results.length * low ≤ exactTotal results ∧ exactTotal results ≤ results.length * high := by
  induction results with
  | nil => simp [exactTotal]
  | cons result results ih =>
    have first := each result List.mem_cons_self
    have rest := ih fun result member => each result (List.mem_cons_of_mem _ member)
    simp only [exactTotal_cons, List.length_cons, Int.natCast_succ, Int.add_mul, Int.one_mul]
    omega

theorem toInt_signed (count : Int64) {die : Die} (face : Face die) :
    (Int64.ofInt (if count.toInt < 0 then -face.pips else face.pips)).toInt =
      if count.toInt < 0 then -(face.pips : Int) else face.pips := by
  have sides := die.lt
  have pips := face.le
  unfold UInt32.size at sides
  have low : Int64.minValue.toInt = -0x8000000000000000 := rfl
  have high : Int64.maxValue.toInt = 0x7fffffffffffffff := rfl
  split <;> rw [Int64.toInt_ofInt_of_le] <;> omega

/-- Whatever its dice show, their total stays within the word. -/
def DiceLeaf.FitsWord : DiceLeaf → Prop
  | roll count die => Int64.minValue.toInt ≤ count.toInt * die.sides ∧
      count.toInt * die.sides ≤ Int64.maxValue.toInt
  | advantage _ | disadvantage _ => True

theorem natAbs_count_mul_sides_le {limit : Nat} {count : Int64}
    (within : count.toInt.natAbs ≤ limit) (die : Die) :
    (count.toInt * die.sides).natAbs ≤ limit * 0xffffffff := by
  have sides := die.lt
  unfold UInt32.size at sides
  rw [Int.natAbs_mul, Int.natAbs_natCast]
  exact Nat.mul_le_mul within (by omega)

/-- Half of `2 ^ 32` dice of fewer than `2 ^ 32` sides stay below `2 ^ 63`. -/
theorem DiceLeaf.fitsWord_of_within {limit : Nat} (small : limit ≤ 0x80000000) {leaf : DiceLeaf}
    (within : leaf.Within limit) : leaf.FitsWord := by
  cases leaf with
  | roll count die =>
    have product := natAbs_count_mul_sides_le within die
    have low : Int64.minValue.toInt = -0x8000000000000000 := rfl
    have high : Int64.maxValue.toInt = 0x7fffffffffffffff := rfl
    exact ⟨by omega, by omega⟩
  | advantage die => trivial
  | disadvantage die => trivial

theorem sumsFit_signedFaces {count : Int64} {die : Die} (hand : Hand die count.toInt.natAbs)
    (fits : (DiceLeaf.roll count die).FitsWord) : SumsFit (signedFaces count hand.faces) := by
  intro part initial
  obtain ⟨low, high⟩ := fits
  have bottom : Int64.minValue.toInt ≤ 0 := by decide
  have top : 0 ≤ Int64.maxValue.toInt := by decide
  have shorter : part.length ≤ count.toInt.natAbs := by
    simpa [signedFaces, hand.size] using initial.length_le
  have scaled : (part.length : Int) * die.sides ≤ count.toInt.natAbs * die.sides :=
    Int.mul_le_mul_of_nonneg_right (by omega) (by omega)
  have face {result : Int64} (member : result ∈ part) : ∃ face : Face die,
      result.toInt = if count.toInt < 0 then -(face.pips : Int) else face.pips := by
    obtain ⟨face, _, rfl⟩ := List.mem_map.mp (initial.subset member)
    exact ⟨face, toInt_signed count face⟩
  -- All results have the sign of the count, so the last sum is the farthest from zero.
  by_cases negative : count.toInt < 0
  · have size : (count.toInt.natAbs : Int) = -count.toInt := by omega
    have sums := exactTotal_bounds (-die.sides) 0 part fun r member => by
      obtain ⟨face, value⟩ := face member
      have pips := face.le
      rw [if_pos negative] at value
      omega
    rw [size, Int.neg_mul] at scaled
    rw [Int.mul_neg] at sums
    omega
  · have size : (count.toInt.natAbs : Int) = count.toInt := by omega
    have sums := exactTotal_bounds 0 die.sides part fun r member => by
      obtain ⟨face, value⟩ := face member
      have pips := face.le
      rw [if_neg negative] at value
      omega
    rw [size] at scaled
    omega

theorem sumsFit_pair {die : Die} (first second : Face die) :
    SumsFit [first.toInt64, second.toInt64] := by
  have small (face : Face die) : face.toInt64.toInt.natAbs ≤ 0xffffffff := by
    have sides := die.lt
    have pips := face.le
    unfold UInt32.size at sides
    rw [Face.toInt_toInt64]
    omega
  apply sumsFit_of_natAbs_le 0xffffffff
  · exact List.forall_mem_cons.mpr ⟨small first, List.forall_mem_singleton.mpr (small second)⟩
  · show 2 * 0xffffffff < 0x8000000000000000
    decide

theorem Resolves.totalsFit {α : Type} [Arithmetic α] {sum : List Int64 → Int}
    {e e' : Expression α} {draws : List Draw} {x : α} (resolved : Resolves sum e draws e' x)
    (fits : ∀ leaf ∈ e.diceLeaves, leaf.FitsWord) (held : e.TotalsFit) : e'.TotalsFit := by
  induction resolved with
  | number x => trivial
  | rolled count die results => exact held
  | roll count die hand => exact sumsFit_signedFaces hand (fits _ List.mem_cons_self)
  | advantage first second => exact sumsFit_pair first second
  | disadvantage first second => exact sumsFit_pair first second
  | math _ _ ihl ihr =>
    obtain ⟨left, right⟩ := List.forall_mem_append.mp fits
    exact ⟨ihl left held.1, ihr right held.2⟩

theorem Resolves.exact_of_totalsFit {α : Type} [Arithmetic α] {e e' : Expression α}
    {draws : List Draw} {x : α} (resolved : Resolves wordTotal e draws e' x)
    (fits : e'.TotalsFit) : Resolves exactTotal e draws e' x := by
  induction resolved with
  | number x => exact .number x
  | rolled count die results =>
    rw [wordTotal_of_sumsFit fits]
    exact .rolled count die results
  | roll count die hand =>
    rw [wordTotal_of_sumsFit fits]
    exact .roll count die hand
  | advantage first second => exact .advantage first second
  | disadvantage first second => exact .disadvantage first second
  | math _ _ ihl ihr => exact .math (ihl fits.1) (ihr fits.2)

theorem Resolves.exact_of_fits {α : Type} [Arithmetic α] {e e' : Expression α}
    {draws : List Draw} {x : α} (resolved : Resolves wordTotal e draws e' x)
    (fits : ∀ leaf ∈ e.diceLeaves, leaf.FitsWord) (held : e.TotalsFit) :
    Resolves exactTotal e draws e' x :=
  resolved.exact_of_totalsFit (resolved.totalsFit fits held)

theorem Resolves.exact {α : Type} [Arithmetic α] {limit : Nat} {e e' : Expression α}
    {draws : List Draw} {x : α} (resolved : Resolves wordTotal e draws e' x)
    (small : limit ≤ 0x80000000) (within : ∀ leaf ∈ e.diceLeaves, leaf.Within limit)
    (fits : e.TotalsFit) : Resolves exactTotal e draws e' x :=
  resolved.exact_of_fits
    (fun leaf member => DiceLeaf.fitsWord_of_within small (within leaf member)) fits

/-- Evaluation succeeds exactly when no roll is over the limit. It then asks its roller for the
dice of each leaf once, from left to right, and for nothing else; the draws resolve the
expression and give its value. -/
theorem Expression.evaluate_resolves {α σ : Type} [Arithmetic α] [Roller σ] (e : Expression α)
    (limit : Nat) (s : σ) (small : limit ≤ 0x80000000) (fits : e.TotalsFit) :
    ((∃ o t, e.evaluate ⟨limit, s⟩ = (.ok o, t)) ↔
      ∀ leaf ∈ e.diceLeaves, leaf.Within limit) ∧
    ∀ o t, e.evaluate ⟨limit, s⟩ = (.ok o, t) → ∃ draws,
      e.evaluate (⟨limit, ⟨s, []⟩⟩ : Session (Recorder σ)) =
        (.ok o, ⟨limit, ⟨t.roller, draws⟩⟩) ∧
      draws.map Draw.request = e.diceLeaves.map DiceLeaf.request ∧
      Resolves exactTotal e draws o.expression o.value := by
  have succeeds : (∃ o t, e.evaluate ⟨limit, s⟩ = (.ok o, t)) ↔
      ∀ leaf ∈ e.diceLeaves, leaf.Within limit := evaluate_eq_ok_iff e s
  refine ⟨succeeds, ?_⟩
  intro o t evaluated
  have within := succeeds.mp ⟨o, t, evaluated⟩
  obtain ⟨o', draws, plain, recorded, requests, resolved⟩ := evaluate_of_within e within s []
  obtain ⟨rfl, rfl⟩ : o = o' ∧ t = _ := by simpa using evaluated.symm.trans plain
  exact ⟨draws, recorded, requests, resolved.exact small within fits⟩

/-- `-2d6 - ^d20 * [5]`, where the last leaf holds one face of a `d6`. -/
def sampleExpression : Expression Float :=
  .math .sub (.roll (-2) ⟨6, by decide, by decide⟩)
    (.math .mul (.advantage ⟨20, by decide, by decide⟩)
      (.rolled 1 ⟨6, by decide, by decide⟩ [5]))

theorem sampleExpression_resolves : ∃ o t draws,
    sampleExpression.evaluate (⟨2, ⟨4, 1⟩⟩ : Session SteppedDice) = (.ok o, t) ∧
      draws.map Draw.request =
        [.hand 2 ⟨6, by decide, by decide⟩, .pair ⟨20, by decide, by decide⟩] ∧
      Resolves exactTotal sampleExpression draws o.expression o.value := by
  have fits : sampleExpression.TotalsFit :=
    ⟨trivial, trivial,
      sumsFit_of_natAbs_le 5 (List.forall_mem_singleton.mpr (by decide)) (by decide)⟩
  have both := sampleExpression.evaluate_resolves 2 (⟨4, 1⟩ : SteppedDice) (by decide) fits
  obtain ⟨o, t, evaluated⟩ := both.1.mpr (by decide)
  obtain ⟨draws, _, requests, resolved⟩ := both.2 o t evaluated
  exact ⟨o, t, draws, evaluated, requests, resolved⟩

end DiceNotation
