import DiceNotation.Proofs.DiceLeaves

/-!
What evaluation asks of its roller and what it makes of the answers. A recorder stands in front
of a roller and keeps every request with its answer. The outcome of an expression is then a
function of these draws: its dice leaves are replaced, from left to right, by what was drawn for
them, and its value is the fold of the operators over the leaves.
-/
namespace DiceNotation

open Arithmetic (ofInt)

inductive Request where
  | die (die : Die)
  | hand (count : Nat) (die : Die)
  | pair (die : Die)
  deriving DecidableEq

inductive Draw where
  | die {die : Die} (face : Face die)
  | hand {count : Nat} {die : Die} (hand : Hand die count)
  | pair {die : Die} (first second : Face die)

def Draw.request : Draw → Request
  | @die d _ => .die d
  | @hand count d _ => .hand count d
  | @pair d _ _ => .pair d

/-- A roller and all its draws so far, the latest last. -/
structure Recorder (σ : Type) where
  roller : σ
  draws : List Draw

namespace Recorder

variable {σ : Type} [Roller σ]

def roll (die : Die) (s : Recorder σ) : Face die × Recorder σ :=
  let (face, roller) := Roller.roll die s.roller
  (face, ⟨roller, s.draws ++ [.die face]⟩)

def rollHand (count : Nat) (die : Die) (s : Recorder σ) : Hand die count × Recorder σ :=
  let (hand, roller) := Roller.rollHand count die s.roller
  (hand, ⟨roller, s.draws ++ [.hand hand]⟩)

def rollPair (die : Die) (s : Recorder σ) : (Face die × Face die) × Recorder σ :=
  let ((first, second), roller) := Roller.rollPair die s.roller
  ((first, second), ⟨roller, s.draws ++ [.pair first second]⟩)

instance : Roller (Recorder σ) where
  roll := roll
  rollHand := rollHand
  rollPair := rollPair

end Recorder

def DiceLeaf.request : DiceLeaf → Request
  | roll count die => .hand count.toInt.natAbs die
  | advantage die | disadvantage die => .pair die

def signedFaces (count : Int64) {die : Die} (faces : List (Face die)) : List Int64 :=
  faces.map fun face => Int64.ofInt (if count.toInt < 0 then -face.pips else face.pips)

/-- With these draws the expression resolves to another one and has a value. `sum` adds results
up. -/
inductive Resolves {α : Type} [Arithmetic α] (sum : List Int64 → Int) :
    Expression α → List Draw → Expression α → α → Prop where
  | number (x) : Resolves sum (.number x) [] (.number x) x
  | rolled (count die results) : Resolves sum (.rolled count die results) []
      (.rolled count die results) (ofInt (sum results))
  | roll (count die) (hand : Hand die count.toInt.natAbs) :
      Resolves sum (.roll count die) [.hand hand]
        (.rolled count die (signedFaces count hand.faces))
        (ofInt (sum (signedFaces count hand.faces)))
  | advantage {die} (first second : Face die) : Resolves sum (.advantage die)
      [.pair first second] (.rolled 2 die [first.toInt64, second.toInt64])
      (ofInt (max first.pips second.pips))
  | disadvantage {die} (first second : Face die) : Resolves sum (.disadvantage die)
      [.pair first second] (.rolled 2 die [first.toInt64, second.toInt64])
      (ofInt (min first.pips second.pips))
  | math {op l r ds ds' l' r' x y} : Resolves sum l ds l' x → Resolves sum r ds' r' y →
      Resolves sum (.math op l r) (ds ++ ds') (.math op l' r') (op.apply x y)

theorem Resolves.length_eq {α : Type} [Arithmetic α] {sum : List Int64 → Int}
    {e e' : Expression α} {draws : List Draw} {x : α} (resolved : Resolves sum e draws e' x) :
    draws.length = e.diceLeaves.length := by
  induction resolved with
  | math _ _ ihl ihr => simp [Expression.diceLeaves, ihl, ihr]
  | _ => rfl

theorem Resolves.unique {α : Type} [Arithmetic α] {sum : List Int64 → Int}
    {e e₁ e₂ : Expression α} {draws : List Draw} {x₁ x₂ : α}
    (first : Resolves sum e draws e₁ x₁) (second : Resolves sum e draws e₂ x₂) :
    e₁ = e₂ ∧ x₁ = x₂ := by
  induction first generalizing e₂ x₂ with
  | @math op l r ds ds' l' r' x y left right ihl ihr =>
    generalize same : ds ++ ds' = draws at second
    cases second with
    | @math _ _ _ es es' l'' r'' x' y' left' right' =>
      have length : ds.length = es.length := left.length_eq.trans left'.length_eq.symm
      obtain ⟨rfl, rfl⟩ := List.append_inj same length
      obtain ⟨rfl, rfl⟩ := ihl left'
      obtain ⟨rfl, rfl⟩ := ihr right'
      exact ⟨rfl, rfl⟩
  | _ => cases second; exact ⟨rfl, rfl⟩

/-- The sum in words of 64 bits, as evaluation adds it up. -/
def wordTotal (results : List Int64) : Int := (total results).toInt

theorem toInt_neg_iff {count : Int64} : count < 0 ↔ count.toInt < 0 := by
  rw [Int64.lt_iff_toInt_lt]
  rfl

theorem signedFaces_eq (count : Int64) {die : Die} (faces : List (Face die)) :
    signedFaces count faces =
      if count < 0 then (faces.map Face.toInt64).map (-·) else faces.map Face.toInt64 := by
  unfold signedFaces
  by_cases negative : count.toInt < 0
  · rw [if_pos (toInt_neg_iff.mpr negative), List.map_map]
    apply List.map_congr_left
    intro face _
    rw [if_pos negative]
    exact Int64.neg_ofNat.symm
  · rw [if_neg fun h => negative (toInt_neg_iff.mp h)]
    apply List.map_congr_left
    intro face _
    rw [if_neg negative]
    exact Int64.ofInt_eq_ofNat

theorem length_signedFaces (count : Int64) {die : Die} (hand : Hand die count.toInt.natAbs) :
    (signedFaces count hand.faces).length = count.toInt.natAbs := by
  rw [signedFaces, List.length_map, hand.size]

theorem Face.toInt_toInt64 {die : Die} (face : Face die) : face.toInt64.toInt = face.pips := by
  have sides := die.lt
  have pips := face.le
  apply Int64.toInt_ofNat_of_lt
  unfold UInt32.size at sides
  omega

theorem toInt_max (x y : Int64) : (max x y).toInt = max x.toInt y.toInt := by
  show (if x ≤ y then y else x).toInt = _
  split
  · rename_i h
    exact (Int.max_eq_right (Int64.le_iff_toInt_le.mp h)).symm
  · rename_i h
    rw [Int64.le_iff_toInt_le] at h
    exact (Int.max_eq_left (by omega)).symm

theorem toInt_min (x y : Int64) : (min x y).toInt = min x.toInt y.toInt := by
  show (if x ≤ y then x else y).toInt = _
  split
  · rename_i h
    exact (Int.min_eq_left (Int64.le_iff_toInt_le.mp h)).symm
  · rename_i h
    rw [Int64.le_iff_toInt_le] at h
    exact (Int.min_eq_right (by omega)).symm

section

variable {α σ : Type} [Arithmetic α] [Roller σ]

theorem serveAll_recorder (leaves : List DiceLeaf) (s : σ) (log : List Draw) :
    ∃ draws, DiceLeaf.serveAll leaves (⟨s, log⟩ : Recorder σ) =
      ⟨DiceLeaf.serveAll leaves s, log ++ draws⟩ ∧
        draws.map Draw.request = leaves.map DiceLeaf.request := by
  induction leaves generalizing s log with
  | nil => exact ⟨[], by simp, rfl⟩
  | cons leaf leaves ih =>
    obtain ⟨draw, served, request⟩ : ∃ draw, leaf.serve (⟨s, log⟩ : Recorder σ) =
        ⟨leaf.serve s, log ++ [draw]⟩ ∧ draw.request = leaf.request := by
      cases leaf <;> exact ⟨_, rfl, rfl⟩
    obtain ⟨draws, all, requests⟩ := ih (leaf.serve s) (log ++ [draw])
    refine ⟨draw :: draws, ?_, by simp [request, requests]⟩
    simp [served, all]

theorem roll_of_within {limit : Nat} {count : Int64} (within : count.toInt.natAbs ≤ limit)
    (die : Die) (s : σ) :
    (⟨limit, s⟩ : Session σ).roll count die =
      (.ok (signedFaces count (Roller.rollHand count.toInt.natAbs die s).1.faces),
        ⟨limit, (Roller.rollHand count.toInt.natAbs die s).2⟩) := by
  unfold Session.roll
  dsimp only
  rw [if_neg (Nat.not_lt.mpr within), signedFaces_eq]

theorem Expression.evaluate_roll {s t : Session σ} {count : Int64} {die : Die}
    {results : List Int64} (rolled : s.roll count die = (.ok results, t)) :
    (roll count die : Expression α).evaluate s =
      (.ok (.rolled count die results (.dice count die)), t) := by
  simp only [evaluate, rolled]

theorem Expression.evaluate_math {op : Operator} {l r : Expression α} {s t u : Session σ}
    {a b : Outcome α} (left : l.evaluate s = (.ok a, t)) (right : r.evaluate t = (.ok b, u)) :
    (math op l r).evaluate s = (.ok (.math op a b), u) := by
  simp only [evaluate, left, right]

/-- Within the limit evaluation serves all dice leaves and resolves the expression by what it
draws; a recorder in front of the roller changes nothing. -/
theorem evaluate_of_within {limit : Nat} (e : Expression α)
    (within : ∀ leaf ∈ e.diceLeaves, leaf.Within limit) (s : σ) (log : List Draw) :
    ∃ o draws, e.evaluate ⟨limit, s⟩ = (.ok o, ⟨limit, DiceLeaf.serveAll e.diceLeaves s⟩) ∧
      e.evaluate (⟨limit, ⟨s, log⟩⟩ : Session (Recorder σ)) =
        (.ok o, ⟨limit, ⟨DiceLeaf.serveAll e.diceLeaves s, log ++ draws⟩⟩) ∧
      draws.map Draw.request = e.diceLeaves.map DiceLeaf.request ∧
      Resolves wordTotal e draws o.expression o.value := by
  induction e generalizing s log with
  | number x =>
    refine ⟨_, [], rfl, ?_, rfl, .number x⟩
    simp [Expression.evaluate, Expression.diceLeaves]
  | rolled count die results =>
    refine ⟨_, [], rfl, ?_, rfl, .rolled count die results⟩
    simp [Expression.evaluate, Expression.diceLeaves]
  | roll count die =>
    have fits : count.toInt.natAbs ≤ limit := within _ List.mem_cons_self
    let hand := (Roller.rollHand count.toInt.natAbs die s).1
    exact ⟨.rolled count die (signedFaces count hand.faces) (.dice count die), [.hand hand],
      Expression.evaluate_roll (roll_of_within fits die s),
      Expression.evaluate_roll (roll_of_within fits die (⟨s, log⟩ : Recorder σ)), rfl,
      .roll count die hand⟩
  | advantage die =>
    let pair := (Roller.rollPair die s).1
    refine ⟨.pair die (pair.1.toInt64, pair.2.toInt64) (max pair.1.toInt64 pair.2.toInt64)
      (.advantage die), [.pair pair.1 pair.2], rfl, rfl, rfl, ?_⟩
    have kept : Resolves (α := α) wordTotal (.advantage die) [.pair pair.1 pair.2] _ _ :=
      .advantage pair.1 pair.2
    unfold Outcome.pair
    rwa [toInt_max, Face.toInt_toInt64, Face.toInt_toInt64]
  | disadvantage die =>
    let pair := (Roller.rollPair die s).1
    refine ⟨.pair die (pair.1.toInt64, pair.2.toInt64) (min pair.1.toInt64 pair.2.toInt64)
      (.disadvantage die), [.pair pair.1 pair.2], rfl, rfl, rfl, ?_⟩
    have kept : Resolves (α := α) wordTotal (.disadvantage die) [.pair pair.1 pair.2] _ _ :=
      .disadvantage pair.1 pair.2
    unfold Outcome.pair
    rwa [toInt_min, Face.toInt_toInt64, Face.toInt_toInt64]
  | math op l r ihl ihr =>
    obtain ⟨left, right⟩ := List.forall_mem_append.mp within
    obtain ⟨a, ds, hl, hl', requests, resolved⟩ := ihl left s log
    -- The right operand takes over the roller and the log that the left one leaves.
    obtain ⟨b, ds', hr, hr', requests', resolved'⟩ :=
      ihr right (DiceLeaf.serveAll l.diceLeaves s) (log ++ ds)
    refine ⟨.math op a b, ds ++ ds', ?_, ?_, ?_, .math resolved resolved'⟩
    · rw [Expression.evaluate_math hl hr, Expression.diceLeaves, DiceLeaf.serveAll_append]
    · rw [Expression.evaluate_math hl' hr', Expression.diceLeaves, DiceLeaf.serveAll_append,
        List.append_assoc]
    · simp [Expression.diceLeaves, requests, requests']

theorem roll_of_refused {limit : Nat} {count : Int64} (many : limit < count.toInt.natAbs)
    (die : Die) (s : σ) : (⟨limit, s⟩ : Session σ).roll count die =
      (.error (.tooManyDice count.toInt.natAbs limit), ⟨limit, s⟩) :=
  if_pos many

/-- Evaluation ends at the first roll over the limit and has served the leaves before it. -/
theorem evaluate_of_refused {limit : Nat} {count : Int64} {die : Die} (e : Expression α)
    {before after : List DiceLeaf} (leaves : e.diceLeaves = before ++ .roll count die :: after)
    (within : ∀ leaf ∈ before, leaf.Within limit) (many : limit < count.toInt.natAbs) (s : σ) :
    e.evaluate ⟨limit, s⟩ = (.error (.tooManyDice count.toInt.natAbs limit),
      ⟨limit, DiceLeaf.serveAll before s⟩) := by
  induction e generalizing before after s with
  | number x => cases before <;> contradiction
  | rolled c d results => cases before <;> contradiction
  | advantage d => cases before <;> simp [Expression.diceLeaves] at leaves
  | disadvantage d => cases before <;> simp [Expression.diceLeaves] at leaves
  | roll c d =>
    cases before with
    | nil =>
      obtain ⟨⟨rfl, rfl⟩, rfl⟩ : (c = count ∧ d = die) ∧ after = [] := by
        simpa [Expression.diceLeaves] using leaves
      simp [Expression.evaluate, roll_of_refused many]
    | cons first before => simp [Expression.diceLeaves] at leaves
  | math op l r ihl ihr =>
    -- The refused leaf is in the right operand, or it is in the left one.
    rcases List.append_eq_append_iff.mp leaves with ⟨rest, rfl, right⟩ | ⟨rest, left, tail⟩
    · obtain ⟨served, within⟩ := List.forall_mem_append.mp within
      obtain ⟨a, _, hl, _⟩ := evaluate_of_within l served s []
      simp [Expression.evaluate, hl, ihr right within]
    · cases rest with
      | nil =>
        have right : r.diceLeaves = [] ++ .roll count die :: after := tail.symm
        have left : l.diceLeaves = before := by simpa using left
        subst left
        obtain ⟨a, _, hl, _⟩ := evaluate_of_within l within s []
        simp [Expression.evaluate, hl, ihr right (List.forall_mem_nil _)]
      | cons first rest =>
        cases (List.cons.inj tail).1
        simp [Expression.evaluate, ihl left within]

theorem exists_first_refused {limit : Nat} {leaves : List DiceLeaf}
    (refused : ∃ leaf ∈ leaves, ¬ leaf.Within limit) : ∃ before count die after,
      leaves = before ++ .roll count die :: after ∧
        (∀ leaf ∈ before, leaf.Within limit) ∧ limit < count.toInt.natAbs := by
  obtain ⟨leaf, member, exceeds⟩ := refused
  induction leaves with
  | nil => contradiction
  | cons first leaves ih =>
    by_cases h : first.Within limit
    · have member : leaf ∈ leaves := by
        rcases List.mem_cons.mp member with rfl | member
        · contradiction
        · exact member
      obtain ⟨before, count, die, after, rfl, within, many⟩ := ih member
      exact ⟨first :: before, count, die, after, rfl, List.forall_mem_cons.mpr ⟨h, within⟩, many⟩
    · cases first with
      | roll count die =>
        exact ⟨[], count, die, leaves, rfl, List.forall_mem_nil _, Nat.lt_of_not_le h⟩
      | advantage die => exact absurd trivial h
      | disadvantage die => exact absurd trivial h

/-- Evaluation fails on the limit only. -/
theorem evaluate_eq_error {e : Expression α} {s : Session σ} {why : RollError}
    (h : (e.evaluate s).1 = .error why) : ∃ count, why = .tooManyDice count s.limit := by
  obtain ⟨limit, roller⟩ := s
  by_cases within : ∀ leaf ∈ e.diceLeaves, leaf.Within limit
  · obtain ⟨o, _, evaluated, _⟩ := evaluate_of_within e within roller []
    rw [evaluated] at h
    cases h
  · have refused : ∃ leaf ∈ e.diceLeaves, ¬ leaf.Within limit := by simpa using within
    obtain ⟨before, count, die, after, leaves, within, many⟩ := exists_first_refused refused
    rw [evaluate_of_refused e leaves within many] at h
    cases h
    exact ⟨_, rfl⟩

theorem evaluate_eq_ok_iff {limit : Nat} (e : Expression α) (s : σ) :
    (∃ o t, e.evaluate ⟨limit, s⟩ = (.ok o, t)) ↔ ∀ leaf ∈ e.diceLeaves, leaf.Within limit := by
  constructor
  · rintro ⟨o, t, evaluated⟩ leaf member
    apply Decidable.byContradiction
    intro exceeds
    obtain ⟨before, count, die, after, leaves, within, many⟩ :=
      exists_first_refused ⟨leaf, member, exceeds⟩
    have refused := evaluate_of_refused e leaves within many s
    rw [evaluated] at refused
    cases refused
  · intro within
    obtain ⟨o, _, evaluated, _⟩ := evaluate_of_within e within s []
    exact ⟨o, _, evaluated⟩

/-- A run that succeeds is within the limit, and what it draws resolves its expression. -/
theorem resolves_of_evaluate {limit : Nat} {e : Expression α} {s : σ} {o : Outcome α}
    {t : Session σ} (evaluated : e.evaluate ⟨limit, s⟩ = (.ok o, t)) :
    (∀ leaf ∈ e.diceLeaves, leaf.Within limit) ∧ ∃ draws,
      e.evaluate (⟨limit, ⟨s, []⟩⟩ : Session (Recorder σ)) =
        (.ok o, ⟨limit, ⟨t.roller, draws⟩⟩) ∧
      draws.map Draw.request = e.diceLeaves.map DiceLeaf.request ∧
      Resolves wordTotal e draws o.expression o.value := by
  have within := (evaluate_eq_ok_iff e s).mp ⟨o, t, evaluated⟩
  obtain ⟨o', draws, plain, recorded, requests, resolved⟩ := evaluate_of_within e within s []
  obtain ⟨rfl, rfl⟩ : o = o' ∧ t = _ := by simpa using evaluated.symm.trans plain
  exact ⟨within, draws, recorded, requests, resolved⟩

end

end DiceNotation
