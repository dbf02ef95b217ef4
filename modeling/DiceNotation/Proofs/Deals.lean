import DiceNotation.Proofs.Statistics

/-!
Deals. A deal of an expression gives a face to each die that the expression draws. There is a run
on which exactly these faces fall, and its value is a function of the deal.
-/
namespace DiceNotation

open Arithmetic (ofInt)

namespace Expression

variable {α : Type}

def Deal : Expression α → Type
  | number _ | rolled .. => Unit
  | roll count die => Hand die count.toInt.natAbs
  | advantage die | disadvantage die => Face die × Face die
  | math _ l r => l.Deal × r.Deal

/-- What the dice show, in the order in which they are drawn. -/
def pips : (e : Expression α) → e.Deal → List Nat
  | number _, _ | rolled .., _ => []
  | roll .., hand => hand.faces.map Face.pips
  | advantage _, pair | disadvantage _, pair => [pair.1.pips, pair.2.pips]
  | math _ l r, deal => l.pips deal.1 ++ r.pips deal.2

def draws : (e : Expression α) → e.Deal → List Draw
  | number _, _ | rolled .., _ => []
  | roll .., hand => [.hand hand]
  | advantage _, pair | disadvantage _, pair => [.pair pair.1 pair.2]
  | math _ l r, deal => l.draws deal.1 ++ r.draws deal.2

/-- No hand of the deal leaves its word when it is added up. -/
def SumsFitOn : (e : Expression α) → e.Deal → Prop
  | number _, _ | advantage _, _ | disadvantage _, _ => True
  | rolled _ _ results, _ => SumsFit results
  | roll count _, hand => SumsFit (signedFaces count hand.faces)
  | math _ l r, deal => l.SumsFitOn deal.1 ∧ r.SumsFitOn deal.2

theorem sumsFitOn_of_fits {e : Expression α} (fits : ∀ leaf ∈ e.diceLeaves, leaf.FitsWord)
    (held : e.TotalsFit) (deal : e.Deal) : e.SumsFitOn deal := by
  induction e with
  | rolled count die results => exact held
  | roll count die => exact sumsFit_signedFaces deal (fits _ List.mem_cons_self)
  | math op l r ihl ihr =>
    obtain ⟨left, right⟩ := List.forall_mem_append.mp fits
    exact ⟨ihl left held.1 deal.1, ihr right held.2 deal.2⟩
  | _ => trivial

variable [Arithmetic α]

def valueOn : (e : Expression α) → e.Deal → α
  | number x, _ => x
  | rolled _ _ results, _ => ofInt (exactTotal results)
  | roll count _, hand => ofInt (exactTotal (signedFaces count hand.faces))
  | advantage _, pair => ofInt (max pair.1.pips pair.2.pips)
  | disadvantage _, pair => ofInt (min pair.1.pips pair.2.pips)
  | math op l r, deal => op.apply (l.valueOn deal.1) (r.valueOn deal.2)

theorem resolves_draws {e : Expression α} {deal : e.Deal} (fits : e.SumsFitOn deal) :
    ∃ e', Resolves wordTotal e (e.draws deal) e' (e.valueOn deal) := by
  induction e with
  | number x => exact ⟨_, .number x⟩
  | rolled count die results =>
    rw [valueOn, ← wordTotal_of_sumsFit fits]
    exact ⟨_, .rolled count die results⟩
  | roll count die =>
    rw [valueOn, ← wordTotal_of_sumsFit fits]
    exact ⟨_, .roll count die deal⟩
  | advantage die => exact ⟨_, .advantage deal.1 deal.2⟩
  | disadvantage die => exact ⟨_, .disadvantage deal.1 deal.2⟩
  | math op l r ihl ihr =>
    obtain ⟨l', left⟩ := ihl fits.1
    obtain ⟨r', right⟩ := ihr fits.2
    exact ⟨_, left.math right⟩

end Expression

/-- Draws that resolve an expression come from a deal. -/
theorem Resolves.exists_deal {α : Type} [Arithmetic α] {e e' : Expression α} {draws : List Draw}
    {x : α} (resolved : Resolves exactTotal e draws e' x) :
    ∃ deal, draws = e.draws deal ∧ x = e.valueOn deal := by
  induction resolved with
  | number x => exact ⟨(), rfl, rfl⟩
  | rolled count die results => exact ⟨(), rfl, rfl⟩
  | roll count die hand => exact ⟨hand, rfl, rfl⟩
  | advantage first second => exact ⟨(first, second), rfl, rfl⟩
  | disadvantage first second => exact ⟨(first, second), rfl, rfl⟩
  | math _ _ ihl ihr =>
    obtain ⟨left, rfl, rfl⟩ := ihl
    obtain ⟨right, rfl, rfl⟩ := ihr
    exact ⟨(left, right), rfl, rfl⟩

/-- Dice that show these numbers, and then ones. -/
def dealing (numbers : List Nat) : RepeatedDice := ⟨⟨1, [], numbers⟩⟩

theorem Face.around_pips {die : Die} (face : Face die) :
    Face.around die (face.pips - 1) = face := by
  obtain ⟨pips, pos, le⟩ := face
  have below : pips - 1 < die.sides := by omega
  simp only [Face.around, Nat.mod_eq_of_lt below, Nat.sub_add_cancel pos]

theorem draw_dealing {die : Die} (face : Face die) (more : List Nat) :
    RepeatedDice.draw die (dealing (face.pips :: more)) = (face, dealing more) := by
  simp only [RepeatedDice.draw, dealing, Cycle.next, Face.around_pips]

theorem drawFrom_dealing {die : Die} (faces drawn : List (Face die)) (more : List Nat) :
    Hand.drawFrom (RepeatedDice.draw die) faces.length drawn
      (dealing (faces.map Face.pips ++ more)) = (drawn.reverse ++ faces, dealing more) := by
  induction faces generalizing drawn with
  | nil => simp [Hand.drawFrom]
  | cons face faces ih => simp [Hand.drawFrom, draw_dealing, ih]

theorem rollHand_dealing {die : Die} {count : Nat} (hand : Hand die count) (more : List Nat) :
    Roller.rollHand count die (dealing (hand.faces.map Face.pips ++ more)) =
      (hand, dealing more) := by
  obtain ⟨faces, rfl⟩ := hand
  have drawn := drawFrom_dealing faces [] more
  show Hand.drawEach (RepeatedDice.draw die) faces.length _ = _
  simp [Hand.drawEach, drawn]

theorem rollPair_dealing {die : Die} (first second : Face die) (more : List Nat) :
    Roller.rollPair die (dealing (first.pips :: second.pips :: more)) =
      ((first, second), dealing more) := by
  simp only [Roller.rollPair, draw_dealing]

namespace Expression

variable {α : Type}

theorem serveAll_dealing (e : Expression α) (deal : e.Deal) (more : List Nat) (log : List Draw) :
    DiceLeaf.serveAll e.diceLeaves (⟨dealing (e.pips deal ++ more), log⟩ : Recorder RepeatedDice) =
      ⟨dealing more, log ++ e.draws deal⟩ := by
  induction e generalizing more log with
  | number x => simp [diceLeaves, draws, pips]
  | rolled count die results => simp [diceLeaves, draws, pips]
  | roll count die =>
    have hand := rollHand_dealing (deal : Hand die count.toInt.natAbs) more
    show (Recorder.rollHand _ die ⟨dealing (deal.faces.map Face.pips ++ more), log⟩).2 = _
    simp only [Recorder.rollHand, hand]
    rfl
  | advantage die =>
    show (Recorder.rollPair die ⟨dealing (deal.1.pips :: deal.2.pips :: more), log⟩).2 = _
    simp only [Recorder.rollPair, rollPair_dealing]
    rfl
  | disadvantage die =>
    show (Recorder.rollPair die ⟨dealing (deal.1.pips :: deal.2.pips :: more), log⟩).2 = _
    simp only [Recorder.rollPair, rollPair_dealing]
    rfl
  | math op l r ihl ihr =>
    simp [diceLeaves, pips, draws, ihl, ihr]

section

variable [Arithmetic α]

theorem exists_deal_of_evaluate {limit : Nat} {e : Expression α} (fresh : e.Fresh)
    (fits : ∀ leaf ∈ e.diceLeaves, leaf.FitsWord) {σ : Type} [Roller σ] {s : σ} {t : Session σ}
    {o : Outcome α} (evaluated : e.evaluate ⟨limit, s⟩ = (.ok o, t)) :
    ∃ deal, o.value = e.valueOn deal := by
  obtain ⟨-, draws, _, _, resolved⟩ := resolves_of_evaluate evaluated
  obtain ⟨deal, _, value⟩ := (resolved.exact_of_fits fits fresh.totalsFit).exists_deal
  exact ⟨deal, value⟩

theorem evaluate_dealing {limit : Nat} {e : Expression α}
    (within : ∀ leaf ∈ e.diceLeaves, leaf.Within limit) {deal : e.Deal}
    (fits : e.SumsFitOn deal) :
    ∃ o, e.evaluate ⟨limit, dealing (e.pips deal)⟩ = (.ok o, ⟨limit, dealing []⟩) ∧
      o.value = e.valueOn deal := by
  have served := e.serveAll_dealing deal [] []
  rw [List.append_nil] at served
  obtain ⟨o, run, resolved⟩ := evaluate_of_served within served
  obtain ⟨e', dealt⟩ := resolves_draws fits
  exact ⟨o, run, (resolved.unique dealt).2⟩

end

end Expression

end DiceNotation
