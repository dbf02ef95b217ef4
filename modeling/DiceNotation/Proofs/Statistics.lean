import DiceNotation.Proofs.Totals

/-!
Statistics of an expression, and its value when each die shows a known face. The statistics depend
on the shape alone, whatever has been rolled. The minimum is the value when all dice show one.
-/
namespace DiceNotation

open Arithmetic (ofInt)

namespace Expression

variable {α σ : Type}

/-- No leaf holds faces that have been drawn. -/
def Fresh : Expression α → Prop
  | number _ | roll .. | advantage _ | disadvantage _ => True
  | rolled .. => False
  | math _ l r => l.Fresh ∧ r.Fresh

theorem Fresh.totalsFit {e : Expression α} (fresh : e.Fresh) : e.TotalsFit := by
  induction e with
  | math op l r ihl ihr => exact ⟨ihl fresh.1, ihr fresh.2⟩
  | rolled count die results => exact absurd fresh id
  | _ => trivial

variable [Arithmetic α]

def stats : Expression α → Stats α
  | number x => .constant x
  | roll count die => .dice count die
  | advantage die => .advantage die
  | disadvantage die => .disadvantage die
  | rolled count die _ => .resolved count die
  | math op l r => .combine op l.stats r.stats

theorem stats_evaluate [Roller σ] {e : Expression α} {s : Session σ} {o : Outcome α}
    (evaluated : (e.evaluate s).1 = .ok o) : o.stats = e.stats := by
  induction e generalizing s o with
  | roll count die =>
    unfold evaluate at evaluated
    split at evaluated <;> cases evaluated
    rfl
  | math op l r ihl ihr =>
    unfold evaluate at evaluated
    split at evaluated
    · contradiction
    · rename_i a t left
      split at evaluated
      · contradiction
      · rename_i b u right
        cases evaluated
        have hl : a.stats = l.stats := ihl (by rw [left])
        have hr : b.stats = r.stats := ihr (by rw [right])
        simp only [Outcome.math, stats, hl, hr]
  | _ => cases evaluated; rfl

/-- The value when each die shows this number of pips. -/
def valueShowing (pips : Die → Nat) : Expression α → α
  | number x => x
  | roll count die => ofInt (count.toInt * pips die)
  | advantage die | disadvantage die => ofInt (pips die)
  | rolled _ _ results => ofInt (exactTotal results)
  | math op l r => op.apply (l.valueShowing pips) (r.valueShowing pips)

theorem stats_min {e : Expression α} (fresh : e.Fresh) :
    e.stats.min = e.valueShowing fun _ => 1 := by
  induction e with
  | roll count die => exact congrArg ofInt (Int.mul_one _).symm
  | math op l r ihl ihr =>
    simp only [stats, Stats.combine, valueShowing, ihl fresh.1, ihr fresh.2]
  | rolled count die results => exact absurd fresh id
  | _ => rfl

end Expression

/-- Every die of the draw shows this number of pips. -/
def Draw.Shows (pips : Die → Nat) : Draw → Prop
  | @die d face => face.pips = pips d
  | @hand _ d served => ∀ face ∈ served.faces, face.pips = pips d
  | @pair d first second => first.pips = pips d ∧ second.pips = pips d

def pipCount {die : Die} : List (Face die) → Nat
  | [] => 0
  | face :: faces => face.pips + pipCount faces

theorem pipCount_of_same {die : Die} {faces : List (Face die)} {k : Nat}
    (same : ∀ face ∈ faces, face.pips = k) : pipCount faces = faces.length * k := by
  induction faces with
  | nil => exact (Nat.zero_mul k).symm
  | cons face faces ih =>
    obtain ⟨first, rest⟩ := List.forall_mem_cons.mp same
    rw [pipCount, first, ih rest, List.length_cons, Nat.succ_mul, Nat.add_comm]

theorem exactTotal_signedFaces (count : Int64) {die : Die} (faces : List (Face die)) :
    exactTotal (signedFaces count faces) =
      if count.toInt < 0 then -(pipCount faces : Int) else pipCount faces := by
  induction faces with
  | nil => simp [signedFaces, exactTotal, pipCount]
  | cons face faces ih =>
    unfold signedFaces at ih ⊢
    rw [List.map_cons, exactTotal_cons, toInt_signed, ih, pipCount]
    split <;> omega

/-- The sign of the count times what the dice show. -/
theorem exactTotal_hand (count : Int64) {die : Die} (hand : Hand die count.toInt.natAbs) :
    exactTotal (signedFaces count hand.faces) = count.toInt.sign * pipCount hand.faces := by
  rw [exactTotal_signedFaces]
  rcases Int.lt_trichotomy count.toInt 0 with negative | zero | positive
  · rw [if_pos negative, Int.sign_eq_neg_one_of_neg negative]
    omega
  · have none : hand.faces = [] := List.eq_nil_of_length_eq_zero (by rw [hand.size, zero]; rfl)
    simp [none, pipCount]
  · rw [if_neg (by omega), Int.sign_eq_one_of_pos positive, Int.one_mul]

theorem exactTotal_of_same {count : Int64} {die : Die} (hand : Hand die count.toInt.natAbs)
    {k : Nat} (same : ∀ face ∈ hand.faces, face.pips = k) :
    exactTotal (signedFaces count hand.faces) = count.toInt * k := by
  rw [exactTotal_hand, pipCount_of_same same, hand.size, Int.natCast_mul, ← Int.mul_assoc,
    Int.sign_mul_natAbs]

theorem Resolves.eq_valueShowing {α : Type} [Arithmetic α] {pips : Die → Nat}
    {e e' : Expression α} {draws : List Draw} {x : α} (resolved : Resolves exactTotal e draws e' x)
    (shows : ∀ draw ∈ draws, draw.Shows pips) : x = e.valueShowing pips := by
  induction resolved with
  | number x => rfl
  | rolled count die results => rfl
  | roll count die hand =>
    exact congrArg ofInt (exactTotal_of_same hand (shows _ List.mem_cons_self))
  | advantage first second =>
    obtain ⟨h, h'⟩ := shows _ List.mem_cons_self
    simp only [Expression.valueShowing, h, h', Int.max_self]
  | disadvantage first second =>
    obtain ⟨h, h'⟩ := shows _ List.mem_cons_self
    simp only [Expression.valueShowing, h, h', Int.min_self]
  | math _ _ ihl ihr =>
    obtain ⟨left, right⟩ := List.forall_mem_append.mp shows
    simp only [Expression.valueShowing, ihl left, ihr right]

theorem fitsWord_of_small_or {limit : Nat} {leaves : List DiceLeaf}
    (within : ∀ leaf ∈ leaves, leaf.Within limit)
    (fits : limit ≤ 0x80000000 ∨ ∀ leaf ∈ leaves, leaf.FitsWord) :
    ∀ leaf ∈ leaves, leaf.FitsWord := by
  rcases fits with small | fits
  · exact fun leaf member => DiceLeaf.fitsWord_of_within small (within leaf member)
  · exact fits

section

variable {α σ : Type} {limit : Nat} {e : Expression α} [Arithmetic α] [Roller σ]

theorem resolves_of_recorded {s u : σ} {o : Outcome α} {draws : List Draw} (recorded :
      e.evaluate (⟨limit, ⟨s, []⟩⟩ : Session (Recorder σ)) = (.ok o, ⟨limit, ⟨u, draws⟩⟩)) :
    Resolves wordTotal e draws o.expression o.value := by
  have within := (evaluate_eq_ok_iff e (⟨s, []⟩ : Recorder σ)).mp ⟨o, _, recorded⟩
  obtain ⟨o', draws', _, again, _, resolved⟩ := evaluate_of_within e within s []
  have runs := recorded.symm.trans again
  simp only [Prod.mk.injEq, Except.ok.injEq, Session.mk.injEq, Recorder.mk.injEq,
    List.nil_append, true_and] at runs
  obtain ⟨rfl, _, rfl⟩ := runs
  exact resolved

/-- A run resolves the expression by the draws with which its dice leaves are served. -/
theorem evaluate_of_served (within : ∀ leaf ∈ e.diceLeaves, leaf.Within limit) {s u : σ}
    {draws : List Draw}
    (served : DiceLeaf.serveAll e.diceLeaves (⟨s, []⟩ : Recorder σ) = ⟨u, draws⟩) :
    ∃ o, e.evaluate ⟨limit, s⟩ = (.ok o, ⟨limit, u⟩) ∧
      Resolves wordTotal e draws o.expression o.value := by
  obtain ⟨o, draws', plain, recorded, _⟩ := evaluate_of_within e within s []
  obtain ⟨_, _, again, _⟩ := evaluate_of_within e within (⟨s, []⟩ : Recorder σ) []
  rw [served] at again
  have logs := recorded.symm.trans again
  simp only [Prod.mk.injEq, Session.mk.injEq, Recorder.mk.injEq, List.nil_append, true_and] at logs
  obtain ⟨_, rfl, rfl⟩ := logs
  exact ⟨o, plain, resolves_of_recorded recorded⟩

end

def Face.lowest (die : Die) : Face die := ⟨1, Nat.one_pos, die.pos⟩

def Face.highest (die : Die) : Face die := ⟨die.sides, die.pos, Nat.le_refl _⟩

/-- A hand of which every die shows the same face. -/
def Hand.same {die : Die} (count : Nat) (face : Face die) : Hand die count :=
  ⟨List.replicate count face, List.length_replicate⟩

theorem Hand.pips_of_mem_same {die : Die} {count : Nat} {face face' : Face die}
    (member : face' ∈ (Hand.same count face).faces) : face'.pips = face.pips := by
  rw [List.eq_of_mem_replicate member]

/-- Dice of which each shows one face for ever. -/
structure FixedDice where
  face : (die : Die) → Face die

namespace FixedDice

instance : Roller FixedDice where
  roll die s := (s.face die, s)
  rollHand count die s := (.same count (s.face die), s)

def lowest : FixedDice := ⟨Face.lowest⟩

def highest : FixedDice := ⟨Face.highest⟩

theorem serve_eq (leaf : DiceLeaf) (s : FixedDice) (log : List Draw) :
    ∃ draw, leaf.serve (⟨s, log⟩ : Recorder FixedDice) = ⟨s, log ++ [draw]⟩ ∧
      draw.Shows fun die => (s.face die).pips := by
  cases leaf with
  | roll count die =>
    exact ⟨_, rfl, fun _ => Hand.pips_of_mem_same⟩
  | advantage die => exact ⟨_, rfl, rfl, rfl⟩
  | disadvantage die => exact ⟨_, rfl, rfl, rfl⟩

theorem serveAll_eq (leaves : List DiceLeaf) (s : FixedDice) (log : List Draw) :
    ∃ draws, DiceLeaf.serveAll leaves (⟨s, log⟩ : Recorder FixedDice) = ⟨s, log ++ draws⟩ ∧
      ∀ draw ∈ draws, draw.Shows fun die => (s.face die).pips := by
  induction leaves generalizing log with
  | nil => exact ⟨[], by simp, List.forall_mem_nil _⟩
  | cons leaf leaves ih =>
    obtain ⟨draw, served, shows⟩ := serve_eq leaf s log
    obtain ⟨draws, all, rest⟩ := ih (log ++ [draw])
    exact ⟨draw :: draws, by simp [served, all], List.forall_mem_cons.mpr ⟨shows, rest⟩⟩

theorem evaluate_eq {α : Type} [Arithmetic α] {limit : Nat} {e : Expression α}
    (fresh : e.Fresh) (within : ∀ leaf ∈ e.diceLeaves, leaf.Within limit)
    (fits : ∀ leaf ∈ e.diceLeaves, leaf.FitsWord) (s : FixedDice) :
    ∃ o, e.evaluate ⟨limit, s⟩ = (.ok o, ⟨limit, s⟩) ∧
      o.value = e.valueShowing fun die => (s.face die).pips := by
  obtain ⟨draws, served, shows⟩ := serveAll_eq e.diceLeaves s []
  obtain ⟨o, run, resolved⟩ := evaluate_of_served within served
  have exact := resolved.exact_of_fits fits fresh.totalsFit
  exact ⟨o, run, exact.eq_valueShowing shows⟩

/-- However many dice are rolled, the value is what whole turns of the word leave of their total. -/
theorem evaluate_turned {α : Type} [Arithmetic α] {limit : Nat} {count : Int64}
    (within : count.toInt.natAbs ≤ limit) (die : Die) (s : FixedDice) :
    ∃ o : Outcome α, (Expression.roll count die).evaluate ⟨limit, s⟩ = (.ok o, ⟨limit, s⟩) ∧
      o.value = ofInt ((count.toInt * (s.face die).pips).bmod Int64.size) := by
  let hand : Hand die count.toInt.natAbs := .same _ (s.face die)
  have rolled : (⟨limit, s⟩ : Session FixedDice).roll count die =
      (.ok (signedFaces count hand.faces), ⟨limit, s⟩) := roll_of_within within die s
  have left := wordTotal_eq (signedFaces count hand.faces)
  rw [exactTotal_of_same hand fun _ => Hand.pips_of_mem_same] at left
  exact ⟨_, Expression.evaluate_roll rolled, congrArg ofInt left⟩

end FixedDice

end DiceNotation
