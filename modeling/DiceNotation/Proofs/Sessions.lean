import DiceNotation.Command
import DiceNotation.Proofs.Resolution
import DiceNotation.Roller.Generators

/-!
Sessions over many commands. A command changes the session only by the dice leaves that are
served for it, which are those before the first refused roll. One that draws no die can be left
out without a change to any other answer.
-/
namespace DiceNotation

inductive Call where
  | execute (text : String)
  | reply (format : ReplyFormat) (text : String)

inductive Answer where
  | outcome (result : Except CommandError (Outcome Float))
  | text (reply : String)

def Call.text : Call → String
  | execute text | reply _ text => text

/-- The leaves before the first that the limit refuses. -/
def servedLeaves (limit : Nat) (leaves : List DiceLeaf) : List DiceLeaf :=
  leaves.takeWhile fun leaf => decide (leaf.Within limit)

/-- The dice that a text takes from a roller before its result or its error. -/
def diceOf (limit : Nat) (text : String) : List DiceLeaf :=
  match Expression.parse text with
  | .ok e => servedLeaves limit e.diceLeaves
  | .error _ => []

def Call.DrawsNone (limit : Nat) (call : Call) : Prop :=
  ∃ e, Expression.parse call.text = .ok e ∧
    ∀ leaf ∈ servedLeaves limit e.diceLeaves, leaf.dice = 0

/-- If the leaf asks for no die, serving it leaves the roller as it was. -/
def DiceLeaf.Idle (σ : Type) [Roller σ] (leaf : DiceLeaf) : Prop :=
  leaf.dice = 0 → ∀ s : σ, leaf.serve s = s

namespace Session

variable {σ : Type} [Roller σ]

def call (s : Session σ) : Call → Answer × Session σ
  | .execute text => ((.outcome (s.execute text).1), (s.execute text).2)
  | .reply format text => (.text (s.reply format text).1, (s.reply format text).2)

def afterAll (s : Session σ) : List Call → Session σ
  | [] => s
  | c :: calls => (s.call c).2.afterAll calls

def answerAll (s : Session σ) : List Call → List Answer
  | [] => []
  | c :: calls => (s.call c).1 :: (s.call c).2.answerAll calls

end Session

theorem DiceLeaf.idle_of_empty {σ : Type} [Roller σ]
    (empty : ∀ die (s : σ), (Roller.rollHand 0 die s).2 = s) (leaf : DiceLeaf) : leaf.Idle σ := by
  intro none s
  cases leaf with
  | roll count die =>
    have none : count.toInt.natAbs = 0 := none
    change (Roller.rollHand count.toInt.natAbs die s).2 = s
    rw [none]
    exact empty die s
  | advantage die => contradiction
  | disadvantage die => contradiction

/-- A hand of no dice takes no word. -/
theorem WordDice.idle {σ : Type} [WordSource σ] (leaf : DiceLeaf) : leaf.Idle σ :=
  DiceLeaf.idle_of_empty (fun _ _ => rfl) leaf

theorem servedLeaves_of_within {limit : Nat} {leaves : List DiceLeaf}
    (within : ∀ leaf ∈ leaves, leaf.Within limit) : servedLeaves limit leaves = leaves := by
  induction leaves with
  | nil => rfl
  | cons leaf leaves ih =>
    obtain ⟨first, rest⟩ := List.forall_mem_cons.mp within
    have served := ih rest
    unfold servedLeaves at served ⊢
    simp [first, served]

theorem servedLeaves_of_refused {limit : Nat} {count : Int64} {die : Die}
    {before after : List DiceLeaf} (within : ∀ leaf ∈ before, leaf.Within limit)
    (many : limit < count.toInt.natAbs) :
    servedLeaves limit (before ++ .roll count die :: after) = before := by
  have exceeds : ¬ (DiceLeaf.roll count die).Within limit := Nat.not_le.mpr many
  have all : ∀ leaf ∈ before, decide (leaf.Within limit) = true := fun leaf member =>
    decide_eq_true (within leaf member)
  unfold servedLeaves
  rw [List.takeWhile_append_of_pos all]
  simp [exceeds]

section

variable {α σ : Type} [Arithmetic α] [Roller σ]

/-- Whatever its result, evaluation leaves the roller as serving those leaves does. -/
theorem session_evaluate {limit : Nat} (e : Expression α) (s : σ) :
    (e.evaluate ⟨limit, s⟩).2 =
      ⟨limit, DiceLeaf.serveAll (servedLeaves limit e.diceLeaves) s⟩ := by
  by_cases within : ∀ leaf ∈ e.diceLeaves, leaf.Within limit
  · obtain ⟨o, _, evaluated, _⟩ := evaluate_of_within e within s []
    simp only [evaluated, servedLeaves_of_within within]
  · have refused : ∃ leaf ∈ e.diceLeaves, ¬ leaf.Within limit := by simpa using within
    obtain ⟨before, count, die, after, leaves, within, many⟩ := exists_first_refused refused
    simp only [evaluate_of_refused e leaves within many, leaves,
      servedLeaves_of_refused within many]

theorem serveAll_of_idle {leaves : List DiceLeaf} (idle : ∀ leaf ∈ leaves, leaf.Idle σ)
    (none : ∀ leaf ∈ leaves, leaf.dice = 0) (s : σ) : DiceLeaf.serveAll leaves s = s := by
  induction leaves with
  | nil => rfl
  | cons leaf leaves ih =>
    obtain ⟨first, rest⟩ := List.forall_mem_cons.mp idle
    obtain ⟨empty, others⟩ := List.forall_mem_cons.mp none
    rw [DiceLeaf.serveAll_cons, first empty s, ih rest others]

end

namespace Session

variable {σ : Type} [Roller σ]

theorem execute_of_error {text : String} {e : ParseError}
    (failed : Expression.parse text = .error e) (s : Session σ) :
    s.execute text = (.error (.parse e), s) := by
  unfold execute
  rw [failed]

theorem session_execute {text : String} {e : Expression Float}
    (read : Expression.parse text = .ok e) (s : Session σ) :
    (s.execute text).2 = (e.evaluate s).2 := by
  unfold execute
  rw [read]
  dsimp only
  split <;> rename_i h <;> rw [h]

theorem session_execute_eq (text : String) (s : Session σ) :
    (s.execute text).2 = ⟨s.limit, DiceLeaf.serveAll (diceOf s.limit text) s.roller⟩ := by
  unfold diceOf
  cases read : Expression.parse text with
  | error e => rw [execute_of_error read]; rfl
  | ok e => rw [session_execute read]; exact session_evaluate e s.roller

theorem session_reply (format : ReplyFormat) (text : String) (s : Session σ) :
    (s.reply format text).2 = (s.execute text).2 := by
  unfold reply
  split
  · rename_i h
    rw [h]
  · rename_i h
    rw [h]
    dsimp only
    split <;> rfl

theorem session_call (c : Call) (s : Session σ) : (s.call c).2 = (s.execute c.text).2 := by
  cases c with
  | execute text => rfl
  | reply format text => exact session_reply format text s

theorem limit_call (c : Call) (s : Session σ) : (s.call c).2.limit = s.limit := by
  rw [session_call, session_execute_eq]

theorem session_of_idle {c : Call} {s : Session σ}
    (idle : ∀ leaf ∈ diceOf s.limit c.text, leaf.Idle σ)
    (none : (∃ e, Expression.parse c.text = .error e) ∨ c.DrawsNone s.limit) :
    (s.call c).2 = s := by
  have none : ∀ leaf ∈ diceOf s.limit c.text, leaf.dice = 0 := by
    unfold diceOf
    rcases none with ⟨e, failed⟩ | ⟨e, read, none⟩
    · rw [failed]
      exact List.forall_mem_nil _
    · rw [read]
      exact none
  rw [session_call, session_execute_eq, serveAll_of_idle idle none]

theorem answerAll_of_idle {c : Call} (before later : List Call) {s : Session σ}
    (idle : ∀ leaf ∈ diceOf s.limit c.text, leaf.Idle σ)
    (none : (∃ e, Expression.parse c.text = .error e) ∨ c.DrawsNone s.limit) :
    (s.answerAll (before ++ c :: later)).eraseIdx before.length = s.answerAll (before ++ later) ∧
      s.afterAll (before ++ c :: later) = s.afterAll (before ++ later) := by
  induction before generalizing s with
  | nil => simp [answerAll, afterAll, session_of_idle idle none]
  | cons first before ih =>
    rw [← limit_call first] at idle none
    obtain ⟨same, left⟩ := ih idle none
    simp [answerAll, afterAll, same, left]

/-- A refused roll is reported for the first offender, and only the leaves before it are served;
a text that cannot be read costs nothing; a call of that kind, or one that draws no die, can be
left out of a session. The last takes a roller that an empty hand leaves as it was, which all dice
from words are. -/
theorem refusal_costs_nothing :
    (∀ {α : Type} [Arithmetic α] (e : Expression α) (limit : Nat) (s : σ),
      (∃ leaf ∈ e.diceLeaves, ¬ leaf.Within limit) → ∃ before count die after draws,
        e.diceLeaves = before ++ .roll count die :: after ∧
        (∀ leaf ∈ before, leaf.Within limit) ∧ limit < count.toInt.natAbs ∧
        e.evaluate ⟨limit, s⟩ = (.error (.tooManyDice count.toInt.natAbs limit),
          ⟨limit, DiceLeaf.serveAll before s⟩) ∧
        e.evaluate (⟨limit, ⟨s, []⟩⟩ : Session (Recorder σ)) =
          (.error (.tooManyDice count.toInt.natAbs limit),
            ⟨limit, ⟨DiceLeaf.serveAll before s, draws⟩⟩) ∧
        draws.map Draw.request = before.map DiceLeaf.request) ∧
    (∀ (s : Session σ) (text : String) (e : ParseError), Expression.parse text = .error e →
      (s.execute text).2 = s ∧ ∀ format, (s.reply format text).2 = s) ∧
    (∀ (s : Session σ) (before later : List Call) (c : Call),
      (∀ leaf ∈ diceOf s.limit c.text, leaf.Idle σ) →
      (∃ e, Expression.parse c.text = .error e) ∨ c.DrawsNone s.limit →
      (s.answerAll (before ++ c :: later)).eraseIdx before.length = s.answerAll (before ++ later) ∧
        s.afterAll (before ++ c :: later) = s.afterAll (before ++ later)) ∧
    ∀ {τ : Type} [WordSource τ] (s : Session τ) (before later : List Call) (c : Call),
      (∃ e, Expression.parse c.text = .error e) ∨ c.DrawsNone s.limit →
      (s.answerAll (before ++ c :: later)).eraseIdx before.length = s.answerAll (before ++ later) ∧
        s.afterAll (before ++ c :: later) = s.afterAll (before ++ later) := by
  refine ⟨?_, ?_, fun s before later c idle none => answerAll_of_idle before later idle none,
    fun s before later c none => answerAll_of_idle before later (fun leaf _ => WordDice.idle leaf)
      none⟩
  · intro α _ e limit s refused
    obtain ⟨before, count, die, after, leaves, within, many⟩ := exists_first_refused refused
    obtain ⟨draws, served, requests⟩ := serveAll_recorder before s []
    have recorded := evaluate_of_refused e leaves within many (⟨s, []⟩ : Recorder σ)
    rw [served] at recorded
    exact ⟨before, count, die, after, draws, leaves, within, many,
      evaluate_of_refused e leaves within many s, recorded, requests⟩
  · intro s text e failed
    have kept : (s.execute text).2 = s := by rw [execute_of_error failed]
    exact ⟨kept, fun format => (session_reply format text s).trans kept⟩

end Session

/-- `0d6+3d6`, which draws no die before a limit of two refuses it. -/
def refusedSum : Call := .reply .line "0d6+3d6"

theorem refusedSum_drawsNone : refusedSum.DrawsNone 2 := by
  refine ⟨.math .add (.roll 0 ⟨6, by decide, by decide⟩) (.roll 3 ⟨6, by decide, by decide⟩),
    rfl, ?_⟩
  intro leaf member
  obtain rfl : leaf = .roll 0 ⟨6, by decide, by decide⟩ := List.mem_singleton.mp member
  rfl

/-- A limit of two refuses the hand of three, after the pair and before the last die. -/
theorem hand_of_three_costs_nothing :
    (∃ e before count die after, Expression.parse "^d6-3d8+d4" = .ok e ∧
      e.diceLeaves = before ++ .roll count die :: after ∧
      e.evaluate (⟨2, ⟨4, 1⟩⟩ : Session SteppedDice) =
        (.error (.tooManyDice count.toInt.natAbs 2), ⟨2, DiceLeaf.serveAll before ⟨4, 1⟩⟩)) ∧
    ((⟨2, ⟨4, 1⟩⟩ : Session SteppedDice).execute "d").2 = ⟨2, ⟨4, 1⟩⟩ ∧
    ((⟨2, ⟨4, 1⟩⟩ : Session SteppedDice).answerAll
      [.execute "d6", refusedSum, .execute "d8"]).eraseIdx 1 =
        (⟨2, ⟨4, 1⟩⟩ : Session SteppedDice).answerAll [.execute "d6", .execute "d8"] ∧
    ((⟨2, ⟨7⟩⟩ : Session Congruential).answerAll
      [.execute "d6", refusedSum, .execute "d8"]).eraseIdx 1 =
        (⟨2, ⟨7⟩⟩ : Session Congruential).answerAll [.execute "d6", .execute "d8"] := by
  obtain ⟨refused, unread, erased, erasedWords⟩ :=
    Session.refusal_costs_nothing (σ := SteppedDice)
  refine ⟨?_, (unread _ "d" _ rfl).1, ?_, ?_⟩
  · let e : Expression Float := .math .add (.math .sub (.advantage ⟨6, by decide, by decide⟩)
      (.roll 3 ⟨8, by decide, by decide⟩)) (.roll 1 ⟨4, by decide, by decide⟩)
    obtain ⟨before, count, die, after, draws, leaves, within, many, evaluated, _⟩ :=
      refused e 2 ⟨4, 1⟩ (by decide)
    exact ⟨e, before, count, die, after, rfl, leaves, evaluated⟩
  · exact (erased ⟨2, ⟨4, 1⟩⟩ [.execute "d6"] [.execute "d8"] _
      (fun leaf _ => DiceLeaf.idle_of_empty (fun _ _ => rfl) leaf) (.inr refusedSum_drawsNone)).1
  · exact (erasedWords (⟨2, ⟨7⟩⟩ : Session Congruential) [.execute "d6"] [.execute "d8"] _
      (.inr refusedSum_drawsNone)).1

end DiceNotation
