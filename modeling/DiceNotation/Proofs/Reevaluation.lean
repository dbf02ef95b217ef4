import DiceNotation.Proofs.Statistics
import DiceNotation.Roller.Scripted

/-!
Evaluating what an evaluation has left. Nothing more is drawn, and the expression stays as it is
with a value that no session changes: that of the first expression had both dice of each pair
counted. Statistics are those of dice that have been rolled.
-/
namespace DiceNotation

section

variable {α : Type}

/-- In every session the expression has this outcome. Nothing is drawn for it, as a recorder is a
roller too. -/
def Expression.Settles [Arithmetic α] (e : Expression α) (o : Outcome α) : Prop :=
  ∀ {τ : Type} [Roller τ] (s : Session τ), e.evaluate s = (.ok o, s)

/-- With a roll of two dice for each pair of which one would count. -/
def Expression.countingBoth : Expression α → Expression α
  | advantage die | disadvantage die => .roll 2 die
  | math op l r => .math op l.countingBoth r.countingBoth
  | e => e

/-- A pair as the roll of two dice shows it. -/
def Draw.asHand : Draw → Draw
  | pair first second => .hand (⟨[first, second], rfl⟩ : Hand _ 2)
  | draw => draw

def DiceLeaf.CountsAll : DiceLeaf → Prop
  | roll .. => True
  | advantage _ | disadvantage _ => False

end

theorem signedFaces_pair {die : Die} (first second : Face die) :
    signedFaces 2 [first, second] = [first.toInt64, second.toInt64] := by
  have positive : ¬ (2 : Int64) < 0 := by decide
  rw [signedFaces_eq, if_neg positive]
  rfl

section

variable {α : Type} [Arithmetic α] {sum : List Int64 → Int} {e e' : Expression α}
  {draws : List Draw} {x : α}

theorem Resolves.pair (sum : List Int64 → Int) {die : Die} (first second : Face die) :
    Resolves (α := α) sum (.roll 2 die) [(Draw.pair first second).asHand]
      (.rolled 2 die [first.toInt64, second.toInt64])
      (Arithmetic.ofInt (sum [first.toInt64, second.toInt64])) := by
  rw [← signedFaces_pair]
  exact .roll 2 die _

/-- What an expression has resolved to resolves to itself without a draw. The value is the one
that the draws give when both dice of each pair count. -/
theorem Resolves.again (resolved : Resolves sum e draws e' x) : ∃ y,
    Resolves sum e' [] e' y ∧ Resolves sum e.countingBoth (draws.map Draw.asHand) e' y := by
  induction resolved with
  | number x => exact ⟨x, .number x, .number x⟩
  | rolled count die results =>
    exact ⟨_, .rolled count die results, .rolled count die results⟩
  | roll count die hand => exact ⟨_, .rolled count die _, .roll count die hand⟩
  | advantage first second => exact ⟨_, .rolled 2 _ _, .pair sum first second⟩
  | disadvantage first second => exact ⟨_, .rolled 2 _ _, .pair sum first second⟩
  | math _ _ ihl ihr =>
    obtain ⟨y, left, both⟩ := ihl
    obtain ⟨z, right, both'⟩ := ihr
    refine ⟨_, .math left right, ?_⟩
    rw [List.map_append]
    exact .math both both'

theorem Resolves.same_again (resolved : Resolves sum e draws e' x)
    (all : ∀ leaf ∈ e.diceLeaves, leaf.CountsAll) : Resolves sum e' [] e' x := by
  induction resolved with
  | number x => exact .number x
  | rolled count die results => exact .rolled count die results
  | roll count die hand => exact .rolled count die _
  | advantage first second => exact absurd (all _ List.mem_cons_self) id
  | disadvantage first second => exact absurd (all _ List.mem_cons_self) id
  | math _ _ ihl ihr =>
    obtain ⟨left, right⟩ := List.forall_mem_append.mp all
    exact .math (ihl left) (ihr right)

/-- An expression that resolves to itself without a draw is settled. -/
theorem Resolves.settles (resolved : Resolves wordTotal e [] e x) :
    e.Settles ⟨e, x, e.stats⟩ := by
  intro τ _ s
  have none : e.diceLeaves = [] := List.length_eq_zero_iff.mp resolved.length_eq.symm
  have within : ∀ leaf ∈ e.diceLeaves, leaf.Within s.limit := by
    rw [none]
    exact List.forall_mem_nil _
  obtain ⟨o, draws, evaluated, _, requests, again⟩ := evaluate_of_within e within s.roller []
  rw [none, List.map_nil, List.map_eq_nil_iff] at requests
  subst requests
  obtain ⟨tree, value⟩ := again.unique resolved
  have stats : o.stats = e.stats := Expression.stats_evaluate (congrArg Prod.fst evaluated)
  obtain ⟨e', y, stats'⟩ := o
  obtain rfl : e' = e := tree
  obtain rfl : y = x := value
  obtain rfl : stats' = e'.stats := stats
  rw [none] at evaluated
  exact evaluated

end

namespace Expression

variable {α σ : Type} [Arithmetic α] [Roller σ] {e : Expression α} {o : Outcome α}

/-- Up to this limit what is drawn can be added up. -/
theorem totalsFit_of_evaluate {limit : Nat} {s : σ} {t : Session σ} (small : limit ≤ 0x80000000)
    (held : e.TotalsFit) (evaluated : e.evaluate ⟨limit, s⟩ = (.ok o, t)) :
    o.expression.TotalsFit := by
  obtain ⟨within, _, _, _, resolved⟩ := resolves_of_evaluate evaluated
  exact resolved.totalsFit
    (fun leaf member => DiceLeaf.fitsWord_of_within small (within leaf member)) held

/-- The expression of an outcome evaluates in all sessions to one and the same outcome and costs
the roller no draw. The expression comes back unchanged, so evaluating it once more changes
nothing. Its value is what the draws give when both dice of each pair count, and the first value
if there is no pair. -/
theorem outcome_settles {s t : Session σ} (evaluated : e.evaluate s = (.ok o, t))
    (fits : o.expression.TotalsFit) :
    ∃ p, p.expression = o.expression ∧ p.stats = o.expression.stats ∧
      o.expression.Settles p ∧ p.expression.Settles p ∧
      (∃ draws, e.evaluate (⟨s.limit, ⟨s.roller, []⟩⟩ : Session (Recorder σ)) =
          (.ok o, ⟨s.limit, ⟨t.roller, draws⟩⟩) ∧
        Resolves exactTotal e draws o.expression o.value ∧
        Resolves exactTotal e.countingBoth (draws.map Draw.asHand) p.expression p.value) ∧
      ((∀ leaf ∈ e.diceLeaves, leaf.CountsAll) → p.value = o.value) := by
  have run : e.evaluate ⟨s.limit, s.roller⟩ = (.ok o, t) := evaluated
  obtain ⟨-, draws, recorded, _, resolved⟩ := resolves_of_evaluate run
  obtain ⟨y, again, both⟩ := resolved.again
  refine ⟨⟨o.expression, y, o.expression.stats⟩, rfl, rfl, again.settles, again.settles, ?_, ?_⟩
  · exact ⟨draws, recorded, resolved.exact_of_totalsFit fits, both.exact_of_totalsFit fits⟩
  · intro all
    exact (again.unique (resolved.same_again all)).2

def rollAndPair (die : Die) : Expression Float := .math .add (.roll 2 die) (.advantage die)

/-- Both leaves show a six and a one. The pair's one counts in the second evaluation only. -/
theorem rollAndPair_settles : ∃ o t p,
    (rollAndPair ⟨6, by decide, by decide⟩).evaluate
        (⟨2, ⟨.start 6 [1]⟩⟩ : Session RepeatedDice) = (.ok o, t) ∧
      o.value = 13 ∧ o.expression.Settles p ∧ p.value = 14 := by
  let die : Die := ⟨6, by decide, by decide⟩
  have evaluated : (rollAndPair die).evaluate (⟨2, ⟨.start 6 [1]⟩⟩ : Session RepeatedDice) =
      (.ok _, _) := rfl
  have held : (rollAndPair die).TotalsFit := ⟨trivial, trivial⟩
  obtain ⟨p, -, -, settles, -⟩ :=
    outcome_settles evaluated (totalsFit_of_evaluate (by decide) held evaluated)
  refine ⟨_, _, p, evaluated, by decide +kernel, settles, ?_⟩
  have again := congrArg Prod.fst (settles (⟨0, ⟨4, 1⟩⟩ : Session SteppedDice))
  cases again
  decide +kernel

end Expression

end DiceNotation
