import DiceNotation.Proofs.Sessions

/-!
The two formats of a reply. Over any row of texts a session answers in lines or in JSON, step by
step with the same results and the same dice: an error in the same words, and an outcome as the
line or as the document of one and the same outcome, for which a line always exists.
-/
namespace DiceNotation

/-- The replies, as a line and as JSON, that tell the result of a command. -/
inductive Reports : Except CommandError (Outcome Float) → String → String → Prop where
  | error {e : CommandError} : e ≠ .roll .unresolvedRoll → Reports (.error e) e.message e.message
  | outcome {o : Outcome Float} {line : String} : o.line = .ok line →
      Reports (.ok o) line o.toJson.pretty

/- Results of evaluation. -/

theorem evaluate_ne_unresolved {α σ : Type} [Arithmetic α] [Roller σ] {e : Expression α}
    {s : Session σ} {why : RollError} (h : (e.evaluate s).1 = .error why) :
    why ≠ .unresolvedRoll := by
  obtain ⟨count, rfl⟩ := evaluate_eq_error h
  simp

theorem exists_flatText {e : Expression Float} (resolved : e.isResolved = true) :
    ∃ text, e.flatText = .ok text := by
  rw [← e.isOk_flatText] at resolved
  cases tree : e.flatText with
  | ok text => exact ⟨text, rfl⟩
  | error why =>
    rw [tree] at resolved
    contradiction

theorem exists_line {o : Outcome Float} (resolved : o.expression.isResolved = true) :
    ∃ line, o.line = .ok line := by
  obtain ⟨text, tree⟩ := exists_flatText resolved
  unfold Outcome.line
  rw [tree]
  exact ⟨_, rfl⟩

namespace Session

variable {σ : Type} [Roller σ]

theorem execute_ne_unresolved {s : Session σ} {text : String} {e : CommandError}
    (h : (s.execute text).1 = .error e) : e ≠ .roll .unresolvedRoll := by
  unfold execute at h
  split at h
  · cases h
    simp
  · split at h <;> rename_i evaluated <;> cases h
    intro same
    cases same
    exact evaluate_ne_unresolved (congrArg Prod.fst evaluated) rfl

theorem exists_line_execute {s : Session σ} {text : String} {o : Outcome Float}
    (h : (s.execute text).1 = .ok o) : ∃ line, o.line = .ok line := by
  unfold execute at h
  split at h
  · cases h
  · rename_i e _
    split at h <;> rename_i evaluated <;> cases h
    exact exists_line (e.isResolved_evaluate s o (congrArg Prod.fst evaluated))

theorem reports_reply (s : Session σ) (text : String) :
    Reports (s.execute text).1 (s.reply .line text).1 (s.reply .json text).1 := by
  unfold reply
  cases executed : s.execute text with
  | mk result t =>
    cases result with
    | error e => exact .error (execute_ne_unresolved (congrArg Prod.fst executed))
    | ok o =>
      obtain ⟨line, h⟩ := exists_line_execute (congrArg Prod.fst executed)
      simp only [Outcome.reply, h]
      exact .outcome h

/- Runs. -/

theorem afterAll_reply (format : ReplyFormat) (texts : List String) (s : Session σ) :
    s.afterAll (texts.map (.reply format)) = s.afterAll (texts.map .execute) := by
  induction texts generalizing s with
  | nil => rfl
  | cons text texts ih =>
    simp only [List.map_cons, afterAll, session_call, Call.text]
    exact ih _

theorem getElem?_answerAll (s : Session σ) (calls : List Call) (i : Nat) :
    (s.answerAll calls)[i]? =
      calls[i]?.map fun c => ((s.afterAll (calls.take i)).call c).1 := by
  induction calls generalizing s i with
  | nil => rfl
  | cons c calls ih =>
    cases i with
    | zero => rfl
    | succ i => exact ih _ i

end Session

/- The message that is never printed. -/

theorem head?_append_of_some {a b : String} {c : Char} (h : a.toList.head? = some c) :
    (a ++ b).toList.head? = some c := by
  simp [h]

theorem ParseError.head?_message (e : ParseError) : e.message.toList.head? = some 'e' := by
  unfold message
  iterate 5 apply head?_append_of_some
  rfl

theorem RollError.head?_message (count limit : Nat) :
    (tooManyDice count limit).message.toList.head? = some 't' := by
  unfold message
  iterate 3 apply head?_append_of_some
  rfl

theorem Outcome.mem_line {o : Outcome Float} {line : String} (h : o.line = .ok line) :
    '>' ∈ line.toList := by
  unfold Outcome.line at h
  cases text : o.expression.flatText with
  | ok text =>
    rw [text] at h
    cases h
    simp
  | error why =>
    rw [text] at h
    cases h

theorem Outcome.head?_pretty (o : Outcome Float) :
    o.toJson.pretty.toList.head? = some '\x7b' := by
  simp only [Outcome.toJson, Json.pretty, Json.indented, Json.indentedFields, Json.block]
  iterate 4 apply head?_append_of_some
  rfl

theorem Reports.ne_unresolved {result : Except CommandError (Outcome Float)}
    {line json : String} (h : Reports result line json) :
    line ≠ RollError.unresolvedRoll.message ∧ json ≠ RollError.unresolvedRoll.message := by
  have first {text : String} {c : Char} (h : text.toList.head? = some c) (other : c ≠ 'c') :
      text ≠ RollError.unresolvedRoll.message := by
    rintro rfl
    exact other (Option.some.inj h).symm
  cases h with
  | @error e known =>
    cases e with
    | parse e => exact ⟨first e.head?_message (by decide), first e.head?_message (by decide)⟩
    | roll why =>
      cases why with
      | unresolvedRoll => exact absurd rfl known
      | tooManyDice count limit =>
        have head := RollError.head?_message count limit
        exact ⟨first head (by decide), first head (by decide)⟩
  | @outcome o _ shown =>
    refine ⟨?_, first o.head?_pretty (by decide)⟩
    rintro rfl
    exact absurd (Outcome.mem_line shown) (by decide)

namespace Session

variable {σ : Type} [Roller σ]

/-- In lines and in JSON a session gives the same results one after the other, in the same
states; every outcome has a line, and no reply says that one has none. -/
theorem formats_report_same_results (s : Session σ) (texts : List String) :
    (∀ (i : Nat) (text : String), texts[i]? = some text → ∃ result line json,
      (s.answerAll (texts.map .execute))[i]? = some (.outcome result) ∧
        (s.answerAll (texts.map (.reply .line)))[i]? = some (.text line) ∧
        (s.answerAll (texts.map (.reply .json)))[i]? = some (.text json) ∧
        Reports result line json ∧
        line ≠ RollError.unresolvedRoll.message ∧ json ≠ RollError.unresolvedRoll.message) ∧
    (∀ n, s.afterAll ((texts.take n).map (.reply .line)) =
      s.afterAll ((texts.take n).map (.reply .json))) ∧
    ∀ (t : Session σ) text o, (t.execute text).1 = .ok o → ∃ line, o.line = .ok line := by
  refine ⟨?_, ?_, fun _ _ _ => exists_line_execute⟩
  · intro i text found
    -- All three runs are in the session that the executed texts before this one leave.
    let t := s.afterAll ((texts.take i).map .execute)
    refine ⟨(t.execute text).1, (t.reply .line text).1, (t.reply .json text).1,
      ?_, ?_, ?_, reports_reply t text, (reports_reply t text).ne_unresolved⟩
    · simp [getElem?_answerAll, found, ← List.map_take, call, t]
    · simp [getElem?_answerAll, found, ← List.map_take, call, t, afterAll_reply]
    · simp [getElem?_answerAll, found, ← List.map_take, call, t, afterAll_reply]
  · intro n
    rw [afterAll_reply, afterAll_reply]

end Session

/-- The second text asks for more dice than the limit, and the third has a result again. -/
theorem dice_beyond_limit_in_both_formats :
    let s : Session SteppedDice := ⟨2, ⟨4, 1⟩⟩
    let texts := ["2d6", "3d6", "^d8*2"]
    texts[1]? = some "3d6" ∧
      (s.answerAll (texts.map (.reply .line)))[1]? =
        (s.answerAll (texts.map (.reply .json)))[1]? ∧
      ∃ o line, (s.answerAll (texts.map .execute))[2]? = some (.outcome (.ok o)) ∧
        o.line = .ok line ∧
        (s.answerAll (texts.map (.reply .line)))[2]? = some (.text line) ∧
        (s.answerAll (texts.map (.reply .json)))[2]? = some (.text o.toJson.pretty) := by
  intro s texts
  obtain ⟨reports, -, -⟩ := s.formats_report_same_results texts
  refine ⟨rfl, ?_, ?_⟩
  · obtain ⟨result, line, json, executed, inLine, inJson, same, -⟩ := reports 1 "3d6" rfl
    have many : (s.answerAll (texts.map .execute))[1]? =
        some (.outcome (.error (.roll (.tooManyDice 3 2)))) := rfl
    cases many.symm.trans executed
    cases same
    rw [inLine, inJson]
  · obtain ⟨result, line, json, executed, inLine, inJson, same, -⟩ := reports 2 "^d8*2" rfl
    obtain ⟨o, rolled⟩ : ∃ o, (s.answerAll (texts.map .execute))[2]? = some (.outcome (.ok o)) :=
      ⟨_, rfl⟩
    cases rolled.symm.trans executed
    cases same with
    | outcome shown => exact ⟨o, line, executed, shown, inLine, inJson⟩

end DiceNotation
