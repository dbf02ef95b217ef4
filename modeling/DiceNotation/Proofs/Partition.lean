import DiceNotation.Proofs.Lexing

/-!
A text as its tokens and the blanks between them. Tokens are slices of the text that lie apart
from each other and cover all its bytes but the blanks, and each takes the longest match at its
place. This leaves one choice only.
-/
namespace DiceNotation

/-- What the longest match takes from the front of a text. A character of its own is taken where
no pattern matches. -/
inductive Taken (rest : List Char) : TokenKind → List Char → Prop where
  | longest {kind body} : Matches kind body → body <+: rest →
      (∀ other longer, Matches other longer → longer <+: rest → longer.length ≤ body.length) →
      Taken rest kind body
  | stray {c} : [c] <+: rest → (∀ kind body, Matches kind body → ¬ body <+: rest) →
      Taken rest .error [c]

def Token.Covers (t : Token) (byte : Nat) : Prop := t.start ≤ byte ∧ byte < t.stop

/-- The tokens of a text whose first byte has the given position. -/
structure Partition (position : Nat) (text : List Char) (ts : List Token) : Prop where
  slices : ∀ t ∈ ts, ∃ before after, text = before ++ (t.text ++ after) ∧
    t.start = position + byteCount before ∧ Taken (t.text ++ after) t.kind t.text
  apart : ts.Pairwise fun t u => t.stop ≤ u.start
  uncovered : ∀ before c after, text = before ++ c :: after → ∀ byte < c.utf8Size,
    isBlank c = true ↔ ∀ t ∈ ts, ¬ t.Covers (position + byteCount before + byte)

/- The longest match. -/

/-- No two patterns match the same slice. -/
theorem Matches.unique {kind other : TokenKind} {body : List Char} (h : Matches kind body)
    (h' : Matches other body) : kind = other := by
  have closed : Closed [] := by rintro c ⟨⟩
  have same := (longestMatch?_of_matches h closed).symm.trans (longestMatch?_of_matches h' closed)
  exact congrArg Prod.fst (Option.some.inj same)

theorem leadingDigits_le_append {ds : List Char} (digits : ∀ c ∈ ds, c.isDigit)
    (rest : List Char) : ds.length ≤ leadingDigits (ds ++ rest) := by
  induction ds with
  | nil => exact Nat.zero_le _
  | cons d ds ih =>
    have rest := ih fun c hc => digits c (List.mem_cons_of_mem d hc)
    simpa [leadingDigits, digits d List.mem_cons_self] using rest

theorem numberMatch_of_pos {k : Nat} (pos : 0 < k) (rest : List Char) :
    ∃ kind n, numberMatch k rest = some (kind, n) ∧ k ≤ n := by
  have whole : numberMatch.whole k = some (.integer, k) := if_pos pos
  unfold numberMatch
  split
  · split
    · exact ⟨_, _, rfl, by omega⟩
    · exact ⟨_, _, whole, Nat.le_refl k⟩
  · split
    · exact ⟨_, _, rfl, by omega⟩
    · exact ⟨_, _, whole, Nat.le_refl k⟩
  · exact ⟨_, _, whole, Nat.le_refl k⟩

/-- Whatever comes behind it, a match is found or a longer one is. -/
theorem longestMatch?_of_front {kind : TokenKind} {body : List Char} (h : Matches kind body)
    (rest : List Char) :
    ∃ found n, longestMatch? (body ++ rest) = some (found, n) ∧ body.length ≤ n := by
  cases h with
  | integer digits =>
    have many := leadingDigits_le_append digits.2 rest
    have head : ∀ c ∈ (body ++ rest).head?, c.isDigit ∨ c = 'd' := by
      cases body with
      | nil => exact absurd rfl digits.1
      | cons d ds =>
        rintro c ⟨⟩
        exact .inl (digits.2 d List.mem_cons_self)
    rw [longestMatch?_number head]
    obtain ⟨found, n, match?, le⟩ :=
      numberMatch_of_pos (Nat.lt_of_lt_of_le digits.pos many) _
    exact ⟨found, n, match?, Nat.le_trans many le⟩
  | @decimal ds es digits places =>
    have many := leadingDigits_le_append places.2 rest
    have point : ∀ c ∈ ('.' :: (es ++ rest)).head?, c.isDigit = false := by
      rintro c ⟨⟩; rfl
    rw [List.append_assoc, List.cons_append, longestMatch?_digits digits.2 point (.inl digits.1)]
    have some := Nat.lt_of_lt_of_le places.pos many
    refine ⟨.decimal, ds.length + 1 + leadingDigits (es ++ rest), ?_, ?_⟩
    · simp [numberMatch, digits.pos, some]
    · simp only [List.length_append, List.length_cons]
      omega
  | @dice ds es digits faces =>
    have many := leadingDigits_le_append faces.2 rest
    have letter : ∀ c ∈ ('d' :: (es ++ rest)).head?, c.isDigit = false := by
      rintro c ⟨⟩; rfl
    rw [List.append_assoc, List.cons_append, longestMatch?_digits digits letter (.inr ⟨_, rfl⟩)]
    have some := Nat.lt_of_lt_of_le faces.pos many
    refine ⟨.dice, ds.length + 1 + leadingDigits (es ++ rest), ?_, ?_⟩
    · simp [numberMatch, some]
    · simp only [List.length_append, List.length_cons]
      omega
  | @advantage es faces | @disadvantage es faces =>
    have many := leadingDigits_le_append faces.2 rest
    have some := Nat.lt_of_lt_of_le faces.pos many
    refine ⟨_, 2 + leadingDigits (es ++ rest), if_pos some, ?_⟩
    simp only [List.length_cons]
    omega
  | _ => exact ⟨_, 1, rfl, Nat.le_refl 1⟩

theorem taken_of_some {cs : List Char} {kind : TokenKind} {n : Nat}
    (found : longestMatch? cs = some (kind, n)) : Taken cs kind (cs.take n) := by
  obtain ⟨body, after, rfl, rfl, h⟩ := longestMatch?_eq_some found
  rw [List.take_left]
  refine .longest h (List.prefix_append body after) ?_
  rintro other longer h' ⟨rest, same⟩
  obtain ⟨kind', n, found', le⟩ := longestMatch?_of_front h' rest
  rw [same, found] at found'
  cases found'
  exact le

theorem taken_of_none {c : Char} {cs : List Char} (none : longestMatch? (c :: cs) = none) :
    Taken (c :: cs) .error [c] := by
  refine .stray ⟨cs, rfl⟩ ?_
  rintro kind body h ⟨rest, same⟩
  obtain ⟨kind', n, found, _⟩ := longestMatch?_of_front h rest
  rw [same, none] at found
  contradiction

theorem Taken.ne_nil {rest body : List Char} {kind : TokenKind} (taken : Taken rest kind body) :
    body ≠ [] := by
  cases taken with
  | longest h => exact h.ne_nil
  | stray => simp

theorem front_unique {body other rest : List Char} (h : body <+: rest) (h' : other <+: rest)
    (length : body.length = other.length) : body = other :=
  (List.prefix_of_prefix_length_le h h' (Nat.le_of_eq length)).eq_of_length length

/-- The longest match leaves no choice. -/
theorem Taken.unique {rest body body' : List Char} {kind kind' : TokenKind}
    (taken : Taken rest kind body) (taken' : Taken rest kind' body') :
    kind = kind' ∧ body = body' := by
  cases taken with
  | longest h front longest =>
    cases taken' with
    | longest h' front' longest' =>
      have length := Nat.le_antisymm (longest' _ _ h front) (longest _ _ h' front')
      obtain rfl := front_unique front front' length
      exact ⟨h.unique h', rfl⟩
    | stray _ none => exact absurd front (none _ _ h)
  | stray front none =>
    cases taken' with
    | longest h' front' => exact absurd front' (none _ _ h')
    | stray front' => exact ⟨rfl, front_unique front front' rfl⟩

theorem Taken.not_blank {rest body : List Char} {kind : TokenKind} (taken : Taken rest kind body)
    (ink : ∀ c ∈ rest.head?, isBlank c = false) : ∀ c ∈ body, isBlank c = false := by
  cases taken with
  | longest h => exact fun c hc => (h.inked c hc).not_blank
  | @stray d front =>
    obtain ⟨after, rfl⟩ := front
    simpa using ink d rfl

/- Bytes. -/

theorem byteCount_append (cs ds : List Char) :
    byteCount (cs ++ ds) = byteCount cs + byteCount ds := by
  induction cs with
  | nil => exact (Nat.zero_add _).symm
  | cons c cs ih => simp only [List.cons_append, byteCount, ih, Nat.add_assoc]

theorem byteCount_pos {cs : List Char} (h : cs ≠ []) : 0 < byteCount cs := by
  cases cs with
  | nil => contradiction
  | cons c cs => exact Nat.add_pos_left c.utf8Size_pos _

theorem Token.start_lt_stop {t : Token} {rest : List Char} (taken : Taken rest t.kind t.text) :
    t.start < t.stop :=
  Nat.lt_add_of_pos_right (byteCount_pos taken.ne_nil)

/-- Cuts of one text are ordered by their bytes. -/
theorem append_of_byteCount_le {front rest before after : List Char}
    (same : front ++ rest = before ++ after) (le : byteCount front ≤ byteCount before) :
    ∃ gap, before = front ++ gap ∧ rest = gap ++ after := by
  rcases List.append_eq_append_iff.mp same with ⟨gap, cut, left⟩ | ⟨gap, cut, left⟩
  · exact ⟨gap, cut, left⟩
  · have none : gap = [] := by
      apply Decidable.byContradiction
      intro some
      have pos := byteCount_pos some
      rw [cut, byteCount_append] at le
      omega
    subst none
    exact ⟨[], by simp [cut], left.symm⟩

/- What a partition looks like from its front. -/

theorem partition_nil {p : Nat} {ts : List Token} : Partition p [] ts ↔ ts = [] := by
  constructor
  · intro h
    cases ts with
    | nil => rfl
    | cons t ts =>
      obtain ⟨before, after, parts, _, taken⟩ := h.slices t List.mem_cons_self
      have none : t.text = [] := by simp_all
      exact absurd none taken.ne_nil
  · rintro rfl
    refine ⟨List.forall_mem_nil _, .nil, ?_⟩
    intro before c after parts
    simp at parts

theorem partition_blank {p : Nat} {c : Char} {cs : List Char} {ts : List Token}
    (blank : isBlank c = true) :
    Partition p (c :: cs) ts ↔ Partition (p + c.utf8Size) cs ts := by
  constructor
  · intro h
    refine ⟨?_, h.apart, ?_⟩
    · intro t member
      obtain ⟨before, after, parts, start, taken⟩ := h.slices t member
      cases before with
      | nil =>
        -- A token at the blank would cover it.
        have outside := (h.uncovered [] c cs rfl 0 c.utf8Size_pos).mp blank t member
        have inside : t.Covers (p + byteCount [] + 0) := by
          have := Token.start_lt_stop taken
          have : t.start = p + byteCount [] := start
          exact ⟨by omega, by omega⟩
        exact absurd inside outside
      | cons d before =>
        obtain ⟨rfl, rest⟩ := List.cons.inj parts
        refine ⟨before, after, rest, ?_, taken⟩
        rw [start, byteCount, Nat.add_assoc]
    · intro before d after parts byte inside
      have h := h.uncovered (c :: before) d after (congrArg (c :: ·) parts) byte inside
      rwa [byteCount, ← Nat.add_assoc] at h
  · intro h
    have late : ∀ t ∈ ts, p + c.utf8Size ≤ t.start := by
      intro t member
      obtain ⟨before, after, _, start, _⟩ := h.slices t member
      omega
    refine ⟨?_, h.apart, ?_⟩
    · intro t member
      obtain ⟨before, after, parts, start, taken⟩ := h.slices t member
      refine ⟨c :: before, after, congrArg (c :: ·) parts, ?_, taken⟩
      rw [start, byteCount, Nat.add_assoc]
    · intro before d after parts byte inside
      cases before with
      | nil =>
        obtain ⟨rfl, rfl⟩ := List.cons.inj parts
        refine ⟨fun _ t member covers => ?_, fun _ => blank⟩
        have := late t member
        have start : t.start ≤ p + 0 + byte := covers.1
        omega
      | cons b before =>
        obtain ⟨rfl, rest⟩ := List.cons.inj parts
        have h := h.uncovered before d after rest byte inside
        rwa [byteCount, ← Nat.add_assoc]

/-- The token that covers the first byte is the first of the list, as the others start later. -/
theorem partition_front {p : Nat} {c : Char} {cs : List Char} {ts : List Token}
    (ink : isBlank c = false) (h : Partition p (c :: cs) ts) :
    ∃ t us after, ts = t :: us ∧ t.start = p ∧ c :: cs = t.text ++ after ∧
      Taken (c :: cs) t.kind t.text := by
  have covered : ¬ ∀ t ∈ ts, ¬ t.Covers (p + byteCount [] + 0) := by
    rw [← h.uncovered [] c cs rfl 0 c.utf8Size_pos, ink]
    exact Bool.false_ne_true
  obtain ⟨t, member, covers⟩ : ∃ t ∈ ts, t.Covers (p + byteCount [] + 0) := by
    simpa using covered
  obtain ⟨before, after, parts, start, taken⟩ := h.slices t member
  have first : t.start ≤ p := covers.1
  obtain rfl : before = [] := by
    apply Decidable.byContradiction
    intro some
    have := byteCount_pos some
    omega
  cases ts with
  | nil => contradiction
  | cons u us =>
    rcases List.mem_cons.mp member with rfl | later
    · rw [List.nil_append] at parts
      refine ⟨t, us, after, rfl, start, parts, ?_⟩
      rwa [parts]
    · obtain ⟨_, _, _, start', taken'⟩ := h.slices u List.mem_cons_self
      have apart := List.rel_of_pairwise_cons h.apart later
      have := Token.start_lt_stop taken'
      omega

theorem partition_ink {p : Nat} {c : Char} {cs : List Char} {ts : List Token}
    (ink : isBlank c = false) :
    Partition p (c :: cs) ts ↔ ∃ t us after, ts = t :: us ∧ t.start = p ∧
      c :: cs = t.text ++ after ∧ Taken (c :: cs) t.kind t.text ∧ Partition t.stop after us := by
  constructor
  · intro h
    obtain ⟨t, us, after, rfl, rfl, parts, taken⟩ := partition_front ink h
    refine ⟨t, us, after, rfl, rfl, parts, taken, ?_, h.apart.of_cons, ?_⟩
    · intro u member
      obtain ⟨before, rest, parts', start, taken'⟩ := h.slices u (List.mem_cons_of_mem t member)
      have apart : t.start + byteCount t.text ≤ u.start :=
        List.rel_of_pairwise_cons h.apart member
      obtain ⟨gap, rfl, left⟩ := append_of_byteCount_le (parts.symm.trans parts') (by omega)
      refine ⟨gap, rest, left, ?_, taken'⟩
      rw [start, byteCount_append, Token.stop, Nat.add_assoc]
    · intro before d rest parts' byte inside
      have whole : c :: cs = (t.text ++ before) ++ d :: rest := by
        rw [parts, parts', List.append_assoc]
      have h := h.uncovered _ d rest whole byte inside
      rw [byteCount_append, ← Nat.add_assoc, List.forall_mem_cons] at h
      have past : ¬ t.Covers (t.stop + byteCount before + byte) := by
        intro covers
        have := covers.2
        omega
      rw [h]
      exact ⟨And.right, fun others => ⟨past, others⟩⟩
  · rintro ⟨t, us, after, rfl, rfl, parts, taken, h⟩
    refine ⟨?_, ?_, ?_⟩
    · refine List.forall_mem_cons.mpr ⟨⟨[], after, parts, rfl, by rwa [← parts]⟩, ?_⟩
      intro u member
      obtain ⟨before, rest, parts', start, taken'⟩ := h.slices u member
      refine ⟨t.text ++ before, rest, by rw [parts, parts', List.append_assoc], ?_, taken'⟩
      rw [start, byteCount_append, Token.stop, Nat.add_assoc]
    · refine List.pairwise_cons.mpr ⟨?_, h.apart⟩
      intro u member
      obtain ⟨before, rest, _, start, _⟩ := h.slices u member
      omega
    · intro before d rest parts' byte inside
      have same := parts.symm.trans parts'
      by_cases le : byteCount t.text ≤ byteCount before
      · -- The character is behind the first token, which has stopped before it.
        obtain ⟨gap, rfl, left⟩ := append_of_byteCount_le same le
        have h := h.uncovered gap d rest left byte inside
        rw [byteCount_append, ← Nat.add_assoc, List.forall_mem_cons]
        have past : ¬ t.Covers (t.stop + byteCount gap + byte) := by
          intro covers
          have := covers.2
          omega
        rw [h]
        exact ⟨fun others => ⟨past, others⟩, And.right⟩
      · -- The character is in the first token, which is not blank anywhere.
        obtain ⟨gap, cut, left⟩ := append_of_byteCount_le same.symm (by omega)
        cases gap with
        | nil => rw [List.append_nil] at cut; rw [cut] at le; omega
        | cons b gap =>
          obtain ⟨rfl, rfl⟩ := List.cons.inj left
          have member : d ∈ t.text := by simp [cut]
          have dark := taken.not_blank (by rintro c ⟨⟩; exact ink) d member
          have stop : t.stop = t.start + (byteCount before + (d.utf8Size + byteCount gap)) := by
            rw [Token.stop, cut, byteCount_append, byteCount]
          have covers : t.Covers (t.start + byteCount before + byte) := ⟨by omega, by omega⟩
          rw [dark]
          exact ⟨fun h => absurd h Bool.false_ne_true,
            fun none => absurd covers (none t List.mem_cons_self)⟩

/- The one partition. -/

theorem tokensFrom_taken {p : Nat} {c : Char} {cs : List Char} (ink : isBlank c = false) :
    ∃ t after, tokensFrom p 0 (c :: cs) = t :: tokensFrom t.stop 0 after ∧ t.start = p ∧
      c :: cs = t.text ++ after ∧ Taken (c :: cs) t.kind t.text := by
  rw [tokensFrom, if_neg (by simp [ink])]
  cases found : longestMatch? (c :: cs) with
  | none =>
    exact ⟨⟨.error, [c], p⟩, cs, rfl, rfl, rfl, taken_of_none found⟩
  | some result =>
    obtain ⟨kind, n⟩ := result
    have taken := taken_of_some found
    refine ⟨⟨kind, (c :: cs).take n, p⟩, (c :: cs).drop n, ?_, rfl, by simp, taken⟩
    cases n with
    | zero => exact absurd rfl taken.ne_nil
    | succ n =>
      simp only [tokensFrom_covered _ n, Nat.add_sub_cancel, List.drop_succ_cons, Token.stop,
        List.take_succ_cons, byteCount, Nat.add_assoc]

/-- Induction over the blanks and the tokens of a text, from its front. -/
theorem tokens_induction {motive : Nat → List Char → Prop} (nil : ∀ p, motive p [])
    (blank : ∀ p c cs, isBlank c = true → motive (p + c.utf8Size) cs → motive p (c :: cs))
    (token : ∀ p c cs t after, isBlank c = false →
      tokensFrom p 0 (c :: cs) = t :: tokensFrom t.stop 0 after → t.start = p →
      c :: cs = t.text ++ after → Taken (c :: cs) t.kind t.text → motive t.stop after →
      motive p (c :: cs))
    (p : Nat) (cs : List Char) : motive p cs := by
  -- A token takes several characters at once, hence the induction on the length.
  induction size : cs.length using Nat.strongRecOn generalizing p cs with
  | ind n ih =>
    cases cs with
    | nil => exact nil p
    | cons c cs =>
      cases ink : isBlank c with
      | true => exact blank p c cs ink (ih cs.length (by simp [← size]) _ _ rfl)
      | false =>
        obtain ⟨t, after, step, start, parts, taken⟩ := tokensFrom_taken (p := p) ink
        have shorter : after.length < n := by
          have := List.length_pos_iff.mpr taken.ne_nil
          rw [← size, parts, List.length_append]
          omega
        exact token p c cs t after ink step start parts taken (ih _ shorter _ _ rfl)

theorem partition_iff (p : Nat) (cs : List Char) (ts : List Token) :
    Partition p cs ts ↔ ts = tokensFrom p 0 cs := by
  induction p, cs using tokens_induction generalizing ts with
  | nil p => exact partition_nil
  | blank p c cs blank ih =>
    rw [partition_blank blank, tokensFrom, if_pos blank]
    exact ih ts
  | token p c cs t after ink step start parts taken ih =>
    rw [partition_ink ink, step]
    constructor
    · rintro ⟨t', us, after', rfl, start', parts', taken', rest⟩
      obtain ⟨kind, text⟩ := taken'.unique taken
      obtain rfl : t' = t := by
        cases t
        cases t'
        simp_all
      obtain rfl : after' = after := List.append_cancel_left (parts'.symm.trans parts)
      rw [(ih _).mp rest]
    · rintro rfl
      exact ⟨t, _, after, rfl, start, parts, taken, (ih _).mpr rfl⟩

/- Tails that no pattern goes on with are given back. -/

theorem leadingDigits_of_stop {rest : List Char} (stop : ∀ c ∈ rest.head?, c.isDigit = false) :
    leadingDigits rest = 0 := by
  cases rest with
  | nil => rfl
  | cons c cs => simp [leadingDigits, stop c rfl]

/-- After some digits a letter or a point needs another digit. -/
theorem lex_incomplete_number {ds rest : List Char} {c : Char} (digits : Digits ds)
    (tail : c = 'd' ∨ c = '.') (stop : ∀ c ∈ rest.head?, c.isDigit = false) :
    lex (ds ++ c :: rest) = (.integer, ds) :: (.error, [c]) :: lex rest := by
  have none := leadingDigits_of_stop stop
  have number : longestMatch? (ds ++ c :: rest) = some (.integer, ds.length) := by
    have other : ∀ d ∈ (c :: rest).head?, d.isDigit = false := by
      rintro d ⟨⟩
      rcases tail with rfl | rfl <;> rfl
    rw [longestMatch?_digits digits.2 other (.inl digits.1)]
    rcases tail with rfl | rfl <;> simp [numberMatch, numberMatch.whole, none, digits.pos]
  have refused : longestMatch? (c :: rest) = .none := by
    rcases tail with rfl | rfl <;>
      simp [longestMatch?, leadingDigits, numberMatch, numberMatch.whole, none]
  have dark : isBlank c = false := by rcases tail with rfl | rfl <;> rfl
  cases ds with
  | nil => exact absurd rfl digits.1
  | cons d ds =>
    have ink := ((Matches.integer digits).inked d List.mem_cons_self).not_blank
    rw [List.cons_append, lex_token ink number, lex_error dark refused]

/-- The mark of a pair needs a letter and a digit. -/
theorem lex_incomplete_pair {rest : List Char} {c : Char} (mark : c = '^' ∨ c = 'v')
    (stop : ∀ c ∈ rest.head?, c.isDigit = false) :
    lex (c :: 'd' :: rest) = (.error, [c]) :: (.error, ['d']) :: lex rest := by
  have none := leadingDigits_of_stop stop
  have refused : longestMatch? (c :: 'd' :: rest) = .none := by
    rcases mark with rfl | rfl <;> simp [longestMatch?, longestMatch?.pair, none]
  have letter : longestMatch? ('d' :: rest) = .none := by
    simp [longestMatch?, leadingDigits, numberMatch, numberMatch.whole, none]
  have dark : isBlank c = false := by rcases mark with rfl | rfl <;> rfl
  rw [lex_error dark refused, lex_error rfl letter]

/-- The tokens of a text are its only partition by longest match, no slice has two kinds, and
incomplete tails are given back. -/
theorem tokens_only_partition :
    (∀ (text : String) (ts : List Token), Partition 0 text.toList ts ↔ ts = tokens text) ∧
    (∀ kind other body, Matches kind body → Matches other body → kind = other) ∧
    ∀ rest : List Char, (∀ c ∈ rest.head?, c.isDigit = false) →
      (∀ ds c, Digits ds → c = 'd' ∨ c = '.' →
        lex (ds ++ c :: rest) = (.integer, ds) :: (.error, [c]) :: lex rest) ∧
      ∀ c, c = '^' ∨ c = 'v' →
        lex (c :: 'd' :: rest) = (.error, [c]) :: (.error, ['d']) :: lex rest := by
  refine ⟨fun text ts => partition_iff 0 text.toList ts, fun _ _ _ h h' => h.unique h', ?_⟩
  intro rest stop
  exact ⟨fun ds c digits tail => lex_incomplete_number digits tail stop,
    fun c mark => lex_incomplete_pair mark stop⟩

/-- A count without its letter, a point without its places and a mark without its die. -/
theorem incomplete_literals_given_back :
    (∀ ts, Partition 0 "12d".toList ts → ts.map Token.lexeme = [(.integer, ['1', '2']),
      (.error, ['d'])]) ∧
    lexemes "1.x" = [(.integer, ['1']), (.error, ['.']), (.error, ['x'])] ∧
    lexemes "^dx" = [(.error, ['^']), (.error, ['d']), (.error, ['x'])] := by
  obtain ⟨partition, -, incomplete⟩ := tokens_only_partition
  have one : Digits ['1'] := ⟨List.cons_ne_nil _ _, List.forall_mem_singleton.mpr rfl⟩
  have twelve : Digits ['1', '2'] :=
    ⟨List.cons_ne_nil _ _, List.forall_mem_cons.mpr ⟨rfl, List.forall_mem_singleton.mpr rfl⟩⟩
  have letter : ∀ c ∈ ['x'].head?, c.isDigit = false := by rintro c ⟨⟩; rfl
  refine ⟨?_, ?_, ?_⟩
  · intro ts h
    rw [(partition "12d" ts).mp h]
    exact (incomplete [] nofun).1 ['1', '2'] 'd' twelve (.inl rfl)
  · exact (incomplete ['x'] letter).1 ['1'] '.' one (.inr rfl)
  · exact (incomplete ['x'] letter).2 '^' (.inl rfl)

end DiceNotation
