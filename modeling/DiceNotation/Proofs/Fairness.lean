import DiceNotation.Roller.Words
import Mathlib.Algebra.BigOperators.Group.Finset.Basic
import Mathlib.Algebra.Order.Floor.Div
import Mathlib.Data.FinEnum
import Mathlib.Order.Interval.Finset.Nat

/-!
Fairness of dice from random words. A word counts for a face when its multiple by the sides falls
into the window of that face, which is as long as the zone. If the sides divide the length then all
windows hold equally many multiples, so every face has equally many words; both zones are such
lengths, and each takes at least half of all words.
-/
namespace DiceNotation.WordDice

open Finset (univ range Ico)
open scoped BigOperators

/-- The words that count. -/
def accepted (zone : Nat) (d : Die) : Finset UInt32 := univ.filter fun word => lowHalf d word ≤ zone

/-- The words that count for a face. -/
def wordsOf (zone : Nat) {d : Die} (face : Face d) : Finset UInt32 :=
  (accepted zone d).filter fun word => faceOf d word = face

/-- Every face has the same share of the words, and half of all words or more have a face. -/
structure Fair (zone : Nat) (d : Die) : Prop where
  divides : d.sides ∣ zone + 1
  share : ∀ face : Face d, (wordsOf zone face).card = (zone + 1) / d.sides
  half : UInt32.size ≤ 2 * (accepted zone d).card

/- Counting. -/

section

variable {zone : Nat} {d : Die}

theorem mem_accepted {word : UInt32} : word ∈ accepted zone d ↔ lowHalf d word ≤ zone := by
  simp [accepted]

theorem faceOf_eq_iff {word : UInt32} {face : Face d} :
    faceOf d word = face ↔ highHalf d word = face.pips - 1 := by
  obtain ⟨pips, pos, le⟩ := face
  rw [faceOf, Face.mk.injEq]
  show _ ↔ highHalf d word = pips - 1
  omega

/-- The window of a face: the multiples from its first product to as many above as the zone has. -/
theorem halves_iff (small : zone < UInt32.size) (word : UInt32) (k : Nat) :
    lowHalf d word ≤ zone ∧ highHalf d word = k ↔
      k * UInt32.size ≤ d.sides * word.toNat ∧
        d.sides * word.toNat < k * UInt32.size + (zone + 1) := by
  unfold lowHalf highHalf
  rw [Nat.mul_comm word.toNat]
  generalize d.sides * word.toNat = product
  have parts := Nat.mod_add_div' product UInt32.size
  constructor
  · rintro ⟨low, rfl⟩
    omega
  · rintro ⟨least, most⟩
    have high : product / UInt32.size = k := Nat.div_eq_of_lt_le least (by rw [Nat.succ_mul]; omega)
    rw [high] at parts
    exact ⟨by omega, high⟩

/-- The multiples in a window are those of consecutive numbers. -/
theorem window_iff {n m start : Nat} (pos : 0 < n) (word : Nat) :
    start ≤ n * word ∧ n * word < start + n * m ↔
      word ∈ Ico (start ⌈/⌉ n) (start ⌈/⌉ n + m) := by
  have shifted : (start + n * m) ⌈/⌉ n = start ⌈/⌉ n + m := by
    rw [Nat.ceilDiv_eq_add_pred_div, Nat.ceilDiv_eq_add_pred_div, ← Nat.add_mul_div_left _ _ pos]
    congr 1
    omega
  rw [Finset.mem_Ico, ceilDiv_le_iff_le_mul pos, ← shifted, ← not_le, ← not_le,
    ceilDiv_le_iff_le_mul pos]

/-- The words of a window of `n * m` numbers are `m` in a row. -/
theorem card_high (small : zone < UInt32.size) (divides : d.sides ∣ zone + 1) {k : Nat}
    (below : k < d.sides) :
    ((accepted zone d).filter fun word => highHalf d word = k).card = (zone + 1) / d.sides := by
  obtain ⟨m, length⟩ := divides
  rw [length, Nat.mul_div_cancel_left m d.pos]
  let first := (k * UInt32.size) ⌈/⌉ d.sides
  have member (word : UInt32) : word ∈ (accepted zone d).filter (fun word => highHalf d word = k) ↔
      word.toNat ∈ Ico first (first + m) := by
    rw [Finset.mem_filter, mem_accepted, halves_iff small, length]
    exact window_iff d.pos word.toNat
  have short {x : Nat} (inside : x ∈ Ico first (first + m)) : x < UInt32.size := by
    have product := ((window_iff d.pos x).mpr inside).2
    apply Nat.lt_of_mul_lt_mul_left (a := d.sides)
    calc
      d.sides * x < k * UInt32.size + d.sides * m := product
      _ ≤ k * UInt32.size + UInt32.size := Nat.add_le_add_left (length ▸ small) _
      _ = (k + 1) * UInt32.size := (Nat.succ_mul _ _).symm
      _ ≤ d.sides * UInt32.size := Nat.mul_le_mul_right _ below
  have numbers : (Ico first (first + m)).card = m := by
    rw [Nat.card_Ico, Nat.add_sub_cancel_left]
  rw [← numbers]
  refine Finset.card_bij (fun word _ => word.toNat) ?_ ?_ ?_
  · exact fun word inside => (member word).mp inside
  · exact fun word _ word' _ same => UInt32.toNat_inj.mp same
  · intro x inside
    have back : (UInt32.ofNat x).toNat = x := UInt32.toNat_ofNat_of_lt' (short inside)
    exact ⟨UInt32.ofNat x, (member _).mpr (by rwa [back]), back⟩

theorem card_wordsOf (small : zone < UInt32.size) (divides : d.sides ∣ zone + 1) (face : Face d) :
    (wordsOf zone face).card = (zone + 1) / d.sides := by
  have below : face.pips - 1 < d.sides := Nat.sub_one_lt_of_le face.pos face.le
  rw [← card_high small divides below]
  simp only [wordsOf, faceOf_eq_iff]

theorem card_accepted (small : zone < UInt32.size) (divides : d.sides ∣ zone + 1) :
    (accepted zone d).card = zone + 1 := by
  have falls : Set.MapsTo (highHalf d) (accepted zone d) (range d.sides) := fun word _ =>
    Finset.mem_coe.mpr (Finset.mem_range.mpr (highHalf_lt d word))
  calc
    (accepted zone d).card = ∑ k ∈ range d.sides,
        ((accepted zone d).filter fun word => highHalf d word = k).card :=
      Finset.card_eq_sum_card_fiberwise falls
    _ = ∑ _k ∈ range d.sides, (zone + 1) / d.sides :=
      Finset.sum_congr rfl fun k below => card_high small divides (Finset.mem_range.mp below)
    _ = d.sides * ((zone + 1) / d.sides) := by simp
    _ = zone + 1 := Nat.mul_div_cancel' divides

theorem fair_of_divides (small : zone < UInt32.size) (divides : d.sides ∣ zone + 1)
    (half : UInt32.size ≤ 2 * (zone + 1)) : Fair zone d :=
  ⟨divides, card_wordsOf small divides, by rwa [card_accepted small divides]⟩

end

/- The zones. -/

section

variable (d : Die)

theorem log2_sides_le : d.sides.log2 ≤ 31 := by
  have below : d.sides.log2 < 32 := (Nat.log2_lt (Nat.ne_of_gt d.pos)).mpr d.lt
  omega

theorem singleZone_add_one : singleZone d + 1 = d.sides * 2 ^ (31 - d.sides.log2) := by
  have some : 0 < d.sides * 2 ^ (31 - d.sides.log2) := Nat.mul_pos d.pos (Nat.two_pow_pos _)
  rw [singleZone, Nat.shiftLeft_eq]
  omega

theorem handZone_add_one : handZone d + 1 = UInt32.size - UInt32.size % d.sides := by
  have rest : (UInt32.size - d.sides) % d.sides = UInt32.size % d.sides :=
    (Nat.mod_eq_sub_mod (Nat.le_of_lt d.lt)).symm
  have less := Nat.mod_lt UInt32.size d.pos
  have sides := d.lt
  rw [handZone, rest]
  omega

/-- The sides reach the top bit of a word, and not beyond. -/
theorem singleZone_bounds :
    UInt32.size ≤ 2 * (singleZone d + 1) ∧ singleZone d < UInt32.size := by
  have some := Nat.ne_of_gt d.pos
  have log := log2_sides_le d
  have top : 2 ^ d.sides.log2 * 2 ^ (31 - d.sides.log2) = 2 ^ 31 := by
    rw [← Nat.pow_add, Nat.add_sub_cancel' log]
  have low := Nat.mul_le_mul_right (2 ^ (31 - d.sides.log2)) (Nat.log2_self_le some)
  have high : d.sides * 2 ^ (31 - d.sides.log2) <
      2 ^ (d.sides.log2 + 1) * 2 ^ (31 - d.sides.log2) :=
    Nat.mul_lt_mul_of_pos_right Nat.lt_log2_self (Nat.two_pow_pos _)
  rw [Nat.pow_succ, Nat.mul_right_comm, top] at high
  rw [top, ← singleZone_add_one] at low
  rw [← singleZone_add_one] at high
  unfold UInt32.size
  omega

theorem singleZone_divides : d.sides ∣ singleZone d + 1 := by
  rw [singleZone_add_one]
  exact Nat.dvd_mul_right _ _

theorem handZone_divides : d.sides ∣ handZone d + 1 := by
  rw [handZone_add_one]
  exact Nat.dvd_sub_mod _

theorem handZone_lt : handZone d < UInt32.size := by
  have size : 0 < UInt32.size := by decide
  unfold handZone
  omega

/-- No multiple of the sides that fits a word is greater than the length of the wider zone. -/
theorem singleZone_le_handZone : singleZone d ≤ handZone d := by
  obtain ⟨_, small⟩ := singleZone_bounds d
  obtain ⟨m, length⟩ := singleZone_divides d
  have most : m ≤ UInt32.size / d.sides := by
    rw [Nat.le_div_iff_mul_le d.pos, Nat.mul_comm, ← length]
    exact small
  have lengths := Nat.mul_le_mul_left d.sides most
  have parts := Nat.div_add_mod UInt32.size d.sides
  have wide := handZone_add_one d
  omega

theorem fair_singleZone : Fair (singleZone d) d :=
  fair_of_divides (singleZone_bounds d).2 (singleZone_divides d) (singleZone_bounds d).1

theorem fair_handZone : Fair (handZone d) d := by
  have half := (singleZone_bounds d).1
  have wider := singleZone_le_handZone d
  exact fair_of_divides (handZone_lt d) (handZone_divides d) (by omega)

theorem accepted_single_subset : accepted (singleZone d) d ⊆ accepted (handZone d) d := by
  intro word inside
  rw [mem_accepted] at inside ⊢
  exact inside.trans (singleZone_le_handZone d)

end

/- Sources. -/

section

variable {σ : Type} [WordSource σ] {zone : Nat} {d : Die}

/-- The first word within the zone, after any number of others, and the source behind it. -/
inductive First (zone : Nat) (d : Die) : σ → UInt32 → σ → Prop where
  | accept {s word t} : WordSource.next s = (word, t) → word ∈ accepted zone d →
      First zone d s word t
  | refuse {s other s' word t} : WordSource.next s = (other, s') → other ∉ accepted zone d →
      First zone d s' word t → First zone d s word t

/-- As many words within the zone as are in the list, one after the other. -/
inductive Firsts (zone : Nat) (d : Die) : σ → List UInt32 → σ → Prop where
  | nil (s) : Firsts zone d s [] s
  | cons {s word t words u} : First zone d s word t → Firsts zone d t words u →
      Firsts zone d s (word :: words) u

theorem attempt_of_accepted {s t : σ} {word : UInt32} (next : WordSource.next s = (word, t))
    (inside : word ∈ accepted zone d) : attempt zone d s = .inr (faceOf d word, t) := by
  rw [attempt, next]
  exact if_pos (mem_accepted.mp inside)

theorem attempt_of_refused {s t : σ} {word : UInt32} (next : WordSource.next s = (word, t))
    (outside : word ∉ accepted zone d) : attempt zone d s = .inl t := by
  rw [attempt, next]
  exact if_neg fun low => outside (mem_accepted.mpr low)

theorem First.drawWithin {s t : σ} {word : UInt32} (first : First zone d s word t) :
    drawWithin zone d s = (faceOf d word, t) := by
  induction first with
  | accept next inside => rw [drawWithin_eq, attempt_of_accepted next inside]
  | refuse next outside _ ih =>
    rw [drawWithin_eq, attempt_of_refused next outside]
    exact ih

theorem Firsts.drawFrom {s t : σ} {words : List UInt32} (firsts : Firsts zone d s words t)
    (drawn : List (Face d)) :
    Hand.drawFrom (WordDice.drawWithin zone d) words.length drawn s =
      (drawn.reverse ++ words.map (faceOf d), t) := by
  induction firsts generalizing drawn with
  | nil s => simp [Hand.drawFrom]
  | cons first _ ih => simp [Hand.drawFrom, first.drawWithin, ih]

/-- The word after `n` others. -/
def wordAfter : Nat → σ → UInt32
  | 0, s => (WordSource.next s).1
  | n + 1, s => wordAfter n (WordSource.next s).2

/-- A source that has a word within the zone has a first one. -/
theorem exists_first {n : Nat} {s : σ} (inside : wordAfter n s ∈ accepted zone d) :
    ∃ word t, First zone d s word t := by
  induction n generalizing s with
  | zero => exact ⟨_, _, .accept rfl inside⟩
  | succ n ih =>
    by_cases now : (WordSource.next s).1 ∈ accepted zone d
    · exact ⟨_, _, .accept rfl now⟩
    · obtain ⟨word, t, first⟩ := ih inside
      exact ⟨word, t, .refuse rfl now first⟩

theorem First.roll {s t : σ} {word : UInt32} (first : First (singleZone d) d s word t) :
    Roller.roll d s = (faceOf d word, t) :=
  first.drawWithin

theorem Firsts.rollPair {s t : σ} {first second : UInt32}
    (firsts : Firsts (singleZone d) d s [first, second] t) :
    Roller.rollPair d s = ((faceOf d first, faceOf d second), t) := by
  obtain _ | ⟨one, _ | ⟨two, ⟨⟩⟩⟩ := firsts
  simp only [Roller.rollPair, one.drawWithin, two.drawWithin]

theorem Firsts.rollHand {s t : σ} {words : List UInt32} (firsts : Firsts (handZone d) d s words t) :
    ∃ hand, Roller.rollHand words.length d s = (hand, t) ∧ hand.faces = words.map (faceOf d) := by
  have drawn := firsts.drawFrom []
  refine ⟨⟨words.map (faceOf d), List.length_map _⟩, ?_, rfl⟩
  show Hand.drawEach (WordDice.drawWithin (handZone d) d) words.length s = _
  simp [Hand.drawEach, drawn]

end

/-- Either way of rolling dice is fair: each face has the same number of words, and a roll shows the
face of the first word that counts. What counts for a die by itself counts for a die of a hand, and
as the same face. -/
theorem rolls_fair (d : Die) :
    Fair (singleZone d) d ∧ Fair (handZone d) d ∧
    (∀ word, (faceOf d word).pips = highHalf d word + 1) ∧
    (∀ face : Face d, 1 ≤ face.pips ∧ face.pips ≤ d.sides) ∧
    accepted (singleZone d) d ⊆ accepted (handZone d) d ∧
    ∀ {σ : Type} [WordSource σ] (s : σ),
      (∀ {n}, wordAfter n s ∈ accepted (singleZone d) d →
        ∃ word t, First (singleZone d) d s word t ∧ Roller.roll d s = (faceOf d word, t)) ∧
      (∀ {first second t}, Firsts (singleZone d) d s [first, second] t →
        Roller.rollPair d s = ((faceOf d first, faceOf d second), t)) ∧
      (∀ {words t}, Firsts (handZone d) d s words t → ∃ hand,
        Roller.rollHand words.length d s = (hand, t) ∧ hand.faces = words.map (faceOf d)) ∧
      (wordAfter 0 s ∈ accepted (singleZone d) d → ∃ hand t,
        Roller.roll d s = (faceOf d (wordAfter 0 s), t) ∧
        Roller.rollHand 1 d s = (hand, t) ∧ hand.faces = [faceOf d (wordAfter 0 s)]) := by
  refine ⟨fair_singleZone d, fair_handZone d, fun _ => rfl, fun face => ⟨face.pos, face.le⟩,
    accepted_single_subset d, ?_⟩
  intro σ _ s
  refine ⟨?_, Firsts.rollPair, Firsts.rollHand, ?_⟩
  · intro n inside
    obtain ⟨word, t, first⟩ := exists_first inside
    exact ⟨word, t, first, first.roll⟩
  · intro inside
    have single : First (singleZone d) d s _ _ := .accept rfl inside
    have hand : First (handZone d) d s _ _ := .accept rfl (accepted_single_subset d inside)
    obtain ⟨served, rolled, faces⟩ := (Firsts.cons hand (.nil _)).rollHand
    exact ⟨served, _, single.roll, rolled, faces⟩

end DiceNotation.WordDice
