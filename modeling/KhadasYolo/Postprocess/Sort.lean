import KhadasYolo.Lib.FloatConvert
import Mathlib.Logic.Equiv.Basic

/-!
# The sort of the scores

`quick_sort_indice_inverse` sorts an array of scores in place, the largest first, and
moves an array of indices along. The partition takes the first score out and moves the
hole that it leaves until it is in place. Both arrays undergo one permutation.
-/

namespace KhadasYolo.Postprocess

universe u v

/-- The two arrays that are sorted together. -/
@[ext] structure Ranking (F : Type u) (α : Type v) where
  input : Nat → F
  indices : Nat → α

variable {F : Type u} {α : Type v}

namespace Ranking

/-- Write a score and its index. -/
def put (self : Ranking F α) (place : Nat) (key : F) (keyIndex : α) : Ranking F α where
  input := Function.update self.input place key
  indices := Function.update self.indices place keyIndex

/-- Copy a score and its index. -/
def move (self : Ranking F α) (place source : Nat) : Ranking F α :=
  self.put place (self.input source) (self.indices source)

/-- The arrays after a permutation. -/
def reorder (self : Ranking F α) (order : Equiv.Perm Nat) : Ranking F α where
  input := self.input ∘ order
  indices := self.indices ∘ order

end Ranking

section Source

variable [FloatConvert F]

/-- The loop that lowers `high` past the scores that may stay behind the key. -/
def lowerHigh (input : Nat → F) (key : F) (low : Nat) : Nat → Nat
  | 0 => 0
  | high + 1 =>
      if low < high + 1 ∧ FloatConvert.lessEq (input (high + 1)) key then
        lowerHigh input key low high
      else high + 1

/-- The loop that raises `low` past the scores that may stay before the key, with the
number of steps to `high`. -/
def raiseLow (input : Nat → F) (key : F) (high : Nat) : Nat → Nat → Nat
  | 0, low => low
  | steps + 1, low =>
      if low < high ∧ FloatConvert.lessEq key (input low) then
        raiseLow input key high steps (low + 1)
      else low

/-- The outer loop of the partition, and the place where it ends. With values that
cannot be compared it would go on for ever. -/
def partitionRounds (key : F) : Nat → Ranking F α → Nat → Nat → Option (Ranking F α × Nat)
  | 0, ranking, low, high => if low < high then none else some (ranking, low)
  | rounds + 1, ranking, low, high =>
      if low < high then
        let lowered := lowerHigh ranking.input key low high
        let filled := ranking.move low lowered
        let raised := raiseLow filled.input key lowered (lowered - low) low
        partitionRounds key rounds (filled.move lowered raised) raised lowered
      else some (ranking, low)

/-- The sort of a range, with a bound on the depth of the recursion. -/
def quickSortIndiceInverse : Nat → Nat → Nat → Ranking F α → Option (Ranking F α)
  | depth, left, right, ranking =>
      if left < right then
        match depth with
        | 0 => none
        | depth + 1 =>
            let key := ranking.input left
            let keyIndex := ranking.indices left
            (partitionRounds key (right - left) ranking left right).bind fun (parted, low) =>
              (quickSortIndiceInverse depth left (low - 1)
                (parted.put low key keyIndex)).bind
                (quickSortIndiceInverse depth (low + 1) right)
      else some ranking

end Source

/-! ## The hole -/

/-- Moving a hole exchanges two elements of an array with the filler in the hole. -/
theorem update_hole {β : Type*} (values : Nat → β) (filler : β) (place source : Nat) :
    Function.update (Function.update values place (values source)) source filler =
      Function.update values place filler ∘ Equiv.swap place source := by
  funext i
  simp only [Function.comp_apply, Function.update_apply, Equiv.swap_apply_def]
  split_ifs <;> simp_all

section Hole

variable (ranking : Ranking F α) (key : F) (keyIndex : α)

theorem put_self (place : Nat) :
    ranking.put place (ranking.input place) (ranking.indices place) = ranking := by
  simp [Ranking.put]

theorem move_put (place source : Nat) :
    (ranking.move place source).put source key keyIndex =
      (ranking.put place key keyIndex).reorder (Equiv.swap place source) :=
  Ranking.ext (update_hole ranking.input key place source)
    (update_hole ranking.indices keyIndex place source)

theorem reorder_input (order : Equiv.Perm Nat) (i : Nat) :
    (ranking.reorder order).input i = ranking.input (order i) := rfl

theorem put_input_self (place : Nat) : (ranking.put place key keyIndex).input place = key :=
  Function.update_self ..

theorem put_input_of_ne {place i : Nat} (apart : i ≠ place) :
    (ranking.put place key keyIndex).input i = ranking.input i :=
  Function.update_of_ne apart ..

theorem reorder_reorder (first second : Equiv.Perm Nat) :
    (ranking.reorder first).reorder second = ranking.reorder (second.trans first) := rfl

end Hole

/-- A permutation leaves everything outside of a range where it is. -/
def Within (left right : Nat) (order : Equiv.Perm Nat) : Prop :=
  ∀ i, i < left ∨ right < i → order i = i

section Within

variable {left right : Nat} {first second order : Equiv.Perm Nat}

theorem Within.refl : Within left right (Equiv.refl Nat) := fun _ _ => rfl

theorem Within.trans (inFirst : Within left right first) (inSecond : Within left right second) :
    Within left right (first.trans second) := by
  intro i outside
  rw [Equiv.trans_apply, inFirst i outside, inSecond i outside]

theorem Within.mono {low high : Nat} (within : Within low high order) (lower : left ≤ low)
    (upper : high ≤ right) : Within left right order := by
  intro i outside
  exact within i (by omega)

theorem Within.swap {i j : Nat} (first : left ≤ i ∧ i ≤ right) (second : left ≤ j ∧ j ≤ right) :
    Within left right (Equiv.swap i j) := by
  intro k outside
  exact Equiv.swap_apply_of_ne_of_ne (by omega) (by omega)

/-- What is in the range stays in it. -/
theorem Within.mem (within : Within left right order) {i : Nat}
    (inside : left ≤ i ∧ i ≤ right) : left ≤ order i ∧ order i ≤ right := by
  by_contra outside
  have fixed := within (order i) (by omega)
  have same := order.injective fixed
  omega

end Within

/-! ## The partition -/

variable [FloatConvert F]

/-- Any two scores can be compared. -/
structure Ordered (score : F → Prop) : Prop where
  total : ∀ a b, score a → score b →
    FloatConvert.lessEq a b = true ∨ FloatConvert.lessEq b a = true
  trans : ∀ a b c, score a → score b → score c → FloatConvert.lessEq a b = true →
    FloatConvert.lessEq b c = true → FloatConvert.lessEq a c = true

section Scans

variable (input : Nat → F) (key : F)

theorem lowerHigh_spec {low high : Nat} (bounds : low ≤ high) :
    low ≤ lowerHigh input key low high ∧ lowerHigh input key low high ≤ high ∧
      (∀ i, lowerHigh input key low high < i → i ≤ high →
        FloatConvert.lessEq (input i) key = true) ∧
      (low < lowerHigh input key low high →
        ¬ FloatConvert.lessEq (input (lowerHigh input key low high)) key = true) := by
  induction high with
  | zero =>
      rw [Nat.le_zero.mp bounds, lowerHigh]
      exact ⟨Nat.le_refl _, Nat.le_refl _, by omega, by omega⟩
  | succ high ih =>
      rw [lowerHigh]
      split
      next passes =>
        rcases ih (by omega) with ⟨above, below, behind, stops⟩
        refine ⟨above, by omega, fun i after last => ?_, stops⟩
        rcases Nat.le_succ_iff.mp last with earlier | rfl
        · exact behind i after earlier
        · exact passes.2
      next stops =>
        exact ⟨bounds, Nat.le_refl _, by omega, fun within passes => stops ⟨within, passes⟩⟩

theorem raiseLow_spec {steps low high : Nat} (bounds : low + steps = high) :
    low ≤ raiseLow input key high steps low ∧ raiseLow input key high steps low ≤ high ∧
      ∀ i, low ≤ i → i < raiseLow input key high steps low →
        FloatConvert.lessEq key (input i) = true := by
  induction steps generalizing low with
  | zero =>
      rw [raiseLow]
      exact ⟨Nat.le_refl _, by omega, by omega⟩
  | succ steps ih =>
      rw [raiseLow]
      split
      next passes =>
        have rest : low + 1 + steps = high := by omega
        rcases ih rest with ⟨above, below, before⟩
        refine ⟨by omega, below, fun i after earlier => ?_⟩
        rcases Nat.eq_or_lt_of_le after with rfl | later
        · exact passes.2
        · exact before i later earlier
      next => exact ⟨Nat.le_refl _, by omega, by omega⟩

/-- The first step of the second scan. -/
theorem raiseLow_pos {steps low high : Nat} (bounds : low + steps = high) (within : low < high)
    (passes : FloatConvert.lessEq key (input low) = true) :
    low < raiseLow input key high steps low := by
  cases steps with
  | zero => omega
  | succ steps =>
      have rest : low + 1 + steps = high := by omega
      rw [raiseLow, if_pos ⟨within, passes⟩]
      exact (raiseLow_spec input key rest).1

end Scans

/-- The arrays in the middle of a partition: with the key in the hole they are a
permutation, and the scores on both sides are where they belong. -/
structure Parting (score : F → Prop) (start : Ranking F α) (key : F) (keyIndex : α)
    (left right : Nat) (ranking : Ranking F α) (low high : Nat) : Prop where
  lower : left ≤ low
  ordered : low ≤ high
  upper : high ≤ right
  reordered : ∃ order, Within left right order ∧
    ranking.put low key keyIndex = start.reorder order
  before : ∀ i, left ≤ i → i < low → FloatConvert.lessEq key (ranking.input i) = true
  behind : ∀ i, high < i → i ≤ right → FloatConvert.lessEq (ranking.input i) key = true
  scores : ∀ i, left ≤ i → i ≤ right → score (ranking.input i)

section Partition

variable {score : F → Prop} {start ranking : Ranking F α} {key : F} {keyIndex : α}
  {left right low high : Nat}

omit [FloatConvert F] in
theorem move_input (ranking : Ranking F α) (place source i : Nat) :
    (ranking.move place source).input i =
      if i = place then ranking.input source else ranking.input i :=
  Function.update_apply ..

omit [FloatConvert F] in
/-- A move between two places of the range keeps the permutation and the scores. -/
theorem Parting.reordered_move {place source : Nat}
    (reordered : ∃ order, Within left right order ∧
      ranking.put place key keyIndex = start.reorder order)
    (first : left ≤ place ∧ place ≤ right) (second : left ≤ source ∧ source ≤ right) :
    ∃ order, Within left right order ∧
      (ranking.move place source).put source key keyIndex = start.reorder order := by
  rcases reordered with ⟨order, within, same⟩
  refine ⟨(Equiv.swap place source).trans order, (Within.swap first second).trans within, ?_⟩
  rw [move_put, same, reorder_reorder]

/-- One round of the partition. -/
theorem Parting.round (comparable : Ordered score) (keyScore : score key)
    (parting : Parting score start key keyIndex left right ranking low high)
    (open_range : low < high) :
    let lowered := lowerHigh ranking.input key low high
    let filled := ranking.move low lowered
    let raised := raiseLow filled.input key lowered (lowered - low) low
    Parting score start key keyIndex left right (filled.move lowered raised) raised lowered ∧
      lowered - raised < high - low := by
  intro lowered filled raised
  have lower := parting.lower
  have upper := parting.upper
  rcases lowerHigh_spec ranking.input key parting.ordered with
    ⟨lowLowered, loweredHigh, behind, stops⟩
  have steps : low + (lowered - low) = lowered := Nat.add_sub_cancel' lowLowered
  rcases raiseLow_spec filled.input key steps with ⟨lowRaised, raisedLowered, before⟩
  constructor
  · constructor
    · exact lower.trans lowRaised
    · exact raisedLowered
    · exact loweredHigh.trans upper
    · refine Parting.reordered_move (Parting.reordered_move parting.reordered ?_ ?_) ?_ ?_
      all_goals omega
    · intro i after earlier
      rw [move_input, if_neg (by omega)]
      by_cases scanned : low ≤ i
      · exact before i scanned earlier
      · rw [move_input, if_neg (by omega)]
        exact parting.before i after (by omega)
    · intro i after last
      rw [move_input, if_neg (by omega), move_input, if_neg (by omega)]
      by_cases scanned : i ≤ high
      · exact behind i after scanned
      · exact parting.behind i (by omega) last
    · intro i after last
      rw [move_input]
      split
      next =>
        rw [move_input]
        split <;> exact parting.scores _ (by omega) (by omega)
      next =>
        rw [move_input]
        split <;> exact parting.scores _ (by omega) (by omega)
  · by_cases moved : lowered < high
    · omega
    · -- The score in the last place is larger than the key, and goes before it.
      have same : lowered = high := by omega
      have larger := stops (show low < lowered by omega)
      have last := parting.scores lowered (by omega) (by omega)
      have passes : FloatConvert.lessEq key (filled.input low) = true := by
        rw [move_input, if_pos rfl]
        exact (comparable.total key _ keyScore last).resolve_right larger
      have raises : low < raised :=
        raiseLow_pos filled.input key steps (by omega) passes
      omega

/-- The partition ends, with one place for the key. -/
theorem partitionRounds_parting (comparable : Ordered score) (keyScore : score key)
    {rounds : Nat} (enough : high - low ≤ rounds)
    (parting : Parting score start key keyIndex left right ranking low high) :
    ∃ parted place, partitionRounds key rounds ranking low high = some (parted, place) ∧
      Parting score start key keyIndex left right parted place place := by
  induction rounds generalizing ranking low high with
  | zero =>
      have ordered := parting.ordered
      have closed : low = high := by omega
      subst closed
      exact ⟨ranking, low, if_neg (Nat.lt_irrefl _), parting⟩
  | succ rounds ih =>
      by_cases open_range : low < high
      · rcases parting.round comparable keyScore open_range with ⟨next, closer⟩
        rw [partitionRounds, if_pos open_range]
        exact ih (by omega) next
      · have ordered := parting.ordered
        have closed : low = high := by omega
        subst closed
        exact ⟨ranking, low, if_neg open_range, parting⟩

end Partition

/-! ## The whole sort -/

/-- A range of the arrays has been sorted by a permutation of it. -/
structure Sorted (start : Ranking F α) (left right : Nat) (sorted : Ranking F α)
    (order : Equiv.Perm Nat) : Prop where
  within : Within left right order
  reordered : sorted = start.reorder order
  descending : ∀ i j, left ≤ i → i < j → j ≤ right →
    FloatConvert.lessEq (sorted.input j) (sorted.input i) = true

section Join

variable {score : F → Prop} {start parted first second : Ranking F α} {key : F}
  {keyIndex : α} {left right place : Nat} {inFirst inSecond : Equiv.Perm Nat}

/-- The first half of the sort does not touch the key and what is behind it. -/
theorem Sorted.behind (before : Sorted start left (place - 1) first inFirst) {i : Nat}
    (lower : left ≤ i) (after : place ≤ i) : inFirst i = i := by
  by_cases inside : i ≤ place - 1
  · have bounds := before.within.mem ⟨lower, inside⟩
    omega
  · exact before.within i (.inr (by omega))

/-- Two sorted halves with the key between them are sorted. -/
theorem Parting.join (comparable : Ordered score) (keyScore : score key)
    (parting : Parting score start key keyIndex left right parted place place)
    (before : Sorted (parted.put place key keyIndex) left (place - 1) first inFirst)
    (behind : Sorted first (place + 1) right second inSecond) :
    ∃ order, Sorted start left right second order := by
  have lower := parting.lower
  have upper := parting.upper
  rcases parting.reordered with ⟨order, within, same⟩
  have reordered : second = start.reorder (inSecond.trans (inFirst.trans order)) := by
    rw [behind.reordered, before.reordered, same, reorder_reorder, reorder_reorder,
      Equiv.trans_assoc]
  have inRange : Within left right (inSecond.trans (inFirst.trans order)) :=
    (behind.within.mono (by omega) (Nat.le_refl _)).trans
      ((before.within.mono (Nat.le_refl _) (by omega)).trans within)
  have second_input : ∀ i, second.input i =
      (parted.put place key keyIndex).input (inFirst (inSecond i)) := by
    intro i
    rw [behind.reordered, before.reordered, reorder_input, reorder_input]
  have middle : second.input place = key := by
    rw [second_input, behind.within place (.inl (Nat.lt_succ_self _)),
      before.behind lower (Nat.le_refl _), put_input_self]
  have high : ∀ i, left ≤ i → i < place →
      FloatConvert.lessEq key (second.input i) = true := by
    intro i after earlier
    have stays := before.within.mem (i := i) ⟨after, by omega⟩
    rw [second_input, behind.within i (.inl (by omega)), put_input_of_ne _ _ _ (by omega)]
    exact parting.before _ stays.1 (by omega)
  have low : ∀ i, place < i → i ≤ right →
      FloatConvert.lessEq (second.input i) key = true := by
    intro i after last
    have stays := behind.within.mem (i := i) ⟨after, last⟩
    rw [second_input, before.behind (by omega) (by omega), put_input_of_ne _ _ _ (by omega)]
    exact parting.behind _ stays.1 stays.2
  have scores : ∀ i, left ≤ i → i ≤ right → score (second.input i) := by
    intro i after last
    rw [second_input]
    by_cases hole : inFirst (inSecond i) = place
    · rw [hole, put_input_self]
      exact keyScore
    · rw [put_input_of_ne _ _ _ hole]
      have lowerHalf : left ≤ place + 1 := by omega
      have upperHalf : place - 1 ≤ right := by omega
      have inner := (behind.within.mono lowerHalf (Nat.le_refl _)).mem ⟨after, last⟩
      have outer := (before.within.mono (Nat.le_refl _) upperHalf).mem inner
      exact parting.scores _ outer.1 outer.2
  refine ⟨_, inRange, reordered, fun i j after ordered last => ?_⟩
  rcases Nat.lt_trichotomy i place with earlier | rfl | later
  · rcases Nat.lt_trichotomy j place with first_half | rfl | second_half
    · have descending := before.descending i j after ordered (by omega)
      rwa [behind.reordered, reorder_input, reorder_input,
        behind.within i (.inl (by omega)), behind.within j (.inl (by omega))]
    · rw [middle]
      exact high i after earlier
    · exact comparable.trans _ key _ (scores j (by omega) last) keyScore
        (scores i after (by omega)) (low j second_half last) (high i after earlier)
  · rw [middle]
    exact low j ordered last
  · exact behind.descending i j later ordered last

end Join

/-- The sort ends, and sorts. -/
theorem quickSortIndiceInverse_sorted {score : F → Prop} (comparable : Ordered score)
    {depth left right : Nat} (enough : right ≤ left + depth) {start : Ranking F α}
    (scores : ∀ i, left ≤ i → i ≤ right → score (start.input i)) :
    ∃ sorted order, quickSortIndiceInverse depth left right start = some sorted ∧
      Sorted start left right sorted order := by
  induction depth generalizing left right start with
  | zero =>
      rw [quickSortIndiceInverse, if_neg (by omega)]
      exact ⟨start, .refl _, rfl, .refl, rfl, by omega⟩
  | succ depth ih =>
      rw [quickSortIndiceInverse]
      split
      next several =>
        have keyScore := scores left (Nat.le_refl _) several.le
        have begins : Parting score start (start.input left) (start.indices left) left right
            start left right :=
          { lower := Nat.le_refl _
            ordered := several.le
            upper := Nat.le_refl _
            reordered := ⟨.refl _, .refl, put_self start left⟩
            before := by omega
            behind := by omega
            scores := scores }
        rcases partitionRounds_parting comparable keyScore (Nat.le_refl _) begins with
          ⟨parted, place, runs, parting⟩
        have lower := parting.lower
        have upper := parting.upper
        have partedScores : ∀ i, left ≤ i → i ≤ right →
            score ((parted.put place (start.input left) (start.indices left)).input i) := by
          rcases parting.reordered with ⟨order, within, same⟩
          intro i after last
          have stays := within.mem ⟨after, last⟩
          rw [same]
          exact scores _ stays.1 stays.2
        have lowerHalf : place - 1 ≤ left + depth := by omega
        rcases ih lowerHalf (fun i after last => partedScores i after (by omega)) with
          ⟨first, inFirst, sortsFirst, before⟩
        have firstScores : ∀ i, place + 1 ≤ i → i ≤ right → score (first.input i) := by
          intro i after last
          rw [before.reordered, reorder_input,
            before.behind (by omega) (by omega)]
          exact partedScores i (by omega) last
        have upperHalf : right ≤ place + 1 + depth := by omega
        rcases ih upperHalf firstScores with
          ⟨second, inSecond, sortsSecond, behind⟩
        rcases parting.join comparable keyScore before behind with ⟨order, sorted⟩
        refine ⟨second, order, ?_, sorted⟩
        dsimp only
        rw [runs, Option.bind_some, sortsFirst, Option.bind_some, sortsSecond]
      next single => exact ⟨start, .refl _, rfl, .refl, rfl, by omega⟩

end KhadasYolo.Postprocess
