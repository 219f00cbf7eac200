import KhadasYolo.Postprocess.PostProcess
import Mathlib.Data.List.Nodup

/-!
# The sort of two vectors

`quick_sort_indice_inverse` on the two vectors that it is given, with every access to
them. The scores are compared in the vector itself, while the elements of a range move
through the hole that the key has left. The run follows the permutation of the arrays.
-/

namespace KhadasYolo.Postprocess

/-- The two vectors, and the places of all accesses to them so far. -/
structure Vectors (F α : Type) where
  input : List F
  indices : List α
  accesses : List Nat

/-- A part of the sort. An access outside of a vector has no result. -/
abbrev Sorting (F α : Type) := StateT (Vectors F α) Option

namespace Vectors

variable {F α : Type}

/-- `input[place]` -/
def readInput (place : Nat) : Sorting F α F := fun self =>
  (self.input[place]?).map fun score =>
    (score, { self with accesses := self.accesses ++ [place] })

/-- `indices[place]` -/
def readIndex (place : Nat) : Sorting F α α := fun self =>
  (self.indices[place]?).map fun index =>
    (index, { self with accesses := self.accesses ++ [place] })

/-- `input[place] = score` -/
def writeInput (place : Nat) (score : F) : Sorting F α Unit := fun self =>
  if place < self.input.length then
    some ((), { self with
      input := self.input.set place score
      accesses := self.accesses ++ [place] })
  else none

/-- `indices[place] = index` -/
def writeIndex (place : Nat) (index : α) : Sorting F α Unit := fun self =>
  if place < self.indices.length then
    some ((), { self with
      indices := self.indices.set place index
      accesses := self.accesses ++ [place] })
  else none

section Source

variable [FloatConvert F]

/-- `while (low < high && input[high] <= key) high--` -/
def scanHigh (key : F) (low : Nat) : Nat → Sorting F α Nat
  | 0 => pure 0
  | high + 1 =>
      if low < high + 1 then do
        let score ← readInput (high + 1)
        if FloatConvert.lessEq score key then scanHigh key low high else pure (high + 1)
      else pure (high + 1)

/-- `while (low < high && input[low] >= key) low++`, with the number of steps to `high`. -/
def scanLow (key : F) (high : Nat) : Nat → Nat → Sorting F α Nat
  | 0, low => pure low
  | steps + 1, low =>
      if low < high then do
        let score ← readInput low
        if FloatConvert.lessEq key score then scanLow key high steps (low + 1) else pure low
      else pure low

omit [FloatConvert F] in
/-- Copy a score, and then its index. -/
def copy (place source : Nat) : Sorting F α Unit := do
  writeInput place (← readInput source)
  writeIndex place (← readIndex source)

/-- The outer loop of the partition. -/
def partition (key : F) : Nat → Nat → Nat → Sorting F α Nat
  | 0, low, high => if low < high then failure else pure low
  | rounds + 1, low, high =>
      if low < high then do
        let high ← scanHigh key low high
        copy low high
        let low ← scanLow key high (high - low) low
        copy high low
        partition key rounds low high
      else pure low

/-- `quick_sort_indice_inverse`, with a bound on the depth of the recursion. The last place
is -1 when the key of a range that begins at 0 stays there. -/
def quickSortIndiceInverse : Nat → Nat → Int → Sorting F α Nat
  | depth, left, right =>
      if left < right then
        match depth with
        | 0 => failure
        | depth + 1 => do
            let keyIndex ← readIndex left
            let key ← readInput left
            let low ← partition key (right.toNat - left) left right.toNat
            writeInput low key
            writeIndex low keyIndex
            let _ ← quickSortIndiceInverse depth left (low - 1)
            let _ ← quickSortIndiceInverse depth (low + 1) right
            pure low
      else pure left

end Source

/-! ## Vectors with the elements of two arrays -/

/-- The first elements of two arrays. -/
def ofRanking (length : Nat) (ranking : Ranking F α) (accesses : List Nat) : Vectors F α where
  input := (List.range length).map ranking.input
  indices := (List.range length).map ranking.indices
  accesses := accesses

theorem getElem?_map_range {β : Type} {length place : Nat} (values : Nat → β)
    (inside : place < length) :
    ((List.range length).map values)[place]? = some (values place) := by
  rw [List.getElem?_map, List.getElem?_range inside]
  rfl

theorem set_map_range {β : Type} (length place : Nat) (values : Nat → β) (value : β) :
    ((List.range length).map values).set place value =
      (List.range length).map (Function.update values place value) := by
  apply List.ext_getElem
  · simp
  · intro i _ _
    rw [List.getElem_set, List.getElem_map, List.getElem_map, List.getElem_range,
      Function.update_apply]
    exact if_congr eq_comm rfl rfl

/-- A part of the sort ends with a value, and accesses no place outside of a range. -/
def Ends {β : Type} (part : Sorting F α β) (length left right : Nat) (before : Ranking F α)
    (value : β) (after : Ranking F α) : Prop :=
  ∀ log, ∃ more, part (ofRanking length before log) =
      some (value, ofRanking length after (log ++ more)) ∧
    ∀ place ∈ more, left ≤ place ∧ place ≤ right

section Parts

variable {β γ : Type} {length left right : Nat} {before middle after : Ranking F α}

theorem ends_pure (value : β) : Ends (pure value) length left right before value before := by
  intro log
  refine ⟨[], ?_, fun _ => nofun⟩
  rw [List.append_nil]
  rfl

theorem Ends.bind {part : Sorting F α β} {next : β → Sorting F α γ} {first : β} {second : γ}
    (ends : Ends part length left right before first middle)
    (later : Ends (next first) length left right middle second after) :
    Ends (part >>= next) length left right before second after := by
  intro log
  rcases ends log with ⟨more, runs, inside⟩
  rcases later (log ++ more) with ⟨others, goes, within⟩
  refine ⟨more ++ others, ?_, ?_⟩
  · rw [← List.append_assoc, ← goes]
    change (part (ofRanking length before log)).bind _ = _
    rw [runs]
    rfl
  · intro place member
    exact (List.mem_append.mp member).elim (inside place) (within place)

theorem Ends.mono {part : Sorting F α β} {value : β} {low high : Nat}
    (ends : Ends part length low high before value after) (lower : left ≤ low)
    (upper : high ≤ right) : Ends part length left right before value after := by
  intro log
  rcases ends log with ⟨more, runs, inside⟩
  refine ⟨more, runs, fun place member => ?_⟩
  exact ⟨lower.trans (inside place member).1, (inside place member).2.trans upper⟩

end Parts

/-! ## The accesses of a range -/

section Accesses

variable {length left right place : Nat} {ranking : Ranking F α}

/-- The range is a part of the vectors. -/
theorem ends_readInput (inside : left ≤ place ∧ place ≤ right) (last : right < length) :
    Ends (readInput place) length left right ranking (ranking.input place) ranking := by
  intro log
  refine ⟨[place], ?_, ?_⟩
  · rw [readInput, ofRanking, getElem?_map_range _ (inside.2.trans_lt last)]
    rfl
  · rw [List.forall_mem_singleton]
    exact inside

theorem ends_readIndex (inside : left ≤ place ∧ place ≤ right) (last : right < length) :
    Ends (readIndex place) length left right ranking (ranking.indices place) ranking := by
  intro log
  refine ⟨[place], ?_, ?_⟩
  · rw [readIndex, ofRanking, getElem?_map_range _ (inside.2.trans_lt last)]
    rfl
  · rw [List.forall_mem_singleton]
    exact inside

theorem ends_writeInput (inside : left ≤ place ∧ place ≤ right) (last : right < length)
    (score : F) : Ends (writeInput place score) length left right ranking ()
      { ranking with input := Function.update ranking.input place score } := by
  intro log
  refine ⟨[place], ?_, ?_⟩
  · have room : place < ((List.range length).map ranking.input).length := by
      rw [List.length_map, List.length_range]
      exact inside.2.trans_lt last
    rw [writeInput, ofRanking, if_pos room, set_map_range]
    rfl
  · rw [List.forall_mem_singleton]
    exact inside

theorem ends_writeIndex (inside : left ≤ place ∧ place ≤ right) (last : right < length)
    (index : α) : Ends (writeIndex place index) length left right ranking ()
      { ranking with indices := Function.update ranking.indices place index } := by
  intro log
  refine ⟨[place], ?_, ?_⟩
  · have room : place < ((List.range length).map ranking.indices).length := by
      rw [List.length_map, List.length_range]
      exact inside.2.trans_lt last
    rw [writeIndex, ofRanking, if_pos room, set_map_range]
    rfl
  · rw [List.forall_mem_singleton]
    exact inside

/-- A score and its index are copied together. -/
theorem ends_copy {source : Nat} (target : left ≤ place ∧ place ≤ right)
    (inside : left ≤ source ∧ source ≤ right) (last : right < length) :
    Ends (copy place source) length left right ranking () (ranking.move place source) := by
  apply (ends_readInput inside last).bind
  apply (ends_writeInput target last _).bind
  apply (ends_readIndex inside last).bind
  exact ends_writeIndex target last _

end Accesses

/-! ## The run and the permutation -/

section Runs

variable [FloatConvert F] {length : Nat} {ranking parted sorted : Ranking F α} {key : F}

theorem ends_scanHigh (key : F) (ranking : Ranking F α) {low high : Nat}
    (bounds : low ≤ high) (last : high < length) :
    Ends (scanHigh key low high) length low high ranking
      (lowerHigh ranking.input key low high) ranking := by
  induction high with
  | zero =>
      rw [scanHigh, lowerHigh]
      exact ends_pure 0
  | succ high ih =>
      rw [scanHigh, lowerHigh]
      by_cases within : low < high + 1
      · rw [if_pos within]
        apply (ends_readInput ⟨bounds, le_rfl⟩ last).bind
        by_cases passes : FloatConvert.lessEq (ranking.input (high + 1)) key = true
        · rw [if_pos passes, if_pos ⟨within, passes⟩]
          have shorter := ih (Nat.le_of_lt_succ within) (Nat.lt_of_succ_lt last)
          exact shorter.mono le_rfl (Nat.le_succ high)
        · rw [if_neg passes, if_neg fun both => passes both.2]
          exact ends_pure _
      · rw [if_neg within, if_neg fun both => within both.1]
        exact ends_pure _

theorem ends_scanLow (key : F) (ranking : Ranking F α) {steps low high : Nat}
    (bounds : low + steps = high) (last : high < length) :
    Ends (scanLow key high steps low) length low high ranking
      (raiseLow ranking.input key high steps low) ranking := by
  induction steps generalizing low with
  | zero =>
      rw [scanLow, raiseLow]
      exact ends_pure low
  | succ steps ih =>
      rw [scanLow, raiseLow]
      by_cases within : low < high
      · rw [if_pos within]
        apply (ends_readInput ⟨le_rfl, within.le⟩ last).bind
        by_cases passes : FloatConvert.lessEq key (ranking.input low) = true
        · rw [if_pos passes, if_pos ⟨within, passes⟩]
          have rest : low + 1 + steps = high := by omega
          exact (ih rest).mono (Nat.le_succ low) le_rfl
        · rw [if_neg passes, if_neg fun both => passes both.2]
          exact ends_pure _
      · rw [if_neg within, if_neg fun both => within both.1]
        exact ends_pure _

/-- A partition that ends does so inside of its range, and accesses nothing else. -/
theorem ends_partition {rounds low high place : Nat} (bounds : low ≤ high) (last : high < length)
    (ends : partitionRounds key rounds ranking low high = some (parted, place)) :
    Ends (partition key rounds low high) length low high ranking place parted ∧
      low ≤ place ∧ place ≤ high := by
  induction rounds generalizing ranking low high with
  | zero =>
      rw [partitionRounds] at ends
      rw [partition]
      split at ends
      next => contradiction
      next done =>
        cases ends
        rw [if_neg done]
        exact ⟨ends_pure _, le_rfl, bounds⟩
  | succ rounds ih =>
      rw [partitionRounds] at ends
      rw [partition]
      split at ends
      next within =>
        dsimp only at ends
        rw [if_pos within]
        rcases lowerHigh_spec ranking.input key bounds with ⟨lowLowered, loweredHigh, _⟩
        have scanned := ends_scanHigh key ranking bounds last
        generalize lowerHigh ranking.input key low high = lowered at *
        have steps : low + (lowered - low) = lowered := Nat.add_sub_cancel' lowLowered
        have inside : lowered < length := loweredHigh.trans_lt last
        rcases raiseLow_spec (ranking.move low lowered).input key steps with
          ⟨lowRaised, raisedLowered, _⟩
        have raises := ends_scanLow key (ranking.move low lowered) steps inside
        generalize raiseLow (ranking.move low lowered).input key lowered (lowered - low) low =
          raised at *
        rcases ih raisedLowered inside ends with ⟨rest, raisedPlace, placeLowered⟩
        constructor
        · apply scanned.bind
          apply (ends_copy ⟨le_rfl, bounds⟩ ⟨lowLowered, loweredHigh⟩ last).bind
          apply (raises.mono le_rfl loweredHigh).bind
          apply (ends_copy ⟨lowLowered, loweredHigh⟩
            ⟨lowRaised, raisedLowered.trans loweredHigh⟩ last).bind
          exact rest.mono lowRaised loweredHigh
        · exact ⟨lowRaised.trans raisedPlace, placeLowered.trans loweredHigh⟩
      next done =>
        cases ends
        rw [if_neg done]
        exact ⟨ends_pure _, le_rfl, bounds⟩

/-- A range without two elements is sorted. -/
theorem quickSort_single {depth left : Nat} {right : Int} (single : ¬ (left : Int) < right) :
    quickSortIndiceInverse depth left right = (pure left : Sorting F α Nat) := by
  cases depth with
  | zero => rw [quickSortIndiceInverse, if_neg single]
  | succ depth => rw [quickSortIndiceInverse, if_neg single]

/-- The sort follows that of the arrays. -/
theorem ends_quickSort {depth left : Nat} {right : Int} (last : right < length)
    (ends : Postprocess.quickSortIndiceInverse depth left right.toNat ranking = some sorted) :
    ∃ low, Ends (quickSortIndiceInverse depth left right) length left right.toNat ranking low
      sorted := by
  induction depth generalizing left right ranking sorted with
  | zero =>
      rw [Postprocess.quickSortIndiceInverse] at ends
      split at ends
      next => contradiction
      next done =>
        cases ends
        rw [quickSort_single fun several => done (Int.lt_toNat.mpr several)]
        exact ⟨left, ends_pure left⟩
  | succ depth ih =>
      rw [Postprocess.quickSortIndiceInverse] at ends
      split at ends
      next several =>
        have inside : right.toNat < length := by omega
        rw [quickSortIndiceInverse, if_pos (Int.lt_toNat.mp several)]
        rcases Option.bind_eq_some_iff.mp ends with ⟨⟨parted, place⟩, parts, rest⟩
        rcases Option.bind_eq_some_iff.mp rest with ⟨first, before, behind⟩
        rcases ends_partition several.le inside parts with ⟨partition, lower, upper⟩
        have lastFirst : (place : Int) - 1 < length := by omega
        have placeBefore : ((place : Int) - 1).toNat = place - 1 := by omega
        rw [← placeBefore] at before
        rcases ih lastFirst before with ⟨_, sortsFirst⟩
        rcases ih last behind with ⟨_, sortsSecond⟩
        have start : left ≤ left ∧ left ≤ right.toNat := ⟨le_rfl, several.le⟩
        have stop : left ≤ place ∧ place ≤ right.toNat := ⟨lower, upper⟩
        refine ⟨place, ?_⟩
        apply (ends_readIndex start inside).bind
        apply (ends_readInput start inside).bind
        apply partition.bind
        apply (ends_writeInput stop inside _).bind
        apply (ends_writeIndex stop inside _).bind
        apply (sortsFirst.mono le_rfl (by omega)).bind
        apply (sortsSecond.mono (by omega) le_rfl).bind
        exact ends_pure place
      next done =>
        cases ends
        rw [quickSort_single fun several => done (Int.lt_toNat.mpr several)]
        exact ⟨left, ends_pure left⟩

omit [FloatConvert F] in
theorem bind_eq_some {β γ : Type} {part : Sorting F α β} {next : β → Sorting F α γ}
    {before : Vectors F α} {out : γ × Vectors F α} :
    (part >>= next) before = some out ↔
      ∃ value after, part before = some (value, after) ∧ next value after = some out := by
  change (part before).bind _ = some out ↔ _
  rw [Option.bind_eq_some_iff]
  exact Prod.exists

/-- A sort that ends does so with any larger bound. -/
theorem quickSort_succ {depth left : Nat} {right : Int} {before : Vectors F α}
    {out : Nat × Vectors F α} (ends : quickSortIndiceInverse depth left right before = some out) :
    quickSortIndiceInverse (depth + 1) left right before = some out := by
  by_cases several : (left : Int) < right
  · induction depth generalizing left right before out with
    | zero =>
        rw [quickSortIndiceInverse, if_pos several] at ends
        cases ends
    | succ depth ih =>
        have deeper {left : Nat} {right : Int} {before : Vectors F α} {out : Nat × Vectors F α}
            (ends : quickSortIndiceInverse depth left right before = some out) :
            quickSortIndiceInverse (depth + 1) left right before = some out := by
          by_cases several : (left : Int) < right
          · exact ih ends several
          · rwa [quickSort_single several] at ends ⊢
        rw [quickSortIndiceInverse, if_pos several] at ends ⊢
        simp only [bind_eq_some] at ends ⊢
        rcases ends with ⟨keyIndex, atIndex, readsIndex, key, atKey, readsKey, low, parted, parts,
          _, put, writes, _, full, writesIndex, _, first, sortsFirst, _, second, sortsSecond,
          ends⟩
        exact ⟨keyIndex, atIndex, readsIndex, key, atKey, readsKey, low, parted, parts, _, put,
          writes, _, full, writesIndex, _, first, deeper sortsFirst, _, second,
          deeper sortsSecond, ends⟩
  · rwa [quickSort_single several] at ends ⊢

theorem quickSort_mono {depth deeper left : Nat} {right : Int} {before : Vectors F α}
    {out : Nat × Vectors F α} (ends : quickSortIndiceInverse depth left right before = some out)
    (more : depth ≤ deeper) : quickSortIndiceInverse deeper left right before = some out := by
  induction more with
  | refl => exact ends
  | step _ ih => exact quickSort_succ ih

end Runs

/-! ## The sort of a range -/

/-- The elements of a range. -/
def slice {β : Type} (left right : Nat) (values : List β) : List β :=
  (values.take (right + 1)).drop left

/-- What the sort of a range does to two vectors. -/
structure SortsRange [FloatConvert F] (input : List F) (indices : List α) (left right : Nat)
    (sorted : Vectors F α) : Prop where
  lengths : sorted.input.length = input.length ∧ sorted.indices.length = indices.length
  inside : ∀ place ∈ sorted.accesses, left ≤ place ∧ place ≤ right
  outside : ∀ i, i < left ∨ right < i →
    sorted.input[i]? = input[i]? ∧ sorted.indices[i]? = indices[i]?
  perm : (slice left right (sorted.input.zip sorted.indices)).Perm
    (slice left right (input.zip indices))
  descending : (slice left right sorted.input).Pairwise fun a b =>
    FloatConvert.lessEq b a = true

section Slices

variable {β : Type} {length left right : Nat} {order : Equiv.Perm Nat}

theorem slice_map {γ : Type} (values : β → γ) (places : List β) :
    slice left right (places.map values) = (slice left right places).map values := by
  rw [slice, slice, ← List.map_take, List.map_drop]

theorem slice_range (last : right < length) :
    slice left right (List.range length) = List.range' left (right + 1 - left) := by
  rw [slice, List.take_range, min_eq_left last, List.range_eq_range', List.drop_range',
    Nat.mul_one, Nat.zero_add]

theorem mem_places {place : Nat} :
    place ∈ List.range' left (right + 1 - left) ↔ left ≤ place ∧ place ≤ right := by
  rw [List.mem_range'_1]
  omega

/-- A permutation of a range permutes its places. -/
theorem perm_places (within : Within left right order) :
    ((List.range' left (right + 1 - left)).map order).Perm
      (List.range' left (right + 1 - left)) := by
  apply (List.perm_ext_iff_of_nodup
    ((List.nodup_map_iff order.injective).mpr List.nodup_range') List.nodup_range').mpr
  intro place
  rw [List.mem_map, mem_places]
  constructor
  · rintro ⟨source, member, rfl⟩
    exact within.mem (mem_places.mp member)
  · intro inside
    refine ⟨order.symm place, mem_places.mpr ?_, order.apply_symm_apply place⟩
    by_contra outside
    have fixed := within (order.symm place) (by omega)
    rw [order.apply_symm_apply] at fixed
    rw [← fixed] at outside
    exact outside inside

theorem getElem?_reorder (values : Nat → β) {place : Nat} (fixed : order place = place) :
    ((List.range length).map (values ∘ order))[place]? =
      ((List.range length).map values)[place]? := by
  by_cases inside : place < length
  · rw [getElem?_map_range _ inside, getElem?_map_range _ inside, Function.comp_apply, fixed]
  · have ends (f : Nat → β) : ((List.range length).map f)[place]? = none := by
      apply List.getElem?_eq_none
      rw [List.length_map, List.length_range]
      exact Nat.not_lt.mp inside
    rw [ends, ends]

theorem map_getD (values : List β) (other : β) :
    (List.range values.length).map (fun i => values.getD i other) = values := by
  apply List.ext_getElem
  · rw [List.length_map, List.length_range]
  · intro i _ inside
    rw [List.getElem_map, List.getElem_range, List.getD_eq_getElem?_getD,
      List.getElem?_eq_getElem inside, Option.getD_some]

end Slices

section Sorts

variable [FloatConvert F] {length left right : Nat} {start sorted : Ranking F α}
  {order : Equiv.Perm Nat}

/-- A range that a permutation has sorted. -/
theorem sortsRange_of_sorted (sorts : Sorted start left right sorted order)
    (last : right < length) {accesses : List Nat}
    (inside : ∀ place ∈ accesses, left ≤ place ∧ place ≤ right) :
    SortsRange (ofRanking length start []).input (ofRanking length start []).indices left right
      (ofRanking length sorted accesses) := by
  rw [sorts.reordered]
  constructor
  · simp only [ofRanking, List.length_map, List.length_range, and_self]
  · exact inside
  · intro i apart
    have fixed := sorts.within i apart
    exact ⟨getElem?_reorder start.input fixed, getElem?_reorder start.indices fixed⟩
  · have places := (perm_places sorts.within).map fun i => (start.input i, start.indices i)
    rw [← slice_range last, List.map_map, ← slice_map, ← slice_map] at places
    rw [ofRanking, ofRanking, List.zip_map', List.zip_map']
    exact places
  · have descending := sorts.descending
    rw [ofRanking, slice_map, slice_range last, List.pairwise_map]
    apply List.Pairwise.imp_of_mem _ List.pairwise_lt_range'
    intro i j inFirst inSecond before
    have first := mem_places.mp inFirst
    have second := mem_places.mp inSecond
    have falls := descending i j first.1 before second.2
    rwa [sorts.reordered] at falls

omit [FloatConvert F] in
/-- Two vectors are the first elements of two arrays. -/
theorem exists_ofRanking {input : List F} {indices : List α}
    (same : indices.length = input.length) (some : 0 < input.length) :
    ∃ ranking, ofRanking input.length ranking [] = ⟨input, indices, []⟩ := by
  have someIndex : 0 < indices.length := same ▸ some
  refine ⟨⟨fun i => input.getD i input[0], fun i => indices.getD i indices[0]⟩, ?_⟩
  have both := map_getD indices indices[0]
  rw [same] at both
  rw [ofRanking, map_getD, both]

/-- The sort of a range of two vectors ends with any bound on the depth that is not smaller
than the range. -/
theorem quick_sort_sorts {input : List F} {indices : List α}
    (same : indices.length = input.length) (comparable : Ordered fun s : F => s ∈ input)
    {left right : Nat} (first : left < input.length) (last : right < input.length) :
    ∃ low sorted, (∀ depth, right - left ≤ depth →
        quickSortIndiceInverse depth left right ⟨input, indices, []⟩ = some (low, sorted)) ∧
      SortsRange input indices left right sorted := by
  rcases exists_ofRanking same (Nat.zero_lt_of_lt first) with ⟨start, begins⟩
  have inputs : (List.range input.length).map start.input = input :=
    congrArg Vectors.input begins
  have scores : ∀ i, left ≤ i → i ≤ right → start.input i ∈ input := by
    intro i _ before
    rw [← inputs]
    exact List.mem_map_of_mem (List.mem_range.mpr (before.trans_lt last))
  have enough : right ≤ left + (right - left) := by omega
  rcases quickSortIndiceInverse_sorted comparable enough scores with
    ⟨sorted, order, runs, sorts⟩
  have lastPlace : (right : Int) < input.length := Int.ofNat_lt.mpr last
  rcases ends_quickSort lastPlace runs with ⟨low, ends⟩
  rcases ends [] with ⟨accesses, goes, inside⟩
  rw [List.nil_append, begins] at goes
  refine ⟨low, ofRanking input.length sorted accesses, ?_, ?_⟩
  · intro depth enough
    exact quickSort_mono goes enough
  · have sortsRange := sortsRange_of_sorted sorts last inside
    rwa [begins] at sortsRange

/-- The last four of five scores, two of them equal. -/
theorem quick_sort_sorts_range : ∃ low sorted,
    (∀ depth, 3 ≤ depth → quickSortIndiceInverse depth 1 (4 : Nat)
      ⟨[7, 3, 2, 5, 2], [0, 1, 2, 3, 4], []⟩ = some (low, sorted)) ∧
      SortsRange ([7, 3, 2, 5, 2] : List ℝ) [0, 1, 2, 3, 4] 1 4 sorted := by
  have same : [0, 1, 2, 3, 4].length = ([7, 3, 2, 5, 2] : List ℝ).length := rfl
  have first : 1 < ([7, 3, 2, 5, 2] : List ℝ).length := Nat.lt_of_sub_eq_succ rfl
  have last : 4 < ([7, 3, 2, 5, 2] : List ℝ).length := Nat.lt_of_sub_eq_succ rfl
  exact quick_sort_sorts same (ordered_exact _) first last

/-- The call of `post_process` sorts the vector of the scores. -/
theorem post_process_sort (objProbs : List F) {depth : Nat} {ranking : Ranking F (Option Nat)}
    (ends : Postprocess.quickSortIndiceInverse depth 0 (objProbs.length - 1)
      ⟨fun i => objProbs.getD i 0.0, some⟩ = some ranking) (some_score : objProbs ≠ []) :
    ∃ low accesses, quickSortIndiceInverse depth 0 (objProbs.length - 1 : Int)
        ⟨objProbs, (List.range objProbs.length).map some, []⟩ =
      some (low, ofRanking objProbs.length ranking accesses) := by
  have positive := List.length_pos_of_ne_nil some_score
  have last : ((objProbs.length : Int) - 1).toNat = objProbs.length - 1 := by omega
  have inside : (objProbs.length : Int) - 1 < objProbs.length := by omega
  rw [← last] at ends
  rcases ends_quickSort inside ends with ⟨low, runs⟩
  rcases runs [] with ⟨accesses, goes, _⟩
  rw [ofRanking, map_getD, List.nil_append] at goes
  exact ⟨low, accesses, goes⟩

end Sorts

end Vectors

end KhadasYolo.Postprocess
