import KhadasYolo.Lib.Greedy
import KhadasYolo.Postprocess.Process
import Mathlib.Data.Prod.Lex

/-!
# Suppression of overlapping boxes

`nms` goes through the candidates by rank and strikes out those that overlap one of
them. It is called once for each class, but the class that it tests is the one at the
position of the rank in the array of classes, which is still in the order of the scan.
So the classes only decide when a rank is visited.
-/

namespace KhadasYolo.Postprocess

open Greedy

universe u

section Source

variable {F : Type u} [FloatConvert F]

/-- `CalculateOverlap`, with every step one of the format. The source adds the ones and
multiplies the sides in double precision, and rounds each of `w`, `h` and `u` once. -/
def calculateOverlap (a b : Box F) : F :=
  let w := FloatConvert.fmax 0.0
    (FloatConvert.fmin a.xmax b.xmax - FloatConvert.fmax a.xmin b.xmin + 1.0)
  let h := FloatConvert.fmax 0.0
    (FloatConvert.fmin a.ymax b.ymax - FloatConvert.fmax a.ymin b.ymin + 1.0)
  let i := w * h
  let u := (a.xmax - a.xmin + 1.0) * (a.ymax - a.ymin + 1.0) +
    (b.xmax - b.xmin + 1.0) * (b.ymax - b.ymin + 1.0) - i
  if FloatConvert.lessEq u 0.0 then 0.0 else i / u

/-- The box of a candidate. -/
def boxAt (outputLocations : List F) (n : Nat) : Box F where
  xmin := outputLocations.getD (n * 4 + 0) 0.0
  ymin := outputLocations.getD (n * 4 + 1) 0.0
  xmax := outputLocations.getD (n * 4 + 2) 0.0
  ymax := outputLocations.getD (n * 4 + 3) 0.0

/-- The ranks that are left, each with its candidate. A struck out one is -1. -/
abbrev OrderArray := Nat → Option Nat

/-- Two candidates overlap by more than the threshold. -/
def overlapping (outputLocations : List F) (threshold : F) (n m : Nat) : Bool :=
  FloatOps.less threshold
    (calculateOverlap (boxAt outputLocations n) (boxAt outputLocations m))

variable (validCount : Nat) (outputLocations : List F) (classIds : List Nat) (threshold : F)

/-- The body of the inner loop, for the candidate `n` at rank `i`. -/
def nmsInner (filterId i n : Nat) (order : OrderArray) (j : Nat) : OrderArray :=
  match order j with
  | none => order
  | some m =>
      if classIds.getD i 0 ≠ filterId then order
      else if overlapping outputLocations threshold n m then Function.update order j none
      else order

/-- The body of the outer loop. -/
def nmsOuter (filterId : Nat) (order : OrderArray) (i : Nat) : OrderArray :=
  match order i with
  | none => order
  | some n =>
      if classIds.getD i 0 ≠ filterId then order
      else (List.range' (i + 1) (validCount - (i + 1))).foldl
        (nmsInner outputLocations classIds threshold filterId i n) order

def nms (filterId : Nat) (order : OrderArray) : OrderArray :=
  (List.range validCount).foldl
    (nmsOuter validCount outputLocations classIds threshold filterId) order

/-- The calls of `nms` in `post_process`. -/
def nmsAll (classes : Nat) (order : OrderArray) : OrderArray :=
  (List.range classes).foldl
    (fun order c => nms validCount outputLocations classIds threshold c order) order

/-- The array when `nms` for a class comes to a rank. -/
def orderBefore (order : OrderArray) (c i : Nat) : OrderArray :=
  (List.range i).foldl (nmsOuter validCount outputLocations classIds threshold c)
    (nmsAll validCount outputLocations classIds threshold c order)

/-- A rank strikes out another one in the round of some class. -/
def Suppresses (classes : Nat) (order : OrderArray) (i j : Nat) : Prop :=
  ∃ c < classes, i < validCount ∧
    let before := orderBefore validCount outputLocations classIds threshold order c i
    before j ≠ none ∧
      nmsOuter validCount outputLocations classIds threshold c before i j = none

/-- The suppression goes by classes: a rank is struck out by a higher one of its class
that is not struck out itself, and what is left of a class does not overlap. -/
structure PerClass (classes : Nat) (rank : Nat → Nat) : Prop where
  suppressed : ∀ i j,
    Suppresses validCount outputLocations classIds threshold classes (fun i => some (rank i))
      i j →
    i < j ∧ overlapping outputLocations threshold (rank i) (rank j) = true ∧
      classIds.getD (rank i) 0 = classIds.getD (rank j) 0 ∧
      nmsAll validCount outputLocations classIds threshold classes (fun i => some (rank i)) i ≠
        none
  apart : ∀ i j, i < j → j < validCount →
    nmsAll validCount outputLocations classIds threshold classes (fun i => some (rank i)) i ≠
      none →
    nmsAll validCount outputLocations classIds threshold classes (fun i => some (rank i)) j ≠
      none →
    classIds.getD (rank i) 0 = classIds.getD (rank j) 0 →
      overlapping outputLocations threshold (rank i) (rank j) = false

end Source

/-! ## A sweep -/

/-- The array with the candidates of the ranks that are left. -/
def orderOf (rank : Nat → Nat) (alive : Nat → Bool) : OrderArray := fun j =>
  if alive j then some (rank j) else none

theorem orderOf_ne_none_iff {rank : Nat → Nat} {alive : Nat → Bool} {j : Nat} :
    orderOf rank alive j ≠ none ↔ alive j = true := by
  rw [orderOf]
  split
  next left => exact iff_of_true nofun left
  next gone => exact iff_of_false (not_not.mpr rfl) gone

section Sweep

variable {F : Type u} [FloatConvert F] (validCount : Nat) (outputLocations : List F)
  (classIds : List Nat) (threshold : F) (rank : Nat → Nat)

/-- A rank overlaps a lower one. -/
def rankConflicts (i j : Nat) : Bool :=
  decide (i < j) && decide (j < validCount) &&
    overlapping outputLocations threshold (rank i) (rank j)

/-- When a rank is visited: in the round of the class at its position. -/
def visitOf (i : Nat) : Nat ×ₗ Nat := toLex (classIds.getD i 0, i)

/-- The ranks of a round. -/
def roundOf (last c : Nat) : List Nat :=
  (List.range last).filter fun i => classIds.getD i 0 = c

/-- All visits. -/
def visits (classes : Nat) : List Nat :=
  (List.range classes).flatMap (roundOf classIds validCount)

variable {classIds}

theorem orderOf_congr {first second : Nat → Bool}
    (same : ∀ j, first j = true ↔ second j = true) : orderOf rank first = orderOf rank second :=
  congrArg (orderOf rank) (funext fun j => Bool.eq_iff_iff.mpr (same j))

/-- One step of the inner loop. -/
theorem nmsInner_orderOf {alive : Nat → Bool} {c i : Nat} (inRound : classIds.getD i 0 = c)
    (j : Nat) :
    nmsInner outputLocations classIds threshold c i (rank i) (orderOf rank alive) j =
      orderOf rank fun k => alive k &&
        !(decide (k = j) && overlapping outputLocations threshold (rank i) (rank k)) := by
  have passes : ¬ classIds.getD i 0 ≠ c := not_not.mpr inRound
  funext k
  by_cases left : alive j = true
  · have held : orderOf rank alive j = some (rank j) := if_pos left
    rw [nmsInner, held]
    dsimp only
    rw [if_neg passes]
    by_cases overlap : overlapping outputLocations threshold (rank i) (rank j) = true
    · by_cases this : k = j <;> simp [orderOf, this, overlap]
    · by_cases this : k = j <;> simp [orderOf, this, overlap]
  · have gone : orderOf rank alive j = none := if_neg left
    rw [nmsInner, gone]
    by_cases this : k = j <;> simp [orderOf, this, left]

/-- A visit in its round strikes out what the rank overlaps. -/
theorem nmsOuter_orderOf {alive : Nat → Bool} {c i : Nat} (inRound : classIds.getD i 0 = c) :
    nmsOuter validCount outputLocations classIds threshold c (orderOf rank alive) i =
      orderOf rank (strike (rankConflicts validCount outputLocations threshold rank) alive i) := by
  have inner : ∀ steps,
      (List.range' (i + 1) steps).foldl
          (nmsInner outputLocations classIds threshold c i (rank i)) (orderOf rank alive) =
        orderOf rank fun j => alive j && !(decide (i < j ∧ j < i + 1 + steps) &&
          overlapping outputLocations threshold (rank i) (rank j)) := by
    intro steps
    induction steps with
    | zero =>
        apply orderOf_congr
        intro j
        have nowhere : ¬ (i < j ∧ j < i + 1 + 0) := by omega
        simp only [nowhere, decide_false, Bool.false_and, Bool.not_false, Bool.and_true]
    | succ steps ih =>
        rw [List.range'_concat, List.foldl_append, ih, List.foldl_cons, List.foldl_nil,
          nmsInner_orderOf _ _ _ inRound]
        apply orderOf_congr
        intro k
        have one_more : (i < k ∧ k < i + 1 + (steps + 1)) ↔
            (i < k ∧ k < i + 1 + steps) ∨ k = i + 1 + 1 * steps := by omega
        simp only [Bool.and_eq_true, Bool.not_eq_true', Bool.and_eq_false_imp,
          decide_eq_true_eq, one_more, or_imp, and_assoc]
  rw [nmsOuter]
  by_cases left : alive i = true
  · have held : orderOf rank alive i = some (rank i) := if_pos left
    have passes : ¬ classIds.getD i 0 ≠ c := not_not.mpr inRound
    rw [held]
    dsimp only
    rw [if_neg passes, inner]
    apply orderOf_congr
    intro j
    have same : (i < j ∧ j < i + 1 + (validCount - (i + 1))) ↔ (i < j ∧ j < validCount) := by
      omega
    simp only [strike, left, rankConflicts, same, Bool.true_and, Bool.decide_and]
  · have gone : orderOf rank alive i = none := if_neg left
    rw [gone]
    apply orderOf_congr
    intro j
    simp only [strike, left, Bool.false_and, Bool.not_false, Bool.and_true]

/-- Other ranks are left alone. -/
theorem nmsOuter_other {order : OrderArray} {c i : Nat} (other : classIds.getD i 0 ≠ c) :
    nmsOuter validCount outputLocations classIds threshold c order i = order := by
  rw [nmsOuter]
  split
  next => rfl
  next => rw [if_pos other]

/-! ### Rounds -/

theorem roundOf_succ (classIds : List Nat) (last c : Nat) :
    roundOf classIds (last + 1) c =
      roundOf classIds last c ++ if classIds.getD last 0 = c then [last] else [] := by
  rw [roundOf, List.range_succ, List.filter_append, List.filter_singleton, Bool.cond_decide]
  rfl

theorem mem_roundOf {last c i : Nat} :
    i ∈ roundOf classIds last c ↔ i < last ∧ classIds.getD i 0 = c := by
  rw [roundOf, List.mem_filter, List.mem_range, decide_eq_true_eq]

theorem isPrefix_range {first second : Nat} (le : first ≤ second) :
    List.range first <+: List.range second := by
  rw [← min_eq_left le, ← List.take_range]
  exact List.take_prefix _ _

/-- The first part of a round. -/
theorem nms_round (alive : Nat → Bool) (c last : Nat) :
    (List.range last).foldl (nmsOuter validCount outputLocations classIds threshold c)
        (orderOf rank alive) =
      orderOf rank ((roundOf classIds last c).foldl
        (strike (rankConflicts validCount outputLocations threshold rank)) alive) := by
  induction last with
  | zero => rfl
  | succ last ih =>
      rw [List.range_succ, List.foldl_append, ih, List.foldl_cons, List.foldl_nil,
        roundOf_succ, List.foldl_append]
      by_cases inRound : classIds.getD last 0 = c
      · rw [nmsOuter_orderOf _ _ _ _ inRound, if_pos inRound]
        rfl
      · rw [nmsOuter_other _ _ _ inRound, if_neg inRound]
        rfl

theorem visits_succ (classIds : List Nat) (classes : Nat) :
    visits validCount classIds (classes + 1) =
      visits validCount classIds classes ++ roundOf classIds validCount classes := by
  rw [visits, List.range_succ, List.flatMap_append, List.flatMap_singleton]
  rfl

/-- The rounds of some classes are a sweep. -/
theorem nmsAll_orderOf (classes : Nat) :
    nmsAll validCount outputLocations classIds threshold classes (fun i => some (rank i)) =
      orderOf rank (sweep (rankConflicts validCount outputLocations threshold rank)
        (visits validCount classIds classes)) := by
  induction classes with
  | zero => rfl
  | succ classes ih =>
      rw [nmsAll, List.range_succ, List.foldl_append]
      change nms validCount outputLocations classIds threshold classes
        (nmsAll validCount outputLocations classIds threshold classes _) = _
      rw [ih, nms, nms_round, visits_succ, sweep, sweep, List.foldl_append]

theorem orderBefore_orderOf (c i : Nat) :
    orderBefore validCount outputLocations classIds threshold (fun i => some (rank i)) c i =
      orderOf rank (sweep (rankConflicts validCount outputLocations threshold rank)
        (visits validCount classIds c ++ roundOf classIds i c)) := by
  rw [orderBefore, nmsAll_orderOf, nms_round, sweep, sweep, List.foldl_append]

/-! ### The schedule -/

theorem visitOf_injective : Function.Injective (visitOf classIds) := by
  intro i j same
  exact congrArg (fun visit => (ofLex visit).2) same

theorem visitOf_lt_iff {i j : Nat} : visitOf classIds i < visitOf classIds j ↔
    classIds.getD i 0 < classIds.getD j 0 ∨ classIds.getD i 0 = classIds.getD j 0 ∧ i < j :=
  Prod.Lex.toLex_lt_toLex

theorem visits_ordered (classIds : List Nat) (classes : Nat) :
    (visits validCount classIds classes).Pairwise fun i j =>
      visitOf classIds i < visitOf classIds j := by
  rw [visits, List.pairwise_flatMap]
  constructor
  · intro c _
    refine List.Pairwise.imp_of_mem ?_ (List.pairwise_lt_range.filter _)
    intro i j first second before
    have same := (mem_roundOf.mp first).2.trans (mem_roundOf.mp second).2.symm
    exact visitOf_lt_iff.mpr (.inr ⟨same, before⟩)
  · refine List.pairwise_lt_range.imp ?_
    intro c d before i first j second
    rw [visitOf_lt_iff, (mem_roundOf.mp first).2, (mem_roundOf.mp second).2]
    exact .inl before

variable {classes : Nat} (known : ∀ i < validCount, classIds.getD i 0 < classes)

include known

theorem visits_schedule :
    Schedule (rankConflicts validCount outputLocations threshold rank) (visitOf classIds)
      (visits validCount classIds classes) where
  ordered := visits_ordered validCount classIds classes
  complete i j conflict := by
    simp only [rankConflicts, Bool.and_eq_true, decide_eq_true_eq] at conflict
    have below : i < validCount := conflict.1.1.trans conflict.1.2
    exact List.mem_flatMap.mpr
      ⟨classIds.getD i 0, List.mem_range.mpr (known i below), mem_roundOf.mpr ⟨below, rfl⟩⟩
  ranked i j conflict := by
    simp only [rankConflicts, Bool.and_eq_true, decide_eq_true_eq] at conflict
    exact conflict.1.1

omit known in
/-- A visit, in the middle of all. -/
theorem visits_split {c i : Nat} (inClasses : c < classes) (below : i < validCount)
    (inRound : classIds.getD i 0 = c) : ∃ later, visits validCount classIds classes =
      (visits validCount classIds c ++ roundOf classIds i c) ++ i :: later := by
  have round : roundOf classIds (i + 1) c <+: roundOf classIds validCount c :=
    (isPrefix_range below).filter _
  have rounds : visits validCount classIds (c + 1) <+: visits validCount classIds classes :=
    (isPrefix_range inClasses).flatMap _
  rw [roundOf_succ, if_pos inRound] at round
  rw [visits_succ] at rounds
  rcases round with ⟨rest, round⟩
  rcases rounds with ⟨later, rounds⟩
  refine ⟨rest ++ later, ?_⟩
  rw [← rounds, ← round]
  simp only [List.append_assoc, List.cons_append, List.nil_append]

/-- A rank strikes out another one when its visit does. -/
theorem suppresses_iff {i j : Nat} :
    Suppresses validCount outputLocations classIds threshold classes (fun i => some (rank i))
        i j ↔
      Strikes (fun i j => rankConflicts validCount outputLocations threshold rank i j = true)
        (visitOf classIds) i j := by
  have schedule := visits_schedule validCount outputLocations threshold rank known
  have strikes {c : Nat} (inClasses : c < classes) (below : i < validCount)
      (inRound : classIds.getD i 0 = c) :
      sweep (rankConflicts validCount outputLocations threshold rank)
            (visits validCount classIds c ++ roundOf classIds i c) j = true ∧
          ¬ sweep (rankConflicts validCount outputLocations threshold rank)
            (visits validCount classIds c ++ roundOf classIds i c ++ [i]) j = true ↔
        Strikes (fun i j => rankConflicts validCount outputLocations threshold rank i j = true)
          (visitOf classIds) i j := by
    rcases visits_split validCount inClasses below inRound with ⟨later, split⟩
    rw [split] at schedule
    exact schedule.strikes_iff j
  constructor
  · rintro ⟨c, inClasses, below, left, gone⟩
    by_cases inRound : classIds.getD i 0 = c
    · rw [orderBefore_orderOf] at left gone
      rw [nmsOuter_orderOf _ _ _ _ inRound, ← sweep_concat] at gone
      refine (strikes inClasses below inRound).mp ⟨orderOf_ne_none_iff.mp left, ?_⟩
      exact fun still => orderOf_ne_none_iff.mpr still gone
    · rw [nmsOuter_other _ _ _ inRound] at gone
      exact absurd gone left
  · intro struck
    have hits := struck.hits
    simp only [rankConflicts, Bool.and_eq_true, decide_eq_true_eq] at hits
    have below : i < validCount := hits.1.1.trans hits.1.2
    rcases (strikes (known i below) below rfl).mpr struck with ⟨left, gone⟩
    refine ⟨classIds.getD i 0, known i below, below, ?_, ?_⟩
    · rw [orderBefore_orderOf]
      exact orderOf_ne_none_iff.mpr left
    · rw [orderBefore_orderOf, nmsOuter_orderOf _ _ _ _ rfl, ← sweep_concat]
      by_contra still
      exact gone (orderOf_ne_none_iff.mp still)

/-- A rank is left at the end when no live one strikes it. -/
theorem nmsAll_iff {j : Nat} :
    nmsAll validCount outputLocations classIds threshold classes (fun i => some (rank i)) j ≠
        none ↔
      Survives (fun i j => rankConflicts validCount outputLocations threshold rank i j = true)
        (visitOf classIds) j := by
  rw [nmsAll_orderOf, orderOf_ne_none_iff]
  exact (visits_schedule validCount outputLocations threshold rank known).survives_iff j

/-- The suppression goes by classes exactly when the ranks that it goes by come in time. -/
theorem nms_per_class_iff :
    PerClass validCount outputLocations classIds threshold classes rank ↔
      InTime (fun i j => rankConflicts validCount outputLocations threshold rank i j = true)
        (visitOf classIds) (fun i j => classIds.getD (rank i) 0 = classIds.getD (rank j) 0) := by
  rw [← sound_iff_inTime visitOf_injective]
  constructor
  · intro perClass
    refine ⟨fun i j strikes => ?_, fun i j before first second same conflict => ?_⟩
    · have suppressed := perClass.suppressed i j
        ((suppresses_iff validCount outputLocations threshold rank known).mpr strikes)
      exact ⟨suppressed.2.2.1,
        (nmsAll_iff validCount outputLocations threshold rank known).mp suppressed.2.2.2⟩
    · simp only [rankConflicts, Bool.and_eq_true, decide_eq_true_eq] at conflict
      have apart := perClass.apart i j before conflict.1.2
        ((nmsAll_iff validCount outputLocations threshold rank known).mpr first)
        ((nmsAll_iff validCount outputLocations threshold rank known).mpr second) same
      rw [apart] at conflict
      exact Bool.false_ne_true conflict.2
  · intro sound
    refine ⟨fun i j suppresses => ?_, fun i j before below first second same => ?_⟩
    · have strikes :=
        (suppresses_iff validCount outputLocations threshold rank known).mp suppresses
      rcases sound.strikes i j strikes with ⟨same, survives⟩
      have hits := strikes.hits
      simp only [rankConflicts, Bool.and_eq_true] at hits
      exact ⟨strikes.before, hits.2, same,
        (nmsAll_iff validCount outputLocations threshold rank known).mpr survives⟩
    · have apart := sound.apart i j before
        ((nmsAll_iff validCount outputLocations threshold rank known).mp first)
        ((nmsAll_iff validCount outputLocations threshold rank known).mp second) same
      simpa only [rankConflicts, before, below, decide_true, Bool.true_and,
        Bool.not_eq_true] using apart

omit known in
/-- With one class the ranks that are left are the greedy selection. -/
theorem nmsAll_single (single : ∀ i < validCount, classIds.getD i 0 = 0) {j : Nat}
    (below : j < validCount) :
    nmsAll validCount outputLocations classIds threshold 1 (fun i => some (rank i)) j ≠ none ↔
      ∀ i < j, overlapping outputLocations threshold (rank i) (rank j) = true →
        nmsAll validCount outputLocations classIds threshold 1 (fun i => some (rank i)) i =
          none := by
  have known : ∀ i < validCount, classIds.getD i 0 < 1 := fun i within =>
    Nat.lt_one_iff.mpr (single i within)
  -- Every visit of a higher rank comes before that of a lower one.
  have live_iff_survives : ∀ i < validCount,
      Live (fun i j => rankConflicts validCount outputLocations threshold rank i j = true)
          (visitOf classIds) i ↔
        Survives (fun i j => rankConflicts validCount outputLocations threshold rank i j = true)
          (visitOf classIds) i := by
    intro i within
    rw [live_iff, Survives]
    refine forall₂_congr fun k before => ?_
    have earlier : visitOf classIds k < visitOf classIds i := visitOf_lt_iff.mpr
      (.inr ⟨(single k (before.trans within)).trans (single i within).symm, before⟩)
    exact ⟨fun free => free earlier, fun free _ => free⟩
  rw [nmsAll_iff validCount outputLocations threshold rank known, Survives]
  refine forall₂_congr fun i before => ?_
  have conflict : rankConflicts validCount outputLocations threshold rank i j = true ↔
      overlapping outputLocations threshold (rank i) (rank j) = true := by
    simp only [rankConflicts, before, below, decide_true, Bool.true_and]
  rw [conflict, live_iff_survives i (before.trans below),
    ← nmsAll_iff validCount outputLocations threshold rank known, not_not]

end Sweep

namespace Example

/-- Two boxes that do not overlap, twice each. -/
def pairs : List Float32 :=
  [0, 0, 10, 10, 100, 100, 110, 110, 0, 0, 10, 10, 100, 100, 110, 110]

/-- Two candidates with the same box. -/
def twice : List Float32 := [0, 0, 10, 10, 0, 0, 10, 10]

end Example

/-- Of the two candidates of either class the better one is left, while the classes at the
positions of the ranks are those of the others. -/
theorem nms_per_class_iff_pairs :
    PerClass 4 Example.pairs [0, 1, 0, 1] 0.45 2 (fun i => 3 - i) ∧
      (List.range 4).filterMap
        (nmsAll 4 Example.pairs [0, 1, 0, 1] 0.45 2 fun i => some (3 - i)) = [3, 2] := by
  have known : ∀ i < 4, [0, 1, 0, 1].getD i 0 < 2 := by decide
  have overlap : ∀ j < 4, ∀ i < j,
      rankConflicts 4 Example.pairs 0.45 (fun i => 3 - i) i j = true ↔ j = i + 2 := by
    decide +kernel
  refine ⟨(nms_per_class_iff 4 Example.pairs 0.45 (fun i => 3 - i) known).mpr ?_,
    by decide +kernel⟩
  intro j i before conflict _
  have below : j < 4 := by
    have inside := conflict
    simp only [rankConflicts, Bool.and_eq_true, decide_eq_true_eq] at inside
    exact inside.1.2
  have apart := (overlap j below i before).mp conflict
  subst apart
  refine ⟨i, before, chosen_iff.mpr fun g earlier _ hits => ?_, ?_, conflict, le_rfl⟩
  · have further := (overlap i (before.trans below) g earlier).mp hits
    omega
  · have first : i = 0 ∨ i = 1 := by omega
    rcases first with rfl | rfl <;> rfl

/-- The candidate of another class goes as well. -/
theorem nms_across_classes : ¬ PerClass 2 Example.twice [0, 1] 0.45 2 id := by
  intro perClass
  have suppresses :
      Suppresses 2 Example.twice [0, 1] 0.45 2 (fun i => some (id i)) 0 1 :=
    ⟨0, by decide, by decide, by decide +kernel, by decide +kernel⟩
  exact absurd (perClass.suppressed 0 1 suppresses).2.2.1 (by decide)

end KhadasYolo.Postprocess
