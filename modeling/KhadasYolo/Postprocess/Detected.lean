import KhadasYolo.Postprocess.Labels

/-!
# Whether anything is detected

With one class, `post_process` reports a detection exactly when some cell of a tensor has
a candidate: the best candidate is never struck out.  This needs no order on the scores,
only that the sort has ended.
-/

namespace KhadasYolo.Postprocess

open Ipc

universe u v

section Sorting

variable {F : Type u} {α : Type v} [FloatConvert F] {P : α → Prop}
  {ranking sorted : Ranking F α}

/-- All the indices have a property. -/
def Ranking.All (P : α → Prop) (ranking : Ranking F α) : Prop := ∀ i, P (ranking.indices i)

omit [FloatConvert F] in
theorem Ranking.All.put (all : ranking.All P) {key : F} {keyIndex : α} (index : P keyIndex)
    (place : Nat) : (ranking.put place key keyIndex).All P := by
  intro i
  change P (Function.update ranking.indices place keyIndex i)
  rw [Function.update_apply]
  split
  · exact index
  · exact all i

omit [FloatConvert F] in
theorem Ranking.All.move (all : ranking.All P) (place source : Nat) :
    (ranking.move place source).All P :=
  all.put (all source) place

theorem partitionRounds_all {key : F} {rounds low high : Nat} {parted : Ranking F α × Nat}
    (all : ranking.All P) (runs : partitionRounds key rounds ranking low high = some parted) :
    parted.1.All P := by
  induction rounds generalizing ranking low high with
  | zero =>
      rw [partitionRounds] at runs
      split at runs
      · cases runs
      · cases runs
        exact all
  | succ rounds ih =>
      rw [partitionRounds] at runs
      split at runs
      · exact ih ((all.move _ _).move _ _) runs
      · cases runs
        exact all

/-- The sort only moves indices. -/
theorem quickSortIndiceInverse_all {depth left right : Nat} (all : ranking.All P)
    (runs : quickSortIndiceInverse depth left right ranking = some sorted) :
    sorted.All P := by
  induction depth generalizing left right ranking sorted with
  | zero =>
      rw [quickSortIndiceInverse.eq_def] at runs
      dsimp only at runs
      split at runs
      · cases runs
      · cases runs
        exact all
  | succ depth ih =>
      rw [quickSortIndiceInverse.eq_def] at runs
      dsimp only at runs
      split at runs
      · rcases Option.bind_eq_some_iff.mp runs with ⟨⟨parted, low⟩, partitioned, rest⟩
        rcases Option.bind_eq_some_iff.mp rest with ⟨lower, sortedLower, sortedUpper⟩
        have inner := partitionRounds_all all partitioned
        exact ih (ih (inner.put (all left) low) sortedLower) sortedUpper
      · cases runs
        exact all

end Sorting

section Suppressing

variable {F : Type u} [FloatConvert F] (validCount : Nat) (outputLocations : List F)
  (classIds : List Nat) (threshold : F)

/-- A round only strikes out ranks behind the one it is at. -/
theorem nmsOuter_first (c : Nat) (order : OrderArray) (i : Nat) :
    nmsOuter validCount outputLocations classIds threshold c order i 0 = order 0 := by
  have inner : ∀ (n : Nat) (ranks : List Nat), (∀ j ∈ ranks, j ≠ 0) → ∀ order : OrderArray,
      ranks.foldl (nmsInner outputLocations classIds threshold c i n) order 0 = order 0 := by
    intro n ranks
    induction ranks with
    | nil => exact fun _ _ => rfl
    | cons j ranks ih =>
        intro behind order
        rw [List.forall_mem_cons] at behind
        rw [List.foldl_cons, ih behind.2, nmsInner]
        cases order j with
        | none => rfl
        | some m =>
            dsimp only
            split
            · rfl
            · split
              · rw [Function.update_of_ne behind.1.symm]
              · rfl
  rw [nmsOuter]
  cases order i with
  | none => rfl
  | some n =>
      dsimp only
      split
      · rfl
      · refine inner _ _ (fun j member => ?_) order
        rw [List.mem_range'_1] at member
        omega

theorem nmsAll_first (classes : Nat) (order : OrderArray) :
    nmsAll validCount outputLocations classIds threshold classes order 0 = order 0 := by
  have round : ∀ (c : Nat) (ranks : List Nat) (order : OrderArray),
      ranks.foldl (nmsOuter validCount outputLocations classIds threshold c) order 0 =
        order 0 := by
    intro c ranks
    induction ranks with
    | nil => exact fun _ => rfl
    | cons i ranks ih =>
        intro order
        rw [List.foldl_cons, ih, nmsOuter_first]
  induction classes with
  | zero => rfl
  | succ classes ih =>
      rw [nmsAll, List.range_succ, List.foldl_append, ← nmsAll, List.foldl_cons,
        List.foldl_nil, nms, round, ih]

end Suppressing

section Single

variable {F : Type u} [FloatConvert F] {labels : Nat → List UInt8} {args : Arguments F}
  {group : DetectResultGroup F}

/-- Some cell of a tensor reaches the threshold with a positive score. -/
def Arguments.Detects (args : Arguments F) (classes : Nat) : Prop :=
  ∃ head ∈ args.heads, ∃ cell ∈ head.cells, ∃ k < classes,
    qntF32ToAffine (unsigmoid args.confThreshold) head.zp head.scale ≤
        head.score classes cell k ∧
      0 < head.score classes cell k

theorem candidates_ne_nil_iff (args : Arguments F) (classes : Nat) :
    args.candidates classes ≠ [] ↔ args.Detects classes := by
  constructor
  · intro some
    rcases List.exists_mem_of_ne_nil _ some with ⟨c, member⟩
    rcases List.mem_flatMap.mp member with ⟨head, among, inHead⟩
    rcases List.mem_filterMap.mp inHead with ⟨cell, inGrid, found⟩
    exact ⟨head, among, cell, inGrid,
      (isSome_candidate_iff classes head _).mp (Option.isSome_of_eq_some found)⟩
  · rintro ⟨head, among, cell, inGrid, reaches⟩
    rcases Option.isSome_iff_exists.mp ((isSome_candidate_iff classes head _).mpr reaches) with
      ⟨c, found⟩
    exact List.ne_nil_of_mem (List.mem_flatMap.mpr ⟨head, among,
      List.mem_filterMap.mpr ⟨cell, inGrid, found⟩⟩)

/-- What `post_process` reports, once the sort has ended: a result for each rank that is
left, the first one among them. -/
theorem postProcess_collected (runs : postProcess 1 labels args = some group)
    (some : args.candidates 1 ≠ []) :
    ∃ (order : OrderArray) (objProbs : Nat → F), order 0 ≠ none ∧
      group.detections = ((List.range (min (args.candidates 1).length 200)).filterMap
        (collected args labels (args.extract 1).found objProbs order)).take 64 := by
  rw [postProcess, extract_eq] at runs
  dsimp only at runs
  have present : ¬ (args.candidates 1).length ≤ 0 :=
    Nat.not_le.mpr (List.length_pos_of_ne_nil some)
  rw [if_neg present] at runs
  rcases Option.map_eq_some_iff.mp runs with ⟨ranking, sorted, filled⟩
  have kept : ranking.All (· ≠ none) :=
    quickSortIndiceInverse_all (fun _ => Option.some_ne_none _) sorted
  have cut : (if (args.candidates 1).length > 200 then 200
      else (args.candidates 1).length) = min (args.candidates 1).length 200 := by
    split <;> omega
  rw [cut] at filled
  refine ⟨nmsAll (min (args.candidates 1).length 200) (args.extract 1).found.boxes
    (args.extract 1).found.classId args.nmsThreshold 1 ranking.indices, ranking.input, ?_, ?_⟩
  · rw [nmsAll_first]
    exact kept 0
  · rw [← filled, collect_all, emptyGroup_detections, List.nil_append, extract_eq]

/-- With one class, something is detected exactly when a cell has a candidate, and all of
it under the one name. -/
theorem postProcess_detects (runs : postProcess 1 labels args = some group) :
    (group.detections ≠ [] ↔ args.Detects 1) ∧
      ∀ result ∈ group.detections, result.name = copyLabel (labels 0) := by
  rw [← candidates_ne_nil_iff]
  by_cases none : args.candidates 1 = []
  · rw [postProcess, extract_eq, none] at runs
    cases runs
    rw [emptyGroup_detections, none]
    exact ⟨⟨absurd rfl, absurd rfl⟩, fun _ member => absurd member List.not_mem_nil⟩
  · rcases postProcess_collected runs none with ⟨order, objProbs, first, reported⟩
    rw [reported]
    constructor
    · refine iff_of_true ?_ none
      have positive : 0 < min (args.candidates 1).length 200 :=
        lt_min (List.length_pos_of_ne_nil none) (by decide)
      rcases Option.ne_none_iff_exists'.mp first with ⟨n, best⟩
      intro empty
      rw [List.take_eq_nil_iff, List.filterMap_eq_nil_iff] at empty
      have missed := (empty.resolve_left (by decide)) 0 (List.mem_range.mpr positive)
      rw [collected, best] at missed
      cases missed
    · intro result member
      rcases List.mem_filterMap.mp (List.mem_of_mem_take member) with ⟨i, _, found⟩
      rcases Option.map_eq_some_iff.mp found with ⟨n, _, rfl⟩
      have single : (args.extract 1).found.classId.getD n 0 = 0 :=
        Nat.lt_one_iff.mp (Labels.classId_lt none n)
      change copyLabel (labels ((args.extract 1).found.classId.getD n 0)) = _
      rw [single]

end Single

end KhadasYolo.Postprocess
