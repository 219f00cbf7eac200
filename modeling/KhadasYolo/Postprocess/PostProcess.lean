import KhadasYolo.Ipc.DataPublisher
import KhadasYolo.Postprocess.Sort
import KhadasYolo.Postprocess.Suppression

/-!
# Detections of an image

`post_process` extracts the candidates of three tensors, sorts their scores, suppresses
overlapping boxes among the best ones and fills the result group. The sort moves the
scores. The boxes and the classes stay in the order of the scan, and the array of
indices leads from a rank to its candidate.
-/

namespace KhadasYolo.Postprocess

open Greedy Ipc

universe u

/-- The arguments of `post_process`. -/
structure Arguments (F : Type u) where
  input0 : Nat → Int8
  input1 : Nat → Int8
  input2 : Nat → Int8
  modelInH : Nat
  modelInW : Nat
  confThreshold : F
  nmsThreshold : F
  scaleW : F
  scaleH : F
  qntZps : Vector Int32 3
  qntScales : Vector F 3

variable {F : Type u}

/-- The tensor of a stride. -/
def Arguments.head (args : Arguments F) (input : Nat → Int8) (stride : Nat) (n : Fin 3) :
    Head F where
  input := input
  gridH := args.modelInH / stride
  gridW := args.modelInW / stride
  stride := stride
  zp := args.qntZps[n]
  scale := args.qntScales[n]

def Arguments.head0 (args : Arguments F) : Head F := args.head args.input0 8 0

def Arguments.head1 (args : Arguments F) : Head F := args.head args.input1 16 1

def Arguments.head2 (args : Arguments F) : Head F := args.head args.input2 32 2

def Arguments.heads (args : Arguments F) : List (Head F) := [args.head0, args.head1, args.head2]

/-- `strncpy` of a label without its terminating NUL. -/
def copyLabel (label : List UInt8) : Vector UInt8 16 :=
  Vector.ofFn fun i => label.getD i 0

section Source

variable [FloatConvert F]

def clamp (val : F) (min max : Int) : Int32 :=
  Int32.ofInt (FloatConvert.truncate
    (if FloatOps.less (FloatConvert.ofInt min) val then
      if FloatOps.less val (FloatConvert.ofInt max) then val else FloatConvert.ofInt max
    else FloatConvert.ofInt min))

/-- A coordinate of the image in pixels. -/
def scaled (val : F) (max : Nat) (scale : F) : Int32 :=
  Int32.ofInt (FloatConvert.truncate (FloatConvert.ofInt (clamp val 0 max).toInt / scale))

/-- The calls of `process`. -/
def Arguments.extract (args : Arguments F) (classes : Nat) : Extraction F :=
  let first := process classes args.head0 args.confThreshold ⟨[], [], []⟩
  let second := process classes args.head1 args.confThreshold first.found
  let third := process classes args.head2 args.confThreshold second.found
  ⟨third.found, first.validCount + second.validCount + third.validCount⟩

/-- The result for a candidate. -/
def Arguments.report (args : Arguments F) (labels : Nat → List UInt8) (c : Candidate F) :
    DetectResult F where
  name := copyLabel (labels c.classId)
  box :=
    { left := scaled c.box.xmin args.modelInW args.scaleW
      right := scaled c.box.xmax args.modelInW args.scaleW
      top := scaled c.box.ymin args.modelInH args.scaleH
      bottom := scaled c.box.ymax args.modelInH args.scaleH }
  prop := c.prob

/-- The group after `memset`. -/
def emptyGroup : DetectResultGroup F where
  count := 0
  results := .replicate 64 ⟨.replicate 16 0, ⟨0, 0, 0, 0⟩, 0.0⟩
  count_le := Nat.zero_le 64

/-- The body of the loop that fills the group. The score is the one at the rank. -/
def collect (args : Arguments F) (labels : Nat → List UInt8) (found : Candidates F)
    (objProbs : Nat → F) (order : OrderArray) (group : DetectResultGroup F) (i : Nat) :
    DetectResultGroup F :=
  match order i with
  | none => group
  | some n =>
      if room : group.count < 64 then
        { count := group.count + 1
          results := group.results.set group.count (args.report labels
            ⟨boxAt found.boxes n, objProbs i, found.classId.getD n 0⟩) room
          count_le := room }
      else group

/-- `post_process`, unless the sort does not end. -/
def postProcess (classes : Nat) (labels : Nat → List UInt8) (args : Arguments F) :
    Option (DetectResultGroup F) :=
  let ⟨found, validCount⟩ := args.extract classes
  if validCount ≤ 0 then some emptyGroup
  else
    (quickSortIndiceInverse validCount 0 (validCount - 1)
      ⟨fun i => found.objProbs.getD i 0.0, some⟩).map fun ranking =>
      let validCount := if validCount > 200 then 200 else validCount
      let order := nmsAll validCount found.boxes found.classId args.nmsThreshold classes
        ranking.indices
      (List.range validCount).foldl (collect args labels found ranking.input order) emptyGroup

end Source

/-! ## The candidates -/

section Vectors

variable [FloatConvert F]

/-- The candidate at an index of the three vectors. -/
def Candidates.at (self : Candidates F) (n : Nat) : Candidate F :=
  ⟨boxAt self.boxes n, self.objProbs.getD n 0.0, self.classId.getD n 0⟩

omit [FloatConvert F] in
theorem Candidates.append_append (self : Candidates F) (first second : List (Candidate F)) :
    (self.append first).append second = self.append (first ++ second) := by
  simp [append]

/-- All candidates of the three tensors. -/
def Arguments.candidates (args : Arguments F) (classes : Nat) : List (Candidate F) :=
  args.heads.flatMap fun head =>
    head.candidates classes
      (qntF32ToAffine (unsigmoid args.confThreshold) head.zp head.scale)

theorem extract_eq (args : Arguments F) (classes : Nat) :
    args.extract classes =
      ⟨Candidates.append ⟨[], [], []⟩ (args.candidates classes),
        (args.candidates classes).length⟩ := by
  simp only [Arguments.extract, process, processCells_eq, Candidates.append_append,
    Arguments.candidates, Arguments.heads, List.flatMap_cons, List.flatMap_nil, List.append_nil,
    List.length_append, List.append_assoc, Nat.add_assoc]

theorem boxAt_append (cs : List (Candidate F)) {n : Nat} (below : n < cs.length) :
    boxAt (Candidates.append ⟨[], [], []⟩ cs).boxes n = cs[n].box := by
  induction cs generalizing n with
  | nil => contradiction
  | cons c cs ih =>
      cases n with
      | zero => rfl
      | succ n =>
          rw [List.getElem_cons_succ, ← ih (Nat.lt_of_succ_lt_succ below)]
          simp only [boxAt, Nat.succ_mul, Nat.add_right_comm _ 4]
          rfl

/-- The three vectors describe the same candidates. -/
theorem at_append (cs : List (Candidate F)) {n : Nat} (below : n < cs.length) :
    (Candidates.append ⟨[], [], []⟩ cs).at n = cs[n] := by
  simp only [Candidates.at, boxAt_append cs below]
  simp [Candidates.append, below]

theorem map_at (cs : List (Candidate F)) :
    (List.range cs.length).map (Candidates.append ⟨[], [], []⟩ cs).at = cs := by
  apply List.ext_getElem
  · rw [List.length_map, List.length_range]
  · intro n below within
    rw [List.getElem_map, List.getElem_range, at_append cs within]

end Vectors

/-! ## The group -/

section Collect

variable [FloatConvert F] {args : Arguments F} {labels : Nat → List UInt8}
  {found : Candidates F} {objProbs : Nat → F} {order : OrderArray}

theorem emptyGroup_detections : (emptyGroup : DetectResultGroup F).detections = [] :=
  List.take_zero

/-- What the loop collects at a rank. -/
def collected (args : Arguments F) (labels : Nat → List UInt8) (found : Candidates F)
    (objProbs : Nat → F) (order : OrderArray) (i : Nat) : Option (DetectResult F) :=
  (order i).map fun n =>
    args.report labels ⟨boxAt found.boxes n, objProbs i, found.classId.getD n 0⟩

omit [FloatConvert F] in
/-- Two cuts at the same place. -/
theorem take_take_append {α : Type*} (n : Nat) (first second : List α) :
    (first.take n ++ second).take n = (first ++ second).take n := by
  rw [List.take_append, List.take_append, List.take_take, Nat.min_self, List.length_take]
  congr 2
  omega

/-- One rank. -/
theorem collect_detections (group : DetectResultGroup F) (i : Nat) :
    (collect args labels found objProbs order group i).detections =
      (group.detections ++ (collected args labels found objProbs order i).toList).take 64 := by
  have count := group.length_detections
  have full := group.count_le
  rw [collect, collected]
  cases order i with
  | none =>
      rw [Option.map_none, Option.toList_none, List.append_nil,
        List.take_of_length_le (count.trans_le full)]
  | some n =>
      rw [Option.map_some, Option.toList_some]
      dsimp only
      split
      next room =>
        rw [List.take_of_length_le (by simpa [count] using room)]
        simp [DetectResultGroup.detections, List.take_add_one, Vector.toList_set, room]
        exact List.take_set_of_le (Nat.le_refl _)
      next full =>
        rw [List.take_append_of_le_length (by omega), List.take_of_length_le (by omega)]

/-- All ranks. -/
theorem collect_all (group : DetectResultGroup F) (ranks : List Nat) :
    (ranks.foldl (collect args labels found objProbs order) group).detections =
      (group.detections ++ ranks.filterMap (collected args labels found objProbs order)).take
        64 := by
  induction ranks generalizing group with
  | nil =>
      rw [List.foldl_nil, List.filterMap_nil, List.append_nil, List.take_of_length_le
        (group.length_detections.trans_le group.count_le)]
  | cons i ranks ih =>
      rw [List.foldl_cons, ih, collect_detections, take_take_append, List.append_assoc]
      congr 2
      rw [List.filterMap_cons]
      cases collected args labels found objProbs order i <;> rfl

end Collect

/-! ## The selection -/

section Select

variable [FloatConvert F] (classes : Nat) (labels : Nat → List UInt8) (args : Arguments F)

/-- The candidates from the best one on, in the order of the ranks. -/
structure Arranged (cs : List (Candidate F)) (order : Equiv.Perm Nat) : Prop where
  within : Within 0 (cs.length - 1) order
  descending : ∀ i j, i < j → j < cs.length → FloatConvert.lessEq
    ((Candidates.append ⟨[], [], []⟩ cs).at (order j)).prob
    ((Candidates.append ⟨[], [], []⟩ cs).at (order i)).prob = true

/-- The sort ends, and a result is the candidate that the order leads to. -/
theorem postProcess_collects
    (comparable : Ordered fun s : F => ∃ c ∈ args.candidates classes, c.prob = s) :
    ∃ group order, postProcess classes labels args = some group ∧
      Arranged (args.candidates classes) order ∧
      group.detections = ((List.range (min (args.candidates classes).length 200)).filterMap
        fun i => (nmsAll (min (args.candidates classes).length 200)
          (args.extract classes).found.boxes (args.extract classes).found.classId
          args.nmsThreshold classes (fun i => some (order i)) i).map fun _ =>
            args.report labels ((args.extract classes).found.at (order i))).take 64 := by
  rw [postProcess, extract_eq]
  dsimp only
  generalize args.candidates classes = cs at comparable
  by_cases none : cs.length ≤ 0
  · rw [if_pos none, Nat.le_zero.mp none, List.eq_nil_of_length_eq_zero (Nat.le_zero.mp none)]
    exact ⟨emptyGroup, .refl _, rfl, ⟨.refl, by simp⟩, emptyGroup_detections⟩
  · rw [if_neg none]
    have at_prob (n : Nat) : (Candidates.append ⟨[], [], []⟩ cs).objProbs.getD n 0.0 =
      ((Candidates.append ⟨[], [], []⟩ cs).at n).prob := rfl
    have scores : ∀ i, 0 ≤ i → i ≤ cs.length - 1 →
        ∃ c ∈ cs, c.prob = (Candidates.append ⟨[], [], []⟩ cs).objProbs.getD i 0.0 := by
      intro i _ last
      have below : i < cs.length := by omega
      refine ⟨cs[i], List.getElem_mem below, ?_⟩
      rw [at_prob, at_append cs below]
    have enough : cs.length - 1 ≤ 0 + cs.length := by omega
    rcases @quickSortIndiceInverse_sorted _ _ _ _ comparable _ _ _ enough
      ⟨fun i => (Candidates.append ⟨[], [], []⟩ cs).objProbs.getD i 0.0, some⟩ scores with
      ⟨sorted, order, runs, within, reordered, descending⟩
    rw [runs, Option.map_some]
    refine ⟨_, order, rfl, ⟨within, fun i j before below => ?_⟩, ?_⟩
    · have this := descending i j (Nat.zero_le i) before (by omega)
      rwa [reordered] at this
    · rw [collect_all, reordered]
      have cut : (if cs.length > 200 then 200 else cs.length) = min cs.length 200 := by
        split <;> omega
      rw [cut, emptyGroup_detections, List.nil_append]
      refine congrArg (List.take 64) (List.filterMap_congr fun i _ => ?_)
      have moved : (Ranking.reorder ⟨fun i =>
          (Candidates.append ⟨[], [], []⟩ cs).objProbs.getD i 0.0, some⟩ order).indices =
        fun i => some (order i) := rfl
      rw [collected, moved, nmsAll_orderOf, orderOf]
      split
      next => exact congrArg (fun c => some (args.report labels c)) rfl
      next => rw [Option.map_none, Option.map_none]

theorem candidates_classId {c : Candidate F} (member : c ∈ args.candidates classes) :
    c.classId < classes := by
  rcases List.mem_flatMap.mp member with ⟨head, _, inHead⟩
  rcases List.mem_filterMap.mp inHead with ⟨cell, _, found⟩
  exact (candidate_describes classes head _ found).classId

end Select

section Rearrange

variable [FloatConvert F] {cs : List (Candidate F)} {order : Equiv.Perm Nat}

omit [FloatConvert F] in
theorem Within.map_range {count : Nat} (within : Within 0 (count - 1) order) :
    ((List.range count).map order).Perm (List.range count) := by
  refine (List.perm_ext_iff_of_nodup
    ((List.nodup_map_iff order.injective).mpr List.nodup_range) List.nodup_range).mpr ?_
  intro n
  have stays {i : Nat} (below : i < count) : order i < count := by
    have this := (within.mem ⟨Nat.zero_le i, by omega⟩).2
    omega
  have fixed {i : Nat} (above : ¬ i < count) : order i = i := by
    by_cases last : i = count - 1
    · -- The range is empty, and the permutation is the identity.
      have this := (within.mem ⟨Nat.zero_le i, last.le⟩).2
      omega
    · exact within i (.inr (by omega))
  rw [List.mem_map, List.mem_range]
  constructor
  · rintro ⟨i, member, rfl⟩
    exact stays (List.mem_range.mp member)
  · intro below
    refine ⟨order.symm n, List.mem_range.mpr ?_, order.apply_symm_apply n⟩
    by_contra above
    have this := fixed above
    rw [order.apply_symm_apply] at this
    omega

/-- The candidates by rank. -/
def arrangement (cs : List (Candidate F)) (order : Equiv.Perm Nat) : List (Candidate F) :=
  (List.range cs.length).map fun i => (Candidates.append ⟨[], [], []⟩ cs).at (order i)

theorem Arranged.perm (arranged : Arranged cs order) : (arrangement cs order).Perm cs := by
  have moved := arranged.within.map_range.map (Candidates.append ⟨[], [], []⟩ cs).at
  rwa [map_at, List.map_map] at moved

theorem Arranged.pairwise (arranged : Arranged cs order) :
    (arrangement cs order).Pairwise fun a b => FloatConvert.lessEq b.prob a.prob = true := by
  rw [arrangement, List.pairwise_map]
  refine List.Pairwise.imp_of_mem ?_ List.pairwise_lt_range
  intro i j _ member before
  exact arranged.descending i j before (List.mem_range.mp member)

end Rearrange

/-! ## One class -/

section Greedy

variable [FloatConvert F] {labels : Nat → List UInt8} {args : Arguments F}

/-- Two candidates overlap by more than the threshold. -/
def overlaps (threshold : F) (a b : Candidate F) : Bool :=
  FloatOps.less threshold (calculateOverlap a.box b.box)

/-- The group holds what the greedy selection keeps of the best candidates. -/
structure Selects (labels : Nat → List UInt8) (args : Arguments F)
    (group : DetectResultGroup F) (arranged kept : List (Candidate F)) : Prop where
  appended : (args.extract 1).found = Candidates.append ⟨[], [], []⟩ (args.candidates 1)
  perm : arranged.Perm (args.candidates 1)
  descending : arranged.Pairwise fun a b => FloatConvert.lessEq b.prob a.prob = true
  greedy : kept = (select (overlaps args.nmsThreshold) [] (arranged.take 200)).take 64
  reported : group.detections = kept.map (args.report labels)
  count : group.count = kept.length ∧ kept.length ≤ 64
  falling : group.detections.Pairwise fun a b => FloatConvert.lessEq b.prop a.prop = true
  apart : kept.Pairwise fun a b => overlaps args.nmsThreshold a b = false
  /-- A candidate is kept, overlaps a kept one with a score that is not lower, or comes
  after 64 kept ones. -/
  dropped : ∀ before c after, arranged.take 200 = before ++ c :: after →
    let earlier := select (overlaps args.nmsThreshold) [] before
    earlier ++ [c] <+: kept ∨
      (∃ b ∈ kept, overlaps args.nmsThreshold b c = true ∧
        FloatConvert.lessEq c.prob b.prob = true) ∨
      kept <+: earlier ∧ kept.length = 64

omit [FloatConvert F] in
theorem filterMap_map {α β γ : Type*} (choose : α → Option β) (f : α → γ) (xs : List α) :
    xs.filterMap (fun a => (choose a).map fun _ => f a) =
      (xs.filter fun a => (choose a).isSome).map f := by
  induction xs with
  | nil => rfl
  | cons a xs ih =>
      cases chosen : choose a <;> simp [chosen, ih]

/-- The tombstones are those that the greedy selection passes over. -/
theorem nms_select {cs : List (Candidate F)} {threshold : F}
    (single : ∀ c ∈ cs, c.classId = 0) (order : Equiv.Perm Nat) :
    select (overlaps threshold) [] ((arrangement cs order).take 200) =
      ((List.range (min cs.length 200)).filter fun i =>
        (nmsAll (min cs.length 200) (Candidates.append ⟨[], [], []⟩ cs).boxes
          (Candidates.append ⟨[], [], []⟩ cs).classId threshold 1
          (fun i => some (order i)) i).isSome).map
        fun i => (Candidates.append ⟨[], [], []⟩ cs).at (order i) := by
  have zero : ∀ i < min cs.length 200,
      (Candidates.append ⟨[], [], []⟩ cs).classId.getD i 0 = 0 := by
    intro i below
    have inside : i < cs.length := below.trans_le (min_le_left _ _)
    have this := congrArg Candidate.classId (at_append cs inside)
    rw [single _ (List.getElem_mem inside)] at this
    exact this
  rw [arrangement, ← List.map_take, List.take_range, Nat.min_comm]
  apply select_range
  intro j below
  have left := nmsAll_single (min cs.length 200) (Candidates.append ⟨[], [], []⟩ cs).boxes
    threshold order zero below
  rw [← Option.ne_none_iff_isSome, left]
  refine forall₂_congr fun i _ => imp_congr Iff.rfl ?_
  rw [Option.isSome_eq_false_iff, Option.isNone_iff_eq_none]

/-- The selection of `post_process` is greedy. -/
theorem post_process_greedy
    (comparable : Ordered fun s : F => ∃ c ∈ args.candidates 1, c.prob = s) :
    ∃ group arranged kept, postProcess 1 labels args = some group ∧
      Selects labels args group arranged kept := by
  rcases postProcess_collects 1 labels args comparable with
    ⟨group, order, runs, inOrder, collects⟩
  have appended := congrArg Extraction.found (extract_eq args 1)
  dsimp only at appended
  have single : ∀ c ∈ args.candidates 1, c.classId = 0 := fun c member =>
    Nat.lt_one_iff.mp (candidates_classId 1 args member)
  have selected := @nms_select _ _ _ args.nmsThreshold single order
  have descending := inOrder.pairwise
  have ranked : ((arrangement (args.candidates 1) order).take 200).Pairwise fun a b =>
      FloatConvert.lessEq b.prob a.prob = true := descending.sublist (List.take_sublist _ _)
  have kept_sublist : ((select (overlaps args.nmsThreshold) []
      ((arrangement (args.candidates 1) order).take 200)).take 64).Sublist
        ((arrangement (args.candidates 1) order).take 200) :=
    (List.take_sublist _ _).trans (select_sublist _ _)
  have reported : group.detections = ((select (overlaps args.nmsThreshold) []
      ((arrangement (args.candidates 1) order).take 200)).take 64).map (args.report labels) := by
    rw [collects, filterMap_map, selected, ← List.map_take, ← List.map_take, List.map_map,
      appended]
    rfl
  refine ⟨group, arrangement (args.candidates 1) order, _, runs, appended, inOrder.perm,
    descending, rfl, reported, ⟨?_, List.length_take_le _ _⟩, ?_, ?_, ?_⟩
  · rw [← group.length_detections, reported, List.length_map]
  · rw [reported, List.pairwise_map]
    exact ranked.sublist kept_sublist
  · exact (select_pairwise _ _).sublist (List.take_sublist _ _)
  · intro before c after split earlier
    rw [split]
    rcases select_take_split (overlaps args.nmsThreshold) 64 before c after with
      kept | ⟨b, member, inBefore, overlap⟩ | full
    · exact .inl kept
    · rw [split] at ranked
      exact .inr (.inl ⟨b, member, overlap,
        (List.pairwise_append.mp ranked).2.2 b inBefore c List.mem_cons_self⟩)
    · exact .inr (.inr full)

end Greedy

/-- The real numbers are totally ordered. -/
theorem ordered_exact (score : ℝ → Prop) : Ordered score where
  total a b _ _ := by
    simp only [FloatConvert.lessEq, decide_eq_true_eq]
    exact le_total a b
  trans a b c _ _ _ := by
    simp only [FloatConvert.lessEq, decide_eq_true_eq]
    exact le_trans

namespace Example

/-- An image with one bright cell on the coarse grid. -/
noncomputable def bright : Arguments ℝ where
  input0 _ := -1
  input1 _ := -1
  input2 _ := 127
  modelInH := 32
  modelInW := 32
  confThreshold := 0.5
  nmsThreshold := 0.45
  scaleW := 1
  scaleH := 1
  qntZps := .replicate 3 0
  qntScales := .replicate 3 1

theorem candidate_isSome_bright (head : Head ℝ) (thresI8 : Int8) (cell : Nat × Nat) :
    (head.candidate 1 thresI8 cell).isSome = true ↔
      thresI8 ≤ head.score 1 cell 0 ∧ 0 < head.score 1 cell 0 := by
  simp [isSome_candidate_iff]

/-- A tensor without a positive score has no candidate. -/
theorem candidates_dark (head : Head ℝ) (thresI8 : Int8) (low : ∀ n, head.input n ≤ 0) :
    head.candidates 1 thresI8 = [] := by
  rw [Head.candidates, List.filterMap_eq_nil_iff]
  intro cell _
  rw [← Option.not_isSome_iff_eq_none, candidate_isSome_bright]
  exact fun reaches => absurd (low _) (Int8.not_le.mpr reaches.2)

/-- The image has one candidate. -/
theorem length_candidates_bright : (bright.candidates 1).length = 1 := by
  have low : (-1 : Int8) ≤ 0 := by decide
  have found (thresI8 : Int8) : (bright.head2.candidate 1 thresI8 (0, 0)).isSome = true :=
    (candidate_isSome_bright _ _ _).mpr ⟨Int8.le_iff_toInt_le.mpr
      (Int.lt_add_one_iff.mp thresI8.toInt_lt), by decide⟩
  have single : bright.head2.cells = [(0, 0)] := rfl
  rw [Arguments.candidates, Arguments.heads, List.flatMap_cons, List.flatMap_cons,
    List.flatMap_singleton, candidates_dark bright.head0 _ fun _ => low,
    candidates_dark bright.head1 _ fun _ => low, Head.candidates, single]
  rcases Option.isSome_iff_exists.mp
    (found (qntF32ToAffine (unsigmoid bright.confThreshold) bright.head2.zp bright.head2.scale))
    with ⟨c, candidate⟩
  rw [List.filterMap_cons_some candidate]
  rfl

/-- Three cells of the coarse grid, with a score that rises to the right. Each of them sees
a box of two cells around its own. -/
noncomputable def row : Arguments ℝ where
  input0 _ := -128
  input1 _ := -128
  input2 n :=
    if n % 65 = 0 then .ofNat (n / 65 + 1) else if n % 65 % 16 = 3 then 127 else -128
  modelInH := 32
  modelInW := 96
  confThreshold := 0.5
  nmsThreshold := 0.45
  scaleW := 1
  scaleH := 1
  qntZps := .replicate 3 0
  qntScales := .replicate 3 1

/-- What a cell sees. -/
noncomputable def seen (column : Nat) : Candidate ℝ where
  box :=
    { xmin := (FloatOps.ofNat column + 0.5 - FloatOps.ofNat 2) * FloatOps.ofNat 32
      ymin := (FloatOps.ofNat 0 + 0.5 - FloatOps.ofNat 2) * FloatOps.ofNat 32
      xmax := (FloatOps.ofNat column + 0.5 + FloatOps.ofNat 2) * FloatOps.ofNat 32
      ymax := (FloatOps.ofNat 0 + 0.5 + FloatOps.ofNat 2) * FloatOps.ofNat 32 }
  prob := sigmoid (FloatOps.ofNat (column + 1))
  classId := 0

theorem row_logit {column i : Nat} (below : i < 64) :
    row.head2.input (row.head2.offset 1 (0, column) + 1 + i) =
      if i % 16 = 2 then 127 else -128 := by
  have index : row.head2.offset 1 (0, column) + 1 + i = column * 65 + (1 + i) := by
    simp only [Head.offset, Arguments.head2, Arguments.head, row]
    omega
  have cell : (column * 65 + (1 + i)) % 65 = 1 + i := by omega
  rw [index]
  simp only [Arguments.head2, Arguments.head, row, cell]
  rw [if_neg (by omega)]
  exact if_congr (by omega) rfl rfl

theorem row_decoded {column s : Nat} (side : s < 4) :
    decodeBox4 (fun i => row.head2.input (row.head2.offset 1 (0, column) + 1 + i)) (1 : ℝ) s =
      FloatOps.ofNat 2 := by
  have value : ∀ k < 16, row.head2.input (row.head2.offset 1 (0, column) + 1 + (s * 16 + k)) =
      if k = 2 then 127 else -128 := by
    intro k below
    rw [row_logit (by omega)]
    exact if_congr (by omega) rfl rfl
  have high : (127 : Int8).toInt = 127 := by decide
  have low : (-128 : Int8).toInt = -128 := by decide
  apply decodeBox4_single _ _ 2 one_pos side (by decide)
  · rw [bits_pos_iff (shifted_nonpos one_pos (by omega)), shifted_bound_iff one_pos]
    intro j _
    have most : ((row.head2.input (row.head2.offset 1 (0, column) + 1 + j)).toInt : ℝ) ≤ 127 := by
      exact_mod_cast Int.lt_add_one_iff.mp (Int8.toInt_lt _)
    rw [value 2 (by decide), if_pos rfl, high]
    push_cast
    linarith
  · intro k below other
    rw [value 2 (by decide), value k below, if_pos rfl, if_neg other, high, low]
    norm_num

theorem row_candidate {column : Nat} (inside : column < 3) {thresI8 : Int8} (low : thresI8 ≤ 0) :
    row.head2.candidate 1 thresI8 (0, column) = some (seen column) := by
  have score : row.head2.score 1 (0, column) 0 = .ofNat (column + 1) := by
    have index : row.head2.offset 1 (0, column) + 0 = column * 65 := by
      simp only [Head.offset, Arguments.head2, Arguments.head, row]
      omega
    rw [Head.score, index]
    simp [Arguments.head2, Arguments.head, row]
  have scan : scanClasses 1 thresI8 (row.head2.score 1 (0, column)) =
      ⟨.ofNat (column + 1), some 0⟩ := by
    have above : (0 : Int8) < .ofNat (column + 1) := by interval_cases column <;> decide
    have reaches := Int8.le_of_lt (Int8.lt_of_le_of_lt low above)
    rw [scanClasses, List.range_one, List.foldl_cons, List.foldl_nil, score,
      if_pos ⟨reaches, above⟩]
  rw [Head.candidate, scan]
  have scale : row.head2.scale = 1 := rfl
  simp only [Option.map_some, scale, row_decoded (show 0 < 4 by decide),
    row_decoded (show 1 < 4 by decide), row_decoded (show 2 < 4 by decide),
    row_decoded (show 3 < 4 by decide)]
  have code : sigmoidLut row.head2.zp (1 : ℝ) (.ofNat (column + 1)) =
      sigmoid (FloatOps.ofNat (column + 1)) := by
    have zero : row.head2.zp.toInt = 0 := rfl
    have whole : (Int8.ofNat (column + 1)).toInt = column + 1 := by interval_cases column <;> decide
    rw [sigmoidLut, deqntAffineToF32, zero, whole]
    simp [FloatConvert.ofInt, FloatOps.ofNat]
  rw [code]
  rfl

/-- The three cells have a candidate each. -/
theorem candidates_row : row.candidates 1 = [seen 0, seen 1, seen 2] := by
  have half : unsigmoid row.confThreshold = 0 := by
    have value : unsigmoid row.confThreshold = -1.0 * Real.log (1.0 / 0.5 - 1.0) := rfl
    rw [value]
    norm_num
  have low : (-128 : Int8) ≤ 0 := by decide
  have threshold :
      qntF32ToAffine (unsigmoid row.confThreshold) row.head2.zp row.head2.scale ≤ 0 := by
    apply qnt_le_of_le_deqnt one_pos
    have zero : deqntAffineToF32 0 row.head2.zp (1 : ℝ) = 0 := by
      have zp : row.head2.zp.toInt = 0 := rfl
      rw [deqntAffineToF32, zp, Int8.toInt_zero, sub_self, zero_mul]
    exact half.trans_le zero.ge
  have cells : row.head2.cells = [(0, 0), (0, 1), (0, 2)] := rfl
  rw [Arguments.candidates, Arguments.heads, List.flatMap_cons, List.flatMap_cons,
    List.flatMap_singleton, candidates_dark row.head0 _ fun _ => low,
    candidates_dark row.head1 _ fun _ => low, Head.candidates, cells,
    List.filterMap_cons_some (row_candidate (by decide) threshold),
    List.filterMap_cons_some (row_candidate (by decide) threshold),
    List.filterMap_cons_some (row_candidate (by decide) threshold)]
  rfl

/-- Neighbours overlap too much. -/
theorem overlaps_row :
    overlaps row.nmsThreshold (seen 2) (seen 1) = true ∧
      overlaps row.nmsThreshold (seen 2) (seen 0) = false := by
  simp [overlaps, calculateOverlap, seen, FloatConvert.fmin, FloatConvert.fmax, FloatOps.less,
    FloatConvert.lessEq, FloatOps.ofNat, row]
  norm_num

end Example

/-- The best one strikes out its neighbour, which no longer strikes out the last one. -/
theorem post_process_greedy_row :
    ∃ group, postProcess 1 (fun _ => []) Example.row = some group ∧
      group.detections =
        [Example.seen 2, Example.seen 0].map (Example.row.report fun _ => []) := by
  rcases @post_process_greedy _ _ (fun _ => []) Example.row (ordered_exact _) with
    ⟨group, arranged, kept, runs, selects⟩
  refine ⟨group, runs, ?_⟩
  have perm := selects.perm
  rw [Example.candidates_row] at perm
  have score (i j : Nat) :
      FloatConvert.lessEq (Example.seen i).prob (Example.seen j).prob = true ↔ i ≤ j := by
    simp only [FloatConvert.lessEq, decide_eq_true_eq, Example.seen, sigmoid_strictMono.le_iff_le,
      FloatOps.ofNat, Nat.cast_le, Nat.add_le_add_iff_right]
  have named : ∀ c ∈ [Example.seen 0, Example.seen 1, Example.seen 2],
      ∃ column, c = Example.seen column := by simp
  have sorted : arranged = [Example.seen 2, Example.seen 1, Example.seen 0] := by
    refine List.Perm.eq_of_pairwise ?_ selects.descending (by simp [score])
      (perm.trans (List.reverse_perm _).symm)
    intro a b inFirst inSecond below above
    rcases named a (perm.subset inFirst) with ⟨i, rfl⟩
    rcases named b (List.mem_reverse.mp inSecond) with ⟨j, rfl⟩
    rw [score] at below above
    rw [le_antisymm above below]
  rw [selects.reported, selects.greedy, sorted]
  simp [select, Example.overlaps_row]

end KhadasYolo.Postprocess
