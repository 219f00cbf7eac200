import KhadasYolo.Postprocess.Labels

/-!
# What is read of the tensors

`process` reads the scores of a cell and, where it has a candidate, the sixty-four logits
behind them.  Nothing outside of the three tensors has any influence on the result, and
the candidates fit into the vectors as they were reserved.
-/

namespace KhadasYolo.Postprocess

universe u

variable {F : Type u}

/-- How many elements the tensor of a grid has. -/
def tensorSize (gridH gridW classes : Nat) : Nat := gridH * gridW * (classes + 4 * 16)

/-- The elements of a cell lie in the tensor. -/
theorem offset_add_lt {head : Head F} {classes i : Nat} {cell : Nat × Nat}
    (inGrid : cell ∈ head.cells) (inside : i < classes + 4 * 16) :
    head.offset classes cell + i < tensorSize head.gridH head.gridW classes := by
  rcases List.mem_flatMap.mp inGrid with ⟨row, inRows, inRow⟩
  rcases List.mem_map.mp inRow with ⟨column, inColumns, rfl⟩
  rw [List.mem_range] at inRows inColumns
  have place : row * head.gridW + column + 1 ≤ head.gridH * head.gridW := by
    have rows := Nat.mul_le_mul_right head.gridW inRows
    rw [Nat.succ_mul] at rows
    omega
  have cells := Nat.mul_le_mul_right (classes + 4 * 16) place
  rw [Nat.succ_mul] at cells
  rw [Head.offset, tensorSize]
  dsimp only
  omega

section Reads

variable [FloatConvert F]

/-- The decoding reads sixty-four logits. -/
theorem decodeBox4_congr {x y : Nat → Int8} (same : ∀ i < 64, x i = y i) (scale : F)
    {s : Nat} (side : s < 4) : decodeBox4 x scale s = decodeBox4 y scale s := by
  have maximum : xMax x = xMax y := by
    have logits : (List.range' 1 63).map x = (List.range' 1 63).map y := by
      refine List.map_congr_left fun i member => same i ?_
      rw [List.mem_range'_1] at member
      omega
    rw [xMax, xMax, logits, same 0 (by decide)]
  have sides : decodeSide x scale s = decodeSide y scale s := by
    rw [decodeSide, decodeSide]
    refine List.foldl_ext _ _ _ fun side k member => ?_
    have bin := List.mem_range.mp member
    have shift : shifted x scale (s * 16 + k) = shifted y scale (s * 16 + k) := by
      rw [shifted, shifted, maximum, same _ (by omega)]
    rw [shift]
  rw [decodeBox4, decodeBox4, sides]

/-- A head that reads another tensor. -/
def Head.reading (head : Head F) (input : Nat → Int8) : Head F := { head with input }

/-- A cell with the same elements has the same candidate. -/
theorem Head.candidate_congr {head : Head F} {input : Nat → Int8} {classes : Nat}
    (same : ∀ n < tensorSize head.gridH head.gridW classes, head.input n = input n)
    (thresI8 : Int8) {cell : Nat × Nat} (inGrid : cell ∈ head.cells) :
    (head.reading input).candidate classes thresI8 cell =
      head.candidate classes thresI8 cell := by
  have elements : ∀ i < classes + 4 * 16,
      head.input (head.offset classes cell + i) = input (head.offset classes cell + i) :=
    fun i inside => same _ (offset_add_lt inGrid inside)
  have scores : scanClasses classes thresI8 ((head.reading input).score classes cell) =
      scanClasses classes thresI8 (head.score classes cell) := by
    rw [scanClasses, scanClasses]
    refine List.foldl_ext _ _ _ fun best k member => ?_
    have score : (head.reading input).score classes cell k = head.score classes cell k :=
      (elements k (Nat.lt_add_right _ (List.mem_range.mp member))).symm
    rw [score]
  have sides : ∀ s < 4,
      decodeBox4 (fun i => input (head.offset classes cell + classes + i)) head.scale s =
        decodeBox4 (fun i => head.input (head.offset classes cell + classes + i))
          head.scale s := by
    intro s side
    refine decodeBox4_congr (fun i logit => ?_) head.scale side
    rw [Nat.add_assoc]
    exact (elements _ (Nat.add_lt_add_left logit classes)).symm
  rw [Head.candidate, Head.candidate, scores]
  refine congrArg (Option.map · _) (funext fun k => ?_)
  dsimp only [Head.reading, Head.offset] at sides ⊢
  rw [sides 0 (by decide), sides 1 (by decide), sides 2 (by decide), sides 3 (by decide)]

theorem Head.candidates_congr {head : Head F} {input : Nat → Int8} {classes : Nat}
    (same : ∀ n < tensorSize head.gridH head.gridW classes, head.input n = input n)
    (thresI8 : Int8) :
    (head.reading input).candidates classes thresI8 = head.candidates classes thresI8 :=
  List.filterMap_congr fun _ inGrid => Head.candidate_congr same thresI8 inGrid

/-- `max_candidates`. -/
def Arguments.maxCandidates (args : Arguments F) : Nat :=
  (args.heads.map fun head => head.gridH * head.gridW).sum

/-- A tensor has no more candidates than cells. -/
theorem Head.length_candidates_le (head : Head F) (classes : Nat) (thresI8 : Int8) :
    (head.candidates classes thresI8).length ≤ head.gridH * head.gridW := by
  have cells : head.cells.length = head.gridH * head.gridW := by
    rw [Head.cells, List.length_flatMap]
    simp
  rw [← cells]
  exact List.length_filterMap_le _ _

theorem length_candidates_le (args : Arguments F) (classes : Nat) :
    (args.candidates classes).length ≤ args.maxCandidates := by
  rw [Arguments.candidates, Arguments.maxCandidates, List.length_flatMap]
  exact List.sum_le_sum fun head _ => head.length_candidates_le classes _

/-- A call with other tensors. -/
def Arguments.reading (args : Arguments F) (input0 input1 input2 : Nat → Int8) : Arguments F :=
  { args with input0, input1, input2 }

section Tensors

variable {classes : Nat} {args : Arguments F} {input0 input1 input2 : Nat → Int8}
  (first : ∀ n < tensorSize (args.modelInH / 8) (args.modelInW / 8) classes,
    args.input0 n = input0 n)
  (second : ∀ n < tensorSize (args.modelInH / 16) (args.modelInW / 16) classes,
    args.input1 n = input1 n)
  (third : ∀ n < tensorSize (args.modelInH / 32) (args.modelInW / 32) classes,
    args.input2 n = input2 n)

include first second third

theorem candidates_congr :
    (args.reading input0 input1 input2).candidates classes = args.candidates classes := by
  have reads0 := fun thresI8 => @Head.candidates_congr _ _ args.head0 _ _ first thresI8
  have reads1 := fun thresI8 => @Head.candidates_congr _ _ args.head1 _ _ second thresI8
  have reads2 := fun thresI8 => @Head.candidates_congr _ _ args.head2 _ _ third thresI8
  have heads : (args.reading input0 input1 input2).heads =
      [args.head0.reading input0, args.head1.reading input1, args.head2.reading input2] := rfl
  rw [Arguments.candidates, heads, Arguments.candidates, Arguments.heads]
  simp only [List.flatMap_cons, List.flatMap_nil]
  rw [reads0, reads1, reads2]
  rfl

/-- The result depends on nothing outside of the tensors, and the vectors stay within what
is reserved for them. -/
theorem post_process_reads (labels : Nat → List UInt8) :
    postProcess classes labels (args.reading input0 input1 input2) =
        postProcess classes labels args ∧
      (args.extract classes).found.boxes.length ≤ args.maxCandidates * 4 ∧
      (args.extract classes).found.objProbs.length ≤ args.maxCandidates ∧
      (args.extract classes).found.classId.length ≤ args.maxCandidates := by
  have few := length_candidates_le args classes
  constructor
  · rw [postProcess, postProcess, extract_eq, extract_eq, candidates_congr first second third]
    rfl
  · rw [extract_eq]
    simp only [Candidates.append, List.nil_append, List.length_flatMap, List.length_map]
    refine ⟨?_, few, few⟩
    change (List.map (fun _ => 4) _).sum ≤ _
    rw [List.map_const', List.sum_replicate, smul_eq_mul]
    exact Nat.mul_le_mul_right 4 few

end Tensors

/-- Bright bytes behind the end of a tensor. -/
def behind (size : Nat) (input : Nat → Int8) (n : Nat) : Int8 :=
  if n < size then input n else 127

theorem behind_eq {size n : Nat} {input : Nat → Int8} (inside : n < size) :
    input n = behind size input n :=
  (if_pos inside).symm

/-- A call whose tensors are followed by such bytes. -/
def Arguments.overrun (args : Arguments F) (classes : Nat) : Arguments F :=
  args.reading
    (behind (tensorSize (args.modelInH / 8) (args.modelInW / 8) classes) args.input0)
    (behind (tensorSize (args.modelInH / 16) (args.modelInW / 16) classes) args.input1)
    (behind (tensorSize (args.modelInH / 32) (args.modelInW / 32) classes) args.input2)

/-- They make no difference to a frame with one detection. -/
theorem post_process_reads_spot :
    postProcess 1 (fun _ => []) ((Labels.spot 0 : Arguments Float32).overrun 1) =
      postProcess 1 (fun _ => []) (Labels.spot 0 : Arguments Float32) :=
  (post_process_reads (fun _ => behind_eq) (fun _ => behind_eq) (fun _ => behind_eq) _).1

end Reads

end KhadasYolo.Postprocess
