import KhadasYolo.Postprocess.PostProcess

/-!
# The threshold of the scores

`process` compares codes with the code of the threshold. In exact arithmetic this is the
test of the probabilities as long as the code of the threshold is not rounded down.
-/

namespace KhadasYolo.Postprocess

/-- The test on the codes is the test on the logits. -/
def Agrees (logit : ℝ) (zp : Int32) (scale : ℝ) : Prop :=
  ∀ q : Int8, qntF32ToAffine logit zp scale ≤ q ↔ logit ≤ deqntAffineToF32 q zp scale

/-- `sigmoid` is increasing, and `unsigmoid` is its inverse. -/
theorem le_sigmoid_iff {y x : ℝ} (positive : 0 < y) (below : y < 1) :
    y ≤ sigmoid x ↔ unsigmoid y ≤ x := by
  have one : (1.0 : ℝ) = 1 := by norm_num
  have odds : 0 < 1 / y - 1 := by
    rw [sub_pos, lt_div_iff₀ positive]
    linarith
  have sigmoid_eq : sigmoid x = 1 / (1 + Real.exp (-x)) := by
    rw [← one]
    rfl
  have unsigmoid_eq : unsigmoid y = -Real.log (1 / y - 1) := by
    rw [← one, ← neg_one_mul, ← one]
    rfl
  rw [sigmoid_eq, unsigmoid_eq, le_one_div positive (by positivity), neg_le,
    Real.le_log_iff_exp_le odds, le_sub_iff_add_le']

section Candidates

variable {classes : Nat} {args : Arguments ℝ}

/-- The score of a candidate reaches the threshold. -/
theorem Head.candidate_reaches {head : Head ℝ} {thresI8 : Int8} {c : Candidate ℝ}
    (member : c ∈ head.candidates classes thresI8) :
    ∃ q, thresI8 ≤ q ∧ c.prob = sigmoidLut head.zp head.scale q := by
  rcases List.mem_filterMap.mp member with ⟨cell, _, found⟩
  have describes := candidate_describes classes head thresI8 found
  have some : (head.candidate classes thresI8 cell).isSome = true := by
    rw [found]
    rfl
  rcases (isSome_candidate_iff classes head thresI8).mp some with ⟨k, below, above, _⟩
  exact ⟨_, Int8.le_trans above (describes.attains k below), describes.prob⟩

/-- A detection has the probability of a candidate. -/
theorem prop_of_detection {labels : Nat → List UInt8} {group : Ipc.DetectResultGroup ℝ}
    (runs : postProcess classes labels args = some group) {d : Ipc.DetectResult ℝ}
    (member : d ∈ group.detections) : ∃ c ∈ args.candidates classes, d.prop = c.prob := by
  rcases postProcess_collects classes labels args (ordered_exact _) with
    ⟨other, order, same, arranged, collects⟩
  rw [runs] at same
  cases same
  rw [collects] at member
  rcases List.mem_filterMap.mp (List.mem_of_mem_take member) with ⟨i, inRange, reported⟩
  rcases Option.map_eq_some_iff.mp reported with ⟨_, _, rfl⟩
  have below : i < (args.candidates classes).length :=
    (List.mem_range.mp inRange).trans_le (min_le_left _ _)
  have inArrangement : (args.extract classes).found.at (order i) ∈
      arrangement (args.candidates classes) order := by
    rw [extract_eq]
    exact List.mem_map.mpr ⟨i, List.mem_range.mpr below, rfl⟩
  exact ⟨_, arranged.perm.mem_iff.mp inArrangement, rfl⟩

end Candidates

/-- The tests of one image: those on the codes agree with those on the probabilities,
what is reported reaches the threshold, and what reaches it passes. -/
structure TestsAgree (classes : Nat) (labels : Nat → List UInt8) (args : Arguments ℝ) :
    Prop where
  tests : ∀ head ∈ args.heads, Agrees (unsigmoid args.confThreshold) head.zp head.scale
  reported : ∀ group, postProcess classes labels args = some group →
    ∀ d ∈ group.detections, args.confThreshold ≤ d.prop
  passes : ∀ head ∈ args.heads, ∀ cell ∈ head.cells, ∀ k < classes,
    args.confThreshold ≤ sigmoidLut head.zp head.scale (head.score classes cell k) →
      qntF32ToAffine (unsigmoid args.confThreshold) head.zp head.scale ≤
        head.score classes cell k

/-- The tests agree exactly when the conversion does not round the threshold down. -/
theorem quantised_threshold_iff {logit scale : ℝ} {zp : Int32} (stepped : 0 < scale)
    (classes : Nat) (labels : Nat → List UInt8) {args : Arguments ℝ}
    (positive : 0 < args.confThreshold) (below : args.confThreshold < 1)
    (scales : ∀ head ∈ args.heads, 0 < head.scale) :
    (Agrees logit zp scale ↔ Kept (codeOf logit zp scale)) ∧
      (TestsAgree classes labels args ↔ ∀ head ∈ args.heads,
        Kept (codeOf (unsigmoid args.confThreshold) head.zp head.scale)) := by
  apply And.intro (qnt_le_iff_iff stepped)
  constructor
  · intro agree head member
    exact (qnt_le_iff_iff (scales head member)).mp (agree.tests head member)
  · intro kept
    have tests : ∀ head ∈ args.heads,
        Agrees (unsigmoid args.confThreshold) head.zp head.scale := fun head member =>
      (qnt_le_iff_iff (scales head member)).mpr (kept head member)
    refine ⟨tests, fun group runs d member => ?_, fun head member cell _ k _ above => ?_⟩
    · rcases prop_of_detection runs member with ⟨c, candidate, prop⟩
      rcases List.mem_flatMap.mp candidate with ⟨head, inHeads, inHead⟩
      rcases Head.candidate_reaches inHead with ⟨q, reaches, prob⟩
      rw [prop, prob, sigmoidLut, le_sigmoid_iff positive below]
      exact (tests head inHeads q).mp reaches
    · rw [sigmoidLut, le_sigmoid_iff positive below] at above
      exact qnt_le_of_le_deqnt (scales head member) above

theorem quantised_threshold_iff_bright :
    Agrees 0 0 1 ∧ TestsAgree 1 (fun _ => []) Example.bright := by
  have even : unsigmoid (0.5 : ℝ) = 0 := by
    have one : unsigmoid (0.5 : ℝ) = -1.0 * Real.log (1.0 / 0.5 - 1.0) := rfl
    rw [one]
    norm_num
  have kept : Kept (codeOf 0 0 1) := .inl (by simp [codeOf])
  have heads : ∀ head ∈ Example.bright.heads, head.zp = 0 ∧ head.scale = 1 := by
    simp [Arguments.heads, Arguments.head0, Arguments.head1, Arguments.head2, Arguments.head,
      Example.bright]
  have positive : 0 < Example.bright.confThreshold := by norm_num [Example.bright]
  have below : Example.bright.confThreshold < 1 := by norm_num [Example.bright]
  have scales : ∀ head ∈ Example.bright.heads, 0 < head.scale := by
    intro head member
    rw [(heads head member).2]
    exact one_pos
  rcases @quantised_threshold_iff 0 1 0 one_pos 1 (fun _ => []) Example.bright positive below
    scales with ⟨agrees, tests⟩
  refine ⟨agrees.mpr kept, tests.mpr fun head member => ?_⟩
  have half : Example.bright.confThreshold = 0.5 := rfl
  rw [(heads head member).1, (heads head member).2, half, even]
  exact kept

/-- A threshold between two codes is rounded to the lower one. -/
theorem quantised_threshold_between : ¬ Agrees (0.5 : ℝ) 0 1 := by
  intro agrees
  have code : codeOf (0.5 : ℝ) 0 1 = 1 / 2 := by
    have zero : (0 : Int32).toInt = 0 := rfl
    rw [codeOf, zero]
    norm_num
  have kept := (qnt_le_iff_iff one_pos).mp agrees
  rw [code] at kept
  rcases kept with low | ⟨_, whole, exact⟩
  · norm_num at low
  · have double : ((1 : Int) : ℝ) = ((2 * whole : Int) : ℝ) := by
      rw [Int.cast_mul, ← exact]
      norm_num
    have same := Int.cast_injective double
    omega

end KhadasYolo.Postprocess
