import KhadasYolo.Postprocess.PostProcess
import KhadasYolo.Rga.Drawing
import KhadasYolo.Rga.Letterbox

/-!
# Boxes in the frame

`post_process` clips a box to the model input and divides by the scale of the letterbox.
In a square input a frame that is wider than high fills the width only. The rows below it
are padding, and a box that reaches there is not clipped to the frame.
-/

namespace KhadasYolo.Postprocess

open Ipc Rga

/-- A box in pixels of a frame. -/
structure InFrame (srcW srcH : Int32) (box : BoxRect) : Prop where
  left : 0 ≤ box.left.toInt
  ordered : box.left.toInt ≤ box.right.toInt
  right : box.right.toInt ≤ srcW.toInt
  top : 0 ≤ box.top.toInt
  upright : box.top.toInt ≤ box.bottom.toInt
  bottom : box.bottom.toInt ≤ srcH.toInt

/-- The distance of a side of the box in a cell. -/
noncomputable def Head.side (head : Head ℝ) (classes : Nat) (cell : Nat × Nat) (s : Nat) : ℝ :=
  decodeBox4 (fun i => head.input (head.offset classes cell + classes + i)) head.scale s

/-- A square model input with the scale of a frame that is wider than high. -/
structure Landscape (args : Arguments ℝ) (srcW srcH model : Int32) : Prop where
  wide : srcW > srcH
  high : 0 < srcH.toInt
  modelInW : (args.modelInW : Int) = model.toInt
  modelInH : (args.modelInH : Int) = model.toInt
  scaleW : args.scaleW = (letterbox srcW srcH model model).scale
  scaleH : args.scaleH = (letterbox srcW srcH model model).scale

/-- The first row of the model input whose pixels are below the frame. -/
noncomputable def paddedRow (srcW srcH model : Int32) : Int :=
  ⌈((srcH.toInt + 1) * model.toInt / srcW.toInt : ℝ)⌉

/-! ## A coordinate -/

/-- A coordinate in pixels of the model input. -/
noncomputable def clamped (max : Nat) (val : ℝ) : Int := ⌊Max.max 0 (min val max)⌋

section Coordinate

variable {model src bound : Int32} {max : Nat} {val other : ℝ}

theorem clamped_nonneg : 0 ≤ clamped max val :=
  Int.floor_nonneg.mpr (le_max_left _ _)

theorem clamped_le : clamped max val ≤ max := by
  apply Int.floor_le_iff.mpr
  apply lt_of_le_of_lt (b := (max : ℝ))
  · exact max_le max.cast_nonneg (min_le_right _ _)
  · exact_mod_cast lt_add_one (max : ℝ)

theorem clamped_mono (below : val ≤ other) : clamped max val ≤ clamped max other := by
  apply Int.floor_mono
  apply max_le_max le_rfl
  exact min_le_min_right _ below

/-- A bound in the model input that is not zero does not see the clamp. -/
theorem clamped_lt_iff {row : Int} (positive : 0 < row) (inside : row ≤ max) :
    clamped max val < row ↔ val < row := by
  have zero : (0 : ℝ) < row := Int.cast_pos.mpr positive
  have last : (row : ℝ) ≤ max := by exact_mod_cast inside
  rw [clamped, Int.floor_lt, max_lt_iff, min_lt_iff]
  constructor
  · rintro ⟨_, below | above⟩
    · exact below
    · exact absurd above (not_lt.mpr last)
  · intro below
    exact ⟨zero, .inl below⟩

theorem clamp_toInt (small : max < 2 ^ 31) : (clamp val 0 max).toInt = clamped max val := by
  have choice : (if FloatOps.less (FloatConvert.ofInt 0) val then
      if FloatOps.less val (FloatConvert.ofInt max) then val else FloatConvert.ofInt max
    else FloatConvert.ofInt 0) = Max.max 0 (min val (max : ℝ)) := by
    have zero : (FloatConvert.ofInt 0 : ℝ) = 0 := Int.cast_zero
    have last : (FloatConvert.ofInt max : ℝ) = max := Int.cast_natCast max
    simp only [zero, last, FloatOps.less, decide_eq_true_eq]
    split
    next above =>
      split
      next below => rw [min_eq_left below.le, max_eq_right above.le]
      next beyond => rw [min_eq_right (not_lt.mp beyond), max_eq_right max.cast_nonneg]
    next under =>
      exact (max_eq_left ((min_le_left _ _).trans (not_lt.mp under))).symm
  have low := @clamped_nonneg max val
  have high := @clamped_le max val
  rw [clamp, choice, FloatConvert.truncate_of_nonneg (le_max_left _ _)]
  exact Int32.toInt_ofInt_of_le (by rw [← clamped]; omega) (by rw [← clamped]; omega)

/-- A coordinate of the frame before the fraction is dropped. -/
theorem unscaled (value : Int) :
    (value : ℝ) / scaleOf model src = value * src.toInt / model.toInt := by
  have scale : (scaleOf model src : ℝ) = model.toInt / src.toInt := rfl
  rw [scale, div_div_eq_mul_div]

theorem scaled_toInt (sized : (max : Int) = model.toInt) (positive : 0 < model.toInt)
    (wide : 0 < src.toInt) : (scaled val max (scaleOf model src)).toInt =
      ⌊(clamped max val * src.toInt / model.toInt : ℝ)⌋ := by
  have last := model.toInt_lt
  have srcLast := src.toInt_lt
  have model_pos : (0 : ℝ) < model.toInt := Int.cast_pos.mpr positive
  have low : (0 : ℝ) ≤ clamped max val * src.toInt / model.toInt := by
    apply div_nonneg _ model_pos.le
    exact mul_nonneg (Int.cast_nonneg clamped_nonneg) (Int.cast_nonneg wide.le)
  have high : (clamped max val * src.toInt / model.toInt : ℝ) ≤ src.toInt := by
    rw [div_le_iff₀ model_pos, mul_comm]
    apply mul_le_mul_of_nonneg_left _ (Int.cast_nonneg wide.le)
    exact Int.cast_le.mpr (clamped_le.trans sized.le)
  have floor : ⌊(clamped max val * src.toInt / model.toInt : ℝ)⌋ ≤ src.toInt :=
    Int.cast_le.mp ((Int.floor_le _).trans high)
  have zero := Int.floor_nonneg.mpr low
  have small : max < 2 ^ 31 := by omega
  have pixel : (FloatConvert.ofInt (clamp val 0 max).toInt : ℝ) / scaleOf model src =
      clamped max val * src.toInt / model.toInt := by
    rw [clamp_toInt small]
    exact unscaled _
  rw [scaled, pixel, FloatConvert.truncate_of_nonneg low]
  exact Int32.toInt_ofInt_of_le (by omega) (by omega)

section Bounds

variable (sized : (max : Int) = model.toInt) (positive : 0 < model.toInt) (wide : 0 < src.toInt)

include sized positive wide

theorem scaled_nonneg : 0 ≤ (scaled val max (scaleOf model src)).toInt := by
  rw [scaled_toInt sized positive wide]
  apply Int.floor_nonneg.mpr
  apply div_nonneg _ (Int.cast_nonneg positive.le)
  exact mul_nonneg (Int.cast_nonneg clamped_nonneg) (Int.cast_nonneg wide.le)

theorem scaled_mono (below : val ≤ other) : (scaled val max (scaleOf model src)).toInt ≤
    (scaled other max (scaleOf model src)).toInt := by
  rw [scaled_toInt sized positive wide, scaled_toInt sized positive wide]
  apply Int.floor_mono
  apply div_le_div_of_nonneg_right _ (Int.cast_nonneg positive.le)
  apply mul_le_mul_of_nonneg_right _ (Int.cast_nonneg wide.le)
  exact Int.cast_le.mpr (clamped_mono below)

/-- The clamp bounds a coordinate of the axis that the frame fills. -/
theorem scaled_le : (scaled val max (scaleOf model src)).toInt ≤ src.toInt := by
  have model_pos : (0 : ℝ) < model.toInt := Int.cast_pos.mpr positive
  rw [scaled_toInt sized positive wide]
  apply (Int.cast_le (R := ℝ)).mp
  apply (Int.floor_le _).trans
  rw [div_le_iff₀ model_pos, mul_comm]
  apply mul_le_mul_of_nonneg_left _ (Int.cast_nonneg wide.le)
  exact Int.cast_le.mpr (clamped_le.trans sized.le)

/-- A coordinate of the other axis stays in the frame as long as it is above the first
padded row. -/
theorem scaled_le_iff (high : 0 < bound.toInt) (below : bound.toInt < src.toInt) :
    (scaled val max (scaleOf model src)).toInt ≤ bound.toInt ↔
      val < paddedRow src bound model := by
  have model_pos : (0 : ℝ) < model.toInt := Int.cast_pos.mpr positive
  have src_pos : (0 : ℝ) < src.toInt := Int.cast_pos.mpr wide
  have next : (0 : ℝ) < bound.toInt + 1 := by exact_mod_cast Int.add_pos high one_pos
  have row : 0 < paddedRow src bound model := Int.ceil_pos.mpr (by positivity)
  have inside : paddedRow src bound model ≤ max := by
    rw [sized]
    apply Int.ceil_le.mpr
    rw [div_le_iff₀ src_pos, mul_comm]
    apply mul_le_mul_of_nonneg_left _ model_pos.le
    exact_mod_cast Int.add_one_le_of_lt below
  rw [scaled_toInt sized positive wide, ← clamped_lt_iff row inside, Int.floor_le_iff,
    div_lt_iff₀ model_pos, paddedRow, Int.lt_ceil, lt_div_iff₀ src_pos]

end Bounds

end Coordinate

/-! ## A candidate -/

section Report

variable {classes : Nat} {args : Arguments ℝ} {labels : Nat → List UInt8}
  {srcW srcH model : Int32} {c : Candidate ℝ}

/-- The sides of a box are on their sides of its cell. -/
theorem candidate_ordered {head : Head ℝ} {thresI8 : Int8} {cell : Nat × Nat}
    (sides : ∀ s < 4, 0 ≤ head.side classes cell s)
    (found : head.candidate classes thresI8 cell = some c) :
    c.box.xmin ≤ c.box.xmax ∧ c.box.ymin ≤ c.box.ymax := by
  rcases Option.map_eq_some_iff.mp found with ⟨k, best, rfl⟩
  have apart {centre before after : ℝ} (low : 0 ≤ before) (high : 0 ≤ after) :
      (centre - before) * head.stride ≤ (centre + after) * head.stride := by
    apply mul_le_mul_of_nonneg_right _ head.stride.cast_nonneg
    linarith
  constructor
  · exact apart (sides 0 (by decide)) (sides 2 (by decide))
  · exact apart (sides 1 (by decide)) (sides 3 (by decide))

/-- A model input without pixels has no candidates. -/
theorem candidates_positive (member : c ∈ args.candidates classes) : 0 < args.modelInH := by
  rcases List.mem_flatMap.mp member with ⟨head, inHeads, inHead⟩
  rcases List.mem_filterMap.mp inHead with ⟨cell, inCells, _⟩
  rcases List.mem_flatMap.mp inCells with ⟨row, inRows, _⟩
  have rows := List.mem_range.mp inRows
  rw [Arguments.heads] at inHeads
  simp only [List.mem_cons, List.not_mem_nil, or_false] at inHeads
  rcases inHeads with rfl | rfl | rfl
  · exact Nat.pos_of_div_pos (Nat.zero_lt_of_lt rows)
  · exact Nat.pos_of_div_pos (Nat.zero_lt_of_lt rows)
  · exact Nat.pos_of_div_pos (Nat.zero_lt_of_lt rows)

/-- The side distances of all cells are not negative and at most fifteen. -/
def Distances (args : Arguments ℝ) (classes : Nat) : Prop :=
  ∀ head ∈ args.heads, ∀ cell ∈ head.cells, ∀ s < 4,
    0 ≤ head.side classes cell s ∧ head.side classes cell s ≤ 15

theorem candidates_ordered (distances : Distances args classes)
    (member : c ∈ args.candidates classes) :
    c.box.xmin ≤ c.box.xmax ∧ c.box.ymin ≤ c.box.ymax := by
  rcases List.mem_flatMap.mp member with ⟨head, inHeads, inHead⟩
  rcases List.mem_filterMap.mp inHead with ⟨cell, inCells, found⟩
  apply candidate_ordered _ found
  intro s side
  exact (distances head inHeads cell inCells s side).1

theorem Landscape.srcW_pos (landscape : Landscape args srcW srcH model) : 0 < srcW.toInt :=
  landscape.high.trans (landscape_iff.mp landscape.wide)

theorem Landscape.model_pos (landscape : Landscape args srcW srcH model)
    (member : c ∈ args.candidates classes) : 0 < model.toInt := by
  rw [← landscape.modelInH]
  exact Int.natCast_pos.mpr (candidates_positive member)

theorem Landscape.scale_eq (landscape : Landscape args srcW srcH model) :
    (letterbox srcW srcH model model : Letterbox ℝ).scale = scaleOf model srcW := by
  rw [letterbox, if_pos landscape.wide]

/-- The box reported for a candidate is in the frame exactly when the candidate ends above
the padding. -/
theorem report_inFrame_iff (landscape : Landscape args srcW srcH model)
    (distances : Distances args classes) (member : c ∈ args.candidates classes) :
    InFrame srcW srcH (args.report labels c).box ↔
      c.box.ymax < paddedRow srcW srcH model := by
  have positive := landscape.model_pos member
  have wide := landscape.srcW_pos
  have below : srcH.toInt < srcW.toInt := landscape_iff.mp landscape.wide
  have scaleW := landscape.scaleW.trans landscape.scale_eq
  have scaleH := landscape.scaleH.trans landscape.scale_eq
  rcases candidates_ordered distances member with ⟨sides, lines⟩
  rw [← scaled_le_iff landscape.modelInH positive wide landscape.high below, Arguments.report,
    scaleW, scaleH]
  constructor
  · intro inFrame
    exact inFrame.bottom
  · intro bottom
    constructor
    · exact scaled_nonneg landscape.modelInW positive wide
    · exact scaled_mono landscape.modelInW positive wide sides
    · exact scaled_le landscape.modelInW positive wide
    · exact scaled_nonneg landscape.modelInH positive wide
    · exact scaled_mono landscape.modelInH positive wide lines
    · exact bottom

end Report

/-! ## The results -/

/-- A rank leads to a candidate. -/
theorem Arranged.at_mem {cs : List (Candidate ℝ)} {order : Equiv.Perm Nat}
    (arranged : Arranged cs order) {i : Nat} (below : i < cs.length) :
    (Candidates.append ⟨[], [], []⟩ cs).at (order i) ∈ cs := by
  apply arranged.perm.subset
  apply List.mem_map_of_mem (f := fun i => (Candidates.append ⟨[], [], []⟩ cs).at (order i))
  exact List.mem_range.mpr below

/-- The results are reported for some of the candidates. -/
theorem postProcess_reports (classes : Nat) (labels : Nat → List UInt8) (args : Arguments ℝ) :
    ∃ group, ∃ chosen : List (Candidate ℝ), postProcess classes labels args = some group ∧
      (∀ c ∈ chosen, c ∈ args.candidates classes) ∧
      group.detections = chosen.map (args.report labels) := by
  rcases postProcess_collects classes labels args (ordered_exact _) with
    ⟨group, order, runs, arranged, collects⟩
  rw [filterMap_map, ← List.map_take] at collects
  refine ⟨group, _, runs, ?_, collects.trans (List.map_map (g := args.report labels)).symm⟩
  intro c member
  rcases List.mem_map.mp member with ⟨i, taken, rfl⟩
  have ranks := List.mem_range.mp (List.mem_filter.mp (List.mem_of_mem_take taken)).1
  rw [extract_eq]
  exact arranged.at_mem (ranks.trans_le (min_le_left _ _))

/-- With one class the best candidate is reported. -/
theorem postProcess_first {labels : Nat → List UInt8} {args : Arguments ℝ}
    {group : DetectResultGroup ℝ} (some : args.candidates 1 ≠ [])
    (runs : postProcess 1 labels args = .some group) : group.detections ≠ [] := by
  rcases postProcess_collects 1 labels args (ordered_exact _) with
    ⟨group, order, first, _, collects⟩
  cases runs.symm.trans first
  have count : 0 < min (args.candidates 1).length 200 :=
    lt_min (List.length_pos_iff.mpr some) (by decide)
  have single : ∀ i < min (args.candidates 1).length 200,
      (args.extract 1).found.classId.getD i 0 = 0 := by
    intro i below
    have inside := below.trans_le (min_le_left _ _)
    have candidate := congrArg Candidate.classId (at_append (args.candidates 1) inside)
    rw [extract_eq]
    apply candidate.trans
    exact Nat.lt_one_iff.mp (candidates_classId 1 args (List.getElem_mem inside))
  have kept := (nmsAll_single (min (args.candidates 1).length 200)
    (args.extract 1).found.boxes args.nmsThreshold order single count).mpr
      fun i before => absurd before (Nat.not_lt_zero i)
  rw [collects, filterMap_map, ← List.map_take]
  intro empty
  have nothing := List.map_eq_nil_iff.mp empty
  rw [List.take_eq_nil_iff] at nothing
  rcases nothing with none | none
  · contradiction
  · have left := List.filter_eq_nil_iff.mp none 0 (List.mem_range.mpr count)
    exact left (Option.ne_none_iff_isSome.mp kept)

/-- A reported box can be drawn, also where it reaches over the frame. -/
theorem report_drawable {classes : Nat} {labels : Nat → List UInt8} {args : Arguments ℝ}
    {srcW srcH model : Int32} {c : Candidate ℝ} (landscape : Landscape args srcW srcH model)
    (member : c ∈ args.candidates classes) (room : srcW.toInt + 6 ≤ 2 ^ 31) :
    Drawable (args.report labels c).box := by
  have positive := landscape.model_pos member
  have wide := landscape.srcW_pos
  have inside {max : Nat} {scale val : ℝ} (sized : (max : Int) = model.toInt)
      (same : scale = (letterbox srcW srcH model model).scale) :
      0 ≤ (scaled val max scale).toInt ∧ (scaled val max scale).toInt + 6 ≤ 2 ^ 31 := by
    rw [same, landscape.scale_eq]
    constructor
    · exact scaled_nonneg sized positive wide
    · exact (Int.add_le_add_right (scaled_le sized positive wide) 6).trans room
  constructor
  · exact inside landscape.modelInW landscape.scaleW
  · exact inside landscape.modelInH landscape.scaleH
  · exact (inside landscape.modelInW landscape.scaleW).1
  · exact (inside landscape.modelInH landscape.scaleH).1

/-- The boxes of a frame are drawn in its display buffer. -/
theorem drawDetections_postProcess {classes : Nat} {labels : Nat → List UInt8}
    {args : Arguments ℝ} {srcW srcH model : Int32} {group : DetectResultGroup ℝ}
    (landscape : Landscape args srcW srcH model)
    (runs : postProcess classes labels args = some group)
    (small : srcW.toInt * srcH.toInt * 3 ≤ 2 ^ 31) (display : Int → UInt8) {n : Int}
    (outside : n < 0 ∨ srcW.toInt * srcH.toInt * 3 ≤ n) :
    drawDetections display srcW srcH group n = display n := by
  rcases postProcess_reports classes labels args with ⟨_, chosen, same, among, reports⟩
  cases runs.symm.trans same
  apply drawDetections_apart _ small display outside
  rw [reports, List.forall_mem_map]
  intro c member
  apply report_drawable landscape (among c member)
  have wide := landscape.srcW_pos
  have lines := landscape.high
  nlinarith

/-- The results for a frame that is wider than high are in the frame exactly when none of
their candidates reaches the padded rows. -/
theorem post_process_frame_iff (classes : Nat) (labels : Nat → List UInt8)
    (args : Arguments ℝ) (srcW srcH model : Int32) (landscape : Landscape args srcW srcH model)
    (distances : Distances args classes) :
    ∃ group, ∃ chosen : List (Candidate ℝ), postProcess classes labels args = some group ∧
      (∀ c ∈ chosen, c ∈ args.candidates classes) ∧
      group.detections = chosen.map (args.report labels) ∧
      (∀ c ∈ args.candidates classes, InFrame srcW srcH (args.report labels c).box ↔
        c.box.ymax < paddedRow srcW srcH model) ∧
      ((∀ det ∈ group.detections, InFrame srcW srcH det.box) ↔
        ∀ c ∈ chosen, c.box.ymax < paddedRow srcW srcH model) := by
  rcases postProcess_reports classes labels args with ⟨group, chosen, runs, among, reports⟩
  refine ⟨group, chosen, runs, among, reports, ?_, ?_⟩
  · intro c member
    exact report_inFrame_iff landscape distances member
  · rw [reports, List.forall_mem_map]
    apply forall₂_congr
    intro c member
    exact report_inFrame_iff landscape distances (among c member)

namespace Example

/-- The image with one bright cell, taken of a frame of 64 by 16 pixels. -/
noncomputable def framed : Arguments ℝ :=
  { bright with
    scaleW := (letterbox 64 16 32 32).scale
    scaleH := (letterbox 64 16 32 32).scale }

theorem landscape_framed : Landscape framed 64 16 32 where
  wide := by decide
  high := by decide
  modelInW := by decide
  modelInH := by decide
  scaleW := rfl
  scaleH := rfl

/-- Equal logits are no distance apart. -/
theorem side_constant {head : Head ℝ} (stepped : 0 < head.scale)
    (constant : ∀ i j, head.input i = head.input j) (cell : Nat × Nat) (s : Nat) (side : s < 4) :
    0 ≤ head.side 1 cell s ∧ head.side 1 cell s ≤ 15 := by
  apply distance_mem
  apply (sum_pos_iff _ _ _).mpr
  refine ⟨0, by decide, ?_⟩
  rw [fastExpf_pos_iff, bits_pos_iff (shifted_nonpos stepped (by omega)),
    shifted_bound_iff stepped]
  intro j _
  rw [constant (head.offset 1 cell + 1 + j) (head.offset 1 cell + 1 + (s * 16 + 0)), sub_self,
    mul_zero]
  norm_num

theorem distances_framed : Distances framed 1 := by
  intro head inHeads cell _ s side
  rw [Arguments.heads] at inHeads
  simp only [List.mem_cons, List.not_mem_nil, or_false] at inHeads
  rcases inHeads with rfl | rfl | rfl
  · exact side_constant one_pos (fun _ _ => rfl) cell s side
  · exact side_constant one_pos (fun _ _ => rfl) cell s side
  · exact side_constant one_pos (fun _ _ => rfl) cell s side

/-- A cell without a positive score has no candidate. -/
theorem candidate_dark {head : Head ℝ} {thresI8 : Int8} {cell : Nat × Nat} {c : Candidate ℝ}
    (dark : ∀ i, head.input i = -1) : head.candidate 1 thresI8 cell ≠ some c := by
  intro found
  have reaches := (candidate_isSome_bright head thresI8 cell).mp
    (Option.isSome_iff_exists.mpr ⟨c, found⟩)
  rw [Head.score, dark] at reaches
  exact absurd reaches.2 (by decide)

/-- The candidate comes from the coarse grid. -/
theorem ymax_framed {c : Candidate ℝ} (member : c ∈ framed.candidates 1) :
    16 ≤ c.box.ymax := by
  rcases List.mem_flatMap.mp member with ⟨head, inHeads, inHead⟩
  rcases List.mem_filterMap.mp inHead with ⟨cell, inCells, found⟩
  have distances := distances_framed head inHeads cell inCells 3 (by decide)
  rw [Arguments.heads] at inHeads
  simp only [List.mem_cons, List.not_mem_nil, or_false] at inHeads
  rcases inHeads with rfl | rfl | rfl
  · exact absurd found (candidate_dark fun _ => rfl)
  · exact absurd found (candidate_dark fun _ => rfl)
  · rcases Option.map_eq_some_iff.mp found with ⟨k, best, rfl⟩
    have row : (0 : ℝ) ≤ cell.1 := cell.1.cast_nonneg
    have half : (0.5 : ℝ) = 1 / 2 := by norm_num
    change (16 : ℝ) ≤ (cell.1 + 0.5 + framed.head2.side 1 cell 3) * (32 : Nat)
    rw [half]
    push_cast
    linarith [distances.1]

theorem paddedRow_framed : paddedRow 64 16 32 = 9 := by
  have width : (64 : Int32).toInt = 64 := by decide
  have height : (16 : Int32).toInt = 16 := by decide
  have model : (32 : Int32).toInt = 32 := by decide
  rw [paddedRow, width, height, model, Int.ceil_eq_iff]
  norm_num

end Example

theorem post_process_frame_iff_framed :
    ∃ group, ∃ chosen : List (Candidate ℝ),
      postProcess 1 (fun _ => []) Example.framed = some group ∧
      group.detections = chosen.map (Example.framed.report fun _ => []) ∧
      ((∀ det ∈ group.detections, InFrame 64 16 det.box) ↔ ∀ c ∈ chosen, c.box.ymax < 9) := by
  rcases post_process_frame_iff 1 (fun _ => []) Example.framed 64 16 32
    Example.landscape_framed Example.distances_framed with ⟨group, chosen, runs, _, reports, _, all⟩
  rw [Example.paddedRow_framed] at all
  exact ⟨group, chosen, runs, reports, by exact_mod_cast all⟩

/-- The box of the bright cell ends below the frame. -/
theorem post_process_padded : Landscape Example.framed 64 16 32 ∧ Distances Example.framed 1 ∧
    ∃ group, postProcess 1 (fun _ => []) Example.framed = some group ∧
      ∃ det ∈ group.detections, ¬ InFrame 64 16 det.box := by
  rcases postProcess_reports 1 (fun _ => []) Example.framed with
    ⟨group, chosen, runs, among, reports⟩
  have some : Example.framed.candidates 1 ≠ [] :=
    List.ne_nil_of_length_eq_add_one Example.length_candidates_bright
  have detections := postProcess_first some runs
  rw [reports, ne_eq, List.map_eq_nil_iff] at detections
  rcases List.exists_mem_of_ne_nil chosen detections with ⟨c, member⟩
  refine ⟨Example.landscape_framed, Example.distances_framed, group, runs, _,
    reports ▸ List.mem_map_of_mem member, ?_⟩
  have padded : InFrame 64 16 (Example.framed.report (fun _ => []) c).box ↔ _ :=
    report_inFrame_iff Example.landscape_framed Example.distances_framed (among c member)
  rw [padded, Example.paddedRow_framed, not_lt]
  have low := Example.ymax_framed (among c member)
  push_cast
  linarith

end KhadasYolo.Postprocess
