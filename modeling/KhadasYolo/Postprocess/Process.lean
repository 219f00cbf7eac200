import KhadasYolo.Postprocess.BoxDecode
import KhadasYolo.Postprocess.Quantization

/-!
# Candidates of an output tensor

`process` goes through the cells of a grid and appends a candidate for a cell with a
class score that reaches the threshold. The number of classes is a build constant.
-/

namespace KhadasYolo.Postprocess

universe u

/-- The corners of a box. -/
structure Box (F : Type u) where
  xmin : F
  ymin : F
  xmax : F
  ymax : F
  deriving DecidableEq

structure Candidate (F : Type u) where
  box : Box F
  prob : F
  classId : Nat
  deriving DecidableEq

/-- The three vectors that are filled in parallel. -/
structure Candidates (F : Type u) where
  boxes : List F
  objProbs : List F
  classId : List Nat

variable {F : Type u}

/-- The `push_back` calls for one candidate. -/
def Candidates.push (self : Candidates F) (c : Candidate F) : Candidates F where
  boxes := self.boxes ++ [c.box.xmin, c.box.ymin, c.box.xmax, c.box.ymax]
  objProbs := self.objProbs ++ [c.prob]
  classId := self.classId ++ [c.classId]

/-- One output tensor with its grid and its quantisation. -/
structure Head (F : Type u) where
  input : Nat → Int8
  gridH : Nat
  gridW : Nat
  stride : Nat
  zp : Int32
  scale : F

/-- Where the scores of a cell start. The logits of its box follow them. -/
def Head.offset (head : Head F) (classes : Nat) (cell : Nat × Nat) : Nat :=
  (cell.1 * head.gridW + cell.2) * (classes + 4 * 16)

/-- The score of a class in a cell. -/
def Head.score (head : Head F) (classes : Nat) (cell : Nat × Nat) (k : Nat) : Int8 :=
  head.input (head.offset classes cell + k)

/-- The locals of the scan over the classes. -/
structure BestClass where
  maxClassProbs : Int8
  maxClassId : Option Nat

/-- The scan over the classes of a cell. -/
def scanClasses (classes : Nat) (thresI8 : Int8) (score : Nat → Int8) : BestClass :=
  (List.range classes).foldl
    (fun best k =>
      if score k ≥ thresI8 ∧ score k > best.maxClassProbs then ⟨score k, some k⟩ else best)
    ⟨0, none⟩

/-- The locals of the scan over the grid. -/
structure Extraction (F : Type u) where
  found : Candidates F
  validCount : Nat

section Source

variable [FloatConvert F]

/-- The probabilities of all scores. -/
def sigmoidLut (zp : Int32) (scale : F) (q : Int8) : F := sigmoid (deqntAffineToF32 q zp scale)

/-- The candidate of a cell. -/
def Head.candidate (head : Head F) (classes : Nat) (thresI8 : Int8) (cell : Nat × Nat) :
    Option (Candidate F) :=
  let best := scanClasses classes thresI8 (head.score classes cell)
  best.maxClassId.map fun k =>
    let dfl := decodeBox4 (fun i => head.input (head.offset classes cell + classes + i))
      head.scale
    { box :=
        { xmin := (FloatOps.ofNat cell.2 + 0.5 - dfl 0) * FloatOps.ofNat head.stride
          ymin := (FloatOps.ofNat cell.1 + 0.5 - dfl 1) * FloatOps.ofNat head.stride
          xmax := (FloatOps.ofNat cell.2 + 0.5 + dfl 2) * FloatOps.ofNat head.stride
          ymax := (FloatOps.ofNat cell.1 + 0.5 + dfl 3) * FloatOps.ofNat head.stride }
      prob := sigmoidLut head.zp head.scale best.maxClassProbs
      classId := k }

/-- The body of the loops over the grid. -/
def Head.visit (head : Head F) (classes : Nat) (thresI8 : Int8) (out : Extraction F)
    (cell : Nat × Nat) : Extraction F :=
  match head.candidate classes thresI8 cell with
  | some c => ⟨out.found.push c, out.validCount + 1⟩
  | none => out

/-- `process` with its threshold converted. -/
def processCells (classes : Nat) (head : Head F) (thresI8 : Int8) (found : Candidates F) :
    Extraction F :=
  (List.range head.gridH).foldl
    (fun out i => (List.range head.gridW).foldl
      (fun out j => head.visit classes thresI8 out (i, j)) out)
    ⟨found, 0⟩

def process (classes : Nat) (head : Head F) (threshold : F) (found : Candidates F) :
    Extraction F :=
  processCells classes head (qntF32ToAffine (unsigmoid threshold) head.zp head.scale) found

end Source

/-! ## One cell -/

section Scan

variable {classes : Nat} {thresI8 : Int8} {score : Nat → Int8}

/-- What the scan has found among the first classes. -/
structure Scanned (thresI8 : Int8) (score : Nat → Int8) (classes : Nat) (best : BestClass) :
    Prop where
  above : ∀ k < classes, thresI8 ≤ score k → score k ≤ best.maxClassProbs
  found : best = ⟨0, none⟩ ∨ ∃ k < classes, best = ⟨score k, some k⟩ ∧
    thresI8 ≤ score k ∧ 0 < score k

theorem scanClasses_scanned (classes : Nat) (thresI8 : Int8) (score : Nat → Int8) :
    Scanned thresI8 score classes (scanClasses classes thresI8 score) := by
  induction classes with
  | zero => exact ⟨nofun, .inl rfl⟩
  | succ classes ih =>
      rw [scanClasses, List.range_succ, List.foldl_append, List.foldl_cons, List.foldl_nil]
      rw [scanClasses] at ih
      generalize (List.range classes).foldl _ _ = best at ih
      have held : 0 ≤ best.maxClassProbs := by
        rcases ih.found with rfl | ⟨k, _, rfl, _, positive⟩
        · exact Int8.le_refl 0
        · exact Int8.le_of_lt positive
      split
      next takes =>
        refine ⟨fun k below reaches => ?_, .inr ⟨classes, Nat.lt_succ_self _, rfl, takes.1,
          Int8.lt_of_le_of_lt held takes.2⟩⟩
        rcases Nat.lt_succ_iff_lt_or_eq.mp below with earlier | rfl
        · exact Int8.le_trans (ih.above k earlier reaches) (Int8.le_of_lt takes.2)
        · exact Int8.le_refl _
      next leaves =>
        refine ⟨fun k below reaches => ?_, ih.found.imp_right ?_⟩
        · rcases Nat.lt_succ_iff_lt_or_eq.mp below with earlier | rfl
          · exact ih.above k earlier reaches
          · exact Int8.not_lt.mp fun larger => leaves ⟨reaches, larger⟩
        · rintro ⟨k, below, found⟩
          exact ⟨k, Nat.lt_succ_of_lt below, found⟩

/-- A cell has a class exactly when a positive score reaches the threshold. -/
theorem isSome_scanClasses_iff :
    (scanClasses classes thresI8 score).maxClassId.isSome ↔
      ∃ k < classes, thresI8 ≤ score k ∧ 0 < score k := by
  have scanned := scanClasses_scanned classes thresI8 score
  rcases scanned.found with nothing | ⟨k, below, found, reaches⟩
  · rw [nothing]
    refine iff_of_false nofun ?_
    rintro ⟨k, below, reaches, positive⟩
    have above := scanned.above k below reaches
    rw [nothing] at above
    exact Int8.not_le.mpr positive above
  · rw [found]
    exact iff_of_true rfl ⟨k, below, reaches⟩

/-- The class of a cell attains its maximum. -/
theorem scanClasses_some {k : Nat}
    (found : (scanClasses classes thresI8 score).maxClassId = some k) :
    k < classes ∧ (scanClasses classes thresI8 score).maxClassProbs = score k ∧
      ∀ other < classes, score other ≤ score k := by
  have scanned := scanClasses_scanned classes thresI8 score
  rcases scanned.found with nothing | ⟨first, below, best, reaches, _⟩
  · rw [nothing] at found
    contradiction
  · rw [best] at found
    cases found
    refine ⟨below, congrArg BestClass.maxClassProbs best, fun other within => ?_⟩
    rcases Int8.le_total thresI8 (score other) with above | under
    · have largest := scanned.above other within above
      rwa [best] at largest
    · exact Int8.le_trans under reaches

end Scan

/-! ## All cells -/

/-- The cells of a grid, row by row. -/
def Head.cells (head : Head F) : List (Nat × Nat) :=
  (List.range head.gridH).flatMap fun i => (List.range head.gridW).map (i, ·)

/-- The vectors with several candidates more. -/
def Candidates.append (self : Candidates F) (more : List (Candidate F)) : Candidates F where
  boxes := self.boxes ++ more.flatMap fun c => [c.box.xmin, c.box.ymin, c.box.xmax, c.box.ymax]
  objProbs := self.objProbs ++ more.map Candidate.prob
  classId := self.classId ++ more.map Candidate.classId

theorem Candidates.append_cons (self : Candidates F) (c : Candidate F)
    (more : List (Candidate F)) : (self.push c).append more = self.append (c :: more) := by
  simp [push, append]

variable [FloatConvert F]

/-- The candidates of a tensor. -/
def Head.candidates (head : Head F) (classes : Nat) (thresI8 : Int8) : List (Candidate F) :=
  head.cells.filterMap (head.candidate classes thresI8)

theorem processCells_eq (classes : Nat) (head : Head F) (thresI8 : Int8)
    (found : Candidates F) :
    processCells classes head thresI8 found =
      ⟨found.append (head.candidates classes thresI8),
        (head.candidates classes thresI8).length⟩ := by
  have visits : ∀ (cells : List (Nat × Nat)) (out : Extraction F),
      cells.foldl (head.visit classes thresI8) out =
        ⟨out.found.append (cells.filterMap (head.candidate classes thresI8)),
          out.validCount + (cells.filterMap (head.candidate classes thresI8)).length⟩ := by
    intro cells
    induction cells with
    | nil => simp [Candidates.append]
    | cons cell cells ih =>
        intro out
        rw [List.foldl_cons, ih, Head.visit]
        cases candidate : head.candidate classes thresI8 cell with
        | none => rw [List.filterMap_cons_none candidate]
        | some c =>
            rw [List.filterMap_cons_some candidate, Candidates.append_cons, List.length_cons]
            exact congrArg (Extraction.mk _) (Nat.add_right_comm _ _ _)
  rw [Head.candidates, ← Nat.zero_add (List.length _), ← visits head.cells ⟨found, 0⟩,
    Head.cells, List.foldl_flatMap]
  simp only [List.foldl_map]
  rfl

/-- A candidate stands for the maximum of its cell. -/
structure Describes (head : Head F) (classes : Nat) (cell : Nat × Nat) (c : Candidate F) :
    Prop where
  classId : c.classId < classes
  attains : ∀ k < classes, head.score classes cell k ≤ head.score classes cell c.classId
  prob : c.prob = sigmoidLut head.zp head.scale (head.score classes cell c.classId)

/-- The maximum of a cell reaches the threshold. -/
def Head.reaches (head : Head F) (classes : Nat) (thresI8 : Int8) (cell : Nat × Nat) : Bool :=
  (List.range classes).any fun k => thresI8 ≤ head.score classes cell k

/-- The extraction is complete and exact: the cells whose maximum reaches the threshold
have one candidate each, in their order. -/
def Extracts (classes : Nat) (head : Head F) (thresI8 : Int8) (found : Candidates F)
    (out : Extraction F) : Prop :=
  ∃ added : List (Candidate F),
    List.Forall₂ (Describes head classes) (head.cells.filter (head.reaches classes thresI8))
      added ∧
    out.found = found.append added ∧ out.validCount = added.length ∧
    out.found.boxes.length = found.boxes.length + 4 * out.validCount ∧
    out.found.objProbs.length = found.objProbs.length + out.validCount ∧
    out.found.classId.length = found.classId.length + out.validCount

/-! ## When the extraction is complete -/

/-- Filtering and choosing agree where they keep the same elements. -/
theorem forall₂_filterMap {α β : Type*} {R : α → β → Prop} {keep : α → Bool}
    {choose : α → Option β} {xs : List α}
    (agree : ∀ x ∈ xs, keep x = (choose x).isSome)
    (related : ∀ x ∈ xs, ∀ y, choose x = some y → R x y) :
    List.Forall₂ R (xs.filter keep) (xs.filterMap choose) := by
  induction xs with
  | nil => exact .nil
  | cons x xs ih =>
      rw [List.forall_mem_cons] at agree related
      have rest := ih agree.2 related.2
      cases chosen : choose x with
      | none =>
          rw [List.filterMap_cons_none chosen, List.filter_cons_of_neg]
          · exact rest
          · rw [agree.1, chosen]
            exact Bool.false_ne_true
      | some y =>
          rw [List.filterMap_cons_some chosen, List.filter_cons_of_pos]
          · exact .cons (related.1 y chosen) rest
          · rw [agree.1, chosen]
            rfl

section Complete

variable (classes : Nat) (head : Head F) (thresI8 : Int8)

omit [FloatConvert F] in
theorem reaches_iff {cell : Nat × Nat} : head.reaches classes thresI8 cell = true ↔
    ∃ k < classes, thresI8 ≤ head.score classes cell k := by
  simp [Head.reaches]

theorem isSome_candidate_iff {cell : Nat × Nat} :
    (head.candidate classes thresI8 cell).isSome = true ↔
      ∃ k < classes, thresI8 ≤ head.score classes cell k ∧ 0 < head.score classes cell k := by
  rw [Head.candidate, Option.isSome_map, isSome_scanClasses_iff]

theorem candidate_describes {cell : Nat × Nat} {c : Candidate F}
    (found : head.candidate classes thresI8 cell = some c) : Describes head classes cell c := by
  rcases Option.map_eq_some_iff.mp found with ⟨k, best, rfl⟩
  rcases scanClasses_some best with ⟨below, attained, largest⟩
  exact ⟨below, largest, congrArg (sigmoidLut head.zp head.scale) attained⟩

/-- A cell that reaches the threshold has a candidate exactly when it has a positive
score. -/
theorem isSome_candidate_of_reaches {cell : Nat × Nat}
    (reaches : head.reaches classes thresI8 cell = true) :
    (head.candidate classes thresI8 cell).isSome = true ↔
      ¬ ∀ k < classes, head.score classes cell k ≤ 0 := by
  rw [isSome_candidate_iff]
  constructor
  · rintro ⟨k, below, _, positive⟩ low
    exact Int8.not_le.mpr positive (low k below)
  · intro high
    rcases (reaches_iff classes head thresI8).mp reaches with ⟨k, below, above⟩
    simp only [not_forall, Int8.not_le] at high
    rcases high with ⟨other, within, positive⟩
    -- The larger of the two scores is both.
    rcases Int8.le_total (head.score classes cell k) (head.score classes cell other) with
      up | down
    · exact ⟨other, within, Int8.le_trans above up, positive⟩
    · exact ⟨k, below, above, Int8.lt_of_lt_of_le positive down⟩

/-- A scan that starts from zero misses the cells whose maximum reaches the threshold and
is not positive, and no others. -/
theorem extracts_iff (found : Candidates F) :
    Extracts classes head thresI8 found (processCells classes head thresI8 found) ↔
      ∀ cell ∈ head.cells, ¬ ((∃ k < classes, thresI8 ≤ head.score classes cell k) ∧
        ∀ k < classes, head.score classes cell k ≤ 0) := by
  have counted : ∀ cell, (head.candidate classes thresI8 cell).isSome = true →
      head.reaches classes thresI8 cell = true := by
    intro cell some
    rcases (isSome_candidate_iff classes head thresI8).mp some with ⟨k, below, above, _⟩
    exact (reaches_iff classes head thresI8).mpr ⟨k, below, above⟩
  rw [processCells_eq]
  constructor
  · rintro ⟨added, described, _, count, _⟩ cell member ⟨above, low⟩
    have reaches := (reaches_iff classes head thresI8).mpr above
    have sublist : (head.cells.filter fun cell =>
        (head.candidate classes thresI8 cell).isSome).Sublist
          (head.cells.filter (head.reaches classes thresI8)) :=
      List.monotone_filter_right head.cells counted
    have same := sublist.eq_of_length (by
      rw [described.length_eq, ← count, Head.candidates, List.length_filterMap_eq_countP,
        List.countP_eq_length_filter])
    have kept : cell ∈ head.cells.filter (head.reaches classes thresI8) :=
      List.mem_filter.mpr ⟨member, reaches⟩
    rw [← same] at kept
    exact (isSome_candidate_of_reaches classes head thresI8 reaches).mp
      (List.mem_filter.mp kept).2 low
  · intro positive
    refine ⟨head.candidates classes thresI8, forall₂_filterMap ?_ ?_, rfl, rfl, ?_, ?_, ?_⟩
    · intro cell member
      apply Bool.eq_iff_iff.mpr
      constructor
      · intro reaches
        rw [isSome_candidate_of_reaches classes head thresI8 reaches]
        exact fun low => positive cell member
          ⟨(reaches_iff classes head thresI8).mp reaches, low⟩
      · exact counted cell
    · exact fun cell _ c chosen => candidate_describes classes head thresI8 chosen
    · simp [Candidates.append, List.length_flatMap, Nat.mul_comm]
    · simp [Candidates.append]
    · simp [Candidates.append]

end Complete

namespace Example

/-- One cell with one class, whose score is below zero and above a threshold of -10. -/
def faint : Head Float32 where
  input _ := -5
  gridH := 1
  gridW := 1
  stride := 8
  zp := 0
  scale := 0.02

end Example

/-- The cell is missed. -/
theorem extracts_faint : ¬ Extracts 1 Example.faint (-10) ⟨[], [], []⟩
    (processCells 1 Example.faint (-10) ⟨[], [], []⟩) := by
  rintro ⟨added, described, _, count, _⟩
  have reached : (Example.faint.cells.filter (Example.faint.reaches 1 (-10))).length = 1 := by
    decide
  have missed : (processCells 1 Example.faint (-10) ⟨[], [], []⟩).validCount = 0 := rfl
  rw [described.length_eq, ← count, missed] at reached
  contradiction

end KhadasYolo.Postprocess
