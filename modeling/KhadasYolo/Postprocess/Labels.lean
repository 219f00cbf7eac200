import KhadasYolo.Postprocess.LabelFile
import KhadasYolo.Postprocess.PostProcess

/-!
# Names of detections

The first call of `post_process` loads the labels into a static table. Every detection
gets its name through a pointer of that table. `post_process` gives up when the labels
cannot be loaded, but `loadLabelName` never says so, and a label that is missing is found
out by the copy of a name.
-/

namespace KhadasYolo.Postprocess.Labels

open Ipc

universe u

/-- The static variables of `postprocess.cc`. -/
structure Statics where
  init : Int
  labels : LabelTable

def Statics.start : Statics := ⟨-1, fun _ => none⟩

/-- A class id for which a label has been fetched, with the pointer found there. -/
structure LabelRead where
  classId : Nat
  label : Option (List UInt8)

variable {F : Type u}

/-- How a call of `post_process` ends. -/
inductive Ending (F : Type u) where
  -- The group is left alone by a call that gives up.
  | returned (ret : Int) (group : Option (DetectResultGroup F))
  -- The sort goes on for ever.
  | unsorted
  -- `strncpy` has been given a null pointer.
  | crashed

/-- A call of `post_process`: how it ends and the labels it has fetched. -/
structure Call (F : Type u) where
  ending : Ending F
  reads : List LabelRead

/-- The string in the buffer of a line. -/
def text (line : List UInt8) : List UInt8 := line.takeWhile (· != 0)

section Source

variable [FloatConvert F]

/-- The body of the loop that fills the group. A null pointer leaves no group. -/
def collectNamed (args : Arguments F) (labels : LabelTable) (found : Candidates F)
    (objProbs : Nat → F) (order : OrderArray)
    (state : Option (DetectResultGroup F) × List LabelRead) (i : Nat) :
    Option (DetectResultGroup F) × List LabelRead :=
  match state.1, order i with
  | some group, some n =>
      if group.count < 64 then
        let label := labels (found.classId.getD n 0)
        (label.map fun line => collect args (fun _ => text line) found objProbs order group i,
          state.2 ++ [⟨found.classId.getD n 0, label⟩])
      else state
  | _, _ => state

/-- `post_process` behind the loading of the labels. -/
def detect (classes : Nat) (labels : LabelTable) (args : Arguments F) : Call F :=
  let ⟨found, validCount⟩ := args.extract classes
  if validCount ≤ 0 then ⟨.returned 0 (some emptyGroup), []⟩
  else
    match quickSortIndiceInverse validCount 0 (validCount - 1)
      ⟨fun i => found.objProbs.getD i 0.0, some⟩ with
    | none => ⟨.unsorted, []⟩
    | some ranking =>
        let validCount := if validCount > 200 then 200 else validCount
        let order := nmsAll validCount found.boxes found.classId args.nmsThreshold classes
          ranking.indices
        let filled := (List.range validCount).foldl
          (collectNamed args labels found ranking.input order) (some emptyGroup, [])
        { ending :=
            match filled.1 with
            | some group => .returned 0 (some group)
            | none => .crashed
          reads := filled.2 }

/-- `post_process`. -/
def postProcess (classes : Nat) (file : LabelFile) (statics : Statics) (args : Arguments F) :
    Statics × Call F :=
  if statics.init = -1 then
    match loadLabelName classes file statics.labels with
    | (ret, labels) =>
        if ret < 0 then ({ statics with labels := labels }, ⟨.returned (-1) none, []⟩)
        else (⟨0, labels⟩, detect classes labels args)
  else (statics, detect classes statics.labels args)

/-- The calls for some frames, up to one that does not return. -/
def calls (classes : Nat) (file : LabelFile) : Statics → List (Arguments F) → List (Call F)
  | _, [] => []
  | statics, args :: rest =>
      let (after, call) := postProcess classes file statics args
      match call.ending with
      | .returned _ _ => call :: calls classes file after rest
      | _ => [call]

end Source

/-- A label is there and is the line of the file for its class. -/
def Labelled (file : LabelFile) (read : LabelRead) : Prop :=
  ∃ line, read.label = some line ∧ file.line read.classId = some line

/-- A missing label is reported and not used. -/
def Sound (file : LabelFile) (call : Call F) : Prop :=
  call.ending = .returned (-1) none ∧ call.reads = [] ∨
    ∀ read ∈ call.reads, Labelled file read

/-! ## The labels of a call -/

section Collect

variable [FloatConvert F] {args : Arguments F} {labels : LabelTable} {found : Candidates F}
  {objProbs : Nat → F} {order : OrderArray}

/-- The classes of some ranks that are left. -/
def classesAt (found : Candidates F) (order : OrderArray) (ranks : List Nat) : List Nat :=
  ranks.filterMap fun i => (order i).map (found.classId.getD · 0)

theorem count_collect {names : Nat → List UInt8} (group : DetectResultGroup F) {i n : Nat}
    (rank : order i = some n) (room : group.count < 64) :
    (collect args names found objProbs order group i).count = group.count + 1 := by
  simp only [collect, rank, dif_pos room]

/-- Nothing is collected behind a null pointer. -/
theorem collectNamed_crashed (reads : List LabelRead) (ranks : List Nat) :
    ranks.foldl (collectNamed args labels found objProbs order) (none, reads) =
      (none, reads) := by
  induction ranks with
  | nil => rfl
  | cons i ranks ih => exact ih

/-- The labels are fetched for the ranks that are left, as long as the group has room and
up to the first null pointer. -/
theorem collectNamed_reads {P : LabelRead → Prop} (named : ∀ id, ¬ P ⟨id, none⟩)
    (group : DetectResultGroup F) (reads : List LabelRead) (ranks : List Nat) :
    (∀ read ∈ (ranks.foldl (collectNamed args labels found objProbs order)
        (some group, reads)).2, P read) ↔
      (∀ read ∈ reads, P read) ∧
        ∀ id ∈ (classesAt found order ranks).take (64 - group.count), P ⟨id, labels id⟩ := by
  induction ranks generalizing group reads with
  | nil => simp [classesAt]
  | cons i ranks ih =>
      rw [List.foldl_cons, classesAt, List.filterMap_cons, ← classesAt]
      cases rank : order i with
      | none =>
          simp only [collectNamed, rank, Option.map_none]
          exact ih group reads
      | some n =>
          simp only [collectNamed, rank, Option.map_some]
          split
          next room =>
            have places : 64 - group.count = 64 - (group.count + 1) + 1 := by omega
            rw [places, List.take_succ_cons, List.forall_mem_cons]
            cases label : labels (found.classId.getD n 0) with
            | none =>
                rw [Option.map_none, collectNamed_crashed, List.forall_mem_append,
                  List.forall_mem_singleton]
                have unnamed := named (found.classId.getD n 0)
                tauto
            | some line =>
                rw [Option.map_some, ih, List.forall_mem_append, List.forall_mem_singleton,
                  count_collect _ rank room, and_assoc]
          next full =>
            have none : 64 - group.count = 0 := by omega
            rw [ih, none, List.take_zero, List.take_zero]

/-- Where no label is missing, the names are those of a table without null pointers. -/
theorem collectNamed_group {names : Nat → List UInt8}
    (named : ∀ n, (labels (found.classId.getD n 0)).map text =
      some (names (found.classId.getD n 0)))
    (group : DetectResultGroup F) (reads : List LabelRead) (ranks : List Nat) :
    (ranks.foldl (collectNamed args labels found objProbs order) (some group, reads)).1 =
      some (ranks.foldl (collect args names found objProbs order) group) := by
  induction ranks generalizing group reads with
  | nil => rfl
  | cons i ranks ih =>
      rw [List.foldl_cons, List.foldl_cons]
      cases rank : order i with
      | none =>
          simp only [collectNamed, collect, rank]
          exact ih group reads
      | some n =>
          simp only [collectNamed, collect, rank]
          split
          next room =>
            rcases Option.map_eq_some_iff.mp (named n) with ⟨line, label, same⟩
            rw [label, Option.map_some, ih, same]
            rfl
          next full => exact ih group reads

end Collect

section Calls

variable [FloatConvert F] {classes : Nat} {args : Arguments F}

/-- The vectors hold classes, and whatever is read behind their end is one as well. -/
theorem classId_lt (some : args.candidates classes ≠ []) (n : Nat) :
    (args.extract classes).found.classId.getD n 0 < classes := by
  have below : ∀ id ∈ (args.extract classes).found.classId, id < classes := by
    rw [extract_eq]
    intro id member
    rcases List.mem_map.mp member with ⟨c, candidate, rfl⟩
    exact candidates_classId classes args candidate
  rcases List.exists_mem_of_ne_nil _ some with ⟨c, candidate⟩
  have positive := Nat.zero_lt_of_lt (candidates_classId classes args candidate)
  rw [List.getD_eq_getElem?_getD]
  cases found : (args.extract classes).found.classId[n]? with
  | none => exact positive
  | some id => exact below id (List.mem_of_getElem? found)

theorem validCount_pos_iff :
    ¬ (args.extract classes).validCount ≤ 0 ↔ args.candidates classes ≠ [] := by
  rw [extract_eq]
  dsimp only
  rw [Nat.not_le, List.length_pos_iff]

/-- What holds of the labels of all classes holds of those that are fetched. -/
theorem detect_reads {P : LabelRead → Prop} {labels : LabelTable}
    (named : ∀ id, ¬ P ⟨id, none⟩) (all : ∀ id < classes, P ⟨id, labels id⟩) :
    ∀ read ∈ (detect classes labels args).reads, P read := by
  rw [detect]
  dsimp only
  split
  next => exact nofun
  next counted =>
    have inClasses := classId_lt (validCount_pos_iff.mp counted)
    split
    next => exact nofun
    next ranking _ =>
      rw [collectNamed_reads named]
      refine ⟨nofun, fun id fetched => ?_⟩
      rcases List.mem_filterMap.mp (List.mem_of_mem_take fetched) with ⟨i, _, left⟩
      rcases Option.map_eq_some_iff.mp left with ⟨n, _, rfl⟩
      exact all _ (inClasses n)

/-- With all its labels a call is the `post_process` that cannot miss one. -/
theorem detect_named {labels : LabelTable} {names : Nat → List UInt8}
    (named : ∀ id < classes, (labels id).map text = some (names id)) :
    (detect classes labels args).ending =
      match Postprocess.postProcess classes names args with
      | some group => .returned 0 (some group)
      | none => .unsorted := by
  rw [detect, Postprocess.postProcess]
  dsimp only
  split
  next => rfl
  next counted =>
    have inClasses := classId_lt (validCount_pos_iff.mp counted)
    generalize quickSortIndiceInverse _ _ _
      (⟨fun i => (args.extract classes).found.objProbs.getD i 0.0, some⟩ :
        Ranking F (Option Nat)) = sorted
    cases sorted with
    | none => rfl
    | some ranking =>
        dsimp only
        rw [collectNamed_group fun n => named _ (inClasses n)]
        rfl

end Calls

/-! ## A frame with one detection -/

/-- A model input of a single cell on the coarse grid, in which one class is bright. -/
def spot [FloatConvert F] (k : Nat) : Arguments F where
  input0 _ := -1
  input1 _ := -1
  input2 n := if n = k then 127 else -1
  modelInH := 32
  modelInW := 32
  confThreshold := 0.5
  nmsThreshold := 0.45
  scaleW := 1.0
  scaleH := 1.0
  qntZps := .replicate 3 0
  qntScales := .replicate 3 1.0

section Spot

variable [FloatConvert F] {classes k : Nat}

/-- A tensor without a positive score has no candidates. -/
theorem candidates_dark {head : Head F} (dark : head.input = fun _ => -1) (thresI8 : Int8) :
    head.candidates classes thresI8 = [] := by
  rw [Head.candidates, List.filterMap_eq_nil_iff]
  intro cell _
  rw [← Option.not_isSome_iff_eq_none, isSome_candidate_iff]
  rintro ⟨id, _, _, positive⟩
  rw [Head.score, dark] at positive
  exact absurd positive (show ¬ (0 : Int8) < -1 by decide)

theorem score_spot (id : Nat) :
    (spot k : Arguments F).head2.score classes (0, 0) id = if id = k then 127 else -1 := by
  have offset : (spot k : Arguments F).head2.offset classes (0, 0) = 0 := by
    rw [Head.offset, Nat.zero_mul, Nat.zero_add, Nat.zero_mul]
  rw [Head.score, offset, Nat.zero_add]
  rfl

/-- The frame has one candidate, of its bright class. -/
theorem candidates_spot (below : k < classes) :
    ∃ c, (spot k : Arguments F).candidates classes = [c] ∧ c.classId = k := by
  have rows : (spot k : Arguments F).head2.gridH = 1 := show 32 / 32 = 1 from rfl
  have columns : (spot k : Arguments F).head2.gridW = 1 := show 32 / 32 = 1 from rfl
  have single : (spot k : Arguments F).head2.cells = [(0, 0)] := by
    rw [Head.cells, rows, columns]
    rfl
  rw [Arguments.candidates, Arguments.heads, List.flatMap_cons, List.flatMap_cons,
    List.flatMap_singleton, candidates_dark rfl, candidates_dark rfl, Head.candidates, single]
  generalize qntF32ToAffine (unsigmoid (spot k : Arguments F).confThreshold) _ _ = thresI8
  have bright : ((spot k : Arguments F).head2.candidate classes thresI8 (0, 0)).isSome = true := by
    rw [isSome_candidate_iff]
    refine ⟨k, below, ?_⟩
    rw [score_spot, if_pos rfl]
    exact ⟨Int8.le_iff_toInt_le.mpr (Int.lt_add_one_iff.mp thresI8.toInt_lt), by decide⟩
  rcases Option.isSome_iff_exists.mp bright with ⟨c, found⟩
  refine ⟨c, by rw [List.filterMap_cons_some found]; rfl, ?_⟩
  -- Any other class would have a lower score.
  have attains := (candidate_describes classes _ thresI8 found).attains k below
  by_contra other
  rw [score_spot, score_spot, if_pos rfl, if_neg other] at attains
  exact absurd attains (by decide)

theorem nmsAll_one (boxes : List F) (classIds : List Nat) (threshold : F) (classes : Nat)
    (order : OrderArray) : nmsAll 1 boxes classIds threshold classes order = order := by
  have round (c : Nat) (order : OrderArray) : nms 1 boxes classIds threshold c order = order := by
    rw [nms, List.range_one, List.foldl_cons, List.foldl_nil, nmsOuter]
    split
    next => rfl
    next => exact ite_self order
  induction classes with
  | zero => rfl
  | succ classes ih =>
      rw [nmsAll, List.range_succ, List.foldl_append, ← nmsAll, ih, List.foldl_cons,
        List.foldl_nil, round]

theorem quickSortIndiceInverse_one {α : Type*} (ranking : Ranking F α) :
    quickSortIndiceInverse 1 0 0 ranking = some ranking := by
  rw [quickSortIndiceInverse.eq_def]
  exact if_neg (Nat.lt_irrefl 0)

/-- The label of its class is fetched. -/
theorem detect_spot (below : k < classes) (labels : LabelTable) :
    ∃ group, detect classes labels (spot k : Arguments F) =
      { ending := match labels k with
          | some _ => .returned 0 (some group)
          | none => .crashed
        reads := [⟨k, labels k⟩] } := by
  rcases candidates_spot (F := F) below with ⟨c, candidates, rfl⟩
  rw [detect, extract_eq, candidates]
  dsimp only
  rw [List.length_singleton, if_neg (by decide), if_neg (by decide),
    quickSortIndiceInverse_one]
  dsimp only
  rw [nmsAll_one, List.range_one, List.foldl_cons, List.foldl_nil, collectNamed]
  have room : (emptyGroup : DetectResultGroup F).count < 64 := show 0 < 64 by decide
  dsimp only
  rw [if_pos room]
  have own : (Candidates.append ⟨[], [], []⟩ [c]).classId.getD 0 0 = c.classId := rfl
  rw [own]
  cases labels c.classId with
  | none => exact ⟨emptyGroup, rfl⟩
  | some line => exact ⟨_, rfl⟩

end Spot

/-! ## Runs -/

section Runs

variable [FloatConvert F] {classes : Nat} {file : LabelFile}

/-- The table behind the first call. -/
def loaded (classes : Nat) (file : LabelFile) : LabelTable :=
  (loadLabelName classes file fun _ => none).2

theorem loaded_eq {id : Nat} (inClasses : id < classes) :
    loaded classes file id = file.readable[id]? := loadLabelName_label file inClasses

/-- The first call loads the labels whatever becomes of the file. Every call goes on with
the same table. -/
theorem postProcess_eq {statics : Statics} (args : Arguments F)
    (before : statics = .start ∨ statics = ⟨0, loaded classes file⟩) :
    postProcess classes file statics args =
      (⟨0, loaded classes file⟩, detect classes (loaded classes file) args) := by
  rcases before with rfl | rfl
  · rfl
  · rfl

theorem calls_detect {statics : Statics} (frames : List (Arguments F))
    (before : statics = .start ∨ statics = ⟨0, loaded classes file⟩) :
    ∀ call ∈ calls classes file statics frames,
      ∃ args ∈ frames, call = detect classes (loaded classes file) args := by
  induction frames generalizing statics with
  | nil => exact nofun
  | cons args frames ih =>
      intro call member
      rw [calls, postProcess_eq args before] at member
      dsimp only at member
      split at member
      next =>
        rcases List.mem_cons.mp member with rfl | later
        · exact ⟨args, List.mem_cons_self, rfl⟩
        · rcases ih (.inr rfl) call later with ⟨other, among, same⟩
          exact ⟨other, List.mem_cons_of_mem args among, same⟩
      next => exact ⟨args, List.mem_cons_self, List.mem_singleton.mp member⟩

theorem not_labelled_none (file : LabelFile) (id : Nat) : ¬ Labelled file ⟨id, none⟩ := by
  rintro ⟨line, missing, _⟩
  contradiction

/-- A file with a line for every class gives every class its label. -/
theorem labelled_loaded (enough : classes ≤ file.readable.length) {id : Nat}
    (inClasses : id < classes) : Labelled file ⟨id, loaded classes file id⟩ := by
  have found := List.getElem?_eq_getElem (inClasses.trans_le enough)
  exact ⟨_, (loaded_eq inClasses).trans found, file.line_of_readable found⟩

/-- The first class without a line has no label. -/
theorem loaded_missing (few : file.readable.length < classes) :
    loaded classes file file.readable.length = none := by
  rw [loaded_eq few, List.getElem?_eq_none (Nat.le_refl _)]

/-- A detection of that class ends the run. -/
theorem calls_spot (few : file.readable.length < classes) :
    calls classes file .start [(spot file.readable.length : Arguments F)] =
      [⟨.crashed, [⟨file.readable.length, none⟩]⟩] := by
  rcases detect_spot (F := F) few (loaded classes file) with ⟨group, detects⟩
  rw [loaded_missing few] at detects
  rw [calls, postProcess_eq _ (.inl rfl), detects]

omit [FloatConvert F] in
theorem not_sound_crashed (id : Nat) :
    ¬ Sound file (⟨.crashed, [⟨id, none⟩]⟩ : Call F) := by
  rintro (⟨reported, _⟩ | labelled)
  · contradiction
  · exact not_labelled_none file id (labelled _ List.mem_cons_self)

/-- Missing labels are never used exactly if the file has a line for every class. -/
theorem labels_sound_iff (classes : Nat) (file : LabelFile) :
    (∀ frames : List (Arguments F), ∀ call ∈ calls classes file .start frames,
        Sound file call) ↔
      classes ≤ file.readable.length := by
  constructor
  · intro sound
    by_contra few
    have crash := calls_spot (F := F) (Nat.lt_of_not_le few)
    have call := sound [spot file.readable.length]
    rw [crash, List.forall_mem_singleton] at call
    exact not_sound_crashed _ call
  · intro enough frames call member
    rcases calls_detect frames (.inl rfl) call member with ⟨args, _, rfl⟩
    right
    apply detect_reads (not_labelled_none file)
    exact fun id inClasses => labelled_loaded enough inClasses

end Runs

namespace Example

/-- There is no label file. -/
def absent : LabelFile where
  contents := none
  failing := false
  memory := 100

end Example

/-- Without its label file, the first detection makes `post_process` read through a null
pointer. -/
theorem post_process_null_label :
    (readLines Example.absent (fun _ => none) 1).1 = -1 ∧
      (loadLabelName 1 Example.absent fun _ => none).1 = 0 ∧
      calls 1 Example.absent .start [(spot 0 : Arguments Float32)] =
        [⟨.crashed, [⟨0, none⟩]⟩] ∧
      ¬ ∀ call ∈ calls 1 Example.absent .start [(spot 0 : Arguments Float32)],
        Sound Example.absent call := by
  have crash : calls 1 Example.absent .start [(spot 0 : Arguments Float32)] =
      [⟨.crashed, [⟨0, none⟩]⟩] := calls_spot Nat.one_pos
  refine ⟨rfl, rfl, crash, ?_⟩
  rw [crash, List.forall_mem_singleton]
  exact not_sound_crashed 0

end KhadasYolo.Postprocess.Labels
