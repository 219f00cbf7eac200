import Mathlib.Data.List.Basic

/-!
# The label file

`readLines` takes line after line out of the label file, until the table is full, the
file is at its end, a read fails or memory runs out. Its result tells how many lines it
has stored, or that the file could not be opened. `loadLabelName` drops the result.
-/

namespace KhadasYolo.Postprocess

/-- What reading the label file comes upon. -/
structure LabelFile where
  /-- The bytes of the file, if it can be opened. -/
  contents : Option (List UInt8)
  /-- Behind these bytes a read fails. -/
  failing : Bool
  /-- How many allocations succeed before one fails. -/
  memory : Nat

/-- The table of labels, with null pointers where it has none. -/
abbrev LabelTable := Nat → Option (List UInt8)

/-! ## Reading -/

/-- The state of `readLine` behind its loop. -/
structure LineScan where
  buffer : List UInt8
  ended : Bool
  memory : Nat
  rest : List UInt8

/-- The loop of `readLine`. Every character needs another allocation. -/
def scanLine : Nat → List UInt8 → Option LineScan
  | memory, [] => some ⟨[], true, memory, []⟩
  | memory, ch :: rest =>
      if ch = 10 then some ⟨[], false, memory, rest⟩
      else if memory = 0 then none
      else
        (scanLine (memory - 1) rest).map fun scan => { scan with buffer := ch :: scan.buffer }

/-- `readLine`. There is no line behind the last newline, and none that a read error cuts
off. -/
def readLine (failing : Bool) (memory : Nat) (bytes : List UInt8) : Option LineScan :=
  match memory with
  | 0 => none
  | memory + 1 =>
      (scanLine memory bytes).bind fun scan =>
        if scan.ended ∧ (scan.buffer = [] ∨ failing) then none else some scan

/-- The loop of `readLines`: the next line and, if it is stored, as many more. -/
def storeLines (failing : Bool) : Nat → Nat → List UInt8 → List (List UInt8)
  | more, memory, bytes =>
      match readLine failing memory bytes with
      | none => []
      | some scan =>
          match more with
          | 0 => [scan.buffer]
          | more + 1 => scan.buffer :: storeLines failing more scan.memory scan.rest

/-- `readLines`. The bound is checked behind a line that has been stored. -/
def readLines (file : LabelFile) (lines : LabelTable) (maxLine : Nat) : Int × LabelTable :=
  match file.contents with
  | none => (-1, lines)
  | some bytes =>
      let stored := storeLines file.failing (maxLine - 1) file.memory bytes
      (stored.length, fun i => stored[i]?.or (lines i))

/-- `loadLabelName`, in a build with that many classes. -/
def loadLabelName (classes : Nat) (file : LabelFile) (label : LabelTable) : Int × LabelTable :=
  (0, (readLines file label classes).2)

/-! ## The lines of a file -/

/-- A line of the file, split at newlines. -/
def LabelFile.line (file : LabelFile) (i : Nat) : Option (List UInt8) :=
  file.contents.bind fun bytes => (bytes.splitOn 10)[i]?

/-- The pieces between newlines without what is behind the last newline, if that is
nothing or cut off. -/
def complete (failing : Bool) (pieces : List (List UInt8)) : List (List UInt8) :=
  if failing ∨ pieces.getLast? = some [] then pieces.dropLast else pieces

/-- The lines there is memory for. -/
def affordable : Nat → List (List UInt8) → List (List UInt8)
  | _, [] => []
  | memory, line :: rest =>
      if line.length < memory then line :: affordable (memory - (line.length + 1)) rest else []

/-- The lines that can be read. -/
def LabelFile.readable (file : LabelFile) : List (List UInt8) :=
  match file.contents with
  | none => []
  | some bytes => affordable file.memory (complete file.failing (bytes.splitOn 10))

theorem complete_cons (failing : Bool) (line : List UInt8) {rest : List (List UInt8)}
    (more : rest ≠ []) : complete failing (line :: rest) = line :: complete failing rest := by
  simp only [complete, List.getLast?_cons_of_ne_nil more, List.dropLast_cons_of_ne_nil more]
  split
  next => rfl
  next => rfl

theorem isPrefix_complete (failing : Bool) (pieces : List (List UInt8)) :
    complete failing pieces <+: pieces := by
  rw [complete]
  split
  next => exact List.dropLast_prefix pieces
  next => exact List.prefix_rfl

theorem isPrefix_affordable (memory : Nat) (lines : List (List UInt8)) :
    affordable memory lines <+: lines := by
  induction lines generalizing memory with
  | nil => exact List.prefix_rfl
  | cons line rest ih =>
      rw [affordable]
      split
      next => exact List.prefix_cons_inj line |>.mpr (ih _)
      next => exact List.nil_prefix

theorem affordable_short {memory : Nat} {line : List UInt8} (rest : List (List UInt8))
    (short : memory ≤ line.length) : affordable memory (line :: rest) = [] := by
  rw [affordable, if_neg (Nat.not_lt.mpr short)]

/-- What can be read are lines of the file. -/
theorem LabelFile.line_of_readable {file : LabelFile} {i : Nat} {line : List UInt8}
    (found : file.readable[i]? = some line) : file.line i = some line := by
  rw [readable] at found
  rw [LabelFile.line]
  cases opened : file.contents with
  | none =>
      rw [opened] at found
      contradiction
  | some bytes =>
      rw [opened] at found
      dsimp only at found
      have among := (isPrefix_affordable file.memory _).trans
        (isPrefix_complete file.failing (bytes.splitOn 10))
      rcases List.getElem?_eq_some_iff.mp found with ⟨below, same⟩
      rw [Option.bind_some, ← same]
      exact List.prefix_iff_getElem?.mp among i below

/-! ## The lines that are stored -/

/-- Everything the loop of `readLine` can do. -/
inductive ScanEffect (memory : Nat) (bytes : List UInt8) : Option LineScan → Prop where
  | line (buffer rest : List UInt8) (enough : buffer.length ≤ memory)
      (split : bytes.splitOn 10 = buffer :: rest.splitOn 10) :
      ScanEffect memory bytes (some ⟨buffer, false, memory - buffer.length, rest⟩)
  | last (buffer : List UInt8) (enough : buffer.length ≤ memory)
      (split : bytes.splitOn 10 = [buffer]) :
      ScanEffect memory bytes (some ⟨buffer, true, memory - buffer.length, []⟩)
  | exhausted (first : List UInt8) (others : List (List UInt8)) (short : memory < first.length)
      (split : bytes.splitOn 10 = first :: others) : ScanEffect memory bytes none

theorem scanLine_effect (memory : Nat) (bytes : List UInt8) :
    ScanEffect memory bytes (scanLine memory bytes) := by
  induction bytes generalizing memory with
  | nil => exact .last [] (Nat.zero_le memory) (List.splitOn_nil 10)
  | cons ch bytes ih =>
      have step := List.splitOn_cons_eq_if_modifyHead (a := 10) ch bytes
      rw [scanLine]
      split
      next newline =>
        rw [newline, if_pos (by rfl)] at step
        rw [newline]
        exact .line [] bytes (Nat.zero_le memory) step
      next other =>
        rw [if_neg (by simpa using other)] at step
        split
        next empty =>
          rcases List.exists_cons_of_ne_nil (List.splitOn_ne_nil 10 bytes) with
            ⟨first, others, split⟩
          rw [split] at step
          exact .exhausted (ch :: first) others (empty ▸ Nat.succ_pos _) step
        next some =>
          have effect := ih (memory - 1)
          generalize scanLine (memory - 1) bytes = scanned at effect
          cases effect with
          | line buffer rest enough split =>
              rw [split] at step
              rw [Option.map_some, Nat.sub_sub, Nat.add_comm]
              exact .line (ch :: buffer) rest (by rw [List.length_cons]; omega) step
          | last buffer enough split =>
              rw [split] at step
              rw [Option.map_some, Nat.sub_sub, Nat.add_comm]
              exact .last (ch :: buffer) (by rw [List.length_cons]; omega) step
          | exhausted first others short split =>
              rw [split] at step
              exact .exhausted (ch :: first) others (by rw [List.length_cons]; omega) step

theorem complete_single (failing : Bool) (line : List UInt8) :
    complete failing [line] = if line = [] ∨ failing then [] else [line] := by
  simp only [complete, List.getLast?_singleton, List.dropLast_singleton, Option.some.injEq,
    or_comm]

/-- A line that memory runs out in is not read, and none behind it. -/
theorem affordable_complete_short {memory : Nat} {first : List UInt8}
    (failing : Bool) (others : List (List UInt8)) (short : memory ≤ first.length) :
    affordable memory (complete failing (first :: others)) = [] := by
  cases others with
  | nil =>
      rw [complete_single]
      split
      next => rfl
      next => exact affordable_short [] short
  | cons second others =>
      rw [complete_cons failing first (List.cons_ne_nil second others)]
      exact affordable_short _ short

theorem affordable_zero (lines : List (List UInt8)) : affordable 0 lines = [] := by
  cases lines with
  | nil => rfl
  | cons line rest => exact affordable_short rest (Nat.zero_le _)

/-- `readLine` takes the first of the lines that can be read. -/
theorem readLine_readable (failing : Bool) (memory : Nat) (bytes : List UInt8) :
    affordable memory (complete failing (bytes.splitOn 10)) =
      match readLine failing memory bytes with
      | none => []
      | some scan =>
          scan.buffer :: affordable scan.memory (complete failing (scan.rest.splitOn 10)) := by
  cases memory with
  | zero => exact affordable_zero _
  | succ memory =>
      have effect := scanLine_effect memory bytes
      rw [readLine]
      generalize scanLine memory bytes = scanned at effect
      cases effect with
      | line buffer rest enough split =>
          rw [split, complete_cons failing buffer (List.splitOn_ne_nil 10 rest), affordable,
            if_pos (Nat.lt_succ_of_le enough), Nat.succ_sub_succ]
          rfl
      | last buffer enough split =>
          rw [split, complete_single]
          by_cases none : buffer = [] ∨ failing
          · rw [if_pos none, Option.bind_some, if_pos ⟨rfl, none⟩]
            rfl
          · rw [if_neg none, Option.bind_some, if_neg (fun both => none both.2), affordable,
              if_pos (Nat.lt_succ_of_le enough)]
            dsimp only
            rw [List.splitOn_nil, complete_single, if_pos (.inl rfl), affordable, affordable]
      | exhausted first others short split =>
          rw [split]
          exact affordable_complete_short failing others short

/-- The loop stores the lines that can be read, up to its bound. -/
theorem storeLines_eq (failing : Bool) (more memory : Nat) (bytes : List UInt8) :
    storeLines failing more memory bytes =
      (affordable memory (complete failing (bytes.splitOn 10))).take (more + 1) := by
  induction more generalizing memory bytes with
  | zero =>
      rw [storeLines, readLine_readable]
      cases readLine failing memory bytes with
      | none => rfl
      | some scan => rfl
  | succ more ih =>
      rw [storeLines, readLine_readable]
      cases readLine failing memory bytes with
      | none => rfl
      | some scan =>
          dsimp only
          rw [ih, List.take_succ_cons]

/-- The labels of an empty table behind `loadLabelName`, as far as there are classes. -/
theorem loadLabelName_label {classes : Nat} (file : LabelFile) {i : Nat}
    (inClasses : i < classes) :
    (loadLabelName classes file fun _ => none).2 i = file.readable[i]? := by
  rw [loadLabelName, readLines, LabelFile.readable]
  cases file.contents with
  | none => rfl
  | some bytes =>
      dsimp only
      rw [storeLines_eq, Option.or_none, List.getElem?_take_of_lt (by omega)]

end KhadasYolo.Postprocess
