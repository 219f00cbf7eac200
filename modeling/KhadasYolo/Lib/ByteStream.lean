import Mathlib.Data.List.Basic

/-!
# Byte streams in chunks

What a reader finds on a stream socket: chunks of bytes, in any sizes, and pauses
longer than its receive timeout. The end of the list is the end of the connection.
A socket without a timeout has no pauses.

Exact reads are the loop every reader is written with. How the bytes before the
next pause are cut into chunks makes no difference to them, so that a stream is
described by these bytes and by what is left from the pause on.
-/

namespace ByteStream

universe u v

/-- A chunk has at least one byte. -/
structure Chunk where
  first : UInt8
  rest : List UInt8
  deriving DecidableEq, Repr

def Chunk.bytes (chunk : Chunk) : List UInt8 := chunk.first :: chunk.rest

/-- The next thing that happens on a socket. -/
inductive Arrival where
  | chunk (chunk : Chunk)
  | pause
  deriving DecidableEq, Repr

/-- The bytes of some chunks. -/
def joined (chunks : List Chunk) : List UInt8 := chunks.flatMap Chunk.bytes

/-- A socket on which the reader never times out. -/
def unpaused (chunks : List Chunk) : List Arrival := chunks.map .chunk

/-- The bytes before the next pause. -/
def leading : List Arrival → List UInt8
  | [] => []
  | .pause :: _ => []
  | .chunk chunk :: later => chunk.bytes ++ leading later

/-- The stream from the next pause on. -/
def trailing : List Arrival → List Arrival
  | [] => []
  | .pause :: later => .pause :: later
  | .chunk _ :: later => trailing later

/-- All bytes of a stream. -/
def contents : List Arrival → List UInt8
  | [] => []
  | .pause :: later => contents later
  | .chunk chunk :: later => chunk.bytes ++ contents later

/-- The number of bytes and pauses still to come. -/
def weight : List Arrival → Nat
  | [] => 0
  | .pause :: later => weight later + 1
  | .chunk chunk :: later => chunk.bytes.length + weight later

/-- How many bytes have arrived when each pause sets in, counting from a start. -/
def pauseOffsets : Nat → List Arrival → List Nat
  | _, [] => []
  | offset, .pause :: later => offset :: pauseOffsets offset later
  | offset, .chunk chunk :: later => pauseOffsets (offset + chunk.bytes.length) later

/-- Outcome of one `read`. -/
inductive ReadResult where
  | data (bytes : List UInt8)
  | wouldBlock
  | closed

/-- One `read` of at most `limit` bytes. -/
def read (limit : Nat) : List Arrival → ReadResult × List Arrival
  | [] => (.closed, [])
  | .pause :: later => (.wouldBlock, later)
  | .chunk chunk :: later =>
      match chunk.bytes.drop limit with
      | [] => (.data chunk.bytes, later)
      | first :: rest => (.data (chunk.bytes.take limit), .chunk ⟨first, rest⟩ :: later)

/-- The loop of an exact read. Every round yields a byte or ends the loop. -/
def readRounds : Nat → Nat → List Arrival → Option (List UInt8) × List Arrival
  | _, 0, stream => (some [], stream)
  | 0, _ + 1, stream => (none, stream)
  | rounds + 1, wanted + 1, stream =>
      match read (wanted + 1) stream with
      | (.data bytes, later) =>
          match readRounds rounds (wanted + 1 - bytes.length) later with
          | (some more, last) => (some (bytes ++ more), last)
          | (none, last) => (none, last)
      | (.wouldBlock, later) => (none, later)
      | (.closed, later) => (none, later)

/-- Read exactly `wanted` bytes, or fail and lose what was read. -/
def readExact (wanted : Nat) (stream : List Arrival) :
    Option (List UInt8) × List Arrival :=
  readRounds wanted wanted stream

/-! ## What a stream shows -/

/-- The bytes before the next pause and the stream from the pause on. -/
structure Shows (stream : List Arrival) (bytes : List UInt8) (later : List Arrival) :
    Prop where
  leading : leading stream = bytes
  trailing : trailing stream = later

theorem shows_self (stream : List Arrival) :
    Shows stream (leading stream) (trailing stream) := ⟨rfl, rfl⟩

theorem unpaused_shows (chunks : List Chunk) : Shows (unpaused chunks) (joined chunks) [] := by
  induction chunks with
  | nil => exact ⟨rfl, rfl⟩
  | cons chunk chunks ih =>
      constructor
      · simp only [unpaused, List.map_cons, ByteStream.leading, joined, List.flatMap_cons]
        exact congrArg (chunk.bytes ++ ·) ih.leading
      · exact ih.trailing

theorem leading_unpaused (chunks : List Chunk) (later : List Arrival) :
    leading (unpaused chunks ++ later) = joined chunks ++ leading later := by
  induction chunks with
  | nil => rfl
  | cons chunk chunks ih =>
      rw [joined, List.flatMap_cons, ← joined, List.append_assoc, ← ih]
      rfl

theorem contents_unpaused (chunks : List Chunk) (later : List Arrival) :
    contents (unpaused chunks ++ later) = joined chunks ++ contents later := by
  induction chunks with
  | nil => rfl
  | cons chunk chunks ih =>
      rw [joined, List.flatMap_cons, ← joined, List.append_assoc, ← ih]
      rfl

/-- Some bytes, each in a chunk of its own. -/
def bytewise (bytes : List UInt8) : List Chunk := bytes.map (⟨·, []⟩)

theorem joined_bytewise (bytes : List UInt8) : joined (bytewise bytes) = bytes := by
  induction bytes with
  | nil => rfl
  | cons byte bytes ih => exact congrArg (byte :: ·) ih

/-- A connection on which some bytes arrive, one by one. -/
theorem bytewise_shows (bytes : List UInt8) : Shows (unpaused (bytewise bytes)) bytes [] := by
  have shows := unpaused_shows (bytewise bytes)
  rwa [joined_bytewise] at shows

theorem contents_eq (stream : List Arrival) :
    contents stream = leading stream ++ contents (trailing stream) := by
  induction stream with
  | nil => rfl
  | cons arrival later ih =>
      cases arrival with
      | pause => rfl
      | chunk chunk => simp only [contents, leading, trailing, ih, List.append_assoc]

theorem weight_eq (stream : List Arrival) :
    weight stream = (leading stream).length + weight (trailing stream) := by
  induction stream with
  | nil => rfl
  | cons arrival later ih =>
      cases arrival with
      | pause => simp [weight, leading, trailing]
      | chunk chunk => simp only [weight, leading, trailing, ih, List.length_append]; omega

/-- A stream from which nothing can be read at once has ended or pauses. -/
theorem of_leading_nil {stream : List Arrival} (empty : leading stream = []) :
    stream = [] ∨ ∃ later, stream = .pause :: later := by
  cases stream with
  | nil => exact .inl rfl
  | cons arrival later =>
      cases arrival with
      | pause => exact .inr ⟨later, rfl⟩
      | chunk chunk => simp [leading, Chunk.bytes] at empty

theorem pauseOffsets_eq (offset : Nat) (stream : List Arrival) :
    pauseOffsets offset stream =
      pauseOffsets (offset + (leading stream).length) (trailing stream) := by
  induction stream generalizing offset with
  | nil => rfl
  | cons arrival later ih =>
      cases arrival with
      | pause => rfl
      | chunk chunk =>
          rw [pauseOffsets, ih, leading, trailing, List.length_append, Nat.add_assoc]

theorem pauseOffsets_unpaused (offset : Nat) (chunks : List Chunk) :
    pauseOffsets offset (unpaused chunks) = [] := by
  rw [pauseOffsets_eq, (unpaused_shows chunks).trailing, pauseOffsets]

theorem pauseOffsets_shift (shift offset : Nat) (stream : List Arrival) :
    pauseOffsets (shift + offset) stream =
      (pauseOffsets offset stream).map (shift + ·) := by
  induction stream generalizing offset with
  | nil => rfl
  | cons arrival later ih =>
      cases arrival with
      | pause => rw [pauseOffsets, pauseOffsets, List.map_cons, ih]
      | chunk chunk => rw [pauseOffsets, pauseOffsets, Nat.add_assoc, ih]

/-- A stream stops at a pause or at its end. -/
theorem trailing_cases (stream : List Arrival) :
    trailing stream = [] ∨ ∃ later, trailing stream = .pause :: later := by
  induction stream with
  | nil => exact .inl rfl
  | cons arrival later ih =>
      cases arrival with
      | pause => exact .inr ⟨later, rfl⟩
      | chunk chunk => exact ih

theorem Shows.weight {stream later : List Arrival} {bytes : List UInt8}
    (shows : Shows stream bytes later) :
    weight stream = bytes.length + ByteStream.weight later := by
  rw [weight_eq, shows.leading, shows.trailing]

/-! ## Reads -/

/-- Everything one `read` can do. -/
inductive ReadEffect (limit : Nat) (stream : List Arrival) :
    ReadResult × List Arrival → Prop where
  | data (bytes : List UInt8) (later : List Arrival) (more : List UInt8)
      (nonempty : bytes ≠ []) (short : bytes.length ≤ limit)
      (before : leading stream = bytes ++ more)
      (after : Shows later more (trailing stream)) :
      ReadEffect limit stream (.data bytes, later)
  | wouldBlock (later : List Arrival) (empty : leading stream = [])
      (paused : trailing stream = .pause :: later) :
      ReadEffect limit stream (.wouldBlock, later)
  | closed (empty : leading stream = []) (ended : trailing stream = []) :
      ReadEffect limit stream (.closed, [])

theorem read_effect {limit : Nat} (positive : 0 < limit) (stream : List Arrival) :
    ReadEffect limit stream (read limit stream) := by
  cases stream with
  | nil => exact .closed rfl rfl
  | cons arrival later =>
      cases arrival with
      | pause => exact .wouldBlock later rfl rfl
      | chunk chunk =>
          have parts := List.take_append_drop limit chunk.bytes
          simp only [read]
          split
          next whole =>
            rw [whole, List.append_nil] at parts
            refine .data _ _ (leading later) nofun ?_ rfl ⟨rfl, rfl⟩
            rw [← parts]
            exact List.length_take_le limit chunk.bytes
          next first rest cut =>
            refine .data _ _ (first :: rest ++ leading later) ?_
              (List.length_take_le limit chunk.bytes) ?_ ⟨rfl, rfl⟩
            · cases limit with
              | zero => contradiction
              | succ limit => simp [Chunk.bytes]
            · rw [cut] at parts
              rw [leading, ← List.append_assoc, parts]

/-- Everything an exact read can do. -/
inductive ExactEffect (wanted : Nat) (stream : List Arrival) :
    Option (List UInt8) × List Arrival → Prop where
  | done (bytes more : List UInt8) (later : List Arrival) (length : bytes.length = wanted)
      (before : leading stream = bytes ++ more)
      (after : Shows later more (trailing stream)) :
      ExactEffect wanted stream (some bytes, later)
  | broken (short : (leading stream).length < wanted) :
      ExactEffect wanted stream (none, (trailing stream).tail)

theorem readRounds_effect {rounds wanted : Nat} (enough : wanted ≤ rounds)
    (stream : List Arrival) : ExactEffect wanted stream (readRounds rounds wanted stream) := by
  induction rounds generalizing wanted stream with
  | zero =>
      have nothing : wanted = 0 := by omega
      subst nothing
      exact .done [] _ stream rfl rfl ⟨rfl, rfl⟩
  | succ rounds ih =>
      cases wanted with
      | zero => exact .done [] _ stream rfl rfl ⟨rfl, rfl⟩
      | succ wanted =>
          have effect := read_effect (Nat.succ_pos wanted) stream
          simp only [readRounds]
          generalize read (wanted + 1) stream = outcome at effect
          cases effect with
          | data bytes later more nonempty short before after =>
              have progress : 0 < bytes.length := List.length_pos_iff.mpr nonempty
              have rest := ih (show wanted + 1 - bytes.length ≤ rounds by omega) later
              dsimp only
              generalize readRounds rounds (wanted + 1 - bytes.length) later = outcome
                at rest
              cases rest with
              | done next final last length next_before next_after =>
                  refine .done _ final last ?_ ?_ ?_
                  · simp only [List.length_append]
                    omega
                  · rw [before, ← after.leading, next_before, List.append_assoc]
                  · rw [← after.trailing]
                    exact next_after
              | broken tooShort =>
                  dsimp only
                  rw [after.trailing]
                  apply ExactEffect.broken
                  rw [after.leading] at tooShort
                  simp only [before, List.length_append]
                  omega
          | wouldBlock later empty paused =>
              have failed : ExactEffect (wanted + 1) stream (none, (trailing stream).tail) :=
                .broken (by simp [empty])
              rwa [paused] at failed
          | closed empty ended =>
              have failed : ExactEffect (wanted + 1) stream (none, (trailing stream).tail) :=
                .broken (by simp [empty])
              rwa [ended] at failed

theorem readExact_effect (wanted : Nat) (stream : List Arrival) :
    ExactEffect wanted stream (readExact wanted stream) :=
  readRounds_effect (Nat.le_refl wanted) stream

/-- An exact read takes the bytes it wants, however they are cut into chunks. -/
theorem readExact_append {stream later : List Arrival} {bytes more : List UInt8}
    {wanted : Nat} (length : bytes.length = wanted)
    (shows : Shows stream (bytes ++ more) later) :
    ∃ rest, readExact wanted stream = (some bytes, rest) ∧ Shows rest more later := by
  have effect := readExact_effect wanted stream
  generalize readExact wanted stream = outcome at effect
  cases effect with
  | done taken left rest takenLength before after =>
      have same := List.append_inj (shows.leading.symm.trans before)
        (length.trans takenLength.symm)
      rcases same with ⟨rfl, rfl⟩
      exact ⟨rest, rfl, after.leading, after.trailing.trans shows.trailing⟩
  | broken short =>
      rw [shows.leading, List.length_append] at short
      omega

theorem readExact_take {stream later : List Arrival} {bytes : List UInt8} {wanted : Nat}
    (shows : Shows stream bytes later) (enough : wanted ≤ bytes.length) :
    ∃ rest, readExact wanted stream = (some (bytes.take wanted), rest) ∧
      Shows rest (bytes.drop wanted) later := by
  apply readExact_append (List.length_take_of_le enough)
  rwa [List.take_append_drop]

/-- An exact read that a pause or the end of the connection cuts off fails. -/
theorem readExact_short {stream later : List Arrival} {bytes : List UInt8}
    {wanted : Nat} (shows : Shows stream bytes later) (short : bytes.length < wanted) :
    readExact wanted stream = (none, later.tail) := by
  have effect := readExact_effect wanted stream
  generalize readExact wanted stream = outcome at effect
  cases effect with
  | done taken left rest takenLength before after =>
      have length := congrArg List.length (shows.leading.symm.trans before)
      simp only [List.length_append] at length
      omega
  | broken => rw [shows.trailing]

/-- How many bytes the loop of an exact read has stored when it ends, also when it fails. -/
def storedRounds : Nat → Nat → List Arrival → Nat
  | _, 0, _ => 0
  | 0, _ + 1, _ => 0
  | rounds + 1, wanted + 1, stream =>
      match read (wanted + 1) stream with
      | (.data bytes, later) =>
          bytes.length + storedRounds rounds (wanted + 1 - bytes.length) later
      | (.wouldBlock, _) => 0
      | (.closed, _) => 0

def stored (wanted : Nat) (stream : List Arrival) : Nat := storedRounds wanted wanted stream

theorem storedRounds_eq {rounds wanted : Nat} (enough : wanted ≤ rounds)
    (stream : List Arrival) :
    storedRounds rounds wanted stream = min wanted (leading stream).length := by
  induction rounds generalizing wanted stream with
  | zero =>
      have nothing : wanted = 0 := by omega
      rw [nothing, Nat.zero_min, storedRounds]
  | succ rounds ih =>
      cases wanted with
      | zero => rw [Nat.zero_min, storedRounds]
      | succ wanted =>
          have effect := read_effect (Nat.succ_pos wanted) stream
          rw [storedRounds]
          generalize read (wanted + 1) stream = outcome at effect
          cases effect with
          | data bytes later more nonempty short before after =>
              have progress : 0 < bytes.length := List.length_pos_iff.mpr nonempty
              dsimp only
              rw [ih (by omega), after.leading, before, List.length_append]
              omega
          | wouldBlock later empty paused => rw [empty, List.length_nil, Nat.min_zero]
          | closed empty ended => rw [empty, List.length_nil, Nat.min_zero]

/-- A read stores what there is, up to what it wants. -/
theorem stored_eq (wanted : Nat) (stream : List Arrival) :
    stored wanted stream = min wanted (leading stream).length :=
  storedRounds_eq (Nat.le_refl wanted) stream

/-! ## Reading loops -/

/-- One round of a reading loop: an item, or the end of the loop. A round that
yields an item has consumed something. -/
structure Reader (φ : Type u) where
  next : List Arrival → Option φ × List Arrival
  progress : ∀ {stream later item}, next stream = (some item, later) →
    weight later < weight stream

namespace Reader

variable {φ : Type u} (reader : Reader φ)

def drainRounds : Nat → List Arrival → List φ × List Arrival
  | 0, stream => ([], (reader.next stream).2)
  | rounds + 1, stream =>
      match reader.next stream with
      | (some item, later) =>
          match drainRounds rounds later with
          | (items, last) => (item :: items, last)
      | (none, later) => ([], later)

/-- The items of a whole loop, and the stream as its last round leaves it. -/
def drain (stream : List Arrival) : List φ × List Arrival :=
  reader.drainRounds (weight stream) stream

theorem drainRounds_eq {rounds more : Nat} {stream : List Arrival}
    (enough : weight stream ≤ rounds) (longer : weight stream ≤ more) :
    reader.drainRounds rounds stream = reader.drainRounds more stream := by
  induction rounds generalizing more stream with
  | zero =>
      cases more with
      | zero => rfl
      | succ more =>
          cases turn : reader.next stream with
          | mk item later =>
              cases item with
              | none => simp [drainRounds, turn]
              | some item =>
                  have less := reader.progress turn
                  omega
  | succ rounds ih =>
      cases turn : reader.next stream with
      | mk item later =>
          cases item with
          | none => cases more <;> simp [drainRounds, turn]
          | some item =>
              have less := reader.progress turn
              cases more with
              | zero => omega
              | succ more =>
                  simp only [drainRounds, turn]
                  rw [ih (show weight later ≤ rounds by omega) (show weight later ≤ more by omega)]

/-- A loop that gets an item goes on. -/
theorem drain_some {stream later : List Arrival} {item : φ}
    (turn : reader.next stream = (some item, later)) :
    reader.drain stream = (item :: (reader.drain later).1, (reader.drain later).2) := by
  have less := reader.progress turn
  cases fuel : weight stream with
  | zero => omega
  | succ rounds =>
      simp only [drain, fuel, drainRounds, turn]
      rw [reader.drainRounds_eq (show weight later ≤ rounds by omega) (Nat.le_refl _)]

/-- A loop that gets none ends. -/
theorem drain_none {stream later : List Arrival}
    (turn : reader.next stream = (none, later)) : reader.drain stream = ([], later) := by
  cases fuel : weight stream with
  | zero => simp [drain, fuel, drainRounds, turn]
  | succ rounds => simp [drain, fuel, drainRounds, turn]

/-- A reader that decodes any one message from the front of its bytes decodes a
sequence of them. -/
theorem drain_messages {μ : Type v} (encode : μ → List UInt8) (decoded : μ → φ)
    {messages : List μ}
    (decodes : ∀ message ∈ messages, ∀ stream more later,
      Shows stream (encode message ++ more) later →
        ∃ rest, reader.next stream = (some (decoded message), rest) ∧ Shows rest more later)
    {stream rest later : List Arrival} {tail : List UInt8}
    (ends : ∀ stream, Shows stream tail later → reader.next stream = (none, rest))
    (shows : Shows stream ((messages.map encode).flatten ++ tail) later) :
    reader.drain stream = (messages.map decoded, rest) := by
  induction messages generalizing stream with
  | nil => exact reader.drain_none (ends stream shows)
  | cons message messages ih =>
      rw [List.map_cons, List.flatten_cons, List.append_assoc] at shows
      rw [List.forall_mem_cons] at decodes
      rcases decodes.1 stream _ later shows with ⟨next, turn, nextShows⟩
      rw [reader.drain_some turn, ih decodes.2 nextShows]
      rfl

/-- The loop with every item beside the stream it was read from. -/
def traced : Reader (List Arrival × φ) where
  next stream := ((reader.next stream).1.map (stream, ·), (reader.next stream).2)
  progress := by
    intro stream later item turn
    cases found : (reader.next stream).1 with
    | none => simp [found] at turn
    | some read =>
        have advanced : reader.next stream = (some read, later) := by
          rw [← found, ← (Prod.mk.inj turn).2]
        exact reader.progress advanced

theorem traced_drain_some {stream later : List Arrival} {item : φ}
    (turn : reader.next stream = (some item, later)) :
    reader.traced.drain stream =
      ((stream, item) :: (reader.traced.drain later).1, (reader.traced.drain later).2) := by
  apply drain_some
  simp only [traced, turn, Option.map_some]

theorem traced_drain_none {stream : List Arrival} (ended : (reader.next stream).1 = none) :
    reader.traced.drain stream = ([], (reader.next stream).2) := by
  apply drain_none
  simp only [traced, ended, Option.map_none]

/-- The items are those of the plain loop. -/
theorem traced_drain_items (stream : List Arrival) :
    (reader.traced.drain stream).1.map Prod.snd = (reader.drain stream).1 := by
  induction bytes : weight stream using Nat.strongRecOn generalizing stream with
  | ind bytes ih =>
      rcases turn : reader.next stream with ⟨item, later⟩
      cases item with
      | none =>
          rw [reader.drain_none turn, reader.traced_drain_none (by rw [turn]), List.map_nil]
      | some item =>
          have less := reader.progress turn
          rw [reader.drain_some turn, reader.traced_drain_some turn, List.map_cons,
            ih (weight later) (by omega) later rfl]

end Reader

end ByteStream
