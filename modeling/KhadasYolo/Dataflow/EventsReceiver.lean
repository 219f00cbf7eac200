import KhadasYolo.Dataflow.Pauses

/-!
# The events receiver

`events_receiver` reads the frames that `recv_frame` reads, without a receive timeout.  It
prints each record as soon as it is there, ignores the length prefix, and only tells a
connection that ends inside the records from one that ends anywhere else.
-/

namespace KhadasYolo.Dataflow

open Ipc ByteStream Temporal Summarizer

universe u

/-- What a run of `events_receiver` prints, and its exit status. -/
structure Printed (F : Type u) where
  lines : List (UInt64 × WireTrackSummary F)
  status : Nat

/-- The records of a frame, each with the number of the frame. -/
def linesOf {F : Type u} (hdr : WireFrameHeader) (records : List (WireTrackSummary F)) :
    List (UInt64 × WireTrackSummary F) :=
  records.map (hdr.frameId, ·)

section Reader

variable {F : Type u} [FloatBits F]

/-- One round of the loop: the lines, and the status if it is the last one. -/
def printFrame (stream : List Arrival) :
    (List (UInt64 × WireTrackSummary F) × Option Nat) × List Arrival :=
  match readExact Codec.uint32.size stream with
  | (none, later) => (([], some 0), later)
  | (some _, later) =>
      match readExact WireFrameHeader.codec.size later with
      | (none, last) => (([], some 0), last)
      | (some headerBytes, last) =>
          let hdr := WireFrameHeader.codec.decode headerBytes
          match readRecords (WireTrackSummary.codec F) hdr.count.toNat last with
          | (records, rest) =>
              ((linesOf hdr records,
                if records.length = hdr.count.toNat then none else some 1), rest)

def printRounds : Nat → List Arrival → Printed F
  | 0, _ => ⟨[], 0⟩
  | rounds + 1, stream =>
      match printFrame stream with
      | ((lines, some status), _) => ⟨lines, status⟩
      | ((lines, none), later) =>
          let rest := printRounds rounds later
          { rest with lines := lines ++ rest.lines }

/-- The loop of `main`. Every round but the last consumes something. -/
def printEvents (stream : List Arrival) : Printed F := printRounds (weight stream + 1) stream

/-! ## One round -/

/-- Prefix and header are there. -/
def Headed (bytes : List UInt8) : Prop :=
  Codec.uint32.size + WireFrameHeader.codec.size ≤ bytes.length

/-- The records are there. -/
def Filled (bytes : List UInt8) : Prop :=
  (headerOf bytes).count.toNat * 104 ≤ (bodyOf bytes).length

/-- The records that are there, of the first frame. -/
def frontLines (bytes : List UInt8) : List (UInt64 × WireTrackSummary F) :=
  linesOf (headerOf bytes)
    (arrived (WireTrackSummary.codec F) (headerOf bytes).count.toNat (bodyOf bytes))

variable {stream later : List Arrival} {bytes : List UInt8}

theorem printFrame_headed (shows : Shows stream bytes later) (headed : Headed bytes) :
    ∃ middle, Shows middle (bodyOf bytes) later ∧
      printFrame (F := F) stream =
        ((linesOf (headerOf bytes) (readRecords (WireTrackSummary.codec F)
            (headerOf bytes).count.toNat middle).1,
          if (readRecords (WireTrackSummary.codec F) (headerOf bytes).count.toNat
              middle).1.length = (headerOf bytes).count.toNat then none else some 1),
        (readRecords (WireTrackSummary.codec F) (headerOf bytes).count.toNat middle).2) := by
  rw [Headed] at headed
  have prefixed : Codec.uint32.size ≤ bytes.length := by omega
  have rest : WireFrameHeader.codec.size ≤ (bytes.drop Codec.uint32.size).length := by
    rw [List.length_drop]
    omega
  rcases readExact_take shows prefixed with ⟨first, prefixRead, firstShows⟩
  rcases readExact_take firstShows rest with ⟨middle, headerRead, middleShows⟩
  refine ⟨middle, middleShows, ?_⟩
  simp only [printFrame, prefixRead, headerRead]
  rfl

theorem printFrame_whole (shows : Shows stream bytes later) (headed : Headed bytes)
    (filled : Filled bytes) :
    ∃ rest, printFrame (F := F) stream = ((frontLines bytes, none), rest) ∧
      Shows rest ((bodyOf bytes).drop ((headerOf bytes).count.toNat * 104)) later := by
  rcases printFrame_headed (F := F) shows headed with ⟨middle, middleShows, turn⟩
  rcases readRecords_whole (WireTrackSummary.codec F) middleShows filled with
    ⟨rest, read, restShows⟩
  refine ⟨rest, ?_, restShows⟩
  rw [turn, read, if_pos (length_arrived_whole _ filled)]
  rfl

theorem printFrame_cut (shows : Shows stream bytes later) (headed : Headed bytes)
    (cut : ¬ Filled bytes) :
    (printFrame (F := F) stream).1 = (frontLines bytes, some 1) := by
  have short := Nat.lt_of_not_le cut
  rcases printFrame_headed (F := F) shows headed with ⟨middle, middleShows, turn⟩
  rw [turn, readRecords_cut (WireTrackSummary.codec F) middleShows short,
    if_neg (Nat.ne_of_lt (length_arrived_cut _ short))]
  rfl

theorem printFrame_short (shows : Shows stream bytes later) (short : ¬ Headed bytes) :
    (printFrame (F := F) stream).1 = ([], some 0) := by
  rw [Headed] at short
  by_cases prefixed : Codec.uint32.size ≤ bytes.length
  · rcases readExact_take shows prefixed with ⟨first, prefixRead, firstShows⟩
    have missing : (bytes.drop Codec.uint32.size).length < WireFrameHeader.codec.size := by
      rw [List.length_drop]
      omega
    simp only [printFrame, prefixRead, readExact_short firstShows missing]
  · simp only [printFrame, readExact_short shows (Nat.lt_of_not_le prefixed)]

/-! ## All rounds -/

/-- What is left behind the first frame. -/
def behindFront (bytes : List UInt8) : List UInt8 :=
  (bodyOf bytes).drop ((headerOf bytes).count.toNat * 104)

theorem length_behindFront_lt (headed : Headed bytes) :
    (behindFront bytes).length < bytes.length := by
  rw [Headed, WireFrameHeader.codec_size] at headed
  rw [behindFront, bodyOf, List.length_drop, List.length_drop, List.length_drop,
    WireFrameHeader.codec_size]
  omega

theorem printRounds_whole (shows : Shows stream bytes later) (headed : Headed bytes)
    (filled : Filled bytes) (rounds : Nat) :
    ∃ rest, Shows rest (behindFront bytes) later ∧ printRounds (F := F) (rounds + 1) stream =
      ⟨frontLines bytes ++ (printRounds rounds rest).lines,
        (printRounds (F := F) rounds rest).status⟩ := by
  rcases printFrame_whole (F := F) shows headed filled with ⟨rest, turn, restShows⟩
  refine ⟨rest, restShows, ?_⟩
  rw [printRounds, turn]

theorem printRounds_last {lines : List (UInt64 × WireTrackSummary F)} {status : Nat}
    (turn : (printFrame stream).1 = (lines, some status)) (rounds : Nat) :
    printRounds (rounds + 1) stream = ⟨lines, status⟩ := by
  rw [printRounds]
  split
  next others _ _ found =>
    rw [found] at turn
    cases turn
    rfl
  next found =>
    rw [found] at turn
    cases turn

/-- The chunks make no difference. -/
theorem printRounds_eq {other : List Arrival} {rounds more : Nat}
    (shows : Shows stream bytes []) (otherShows : Shows other bytes [])
    (enough : bytes.length < rounds) (longer : bytes.length < more) :
    printRounds (F := F) rounds stream = printRounds more other := by
  induction rounds generalizing stream other bytes more with
  | zero => contradiction
  | succ rounds ih =>
      rcases Nat.exists_eq_add_one.mpr (Nat.zero_lt_of_lt longer) with ⟨more, rfl⟩
      by_cases headed : Headed bytes
      · by_cases filled : Filled bytes
        · have less := length_behindFront_lt headed
          rcases printRounds_whole (F := F) shows headed filled rounds with
            ⟨rest, restShows, printed⟩
          rcases printRounds_whole (F := F) otherShows headed filled more with
            ⟨otherRest, otherRestShows, otherPrinted⟩
          have same : printRounds (F := F) rounds rest = printRounds more otherRest :=
            ih restShows otherRestShows (by omega) (by omega)
          rw [printed, otherPrinted, same]
        · rw [printRounds_last (printFrame_cut shows headed filled),
            printRounds_last (printFrame_cut otherShows headed filled)]
      · rw [printRounds_last (printFrame_short shows headed),
          printRounds_last (printFrame_short otherShows headed)]

/-- What is printed of some bytes, however they arrive. -/
def printBytes (bytes : List UInt8) : Printed F := printEvents (unpaused (bytewise bytes))

theorem printEvents_eq (shows : Shows stream bytes []) :
    printEvents (F := F) stream = printBytes bytes := by
  have other := bytewise_shows bytes
  rw [printBytes, printEvents, printEvents]
  exact printRounds_eq shows other (by rw [shows.weight]; exact Nat.lt_succ_self _)
    (by rw [other.weight]; exact Nat.lt_succ_self _)

theorem printBytes_short (short : ¬ Headed bytes) : printBytes (F := F) bytes = ⟨[], 0⟩ :=
  printRounds_last (printFrame_short (bytewise_shows bytes) short) _

theorem printBytes_cut (headed : Headed bytes) (cut : ¬ Filled bytes) :
    printBytes (F := F) bytes = ⟨frontLines bytes, 1⟩ :=
  printRounds_last (printFrame_cut (bytewise_shows bytes) headed cut) _

theorem printBytes_whole (headed : Headed bytes) (filled : Filled bytes) :
    printBytes (F := F) bytes = ⟨frontLines bytes ++ (printBytes (behindFront bytes)).lines,
      (printBytes (F := F) (behindFront bytes)).status⟩ := by
  have shows := bytewise_shows bytes
  have less := length_behindFront_lt headed
  rcases printRounds_whole (F := F) shows headed filled (weight (unpaused (bytewise bytes)))
    with ⟨rest, restShows, printed⟩
  have other := bytewise_shows (behindFront bytes)
  have same : printRounds (F := F) (weight (unpaused (bytewise bytes))) rest =
      printBytes (behindFront bytes) :=
    printRounds_eq restShows other (by rw [shows.weight]; exact less)
      (by rw [other.weight]; exact Nat.lt_succ_self _)
  rw [printBytes, printEvents, printed, same]

/-! ## The same frames as `recv_frame` -/

end Reader

/-! ## What the service has sent -/

section Sent

variable {F : Type u} [FloatMath F] [FloatBits F]

/-- The records that have arrived of the first bytes of some frames, and whether these
bytes end inside records. -/
def arrivedOf : List (SummaryFrame F) → Nat → Printed F
  | [], _ => ⟨[], 0⟩
  | frame :: frames, sent =>
      if frame.bytes.length ≤ sent then
        let rest := arrivedOf frames (sent - frame.bytes.length)
        { rest with lines := linesOf frame.header (frame.tracks.map fillSummary) ++ rest.lines }
      else if sent < Codec.uint32.size + WireFrameHeader.codec.size then ⟨[], 0⟩
      else
        ⟨linesOf frame.header ((frame.tracks.map fillSummary).take
          ((sent - (Codec.uint32.size + WireFrameHeader.codec.size)) / 104)), 1⟩

omit [FloatMath F] [FloatBits F] in
/-- Of encoded records, the whole ones arrive. -/
theorem arrived_take_encoded {ρ : Type u} (codec : Codec ρ) (positive : 0 < codec.size)
    (records : List ρ) (sent : Nat) :
    arrived codec records.length ((records.map codec.encode).flatten.take sent) =
      records.take (sent / codec.size) := by
  induction records generalizing sent with
  | nil => rw [List.take_nil]; rfl
  | cons record records ih =>
      have first := codec.length_encode record
      rw [List.map_cons, List.flatten_cons, List.length_cons, arrived, List.length_take,
        List.length_append, first]
      by_cases enough : codec.size ≤ sent
      · rw [if_pos (by omega), List.take_take, Nat.min_eq_left enough, List.drop_take,
          List.take_left' first, List.drop_left' first, codec.decode_encode, ih,
          Nat.div_eq_sub_div positive enough, List.take_succ_cons]
      · rw [if_neg (by omega), Nat.div_eq_of_lt (Nat.lt_of_not_le enough), List.take_zero]

theorem printBytes_frame (frame : SummaryFrame F) (more : List UInt8) :
    printBytes (frame.bytes ++ more) =
      ⟨linesOf frame.header (frame.tracks.map fillSummary) ++ (printBytes (F := F) more).lines,
        (printBytes (F := F) more).status⟩ := by
  have header := headerOf_frameBytes (WireTrackSummary.codec F) frame.received.header
    frame.received.records more
  rcases body_frameBytes (WireTrackSummary.codec F) frame.counted more with
    ⟨filled, records, behind⟩
  rw [← frame.bytes_eq] at header filled records behind
  have headed : Headed (frame.bytes ++ more) := by
    rw [Headed, List.length_append, length_bytes, bodyLength]
    omega
  have front : frontLines (frame.bytes ++ more) =
      linesOf frame.received.header frame.received.records := by
    rw [frontLines, header, records]
  have rest : behindFront (frame.bytes ++ more) = more := by
    rw [behindFront, header]
    exact behind
  rw [← header] at filled
  rw [printBytes_whole headed filled, front, rest]
  rfl

theorem printBytes_inside (frame : SummaryFrame F) {sent : Nat}
    (headed : Codec.uint32.size + WireFrameHeader.codec.size ≤ sent)
    (inside : sent < frame.bytes.length) :
    printBytes (frame.bytes.take sent) = ⟨linesOf frame.header
      ((frame.tracks.map fillSummary).take
        ((sent - (Codec.uint32.size + WireFrameHeader.codec.size)) / 104)), 1⟩ := by
  have length : (frame.bytes.take sent).length = sent := by
    rw [List.length_take, Nat.min_eq_left (Nat.le_of_lt inside)]
  have there : Headed (frame.bytes.take sent) := by rwa [Headed, length]
  have header : headerOf (frame.bytes.take sent) = frame.received.header := by
    rw [← headerOf_append there (frame.bytes.drop sent), List.take_append_drop,
      frame.bytes_eq, ← List.append_nil (frameBytes _ _ _), headerOf_frameBytes]
  have body : bodyOf (frame.bytes.take sent) =
      (frame.received.records.map (WireTrackSummary.codec F).encode).flatten.take
        (sent - (Codec.uint32.size + WireFrameHeader.codec.size)) := by
    have whole := bodyOf_frameBytes (WireTrackSummary.codec F) frame.received.header
      frame.received.records []
    rw [List.append_nil, List.append_nil, ← frame.bytes_eq] at whole
    rw [← whole, bodyOf, bodyOf, List.drop_take, List.drop_take, Nat.sub_sub]
  have cut : ¬ Filled (frame.bytes.take sent) := by
    have size := length_bytes frame
    rw [bodyLength] at size
    rw [Filled, header, frame.counted, body, List.length_take, length_encoded]
    change ¬ _ * 104 ≤ min _ (_ * 104)
    omega
  rw [printBytes_cut there cut, frontLines, header, body, frame.counted,
    arrived_take_encoded (WireTrackSummary.codec F) (Nat.succ_pos 103)]
  rfl

theorem printBytes_sent (frames : List (SummaryFrame F)) (sent : Nat) :
    printBytes ((sentBytes frames).take sent) = arrivedOf frames sent := by
  induction frames generalizing sent with
  | nil =>
      rw [sentBytes, List.map_nil, List.flatten_nil, List.take_nil, arrivedOf]
      exact printBytes_short (Nat.not_le_of_lt (by decide))
  | cons frame frames ih =>
      rw [sentBytes_cons, arrivedOf]
      split
      next whole =>
        rw [List.take_append, List.take_of_length_le whole, printBytes_frame, ih]
      next inside =>
        have inside := Nat.lt_of_not_le inside
        rw [List.take_append_of_le_length (Nat.le_of_lt inside)]
        split
        next short =>
          apply printBytes_short
          rw [Headed, List.length_take]
          omega
        next headed => exact printBytes_inside frame (Nat.le_of_not_lt headed) inside

/-- Wherever the connection to the temporal service ends, the receiver has printed exactly
the records that have arrived as a whole, in the order in which they were sent and each
with the number of its frame, and its exit status tells an end inside records. -/
theorem events_receiver_prints (frames : List (SummaryFrame F)) (sent : Nat)
    {chunks : List Chunk} (carried : joined chunks = (sentBytes frames).take sent) :
    printEvents (unpaused chunks) = arrivedOf frames sent := by
  rw [printEvents_eq (unpaused_shows chunks), carried, printBytes_sent]

end Sent

/-- The second frame ends inside its record. -/
theorem events_receiver_prints_cut :
    printEvents (unpaused (bytewise
        ((sentBytes [Example.summary, Example.summary]).take 210))) =
      ⟨linesOf Example.summary.header (Example.summary.tracks.map fillSummary), 1⟩ := by
  have length : Example.summary.bytes.length = 132 := length_bytes Example.summary
  rw [events_receiver_prints [Example.summary, Example.summary] 210 (joined_bytewise _)]
  simp only [arrivedOf, length]
  rfl

end KhadasYolo.Dataflow
