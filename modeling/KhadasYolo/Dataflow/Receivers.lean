import KhadasYolo.Temporal.Service
import KhadasYolo.Tracker.Service

/-!
# The debug receivers

`data_receiver` and `tracks_receiver` read the same frames as the two services, with
readers of their own. A service takes the records one by one and makes room for as
many as the header counts. A receiver takes all records of a frame in one read, into
an array with a fixed number of elements that it never compares with the count.
-/

namespace KhadasYolo.Dataflow

open Ipc ByteStream Tracker Temporal

universe u v

/-- The number of elements of the array in `receiveLoop`. -/
def kMaxDetections : Nat := 64

/-- A frame as a receiver prints it. -/
structure ReceivedFrame (ρ : Type u) where
  header : WireFrameHeader
  records : List ρ

/-- What one round of `receiveLoop` comes to. -/
inductive ReceiveResult (ρ : Type u) where
  | frame (frame : ReceivedFrame ρ)
  | ended
  -- Bytes have been stored behind the last element of the array.
  | overrun

/-- A run of `receiveLoop`: the frames it has printed, and whether it has left its
array. Nothing is said about a run from there on. -/
structure Reception (ρ : Type u) where
  frames : List (ReceivedFrame ρ)
  overrun : Bool

section Loop

variable {ρ : Type u} (codec : Codec ρ)

/-- One round of `receiveLoop`. -/
def receiveFrame (stream : List Arrival) : ReceiveResult ρ × List Arrival :=
  match readHeader codec.size stream with
  | (none, later) => (.ended, later)
  | (some hdr, later) =>
      let expectedBytes := hdr.count.toNat * codec.size
      if hdr.count = 0 then (.frame ⟨hdr, []⟩, later)
      -- A read that fails in the end has stored what had arrived by then.
      else if kMaxDetections * codec.size < stored expectedBytes later then
        (.overrun, (readExact expectedBytes later).2)
      else
        match readExact expectedBytes later with
        | (none, last) => (.ended, last)
        | (some block, last) => (.frame ⟨hdr, arrived codec hdr.count.toNat block⟩, last)

def receiveRounds : Nat → List Arrival → Reception ρ
  | 0, _ => ⟨[], false⟩
  | rounds + 1, stream =>
      match receiveFrame codec stream with
      | (.frame frame, later) =>
          let rest := receiveRounds rounds later
          { rest with frames := frame :: rest.frames }
      | (.ended, _) => ⟨[], false⟩
      | (.overrun, _) => ⟨[], true⟩

/-- The whole loop. Every round but the last consumes something. -/
def receiveLoop (stream : List Arrival) : Reception ρ :=
  receiveRounds codec (weight stream + 1) stream

end Loop

section Members

variable {F : Type u} [FloatBits F]

/-- `receiveLoop` of `data_receiver`. -/
def dataReceiveLoop (stream : List Arrival) : Reception (WireDetectionRecord F) :=
  receiveLoop (WireDetectionRecord.codec F) stream

/-- `receiveLoop` of `tracks_receiver`. -/
def tracksReceiveLoop (stream : List Arrival) : Reception (WireTrackRecord F) :=
  receiveLoop (WireTrackRecord.codec F) stream

end Members

/-! ## One round -/

section Rounds

variable {ρ : Type u} (codec : Codec ρ) {stream later : List Arrival} {bytes : List UInt8}

/-- Only the bytes of the records count. -/
theorem arrived_take (count : Nat) (bytes : List UInt8) :
    arrived codec count (bytes.take (count * codec.size)) = arrived codec count bytes := by
  induction count generalizing bytes with
  | zero => rfl
  | succ count ih =>
      rw [Nat.succ_mul, arrived, arrived, List.length_take, List.take_take, List.drop_take,
        Nat.add_sub_cancel, ih, Nat.min_eq_left (Nat.le_add_left _ _)]
      have same : codec.size ≤ min (count * codec.size + codec.size) bytes.length ↔
          codec.size ≤ bytes.length := by omega
      simp only [same]

/-- The bytes of a frame that is announced keep inside the array: it has at most as
many records as the array has elements, or the connection ends within these. -/
def FitsArray (recordSize : Nat) (bytes : List UInt8) : Prop :=
  (headerOf bytes).count.toNat ≤ kMaxDetections ∨
    (bodyOf bytes).length ≤ kMaxDetections * recordSize

theorem stored_of_fitsArray (inArray : FitsArray codec.size bytes)
    (shows : Shows stream (bodyOf bytes) later) :
    stored ((headerOf bytes).count.toNat * codec.size) stream ≤
      kMaxDetections * codec.size := by
  rw [stored_eq, shows.leading]
  rcases inArray with few | short
  · exact (Nat.min_le_left _ _).trans (Nat.mul_le_mul_right _ few)
  · exact (Nat.min_le_right _ _).trans short

theorem stored_of_crowded (positive : 0 < codec.size)
    (crowded : ¬ FitsArray codec.size bytes) (shows : Shows stream (bodyOf bytes) later) :
    kMaxDetections * codec.size <
      stored ((headerOf bytes).count.toNat * codec.size) stream := by
  rw [FitsArray, not_or, Nat.not_le, Nat.not_le] at crowded
  rw [stored_eq, shows.leading]
  exact Nat.lt_min.mpr ⟨Nat.mul_lt_mul_of_pos_right crowded.1 positive, crowded.2⟩

theorem receiveFrame_whole (shows : Shows stream bytes later)
    (announced : Announces codec.size bytes) (inArray : FitsArray codec.size bytes)
    (whole : (headerOf bytes).count.toNat * codec.size ≤ (bodyOf bytes).length) :
    ∃ rest, receiveFrame codec stream = (.frame
        { header := headerOf bytes
          records := arrived codec (headerOf bytes).count.toNat (bodyOf bytes) }, rest) ∧
      Shows rest ((bodyOf bytes).drop ((headerOf bytes).count.toNat * codec.size))
        later := by
  rcases readHeader_announced shows announced with ⟨middle, headed, middleShows⟩
  rcases readExact_take middleShows whole with ⟨rest, read, restShows⟩
  have inside := stored_of_fitsArray codec inArray middleShows
  by_cases empty : (headerOf bytes).count = 0
  · refine ⟨middle, ?_, ?_⟩
    · simp only [receiveFrame, headed]
      rw [if_pos empty, empty]
      rfl
    · rwa [empty, UInt16.toNat_zero, Nat.zero_mul, List.drop_zero]
  · refine ⟨rest, ?_, restShows⟩
    simp only [receiveFrame, headed]
    rw [if_neg empty, if_neg (Nat.not_lt.mpr inside), read]
    simp only [arrived_take]

theorem receiveFrame_cut (shows : Shows stream bytes later)
    (announced : Announces codec.size bytes) (inArray : FitsArray codec.size bytes)
    (cut : (bodyOf bytes).length < (headerOf bytes).count.toNat * codec.size) :
    (receiveFrame codec stream).1 = .ended := by
  rcases readHeader_announced shows announced with ⟨middle, headed, middleShows⟩
  have inside := stored_of_fitsArray codec inArray middleShows
  have counted : (headerOf bytes).count ≠ 0 := by
    intro empty
    rw [empty, UInt16.toNat_zero, Nat.zero_mul] at cut
    exact Nat.not_lt_zero _ cut
  simp only [receiveFrame, headed]
  rw [if_neg counted, if_neg (Nat.not_lt.mpr inside), readExact_short middleShows cut]

theorem receiveFrame_crowded (positive : 0 < codec.size) (shows : Shows stream bytes later)
    (announced : Announces codec.size bytes) (crowded : ¬ FitsArray codec.size bytes) :
    (receiveFrame codec stream).1 = .overrun := by
  rcases readHeader_announced shows announced with ⟨middle, headed, middleShows⟩
  have outside := stored_of_crowded codec positive crowded middleShows
  have counted : (headerOf bytes).count ≠ 0 := by
    intro empty
    apply crowded
    left
    rw [empty]
    exact Nat.zero_le _
  simp only [receiveFrame, headed]
  rw [if_neg counted, if_pos outside]

theorem receiveFrame_refused (shows : Shows stream bytes later)
    (refused : ¬ Announces codec.size bytes) : (receiveFrame codec stream).1 = .ended := by
  have failed := readHeader_refused shows refused
  rw [receiveFrame]
  split
  next => rfl
  next hdr middle headed =>
    rw [headed] at failed
    contradiction

/-- Any end of a round is the end of the loop. -/
theorem receiveRounds_ended (ended : (receiveFrame codec stream).1 = .ended)
    (rounds : Nat) : receiveRounds codec (rounds + 1) stream = ⟨[], false⟩ := by
  rw [receiveRounds]
  split
  next frame later turn =>
    rw [turn] at ended
    contradiction
  next => rfl
  next later turn =>
    rw [turn] at ended
    contradiction

theorem receiveRounds_overrun (overrun : (receiveFrame codec stream).1 = .overrun)
    (rounds : Nat) : receiveRounds codec (rounds + 1) stream = ⟨[], true⟩ := by
  rw [receiveRounds]
  split
  next frame later turn =>
    rw [turn] at overrun
    contradiction
  next later turn =>
    rw [turn] at overrun
    contradiction
  next => rfl

end Rounds

/-! ## Whole runs -/

section Runs

variable {ρ : Type u} {φ : Type v} {codec : Codec ρ}

/-- What the frame loop of a service reads from its connection: frames that arrive
whole, something of a frame that is cut off, and nothing else. -/
structure DecodesFrames (codec : Codec ρ) (reader : Reader φ)
    (decoded : ReceivedFrame ρ → φ) : Prop where
  whole : ∀ {stream later bytes}, Shows stream bytes later → Announces codec.size bytes →
    (headerOf bytes).count.toNat * codec.size ≤ (bodyOf bytes).length →
      ∃ rest, reader.next stream = (some (decoded
          { header := headerOf bytes
            records := arrived codec (headerOf bytes).count.toNat (bodyOf bytes) }), rest) ∧
        Shows rest ((bodyOf bytes).drop ((headerOf bytes).count.toNat * codec.size)) later
  cut : ∀ {stream later bytes}, Shows stream bytes later → Announces codec.size bytes →
    (bodyOf bytes).length < (headerOf bytes).count.toNat * codec.size →
      ∃ frame rest, reader.next stream = (some frame, rest)
  refused : ∀ {stream later bytes}, Shows stream bytes later →
    ¬ Announces codec.size bytes → (reader.next stream).1 = none

/-- The frames a service has accepted up to the first that is malformed or cut off. -/
def acceptedFrames (recordSize : Nat) (reader : Reader φ) (stream : List Arrival) : List φ :=
  ((reader.traced.drain stream).1.takeWhile
    fun turn => ¬ CutFrame recordSize (leading turn.1)).map Prod.snd

/-- A receiver has kept inside its array and has printed what a service has accepted. -/
structure Agrees (decoded : ReceivedFrame ρ → φ) (reception : Reception ρ)
    (accepted : List φ) : Prop where
  inside : reception.overrun = false
  same : reception.frames.map decoded = accepted

/-- No frame of a stream brings more records than the array of a receiver has room
for. -/
def Roomy (recordSize : Nat) (bytes : List UInt8) : Prop :=
  ∀ rest, Behind recordSize bytes rest → Announces recordSize rest →
    FitsArray recordSize rest

theorem roomy_iff_of_whole {recordSize : Nat} {bytes : List UInt8}
    (announced : Announces recordSize bytes)
    (whole : Codec.uint32.size + prefixOf bytes ≤ bytes.length) :
    Roomy recordSize bytes ↔ FitsArray recordSize bytes ∧
      Roomy recordSize (bytes.drop (Codec.uint32.size + prefixOf bytes)) := by
  constructor
  · intro roomy
    refine ⟨roomy bytes (behind_self bytes) announced, fun rest behind => ?_⟩
    exact roomy rest ((behind_iff_of_whole announced whole).mpr (.inr behind))
  · rintro ⟨inArray, roomy⟩ rest behind announcedRest
    rcases (behind_iff_of_whole announced whole).mp behind with rfl | behind
    · exact inArray
    · exact roomy rest behind announcedRest

theorem roomy_of_not_whole {recordSize : Nat} {bytes : List UInt8}
    (broken : Announces recordSize bytes →
      bytes.length < Codec.uint32.size + prefixOf bytes ∧ FitsArray recordSize bytes) :
    Roomy recordSize bytes := by
  intro rest behind announced
  rw [behind_iff_of_not_whole (fun announced => (broken announced).1)] at behind
  rw [behind] at announced ⊢
  exact (broken announced).2

variable {reader : Reader φ} {decoded : ReceivedFrame ρ → φ}

section Accepted

variable {recordSize : Nat} {stream later : List Arrival} {frame : φ}

theorem acceptedFrames_some (read : reader.next stream = (some frame, later))
    (uncut : ¬ CutFrame recordSize (leading stream)) :
    acceptedFrames recordSize reader stream =
      frame :: acceptedFrames recordSize reader later := by
  rw [acceptedFrames, reader.traced_drain_some read,
    List.takeWhile_cons_of_pos (by simpa using uncut), List.map_cons, ← acceptedFrames]

theorem acceptedFrames_cut (read : reader.next stream = (some frame, later))
    (cut : CutFrame recordSize (leading stream)) :
    acceptedFrames recordSize reader stream = [] := by
  rw [acceptedFrames, reader.traced_drain_some read,
    List.takeWhile_cons_of_neg (by simpa using cut), List.map_nil]

theorem acceptedFrames_none (ended : (reader.next stream).1 = none) :
    acceptedFrames recordSize reader stream = [] := by
  rw [acceptedFrames, reader.traced_drain_none ended, List.takeWhile_nil, List.map_nil]

end Accepted

/-- The same frame on both sides changes nothing. -/
theorem agrees_cons (frame : ReceivedFrame ρ) (reception : Reception ρ)
    (accepted : List φ) :
    Agrees decoded { reception with frames := frame :: reception.frames }
        (decoded frame :: accepted) ↔ Agrees decoded reception accepted := by
  constructor
  · intro agrees
    exact ⟨agrees.inside, (List.cons.inj agrees.same).2⟩
  · intro agrees
    exact ⟨agrees.inside, congrArg (decoded frame :: ·) agrees.same⟩

/-- On connections with the same bytes, a receiver agrees with a service exactly as
long as its array has room. -/
theorem receiveRounds_agrees_iff (decodes : DecodesFrames codec reader decoded)
    (positive : 0 < codec.size) {rounds : Nat} {stream served : List Arrival}
    {bytes : List UInt8} (shows : Shows stream bytes []) (servedShows : Shows served bytes [])
    (enough : bytes.length < rounds) :
    Agrees decoded (receiveRounds codec rounds stream)
        (acceptedFrames codec.size reader served) ↔ Roomy codec.size bytes := by
  induction rounds generalizing stream served bytes with
  | zero => omega
  | succ rounds ih =>
      by_cases announced : Announces codec.size bytes
      · by_cases inArray : FitsArray codec.size bytes
        · by_cases whole : Codec.uint32.size + prefixOf bytes ≤ bytes.length
          · have filled := announced.whole_iff.mp whole
            rcases receiveFrame_whole codec shows announced inArray filled with
              ⟨rest, received, restShows⟩
            rcases decodes.whole servedShows announced filled with ⟨next, read, nextShows⟩
            rw [announced.drop_body] at restShows nextShows
            have uncut : ¬ CutFrame codec.size (leading served) := by
              rw [servedShows.leading]
              exact fun cut => Nat.not_lt.mpr whole cut.length
            rw [acceptedFrames_some read uncut, receiveRounds, received, agrees_cons,
              ih restShows nextShows, roomy_iff_of_whole announced whole]
            · exact (and_iff_right inArray).symm
            · have complete := announced.complete
              have agree := announced.agree
              rw [List.length_drop, agree, bodyLength]
              simp only [WireFrameHeader.codec_size] at complete ⊢
              omega
          · have short := Nat.lt_of_not_le whole
            have missing := Nat.lt_of_not_le (mt announced.whole_iff.mpr whole)
            have ended := receiveFrame_cut codec shows announced inArray missing
            rcases decodes.cut servedShows announced missing with ⟨frame, next, read⟩
            have cut : CutFrame codec.size (leading served) := by
              rw [servedShows.leading]
              exact ⟨announced, short⟩
            rw [acceptedFrames_cut read cut, receiveRounds_ended codec ended rounds]
            exact iff_of_true ⟨rfl, rfl⟩ (roomy_of_not_whole fun _ => ⟨short, inArray⟩)
        · have outside := receiveFrame_crowded codec positive shows announced inArray
          rw [receiveRounds_overrun codec outside rounds]
          apply iff_of_false
          · exact fun agrees => Bool.noConfusion agrees.inside
          · exact fun roomy => inArray (roomy bytes (behind_self bytes) announced)
      · have ended := receiveFrame_refused codec shows announced
        rw [acceptedFrames_none (decodes.refused servedShows announced),
          receiveRounds_ended codec ended rounds]
        exact iff_of_true ⟨rfl, rfl⟩
          (roomy_of_not_whole fun announces => absurd announces announced)

/-- The whole loop on a connection. -/
theorem receiveLoop_agrees_iff (decodes : DecodesFrames codec reader decoded)
    (positive : 0 < codec.size) (chunks : List Chunk) :
    Agrees decoded (receiveLoop codec (unpaused chunks))
        (acceptedFrames codec.size reader (unpaused chunks)) ↔
      Roomy codec.size (joined chunks) := by
  have shows := unpaused_shows chunks
  apply receiveRounds_agrees_iff decodes positive shows shows
  rw [shows.weight]
  exact Nat.lt_succ_of_le (Nat.le_add_right _ _)

end Runs

/-- A frame with more records than the array has elements, written as the readers
expect it, overruns the array. -/
theorem receiveLoop_crowded {ρ : Type u} (codec : Codec ρ) (positive : 0 < codec.size)
    {hdr : WireFrameHeader} {records : List ρ} {stream later : List Arrival}
    {more : List UInt8} (counted : hdr.count.toNat = records.length)
    (fits : bodyLength codec.size records.length < 2 ^ 32)
    (many : kMaxDetections < records.length)
    (shows : Shows stream (frameBytes codec hdr records ++ more) later) :
    (receiveLoop codec stream).overrun = true := by
  have announced := frameBytes_announces codec counted fits more
  have crowded : ¬ FitsArray codec.size (frameBytes codec hdr records ++ more) := by
    rw [FitsArray, headerOf_frameBytes, bodyOf_frameBytes, counted, List.length_append,
      length_encoded, not_or, Nat.not_le, Nat.not_le]
    refine ⟨many, ?_⟩
    have bytes := Nat.mul_lt_mul_of_pos_right many positive
    omega
  have outside := receiveFrame_crowded codec positive shows announced crowded
  rw [receiveLoop, receiveRounds_overrun codec outside]

/-! ## The two receivers -/

section Members

variable {F : Type u}

/-- Nothing of a record is lost on its way to the tracker. -/
theorem ofRecord_injective :
    Function.Injective (TrackerDetection.ofRecord : WireDetectionRecord F → _) := by
  intro first second same
  simp only [TrackerDetection.ofRecord, TrackerDetection.mk.injEq] at same
  rcases same with ⟨name, confidence, left, top, right, bottom⟩
  exact WireDetectionRecord.ext name confidence left top right bottom

/-- The frame `bytetrack_service` makes of the same records. -/
def ReceivedFrame.detections (frame : ReceivedFrame (WireDetectionRecord F)) :
    DetectionFrame F where
  header := frame.header
  dets := frame.records.map .ofRecord

/-- The frame `temporal_service` makes of the same records. -/
def ReceivedFrame.tracks (frame : ReceivedFrame (WireTrackRecord F)) : TracksFrame F where
  header := frame.header
  records := frame.records

theorem detections_injective :
    Function.Injective (ReceivedFrame.detections : ReceivedFrame (WireDetectionRecord F) → _) := by
  rintro ⟨header, records⟩ ⟨otherHeader, otherRecords⟩ same
  simp only [ReceivedFrame.detections, DetectionFrame.mk.injEq] at same
  rw [ReceivedFrame.mk.injEq]
  exact ⟨same.1, ofRecord_injective.list_map same.2⟩

variable [FloatBits F]

theorem tracksReader_decodes :
    DecodesFrames (WireTrackRecord.codec F) tracksReader ReceivedFrame.tracks where
  whole := readTracks_whole
  cut := fun shows announced cut => ⟨_, _, readTracks_cut shows announced cut⟩
  refused := readTracks_refused

variable [FloatMath F]

theorem detectionReader_decodes :
    DecodesFrames (WireDetectionRecord.codec F) detectionReader ReceivedFrame.detections where
  whole := readDetections_whole
  cut := fun shows announced cut => ⟨_, _, readDetections_cut shows announced cut⟩
  refused := readDetections_refused

/-- Each debug receiver prints what its service accepts, and keeps inside its array,
exactly on the connections on which no frame brings more than 64 records. -/
theorem receivers_agree_iff (chunks : List Chunk) :
    (Agrees ReceivedFrame.detections (dataReceiveLoop (F := F) (unpaused chunks))
        (acceptedFrames 36 detectionReader (unpaused chunks)) ↔
      Roomy 36 (joined chunks)) ∧
    (Agrees ReceivedFrame.tracks (tracksReceiveLoop (F := F) (unpaused chunks))
        (acceptedFrames 40 tracksReader (unpaused chunks)) ↔
      Roomy 40 (joined chunks)) :=
  ⟨receiveLoop_agrees_iff detectionReader_decodes (by simp) chunks,
    receiveLoop_agrees_iff tracksReader_decodes (by simp) chunks⟩

end Members

namespace Example

/-- The header of a frame with 65 records. -/
def crowdedHeader : WireFrameHeader where
  frameId := 1
  timestampUs := 1000
  count := 65
  reserved := .replicate 6 0

def smallRecord : WireDetectionRecord Float32 where
  className := .replicate 16 0
  confidence := 0.5
  left := 0
  top := 0
  right := 10
  bottom := 10

def crowdedDetections : List UInt8 :=
  frameBytes (WireDetectionRecord.codec Float32) crowdedHeader (.replicate 65 smallRecord)

end Example

/-- `bytetrack_service` takes a frame with 65 records, and `data_receiver` stores the
last of them behind its array. -/
theorem data_receiver_overruns :
    (∃ rest, detectionReader.next (unpaused (bytewise Example.crowdedDetections)) =
        (some ⟨Example.crowdedHeader, .replicate 65 (.ofRecord Example.smallRecord)⟩,
          rest)) ∧
      ¬ Agrees ReceivedFrame.detections
        (dataReceiveLoop (F := Float32) (unpaused (bytewise Example.crowdedDetections)))
        (acceptedFrames 36 detectionReader
          (unpaused (bytewise Example.crowdedDetections))) := by
  have shows : Shows (unpaused (bytewise Example.crowdedDetections))
      (Example.crowdedDetections ++ []) [] := by
    rw [List.append_nil]
    exact bytewise_shows Example.crowdedDetections
  have counted : Example.crowdedHeader.count.toNat =
      (List.replicate 65 Example.smallRecord).length := by
    rw [List.length_replicate]
    rfl
  constructor
  · rcases readDetections_frame counted shows with ⟨rest, read, _⟩
    rw [List.map_replicate] at read
    exact ⟨rest, read⟩
  · intro agrees
    have fits : bodyLength 36 (List.replicate 65 Example.smallRecord).length < 2 ^ 32 := by
      rw [List.length_replicate]
      decide
    have many : kMaxDetections < (List.replicate 65 Example.smallRecord).length := by
      rw [List.length_replicate]
      decide
    have overrun := receiveLoop_crowded (WireDetectionRecord.codec Float32) (by simp) counted
      fits many shows
    have inside := agrees.inside
    rw [dataReceiveLoop, overrun] at inside
    cases inside

end KhadasYolo.Dataflow
