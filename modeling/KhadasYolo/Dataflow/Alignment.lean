import KhadasYolo.Summarizer.Receive
import KhadasYolo.Temporal.Service
import KhadasYolo.Tracker.Service

/-!
# Frame alignment of the readers

A frame says its size twice, and a reader stays aligned when it takes a frame only
if both agree and then consumes just this frame. The two services compare the
sizes, but still hand on a frame whose records a lost connection has cut off.
`recv_frame` goes by the count alone.
-/

namespace KhadasYolo.Dataflow

open Ipc ByteStream Tracker Temporal Summarizer

universe u

/-- The frame at the front of these bytes has one size, and a reader that leaves
`later` has consumed as many bytes. -/
structure Aligned (recordSize : Nat) (bytes : List UInt8) (later : List Arrival) :
    Prop where
  agree : prefixOf bytes = bodyLength recordSize (headerOf bytes).count.toNat
  consumed : bytes.length =
    Codec.uint32.size + prefixOf bytes + (leading later).length

variable {recordSize : Nat} {bytes : List UInt8}

/-- A frame that is there as a whole is consumed as a whole. -/
theorem aligned_of_whole {rest later : List Arrival} (announced : Announces recordSize bytes)
    (whole : (headerOf bytes).count.toNat * recordSize ≤ (bodyOf bytes).length)
    (shows : Shows rest
      ((bodyOf bytes).drop ((headerOf bytes).count.toNat * recordSize)) later) :
    Aligned recordSize bytes rest where
  agree := announced.agree
  consumed := by
    have enough := announced.whole_iff.mpr whole
    rw [shows.leading, announced.drop_body, List.length_drop]
    omega

/-- What has been consumed to the end without being whole is not aligned. -/
theorem not_aligned_of_cut (cut : CutFrame recordSize bytes) : ¬ Aligned recordSize bytes [] := by
  intro aligned
  have consumed := aligned.consumed
  have short := cut.length
  simp only [leading, List.length_nil] at consumed
  omega

variable {F : Type u} [FloatBits F]

theorem detections_aligned_iff [FloatMath F] (chunks : List Chunk) :
    (∀ (frame : DetectionFrame F) later,
        readDetections (unpaused chunks) = (some frame, later) →
          Aligned 36 (joined chunks) later) ↔
      ¬ CutFrame 36 (joined chunks) := by
  have shows := unpaused_shows chunks
  constructor
  · intro aligned cut
    have missing := Nat.lt_of_not_le (mt cut.announced.whole_iff.mpr
      (Nat.not_le.mpr cut.length))
    exact not_aligned_of_cut cut
      (aligned _ _ (readDetections_cut shows cut.announced missing))
  · intro intact frame later read
    by_cases announced : Announces 36 (joined chunks)
    · have enough := Nat.le_of_not_lt fun short => intact ⟨announced, short⟩
      have whole := announced.whole_iff.mp enough
      rcases readDetections_whole (F := F) shows announced whole with
        ⟨rest, accepted, restShows⟩
      rw [accepted] at read
      rw [← (Prod.mk.inj read).2]
      exact aligned_of_whole announced whole restShows
    · have refused := readDetections_refused (F := F) shows announced
      rw [read] at refused
      contradiction

theorem tracks_aligned_iff (chunks : List Chunk) :
    (∀ (frame : TracksFrame F) later,
        readTracks (unpaused chunks) = (some frame, later) →
          Aligned 40 (joined chunks) later) ↔
      ¬ CutFrame 40 (joined chunks) := by
  have shows := unpaused_shows chunks
  constructor
  · intro aligned cut
    have missing := Nat.lt_of_not_le (mt cut.announced.whole_iff.mpr
      (Nat.not_le.mpr cut.length))
    exact not_aligned_of_cut cut (aligned _ _ (readTracks_cut shows cut.announced missing))
  · intro intact frame later read
    by_cases announced : Announces 40 (joined chunks)
    · have enough := Nat.le_of_not_lt fun short => intact ⟨announced, short⟩
      have whole := announced.whole_iff.mp enough
      rcases readTracks_whole (F := F) shows announced whole with
        ⟨rest, accepted, restShows⟩
      rw [accepted] at read
      rw [← (Prod.mk.inj read).2]
      exact aligned_of_whole announced whole restShows
    · have refused := readTracks_refused (F := F) shows announced
      rw [read] at refused
      contradiction

theorem events_aligned_iff (stream : List Arrival) :
    (∀ (frame : EventsFrame F) later, recvFrame stream = (.frame frame, later) →
        Aligned 104 (leading stream) later) ↔
      (Receivable (leading stream) →
        prefixOf (leading stream) =
          bodyLength 104 (headerOf (leading stream)).count.toNat) := by
  have shows := shows_self stream
  constructor
  · intro aligned receivable
    rcases recvFrame_receivable (F := F) shows receivable with ⟨rest, accepted, _⟩
    exact (aligned _ _ accepted).agree
  · intro agrees frame later read
    have receivable := receivable_of_frame read
    rcases recvFrame_receivable (F := F) shows receivable with ⟨rest, accepted, restShows⟩
    rw [accepted] at read
    rw [← (Prod.mk.inj read).2]
    exact aligned_of_whole ⟨receivable.headed, agrees receivable⟩ receivable.filled restShows

/-- When the readers take only aligned frames. The services do so unless their
connection ends inside the records of the frame; `recv_frame` does so exactly when
the prefix of every frame it can fill agrees with the count. -/
theorem readers_aligned_iff [FloatMath F] (dataChunks tracksChunks : List Chunk)
    (events : List Arrival) :
    ((∀ (frame : DetectionFrame F) later,
        readDetections (unpaused dataChunks) = (some frame, later) →
          Aligned 36 (joined dataChunks) later) ↔
      ¬ CutFrame 36 (joined dataChunks)) ∧
    ((∀ (frame : TracksFrame F) later,
        readTracks (unpaused tracksChunks) = (some frame, later) →
          Aligned 40 (joined tracksChunks) later) ↔
      ¬ CutFrame 40 (joined tracksChunks)) ∧
    ((∀ (frame : EventsFrame F) later, recvFrame events = (.frame frame, later) →
        Aligned 104 (leading events) later) ↔
      (Receivable (leading events) →
        prefixOf (leading events) =
          bodyLength 104 (headerOf (leading events)).count.toNat)) :=
  ⟨detections_aligned_iff dataChunks, tracks_aligned_iff tracksChunks,
    events_aligned_iff events⟩

namespace Example

/-- The header of a frame with one record. -/
def oneRecord : WireFrameHeader where
  frameId := 1
  timestampUs := 1000
  count := 1
  reserved := .replicate 6 0

/-- A prefix that announces a header only, before a header that counts one record. -/
def understated : List UInt8 :=
  Codec.uint32.encode 24 ++ (WireFrameHeader.codec.encode oneRecord ++ .replicate 104 0)

theorem understated_receivable : Receivable understated where
  headed := by
    simp only [understated, List.length_append, Codec.length_encode]
    omega
  large := by
    rw [understated, prefixOf_encode]
    decide
  filled := by
    rw [understated, headerOf_encode, bodyOf_encode, List.length_replicate]
    decide

end Example

/-- `recv_frame` takes a frame whose prefix leaves no room for its record. -/
theorem recvFrame_misaligned :
    ∃ (frame : EventsFrame Float32) (later : List Arrival),
      recvFrame (unpaused (bytewise Example.understated)) = (.frame frame, later) ∧
      prefixOf Example.understated = 24 ∧ frame.header.count = 1 ∧
      ¬ Aligned 104 (leading (unpaused (bytewise Example.understated))) later := by
  have shows := bytewise_shows Example.understated
  rcases recvFrame_receivable (F := Float32) shows Example.understated_receivable with
    ⟨rest, received, restShows⟩
  have announced : prefixOf Example.understated = 24 := by
    rw [Example.understated, prefixOf_encode]
    rfl
  have counted : headerOf Example.understated = Example.oneRecord := by
    rw [Example.understated, headerOf_encode]
  refine ⟨_, rest, received, announced, by rw [counted]; rfl, ?_⟩
  intro aligned
  have agree := aligned.agree
  rw [shows.leading, announced, counted] at agree
  revert agree
  decide

end KhadasYolo.Dataflow
