import KhadasYolo.Ipc.Frames
import KhadasYolo.Tracker.IouTracker

/-!
# The tracker service

The loops of `bytetrack_service`. The tracker and the downstream consumer survive
a lost data connection; the service connects again and goes on. The data socket
has no receive timeout. A consumer that waits on the tracks socket is accepted
after a frame has been tracked.
-/

namespace KhadasYolo.Tracker

open Ipc ByteStream ByteSink

universe u

/-- The locals of `main` that live across the loops. -/
structure Service (F : Type u) where
  tracker : IouTracker F
  outConn : Option Sink

/-- A frame as the loop hands it to the tracker. -/
structure DetectionFrame (F : Type u) where
  header : WireFrameHeader
  dets : List (TrackerDetection F)

/-- One round of the frame loop: what the tracker was given, what it answered, and
the outputs that went to `send_tracks`, if there was a consumer. -/
structure Handled (F : Type u) where
  header : WireFrameHeader
  dets : List (TrackerDetection F)
  outputs : List (TrackerOutput F)
  offered : List (TrackerOutput F)
  sent : List UInt8

/-- One data connection: its bytes, and who waits on the tracks socket at each of
its frames. -/
structure Connection where
  chunks : List Chunk
  waiting : Nat → Option Sink

section Records

variable {F : Type u}

def TrackerDetection.ofRecord (rec : WireDetectionRecord F) : TrackerDetection F where
  className := rec.className
  confidence := rec.confidence
  left := rec.left
  top := rec.top
  right := rec.right
  bottom := rec.bottom

/-- The record written for an output. -/
def TrackerOutput.record (t : TrackerOutput F) : WireTrackRecord F where
  className := copyName t.det.className
  confidence := t.det.confidence
  left := t.det.left
  top := t.det.top
  right := t.det.right
  bottom := t.det.bottom
  trackId := t.trackId

variable [FloatBits F]

/-- The buffers that `send_tracks` writes. -/
def trackParts (hdrIn : WireFrameHeader) (tracks : List (TrackerOutput F)) :
    List (List UInt8) :=
  frameParts (WireTrackRecord.codec F)
    (UInt32.ofNat (bodyLength (WireTrackRecord.codec F).size tracks.length))
    { hdrIn with count := UInt16.ofNat tracks.length }
    (tracks.map TrackerOutput.record)

/-- Send one tracked frame; the result says whether every `send` succeeded. -/
def sendTracks (sink : Sink) (hdrIn : WireFrameHeader) (tracks : List (TrackerOutput F)) :
    Bool × Sink :=
  sink.writeAll (trackParts hdrIn tracks)

end Records

variable {F : Type u} [FloatMath F] [FloatBits F]

/-- Steps 1 and 2 of the frame loop. The vector of detections gets its size from
the header; the first record that does not arrive ends the record loop and zeroes
the count, and the detections from there on keep their initial values. -/
def readDetections (stream : List Arrival) :
    Option (DetectionFrame F) × List Arrival :=
  match readHeader (WireDetectionRecord.codec F).size stream with
  | (none, later) => (none, later)
  | (some hdr, later) =>
      match readRecords (WireDetectionRecord.codec F) hdr.count.toNat later with
      | (records, last) =>
          let missing := hdr.count.toNat - records.length
          (some
            { header := if missing = 0 then hdr else { hdr with count := 0 }
              dets := records.map .ofRecord ++ .replicate missing .default },
            last)

section Reading

variable {stream later : List Arrival} {bytes : List UInt8}

theorem readDetections_whole (shows : Shows stream bytes later)
    (announced : Announces 36 bytes)
    (whole : (headerOf bytes).count.toNat * 36 ≤ (bodyOf bytes).length) :
    ∃ rest, readDetections stream = (some
        { header := headerOf bytes
          dets := (arrived (WireDetectionRecord.codec F) (headerOf bytes).count.toNat
            (bodyOf bytes)).map .ofRecord }, rest) ∧
      Shows rest ((bodyOf bytes).drop ((headerOf bytes).count.toNat * 36)) later := by
  rcases readHeader_announced shows announced with ⟨middle, headed, middleShows⟩
  rcases readRecords_whole (WireDetectionRecord.codec F) middleShows whole with
    ⟨rest, read, restShows⟩
  have complete := length_arrived_whole (WireDetectionRecord.codec F) whole
  refine ⟨rest, ?_, restShows⟩
  rw [readDetections, WireDetectionRecord.codec_size, headed]
  dsimp only
  rw [read]
  simp [complete]

/-- When the connection ends inside the records, the tracker is still given as many
detections as the header counts. -/
theorem readDetections_cut (shows : Shows stream bytes later)
    (announced : Announces 36 bytes)
    (cut : (bodyOf bytes).length < (headerOf bytes).count.toNat * 36) :
    readDetections (F := F) stream = (some
        { header := { headerOf bytes with count := 0 }
          dets := (arrived (WireDetectionRecord.codec F) (headerOf bytes).count.toNat
              (bodyOf bytes)).map .ofRecord ++
            .replicate ((headerOf bytes).count.toNat -
              (arrived (WireDetectionRecord.codec F) (headerOf bytes).count.toNat
                (bodyOf bytes)).length) .default }, later.tail) := by
  rcases readHeader_announced shows announced with ⟨middle, headed, middleShows⟩
  have missing := length_arrived_cut (WireDetectionRecord.codec F) cut
  rw [readDetections, WireDetectionRecord.codec_size, headed]
  dsimp only
  rw [readRecords_cut (WireDetectionRecord.codec F) middleShows cut]
  dsimp only
  rw [if_neg (by omega)]

theorem readDetections_refused (shows : Shows stream bytes later)
    (refused : ¬ Announces 36 bytes) : (readDetections (F := F) stream).1 = none := by
  have failed := readHeader_refused shows refused
  rw [readDetections, WireDetectionRecord.codec_size]
  split
  next => rfl
  next hdr middle headed =>
    rw [headed] at failed
    contradiction

theorem readDetections_ended (shows : Shows stream [] []) :
    readDetections (F := F) stream = (none, []) := by
  rw [readDetections, readHeader_ended shows]

/-- A frame that was sent with its own count is read back. -/
theorem readDetections_frame {hdr : WireFrameHeader} {records : List (WireDetectionRecord F)}
    {more : List UInt8} (counted : hdr.count.toNat = records.length)
    (shows : Shows stream
      (frameBytes (WireDetectionRecord.codec F) hdr records ++ more) later) :
    ∃ rest, readDetections stream = (some ⟨hdr, records.map .ofRecord⟩, rest) ∧
      Shows rest more later := by
  have fits : bodyLength 36 records.length < 2 ^ 32 := by
    have bound := hdr.count.toNat_lt
    simp only [bodyLength, WireFrameHeader.codec_size]
    omega
  have announced := frameBytes_announces (WireDetectionRecord.codec F) counted fits more
  have header := headerOf_frameBytes (WireDetectionRecord.codec F) hdr records more
  rcases body_frameBytes (WireDetectionRecord.codec F) counted more with
    ⟨filled, same, next⟩
  rcases readDetections_whole (F := F) shows announced (by rw [header]; exact filled) with
    ⟨rest, read, restShows⟩
  rw [header] at read restShows
  exact ⟨rest, by rw [read, same], by rwa [← next]⟩

end Reading

theorem readDetections_progress {stream later : List Arrival} {frame : DetectionFrame F}
    (read : readDetections stream = (some frame, later)) :
    weight later < weight stream := by
  simp only [readDetections] at read
  split at read
  next => cases read
  next hdr middle headed =>
    have before := readHeader_progress headed
    have after := readRecords_weight (WireDetectionRecord.codec F) hdr.count.toNat middle
    rw [← (Prod.mk.inj read).2]
    exact Nat.lt_of_le_of_lt after before

/-- The frame loop on one connection, up to the frame that breaks it. -/
def detectionReader : Reader (DetectionFrame F) where
  next := readDetections
  progress := readDetections_progress

/-- Steps 3 to 5 of the frame loop. -/
def Service.handle (self : Service F) (waiting : Option Sink) (frame : DetectionFrame F) :
    Service F × Handled F :=
  let updated := self.tracker.update frame.header.frameId frame.dets
  let peer := self.outConn <|> waiting
  let written := offer peer (sendTracks · frame.header updated.1)
  ({ tracker := updated.2, outConn := written.1 },
    { header := frame.header
      dets := frame.dets
      outputs := updated.1
      offered := if peer.isSome then updated.1 else []
      sent := written.2 })

/-- The frames of one connection. -/
def Service.handleAll (self : Service F) (waiting : Nat → Option Sink) :
    List (List Arrival × DetectionFrame F) → Service F × List (List UInt8 × Handled F)
  | [] => (self, [])
  | (stream, frame) :: rest =>
      let first := self.handle (waiting 0) frame
      let later := first.1.handleAll (fun position => waiting (position + 1)) rest
      (later.1, (leading stream, first.2) :: later.2)

/-- The reconnect loop: every frame handled, beside the bytes of its connection
from this frame on. -/
def Service.serve (self : Service F) : List Connection → List (List UInt8 × Handled F)
  | [] => []
  | connection :: rest =>
      let served := self.handleAll connection.waiting
        (detectionReader.traced.drain (unpaused connection.chunks)).1
      served.2 ++ served.1.serve rest

/-- The service as it starts. -/
def Service.start : Service F := ⟨.fresh, none⟩

end KhadasYolo.Tracker
