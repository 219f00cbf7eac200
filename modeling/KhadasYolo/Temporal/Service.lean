import KhadasYolo.Ipc.Frames
import KhadasYolo.Temporal.TrackManager

/-!
# The temporal service

The loops of `temporal_service`. The track manager and the downstream consumer
survive a lost tracks connection; the service connects again and goes on. The
tracks socket has no receive timeout. A consumer that waits on the events socket
is accepted after a frame has been folded in.
-/

namespace KhadasYolo.Temporal

open Ipc ByteStream ByteSink

universe u

/-- The locals of `main` that live across the loops. -/
structure Service (F : Type u) where
  mgr : TrackManager F
  outConn : Option Sink

/-- A frame as the loop folds it in. -/
structure TracksFrame (F : Type u) where
  header : WireFrameHeader
  records : List (WireTrackRecord F)

section Read

variable {F : Type u} [FloatBits F]

/-- Read one frame. The first record that does not arrive ends the record loop and
zeroes the count; the records before it have been observed by then. -/
def readTracks (stream : List Arrival) : Option (TracksFrame F) × List Arrival :=
  match readHeader (WireTrackRecord.codec F).size stream with
  | (none, later) => (none, later)
  | (some hdr, later) =>
      match readRecords (WireTrackRecord.codec F) hdr.count.toNat later with
      | (records, last) =>
          (some
            { header := if records.length = hdr.count.toNat then hdr
                else { hdr with count := 0 }
              records := records },
            last)

section Reading

variable {stream later : List Arrival} {bytes : List UInt8}

theorem readTracks_whole (shows : Shows stream bytes later)
    (announced : Announces 40 bytes)
    (whole : (headerOf bytes).count.toNat * 40 ≤ (bodyOf bytes).length) :
    ∃ rest, readTracks stream = (some
        { header := headerOf bytes
          records := arrived (WireTrackRecord.codec F) (headerOf bytes).count.toNat
            (bodyOf bytes) }, rest) ∧
      Shows rest ((bodyOf bytes).drop ((headerOf bytes).count.toNat * 40)) later := by
  rcases readHeader_announced shows announced with ⟨middle, headed, middleShows⟩
  rcases readRecords_whole (WireTrackRecord.codec F) middleShows whole with
    ⟨rest, read, restShows⟩
  have complete := length_arrived_whole (WireTrackRecord.codec F) whole
  refine ⟨rest, ?_, restShows⟩
  rw [readTracks, WireTrackRecord.codec_size, headed]
  dsimp only
  rw [read]
  dsimp only
  rw [if_pos complete]

/-- When the connection ends inside the records, those that arrived have been
observed. -/
theorem readTracks_cut (shows : Shows stream bytes later)
    (announced : Announces 40 bytes)
    (cut : (bodyOf bytes).length < (headerOf bytes).count.toNat * 40) :
    readTracks (F := F) stream = (some
        { header := { headerOf bytes with count := 0 }
          records := arrived (WireTrackRecord.codec F) (headerOf bytes).count.toNat
            (bodyOf bytes) }, later.tail) := by
  rcases readHeader_announced shows announced with ⟨middle, headed, middleShows⟩
  have missing := length_arrived_cut (WireTrackRecord.codec F) cut
  rw [readTracks, WireTrackRecord.codec_size, headed]
  dsimp only
  rw [readRecords_cut (WireTrackRecord.codec F) middleShows cut]
  dsimp only
  rw [if_neg (Nat.ne_of_lt missing)]

theorem readTracks_refused (shows : Shows stream bytes later)
    (refused : ¬ Announces 40 bytes) : (readTracks (F := F) stream).1 = none := by
  have failed := readHeader_refused shows refused
  rw [readTracks, WireTrackRecord.codec_size]
  split
  next => rfl
  next hdr middle headed =>
    rw [headed] at failed
    contradiction

theorem readTracks_ended (shows : Shows stream [] []) :
    readTracks (F := F) stream = (none, []) := by
  rw [readTracks, readHeader_ended shows]

/-- A frame that was sent with its own count is read back. -/
theorem readTracks_frame {hdr : WireFrameHeader} {records : List (WireTrackRecord F)}
    {more : List UInt8} (counted : hdr.count.toNat = records.length)
    (shows : Shows stream
      (frameBytes (WireTrackRecord.codec F) hdr records ++ more) later) :
    ∃ rest, readTracks stream = (some ⟨hdr, records⟩, rest) ∧
      Shows rest more later := by
  have fits : bodyLength 40 records.length < 2 ^ 32 := by
    have bound := hdr.count.toNat_lt
    simp only [bodyLength, WireFrameHeader.codec_size]
    omega
  have announced := frameBytes_announces (WireTrackRecord.codec F) counted fits more
  have header := headerOf_frameBytes (WireTrackRecord.codec F) hdr records more
  rcases body_frameBytes (WireTrackRecord.codec F) counted more with
    ⟨filled, same, next⟩
  rcases readTracks_whole (F := F) shows announced (by rw [header]; exact filled) with
    ⟨rest, read, restShows⟩
  rw [header] at read restShows
  exact ⟨rest, by rw [read, same], by rwa [← next]⟩

end Reading

theorem readTracks_progress {stream later : List Arrival} {frame : TracksFrame F}
    (read : readTracks stream = (some frame, later)) :
    weight later < weight stream := by
  simp only [readTracks] at read
  split at read
  next => cases read
  next hdr middle headed =>
    have before := readHeader_progress headed
    have after := readRecords_weight (WireTrackRecord.codec F) hdr.count.toNat middle
    rw [← (Prod.mk.inj read).2]
    exact Nat.lt_of_le_of_lt after before

/-- The frame loop on one connection, up to the frame that breaks it. -/
def tracksReader : Reader (TracksFrame F) where
  next := readTracks
  progress := readTracks_progress

end Read

variable {F : Type u} [FloatMath F]

/-- The record written for a live track. -/
def fillSummary (s : TrackState F) : WireTrackSummary F where
  className := copyName s.className
  trackId := s.trackId
  framesSeen := s.framesSeen
  firstSeenUs := s.firstSeenUs
  lastSeenUs := s.lastSeenUs
  durationMs := s.durationMs
  visibility := s.visibility
  cx := s.last.cx
  cy := s.last.cy
  left := s.last.left
  top := s.last.top
  right := s.last.right
  bottom := s.last.bottom
  vx := s.vx
  vy := s.vy
  speed := s.speed
  headingDeg := s.headingDeg
  accel := s.accel
  loiterScore := s.loiterScore
  inRoi := if s.inRoi then 1 else 0
  roiEntered := if s.roiEntered then 1 else 0
  roiExited := if s.roiExited then 1 else 0
  status := s.status

variable [FloatBits F]

/-- The buffers that `publish_frame` writes. -/
def summaryParts (hdrIn : WireFrameHeader) (tracks : List (TrackState F)) :
    List (List UInt8) :=
  frameParts (WireTrackSummary.codec F)
    (UInt32.ofNat (bodyLength (WireTrackSummary.codec F).size tracks.length))
    { hdrIn with count := UInt16.ofNat tracks.length }
    (tracks.map fillSummary)

/-- Publish one frame; the result says whether every `send` succeeded. -/
def publishFrame (sink : Sink) (hdrIn : WireFrameHeader) (tracks : List (TrackState F)) :
    Bool × Sink :=
  sink.writeAll (summaryParts hdrIn tracks)

/-- One round of the frame loop, from the header on: the service it leaves and the
bytes it has published. -/
def Service.handle (self : Service F) (order : ViewOrder F) (waiting : Option Sink)
    (frame : TracksFrame F) : Service F × List UInt8 :=
  let mgr := self.mgr.frame frame.records frame.header.timestampUs
  let written := offer (self.outConn <|> waiting)
    (publishFrame · frame.header (order.view mgr.tracks))
  ({ mgr := mgr, outConn := written.1 }, written.2)

/-- The frames of one connection: the service they leave and the bytes published for
each. -/
def Service.handleAll (self : Service F) (orders : Nat → ViewOrder F)
    (waiting : Nat → Option Sink) : List (TracksFrame F) → Service F × List (List UInt8)
  | [] => (self, [])
  | frame :: rest =>
      let first := self.handle (orders 0) (waiting 0) frame
      let later := first.1.handleAll (fun position => orders (position + 1))
        (fun position => waiting (position + 1)) rest
      (later.1, first.2 :: later.2)

/-- The service as it starts. -/
def Service.start (roi : Roi) : Service F := ⟨.fresh roi, none⟩

end KhadasYolo.Temporal
