import KhadasYolo.Ipc.DataPublisher
import KhadasYolo.Summarizer.Receive
import KhadasYolo.Temporal.Service
import KhadasYolo.Tracker.Service

/-!
# Round trips on the three data planes

Whatever a publisher sends, its consumer decodes: the frames one after the other,
however the sends are accepted and however the reads are cut. The relations of
this module say what must be preserved, field by field, independently of either
side's code.
-/

namespace KhadasYolo.Dataflow

open Ipc ByteStream ByteSink Tracker Temporal Summarizer

universe u

/-! ## What is preserved -/

/-- A name arrives up to its first NUL and at most fifteen bytes long. -/
def SameName (sent received : Vector UInt8 16) : Prop :=
  cString received = (cString sent).take 15

section Relations

variable {F : Type u}

structure SameDetection (src : DetectResult F) (det : TrackerDetection F) : Prop where
  name : SameName src.name det.className
  confidence : det.confidence = src.prop
  left : det.left = src.box.left
  top : det.top = src.box.top
  right : det.right = src.box.right
  bottom : det.bottom = src.box.bottom

structure SameDetections (msg : DetectionMessage F) (frame : DetectionFrame F) :
    Prop where
  frameId : frame.header.frameId = msg.frameId
  timestampUs : frame.header.timestampUs = msg.timestampUs
  count : frame.header.count.toNat = msg.group.count
  records : List.Forall₂ SameDetection msg.group.detections frame.dets

structure SameTrack (t : TrackerOutput F) (rec : WireTrackRecord F) : Prop where
  name : SameName t.det.className rec.className
  confidence : rec.confidence = t.det.confidence
  left : rec.left = t.det.left
  top : rec.top = t.det.top
  right : rec.right = t.det.right
  bottom : rec.bottom = t.det.bottom
  trackId : rec.trackId = t.trackId

/-- The arguments of one `send_tracks`. -/
structure TrackedFrame (F : Type u) where
  header : WireFrameHeader
  tracks : List (TrackerOutput F)
  bounded : tracks.length ≤ 65535

structure SameTracks (sent : TrackedFrame F) (frame : TracksFrame F) : Prop where
  frameId : frame.header.frameId = sent.header.frameId
  timestampUs : frame.header.timestampUs = sent.header.timestampUs
  count : frame.header.count.toNat = sent.tracks.length
  records : List.Forall₂ SameTrack sent.tracks frame.records

/-- The arguments of one `publish_frame`. -/
structure SummaryFrame (F : Type u) where
  header : WireFrameHeader
  tracks : List (TrackState F)
  bounded : tracks.length ≤ 65535

variable [FloatMath F]

/-- The frame as a reader of the events plane should get it. -/
def SummaryFrame.received (sent : SummaryFrame F) : EventsFrame F where
  header := { sent.header with count := UInt16.ofNat sent.tracks.length }
  records := sent.tracks.map fillSummary

structure SameSummary (s : TrackState F) (rec : WireTrackSummary F) : Prop where
  name : SameName s.className rec.className
  trackId : rec.trackId = s.trackId
  framesSeen : rec.framesSeen = s.framesSeen
  firstSeenUs : rec.firstSeenUs = s.firstSeenUs
  lastSeenUs : rec.lastSeenUs = s.lastSeenUs
  durationMs : rec.durationMs = s.durationMs
  visibility : rec.visibility = s.visibility
  cx : rec.cx = s.last.cx
  cy : rec.cy = s.last.cy
  left : rec.left = s.last.left
  top : rec.top = s.last.top
  right : rec.right = s.last.right
  bottom : rec.bottom = s.last.bottom
  vx : rec.vx = s.vx
  vy : rec.vy = s.vy
  speed : rec.speed = s.speed
  headingDeg : rec.headingDeg = s.headingDeg
  accel : rec.accel = s.accel
  loiterScore : rec.loiterScore = s.loiterScore
  inRoi : rec.inRoi = s.inRoi.toUInt8
  roiEntered : rec.roiEntered = s.roiEntered.toUInt8
  roiExited : rec.roiExited = s.roiExited.toUInt8
  status : rec.status = s.status

structure SameSummaries (sent : SummaryFrame F) (frame : EventsFrame F) : Prop where
  frameId : frame.header.frameId = sent.header.frameId
  timestampUs : frame.header.timestampUs = sent.header.timestampUs
  count : frame.header.count.toNat = sent.tracks.length
  records : List.Forall₂ SameSummary sent.tracks frame.records

end Relations

/-! ## One plane -/

/-- A publisher and a consumer agree when every message that the one writes is
decoded by the other from the front of its bytes. -/
theorem plane_round_trip {μ φ : Type u} {Same : μ → φ → Prop} (reader : Reader φ)
    (write : Sink → μ → Bool × Sink) (parts : μ → List (List UInt8)) (decoded : μ → φ)
    (writes : ∀ sink message, write sink message = sink.writeAll (parts message))
    (decodes : ∀ message stream more later,
      Shows stream ((parts message).flatten ++ more) later →
        ∃ rest, reader.next stream = (some (decoded message), rest) ∧ Shows rest more later)
    (ends : ∀ stream, Shows stream [] [] → reader.next stream = (none, []))
    (same : ∀ message, Same message (decoded message)) (messages : List μ)
    (sends : List Nat) {chunks : List Chunk}
    (carried : joined chunks = (sendEach write (.accepting sends) messages).2.sent) :
    (sendEach write (.accepting sends) messages).1 = true ∧
      ∃ frames, reader.drain (unpaused chunks) = (frames, []) ∧
        List.Forall₂ Same messages frames := by
  have parted : write = fun sink message => sink.writeAll (parts message) :=
    funext fun sink => funext (writes sink)
  subst parted
  have effect := sendEach_effect parts (.accepting sends) messages
  have succeeded := (effect.willing (Sink.willing_accepting sends)).1
  have sent := effect.whole succeeded
  refine ⟨succeeded, messages.map decoded, ?_, ?_⟩
  · have shows := unpaused_shows chunks
    rw [carried, sent, Sink.accepting, List.nil_append, ← List.append_nil (List.flatten _)]
      at shows
    exact reader.drain_messages _ decoded (fun message _ => decodes message) ends shows
  · rw [List.forall₂_map_right_iff]
    exact List.forall₂_same.mpr fun message _ => same message

/-! ## The three planes -/

section Counts

variable {F : Type u}

theorem TrackedFrame.toNat_count (frame : TrackedFrame F) :
    (UInt16.ofNat frame.tracks.length).toNat = frame.tracks.length :=
  UInt16.toNat_ofNat_of_lt' (Nat.lt_succ_of_le frame.bounded)

theorem SummaryFrame.toNat_count (frame : SummaryFrame F) :
    (UInt16.ofNat frame.tracks.length).toNat = frame.tracks.length :=
  UInt16.toNat_ofNat_of_lt' (Nat.lt_succ_of_le frame.bounded)

end Counts

variable {F : Type u} [FloatMath F] [FloatBits F]

theorem detections_round_trip (messages : List (DetectionMessage F)) (sends : List Nat)
    {chunks : List Chunk}
    (carried : joined chunks = (sendEach sendFrame (.accepting sends) messages).2.sent) :
    (sendEach sendFrame (.accepting sends) messages).1 = true ∧
      ∃ frames, detectionReader.drain (unpaused chunks) = (frames, []) ∧
        List.Forall₂ SameDetections messages frames := by
  refine plane_round_trip detectionReader sendFrame detectionParts
    (fun msg => ⟨msg.header, (msg.group.detections.map DetectResult.record).map .ofRecord⟩)
    (fun _ _ => rfl) ?_ (fun _ => readDetections_ended) ?_ messages sends carried
  · intro msg stream more later shows
    rw [detectionParts_flatten] at shows
    apply readDetections_frame _ shows
    rw [msg.toNat_count, List.length_map, msg.group.length_detections]
  · intro msg
    refine ⟨rfl, rfl, msg.toNat_count, ?_⟩
    rw [List.map_map, List.forall₂_map_right_iff]
    exact List.forall₂_same.mpr fun src _ =>
      ⟨cString_copyName src.name, rfl, rfl, rfl, rfl, rfl⟩

/-- The bytes of a frame on the events plane. -/
def SummaryFrame.bytes (frame : SummaryFrame F) : List UInt8 :=
  (summaryParts frame.header frame.tracks).flatten

omit [FloatBits F] in
theorem SummaryFrame.counted (frame : SummaryFrame F) :
    frame.received.header.count.toNat = frame.received.records.length := by
  simp only [received, List.length_map, frame.toNat_count]

theorem SummaryFrame.bytes_eq (frame : SummaryFrame F) :
    frame.bytes = frameBytes (WireTrackSummary.codec F) frame.received.header
      frame.received.records := by
  simp only [bytes, summaryParts, frameBytes, received, List.length_map]

omit [FloatMath F] in
def TrackedFrame.send (sink : Sink) (frame : TrackedFrame F) : Bool × Sink :=
  sendTracks sink frame.header frame.tracks

omit [FloatMath F] in
theorem tracks_round_trip (sent : List (TrackedFrame F)) (sends : List Nat)
    {chunks : List Chunk}
    (carried : joined chunks = (sendEach TrackedFrame.send (.accepting sends) sent).2.sent) :
    (sendEach TrackedFrame.send (.accepting sends) sent).1 = true ∧
      ∃ frames, tracksReader.drain (unpaused chunks) = (frames, []) ∧
        List.Forall₂ SameTracks sent frames := by
  refine plane_round_trip tracksReader TrackedFrame.send
    (fun frame => trackParts frame.header frame.tracks)
    (fun frame =>
      ⟨{ frame.header with count := UInt16.ofNat frame.tracks.length },
        frame.tracks.map TrackerOutput.record⟩)
    (fun _ _ => rfl) ?_ (fun _ => readTracks_ended) ?_ sent sends carried
  · intro frame stream more later shows
    refine readTracks_frame ?_ ?_
    · rw [frame.toNat_count, List.length_map]
    · simpa only [trackParts, frameBytes, List.length_map] using shows
  · intro frame
    refine ⟨rfl, rfl, frame.toNat_count, ?_⟩
    rw [List.forall₂_map_right_iff]
    exact List.forall₂_same.mpr fun t _ =>
      ⟨cString_copyName t.det.className, rfl, rfl, rfl, rfl, rfl, rfl⟩

def SummaryFrame.send (sink : Sink) (frame : SummaryFrame F) : Bool × Sink :=
  publishFrame sink frame.header frame.tracks

/-- On the last plane every call of `recv_frame` returns a frame. -/
def SameReceived (sent : SummaryFrame F) (received : Received F) : Prop :=
  ∃ frame, received = .frame frame ∧ SameSummaries sent frame

theorem summaries_round_trip (sent : List (SummaryFrame F)) (sends : List Nat)
    {chunks : List Chunk}
    (carried : joined chunks = (sendEach SummaryFrame.send (.accepting sends) sent).2.sent) :
    (sendEach SummaryFrame.send (.accepting sends) sent).1 = true ∧
      ∃ frames, eventsReader.drain (unpaused chunks) = (frames, []) ∧
        List.Forall₂ SameReceived sent frames := by
  refine plane_round_trip eventsReader SummaryFrame.send
    (fun frame => summaryParts frame.header frame.tracks)
    (fun frame => .frame frame.received)
    (fun _ _ => rfl) ?_ ?_ ?_ sent sends carried
  · intro frame stream more later shows
    have written : Shows stream (frame.bytes ++ more) later := shows
    rw [frame.bytes_eq] at written
    rcases recvFrame_frame frame.counted written with ⟨rest, read, restShows⟩
    exact ⟨rest, by simp only [eventsReader, read], restShows⟩
  · intro stream shows
    simp only [eventsReader, recvFrame_closed shows]
  · intro frame
    refine ⟨_, rfl, rfl, rfl, frame.toNat_count, ?_⟩
    rw [SummaryFrame.received, List.forall₂_map_right_iff]
    exact List.forall₂_same.mpr fun s _ =>
      ⟨cString_copyName s.className, rfl, rfl, rfl, rfl, rfl, rfl, rfl, rfl, rfl, rfl, rfl,
        rfl, rfl, rfl, rfl, rfl, rfl, rfl, rfl, rfl, rfl, rfl⟩

/-- Whatever is sent on a plane is accepted whole and decoded frame by frame, and
nothing is left over. -/
theorem data_planes_round_trip (messages : List (DetectionMessage F))
    (tracked : List (TrackedFrame F)) (summaries : List (SummaryFrame F))
    (dataSends tracksSends eventsSends : List Nat)
    {dataChunks tracksChunks eventsChunks : List Chunk}
    (dataCarried : joined dataChunks =
      (sendEach sendFrame (.accepting dataSends) messages).2.sent)
    (tracksCarried : joined tracksChunks =
      (sendEach TrackedFrame.send (.accepting tracksSends) tracked).2.sent)
    (eventsCarried : joined eventsChunks =
      (sendEach SummaryFrame.send (.accepting eventsSends) summaries).2.sent) :
    ((sendEach sendFrame (.accepting dataSends) messages).1 = true ∧
      ∃ frames, detectionReader.drain (unpaused dataChunks) = (frames, []) ∧
        List.Forall₂ SameDetections messages frames) ∧
    ((sendEach TrackedFrame.send (.accepting tracksSends) tracked).1 = true ∧
      ∃ frames, tracksReader.drain (unpaused tracksChunks) = (frames, []) ∧
        List.Forall₂ SameTracks tracked frames) ∧
    ((sendEach SummaryFrame.send (.accepting eventsSends) summaries).1 = true ∧
      ∃ frames, eventsReader.drain (unpaused eventsChunks) = (frames, []) ∧
        List.Forall₂ SameReceived summaries frames) :=
  ⟨detections_round_trip messages dataSends dataCarried,
    tracks_round_trip tracked tracksSends tracksCarried,
    summaries_round_trip summaries eventsSends eventsCarried⟩

namespace Example

/-- A detection of a class whose name fills its array up to the NUL. -/
def message : DetectionMessage Float32 where
  frameId := 7
  timestampUs := 1000
  group :=
    { count := 1
      results := .replicate 64
        { name := #v[65, 66, 67, 68, 69, 70, 71, 72, 73, 74, 75, 76, 77, 78, 79, 0]
          box := { left := -1, right := 20, top := 2, bottom := 30 }
          prop := 1 }
      count_le := by decide }

/-- A frame with two detections. -/
def crowd : DetectionMessage Float32 where
  frameId := 8
  timestampUs := 2000
  group := { count := 2, results := message.group.results, count_le := by decide }

def tracked : TrackedFrame Float32 where
  header := message.header
  tracks :=
    [{ det :=
        { className := paddedName [85, 65, 86]
          confidence := 1
          left := -1
          top := 2
          right := 20
          bottom := 30 }
       trackId := 3 }]
  bounded := by decide

/-- A frame without tracks. -/
def deserted : TrackedFrame Float32 where
  header := crowd.header
  tracks := []
  bounded := by decide

def summary : SummaryFrame Float32 where
  header := message.header
  tracks := [.create 3 (.replicate 16 65) 1000]
  bounded := by simp

/-- A frame with two summaries. -/
def busy : SummaryFrame Float32 where
  header := crowd.header
  tracks := [.create 3 (.replicate 16 65) 1000, .create 4 (.replicate 16 66) 2000]
  bounded := by simp

end Example

/-- Two frames of different lengths on every plane, sent in pieces and read byte by byte. -/
theorem data_planes_round_trip_bytewise :
    (∃ first second, detectionReader.drain (unpaused (bytewise
        (sendEach sendFrame (.accepting [0, 0]) [Example.message, Example.crowd]).2.sent)) =
          ([first, second], []) ∧
      SameDetections Example.message first ∧ SameDetections Example.crowd second) ∧
    (∃ first second, tracksReader.drain (unpaused (bytewise
        (sendEach TrackedFrame.send (.accepting [0, 2]) [Example.tracked,
          Example.deserted]).2.sent)) =
          ([first, second], []) ∧
      SameTracks Example.tracked first ∧ SameTracks Example.deserted second) ∧
    (∃ first second, eventsReader.drain (unpaused (bytewise
        (sendEach SummaryFrame.send (.accepting [1]) [Example.summary, Example.busy]).2.sent)) =
          ([first, second], []) ∧
      SameReceived Example.summary first ∧ SameReceived Example.busy second) := by
  rcases data_planes_round_trip [Example.message, Example.crowd]
    [Example.tracked, Example.deserted] [Example.summary, Example.busy]
    [0, 0] [0, 2] [1] (joined_bytewise _) (joined_bytewise _) (joined_bytewise _) with
    ⟨⟨_, _, dataRead, dataSame⟩, ⟨_, _, tracksRead, tracksSame⟩,
      ⟨_, _, eventsRead, eventsSame⟩⟩
  refine ⟨?_, ?_, ?_⟩
  · rcases dataSame with _ | ⟨first, _ | ⟨second, _ | _⟩⟩
    exact ⟨_, _, dataRead, first, second⟩
  · rcases tracksSame with _ | ⟨first, _ | ⟨second, _ | _⟩⟩
    exact ⟨_, _, tracksRead, first, second⟩
  · rcases eventsSame with _ | ⟨first, _ | ⟨second, _ | _⟩⟩
    exact ⟨_, _, eventsRead, first, second⟩

end KhadasYolo.Dataflow
