import KhadasYolo.Tracker.Identity
import KhadasYolo.Tracker.Service

/-!
# Frames cut off on the data socket

The vector of detections is sized before the records are read, and a record that
does not arrive only zeroes the count in the header. The tracker is then given
default detections for the missing records, and their tracks are sent on.
-/

namespace KhadasYolo.Tracker

open Ipc ByteStream ByteSink

universe u

variable {F : Type u} [FloatMath F] [FloatBits F]

/-- The detections of a frame that these bytes hold completely. -/
def received (bytes : List UInt8) : List (TrackerDetection F) :=
  (arrived (WireDetectionRecord.codec F) (headerOf bytes).count.toNat (bodyOf bytes)).map
    .ofRecord

/-- Everything the tracker was given and everything that was sent has arrived. -/
structure Genuine (bytes : List UInt8) (turn : Handled F) : Prop where
  tracked : turn.dets.Sublist (received bytes)
  offered : (turn.offered.map TrackerOutput.det).Sublist (received bytes)
  sent : turn.sent <+: (trackParts turn.header turn.offered).flatten

/-- A frame is handled genuinely when its detections have arrived. -/
theorem handle_genuine_iff (service : Service F) (waiting : Option Sink) (bytes : List UInt8)
    (frame : DetectionFrame F) :
    Genuine bytes (service.handle waiting frame).2 ↔ frame.dets.Sublist (received bytes) := by
  constructor
  · exact fun genuine => genuine.tracked
  · intro tracked
    simp only [Service.handle]
    generalize (service.outConn <|> waiting) = peer
    constructor
    · exact tracked
    · cases peer with
      | none => exact List.nil_sublist _
      | some sink =>
          simp only [Option.isSome_some, if_true]
          rw [update_dets]
          exact tracked
    · cases peer with
      | none => exact List.nil_prefix
      | some sink => exact offer_prefix (some sink) _

/-- On one connection everything is genuine exactly when the stream does not end
inside the records of a frame. -/
theorem handleAll_genuine_iff (service : Service F) (waiting : Nat → Option Sink)
    {stream : List Arrival} (unbroken : trailing stream = []) :
    (∀ turn ∈ (service.handleAll waiting (detectionReader.traced.drain stream).1).2,
        Genuine turn.1 turn.2) ↔
      ¬ CutInRecords 36 (leading stream) := by
  -- Every frame that is read consumes some of the stream.
  induction measure : weight stream using Nat.strong_induction_on
    generalizing service waiting stream with
  | _ _ ih =>
      subst measure
      have shows := shows_self stream
      rw [unbroken] at shows
      by_cases announced : Announces 36 (leading stream)
      · by_cases whole : Codec.uint32.size + prefixOf (leading stream) ≤
            (leading stream).length
        · rcases readDetections_whole (F := F) shows announced
            (announced.whole_iff.mp whole) with ⟨rest, read, restShows⟩
          rw [announced.drop_body] at restShows
          have less := detectionReader.progress read
          rw [detectionReader.traced_drain_some read, Service.handleAll, List.forall_mem_cons,
            ih _ less _ _ restShows.trailing rfl, handle_genuine_iff, restShows.leading,
            cut_iff_of_whole announced whole]
          exact and_iff_right (List.Sublist.refl _)
        · have missing := Nat.lt_of_not_le (mt announced.whole_iff.mpr whole)
          have read := readDetections_cut (F := F) shows announced missing
          rw [detectionReader.traced_drain_some read, Service.handleAll, List.forall_mem_cons,
            handle_genuine_iff]
          apply iff_of_false
          · rintro ⟨genuine, _⟩
            have few := length_arrived_cut (WireDetectionRecord.codec F) missing
            have many := genuine.length_le
            simp only [received, List.length_append, List.length_map,
              List.length_replicate] at many
            omega
          · exact not_not.mpr (cut_of_short announced (Nat.lt_of_not_le whole))
      · have refused := readDetections_refused (F := F) shows announced
        rw [detectionReader.traced_drain_none refused]
        exact iff_of_true nofun (not_cut_of_refused announced)

/-- From any state of the service: no phantom detection is tracked or sent exactly
when no connection ends inside the records of a frame. -/
theorem serve_genuine_iff (service : Service F) (connections : List Connection) :
    (∀ turn ∈ service.serve connections, Genuine turn.1 turn.2) ↔
      ∀ connection ∈ connections, ¬ CutInRecords 36 (joined connection.chunks) := by
  induction connections generalizing service with
  | nil => exact iff_of_true nofun nofun
  | cons connection rest ih =>
      have shows := unpaused_shows connection.chunks
      rw [Service.serve, List.forall_mem_append, List.forall_mem_cons, ih,
        handleAll_genuine_iff _ _ shows.trailing, shows.leading]

namespace Example

/-- The header of a frame with one record. -/
def oneDetection : WireFrameHeader where
  frameId := 1
  timestampUs := 1000
  count := 1
  reserved := .replicate 6 0

/-- A frame that announces one record and ends before it. -/
def cutFrame : List UInt8 :=
  Codec.uint32.encode 60 ++ (WireFrameHeader.codec.encode oneDetection ++ [])

theorem cutFrame_announces : Announces 36 cutFrame where
  complete := by
    simp only [cutFrame, List.length_append, Codec.length_encode]
    omega
  agree := by
    rw [cutFrame, prefixOf_encode, headerOf_encode]
    decide

/-- The connection breaks there, while a consumer waits for tracks. -/
def cutConnection : Connection where
  chunks := bytewise cutFrame
  waiting _ := some (.accepting [])

/-- The turn that handles it. -/
def cutTurn : List UInt8 × Handled Float32 :=
  (cutFrame,
    ((Service.start (F := Float32)).handle (some (.accepting []))
      ⟨{ oneDetection with count := 0 }, [.default]⟩).2)

end Example

/-- A detection that has never been received starts track 1, which is sent. -/
theorem phantom_detection :
    Example.cutTurn ∈ (Service.start (F := Float32)).serve [Example.cutConnection] ∧
      Example.cutTurn.2.offered = [⟨.default, 1⟩] ∧
      received (F := Float32) Example.cutTurn.1 = [] ∧
      ¬ Genuine Example.cutTurn.1 Example.cutTurn.2 := by
  have shows := bytewise_shows Example.cutFrame
  have header : headerOf Example.cutFrame = Example.oneDetection := by
    rw [Example.cutFrame, headerOf_encode]
  have body : bodyOf Example.cutFrame = [] := by
    rw [Example.cutFrame, bodyOf_encode]
  have nothing : received (F := Float32) Example.cutFrame = [] := by
    rw [received, header, body]
    rfl
  have missing : (bodyOf Example.cutFrame).length <
      (headerOf Example.cutFrame).count.toNat * 36 := by
    rw [body, header]
    decide
  have cut := readDetections_cut (F := Float32) shows Example.cutFrame_announces missing
  rw [header, body] at cut
  have read : (detectionReader (F := Float32)).next (unpaused (bytewise Example.cutFrame)) =
      (some ⟨{ Example.oneDetection with count := 0 }, [.default]⟩, []) := cut
  refine ⟨?_, rfl, nothing, ?_⟩
  · rw [Service.serve, Service.serve, List.append_nil, Example.cutConnection,
      detectionReader.traced_drain_some read, Service.handleAll]
    apply List.mem_cons.mpr
    left
    rw [shows.leading]
    rfl
  · intro genuine
    have many := genuine.tracked.length_le
    rw [show Example.cutTurn.1 = Example.cutFrame from rfl, nothing] at many
    exact absurd many (by decide)

end KhadasYolo.Tracker
