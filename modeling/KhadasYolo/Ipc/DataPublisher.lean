import KhadasYolo.Ipc.Frames

/-!
# The detection publisher

`UnixDataPublisher::sendFrame` and the message it serializes. A detection group is
a fixed array with a count; only the counted detections are sent.
-/

namespace KhadasYolo.Ipc

open ByteSink

universe u

structure BoxRect where
  left : Int32
  right : Int32
  top : Int32
  bottom : Int32

/-- One detection of the postprocessing. -/
structure DetectResult (F : Type u) where
  name : Vector UInt8 16
  box : BoxRect
  prop : F

structure DetectResultGroup (F : Type u) where
  count : Nat
  results : Vector (DetectResult F) 64
  count_le : count ≤ 64

structure DetectionMessage (F : Type u) where
  frameId : UInt64
  timestampUs : UInt64
  group : DetectResultGroup F

variable {F : Type u}

/-- The detections that are there. -/
def DetectResultGroup.detections (group : DetectResultGroup F) : List (DetectResult F) :=
  group.results.toList.take group.count

theorem DetectResultGroup.length_detections (group : DetectResultGroup F) :
    group.detections.length = group.count := by
  have bound := group.count_le
  simp only [detections, List.length_take, Vector.length_toList]
  omega

/-- The record written for a detection. -/
def DetectResult.record (src : DetectResult F) : WireDetectionRecord F where
  className := copyName src.name
  confidence := src.prop
  left := src.box.left
  top := src.box.top
  right := src.box.right
  bottom := src.box.bottom

def DetectionMessage.header (msg : DetectionMessage F) : WireFrameHeader where
  frameId := msg.frameId
  timestampUs := msg.timestampUs
  count := UInt16.ofNat msg.group.count
  reserved := .replicate 6 0

theorem DetectionMessage.toNat_count (msg : DetectionMessage F) :
    msg.header.count.toNat = msg.group.count :=
  UInt16.toNat_ofNat_of_lt' (Nat.lt_of_le_of_lt msg.group.count_le (by decide))

variable [FloatBits F]

/-- The buffers that `sendFrame` writes. -/
def detectionParts (msg : DetectionMessage F) : List (List UInt8) :=
  let count := UInt16.ofNat msg.group.count
  frameParts (WireDetectionRecord.codec F)
    (UInt32.ofNat (bodyLength (WireDetectionRecord.codec F).size count.toNat)) msg.header
    (msg.group.detections.map DetectResult.record)

/-- Send one message; the result says whether every `send` succeeded. -/
def sendFrame (sink : Sink) (msg : DetectionMessage F) : Bool × Sink :=
  sink.writeAll (detectionParts msg)

/-- The two sizes of a detection frame agree. -/
theorem detectionParts_flatten (msg : DetectionMessage F) :
    (detectionParts msg).flatten = frameBytes (WireDetectionRecord.codec F) msg.header
      (msg.group.detections.map DetectResult.record) := by
  have count : (UInt16.ofNat msg.group.count).toNat = msg.group.count := msg.toNat_count
  simp only [detectionParts, frameBytes, List.length_map, msg.group.length_detections, count]

end KhadasYolo.Ipc
