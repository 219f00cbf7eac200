import KhadasYolo.Lib.Codec
import KhadasYolo.Lib.FloatBits
import Mathlib.Data.List.GetD

/-!
# Records of the data planes

The packed structs that the processes exchange, with their fields in wire order,
and their codecs. Float fields range over the format `F`; the byte arrays keep
their C length. Every codec lists the fields of its struct, so that the sizes the
header asserts follow by computation.
-/

namespace KhadasYolo.Ipc

universe u

/-- The bytes of a C string: everything before the first NUL. The publishers
zero the whole array and copy at most fifteen bytes, so one is always there. -/
def cString {size : Nat} (bytes : Vector UInt8 size) : List UInt8 :=
  bytes.toList.takeWhile (· != 0)

/-- Per-track temporal summary, published once per input frame for every active
track. `status` is 0 for tentative, 1 for active and 2 for lost. -/
structure WireTrackSummary (F : Type u) where
  className : Vector UInt8 16
  trackId : UInt32
  framesSeen : UInt32
  firstSeenUs : UInt64
  lastSeenUs : UInt64
  durationMs : UInt32
  visibility : F
  cx : Int32
  cy : Int32
  left : Int32
  top : Int32
  right : Int32
  bottom : Int32
  vx : F
  vy : F
  speed : F
  headingDeg : F
  accel : F
  loiterScore : F
  inRoi : UInt8
  roiEntered : UInt8
  roiExited : UInt8
  status : UInt8

/-- The header of a frame on every plane. `count` is the number of records. -/
@[ext] structure WireFrameHeader where
  frameId : UInt64
  timestampUs : UInt64
  count : UInt16
  reserved : Vector UInt8 6
  deriving DecidableEq, Repr

/-- One detection. -/
@[ext] structure WireDetectionRecord (F : Type u) where
  className : Vector UInt8 16
  confidence : F
  left : Int32
  top : Int32
  right : Int32
  bottom : Int32
  deriving DecidableEq

/-- One tracked detection. `trackId` counts up from 1 in each tracker process; 0
stands for no track. -/
@[ext] structure WireTrackRecord (F : Type u) where
  className : Vector UInt8 16
  confidence : F
  left : Int32
  top : Int32
  right : Int32
  bottom : Int32
  trackId : UInt32
  deriving DecidableEq

/-! ## Names -/

/-- A name in a zeroed array. -/
def paddedName (name : List UInt8) : Vector UInt8 16 :=
  .ofFn fun position => name.getD position 0

/-- `strncpy` of at most fifteen bytes into a zeroed array of sixteen. -/
def copyName (source : Vector UInt8 16) : Vector UInt8 16 :=
  .ofFn fun position => ((cString source).take 15).getD position 0

theorem cString_nonzero {size : Nat} {bytes : Vector UInt8 size} {byte : UInt8}
    (member : byte ∈ cString bytes) : byte ≠ 0 := by
  simpa using List.all_eq_true.mp List.all_takeWhile byte member

/-- A name that ends with a NUL does not fill its array. -/
theorem length_cString_lt {size : Nat} {bytes : Vector UInt8 size} (terminated : 0 ∈ bytes) :
    (cString bytes).length < size := by
  have initial : cString bytes <+: bytes.toList := List.takeWhile_prefix _
  apply Nat.lt_of_le_of_ne (by simpa using initial.length_le)
  intro filled
  have whole := initial.eq_of_length (by rw [filled, Vector.length_toList])
  have among : 0 ∈ cString bytes := by
    rw [whole]
    exact Vector.mem_toList_iff.mpr terminated
  exact absurd rfl (cString_nonzero among)

/-- A C string is found again in a zeroed array that has room for its NUL. -/
theorem cString_padded {size : Nat} {name : List UInt8} (nonzero : ∀ byte ∈ name, byte ≠ 0)
    (room : name.length < size) :
    cString (Vector.ofFn fun position : Fin size => name.getD position 0) = name := by
  have padded : (Vector.ofFn fun position : Fin size => name.getD position 0).toList =
      name ++ List.replicate (size - name.length) 0 := by
    apply List.ext_getElem
    · simp only [Vector.length_toList, List.length_append, List.length_replicate]
      omega
    · intro position inArray inList
      simp only [Vector.getElem_toList, Vector.getElem_ofFn, List.getElem_append,
        List.getElem_replicate]
      split
      next named => exact List.getD_eq_getElem _ _ named
      next rest => exact List.getD_eq_default _ _ (by omega)
  rw [cString, padded, List.takeWhile_append_of_pos, List.takeWhile_replicate]
  · simp
  · intro byte member
    simpa using nonzero byte member

/-- Copying keeps the first fifteen bytes of a name. -/
theorem cString_copyName (source : Vector UInt8 16) :
    cString (copyName source) = (cString source).take 15 := by
  apply cString_padded
  · intro byte member
    exact cString_nonzero (List.mem_of_mem_take member)
  · exact Nat.lt_succ_of_le (List.length_take_le 15 _)

/-- A name that has been copied once is copied whole. -/
theorem copyName_copyName (source : Vector UInt8 16) :
    copyName (copyName source) = copyName source := by
  rw [copyName, cString_copyName, List.take_take, Nat.min_self]
  rfl

/-! ## Byte layout -/

section Layout

open Codec

def WireFrameHeader.codec : Codec WireFrameHeader :=
  (uint64.pair <| uint64.pair <| uint16.pair <| byteArray 6).lift
    (fun hdr => (hdr.frameId, hdr.timestampUs, hdr.count, hdr.reserved))
    (fun (frameId, timestampUs, count, reserved) =>
      { frameId, timestampUs, count, reserved })
    fun _ => rfl

@[simp] theorem WireFrameHeader.codec_size : WireFrameHeader.codec.size = 24 := rfl

variable (F : Type u) [FloatBits F]

/-- A float is sent as its bit pattern. -/
def float : Codec F :=
  uint32.lift FloatBits.toBits FloatBits.ofBits FloatBits.ofBits_toBits

def WireDetectionRecord.codec : Codec (WireDetectionRecord F) :=
  (byteArray 16 |>.pair <| (float F).pair <|
    int32.pair <| int32.pair <| int32.pair int32).lift
    (fun rec => (rec.className, rec.confidence, rec.left, rec.top, rec.right, rec.bottom))
    (fun (className, confidence, left, top, right, bottom) =>
      { className, confidence, left, top, right, bottom })
    fun _ => rfl

@[simp] theorem WireDetectionRecord.codec_size :
    (WireDetectionRecord.codec F).size = 36 := rfl

def WireTrackRecord.codec : Codec (WireTrackRecord F) :=
  (byteArray 16 |>.pair <| (float F).pair <|
    int32.pair <| int32.pair <| int32.pair <| int32.pair uint32).lift
    (fun rec =>
      (rec.className, rec.confidence, rec.left, rec.top, rec.right, rec.bottom, rec.trackId))
    (fun (className, confidence, left, top, right, bottom, trackId) =>
      { className, confidence, left, top, right, bottom, trackId })
    fun _ => rfl

@[simp] theorem WireTrackRecord.codec_size : (WireTrackRecord.codec F).size = 40 := rfl

/-- The summary is followed by four reserved bytes, sent as zeros and not read. -/
def WireTrackSummary.codec : Codec (WireTrackSummary F) :=
  ((byteArray 16 |>.pair <| uint32.pair uint32).pair <|
    (uint64.pair <| uint64.pair <| uint32.pair (float F)).pair <|
    (int32.pair <| int32.pair <| int32.pair <| int32.pair <| int32.pair int32).pair <|
    ((float F).pair <| (float F).pair <| (float F).pair <| (float F).pair <|
      (float F).pair (float F)).pair <|
    (byteArray 4).pair (byteArray 4)).lift
    (fun s =>
      ((s.className, s.trackId, s.framesSeen),
        (s.firstSeenUs, s.lastSeenUs, s.durationMs, s.visibility),
        (s.cx, s.cy, s.left, s.top, s.right, s.bottom),
        (s.vx, s.vy, s.speed, s.headingDeg, s.accel, s.loiterScore),
        #v[s.inRoi, s.roiEntered, s.roiExited, s.status], #v[0, 0, 0, 0]))
    (fun ((className, trackId, framesSeen),
        (firstSeenUs, lastSeenUs, durationMs, visibility),
        (cx, cy, left, top, right, bottom),
        (vx, vy, speed, headingDeg, accel, loiterScore), flags, _) =>
      { className, trackId, framesSeen, firstSeenUs, lastSeenUs, durationMs, visibility,
        cx, cy, left, top, right, bottom, vx, vy, speed, headingDeg, accel, loiterScore,
        inRoi := flags[0]
        roiEntered := flags[1]
        roiExited := flags[2]
        status := flags[3] })
    fun _ => rfl

@[simp] theorem WireTrackSummary.codec_size :
    (WireTrackSummary.codec F).size = 104 := rfl

end Layout

end KhadasYolo.Ipc
