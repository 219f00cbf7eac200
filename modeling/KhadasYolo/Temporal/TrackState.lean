import KhadasYolo.Ipc.Wire
import KhadasYolo.Lib.FloatOps

/-!
# Temporal state of one track

The features `temporal_service` derives from the observations of one track:
velocity, acceleration, loiter score and region events, with the counters behind
visibility and status.
-/

namespace KhadasYolo.Temporal

open Ipc

universe u

structure Observation where
  timestampUs : UInt64
  cx : Int32
  cy : Int32
  left : Int32
  top : Int32
  right : Int32
  bottom : Int32
  deriving DecidableEq, Repr

structure Roi where
  left : Int32
  top : Int32
  right : Int32
  bottom : Int32
  enabled : Bool
  deriving DecidableEq, Repr

/-- No region configured. -/
def Roi.disabled : Roi := ⟨0, 0, 0, 0, false⟩

def Roi.contains (roi : Roi) (x y : Int32) : Bool :=
  roi.enabled && (x ≥ roi.left && x < roi.right && y ≥ roi.top && y < roi.bottom)

def kHistoryMax : Nat := 16

def kLoiterRadius : Nat := 25

def kTentativeFrames : UInt32 := 3

/-- The members of `TrackState`. -/
structure TrackState (F : Type u) where
  trackId : UInt32
  className : Vector UInt8 16
  firstSeenUs : UInt64
  lastSeenUs : UInt64
  framesSeen : UInt32
  framesSinceFirst : UInt32
  framesMissed : UInt32
  last : Observation
  history : List Observation
  vx : F
  vy : F
  prevSpeed : F
  accel : F
  loiterScore : F
  inRoi : Bool
  prevInRoi : Bool
  roiEntered : Bool
  roiExited : Bool

namespace TrackState

variable {F : Type u}

/-- 0 tentative, 1 active, 2 lost. -/
def status (s : TrackState F) : UInt8 :=
  if s.framesMissed > 0 then 2
  else if s.framesSeen < kTentativeFrames then 0
  else 1

def durationMs (s : TrackState F) : UInt32 :=
  if s.lastSeenUs ≤ s.firstSeenUs then 0
  else ((s.lastSeenUs - s.firstSeenUs) / 1000).toUInt32

/-- The track was not seen in the current frame. -/
def markMissed (s : TrackState F) : TrackState F :=
  { s with
    framesMissed := s.framesMissed + 1
    framesSinceFirst := s.framesSinceFirst + 1
    roiEntered := false
    roiExited := false }

variable [FloatMath F]

/-- `TrackState::TrackState`. -/
def create (trackId : UInt32) (className : Vector UInt8 16) (firstSeenUs : UInt64) :
    TrackState F where
  trackId := trackId
  className := copyName className
  firstSeenUs := firstSeenUs
  lastSeenUs := 0
  framesSeen := 0
  framesSinceFirst := 0
  framesMissed := 0
  last := ⟨0, 0, 0, 0, 0, 0, 0⟩
  history := []
  vx := 0.0
  vy := 0.0
  prevSpeed := 0.0
  accel := 0.0
  loiterScore := 0.0
  inRoi := false
  prevInRoi := false
  roiEntered := false
  roiExited := false

def visibility (s : TrackState F) : F :=
  if s.framesSinceFirst == 0 then 0.0
  else FloatOps.ofNat s.framesSeen.toNat / FloatOps.ofNat s.framesSinceFirst.toNat

def speed (s : TrackState F) : F := FloatMath.sqrt (s.vx * s.vx + s.vy * s.vy)

def headingDeg (s : TrackState F) : F :=
  if FloatOps.less (FloatMath.abs s.vx) 1e-3 && FloatOps.less (FloatMath.abs s.vy) 1e-3 then
    0.0
  else FloatMath.atan2 s.vy s.vx * 180.0 / 3.14159265358979323846

/-- Seconds between two readings; the difference is unsigned. -/
def seconds (later earlier : UInt64) : F := FloatOps.ofNat (later - earlier).toNat * 1e-6

/-- The smoothed velocity after an observation that is not the first. -/
def smoothed (velocity : F) (now before : Int32) (dt : F) : F :=
  0.5 * (FloatMath.ofInt (now - before).toInt / dt) + (1.0 - 0.5) * velocity

/-- How far the centroids of the history are apart, along the longer axis. -/
def spread (history : List Observation) : Int32 :=
  match history with
  | [] => 0
  | front :: _ =>
      let xmin := history.foldl (fun held h => min held h.cx) front.cx
      let xmax := history.foldl (fun held h => max held h.cx) front.cx
      let ymin := history.foldl (fun held h => min held h.cy) front.cy
      let ymax := history.foldl (fun held h => max held h.cy) front.cy
      max (xmax - xmin) (ymax - ymin)

/-- Low spread of the recent centroids means loitering. -/
def loiter (history : List Observation) : F :=
  if history.length ≥ 4 then
    let ratio : F := FloatMath.ofInt (spread history).toInt / FloatOps.ofNat kLoiterRadius
    FloatOps.raise 0.0 (FloatOps.lower 1.0 (1.0 - ratio))
  else 0.0

/-- The ring of recent observations. -/
def remember (history : List Observation) (obs : Observation) : List Observation :=
  let longer := history ++ [obs]
  if longer.length > kHistoryMax then longer.tail else longer

/-- `TrackState::update`. -/
def update (s : TrackState F) (obs : Observation) (roi : Roi) : TrackState F :=
  let first := s.framesSeen == 0
  let dt : F := seconds obs.timestampUs s.last.timestampUs
  let moved := !first && FloatOps.less 1e-4 dt
  let vx := if moved then smoothed s.vx obs.cx s.last.cx dt else s.vx
  let vy := if moved then smoothed s.vy obs.cy s.last.cy dt else s.vy
  let curSpeed := FloatMath.sqrt (vx * vx + vy * vy)
  let history := remember s.history obs
  let inRoi := roi.contains obs.cx obs.cy
  { trackId := s.trackId
    className := s.className
    firstSeenUs := s.firstSeenUs
    lastSeenUs := obs.timestampUs
    framesSeen := s.framesSeen + 1
    framesSinceFirst := s.framesSinceFirst + 1
    framesMissed := 0
    last := obs
    history := history
    vx := vx
    vy := vy
    prevSpeed := curSpeed
    accel :=
      if !first && obs.timestampUs > s.last.timestampUs then
        if FloatOps.less 1e-4 dt then (curSpeed - s.prevSpeed) / dt else 0.0
      else s.accel
    loiterScore := loiter history
    inRoi := inRoi
    prevInRoi := s.inRoi
    roiEntered := inRoi && !s.inRoi
    roiExited := !inRoi && s.inRoi }

end TrackState

end KhadasYolo.Temporal
