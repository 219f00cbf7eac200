import KhadasYolo.Ipc.Wire
import KhadasYolo.Lib.FloatOps

/-!
# The greedy tracker

`IouTracker::update`: detections are matched to the tracks of the same class in
order of decreasing overlap, the others start tracks of their own, and a track
that has not been matched for too long is dropped. Overlaps are floating-point
values of the format `F`.
-/

namespace KhadasYolo.Tracker

open Ipc

universe u

/-- One detection as the tracker sees it. -/
structure TrackerDetection (F : Type u) where
  className : Vector UInt8 16
  confidence : F
  left : Int32
  top : Int32
  right : Int32
  bottom : Int32
  deriving DecidableEq

/-- A detection with the id of its track. -/
structure TrackerOutput (F : Type u) where
  det : TrackerDetection F
  trackId : UInt32
  deriving DecidableEq

structure Track (F : Type u) where
  id : UInt32
  det : TrackerDetection F
  framesUnseen : Nat
  lastSeenFrame : UInt64

/-- The members of `IouTracker`. -/
structure IouTracker (F : Type u) where
  tracks : List (Track F)
  nextId : UInt32

/-- Frames a track can be missed before it is dropped. -/
def kMaxAge : Nat := 30

section Tracker

variable {F : Type u}

/-- `make_tracker`. Id 0 is reserved. -/
def IouTracker.fresh : IouTracker F := ⟨[], 1⟩

variable [FloatMath F]

/-- The member initializers of a detection. -/
def TrackerDetection.default : TrackerDetection F where
  className := .replicate 16 0
  confidence := 0.0
  left := 0
  top := 0
  right := 0
  bottom := 0

def kIouThreshold : F := 0.3

/-- `strncmp` over the whole arrays finds no difference. -/
def sameClass (a b : TrackerDetection F) : Bool := cString a.className == cString b.className

/-- The area of a box with these sides. -/
def area (width height : Int32) : F :=
  FloatMath.ofInt width.toInt * FloatMath.ofInt height.toInt

def iou (a b : TrackerDetection F) : F :=
  let xL := max a.left b.left
  let yT := max a.top b.top
  let xR := min a.right b.right
  let yB := min a.bottom b.bottom
  if xR ≤ xL || yB ≤ yT then 0.0
  else
    let inter : F := area (xR - xL) (yB - yT)
    let areaA : F := area (a.right - a.left) (a.bottom - a.top)
    let areaB : F := area (b.right - b.left) (b.bottom - b.top)
    let uni := areaA + areaB - inter
    if FloatOps.less 0.0 uni then inter / uni else 0.0

/-! ## Matching -/

/-- The two arrays of `update`: the track of each detection, and the tracks in
use. -/
structure Matching where
  detToTrack : List (Option Nat)
  trackUsed : List Bool

/-- The best pair found so far. -/
structure Best (F : Type u) where
  iou : F
  pair : Option (Nat × Nat)

/-- The body of the two inner loops. -/
def considerPair (dets : List (TrackerDetection F)) (tracks : List (Track F))
    (m : Matching) (d : Nat) (best : Best F) (t : Nat) : Best F :=
  if m.trackUsed.getD t true then best
  else
    match dets[d]?, tracks[t]? with
    | some det, some track =>
        if !sameClass det track.det then best
        else
          let v := iou det track.det
          if FloatOps.less best.iou v then ⟨v, some (d, t)⟩ else best
    | _, _ => best

/-- One search for the unmatched pair with the largest overlap above the
threshold. -/
def bestPair (dets : List (TrackerDetection F)) (tracks : List (Track F))
    (m : Matching) : Best F :=
  (List.range dets.length).foldl
    (fun best d =>
      if (m.detToTrack.getD d none).isSome then best
      else (List.range tracks.length).foldl (considerPair dets tracks m d) best)
    ⟨kIouThreshold, none⟩

/-- The matching loop. Every round but the last matches a detection. -/
def matchRounds (dets : List (TrackerDetection F)) (tracks : List (Track F)) :
    Nat → Matching → Matching
  | 0, m => m
  | rounds + 1, m =>
      match (bestPair dets tracks m).pair with
      | none => m
      | some (d, t) =>
          matchRounds dets tracks rounds
            { detToTrack := m.detToTrack.set d (some t)
              trackUsed := m.trackUsed.set t true }

def greedyMatch (dets : List (TrackerDetection F)) (tracks : List (Track F)) : Matching :=
  matchRounds dets tracks dets.length
    { detToTrack := .replicate dets.length none
      trackUsed := .replicate tracks.length false }

/-! ## One frame -/

/-- The tracks and the outputs while `update` goes through the detections. -/
structure Updating (F : Type u) where
  tracks : List (Track F)
  nextId : UInt32
  outputs : List (TrackerOutput F)

/-- One detection updates its track or starts one. -/
def placeDetection (frameId : UInt64) (u : Updating F)
    (entry : TrackerDetection F × Option Nat) : Updating F :=
  match entry with
  | (det, some t) =>
      match u.tracks[t]? with
      | some tr =>
          { tracks := u.tracks.set t
              { id := tr.id, det := det, framesUnseen := 0, lastSeenFrame := frameId }
            nextId := u.nextId
            outputs := u.outputs ++ [⟨det, tr.id⟩] }
      | none => u
  | (det, none) =>
      { tracks := u.tracks ++
          [{ id := u.nextId, det := det, framesUnseen := 0, lastSeenFrame := frameId }]
        nextId := u.nextId + 1
        outputs := u.outputs ++ [⟨det, u.nextId⟩] }

/-- The tracks that were there before the frame and have not been matched get
older. -/
def ageTracks (used : List Bool) (tracks : List (Track F)) : List (Track F) :=
  tracks.mapIdx fun t tr =>
    if used.getD t true then tr else { tr with framesUnseen := tr.framesUnseen + 1 }

/-- `IouTracker::update`. -/
def IouTracker.update (self : IouTracker F) (frameId : UInt64)
    (dets : List (TrackerDetection F)) : List (TrackerOutput F) × IouTracker F :=
  let m := greedyMatch dets self.tracks
  let u := (dets.zip m.detToTrack).foldl (placeDetection frameId)
    { tracks := self.tracks, nextId := self.nextId, outputs := [] }
  (u.outputs,
    { tracks := (ageTracks m.trackUsed u.tracks).filter (·.framesUnseen ≤ kMaxAge)
      nextId := u.nextId })

end Tracker

end KhadasYolo.Tracker
