import KhadasYolo.Temporal.Runs
import KhadasYolo.Temporal.Velocity
import KhadasYolo.Tracker.Runs
import KhadasYolo.Tracker.Service

/-!
# Box arithmetic

The services take the coordinates of a box as they come and calculate with them in 32
bits. The tracker subtracts coordinates of two boxes that overlap, the track manager adds
the opposite sides of a box, and the spread of a track is a difference of centroids. A
centroid is half of a 32-bit number, so that no two of them are too far apart. Sides and
sums can be too large.
-/

namespace KhadasYolo.Dataflow

open Ipc ByteStream Tracker Temporal TrackManager

universe u

variable {F : Type u}

/-! ## Two boxes -/

section Boxes

/-- The subtractions of `iou`, before anything is dropped. -/
def iouDifferences (a b : TrackerDetection F) : List Int :=
  let xL := max a.left b.left
  let yT := max a.top b.top
  let xR := min a.right b.right
  let yB := min a.bottom b.bottom
  if xR ≤ xL || yB ≤ yT then []
  else
    [xR.toInt - xL.toInt, yB.toInt - yT.toInt,
      a.right.toInt - a.left.toInt, a.bottom.toInt - a.top.toInt,
      b.right.toInt - b.left.toInt, b.bottom.toInt - b.top.toInt]

/-- Two boxes have an area in common. -/
structure Overlap (a b : TrackerDetection F) : Prop where
  across : max a.left.toInt b.left.toInt < min a.right.toInt b.right.toInt
  down : max a.top.toInt b.top.toInt < min a.bottom.toInt b.bottom.toInt

/-- An `int` can hold the width and the height of a box. -/
structure SidesFit (det : TrackerDetection F) : Prop where
  width : Fits (det.right.toInt - det.left.toInt)
  height : Fits (det.bottom.toInt - det.top.toInt)

variable {a b : TrackerDetection F}

theorem overlap_iff : Overlap a b ↔
    ¬ (min a.right b.right ≤ max a.left b.left || min a.bottom b.bottom ≤ max a.top b.top) := by
  simp only [Bool.or_eq_true, decide_eq_true_eq, Int32.le_iff_toInt_le, toInt_min, toInt_max,
    not_or, not_le]
  constructor
  · exact fun overlap => ⟨overlap.across, overlap.down⟩
  · exact fun both => ⟨both.1, both.2⟩

/-- Boxes without a common area are told apart by comparisons only. -/
theorem iouDifferences_apart (apart : ¬ Overlap a b) : iouDifferences a b = [] := by
  rw [overlap_iff, not_not] at apart
  exact if_pos apart

theorem iouDifferences_overlap (overlap : Overlap a b) : iouDifferences a b =
    [min a.right.toInt b.right.toInt - max a.left.toInt b.left.toInt,
      min a.bottom.toInt b.bottom.toInt - max a.top.toInt b.top.toInt,
      a.right.toInt - a.left.toInt, a.bottom.toInt - a.top.toInt,
      b.right.toInt - b.left.toInt, b.bottom.toInt - b.top.toInt] := by
  simp only [← toInt_min, ← toInt_max]
  exact if_neg (overlap_iff.mp overlap)

/-- The subtractions of `iou` fit when the sides of both boxes do. -/
theorem iouDifferences_fit_iff :
    (∀ difference ∈ iouDifferences a b, Fits difference) ↔
      (Overlap a b → SidesFit a ∧ SidesFit b) := by
  by_cases overlap : Overlap a b
  · rw [iouDifferences_overlap overlap]
    simp only [List.forall_mem_cons, List.not_mem_nil, false_implies, forall_const, and_true]
    constructor
    · rintro ⟨_, _, widthA, heightA, widthB, heightB⟩ _
      exact ⟨⟨widthA, heightA⟩, widthB, heightB⟩
    · intro fit
      rcases fit overlap with ⟨⟨widthA, heightA⟩, widthB, heightB⟩
      -- The common area is inside the first box.
      have inside : Fits (min a.right.toInt b.right.toInt - max a.left.toInt b.left.toInt) ∧
          Fits (min a.bottom.toInt b.bottom.toInt - max a.top.toInt b.top.toInt) := by
        have across := overlap.across
        have down := overlap.down
        simp only [Fits] at widthA heightA ⊢
        omega
      exact ⟨inside.1, inside.2, widthA, heightA, widthB, heightB⟩
  · rw [iouDifferences_apart overlap]
    exact iff_of_true nofun fun overlaps => absurd overlaps overlap

variable [FloatMath F]

/-- The area of a box whose sides are not bounded. -/
def exactArea (width height : Int) : F := FloatMath.ofInt width * FloatMath.ofInt height

theorem area_exact {right left bottom top : Int32} (width : Fits (right.toInt - left.toInt))
    (height : Fits (bottom.toInt - top.toInt)) : (area (right - left) (bottom - top) : F) =
      exactArea (right.toInt - left.toInt) (bottom.toInt - top.toInt) := by
  rw [area, exactArea, toInt_sub_of_fits width, toInt_sub_of_fits height]

/-- The overlap of two boxes with an area in common. -/
def exactIou (a b : TrackerDetection F) : F :=
  let inter : F := exactArea
    (min a.right.toInt b.right.toInt - max a.left.toInt b.left.toInt)
    (min a.bottom.toInt b.bottom.toInt - max a.top.toInt b.top.toInt)
  let uni := exactArea (a.right.toInt - a.left.toInt) (a.bottom.toInt - a.top.toInt) +
    exactArea (b.right.toInt - b.left.toInt) (b.bottom.toInt - b.top.toInt) - inter
  if FloatOps.less 0.0 uni then inter / uni else 0.0

/-- Where the subtractions fit, `iou` has the exact sides of the boxes. -/
theorem iou_exact (overlap : Overlap a b)
    (fit : ∀ difference ∈ iouDifferences a b, Fits difference) : iou a b = exactIou a b := by
  rw [iouDifferences_overlap overlap] at fit
  simp only [List.forall_mem_cons, ← toInt_min, ← toInt_max] at fit
  rcases fit with ⟨across, down, widthA, heightA, widthB, heightB, _⟩
  have taken : iou a b = _ := if_neg (overlap_iff.mp overlap)
  rw [taken, area_exact across down, area_exact widthA heightA, area_exact widthB heightB,
    exactIou, toInt_min, toInt_min, toInt_max, toInt_max]

end Boxes

/-! ## The matching -/

section Matches

variable [FloatMath F]

/-- The arrays of `update` before its matching loop. -/
def unmatched (dets : List (TrackerDetection F)) (tracks : List (Track F)) : Matching where
  detToTrack := .replicate dets.length none
  trackUsed := .replicate tracks.length false

/-- The matchings for which the matching loop looks through the pairs. -/
def searches (dets : List (TrackerDetection F)) (tracks : List (Track F)) :
    Nat → Matching → List Matching
  | 0, _ => []
  | rounds + 1, m =>
      m :: match (bestPair dets tracks m).pair with
        | none => []
        | some (d, t) =>
            searches dets tracks rounds
              { detToTrack := m.detToTrack.set d (some t)
                trackUsed := m.trackUsed.set t true }

/-- `update` calls `iou` for a detection and the box of a track: in one of the searches
both are free, and their classes are the same. -/
def Compares (self : IouTracker F) (dets : List (TrackerDetection F))
    (a b : TrackerDetection F) : Prop :=
  ∃ m ∈ searches dets self.tracks dets.length (unmatched dets self.tracks),
    ∃ (d t : Nat) (track : Track F), Tracker.Candidate dets self.tracks m d t ∧
      dets[d]? = some a ∧ self.tracks[t]? = some track ∧ track.det = b

/-- The first search goes through everything. -/
theorem compares_iff {self : IouTracker F} {dets : List (TrackerDetection F)}
    {a b : TrackerDetection F} : Compares self dets a b ↔
      a ∈ dets ∧ ∃ track ∈ self.tracks, track.det = b ∧ sameClass a b = true := by
  constructor
  · rintro ⟨m, _, d, t, track, candidate, shown, held, rfl⟩
    rcases candidate.alike with ⟨det, other, found, kept, alike⟩
    cases shown.symm.trans found
    cases held.symm.trans kept
    exact ⟨List.mem_of_getElem? shown, track, List.mem_of_getElem? held, rfl, alike⟩
  · rintro ⟨shown, track, held, rfl, alike⟩
    rcases List.getElem?_of_mem shown with ⟨d, place⟩
    rcases List.getElem?_of_mem held with ⟨t, position⟩
    have within := (List.getElem?_eq_some_iff.mp place).1
    have below := (List.getElem?_eq_some_iff.mp position).1
    have first : unmatched dets self.tracks ∈
        searches dets self.tracks dets.length (unmatched dets self.tracks) := by
      cases rounds : dets.length with
      | zero => exact absurd (List.length_pos_of_mem shown) (by omega)
      | succ rounds => exact List.mem_cons_self
    refine ⟨_, first, d, t, track, ⟨?_, ?_, ⟨a, track, place, position, alike⟩⟩, place,
      position, rfl⟩
    · simp [unmatched, within]
    · simp [unmatched, below]

/-- No subtraction overflows in an `update`. -/
def UpdateFits (self : IouTracker F) (dets : List (TrackerDetection F)) : Prop :=
  ∀ a b, Compares self dets a b → ∀ difference ∈ iouDifferences a b, Fits difference

theorem updateFits_iff (self : IouTracker F) (dets : List (TrackerDetection F)) :
    UpdateFits self dets ↔ ∀ det ∈ dets, ∀ track ∈ self.tracks,
      sameClass det track.det = true → Overlap det track.det →
        SidesFit det ∧ SidesFit track.det := by
  simp only [UpdateFits, compares_iff, iouDifferences_fit_iff]
  constructor
  · intro fits det shown track held alike overlap
    exact fits det track.det ⟨shown, track, held, rfl, alike⟩ overlap
  · rintro fits a _ ⟨shown, track, held, rfl, alike⟩ overlap
    exact fits a shown track held alike overlap

/-! ### What the tracks have been shown -/

variable {P : TrackerDetection F → Prop}

omit [FloatMath F] in
theorem placeDetection_boxes (frameId : UInt64) {u : Updating F}
    {entry : TrackerDetection F × Option Nat} (held : ∀ track ∈ u.tracks, P track.det)
    (shown : P entry.1) : ∀ track ∈ (placeDetection frameId u entry).tracks, P track.det := by
  intro track member
  rcases entry with ⟨det, _ | t⟩
  · rw [placeDetection] at member
    rcases List.mem_append.mp member with old | new
    · exact held track old
    · rw [List.mem_singleton.mp new]
      exact shown
  · simp only [placeDetection] at member
    split at member
    next =>
      rcases List.mem_or_eq_of_mem_set member with old | new
      · exact held track old
      · rw [new]
        exact shown
    next => exact held track member

omit [FloatMath F] in
theorem placeAll_boxes (frameId : UInt64) {u : Updating F}
    {entries : List (TrackerDetection F × Option Nat)}
    (held : ∀ track ∈ u.tracks, P track.det) (shown : ∀ entry ∈ entries, P entry.1) :
    ∀ track ∈ (entries.foldl (placeDetection frameId) u).tracks, P track.det := by
  induction entries generalizing u with
  | nil => exact held
  | cons entry rest ih =>
      rw [List.forall_mem_cons] at shown
      exact ih (placeDetection_boxes frameId held shown.1) shown.2

/-- A track has the box of a detection, now or before. -/
theorem update_boxes {self : IouTracker F} (frameId : UInt64)
    {dets : List (TrackerDetection F)} (held : ∀ track ∈ self.tracks, P track.det)
    (shown : ∀ det ∈ dets, P det) :
    ∀ track ∈ (self.update frameId dets).2.tracks, P track.det := by
  intro track member
  rcases List.mem_mapIdx.mp (List.mem_of_mem_filter member) with ⟨t, below, rfl⟩
  have placed : P _ := placeAll_boxes frameId (u := ⟨self.tracks, self.nextId, []⟩) held
    (fun entry among => shown entry.1 (List.of_mem_zip among).1) _ (List.getElem_mem below)
  split
  next => exact placed
  next => exact placed

theorem after_boxes {inputs : List (Input F)}
    (shown : ∀ input ∈ inputs, ∀ det ∈ input.dets, P det) :
    ∀ track ∈ (IouTracker.fresh.after inputs).tracks, P track.det := by
  induction inputs using List.reverseRecOn with
  | nil => exact nofun
  | append_singleton inputs input ih =>
      rw [List.forall_mem_append, List.forall_mem_singleton] at shown
      rw [after_concat]
      exact update_boxes input.frameId (ih shown.1) shown.2

/-- Over a run, boxes whose sides fit are enough. -/
theorem updateFits_of_sides {inputs : List (Input F)} {dets : List (TrackerDetection F)}
    (earlier : ∀ input ∈ inputs, ∀ det ∈ input.dets, SidesFit det)
    (now : ∀ det ∈ dets, SidesFit det) : UpdateFits (IouTracker.fresh.after inputs) dets :=
  (updateFits_iff _ dets).mpr fun det shown track held _ _ =>
    ⟨now det shown, after_boxes earlier track held⟩

end Matches

/-! ## One box -/

section Centroids

/-- The sums of `observe`; id 0 is ignored. -/
def observeSums (rec : WireTrackRecord F) : List Int :=
  if rec.trackId = 0 then []
  else [rec.left.toInt + rec.right.toInt, rec.top.toInt + rec.bottom.toInt]

/-- The centroid of an observation is in its box. -/
structure Centred (obs : Observation) : Prop where
  left : obs.left ≤ obs.cx
  right : obs.cx ≤ obs.right
  top : obs.top ≤ obs.cy
  bottom : obs.cy ≤ obs.bottom

/-- Halves are rounded towards zero. -/
theorem tdiv_two (x : Int) : 0 ≤ x ∧ x.tdiv 2 = x / 2 ∨ x < 0 ∧ x.tdiv 2 = -(-x / 2) := by
  rcases lt_or_ge x 0 with negative | nonneg
  · right
    refine ⟨negative, ?_⟩
    rw [← Int.tdiv_eq_ediv_of_nonneg (by omega), Int.neg_tdiv, neg_neg]
  · exact .inl ⟨nonneg, Int.tdiv_eq_ediv_of_nonneg nonneg⟩

theorem toInt_half (x : Int32) : (x / 2).toInt = x.toInt.tdiv 2 := by
  have low := x.le_toInt
  have high := x.toInt_lt
  have two : (2 : Int32).toInt = 2 := by decide
  have cases := tdiv_two x.toInt
  rw [Int32.toInt_div, two]
  exact Int.bmod_eq_of_le (by omega) (by omega)

/-- The half of a number of 32 bits. -/
theorem half_bounds (x : Int32) : -2 ^ 30 ≤ (x / 2).toInt ∧ (x / 2).toInt < 2 ^ 30 := by
  have low := x.le_toInt
  have high := x.toInt_lt
  have cases := tdiv_two x.toInt
  rw [toInt_half]
  omega

/-- The middle of an interval is in it exactly when the sum of its ends fits. A sum that
does not fit has a sign that neither end has. -/
theorem middle_iff {low high : Int32} (ordered : low ≤ high) :
    (low ≤ (low + high) / 2 ∧ (low + high) / 2 ≤ high) ↔ Fits (low.toInt + high.toInt) := by
  have lowest := low.le_toInt
  have highest := high.toInt_lt
  have wrapped := Int32.toInt_add low high
  have cases := tdiv_two (low + high).toInt
  rw [Int32.le_iff_toInt_le] at ordered
  rw [Int32.le_iff_toInt_le, Int32.le_iff_toInt_le, toInt_half, Fits]
  rw [Int.bmod_def] at wrapped
  generalize (low + high).toInt = sum at wrapped cases ⊢
  split at wrapped
  next => omega
  next => omega

/-- The sums of a record fit exactly when its centroid is in its box. -/
theorem observeSums_fit_iff {rec : WireTrackRecord F} (across : rec.left ≤ rec.right)
    (down : rec.top ≤ rec.bottom) (nonzero : rec.trackId ≠ 0) (timestampUs : UInt64) :
    (∀ sum ∈ observeSums rec, Fits sum) ↔ Centred (observation rec timestampUs) := by
  rw [observeSums, if_neg nonzero, List.forall_mem_cons, List.forall_mem_singleton,
    ← middle_iff across, ← middle_iff down]
  constructor
  · rintro ⟨⟨left, right⟩, top, bottom⟩
    exact ⟨left, right, top, bottom⟩
  · intro centred
    exact ⟨⟨centred.left, centred.right⟩, centred.top, centred.bottom⟩

end Centroids

/-! ## The spread -/

section Spread

/-- The subtractions of the loiter score. -/
def spreadDifferences (history : List Observation) : List Int :=
  match history with
  | [] => []
  | front :: _ =>
      if history.length ≥ 4 then
        [(history.foldl (fun held h => max held h.cx) front.cx).toInt -
            (history.foldl (fun held h => min held h.cx) front.cx).toInt,
          (history.foldl (fun held h => max held h.cy) front.cy).toInt -
            (history.foldl (fun held h => min held h.cy) front.cy).toInt]
      else []

/-- Both coordinates of a centroid are halves of 32-bit numbers. -/
structure Halved (obs : Observation) : Prop where
  cx : -2 ^ 30 ≤ obs.cx.toInt ∧ obs.cx.toInt < 2 ^ 30
  cy : -2 ^ 30 ≤ obs.cy.toInt ∧ obs.cy.toInt < 2 ^ 30

theorem halved_observation (rec : WireTrackRecord F) (timestampUs : UInt64) :
    Halved (observation rec timestampUs) :=
  ⟨half_bounds (rec.left + rec.right), half_bounds (rec.top + rec.bottom)⟩

theorem near_of_halved {history : List Observation} (halved : ∀ obs ∈ history, Halved obs) :
    Near history := by
  intro first one second other
  have a := halved first one
  have b := halved second other
  have across := a.cx
  have across' := b.cx
  have down := a.cy
  have down' := b.cy
  simp only [Fits]
  omega

/-- Near centroids have differences that fit. -/
theorem spreadDifferences_fit {history : List Observation} (near : Near history) :
    ∀ difference ∈ spreadDifferences history, Fits difference := by
  cases place : history with
  | nil => exact nofun
  | cons front rest =>
      rw [← place]
      have member : front ∈ history := by
        rw [place]
        exact List.mem_cons_self
      rcases (isGreatest_coordinate Observation.cx member).1 with ⟨right, inRight, isRight⟩
      rcases (isLeast_coordinate Observation.cx member).1 with ⟨left, inLeft, isLeft⟩
      rcases (isGreatest_coordinate Observation.cy member).1 with ⟨bottom, inBottom, isBottom⟩
      rcases (isLeast_coordinate Observation.cy member).1 with ⟨top, inTop, isTop⟩
      have differences : spreadDifferences history = if history.length ≥ 4 then
          [right.cx.toInt - left.cx.toInt, bottom.cy.toInt - top.cy.toInt] else [] := by
        rw [isRight, isLeft, isBottom, isTop, place]
        rfl
      rw [differences]
      split
      next =>
        rw [List.forall_mem_cons, List.forall_mem_singleton]
        exact ⟨(near right inRight left inLeft).1, (near bottom inBottom top inTop).2⟩
      next => exact nofun

theorem spread_nonneg {history : List Observation} (near : Near history) :
    0 ≤ (TrackState.spread history).toInt := by
  cases place : history with
  | nil => decide
  | cons front rest =>
      rw [← place]
      have nonempty : history ≠ [] := by
        rw [place]
        exact List.cons_ne_nil front rest
      rcases toInt_spread near nonempty with ⟨left, top, right, bottom, box, spread⟩
      rw [spread]
      exact box.side_nonneg

end Spread

/-! ### What the histories hold -/

section Histories

variable [FloatMath F] {roi : Roi}

/-- The centroids of a state, if there is one. -/
def HeldHalved (held : Option (TrackState F)) : Prop :=
  ∀ s ∈ held, ∀ obs ∈ s.history, Halved obs

omit [FloatMath F] in
theorem mem_remember {history : List Observation} {obs other : Observation}
    (member : other ∈ TrackState.remember history obs) : other ∈ history ∨ other = obs := by
  rw [← List.mem_singleton, ← List.mem_append]
  rw [TrackState.remember] at member
  split at member
  next => exact List.mem_of_mem_tail member
  next => exact member

theorem admitOne_halved {held : Option (TrackState F)} (halved : HeldHalved held)
    (timestampUs : UInt64) (rec : WireTrackRecord F) :
    ∀ obs ∈ (admitOne roi timestampUs held rec).history, Halved obs := by
  intro obs member
  rcases mem_remember member with old | new
  · cases held with
    | none => exact absurd old List.not_mem_nil
    | some s => exact halved s rfl obs old
  · rw [new]
    exact halved_observation rec timestampUs

theorem admitAll_halved {held : Option (TrackState F)} (halved : HeldHalved held)
    (timestampUs : UInt64) (records : List (WireTrackRecord F)) :
    HeldHalved (admitAll roi timestampUs held records) := by
  induction records generalizing held with
  | nil => exact halved
  | cons rec rest ih =>
      apply ih
      rintro _ ⟨⟩
      exact admitOne_halved halved timestampUs rec

theorem turn_halved {held : Option (TrackState F)} (halved : HeldHalved held)
    (timestampUs : UInt64) (records : List (WireTrackRecord F)) :
    HeldHalved (turn roi timestampUs held records) := by
  rw [turn]
  split
  next =>
    intro s missed
    rcases Option.bind_eq_some_iff.mp missed with ⟨before, kept, alive⟩
    rw [TrackState.miss] at alive
    split at alive
    next => contradiction
    next =>
      cases alive
      exact halved before kept
  next => exact admitAll_halved halved timestampUs records

theorem frameAll_halved (frames : List (List (WireTrackRecord F) × UInt64)) (id : UInt32) :
    HeldHalved ((fresh roi).frameAll frames).tracks[id]? := by
  induction frames using List.reverseRecOn with
  | nil =>
      rw [frameAll, List.foldl_nil, fresh, Std.ExtTreeMap.getElem?_empty]
      exact fun s missing => absurd missing (Option.not_mem_none s)
  | append_singleton frames frame ih =>
      rw [frameAll_concat, frame_tracks]
      exact turn_halved ih frame.2 _

/-- The manager inside of a frame. -/
def observing (roi : Roi) (frames : List (List (WireTrackRecord F) × UInt64))
    (before : List (WireTrackRecord F)) (timestampUs : UInt64) : TrackManager F :=
  ((fresh roi).frameAll frames).beginFrame.observeAll before timestampUs

/-- The state that `observe` has updated. -/
def observedState (self : TrackManager F) (rec : WireTrackRecord F) (timestampUs : UInt64) :
    TrackState F :=
  admitOne self.roi timestampUs self.tracks[rec.trackId]? rec

/-- Every centroid of a run is half of a 32-bit number. -/
theorem observedState_halved (frames : List (List (WireTrackRecord F) × UInt64))
    (before : List (WireTrackRecord F)) (rec : WireTrackRecord F) (timestampUs : UInt64) :
    ∀ obs ∈ (observedState (observing roi frames before timestampUs) rec timestampUs).history,
      Halved obs := by
  apply admitOne_halved
  rw [observing, (observeAll_spec _ before timestampUs rec.trackId).1]
  exact admitAll_halved (frameAll_halved frames rec.trackId) timestampUs _

end Histories

/-! ## All three -/

/-- Over any frames: `iou` overflows on overlapping boxes of which one is too large, the
sums of `observe` overflow when the centroid is outside of its box, and the spread never
overflows. -/
theorem box_arithmetic [FloatMath F] (inputs : List (Input F))
    (dets : List (TrackerDetection F)) (roi : Roi)
    (frames : List (List (WireTrackRecord F) × UInt64)) (before : List (WireTrackRecord F))
    (rec : WireTrackRecord F) (timestampUs : UInt64) :
    (UpdateFits (IouTracker.fresh.after inputs) dets ↔
      ∀ det ∈ dets, ∀ track ∈ (IouTracker.fresh.after inputs).tracks,
        sameClass det track.det = true → Overlap det track.det →
          SidesFit det ∧ SidesFit track.det) ∧
    ((∀ input ∈ inputs, ∀ det ∈ input.dets, SidesFit det) → (∀ det ∈ dets, SidesFit det) →
      UpdateFits (IouTracker.fresh.after inputs) dets) ∧
    (rec.left ≤ rec.right → rec.top ≤ rec.bottom → rec.trackId ≠ 0 →
      ((∀ sum ∈ observeSums rec, Fits sum) ↔ Centred (observation rec timestampUs))) ∧
    let s := observedState (observing roi frames before timestampUs) rec timestampUs
    (∀ difference ∈ spreadDifferences s.history, Fits difference) ∧
      0 ≤ (TrackState.spread s.history).toInt := by
  have near := near_of_halved (@observedState_halved F _ roi frames before rec timestampUs)
  exact ⟨updateFits_iff _ dets, updateFits_of_sides,
    fun across down nonzero => observeSums_fit_iff across down nonzero timestampUs,
    spreadDifferences_fit near, spread_nonneg near⟩

namespace Example

/-- The header of a frame with one record. -/
def single : WireFrameHeader where
  frameId := 1
  timestampUs := 1000
  count := 1
  reserved := .replicate 6 0

/-- A small box far to the right. -/
def remote : WireTrackRecord Float32 where
  className := .replicate 16 0
  confidence := 0.5
  left := 2000000000
  top := 0
  right := 2000000001
  bottom := 10
  trackId := 1

/-- A box of almost the whole width of the coordinates. -/
def wide : WireDetectionRecord Float32 where
  className := .replicate 16 0
  confidence := 0.5
  left := -2000000000
  top := 0
  right := 2000000000
  bottom := 10

/-- The frame with it, as the tracker takes it. -/
def wideInput : Input Float32 where
  frameId := 1
  timestampUs := 1000
  dets := [.ofRecord wide]
  delivered := true

end Example

/-- Both services accept boxes that are ordered and too far out: the centroid of one is
left of it, and the subtraction of the sides of the other one overflows in its second
frame. -/
theorem box_arithmetic_overflows :
    (∃ rest, tracksReader.next (unpaused (bytewise
        (frameBytes (WireTrackRecord.codec Float32) Example.single [Example.remote]))) =
        (some ⟨Example.single, [Example.remote]⟩, rest)) ∧
      (Example.remote.left ≤ Example.remote.right ∧
        Example.remote.top ≤ Example.remote.bottom) ∧
      (¬ ∀ sum ∈ observeSums Example.remote, Fits sum) ∧
      (observation Example.remote 1000).cx.toInt = -147483647 ∧
      (∃ rest, detectionReader.next (unpaused (bytewise
        (frameBytes (WireDetectionRecord.codec Float32) Example.single [Example.wide]))) =
        (some ⟨Example.single, Example.wideInput.dets⟩, rest)) ∧
      (Example.wide.left ≤ Example.wide.right ∧ Example.wide.top ≤ Example.wide.bottom) ∧
      ¬ UpdateFits (IouTracker.fresh.after [Example.wideInput]) Example.wideInput.dets := by
  have remote_shows := bytewise_shows
    (frameBytes (WireTrackRecord.codec Float32) Example.single [Example.remote] ++ [])
  have wide_shows := bytewise_shows
    (frameBytes (WireDetectionRecord.codec Float32) Example.single [Example.wide] ++ [])
  rcases readTracks_frame rfl remote_shows with ⟨rest, remote_read, _⟩
  rcases readDetections_frame rfl wide_shows with ⟨last, wide_read, _⟩
  rw [List.append_nil] at remote_read wide_read
  refine ⟨⟨rest, remote_read⟩, by decide, by decide, by decide, ⟨last, wide_read⟩, by decide,
    ?_⟩
  rw [updateFits_iff]
  intro fits
  have tracks : (IouTracker.fresh.after [Example.wideInput]).tracks =
      [⟨1, .ofRecord Example.wide, 0, 1⟩] := rfl
  have overlap : Overlap (TrackerDetection.ofRecord Example.wide) (.ofRecord Example.wide) :=
    ⟨by decide, by decide⟩
  have sides := fits _ List.mem_cons_self _ (tracks ▸ List.mem_cons_self) BEq.rfl overlap
  exact absurd sides.1.width (by decide)

end KhadasYolo.Dataflow
