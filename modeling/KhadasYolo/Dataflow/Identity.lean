import KhadasYolo.Temporal.Lives
import KhadasYolo.Tracker.Histories
import KhadasYolo.Tracker.Service

/-!
# Identities between the tracker and the track manager

Both stages age their ids, each by the frames it handles. The tracker handles every
frame, the manager those that are delivered; a frame that is skipped keeps an id
young in the tracker alone. So the manager knows an id again exactly when few
enough of the frames delivered since were without it.
-/

namespace KhadasYolo.Dataflow

open Ageing Ipc Tracker Temporal TrackManager

universe u

variable {F : Type u}

/-- The records of an output frame. -/
def recordsOf (frame : Tracked F) : List (WireTrackRecord F) :=
  frame.outputs.map TrackerOutput.record

/-- No id occurs twice, and id 0 does not occur. -/
def WellNumbered (frame : Tracked F) : Prop := frame.ids.Nodup ∧ 0 ∉ frame.ids

/-- The delivered frames with an id, in a history of that id. -/
def stamps (id : UInt32) (frames : List (Tracked F)) : List (Option UInt64) :=
  frames.map (Tracked.sighting Tracked.timestampUs id)

section Records

variable {frame : Tracked F} {id : UInt32}

theorem ids_eq (frame : Tracked F) :
    (recordsOf frame).map WireTrackRecord.trackId = frame.ids := by
  simp [recordsOf, Tracked.ids, TrackerOutput.record]

theorem recordsFor_isEmpty (numbered : WellNumbered frame) (id : UInt32) :
    (recordsFor id (recordsOf frame)).isEmpty = !decide (id ∈ frame.ids) := by
  rw [Bool.eq_iff_iff, List.isEmpty_iff, List.eq_nil_iff_forall_not_mem]
  simp only [mem_recordsFor, Bool.not_eq_true', decide_eq_false_iff_not, ← ids_eq,
    List.mem_map]
  constructor
  · rintro unseen ⟨rec, member, same⟩
    refine unseen rec ⟨?_, member, same⟩
    rintro rfl
    exact numbered.2 (same ▸ ids_eq frame ▸ List.mem_map_of_mem member)
  · rintro absent rec ⟨_, member, same⟩
    exact absent ⟨rec, member, same⟩

theorem length_recordsFor (numbered : WellNumbered frame) (id : UInt32) :
    (recordsFor id (recordsOf frame)).length ≤ 1 := by
  have once := List.nodup_iff_count_le_one.mp numbered.1 id
  rw [← ids_eq, List.count_eq_countP, List.countP_map, List.countP_eq_length_filter] at once
  rw [recordsFor]
  split
  next => exact Nat.zero_le _
  next => exact once

theorem stamps_append (id : UInt32) (first second : List (Tracked F)) :
    stamps id (first ++ second) = stamps id first ++ stamps id second := List.map_append

theorem stamps_shown (shows : id ∈ frame.ids) (rest : List (Tracked F)) :
    stamps id (frame :: rest) = some frame.timestampUs :: stamps id rest := by
  rw [stamps, List.map_cons, Tracked.sighting, if_pos shows]
  rfl

theorem stamps_without {between : List (Tracked F)}
    (without : ∀ skipped ∈ between, id ∉ skipped.ids) :
    stamps id between = List.replicate between.length none :=
  List.map_eq_replicate_iff.mpr fun skipped member => if_neg (without skipped member)

end Records

variable [FloatMath F]

/-- A delivered frame. -/
def receive (mgr : TrackManager F) (frame : Tracked F) : TrackManager F :=
  mgr.frame (recordsOf frame) frame.timestampUs

/-- Delivered frames, one after the other. -/
def receiveAll (mgr : TrackManager F) (frames : List (Tracked F)) : TrackManager F :=
  frames.foldl receive mgr

theorem receiveAll_append (mgr : TrackManager F) (first second : List (Tracked F)) :
    receiveAll mgr (first ++ second) = receiveAll (receiveAll mgr first) second :=
  List.foldl_append

/-- Every frame is a turn of every id. -/
def turnAll (roi : Roi) (id : UInt32) (held : Option (TrackState F))
    (frames : List (Tracked F)) : Option (TrackState F) :=
  frames.foldl (fun held frame =>
    turn roi frame.timestampUs held (recordsFor id (recordsOf frame))) held

theorem receiveAll_tracks (mgr : TrackManager F) (frames : List (Tracked F)) (id : UInt32) :
    (receiveAll mgr frames).tracks[id]? = turnAll mgr.roi id mgr.tracks[id]? frames := by
  induction frames generalizing mgr with
  | nil => rfl
  | cons frame rest ih =>
      rw [turnAll, List.foldl_cons, ← turnAll, ← frame_tracks, ← receive, ← frame_roi, ← receive]
      exact ih (receive mgr frame)

/-- The state of an id tallies with the frames that have been delivered. -/
theorem turnAll_tallies {roi : Roi} {frames : List (Tracked F)}
    (numbered : ∀ frame ∈ frames, WellNumbered frame) {id : UInt32}
    {held : Option (TrackState F)} {life : Option (Life UInt64)}
    (tallies : Option.Rel Tallies held life) :
    Option.Rel Tallies (turnAll roi id held frames)
      (lifeFrom kMaxFramesLost.toNat life (stamps id frames)) := by
  induction frames generalizing held life with
  | nil => exact tallies
  | cons frame rest ih =>
      rw [List.forall_mem_cons] at numbered
      apply ih numbered.2
      apply turn_tallies tallies (length_recordsFor numbered.1 id)
      rw [recordsFor_isEmpty numbered.1, Tracked.sighting]
      by_cases member : id ∈ frame.ids <;> simp [member]

section FromStart

variable {frames : List (Tracked F)} (numbered : ∀ frame ∈ frames, WellNumbered frame)
  (roi : Roi) (id : UInt32)

include numbered

theorem start_tallies :
    Option.Rel Tallies (receiveAll (.fresh roi) frames).tracks[id]?
      (lifeFrom kMaxFramesLost.toNat none (stamps id frames)) := by
  rw [receiveAll_tracks, TrackManager.fresh, Std.ExtTreeMap.getElem?_empty]
  exact turnAll_tallies numbered .none

/-- A state is alive exactly when few enough delivered frames have been without its
id since the last one with it. -/
theorem alive_iff :
    (receiveAll (.fresh roi) frames).tracks[id]?.isSome ↔
      ∃ rounds ∈ gap (stamps id frames), rounds ≤ kMaxFramesLost.toNat := by
  have tallies := start_tallies numbered roi id
  rw [← isSome_lifeFrom_iff]
  generalize (receiveAll (.fresh roi) frames).tracks[id]? = held at tallies
  generalize lifeFrom kMaxFramesLost.toNat none (stamps id frames) = life at tallies
  cases tallies <;> simp

/-- With no longer stretch between two delivered frames with an id, its state has
counted all of them. -/
theorem counted (few : frames.length < 2 ^ 32)
    (paced : Paced kMaxFramesLost.toNat none (stamps id frames)) {s : TrackState F}
    (held : (receiveAll (.fresh roi) frames).tracks[id]? = some s) :
    s.framesSeen.toNat = (stamps id frames).reduceOption.length ∧
      (stamps id frames).reduceOption.head? = some s.firstSeenUs := by
  have tallies := start_tallies numbered roi id
  rw [held] at tallies
  cases alive : lifeFrom kMaxFramesLost.toNat none (stamps id frames) with
  | none =>
      rw [alive] at tallies
      cases tallies
  | some life =>
      rw [alive] at tallies
      cases tallies with
      | some tallies =>
          have all := sightings_lifeFrom paced alive
          rw [Option.elim_none, List.nil_append] at all
          have bound : life.sightings.length < 2 ^ 32 := by
            rw [all]
            refine Nat.lt_of_le_of_lt (List.reduceOption_length_le _) ?_
            rwa [stamps, List.length_map]
          rw [← all, tallies.seen, tallies.first, UInt32.toNat_ofNat_of_lt' bound]
          exact ⟨rfl, rfl⟩

end FromStart

theorem length_track (tracker : IouTracker F) (born : UInt32 → Nat) (number : Nat)
    (inputs : List (Input F)) : (tracker.track born number inputs).length = inputs.length := by
  induction inputs generalizing tracker born number with
  | nil => rfl
  | cons input rest ih => rw [IouTracker.track, List.length_cons, ih, List.length_cons]

/-- The manager knows an id again exactly when at most 30 delivered frames since the
last one with it were without it, and so whenever no frame with it was skipped in
between; where that has always been so, its state has counted every delivered frame
with it. -/
theorem identity_kept (roi : Roi) {inputs : List (Input F)} (enough : EnoughIds inputs)
    (few : inputs.length < 2 ^ 32) (id : UInt32) :
    let frames := trackAll inputs
    let delivered := frames.filter Tracked.delivered
    let mgr := receiveAll (.fresh roi) delivered
    (mgr.tracks[id]?.isSome ↔ ∃ rounds ∈ gap (stamps id delivered), rounds ≤ 30) ∧
      (∀ older first between next newer,
        frames = older ++ first :: (between ++ next :: newer) →
        first.delivered → id ∈ first.ids → id ∈ next.ids →
        (∀ skipped ∈ between, id ∉ skipped.ids) →
          (receiveAll (.fresh roi) ((older ++ first :: between).filter
            Tracked.delivered)).tracks[id]?.isSome) ∧
      (Paced 30 none (stamps id delivered) → ∀ s, mgr.tracks[id]? = some s →
        s.framesSeen.toNat = (stamps id delivered).reduceOption.length ∧
          (stamps id delivered).reduceOption.head? = some s.firstSeenUs) := by
  dsimp only
  have numbered := trackAll_ids enough
  have delivered_numbered :
      ∀ frame ∈ (trackAll inputs).filter Tracked.delivered, WellNumbered frame :=
    fun frame member => numbered frame (List.mem_of_mem_filter member)
  refine ⟨alive_iff delivered_numbered roi id, ?_, ?_⟩
  · intro older first between next newer split delivered shows again without
    have young : between.length ≤ 30 := by
      have paced := trackAll_paced Tracked.timestampUs enough id
      rw [← stamps, split, stamps_append, stamps_shown shows, stamps_append,
        stamps_without without, stamps_shown again] at paced
      exact paced.between
    have since : gap (stamps id ((older ++ first :: between).filter Tracked.delivered)) =
        some (between.filter Tracked.delivered).length := by
      rw [List.filter_append, List.filter_cons_of_pos delivered, stamps_append,
        stamps_shown shows, stamps_without fun skipped member =>
          without skipped (List.mem_of_mem_filter member)]
      exact gap_behind _ _ _
    apply (alive_iff (fun frame member => numbered frame ?_) roi id).mpr
    · exact ⟨_, since, Nat.le_trans (List.length_filter_le _ _) young⟩
    · have among := List.mem_of_mem_filter member
      rw [split, ← List.cons_append, ← List.append_assoc]
      exact List.mem_append_left _ among
  · intro paced s held
    refine counted delivered_numbered roi id ?_ paced held
    refine Nat.lt_of_le_of_lt (List.length_filter_le _ _) ?_
    rwa [trackAll, length_track]

namespace Example

/-- A drone that does not move. -/
def hovering : TrackerDetection Float32 where
  className := paddedName [85, 65, 86]
  confidence := 1
  left := 0
  top := 0
  right := 10
  bottom := 10

def shown (timestampUs : UInt64) (delivered : Bool) : Input Float32 where
  frameId := 0
  timestampUs := timestampUs
  dets := [hovering]
  delivered := delivered

/-- Sixteen delivered frames without it. -/
def hidden : List (Input Float32) :=
  .replicate 16 { frameId := 0, timestampUs := 0, dets := [], delivered := true }

/-- The second of the three frames that show it is skipped. -/
def skipping : List (Input Float32) :=
  shown 1000 true :: (hidden ++ shown 2000 false :: (hidden ++ [shown 3000 true]))

/-- A frame that does not show it. -/
def empty : Input Float32 where
  frameId := 0
  timestampUs := 0
  dets := []
  delivered := true

/-- One of the frames that show it is skipped, with a frame without it on either side. -/
def returning : List (Input Float32) :=
  [shown 1000 true, empty, shown 2000 false, empty, shown 3000 true, shown 4000 true]

end Example

set_option maxRecDepth 4000 in
/-- The frames with id 1 that are delivered are counted, over the gap. -/
theorem identity_kept_returning :
    let delivered := (trackAll Example.returning).filter Tracked.delivered
    stamps 1 delivered = [some 1000, none, none, some 3000, some 4000] ∧
      ∃ s, (receiveAll (.fresh .disabled) delivered).tracks[(1 : UInt32)]? = some s ∧
        s.framesSeen.toNat = 3 ∧ s.firstSeenUs = 1000 := by
  have stamped : stamps 1 ((trackAll Example.returning).filter Tracked.delivered) =
      [some 1000, none, none, some 3000, some 4000] := by decide
  have enough : EnoughIds Example.returning := by decide
  rcases identity_kept .disabled enough (by decide) 1 with ⟨alive, _, counted⟩
  rw [stamped] at alive counted
  rcases Option.isSome_iff_exists.mp (alive.mpr ⟨0, rfl, by decide⟩) with ⟨s, held⟩
  rcases counted (by simp [Paced]) s held with ⟨seen, first⟩
  exact ⟨stamped, s, held, seen, (Option.some.inj first).symm⟩

set_option maxRecDepth 4000 in
/-- Of two delivered frames with id 1 the manager has counted the second alone. -/
theorem identity_split :
    let delivered := (trackAll Example.skipping).filter Tracked.delivered
    EnoughIds Example.skipping ∧ (stamps 1 delivered).reduceOption = [1000, 3000] ∧
      (receiveAll (.fresh .disabled) delivered.dropLast).tracks[(1 : UInt32)]?.isNone ∧
      (receiveAll (.fresh .disabled) delivered).tracks[(1 : UInt32)]?.map
        (fun s => (s.framesSeen, s.firstSeenUs)) = some (1, 3000) := by
  simp only [receiveAll_tracks, TrackManager.fresh, Std.ExtTreeMap.getElem?_empty]
  decide

end KhadasYolo.Dataflow
