import KhadasYolo.Lib.KeyedFold
import KhadasYolo.Temporal.TrackState

/-!
# The track manager

`TrackManager` holds one `TrackState` for each live id. A frame is observed record
by record; at its end the tracks that were not seen are marked missed, and dropped
after too many misses. What a frame does to one id depends on the state of that id
and on the records that carry it.
-/

namespace KhadasYolo.Temporal

open Ipc KeyedFold

universe u

/-- Frames a track can be missed before it is dropped. -/
def kMaxFramesLost : UInt32 := 30

abbrev TrackMap (F : Type u) := Std.ExtTreeMap UInt32 (TrackState F)

/-- The members of `TrackManager`; the view is an output. -/
structure TrackManager (F : Type u) where
  roi : Roi
  tracks : TrackMap F
  seenThisFrame : Std.ExtTreeMap UInt32 Bool

/-- The order in which a hash map is iterated: any order of its entries. -/
structure ViewOrder (F : Type u) where
  entries : TrackMap F → List (UInt32 × TrackState F)
  perm : ∀ tracks, (entries tracks).Perm tracks.toList

variable {F : Type u}

/-- The flat view of the live tracks. -/
def ViewOrder.view (order : ViewOrder F) (tracks : TrackMap F) : List (TrackState F) :=
  (order.entries tracks).map Prod.snd

theorem ViewOrder.mem_view (order : ViewOrder F) {tracks : TrackMap F} {s : TrackState F} :
    s ∈ order.view tracks ↔ ∃ id : UInt32, tracks[id]? = some s := by
  simp only [view, List.mem_map, Prod.exists, (order.perm tracks).mem_iff,
    Std.ExtTreeMap.mem_toList_iff_getElem?_eq_some, exists_eq_right]

theorem ViewOrder.length_view (order : ViewOrder F) (tracks : TrackMap F) :
    (order.view tracks).length = tracks.toList.length := by
  rw [view, List.length_map, (order.perm tracks).length_eq]

theorem nodup_ids (tracks : TrackMap F) : (tracks.toList.map Prod.fst).Nodup := by
  rw [List.Nodup, List.pairwise_map]
  exact tracks.distinct_keys_toList.imp fun apart same => apart (by simp [same])

/-- Where every state bears its own id, the view has the ids of the tracks. -/
theorem ViewOrder.ids_view (order : ViewOrder F) {tracks : TrackMap F}
    (keyed : ∀ (id : UInt32) s, tracks[id]? = some s → s.trackId = id) :
    ((order.view tracks).map TrackState.trackId).Perm (tracks.toList.map Prod.fst) := by
  rw [view, List.map_map]
  refine ((order.perm tracks).map _).trans (List.Perm.of_eq (List.map_congr_left ?_))
  rintro ⟨id, s⟩ member
  exact keyed id s (Std.ExtTreeMap.mem_toList_iff_getElem?_eq_some.mp member)

/-- Ascending ids. -/
def ViewOrder.ascending : ViewOrder F where
  entries tracks := tracks.toList
  perm _ := .refl _

def TrackManager.fresh (roi : Roi) : TrackManager F := ⟨roi, ∅, ∅⟩

/-- The observation of a record. -/
def observation (rec : WireTrackRecord F) (timestampUs : UInt64) : Observation where
  timestampUs := timestampUs
  cx := (rec.left + rec.right) / 2
  cy := (rec.top + rec.bottom) / 2
  left := rec.left
  top := rec.top
  right := rec.right
  bottom := rec.bottom

/-- Miss a track for one frame, and drop it when that is one too many. -/
def TrackState.miss (s : TrackState F) : Option (TrackState F) :=
  if s.markMissed.framesMissed > kMaxFramesLost then none else some s.markMissed

namespace TrackManager

def beginFrame (self : TrackManager F) : TrackManager F :=
  { self with seenThisFrame := self.tracks.map fun _ _ => false }

/-- `end_frame`, without the view. -/
def endFrame (self : TrackManager F) : TrackManager F :=
  { self with
    tracks := self.tracks.filterMap fun id s =>
      if self.seenThisFrame[id]? == some true then some s else s.miss }

variable [FloatMath F]

/-- The state a record leaves behind, given the one its id had. -/
def admitOne (roi : Roi) (timestampUs : UInt64) (held : Option (TrackState F))
    (rec : WireTrackRecord F) : TrackState F :=
  (held.getD (.create rec.trackId rec.className timestampUs)).update
    (observation rec timestampUs) roi

def observe (self : TrackManager F) (rec : WireTrackRecord F) (timestampUs : UInt64) :
    TrackManager F :=
  if rec.trackId == 0 then self
  else
    { self with
      tracks := self.tracks.insert rec.trackId
        (admitOne self.roi timestampUs self.tracks[rec.trackId]? rec)
      seenThisFrame := self.seenThisFrame.insert rec.trackId true }

/-- The records of a frame, one after the other. -/
def observeAll (self : TrackManager F) (records : List (WireTrackRecord F))
    (timestampUs : UInt64) : TrackManager F :=
  records.foldl (fun mgr rec => mgr.observe rec timestampUs) self

/-- A whole frame. -/
def frame (self : TrackManager F) (records : List (WireTrackRecord F))
    (timestampUs : UInt64) : TrackManager F :=
  (self.beginFrame.observeAll records timestampUs).endFrame

/-! ## One id -/

/-- The records of a frame that carry an id; id 0 is ignored. -/
def recordsFor (id : UInt32) (records : List (WireTrackRecord F)) :
    List (WireTrackRecord F) :=
  if id = 0 then [] else recordsOf WireTrackRecord.trackId id records

/-- The records of one id folded into its state. -/
def admitAll (roi : Roi) (timestampUs : UInt64) (held : Option (TrackState F))
    (records : List (WireTrackRecord F)) : Option (TrackState F) :=
  records.foldl (fun held rec => some (admitOne roi timestampUs held rec)) held

/-- What a frame does to one id. -/
def turn (roi : Roi) (timestampUs : UInt64) (held : Option (TrackState F))
    (records : List (WireTrackRecord F)) : Option (TrackState F) :=
  if records.isEmpty then held.bind TrackState.miss
  else admitAll roi timestampUs held records

omit [FloatMath F] in
theorem mem_recordsFor {id : UInt32} {rec : WireTrackRecord F}
    {records : List (WireTrackRecord F)} :
    rec ∈ recordsFor id records ↔ id ≠ 0 ∧ rec ∈ records ∧ rec.trackId = id := by
  rw [recordsFor]
  split
  next zero => simp [zero]
  next nonzero => simp [recordsOf, nonzero]

omit [FloatMath F] in
theorem length_recordsFor_le (id : UInt32) (records : List (WireTrackRecord F)) :
    (recordsFor id records).length ≤ records.length := by
  rw [recordsFor]
  split
  next => exact Nat.zero_le _
  next => exact List.length_filter_le _ _

omit [FloatMath F] in
theorem recordsFor_cons (id : UInt32) (rec : WireTrackRecord F)
    (records : List (WireTrackRecord F)) :
    recordsFor id (rec :: records) = recordsFor id [rec] ++ recordsFor id records := by
  simp only [recordsFor]
  split
  next => rfl
  next => exact List.filter_append [rec] records

theorem admitAll_append (roi : Roi) (timestampUs : UInt64) (held : Option (TrackState F))
    (first second : List (WireTrackRecord F)) :
    admitAll roi timestampUs held (first ++ second) =
      admitAll roi timestampUs (admitAll roi timestampUs held first) second :=
  List.foldl_append

theorem observe_roi (self : TrackManager F) (rec : WireTrackRecord F)
    (timestampUs : UInt64) : (self.observe rec timestampUs).roi = self.roi := by
  simp only [observe]
  split <;> rfl

theorem frame_roi (self : TrackManager F) (records : List (WireTrackRecord F))
    (timestampUs : UInt64) : (self.frame records timestampUs).roi = self.roi := by
  have folded : ∀ mgr : TrackManager F, (mgr.observeAll records timestampUs).roi = mgr.roi := by
    induction records with
    | nil => exact fun _ => rfl
    | cons rec records ih => exact fun mgr => (ih _).trans (mgr.observe_roi rec timestampUs)
  exact folded self.beginFrame

/-- A record acts on its own id. -/
theorem observe_spec (self : TrackManager F) (rec : WireTrackRecord F)
    (timestampUs : UInt64) (id : UInt32) :
    (self.observe rec timestampUs).tracks[id]? =
        admitAll self.roi timestampUs self.tracks[id]? (recordsFor id [rec]) ∧
      (self.observe rec timestampUs).seenThisFrame[id]? =
        if (recordsFor id [rec]).isEmpty then self.seenThisFrame[id]? else some true := by
  simp only [observe, recordsFor, recordsOf]
  by_cases ignored : rec.trackId = 0
  · by_cases zero : id = 0
    · simp [ignored, zero, admitAll]
    · simp [ignored, zero, Ne.symm zero, admitAll]
  · by_cases same : rec.trackId = id
    · subst same
      simp [ignored, admitAll]
    · simp [ignored, same, admitAll, Std.ExtTreeMap.getElem?_insert]

/-- Observing a frame acts on every id through the records that carry it. -/
theorem observeAll_spec (self : TrackManager F) (records : List (WireTrackRecord F))
    (timestampUs : UInt64) (id : UInt32) :
    (self.observeAll records timestampUs).tracks[id]? =
        admitAll self.roi timestampUs self.tracks[id]? (recordsFor id records) ∧
      (self.observeAll records timestampUs).seenThisFrame[id]? =
        if (recordsFor id records).isEmpty then self.seenThisFrame[id]? else some true := by
  induction records generalizing self with
  | nil => simp [observeAll, recordsFor, admitAll]
  | cons rec records ih =>
      have step := self.observe_spec rec timestampUs id
      have rest := ih (self.observe rec timestampUs)
      simp only [observeAll, List.foldl_cons] at rest ⊢
      rw [recordsFor_cons]
      constructor
      · rw [rest.1, step.1, self.observe_roi, admitAll_append]
      · rw [rest.2, step.2]
        cases recordsFor id records with
        | nil => rw [List.append_nil]; rfl
        | cons next others => simp

theorem admitAll_isSome {roi : Roi} {timestampUs : UInt64} {held : Option (TrackState F)}
    {records : List (WireTrackRecord F)} (seen : records.isEmpty = false) :
    (admitAll roi timestampUs held records).isSome := by
  induction records generalizing held with
  | nil => contradiction
  | cons rec records ih =>
      cases records with
      | nil => rfl
      | cons next rest => exact ih rfl

/-- A frame acts on every id through the records that carry it. -/
theorem frame_tracks (self : TrackManager F) (records : List (WireTrackRecord F))
    (timestampUs : UInt64) (id : UInt32) :
    (self.frame records timestampUs).tracks[id]? =
      turn self.roi timestampUs self.tracks[id]? (recordsFor id records) := by
  rcases self.beginFrame.observeAll_spec records timestampUs id with ⟨tracks, seen⟩
  simp only [frame, endFrame, Std.ExtTreeMap.getElem?_filterMap', tracks, seen, turn]
  cases none_seen : (recordsFor id records).isEmpty with
  | true =>
      have empty := List.isEmpty_iff.mp none_seen
      simp only [empty, admitAll, beginFrame, Std.ExtTreeMap.getElem?_map]
      cases self.tracks[id]? <;> simp
  | false => simp [beginFrame]

end TrackManager

end KhadasYolo.Temporal
