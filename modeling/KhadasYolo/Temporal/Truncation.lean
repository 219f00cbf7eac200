import KhadasYolo.Temporal.Service

/-!
# Frames cut off on the tracks socket

The records that arrive are folded in one by one, and a frame whose other records
never come is closed and published like any other: the tracks it had no record for
count as missed. No state of the service survives such a frame unless it holds no
tracks at all.
-/

namespace KhadasYolo.Temporal

open Ipc ByteStream ByteSink

universe u

variable {F : Type u} [FloatMath F]

namespace TrackManager

/-! ## Frames that change nothing -/

variable {roi : Roi} {timestampUs : UInt64}

theorem admitAll_framesSeen (s : TrackState F) (records : List (WireTrackRecord F)) :
    ∃ after, admitAll roi timestampUs (some s) records = some after ∧
      after.framesSeen = s.framesSeen + UInt32.ofNat records.length := by
  induction records generalizing s with
  | nil => exact ⟨s, rfl, by simp⟩
  | cons rec records ih =>
      rcases ih (admitOne roi timestampUs (some s) rec) with ⟨after, folded, seen⟩
      refine ⟨after, folded, ?_⟩
      rw [seen, admitOne, Option.getD_some, TrackState.update, List.length_cons,
        UInt32.ofNat_add, UInt32.add_assoc, UInt32.add_comm 1]
      rfl

omit [FloatMath F] in
theorem miss_ne (s : TrackState F) : s.miss ≠ some s := by
  intro same
  rw [TrackState.miss] at same
  split at same
  next => contradiction
  next =>
    have counted := congrArg TrackState.framesMissed (Option.some.inj same)
    have differ : s.framesMissed + 1 ≠ s.framesMissed := by
      intro equal
      have nothing := congrArg UInt32.toNat equal
      rw [UInt32.toNat_add] at nothing
      have bound := s.framesMissed.toNat_lt
      simp at nothing
      omega
    exact differ counted

/-- A frame counts something for every live track. -/
theorem turn_ne (s : TrackState F) {records : List (WireTrackRecord F)}
    (few : records.length < 2 ^ 32) : turn roi timestampUs (some s) records ≠ some s := by
  rw [turn]
  split
  next => exact miss_ne s
  next seen =>
    intro same
    rcases admitAll_framesSeen s records with ⟨after, folded, counted⟩
    rw [folded] at same
    rw [Option.some.inj same] at counted
    have nothing := congrArg UInt32.toNat counted
    have some_seen : 0 < records.length := by
      apply List.length_pos_iff.mpr
      rintro rfl
      exact seen rfl
    have bound := s.framesSeen.toNat_lt
    rw [UInt32.toNat_add, UInt32.toNat_ofNat_of_lt' few] at nothing
    omega

/-- A frame leaves all tracks as they are only if there are none and none starts. -/
theorem frame_unchanged_iff (mgr : TrackManager F) {records : List (WireTrackRecord F)}
    (few : records.length < 2 ^ 32) (timestampUs : UInt64) :
    (mgr.frame records timestampUs).tracks = mgr.tracks ↔
      mgr.tracks = ∅ ∧ ∀ rec ∈ records, rec.trackId = 0 := by
  constructor
  · intro unchanged
    have same (id : UInt32) :
        turn mgr.roi timestampUs mgr.tracks[id]? (recordsFor id records) = mgr.tracks[id]? := by
      rw [← frame_tracks, unchanged]
    have empty : mgr.tracks = ∅ := by
      apply Std.ExtTreeMap.ext_getElem?
      intro id
      rw [Std.ExtTreeMap.getElem?_empty]
      cases held : mgr.tracks[id]? with
      | none => rfl
      | some s =>
          have turned := same id
          rw [held] at turned
          exact absurd turned (turn_ne s (Nat.lt_of_le_of_lt
            (length_recordsFor_le id records) few))
    refine ⟨empty, ?_⟩
    intro rec member
    by_contra nonzero
    have turned := same rec.trackId
    rw [empty, Std.ExtTreeMap.getElem?_empty, turn] at turned
    have seen : (recordsFor rec.trackId records).isEmpty = false :=
      List.isEmpty_eq_false_iff.mpr
        (List.ne_nil_of_mem (mem_recordsFor.mpr ⟨nonzero, member, rfl⟩))
    have started : (admitAll mgr.roi timestampUs none
        (recordsFor rec.trackId records)).isSome := admitAll_isSome seen
    rw [if_neg (by simp [seen])] at turned
    rw [turned] at started
    contradiction
  · rintro ⟨empty, ignored⟩
    apply Std.ExtTreeMap.ext_getElem?
    intro id
    have none_seen : recordsFor id records = [] := by
      rw [List.eq_nil_iff_forall_not_mem]
      intro rec member
      rcases mem_recordsFor.mp member with ⟨nonzero, among, same⟩
      exact nonzero (same.symm.trans (ignored rec among))
    rw [frame_tracks, empty, Std.ExtTreeMap.getElem?_empty, none_seen]
    rfl

end TrackManager

/-! ## The frame that a lost connection cuts off -/

/-- A frame has had no effect. -/
structure Atomic (before : Service F) (after : Service F × List UInt8) : Prop where
  tracks : after.1.mgr.tracks = before.mgr.tracks
  published : after.2 = []

variable [FloatBits F]

/-- What the loop makes of a cut-off frame. -/
def cutOff (bytes : List UInt8) : TracksFrame F where
  header := { headerOf bytes with count := 0 }
  records := arrived (WireTrackRecord.codec F) (headerOf bytes).count.toNat (bodyOf bytes)

/-- There is nothing that a cut-off frame could spoil: no track, no record of a
track, and nobody who listens. -/
structure Idle (service : Service F) (waiting : Option Sink) (bytes : List UInt8) : Prop where
  empty : service.mgr.tracks = ∅
  ignored : ∀ rec ∈ (cutOff (F := F) bytes).records, rec.trackId = 0
  unheard : ∀ sink ∈ service.outConn <|> waiting, sink.Refusing

theorem handle_atomic_iff (service : Service F) (order : ViewOrder F) (waiting : Option Sink)
    {frame : TracksFrame F} (few : frame.records.length < 2 ^ 32) :
    Atomic service (service.handle order waiting frame) ↔
      service.mgr.tracks = ∅ ∧ (∀ rec ∈ frame.records, rec.trackId = 0) ∧
        ∀ sink ∈ service.outConn <|> waiting, sink.Refusing := by
  have unchanged := service.mgr.frame_unchanged_iff few frame.header.timestampUs
  have unheard : (service.handle order waiting frame).2 = [] ↔
      ∀ sink ∈ service.outConn <|> waiting, sink.Refusing := by
    rw [Service.handle]
    generalize (service.outConn <|> waiting) = peer
    generalize order.view _ = tracks
    simp only [publishFrame, summaryParts, frameParts]
    generalize UInt32.ofNat (bodyLength (WireTrackSummary.codec F).size tracks.length) = size
    cases encoded : Codec.uint32.encode size with
    | nil =>
        have length := Codec.uint32.length_encode size
        rw [encoded] at length
        contradiction
    | cons first rest => exact offer_silent_iff first rest peer _
  constructor
  · intro atomic
    have nothing := unchanged.mp atomic.tracks
    exact ⟨nothing.1, nothing.2, unheard.mp atomic.published⟩
  · rintro ⟨empty, ignored, silent⟩
    exact ⟨unchanged.mpr ⟨empty, ignored⟩, unheard.mpr silent⟩

section Cut

variable {stream : List Arrival}

omit [FloatMath F] in
/-- The loop ends behind a cut-off frame. -/
theorem drain_cut (unbroken : trailing stream = []) (cut : CutFrame 40 (leading stream)) :
    tracksReader.drain stream = ([cutOff (F := F) (leading stream)], []) := by
  have shows := shows_self stream
  rw [unbroken] at shows
  have missing := Nat.lt_of_not_le (mt cut.announced.whole_iff.mpr (Nat.not_le.mpr cut.length))
  have read : tracksReader.next stream = (some (cutOff (F := F) (leading stream)), []) :=
    readTracks_cut shows cut.announced missing
  have ended : tracksReader (F := F).next [] = (none, []) := by
    have nothing : Shows [] [] [] := ⟨rfl, rfl⟩
    exact readTracks_ended nothing
  rw [tracksReader.drain_some read, tracksReader.drain_none ended]

/-- A frame that the end of the connection cuts off is read as the last one of the
connection, and has no effect exactly when the service is idle. -/
theorem cut_frame_atomic_iff (service : Service F) (order : ViewOrder F)
    (waiting : Option Sink) (unbroken : trailing stream = [])
    (cut : CutFrame 40 (leading stream)) :
    tracksReader.drain stream = ([cutOff (F := F) (leading stream)], []) ∧
      (Atomic service (service.handle order waiting (cutOff (leading stream))) ↔
        Idle service waiting (leading stream)) := by
  refine ⟨drain_cut unbroken cut, ?_⟩
  have few : (cutOff (F := F) (leading stream)).records.length < 2 ^ 32 := by
    have missing :=
      Nat.lt_of_not_le (mt cut.announced.whole_iff.mpr (Nat.not_le.mpr cut.length))
    have arrivals := length_arrived_cut (WireTrackRecord.codec F) missing
    have bound := (headerOf (leading stream)).count.toNat_lt
    exact Nat.lt_trans arrivals (Nat.lt_trans bound (by decide))
  rw [handle_atomic_iff service order waiting few]
  constructor
  · rintro ⟨empty, ignored, unheard⟩
    exact ⟨empty, ignored, unheard⟩
  · exact fun idle => ⟨idle.empty, idle.ignored, idle.unheard⟩

end Cut

namespace Example

/-- The header of a frame with one record. -/
def oneTrack : WireFrameHeader where
  frameId := 2
  timestampUs := 2000
  count := 1
  reserved := .replicate 6 0

/-- A frame that announces one record and ends before it. -/
def cutFrame : List UInt8 :=
  Codec.uint32.encode 64 ++ (WireFrameHeader.codec.encode oneTrack ++ [])

theorem cutFrame_cut : CutFrame 40 cutFrame where
  announced :=
    { complete := by
        simp only [cutFrame, List.length_append, Codec.length_encode]
        omega
      agree := by
        rw [cutFrame, prefixOf_encode, headerOf_encode]
        decide }
  length := by
    have length : cutFrame.length = 28 := by
      simp only [cutFrame, List.length_append, Codec.length_encode]
      rfl
    rw [length, cutFrame, prefixOf_encode]
    decide

theorem headerOf_cutFrame : headerOf cutFrame = oneTrack := by
  rw [cutFrame, headerOf_encode]

theorem bodyOf_cutFrame : bodyOf cutFrame = [] := by
  rw [cutFrame, bodyOf_encode]

def cutStream : List Arrival := unpaused (bytewise cutFrame)

theorem leading_cutStream : leading cutStream = cutFrame := by
  rw [cutStream, (bytewise_shows cutFrame).leading]

theorem cutStream_unbroken : trailing cutStream = [] := (bytewise_shows cutFrame).trailing

theorem cutStream_cut : CutFrame 40 (leading cutStream) := leading_cutStream ▸ cutFrame_cut

theorem cutOff_cutStream :
    cutOff (F := Float32) (leading cutStream) = ⟨{ oneTrack with count := 0 }, []⟩ := by
  rw [leading_cutStream, cutOff, headerOf_cutFrame, bodyOf_cutFrame]
  rfl

/-- The record that does not arrive the second time. -/
def uav : WireTrackRecord Float32 where
  className := paddedName [85, 65, 86]
  confidence := 1
  left := 0
  top := 0
  right := 10
  bottom := 10
  trackId := 1

/-- The service with one live track. -/
def running : Service Float32 :=
  ((Service.start .disabled).handle .ascending none ⟨oneTrack, [uav]⟩).1

theorem running_status :
    running.mgr.tracks[(1 : UInt32)]?.map TrackState.status = some 0 := by
  simp only [running, Service.handle, Service.start, TrackManager.frame_tracks,
    TrackManager.fresh, Std.ExtTreeMap.getElem?_empty]
  rfl

end Example

/-- Before its first track, and with nobody listening, the service gets over it. -/
theorem cut_frame_atomic_at_start :
    let frame := cutOff (F := Float32) (leading Example.cutStream)
    tracksReader.drain Example.cutStream = ([frame], []) ∧
      Atomic (Service.start .disabled)
        ((Service.start .disabled).handle .ascending none frame) := by
  rcases cut_frame_atomic_iff (Service.start (F := Float32) .disabled) .ascending none
    Example.cutStream_unbroken Example.cutStream_cut with ⟨read, atomic⟩
  refine ⟨read, atomic.mpr ⟨rfl, ?_, nofun⟩⟩
  rw [Example.cutOff_cutStream]
  exact nofun

/-- A track whose record is cut off is lost. -/
theorem cut_frame_loses_track :
    let frame := cutOff (F := Float32) (leading Example.cutStream)
    let after := Example.running.handle .ascending none frame
    tracksReader.drain Example.cutStream = ([frame], []) ∧
      Example.running.mgr.tracks[(1 : UInt32)]?.map TrackState.status = some 0 ∧
      after.1.mgr.tracks[(1 : UInt32)]?.map TrackState.status = some 2 ∧
      ¬ Atomic Example.running after := by
  dsimp only
  have lost : (Example.running.handle .ascending none
      (cutOff (leading Example.cutStream))).1.mgr.tracks[(1 : UInt32)]?.map
        TrackState.status = some 2 := by
    rw [Example.cutOff_cutStream]
    simp only [Example.running, Service.handle, Service.start, TrackManager.frame_tracks,
      TrackManager.fresh, Std.ExtTreeMap.getElem?_empty]
    rfl
  refine ⟨drain_cut Example.cutStream_unbroken Example.cutStream_cut,
    Example.running_status, lost, ?_⟩
  intro atomic
  rw [atomic.tracks, Example.running_status] at lost
  contradiction

end KhadasYolo.Temporal
