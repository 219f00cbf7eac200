import KhadasYolo.Lib.Episodes
import KhadasYolo.Temporal.Lives
import KhadasYolo.Temporal.Truncation

/-!
# Runs of the temporal service

The service takes every frame that carries its own length and sends one on for each.
How many records that one has is decided by the track manager alone, which has no
bound on them; the bound follows from the frames that keep a track alive.
-/

namespace KhadasYolo.Temporal

open Ipc ByteStream ByteSink Ageing

universe u

variable {F : Type u} [FloatMath F]

namespace TrackManager

/-- Several frames, each with its timestamp. -/
def frameAll (self : TrackManager F) (frames : List (List (WireTrackRecord F) × UInt64)) :
    TrackManager F :=
  frames.foldl (fun mgr frame => mgr.frame frame.1 frame.2) self

/-- The frames that observe an id, as its history. -/
def observed (id : UInt32) (frames : List (List (WireTrackRecord F) × UInt64)) :
    List (Option Unit) :=
  frames.map fun frame => if (recordsFor id frame.1).isEmpty then none else some ()

theorem frameAll_concat (self : TrackManager F)
    (frames : List (List (WireTrackRecord F) × UInt64))
    (records : List (WireTrackRecord F)) (timestampUs : UInt64) :
    self.frameAll (frames ++ [(records, timestampUs)]) =
      (self.frameAll frames).frame records timestampUs := by
  rw [frameAll, List.foldl_append]
  rfl

/-- A state ages with the frames that do not observe its id. -/
theorem frameAll_follows (roi : Roi) (frames : List (List (WireTrackRecord F) × UInt64))
    (id : UInt32) :
    Option.Rel Follows ((fresh roi).frameAll frames).tracks[id]?
      (lifeFrom kMaxFramesLost.toNat none (observed id frames)) := by
  induction frames using List.reverseRecOn with
  | nil =>
      rw [frameAll, List.foldl_nil, fresh, Std.ExtTreeMap.getElem?_empty]
      exact .none
  | append_singleton frames frame ih =>
      rw [frameAll_concat, frame_tracks, observed, List.map_append, lifeFrom,
        List.foldl_append]
      refine turn_follows ih ?_
      cases none_seen : (recordsFor id frame.1).isEmpty <;> simp [none_seen]

/-- A live track has been observed in one of the last 31 frames. -/
theorem recent_of_alive {roi : Roi} {frames : List (List (WireTrackRecord F) × UInt64)}
    {id : UInt32} (alive : (((fresh roi).frameAll frames).tracks[id]?).isSome) :
    id ∈ (frames.rtake 31).flatMap fun frame => frame.1.map WireTrackRecord.trackId := by
  have follows := frameAll_follows roi frames id
  have recent : Recent kMaxFramesLost.toNat (observed id frames) := by
    apply (isSome_lifeFrom_iff _ _).mp
    generalize lifeFrom kMaxFramesLost.toNat none (observed id frames) = life at follows
    generalize ((fresh roi).frameAll frames).tracks[id]? = held at follows alive
    cases follows with
    | none => contradiction
    | some => rfl
  have limit : kMaxFramesLost.toNat + 1 = 31 := rfl
  rw [recent_iff_mem_rtake, limit, observed, List.rtake_eq_reverse_take_reverse,
    ← List.map_reverse, ← List.map_take, ← List.map_reverse,
    ← List.rtake_eq_reverse_take_reverse] at recent
  rcases recent with ⟨now, marked, seen⟩
  rcases List.mem_map.mp marked with ⟨frame, last, rfl⟩
  split at seen
  next => contradiction
  next some_record =>
    rcases List.exists_mem_of_ne_nil _ (mt List.isEmpty_iff.mpr some_record) with
      ⟨rec, carries⟩
    rcases mem_recordsFor.mp carries with ⟨_, member, same⟩
    exact List.mem_flatMap.mpr ⟨frame, last, List.mem_map.mpr ⟨rec, member, same⟩⟩

/-- Frames of at most 64 records keep at most 31 times as many tracks alive. -/
theorem live_few (roi : Roi) {frames : List (List (WireTrackRecord F) × UInt64)}
    (few : ∀ frame ∈ frames, frame.1.length ≤ 64) :
    ((fresh roi).frameAll frames).tracks.toList.length ≤ 31 * 64 := by
  have recent : ((fresh roi).frameAll frames).tracks.toList.map Prod.fst ⊆
      (frames.rtake 31).flatMap fun frame => frame.1.map WireTrackRecord.trackId := by
    intro id member
    rcases List.mem_map.mp member with ⟨⟨_, s⟩, among, rfl⟩
    apply recent_of_alive
    rw [Std.ExtTreeMap.mem_toList_iff_getElem?_eq_some.mp among]
    rfl
  have fits := (List.subperm_of_subset (nodup_ids _) recent).length_le
  rw [List.length_map, List.length_flatMap] at fits
  refine Nat.le_trans fits (Nat.le_trans (List.sum_le_card_nsmul _ 64 ?_) ?_)
  · rw [List.forall_mem_map]
    intro frame member
    rw [List.length_map]
    exact few frame (List.mem_of_mem_drop member)
  · rw [List.length_map, List.rtake, List.length_drop, smul_eq_mul]
    exact Nat.mul_le_mul_right 64 (by omega)

end TrackManager

/-! ## What is sent on -/

/-- The frame as the track manager takes it. -/
def TracksFrame.taken (frame : TracksFrame F) : List (WireTrackRecord F) × UInt64 :=
  (frame.records, frame.header.timestampUs)

variable [FloatBits F]

/-- The frames of all connections, each up to the frame that breaks it off. -/
def receivedFrames (connections : List (List Arrival)) : List (TracksFrame F) :=
  connections.flatMap fun stream => (tracksReader.drain stream).1

/-- The service over all its connections. -/
def Service.run (self : Service F) (orders : Nat → ViewOrder F) (waiting : Nat → Option Sink)
    (connections : List (List Arrival)) : Service F × List (List UInt8) :=
  self.handleAll orders waiting (receivedFrames connections)

/-- The header that `publish_frame` writes. -/
def publishedHeader (hdrIn : WireFrameHeader) (tracks : List (TrackState F)) :
    WireFrameHeader :=
  { hdrIn with count := UInt16.ofNat tracks.length }

theorem summaryParts_flatten (hdrIn : WireFrameHeader) (tracks : List (TrackState F)) :
    (summaryParts hdrIn tracks).flatten =
      frameBytes (WireTrackSummary.codec F) (publishedHeader hdrIn tracks)
        (tracks.map fillSummary) := by
  rw [summaryParts, frameBytes, List.length_map, publishedHeader]

/-- A frame is sent from the state that the frames up to it have left, and the consumer
is kept when that succeeds. -/
theorem handleAll_sent (self : Service F) (orders : Nat → ViewOrder F)
    (waiting : Nat → Option Sink) (older : List (TracksFrame F)) (frame : TracksFrame F)
    (rest : List (TracksFrame F)) :
    ∃ peer,
      let written := offer peer (publishFrame · frame.header ((orders older.length).view
        (self.mgr.frameAll ((older ++ [frame]).map TracksFrame.taken)).tracks))
      (self.handleAll orders waiting (older ++ frame :: rest)).2[older.length]? =
          some written.2 ∧
        (self.handleAll orders waiting (older ++ [frame])).1.outConn = written.1 := by
  induction older generalizing self orders waiting with
  | nil => exact ⟨_, rfl, rfl⟩
  | cons first older ih =>
      have later := ih (self.handle (orders 0) (waiting 0) first).1
        (fun position => orders (position + 1)) (fun position => waiting (position + 1))
      rcases later with ⟨peer, sent⟩
      exact ⟨peer, sent⟩

/-- Every frame on the events socket is well formed. It is sent whole when every `send`
succeeds, so that the consumer is kept. -/
theorem events_well_formed (roi : Roi) (orders : Nat → ViewOrder F)
    (waiting : Nat → Option Sink) {connections : List (List Arrival)}
    (few : ∀ frame ∈ receivedFrames (F := F) connections, frame.records.length ≤ 64)
    {older rest : List (TracksFrame F)} {frame : TracksFrame F}
    (split : receivedFrames connections = older ++ frame :: rest) :
    let view := (orders older.length).view
      ((TrackManager.fresh roi).frameAll ((older ++ [frame]).map TracksFrame.taken)).tracks
    let hdr := publishedHeader frame.header view
    let bytes := frameBytes (WireTrackSummary.codec F) hdr (view.map fillSummary)
    view.length ≤ 31 * 64 ∧
      hdr.count.toNat = view.length ∧
      headerOf bytes = hdr ∧
      prefixOf bytes = 24 + 104 * view.length ∧
      bytes.length = 4 + (24 + 104 * view.length) ∧
      ∃ sent, ((Service.start roi).run orders waiting connections).2[older.length]? =
          some sent ∧ sent <+: bytes ∧
        (((Service.start roi).handleAll orders waiting (older ++ [frame])).1.outConn.isSome →
          sent = bytes) := by
  intro view hdr bytes
  have bound : view.length ≤ 31 * 64 := by
    rw [ViewOrder.length_view]
    apply TrackManager.live_few
    rw [List.forall_mem_map]
    intro shown member
    apply few
    rw [split]
    rw [← List.singleton_append, ← List.append_assoc]
    exact List.mem_append_left _ member
  have size : bodyLength (WireTrackSummary.codec F).size view.length = 24 + 104 * view.length := by
    rw [bodyLength, WireFrameHeader.codec_size, WireTrackSummary.codec_size, Nat.mul_comm]
  have records : (view.map fillSummary).length = view.length := List.length_map _
  refine ⟨bound, ?_, ?_, ?_, ?_, ?_⟩
  · exact (UInt16.toNat_ofNat' ..).trans (Nat.mod_eq_of_lt (by omega))
  · have head := headerOf_frameBytes (WireTrackSummary.codec F) hdr (view.map fillSummary) []
    rwa [List.append_nil] at head
  · have fits : bodyLength (WireTrackSummary.codec F).size (view.map fillSummary).length <
        2 ^ 32 := by
      rw [records, size]
      omega
    have whole : prefixOf (bytes ++ []) = _ :=
      prefixOf_frameBytes (WireTrackSummary.codec F) fits []
    rwa [List.append_nil, records, size] at whole
  · rw [length_frameBytes, records, size]
    rfl
  · rcases handleAll_sent (Service.start roi) orders waiting older frame rest with
      ⟨peer, sent, remains⟩
    have begun := offer_prefix peer (summaryParts frame.header view)
    rw [summaryParts_flatten] at begun
    refine ⟨_, by rw [Service.run, split]; exact sent, begun, fun kept => ?_⟩
    rw [remains] at kept
    exact (offer_kept kept).trans (summaryParts_flatten frame.header view)

namespace Example

/-- A connection with one frame, and one that ends inside its frame. -/
def sessions : List (List Arrival) :=
  [unpaused (bytewise (frameBytes (WireTrackRecord.codec Float32) oneTrack [uav])), cutStream]

theorem receivedFrames_sessions :
    receivedFrames sessions = [⟨oneTrack, [uav]⟩, cutOff (leading cutStream)] := by
  have shows := bytewise_shows (frameBytes (WireTrackRecord.codec Float32) oneTrack [uav])
  have decodes : ∀ frame ∈ [(⟨oneTrack, [uav]⟩ : TracksFrame Float32)], ∀ stream more later,
      Shows stream (frameBytes (WireTrackRecord.codec Float32) frame.header frame.records ++ more)
        later → ∃ rest, tracksReader.next stream = (some frame, rest) ∧ Shows rest more later := by
    rw [List.forall_mem_singleton]
    exact fun _ _ _ => readTracks_frame rfl
  have first := tracksReader.drain_messages (fun frame : TracksFrame Float32 =>
      frameBytes (WireTrackRecord.codec Float32) frame.header frame.records) id decodes
    (fun _ => readTracks_ended)
    (by simpa only [List.map_cons, List.map_nil, List.flatten_cons, List.flatten_nil,
      List.append_nil] using shows)
  rw [receivedFrames, sessions, List.flatMap_cons, List.flatMap_singleton, first,
    drain_cut cutStream_unbroken cutStream_cut]
  rfl

end Example

/-- The frame that was cut off is published with the track that it does not show. -/
theorem events_well_formed_sessions :
    let cut : TracksFrame Float32 := cutOff (leading Example.cutStream)
    ∃ view : List (TrackState Float32),
      view.map (fun s => (s.trackId, s.status)) = [(1, 2)] ∧
      let hdr := publishedHeader cut.header view
      let bytes := frameBytes (WireTrackSummary.codec Float32) hdr (view.map fillSummary)
      hdr.count.toNat = 1 ∧ prefixOf bytes = 24 + 104 ∧
        ((Service.start .disabled : Service Float32).run (fun _ => .ascending)
          (fun _ => some .fresh) Example.sessions).2[1]? = some bytes := by
  intro cut
  have split : receivedFrames Example.sessions =
      [⟨Example.oneTrack, [Example.uav]⟩] ++ cut :: [] := Example.receivedFrames_sessions
  have few : ∀ frame ∈ receivedFrames (F := Float32) Example.sessions,
      frame.records.length ≤ 64 := by
    rw [Example.receivedFrames_sessions, Example.cutOff_cutStream]
    decide
  rcases events_well_formed .disabled (fun _ => .ascending) (fun _ => some .fresh) few split with
    ⟨_, count, _, announced, _, sent, published, _, whole⟩
  have known : cut = ⟨{ Example.oneTrack with count := 0 }, []⟩ := Example.cutOff_cutStream
  clear_value cut
  subst known
  have view : (ViewOrder.ascending.view ((TrackManager.fresh .disabled).frameAll
      (([⟨Example.oneTrack, [Example.uav]⟩, ⟨{ Example.oneTrack with count := 0 }, []⟩] :
        List (TracksFrame Float32)).map TracksFrame.taken)).tracks).map
          (fun s : TrackState Float32 => (s.trackId, s.status)) = [(1, 2)] := by
    decide +kernel
  have single := congrArg List.length view
  rw [List.length_map] at single
  refine ⟨_, view, count.trans single,
    announced.trans (congrArg (fun live => 24 + 104 * live) single), ?_⟩
  exact published.trans (congrArg some (whole (by decide +kernel)))

end KhadasYolo.Temporal
