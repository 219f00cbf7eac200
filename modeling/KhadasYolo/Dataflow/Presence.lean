import KhadasYolo.Dataflow.Identity
import KhadasYolo.Dataflow.Pauses
import KhadasYolo.Summarizer.History
import KhadasYolo.Temporal.Runs

/-!
# Presence from end to end

The summarizer decides presence anew with every frame it receives: a record counts
when it has the drone class and its track is not lost. Four components lie between
the detections and that record, each with a state of its own. Where all frames are
delivered whole, presence still says exactly what the detection frame says.
-/

namespace KhadasYolo.Dataflow

open Ageing Ipc ByteStream ByteSink Tracker Temporal TrackManager Summarizer

universe u

variable {F : Type u}

/-- Someone is there and reads everything. -/
def Attached (peer : Option Sink) : Prop := ∃ sink, peer = some sink ∧ sink.Willing

/-- The arguments of `update` for a frame. -/
def given (frame : DetectionFrame F) : Tracker.Input F where
  frameId := frame.header.frameId
  timestampUs := frame.header.timestampUs
  dets := frame.dets
  delivered := true

/-- The output frame of a round of the tracker. -/
def outputOf (turn : Handled F) : Tracked F where
  timestampUs := turn.header.timestampUs
  outputs := turn.outputs
  born := fun _ => 0
  delivered := true

/-- The output frame as it is sent. -/
def tracksFrame (turn : Handled F) : TracksFrame F where
  header := { turn.header with count := UInt16.ofNat turn.outputs.length }
  records := recordsOf (outputOf turn)

/-- All ids are well numbered and keep their class, over a whole run of the tracker,
and there are few of them at a time. -/
structure Honest (turns : List (Handled F)) : Prop where
  numbered : ∀ turn ∈ turns, WellNumbered (outputOf turn)
  named : ∀ id, ∃ name, ∀ turn ∈ turns, ∀ o ∈ turn.outputs, o.trackId = id →
    cString o.det.className = name
  dets : ∀ turn ∈ turns, turn.outputs.map TrackerOutput.det = turn.dets
  few : ∀ turn ∈ turns, turn.dets.length ≤ 64
  terminated : ∀ turn ∈ turns, ∀ det ∈ turn.dets, 0 ∈ det.className

variable [FloatMath F]

/-- An events frame shows what the tracker was given: a drone is present when one was
detected, the lost tracks are those without a detection, and every detection has a
record that counts. -/
structure Faithful (config : Config) (turn : Handled F) (events : EventsFrame F) : Prop where
  present : ∀ m, (scanFrame config m events.records).present = true ↔
    ∃ det ∈ turn.dets, cString det.className = config.droneClass
  lost : ∀ s ∈ events.records,
    s.status = 2 ↔ s.trackId ∉ turn.outputs.map TrackerOutput.trackId
  detected : ∀ o ∈ turn.outputs, ∃ s ∈ events.records, s.trackId = o.trackId ∧
    cString s.className = cString o.det.className ∧ s.status ≠ 2

/-! ## The track manager after a frame -/

section Manager

variable {frames : List (Tracked F)} (numbered : ∀ frame ∈ frames, WellNumbered frame)
  (roi : Roi)

include numbered

/-- An id of the last frame is alive. -/
theorem alive_of_shown {older : List (Tracked F)} {last : Tracked F} {id : UInt32}
    (split : frames = older ++ [last]) (shows : id ∈ last.ids) :
    (receiveAll (.fresh roi) frames).tracks[id]?.isSome := by
  apply (alive_iff numbered roi id).mpr
  refine ⟨0, ?_, Nat.zero_le _⟩
  rw [split, stamps_append, stamps_shown shows]
  exact gap_behind _ _ 0

/-- A track is lost exactly when it is not in the last frame. -/
theorem lost_iff {older : List (Tracked F)} {last : Tracked F} {id : UInt32}
    (split : frames = older ++ [last]) {s : TrackState F}
    (held : (receiveAll (.fresh roi) frames).tracks[id]? = some s) :
    s.status = 2 ↔ id ∉ last.ids := by
  have tallies := start_tallies numbered roi id
  rw [held, split, stamps_append, lifeFrom, List.foldl_append] at tallies
  generalize (stamps id older).foldl (Ageing.round kMaxFramesLost.toNat) none = life at tallies
  generalize goes : (stamps id [last]).foldl (Ageing.round kMaxFramesLost.toNat) life = now
    at tallies
  cases tallies with
  | some tallies =>
      have sighted := unseen_eq_zero_iff goes
      rw [← tallies.missed, Tracked.sighting] at sighted
      have missed : s.status = 2 ↔ ¬ s.framesMissed.toNat = 0 := by
        rw [TrackState.status]
        split
        next missing =>
          exact iff_of_true rfl (Nat.ne_of_gt (UInt32.lt_iff_toNat_lt.mp missing))
        next seen =>
          refine iff_of_false ?_ (not_not.mpr ?_)
          · split <;> decide
          · exact Nat.eq_zero_of_not_pos fun missing => seen (UInt32.lt_iff_toNat_lt.mpr missing)
      rw [missed, sighted]
      by_cases shows : id ∈ last.ids <;> simp [shows]

end Manager

/-- A state bears its id and the name that all records of the id have. -/
theorem receiveAll_bears {frames : List (Tracked F)} {id : UInt32} {name : List UInt8}
    (named : ∀ frame ∈ frames, ∀ o ∈ frame.outputs, o.trackId = id →
      (cString o.det.className).take 15 = name)
    (roi : Roi) {s : TrackState F}
    (held : (receiveAll (.fresh roi) frames).tracks[id]? = some s) : Bears id name s := by
  have turned : ∀ before : Option (TrackState F), (∀ s ∈ before, Bears id name s) →
      ∀ s ∈ turnAll roi id before frames, Bears id name s := by
    clear held
    induction frames with
    | nil => exact fun _ bears => bears
    | cons frame rest ih =>
        intro before bears
        rw [List.forall_mem_cons] at named
        apply ih named.2
        apply turn_bears bears
        intro rec member
        rcases mem_recordsFor.mp member with ⟨_, among, same⟩
        rcases List.mem_map.mp among with ⟨o, inOutputs, rfl⟩
        refine ⟨same, ?_⟩
        rw [TrackerOutput.record, copyName_copyName, cString_copyName]
        exact named.1 o inOutputs same
  have nothing : ∀ s ∈ (none : Option (TrackState F)), Bears id name s :=
    fun s member => absurd member (Option.not_mem_none s)
  rw [receiveAll_tracks, TrackManager.fresh, Std.ExtTreeMap.getElem?_empty] at held
  exact turned none nothing s held

/-! ## One events frame -/

section Frame

variable {older : List (Handled F)} {turn : Handled F} (honest : Honest (older ++ [turn]))
  (roi : Roi)

include honest

/-- Every state bears its id and a class of the tracker. -/
theorem state_bears {id : UInt32} {s : TrackState F}
    (held : (receiveAll (.fresh roi) ((older ++ [turn]).map outputOf)).tracks[id]? = some s) :
    ∃ name, Bears id (name.take 15) s ∧ ∀ o ∈ turn.outputs, o.trackId = id →
      cString o.det.className = name := by
  rcases honest.named id with ⟨name, named⟩
  refine ⟨name, receiveAll_bears ?_ roi held, ?_⟩
  · rw [List.forall_mem_map]
    intro shown among o inOutputs same
    exact congrArg (List.take 15) (named shown among o inOutputs same)
  · exact named turn (List.mem_append_right _ (List.mem_singleton_self _))

/-- The record of a track has the class of its detection. -/
theorem summary_named {id : UInt32} {s : TrackState F}
    (held : (receiveAll (.fresh roi) ((older ++ [turn]).map outputOf)).tracks[id]? = some s)
    {o : TrackerOutput F} (member : o ∈ turn.outputs) (same : o.trackId = id) :
    cString (fillSummary s).className = cString o.det.className := by
  have last : turn ∈ older ++ [turn] := List.mem_append_right _ (List.mem_singleton_self _)
  have short : (cString o.det.className).length ≤ 15 := by
    apply Nat.le_of_lt_succ
    apply length_cString_lt
    apply honest.terminated turn last
    rw [← honest.dets turn last]
    exact List.mem_map_of_mem member
  rcases state_bears honest roi held with ⟨name, bears, named⟩
  rw [fillSummary, cString_copyName, bears.className, List.take_take, Nat.min_self,
    ← named o member same, List.take_of_length_le short]

theorem state_lost_iff {id : UInt32} {s : TrackState F}
    (held : (receiveAll (.fresh roi) ((older ++ [turn]).map outputOf)).tracks[id]? = some s) :
    s.status = 2 ↔ id ∉ turn.outputs.map TrackerOutput.trackId :=
  lost_iff (List.forall_mem_map.mpr honest.numbered) roi List.map_append held

/-- Every output has a state that is not lost. -/
theorem output_held {o : TrackerOutput F} (member : o ∈ turn.outputs) :
    ∃ s, (receiveAll (.fresh roi) ((older ++ [turn]).map outputOf)).tracks[o.trackId]? =
      some s ∧ s.status ≠ 2 := by
  have shows : o.trackId ∈ (outputOf turn).ids := List.mem_map_of_mem member
  have alive := alive_of_shown (List.forall_mem_map.mpr honest.numbered) roi List.map_append
    shows
  rcases Option.isSome_iff_exists.mp alive with ⟨s, held⟩
  exact ⟨s, held, fun lost => (state_lost_iff honest roi held).mp lost shows⟩

/-- One events frame is faithful. -/
theorem frame_faithful (config : Config) (order : ViewOrder F) (header : WireFrameHeader) :
    let mgr := receiveAll (.fresh roi) ((older ++ [turn]).map outputOf)
    Faithful config turn ⟨header, (order.view mgr.tracks).map fillSummary⟩ := by
  intro mgr
  have last : turn ∈ older ++ [turn] := List.mem_append_right _ (List.mem_singleton_self _)
  constructor
  · intro m
    rw [scanFrame_eq]
    simp only [List.any_map, List.any_eq_true, Function.comp_apply, Config.isDrone,
      Bool.and_eq_true, beq_iff_eq, bne_iff_ne, order.mem_view]
    constructor
    · rintro ⟨s, ⟨id, held⟩, drone, seen⟩
      have shows := not_not.mp (mt (state_lost_iff honest roi held).mpr seen)
      rcases List.mem_map.mp shows with ⟨o, member, same⟩
      refine ⟨o.det, ?_, ?_⟩
      · rw [← honest.dets turn last]
        exact List.mem_map_of_mem member
      · rw [drone]
        exact (summary_named honest roi held member same).symm
    · rintro ⟨det, member, drone⟩
      rw [← honest.dets turn last] at member
      rcases List.mem_map.mp member with ⟨o, inOutputs, rfl⟩
      rcases output_held honest roi inOutputs with ⟨s, held, seen⟩
      refine ⟨s, ⟨_, held⟩, ?_, seen⟩
      rw [summary_named honest roi held inOutputs rfl]
      exact drone.symm
  · rw [List.forall_mem_map]
    intro s member
    rcases order.mem_view.mp member with ⟨id, held⟩
    rcases state_bears honest roi held with ⟨_, bears, _⟩
    rw [fillSummary, bears.trackId]
    exact state_lost_iff honest roi held
  · intro o member
    rcases output_held honest roi member with ⟨s, held, seen⟩
    rcases state_bears honest roi held with ⟨_, bears, _⟩
    exact ⟨fillSummary s, List.mem_map_of_mem (order.mem_view.mpr ⟨_, held⟩), bears.trackId,
      summary_named honest roi held member rfl, seen⟩

/-- It has few enough records for its count. -/
theorem frame_bounded (order : ViewOrder F) :
    (order.view (receiveAll (.fresh roi)
      ((older ++ [turn]).map outputOf)).tracks).length ≤ 65535 := by
  have taken : receiveAll (.fresh roi) ((older ++ [turn]).map outputOf) =
      (TrackManager.fresh roi).frameAll ((older ++ [turn]).map fun shown =>
        (recordsOf (outputOf shown), shown.header.timestampUs)) := by
    rw [receiveAll, frameAll, List.foldl_map, List.foldl_map]
    rfl
  rw [order.length_view, taken]
  refine Nat.le_trans (live_few roi ?_) (by decide)
  rw [List.forall_mem_map]
  intro shown among
  rw [recordsOf, outputOf, List.length_map]
  have few := honest.few shown among
  rwa [← honest.dets shown among, List.length_map] at few

end Frame

/-! ## The tracker's run -/

omit [FloatMath F] in
theorem Honest.mono {turns more : List (Handled F)} (honest : Honest more)
    (subset : turns ⊆ more) : Honest turns where
  numbered turn member := honest.numbered turn (subset member)
  named id := by
    rcases honest.named id with ⟨name, named⟩
    exact ⟨name, fun turn member => named turn (subset member)⟩
  dets turn member := honest.dets turn (subset member)
  few turn member := honest.few turn (subset member)
  terminated turn member := honest.terminated turn (subset member)

/-- What is offered to an attached peer is delivered, and the peer stays. -/
theorem Attached.offer {peer : Option Sink} (attached : Attached peer)
    (parts : List (List UInt8)) :
    ∃ next, next.Willing ∧
      ByteSink.offer peer (·.writeAll parts) = (some next, parts.flatten) := by
  rcases attached with ⟨sink, rfl, able⟩
  exact offer_willing able parts

section Rounds

variable [FloatBits F] (service : Tracker.Service F) (waiting : Nat → Option Sink)
  (frames : List (List Arrival × DetectionFrame F))

/-- The rounds are those of the tracker. -/
theorem handleAll_outputs (born : UInt32 → Nat) (number : Nat) :
    (service.handleAll waiting frames).2.map (fun turn => turn.2.outputs) =
      (service.tracker.track born number (frames.map fun frame => given frame.2)).map
        Tracked.outputs := by
  induction frames generalizing service waiting born number with
  | nil => rfl
  | cons frame rest ih => exact congrArg (_ :: ·) (ih _ _ _ _)

theorem handleAll_dets :
    (service.handleAll waiting frames).2.map (fun turn => turn.2.dets) =
      frames.map fun frame => frame.2.dets := by
  induction frames generalizing service waiting with
  | nil => rfl
  | cons frame rest ih => exact congrArg (frame.2.dets :: ·) (ih _ _)

theorem handleAll_placed :
    ∀ turn ∈ (service.handleAll waiting frames).2,
      turn.2.outputs.map TrackerOutput.det = turn.2.dets := by
  induction frames generalizing service waiting with
  | nil => exact nofun
  | cons frame rest ih =>
      rw [Tracker.Service.handleAll, List.forall_mem_cons]
      exact ⟨update_dets _ _ _, ih _ _⟩

variable {service waiting}

/-- An attached consumer gets every output. -/
theorem handleAll_sent (attached : Attached (service.outConn <|> waiting 0)) :
    ∀ turn ∈ (service.handleAll waiting frames).2,
      turn.2.sent = (trackParts turn.2.header turn.2.outputs).flatten := by
  induction frames generalizing service waiting with
  | nil => exact nofun
  | cons frame rest ih =>
      rw [Tracker.Service.handleAll, List.forall_mem_cons]
      rcases attached.offer (trackParts frame.2.header
        (service.tracker.update frame.2.header.frameId frame.2.dets).1) with
        ⟨next, able, written⟩
      constructor
      · exact congrArg Prod.snd written
      · apply ih
        have stays : (service.handle (waiting 0) frame.2).1.outConn = some next :=
          congrArg Prod.fst written
        rw [stays]
        exact ⟨next, rfl, able⟩

end Rounds

variable [FloatBits F]

/-- An element of one list has a counterpart in the other. -/
theorem exists_of_map_eq {α β γ : Type*} {first : α → γ} {second : β → γ} {xs : List α}
    {ys : List β} (same : xs.map first = ys.map second) :
    ∀ x ∈ xs, ∃ y ∈ ys, second y = first x := by
  intro x member
  have among := List.mem_map_of_mem (f := first) member
  rw [same] at among
  exact List.mem_map.mp among

/-- A run from the start is honest. -/
theorem start_honest (waiting : Nat → Option Sink)
    {frames : List (List Arrival × DetectionFrame F)}
    (enough : EnoughIds (frames.map fun frame => given frame.2))
    (few : ∀ frame ∈ frames, frame.2.dets.length ≤ 64)
    (terminated : ∀ frame ∈ frames, ∀ det ∈ frame.2.dets, 0 ∈ det.className) :
    Honest ((Tracker.Service.start.handleAll waiting frames).2.map Prod.snd) := by
  have outputs := handleAll_outputs Tracker.Service.start waiting frames (fun _ => 0) 0
  have dets := handleAll_dets Tracker.Service.start waiting frames
  have placed := handleAll_placed Tracker.Service.start waiting frames
  generalize (Tracker.Service.start.handleAll waiting frames).2 = turns at outputs dets placed
  have tracked := exists_of_map_eq outputs
  have handled := exists_of_map_eq dets
  constructor
  · rw [List.forall_mem_map]
    intro turn member
    rcases tracked turn member with ⟨frame, among, same⟩
    have numbered := trackAll_ids enough frame among
    rwa [Tracked.ids, same] at numbered
  · intro id
    rcases trackAll_named enough id with ⟨name, named⟩
    refine ⟨name, List.forall_mem_map.mpr ?_⟩
    intro turn member
    rcases tracked turn member with ⟨frame, among, same⟩
    rw [← same]
    exact named frame among
  · rwa [List.forall_mem_map]
  · rw [List.forall_mem_map]
    intro turn member
    rcases handled turn member with ⟨frame, among, same⟩
    rw [← same]
    exact few frame among
  · rw [List.forall_mem_map]
    intro turn member
    rcases handled turn member with ⟨frame, among, same⟩
    rw [← same]
    exact terminated frame among

/-! ## The two planes -/

omit [FloatMath F] in
/-- Outputs that were delivered are read back. -/
theorem tracks_read {turns : List (Handled F)}
    (few : ∀ turn ∈ turns, turn.outputs.length ≤ 65535)
    (sent : ∀ turn ∈ turns, turn.sent = (trackParts turn.header turn.outputs).flatten)
    {chunks : List Chunk} (carried : joined chunks = (turns.map Handled.sent).flatten) :
    tracksReader.drain (unpaused chunks) = (turns.map tracksFrame, []) := by
  have shows := unpaused_shows chunks
  rw [carried, ← List.append_nil (List.flatten _)] at shows
  refine tracksReader.drain_messages Handled.sent tracksFrame ?_
    (fun _ => readTracks_ended) shows
  intro turn member stream more later shows
  have counted : (UInt16.ofNat turn.outputs.length).toNat = turn.outputs.length :=
    UInt16.toNat_ofNat_of_lt' (Nat.lt_succ_of_le (few turn member))
  apply readTracks_frame
  · simp only [counted, recordsOf, outputOf, List.length_map]
  · rw [sent turn member] at shows
    simpa only [trackParts, frameBytes, tracksFrame, recordsOf, outputOf, List.length_map]
      using shows

/-- Every frame that the track manager is given is published faithfully. -/
theorem published_faithful (config : Config) (roi : Roi) {older rest : List (Handled F)}
    (honest : Honest (older ++ rest)) (service : Temporal.Service F)
    (current : service.mgr = receiveAll (.fresh roi) (older.map outputOf))
    {orders : Nat → ViewOrder F} {waiting : Nat → Option Sink}
    (attached : Attached (service.outConn <|> waiting 0)) :
    ∃ summaries : List (SummaryFrame F),
      (service.handleAll orders waiting (rest.map tracksFrame)).2 =
        summaries.map SummaryFrame.bytes ∧
      List.Forall₂ (fun turn summary => Faithful config turn summary.received)
        rest summaries := by
  induction rest generalizing older service orders waiting with
  | nil => exact ⟨[], rfl, .nil⟩
  | cons turn rest ih =>
      rw [List.append_cons] at honest
      have initial := honest.mono (List.subset_append_left (older ++ [turn]) rest)
      have next : service.mgr.frame (tracksFrame turn).records
            (tracksFrame turn).header.timestampUs =
          receiveAll (.fresh roi) ((older ++ [turn]).map outputOf) := by
        rw [List.map_append, receiveAll_append, ← current]
        rfl
      let summary : SummaryFrame F :=
        { header := (tracksFrame turn).header
          tracks := (orders 0).view
            (receiveAll (.fresh roi) ((older ++ [turn]).map outputOf)).tracks
          bounded := frame_bounded initial roi (orders 0) }
      rcases attached.offer (summaryParts summary.header summary.tracks) with
        ⟨sink, able, written⟩
      have offered : offer (service.outConn <|> waiting 0)
          (publishFrame · (tracksFrame turn).header summary.tracks) =
          (some sink, summary.bytes) := written
      have handled : service.handle (orders 0) (waiting 0) (tracksFrame turn) =
          (⟨receiveAll (.fresh roi) ((older ++ [turn]).map outputOf), some sink⟩,
            summary.bytes) := by
        simp only [Temporal.Service.handle, next]
        rw [offered]
      have faithful := frame_faithful initial roi config (orders 0) summary.received.header
      have later : Attached ((some sink) <|> waiting 1) := ⟨sink, rfl, able⟩
      rw [List.map_cons, Temporal.Service.handleAll, handled]
      rcases ih honest ⟨_, some sink⟩ rfl later with ⟨summaries, published, rest_faithful⟩
      exact ⟨summary :: summaries, congrArg (summary.bytes :: ·) published,
        .cons faithful rest_faithful⟩

/-! ## All planes -/

/-- Delivered whole, every detection frame leads to one events frame, which shows the
drone exactly when the detection frame does. -/
theorem presence_faithful (config : Config) (roi : Roi) (orders : Nat → ViewOrder F)
    {frames : List (List Arrival × DetectionFrame F)}
    (few : ∀ frame ∈ frames, frame.2.dets.length ≤ 64)
    (terminated : ∀ frame ∈ frames, ∀ det ∈ frame.2.dets, 0 ∈ det.className)
    (enough : EnoughIds (frames.map fun frame => given frame.2))
    {tracksWaiting eventsWaiting : Nat → Option Sink}
    (tracksAttached : Attached (tracksWaiting 0))
    (eventsAttached : Attached (eventsWaiting 0))
    {tracksChunks : List Chunk} {eventsStream : List Arrival} :
    let turns := (Tracker.Service.start.handleAll tracksWaiting frames).2.map Prod.snd
    let published := ((Temporal.Service.start roi).handleAll orders eventsWaiting
      (tracksReader.drain (unpaused tracksChunks)).1).2
    joined tracksChunks = (turns.map Handled.sent).flatten →
    contents eventsStream = published.flatten →
    (∀ offset ∈ pauseOffsets 0 eventsStream,
      ∃ whole, offset = (published.take whole).flatten.length) →
    turns.map Handled.dets = frames.map (fun frame => frame.2.dets) ∧
      List.Forall₂ (Faithful config) turns
        ((eventsReader.drain eventsStream).1.filterMap events?) := by
  intro turns published tracksCarried eventsCarried between
  have honest := start_honest tracksWaiting enough few terminated
  have placed : ∀ turn ∈ turns, turn.outputs.length ≤ 65535 := by
    intro turn member
    have bound := honest.few turn member
    rw [← honest.dets turn member, List.length_map] at bound
    omega
  have sent : ∀ turn ∈ turns, turn.sent = (trackParts turn.header turn.outputs).flatten := by
    rw [List.forall_mem_map]
    exact handleAll_sent frames tracksAttached
  have read := tracks_read placed sent tracksCarried
  have current : (Temporal.Service.start roi : Temporal.Service F).mgr =
      receiveAll (.fresh roi) (([] : List (Handled F)).map outputOf) := rfl
  have summarized : ∃ summaries : List (SummaryFrame F),
      published = summaries.map SummaryFrame.bytes ∧
      List.Forall₂ (fun turn summary => Faithful config turn summary.received)
        turns summaries := by
    simp only [published, read]
    exact published_faithful config roi honest _ current eventsAttached
  rcases summarized with ⟨summaries, bytes, faithful⟩
  constructor
  · rw [← handleAll_dets Tracker.Service.start tracksWaiting frames, List.map_map]
    rfl
  · have gets : GetsThrough summaries eventsStream := by
      apply getsThrough_of_between
      · rw [eventsCarried, bytes, sentBytes]
      · intro offset member
        rcases between offset member with ⟨whole, same⟩
        refine ⟨whole, ?_⟩
        rw [same, bytes, sentBytes, List.map_take]
    rw [gets.received, List.forall₂_map_right_iff]
    exact faithful

namespace Example

/-- A frame with a drone, and one without it. -/
def passing : List (List Arrival × DetectionFrame Float32) :=
  [([], ⟨message.header, [hovering]⟩), ([], ⟨message.header, []⟩)]

def listening (_ : Nat) : Option Sink := some .fresh

theorem listening_attached : Attached (listening 0) := ⟨.fresh, rfl, nofun⟩

/-- Their rounds. -/
def rounds : List (Handled Float32) :=
  (Tracker.Service.start.handleAll listening passing).2.map Prod.snd

def tracksSent : List Chunk := bytewise (rounds.map Handled.sent).flatten

def published : List (List UInt8) :=
  ((Temporal.Service.start .disabled).handleAll (F := Float32) (fun _ => .ascending)
    listening (tracksReader.drain (unpaused tracksSent)).1).2

/-- The events frames that arrive. -/
def arrived : List (EventsFrame Float32) :=
  (eventsReader.drain (unpaused (bytewise published.flatten))).1.filterMap events?

end Example

/-- The drone is present in the first frame, and not in the second one, where its track
coasts. -/
theorem presence_faithful_passing :
    ∃ first second, Example.arrived = [first, second] ∧
      first.records.map (fun s => (s.trackId, s.status)) = [(1, 0)] ∧
      second.records.map (fun s => (s.trackId, s.status)) = [(1, 2)] ∧
      ∀ m, (scanFrame (.ofDevice "cam0") m first.records).present = true ∧
        (scanFrame (.ofDevice "cam0") m second.records).present = false := by
  have cases {Given : List Arrival × DetectionFrame Float32 → Prop}
      (sighted : Given ([], ⟨Example.message.header, [Example.hovering]⟩))
      (clear : Given ([], ⟨Example.message.header, []⟩)) :
      ∀ frame ∈ Example.passing, Given frame :=
    List.forall_mem_cons.mpr ⟨sighted, List.forall_mem_singleton.mpr clear⟩
  have few : ∀ frame ∈ Example.passing, frame.2.dets.length ≤ 64 :=
    cases (by decide) (by decide)
  have terminated : ∀ frame ∈ Example.passing, ∀ det ∈ frame.2.dets, 0 ∈ det.className :=
    cases (List.forall_mem_singleton.mpr (Vector.mem_toList_iff.mp (by decide))) nofun
  have enough : EnoughIds (Example.passing.map fun frame => given frame.2) := by decide
  have carried : contents (unpaused (bytewise Example.published.flatten)) =
      Example.published.flatten := by
    have whole := contents_unpaused (bytewise Example.published.flatten) []
    rwa [List.append_nil, joined_bytewise, contents, List.append_nil] at whole
  have unbroken : ∀ offset ∈ pauseOffsets 0 (unpaused (bytewise Example.published.flatten)),
      ∃ whole, offset = (Example.published.take whole).flatten.length := by
    rw [pauseOffsets_unpaused]
    exact List.forall_mem_nil _
  rcases presence_faithful (.ofDevice "cam0") .disabled (fun _ => .ascending) few terminated
    enough Example.listening_attached Example.listening_attached (joined_bytewise _) carried
    unbroken with ⟨_, faithful⟩
  have statuses : Example.arrived.map (fun events =>
      events.records.map fun s => (s.trackId, s.status)) = [[(1, 0)], [(1, 2)]] := by
    decide +kernel
  change List.Forall₂ _ Example.rounds Example.arrived at faithful
  generalize Example.arrived = arrived at faithful statuses
  rcases List.forall₂_cons_left_iff.mp faithful with ⟨first, _, sighted, last, rfl⟩
  rcases List.forall₂_cons_left_iff.mp last with ⟨second, _, clear, none, rfl⟩
  rw [List.forall₂_nil_left_iff.mp none] at statuses ⊢
  simp only [List.map_cons, List.map_nil, List.cons.injEq, and_true] at statuses
  refine ⟨first, second, rfl, statuses.1, statuses.2, fun m => ⟨?_, ?_⟩⟩
  · exact (sighted.present m).mpr ⟨Example.hovering, List.mem_singleton_self _, by decide⟩
  · rw [Bool.eq_false_iff]
    intro present
    rcases (clear.present m).mp present with ⟨det, among, _⟩
    exact List.not_mem_nil among

end KhadasYolo.Dataflow
