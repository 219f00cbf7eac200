import KhadasYolo.Dataflow.Presence
import KhadasYolo.Postprocess.Detected

/-!
# From the tensors to presence

Six components lie between the output tensors of the model and the summarizer's decision:
`post_process`, the data publisher, the tracker and the temporal service with their
readers, and `recv_frame`.  Where all frames are delivered whole, the drone is present
exactly when some cell of the tensors has a candidate.
-/

namespace KhadasYolo.Dataflow

open Ipc ByteStream ByteSink Postprocess Tracker Temporal TrackManager Summarizer

universe u

/-- The one format of floating-point values in all components. -/
class FloatFormat (F : Type u) extends FloatMath F, FloatConvert F, FloatBits F

instance FloatFormat.single : FloatFormat Float32 where
  __ := FloatOps.singleMath
  __ := FloatConvert.single
  __ := FloatBits.single

variable {F : Type u}

/-! ## Names -/

/-- A label as the summarizer gets it. -/
def shownName (label : List UInt8) : List UInt8 := (label.takeWhile (· != 0)).take 15

theorem takeWhile_padded (label : List UInt8) (count : Nat) :
    (label ++ List.replicate count 0).takeWhile (· != 0) = label.takeWhile (· != 0) := by
  induction label with
  | nil => cases count <;> rfl
  | cons byte label ih =>
      rw [List.cons_append, List.takeWhile_cons, List.takeWhile_cons]
      split
      · rw [ih]
      · rfl

theorem cString_copyLabel (label : List UInt8) :
    cString (copyLabel label) = (label.takeWhile (· != 0)).take 16 := by
  have padded : (copyLabel label).toList = (label ++ List.replicate 16 0).take 16 := by
    apply List.ext_getElem
    · simp
    · intro position inArray inList
      simp only [copyLabel, Vector.getElem_toList, Vector.getElem_ofFn, List.getElem_take,
        List.getElem_append, List.getElem_replicate]
      split
      next named => exact List.getD_eq_getElem _ _ named
      next rest => exact List.getD_eq_default _ _ (Nat.not_lt.mp rest)
  rw [cString, padded, ← List.take_takeWhile, takeWhile_padded]

/-- An array whose string is short has a NUL. -/
theorem terminated_of_length {size : Nat} {bytes : Vector UInt8 size}
    (short : (cString bytes).length < size) : 0 ∈ bytes := by
  by_contra unterminated
  have whole : cString bytes = bytes.toList := by
    rw [cString, List.takeWhile_eq_self_iff]
    intro byte member
    rw [bne_iff_ne]
    rintro rfl
    exact unterminated (Vector.mem_toList_iff.mp member)
  rw [whole, Vector.length_toList] at short
  exact absurd short (Nat.lt_irrefl size)

/-! ## The tracker's input -/

section Frames

variable [FloatMath F]

/-- A tracker issues no more ids than it gets detections. -/
theorem issues_le (tracker : IouTracker F) (inputs : List (Tracker.Input F))
    (few : ∀ input ∈ inputs, input.dets.length ≤ 64) :
    tracker.issues inputs ≤ 64 * inputs.length := by
  induction inputs generalizing tracker with
  | nil => exact Nat.le_refl 0
  | cons input inputs ih =>
      rw [List.forall_mem_cons] at few
      have spawned : tracker.spawned input.dets ≤ input.dets.length := by
        rw [IouTracker.spawned, ← length_detToTrack input.dets tracker.tracks]
        exact List.count_le_length
      have rest := ih (tracker.update input.frameId input.dets).2 few.2
      rw [IouTracker.issues, List.length_cons]
      omega

/-- What a frame says of the presence of a drone. -/
def Decides (config : Config) (events : EventsFrame F) (drone : Prop) : Prop :=
  ∀ m, (scanFrame config m events.records).present = true ↔ drone

end Frames

/-- An element of one list is related to one of the other. -/
theorem exists_of_forall₂ {α β : Type*} {R : α → β → Prop} {xs : List α} {ys : List β}
    (related : List.Forall₂ R xs ys) : ∀ y ∈ ys, ∃ x ∈ xs, R x y := by
  induction related with
  | nil => exact nofun
  | @cons x y xs ys head _ ih =>
      rw [List.forall_mem_cons]
      refine ⟨⟨x, List.mem_cons_self, head⟩, fun other member => ?_⟩
      rcases ih other member with ⟨partner, among, holds⟩
      exact ⟨partner, List.mem_cons_of_mem x among, holds⟩

theorem forall₂_comp {α β γ : Type*} {R : α → β → Prop} {S : β → γ → Prop} {T : α → γ → Prop}
    (comp : ∀ x y z, R x y → S y z → T x z) {xs : List α} {ys : List β} {zs : List γ}
    (first : List.Forall₂ R xs ys) (second : List.Forall₂ S ys zs) :
    List.Forall₂ T xs zs := by
  induction first generalizing zs with
  | nil =>
      cases second
      exact .nil
  | cons head _ ih =>
      cases second with
      | cons next rest => exact .cons (comp _ _ _ head next) (ih rest)

/-! ## The images -/

/-- An image with what `post_process` has returned for it. -/
structure Image (F : Type u) where
  args : Arguments F
  frameId : UInt64
  timestampUs : UInt64
  group : DetectResultGroup F

/-- What is published of it. -/
def Image.message (image : Image F) : DetectionMessage F :=
  ⟨image.frameId, image.timestampUs, image.group⟩

section Images

variable [FloatConvert F]

/-- The shipped build has one class, with a label. -/
def Image.Returned (label : List UInt8) (image : Image F) : Prop :=
  postProcess 1 (fun _ => label) image.args = some image.group

/-- The detections of a frame have one name, and there are some when the tensors have a
candidate. -/
structure Reports (label : List UInt8) (image : Image F) (frame : DetectionFrame F) : Prop where
  few : frame.dets.length ≤ 64
  terminated : ∀ det ∈ frame.dets, 0 ∈ det.className
  names : ∀ name, (∃ det ∈ frame.dets, cString det.className = name) ↔
    name = shownName label ∧ image.args.Detects 1

theorem reports_of_same {label : List UInt8} {image : Image F} {frame : DetectionFrame F}
    (returned : image.Returned label) (same : SameDetections image.message frame) :
    Reports label image frame := by
  rcases postProcess_detects returned with ⟨some, named⟩
  have shown : ∀ det ∈ frame.dets, cString det.className = shownName label := by
    intro det member
    rcases exists_of_forall₂ same.records det member with ⟨src, reported, copied⟩
    rw [copied.name, named src reported, cString_copyLabel, List.take_take]
    rfl
  have length : frame.dets.length = image.group.detections.length :=
    same.records.length_eq.symm
  refine ⟨?_, ?_, ?_⟩
  · rw [length, image.group.length_detections]
    exact image.group.count_le
  · intro det member
    apply terminated_of_length
    rw [shown det member, shownName, List.length_take]
    omega
  · intro name
    rw [← some, ← List.length_pos_iff_ne_nil, ← length, List.length_pos_iff_exists_mem]
    constructor
    · rintro ⟨det, member, rfl⟩
      exact ⟨shown det member, det, member⟩
    · rintro ⟨rfl, det, member⟩
      exact ⟨det, member, shown det member⟩

end Images

section Delivery

variable [FloatMath F] [FloatBits F]

/-- Outputs of the tracker that are delivered whole, without pauses. -/
theorem delivered_faithful (config : Config) (roi : Roi) (orders : Nat → ViewOrder F)
    {turns : List (Handled F)} (honest : Honest turns)
    (sent : ∀ turn ∈ turns, turn.sent = (trackParts turn.header turn.outputs).flatten)
    {waiting : Nat → Option Sink} (attached : Attached (waiting 0))
    {tracksChunks eventsChunks : List Chunk}
    (tracksCarried : joined tracksChunks = (turns.map Handled.sent).flatten)
    (eventsCarried : joined eventsChunks =
      ((Temporal.Service.start roi : Temporal.Service F).handleAll orders waiting
        (tracksReader.drain (unpaused tracksChunks)).1).2.flatten) :
    List.Forall₂ (Faithful config) turns
      ((eventsReader.drain (unpaused eventsChunks)).1.filterMap events?) := by
  have placed : ∀ turn ∈ turns, turn.outputs.length ≤ 65535 := by
    intro turn member
    have bound := honest.few turn member
    rw [← honest.dets turn member, List.length_map] at bound
    omega
  have current : (Temporal.Service.start roi : Temporal.Service F).mgr =
      receiveAll (.fresh roi) (([] : List (Handled F)).map outputOf) := rfl
  rw [tracks_read placed sent tracksCarried] at eventsCarried
  rw [← List.nil_append turns] at honest
  rcases published_faithful config roi honest _ current attached with
    ⟨summaries, bytes, faithful⟩
  have carried : contents (unpaused eventsChunks) = sentBytes summaries := by
    have whole := contents_unpaused eventsChunks []
    rw [List.append_nil, contents, List.append_nil] at whole
    rw [whole, eventsCarried, bytes, sentBytes]
  have gets : GetsThrough summaries (unpaused eventsChunks) := by
    apply getsThrough_of_between carried
    intro offset member
    rw [pauseOffsets_unpaused] at member
    cases member
  rw [gets.received, List.forall₂_map_right_iff]
  exact faithful

end Delivery

variable [FloatFormat F]

/-- What is published is read by the tracker's frame loop. -/
theorem images_read {label : List UInt8} {images : List (Image F)}
    (returned : ∀ image ∈ images, image.Returned label) (sends : List Nat)
    {chunks : List Chunk} (carried : joined chunks =
      (sendEach sendFrame (.accepting sends) (images.map Image.message)).2.sent) :
    List.Forall₂ (Reports label) images
      (((detectionReader : Reader (DetectionFrame F)).traced.drain
        (unpaused chunks)).1.map Prod.snd) := by
  rcases (detections_round_trip _ sends carried).2 with ⟨frames, read, same⟩
  rw [detectionReader.traced_drain_items, read]
  rw [List.forall₂_map_left_iff] at same
  have both := (List.forall₂_and_left images frames).mpr ⟨returned, same⟩
  exact both.imp fun _ _ holds => reports_of_same holds.1 holds.2

/-- Delivered whole, every image leads to one events frame, and the drone is present in it
exactly when it is what the build detects and a cell of the tensors has a candidate. -/
theorem drone_present_iff (config : Config) (roi : Roi) (orders : Nat → ViewOrder F)
    {label : List UInt8} {images : List (Image F)}
    (returned : ∀ image ∈ images, image.Returned label)
    (few : 64 * images.length < 2 ^ 32 - 1)
    {tracksWaiting eventsWaiting : Nat → Option Sink}
    (tracksAttached : Attached (tracksWaiting 0)) (eventsAttached : Attached (eventsWaiting 0))
    (dataSends : List Nat) {dataChunks tracksChunks eventsChunks : List Chunk} :
    let turns := ((Tracker.Service.start : Tracker.Service F).serve
      [⟨dataChunks, tracksWaiting⟩]).map Prod.snd
    let published := ((Temporal.Service.start roi : Temporal.Service F).handleAll orders
      eventsWaiting (tracksReader.drain (unpaused tracksChunks)).1).2
    joined dataChunks =
      (sendEach sendFrame (.accepting dataSends) (images.map Image.message)).2.sent →
    joined tracksChunks = (turns.map Handled.sent).flatten →
    joined eventsChunks = published.flatten →
    List.Forall₂
      (fun image events =>
        Decides config events (config.droneClass = shownName label ∧ image.args.Detects 1))
      images (((eventsReader : Reader (Received F)).drain
        (unpaused eventsChunks)).1.filterMap events?) := by
  intro turns published dataCarried tracksCarried eventsCarried
  have read := images_read returned dataSends dataCarried
  have only : turns = (Tracker.Service.start.handleAll tracksWaiting
      ((detectionReader : Reader (DetectionFrame F)).traced.drain
        (unpaused dataChunks)).1).2.map Prod.snd := by
    simp only [turns, Tracker.Service.serve, List.append_nil]
  generalize ((detectionReader : Reader (DetectionFrame F)).traced.drain
    (unpaused dataChunks)).1 = frames at read only
  have reported : ∀ frame ∈ frames, ∃ image ∈ images, Reports label image frame.2 := by
    intro frame member
    exact exists_of_forall₂ read frame.2 (List.mem_map_of_mem member)
  have short : ∀ frame ∈ frames, frame.2.dets.length ≤ 64 := by
    intro frame member
    rcases reported frame member with ⟨image, _, reports⟩
    exact reports.few
  have enough : EnoughIds (frames.map fun frame => given frame.2) := by
    have bound := issues_le (.fresh : IouTracker F) (frames.map fun frame => given frame.2) (by
      rw [List.forall_mem_map]
      exact short)
    have length := read.length_eq
    rw [List.length_map] at bound length
    rw [EnoughIds]
    omega
  have honest : Honest turns := by
    rw [only]
    refine start_honest tracksWaiting enough short fun frame member => ?_
    rcases reported frame member with ⟨image, _, reports⟩
    exact reports.terminated
  have sent : ∀ turn ∈ turns, turn.sent = (trackParts turn.header turn.outputs).flatten := by
    rw [only, List.forall_mem_map]
    exact handleAll_sent frames tracksAttached
  have faithful := delivered_faithful config roi orders honest sent eventsAttached tracksCarried
    eventsCarried
  have handled : List.Forall₂ (fun (frame : DetectionFrame F) turn => turn.dets = frame.dets)
      (frames.map Prod.snd) turns := by
    have dets := handleAll_dets (Tracker.Service.start : Tracker.Service F) tracksWaiting frames
    rw [only, List.forall₂_map_left_iff, List.forall₂_map_right_iff]
    rw [← List.forall₂_eq_eq_eq, List.forall₂_map_left_iff, List.forall₂_map_right_iff] at dets
    exact dets.flip
  have seen : List.Forall₂ (fun (image : Image F) (turn : Handled F) =>
      (∃ det ∈ turn.dets, cString det.className = config.droneClass) ↔
        config.droneClass = shownName label ∧ image.args.Detects 1) images turns := by
    refine forall₂_comp (fun image frame turn reports dets => ?_) read handled
    rw [dets]
    exact reports.names config.droneClass
  exact forall₂_comp (fun image turn events sees shows m => (shows.present m).trans sees) seen
    faithful

/-- An image with one bright cell is sorted. -/
theorem returned_spot (label : List UInt8) :
    ∃ group, postProcess 1 (fun _ => label) (Labels.spot 0 : Arguments F) = some group := by
  rcases Labels.candidates_spot (F := F) Nat.one_pos with ⟨c, candidates, _⟩
  rw [postProcess, extract_eq, candidates]
  dsimp only
  rw [List.length_singleton, if_neg (by decide), Labels.quickSortIndiceInverse_one]
  exact ⟨_, rfl⟩

theorem detects_spot : (Labels.spot 0 : Arguments F).Detects 1 := by
  rcases Labels.candidates_spot (F := F) Nat.one_pos with ⟨c, candidates, _⟩
  rw [← candidates_ne_nil_iff, candidates]
  exact List.cons_ne_nil c []

/-- One bright cell, and the summarizer of this build sees a drone. -/
theorem drone_present_iff_spot :
    ∃ (image : Image Float32) (events : EventsFrame Float32),
      image.args = Labels.spot 0 ∧ image.Returned [85, 65, 86] ∧
      Decides (.ofDevice "33") events True := by
  rcases returned_spot (F := Float32) [85, 65, 86] with ⟨group, returned⟩
  let image : Image Float32 := ⟨Labels.spot 0, 1, 1000, group⟩
  have all : ∀ other ∈ [image], other.Returned [85, 65, 86] := by
    rw [List.forall_mem_singleton]
    exact returned
  have few : 64 * [image].length < 2 ^ 32 - 1 := by
    rw [List.length_singleton]
    decide
  have present := drone_present_iff (.ofDevice "33") .disabled (fun _ => .ascending) all
    few Example.listening_attached Example.listening_attached [] (joined_bytewise _)
    (joined_bytewise _) (joined_bytewise _)
  rcases List.forall₂_cons_left_iff.mp present with ⟨events, _, first, _, _⟩
  exact ⟨image, events, rfl, returned, fun m =>
    (first m).trans (iff_true_intro ⟨by decide, detects_spot⟩)⟩

end KhadasYolo.Dataflow
