import KhadasYolo.Tracker.Runs
import Mathlib.Data.List.Sort

/-!
# What the tracker remembers

The stored tracks are the latest sightings of the last 31 frames, and nothing else: an id
is held with the detection, the frame number and the age of the last output that had it.
-/

namespace KhadasYolo.Tracker

universe u

variable {F : Type u}

/-! ## Latest sightings -/

/-- One frame of outputs with its number. -/
structure Shown (F : Type u) where
  frameId : UInt64
  outputs : List (TrackerOutput F)

/-- The last output of an id, and how many frames ago it was. -/
structure Sighting (F : Type u) where
  det : TrackerDetection F
  frameId : UInt64
  age : Nat

/-- The latest sighting of an id, the newest frame first. -/
def latest (id : UInt32) : List (Shown F) → Option (Sighting F)
  | [] => none
  | newest :: older =>
      match newest.outputs.find? (·.trackId == id) with
      | some o => some ⟨o.det, newest.frameId, 0⟩
      | none => (latest id older).map fun s => { s with age := s.age + 1 }

/-- The track of a sighting, unless it is too old. -/
def Sighting.track (id : UInt32) (s : Sighting F) : Option (Track F) :=
  if s.age ≤ kMaxAge then some ⟨id, s.det, s.age, s.frameId⟩ else none

/-- The output frames of a run, the newest first. -/
def IouTracker.history [FloatMath F] (self : IouTracker F) (inputs : List (Input F)) :
    List (Shown F) :=
  ((inputs.map Input.frameId).zipWith Shown.mk (self.shown inputs)).reverse

/-- A sighting is in the frame that its age says. -/
theorem latest_place {id : UInt32} {history : List (Shown F)} {s : Sighting F}
    (found : latest id history = some s) :
    ∃ frame, history[s.age]? = some frame ∧ ∃ o ∈ frame.outputs, o.trackId = id := by
  induction history generalizing s with
  | nil => cases found
  | cons newest older ih =>
      rw [latest] at found
      cases sight : newest.outputs.find? (·.trackId == id) with
      | some o =>
          rw [sight] at found
          cases found
          exact ⟨newest, rfl, o, List.mem_of_find?_eq_some sight,
            by simpa using List.find?_some sight⟩
      | none =>
          rw [sight] at found
          rcases Option.map_eq_some_iff.mp found with ⟨earlier, before, rfl⟩
          rcases ih before with ⟨frame, place, shows⟩
          exact ⟨frame, place, shows⟩

section Store

variable [FloatMath F] {tracker next : IouTracker F} {history : List (Shown F)}
  {frameId : UInt64} {dets : List (TrackerDetection F)} {outputs : List (TrackerOutput F)}

/-- The tracks are the latest sightings that are young enough. -/
def Remembers (tracker : IouTracker F) (history : List (Shown F)) : Prop :=
  ∀ id, tracker.held id = (latest id history).bind (Sighting.track id)

omit [FloatMath F] in
/-- A track that gets older stays the track of its sighting. -/
theorem Sighting.track_age (id : UInt32) (s : Sighting F) :
    (s.track id).bind Track.age = ({ s with age := s.age + 1 } : Sighting F).track id := by
  rw [track, track]
  dsimp only
  split
  · rfl
  next old => rw [if_neg (by omega), Option.bind_none]

theorem Remembers.step (remembers : Remembers tracker history)
    (updated : Updated tracker frameId dets outputs next) :
    Remembers next (⟨frameId, outputs⟩ :: history) := by
  intro id
  rw [updated.held, latest]
  dsimp only
  cases sight : outputs.find? (·.trackId == id) with
  | some o =>
      have named : o.trackId = id := by simpa using List.find?_some sight
      rw [← named]
      rfl
  | none =>
      dsimp only
      rw [remembers id]
      cases latest id history with
      | none => rfl
      | some s => exact s.track_age id

omit [FloatMath F] in
/-- Distinct ids that were all shown in the last 31 frames. -/
theorem Remembers.length_le (remembers : Remembers tracker history)
    (distinct : (idsOf tracker.tracks).Nodup) :
    tracker.tracks.length ≤ ((history.take (kMaxAge + 1)).map (·.outputs.length)).sum := by
  have shown : idsOf tracker.tracks ⊆
      ((history.take (kMaxAge + 1)).flatMap Shown.outputs).map TrackerOutput.trackId := by
    intro id member
    rcases List.mem_map.mp member with ⟨tr, among, rfl⟩
    have held : tracker.held tr.id = some tr := heldIn_of_mem distinct among
    rw [remembers tr.id] at held
    rcases Option.bind_eq_some_iff.mp held with ⟨s, found, young⟩
    rw [Sighting.track] at young
    split at young
    next recent =>
      rcases latest_place found with ⟨frame, place, o, output, named⟩
      rw [← named]
      refine List.mem_map_of_mem (List.mem_flatMap.mpr ⟨frame, ?_, output⟩)
      refine List.mem_of_getElem? (i := s.age) ?_
      rwa [List.getElem?_take_of_lt (Nat.lt_succ_of_le recent)]
    · cases young
  have few := (List.subperm_of_subset distinct shown).length_le
  rwa [idsOf, List.length_map, List.length_map, List.length_flatMap] at few

end Store

/-! ## The order of the tracks -/

/-- Ids in the order in which they are given out. -/
def Ascending (ids : List UInt32) : Prop := ids.Pairwise fun a b => a.toNat < b.toNat

section Order

variable {u : Updating F} {entry : TrackerDetection F × Option Nat}
  {entries : List (TrackerDetection F × Option Nat)}

/-- A detection keeps the ids or adds the next one behind them. -/
theorem idsOf_placeDetection (frameId : UInt64) (u : Updating F)
    (entry : TrackerDetection F × Option Nat) :
    idsOf (placeDetection frameId u entry).tracks = idsOf u.tracks ∨
      idsOf (placeDetection frameId u entry).tracks = idsOf u.tracks ++ [u.nextId] := by
  rcases entry with ⟨det, _ | t⟩
  · exact .inr List.map_append
  · left
    cases found : u.tracks[t]? with
    | none => simp only [placeDetection, found]
    | some tr =>
        rcases List.getElem?_eq_some_iff.mp found with ⟨inRange, same⟩
        simp only [placeDetection, found, idsOf, List.map_set]
        rw [← same, ← List.getElem_map Track.id (h := by rwa [List.length_map])]
        exact List.set_getElem_self _

theorem Ascending.place {frameId : UInt64} (ascending : Ascending (idsOf u.tracks))
    (issued : Issued (idsOf u.tracks) u.nextId) :
    Ascending (idsOf (placeDetection frameId u entry).tracks) := by
  rcases idsOf_placeDetection frameId u entry with same | more
  · rwa [same]
  · rw [more]
    refine List.pairwise_append.mpr ⟨ascending, List.pairwise_singleton _ _, ?_⟩
    intro id member next last
    rw [List.mem_singleton.mp last]
    exact issued.below id member

theorem Ascending.placeAll (frameId : UInt64) (ascending : Ascending (idsOf u.tracks))
    (placeable : Placeable u entries) :
    Ascending (idsOf (entries.foldl (placeDetection frameId) u).tracks) := by
  induction entries generalizing u with
  | nil => exact ascending
  | cons entry rest ih =>
      rcases placeDetection_placed frameId placeable with ⟨first, placed⟩
      exact ih (ascending.place placeable.issued) (placeable.later placed)

theorem idsOf_ageTracks (used : List Bool) (tracks : List (Track F)) :
    idsOf (ageTracks used tracks) = idsOf tracks := by
  refine List.ext_getElem? fun t => ?_
  rw [idsOf, idsOf, ageTracks, List.getElem?_map, List.getElem?_map, List.getElem?_mapIdx]
  cases tracks[t]? with
  | none => rfl
  | some tr =>
      simp only [Option.map_some]
      split <;> rfl

variable [FloatMath F] {tracker : IouTracker F} {dets : List (TrackerDetection F)}

theorem Ascending.update (ascending : Ascending (idsOf tracker.tracks))
    (valid : tracker.Valid) (frameId : UInt64)
    (room : tracker.nextId.toNat + tracker.spawned dets < 2 ^ 32) :
    Ascending (idsOf (tracker.update frameId dets).2.tracks) := by
  have placed := ascending.placeAll frameId (valid.placeable room)
  rw [Ascending, ← idsOf_ageTracks (greedyMatch dets tracker.tracks).trackUsed] at placed
  exact placed.sublist (List.filter_sublist.map Track.id)

end Order

/-! ## A whole run -/

/-- The ids that a run has given out. -/
def IouTracker.given [FloatMath F] (self : IouTracker F) (inputs : List (Input F)) :
    List UInt32 :=
  (List.range' 1 (self.issues inputs)).map UInt32.ofNat

variable [FloatMath F] {inputs : List (Input F)}

theorem length_shown (self : IouTracker F) (inputs : List (Input F)) :
    (self.shown inputs).length = inputs.length := by
  induction inputs generalizing self with
  | nil => rfl
  | cons input rest ih => exact congrArg (· + 1) (ih _)

theorem history_concat (self : IouTracker F) (inputs : List (Input F)) (input : Input F) :
    self.history (inputs ++ [input]) =
      ⟨input.frameId, ((self.after inputs).update input.frameId input.dets).1⟩ ::
        self.history inputs := by
  have lengths : (inputs.map Input.frameId).length = (self.shown inputs).length := by
    rw [length_shown, List.length_map]
  rw [IouTracker.history, shown_concat, List.map_append, List.zipWith_append lengths,
    List.reverse_append]
  rfl

/-- What a run leaves in the tracker. -/
structure Stored (start : IouTracker F) (inputs : List (Input F)) : Prop where
  valid : (start.after inputs).Valid
  nextId : (start.after inputs).nextId.toNat = 1 + start.issues inputs
  remembers : Remembers (start.after inputs) (start.history inputs)
  ascending : Ascending (idsOf (start.after inputs).tracks)

theorem EnoughIds.stored (enough : EnoughIds inputs) : Stored .fresh inputs := by
  induction inputs using List.reverseRecOn with
  | nil => exact ⟨IouTracker.valid_fresh, rfl, fun _ => rfl, List.Pairwise.nil⟩
  | append_singleton inputs input ih =>
      rw [EnoughIds, issues_concat] at enough
      have stored := ih (Nat.lt_of_le_of_lt (Nat.le_add_right _ _) enough)
      have counted := stored.nextId
      have room : (IouTracker.fresh.after inputs).nextId.toNat +
          (IouTracker.fresh.after inputs).spawned input.dets < 2 ^ 32 := by omega
      have updated := update_updated stored.valid input.frameId room
      constructor
      · rw [after_concat]
        exact updated.valid
      · rw [after_concat, issues_concat, updated.nextId, counted, Nat.add_assoc]
      · rw [after_concat, history_concat]
        exact stored.remembers.step updated
      · rw [after_concat]
        exact stored.ascending.update stored.valid input.frameId room

section Given

variable {self : IouTracker F} {id : UInt32}

theorem mem_given (enough : self.issues inputs + 1 < 2 ^ 32) :
    id ∈ self.given inputs ↔ 0 < id.toNat ∧ id.toNat < 1 + self.issues inputs := by
  rw [IouTracker.given, List.mem_map]
  constructor
  · rintro ⟨n, member, rfl⟩
    rw [List.mem_range'_1] at member
    rw [UInt32.toNat_ofNat_of_lt' (show n < 2 ^ 32 by omega)]
    exact member
  · intro range
    exact ⟨id.toNat, List.mem_range'_1.mpr range, UInt32.ofNat_toNat⟩

theorem ascending_given (enough : self.issues inputs + 1 < 2 ^ 32) :
    Ascending (self.given inputs) := by
  rw [Ascending, IouTracker.given, List.pairwise_map]
  refine (List.pairwise_lt_range' (s := 1) (n := self.issues inputs)).imp_of_mem ?_
  intro a b first second less
  rw [List.mem_range'_1] at first second
  rwa [UInt32.toNat_ofNat_of_lt' (show a < 2 ^ 32 by omega),
    UInt32.toNat_ofNat_of_lt' (show b < 2 ^ 32 by omega)]

end Given

/-! ## The store of a run -/

omit [FloatMath F] in
theorem mem_store {tracker : IouTracker F} {history : List (Shown F)} {ids : List UInt32}
    (remembers : Remembers tracker history) (distinct : (idsOf tracker.tracks).Nodup)
    (known : idsOf tracker.tracks ⊆ ids) (tr : Track F) :
    tr ∈ tracker.tracks ↔
      tr ∈ ids.filterMap fun id => (latest id history).bind (Sighting.track id) := by
  rw [List.mem_filterMap]
  constructor
  · intro member
    refine ⟨tr.id, known (List.mem_map_of_mem member), ?_⟩
    rw [← remembers tr.id]
    exact heldIn_of_mem distinct member
  · rintro ⟨id, _, held⟩
    rw [← remembers id] at held
    exact (mem_of_heldIn held).1

omit [FloatMath F] in
theorem Sighting.track_id {id : UInt32} {tr : Track F} {s : Option (Sighting F)}
    (young : s.bind (Sighting.track id) = some tr) : tr.id = id := by
  rcases Option.bind_eq_some_iff.mp young with ⟨s, _, known⟩
  rw [Sighting.track] at known
  split at known
  · cases known
    rfl
  · contradiction

theorem Stored.tracks (stored : Stored .fresh inputs) (enough : EnoughIds inputs) :
    (IouTracker.fresh.after inputs).tracks =
      (IouTracker.fresh.given inputs).filterMap fun id =>
        (latest id (IouTracker.fresh.history inputs)).bind (Sighting.track id) := by
  have few : (IouTracker.fresh : IouTracker F).issues inputs + 1 < 2 ^ 32 :=
    Nat.add_lt_of_lt_sub enough
  have issued := stored.valid.issued
  have : Std.Irrefl fun a b : Track F => a.id.toNat < b.id.toNat :=
    ⟨fun a => Nat.lt_irrefl a.id.toNat⟩
  refine List.Pairwise.eq_of_mem_iff (r := fun a b : Track F => a.id.toNat < b.id.toNat)
    ?_ ?_ ?_
  · have ascending := stored.ascending
    rwa [Ascending, idsOf, List.pairwise_map] at ascending
  · refine List.Pairwise.filterMap _ ?_ (ascending_given few)
    intro a b less first atFirst second atSecond
    rwa [Sighting.track_id atFirst, Sighting.track_id atSecond]
  · refine fun tr => mem_store stored.remembers issued.distinct ?_ tr
    intro id member
    rw [mem_given few, ← stored.nextId]
    exact ⟨issued.positive id member, issued.below id member⟩

theorem length_history_outputs {most : Nat} (few : ∀ input ∈ inputs, input.dets.length ≤ most) :
    ∀ frame ∈ (IouTracker.fresh : IouTracker F).history inputs,
      frame.outputs.length ≤ most := by
  induction inputs using List.reverseRecOn with
  | nil => exact nofun
  | append_singleton inputs input ih =>
      rw [List.forall_mem_append, List.forall_mem_singleton] at few
      rw [history_concat, List.forall_mem_cons]
      have dets := update_dets (IouTracker.fresh.after inputs) input.frameId input.dets
      refine ⟨?_, ih few.1⟩
      have last := few.2
      rwa [← dets, List.length_map] at last

/-- After any frames that do not use up the ids, the tracks are the latest sightings of
the ids that are no more than 30 frames old, each with its detection, its frame and its
age, in the order in which the ids were given out. There are no more of them than outputs
in the last 31 frames, however long the run is. -/
theorem tracker_store (enough : EnoughIds inputs) :
    let tracker := (IouTracker.fresh : IouTracker F).after inputs
    let history := IouTracker.fresh.history inputs
    tracker.tracks = (IouTracker.fresh.given inputs).filterMap (fun id =>
        (latest id history).bind (Sighting.track id)) ∧
      tracker.tracks.length ≤
        ((history.take (kMaxAge + 1)).map (·.outputs.length)).sum ∧
      ∀ most, (∀ input ∈ inputs, input.dets.length ≤ most) →
        tracker.tracks.length ≤ (kMaxAge + 1) * most := by
  intro tracker history
  have stored := enough.stored
  have recent := stored.remembers.length_le stored.valid.issued.distinct
  refine ⟨stored.tracks enough, recent, fun most few => recent.trans ?_⟩
  have each := length_history_outputs few
  calc ((history.take (kMaxAge + 1)).map (·.outputs.length)).sum
      ≤ ((history.take (kMaxAge + 1)).map (·.outputs.length)).length * most := by
        refine List.sum_le_card_nsmul _ _ ?_
        rw [List.forall_mem_map]
        exact fun frame member => each frame (List.mem_of_mem_take member)
    _ ≤ (kMaxAge + 1) * most := by
        rw [List.length_map]
        exact Nat.mul_le_mul_right _ (List.length_take_le _ _)

/-- The drone that has gone is still in the store, before the one that came later. -/
theorem tracker_store_gone :
    let tracker := IouTracker.fresh.after
      [Example.showing [Example.drone 0], Example.showing [Example.drone 100]]
    tracker.tracks.map (fun tr => (tr.id, tr.det.left, tr.framesUnseen)) =
        [(1, 0, 1), (2, 100, 0)] ∧
      tracker.tracks.length ≤ 31 * 1 := by
  have enough : EnoughIds [Example.showing [Example.drone 0],
      Example.showing [Example.drone 100]] := by decide
  have store := tracker_store enough
  refine ⟨?_, store.2.2 1 (by decide)⟩
  rw [store.1]
  decide

end KhadasYolo.Tracker
