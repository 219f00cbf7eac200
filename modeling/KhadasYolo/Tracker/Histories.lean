import KhadasYolo.Lib.Ageing
import KhadasYolo.Tracker.Identity

/-!
# Histories of track ids

Over a whole run an id belongs to one track: the frames in which it is an output
follow each other within the age limit, and all of them show the track that the
first one started. Every output frame is kept here beside the number of the frame
that started each of its tracks, and with a mark that says whether it is delivered.
-/

namespace KhadasYolo.Tracker

open Ageing Ipc

universe u v

/-- The arguments of one `update`, the timestamp that goes along, and whether a
consumer is attached for the output. -/
structure Input (F : Type u) where
  frameId : UInt64
  timestampUs : UInt64
  dets : List (TrackerDetection F)
  delivered : Bool

/-- One output frame. `born` is the number of the frame that started the track of
an output. -/
structure Tracked (F : Type u) where
  timestampUs : UInt64
  outputs : List (TrackerOutput F)
  born : UInt32 → Nat
  delivered : Bool

variable {F : Type u}

def Tracked.ids (frame : Tracked F) : List UInt32 := frame.outputs.map TrackerOutput.trackId

/-- What a frame says about an id: a value if it has an output with it. -/
def Tracked.sighting {α : Type v} (value : Tracked F → α) (id : UInt32) (frame : Tracked F) :
    Option α :=
  if id ∈ frame.ids then some (value frame) else none

variable [FloatMath F]

/-- The output frames of a run, from a number on. -/
def IouTracker.track (self : IouTracker F) (born : UInt32 → Nat) (number : Nat) :
    List (Input F) → List (Tracked F)
  | [] => []
  | input :: rest =>
      let updated := self.update input.frameId input.dets
      let known := fun id => if (self.held id).isSome then born id else number
      { timestampUs := input.timestampUs
        outputs := updated.1
        born := known
        delivered := input.delivered } :: updated.2.track known (number + 1) rest

/-- The output frames of a whole run. -/
def trackAll (inputs : List (Input F)) : List (Tracked F) :=
  IouTracker.fresh.track (fun _ => 0) 0 inputs

/-- The number of ids issued in a run. -/
def IouTracker.issues (self : IouTracker F) : List (Input F) → Nat
  | [] => 0
  | input :: rest =>
      self.spawned input.dets + (self.update input.frameId input.dets).2.issues rest

/-- A run that does not use up the ids, from the start. -/
def EnoughIds (inputs : List (Input F)) : Prop :=
  (IouTracker.fresh : IouTracker F).issues inputs < 2 ^ 32 - 1

instance (inputs : List (Input F)) : Decidable (EnoughIds inputs) :=
  inferInstanceAs (Decidable (_ < _))

/-! ## One frame -/

section Frame

variable {self after : IouTracker F} {frameId : UInt64} {dets : List (TrackerDetection F)}
  {outputs : List (TrackerOutput F)} {id : UInt32}

/-- An id without an output gets older. -/
theorem Updated.held_unseen (updated : Updated self frameId dets outputs after)
    (absent : id ∉ outputs.map TrackerOutput.trackId) :
    after.held id = (self.held id).bind Track.age := by
  have nothing : outputs.find? (·.trackId == id) = none := by
    simpa using absent
  rw [updated.held, nothing]

/-- An id with an output is alive. -/
theorem Updated.held_seen (updated : Updated self frameId dets outputs after)
    (member : id ∈ outputs.map TrackerOutput.trackId) :
    ∃ o ∈ outputs, o.trackId = id ∧ after.held id = some (Track.seen frameId o) := by
  cases found : outputs.find? (·.trackId == id) with
  | none =>
      rcases List.mem_map.mp member with ⟨o, among, same⟩
      exact absurd (by simpa using same) (List.find?_eq_none.mp found o among)
  | some o =>
      refine ⟨o, List.mem_of_find?_eq_some found, by simpa using List.find?_some found, ?_⟩
      rw [updated.held, found]

omit [FloatMath F] in
/-- A live id has been issued. -/
theorem IouTracker.Valid.issued_id (valid : self.Valid) {tr : Track F}
    (held : self.held id = some tr) : id.toNat < self.nextId.toNat := by
  rcases mem_of_heldIn held with ⟨member, rfl⟩
  exact valid.issued.below _ (List.mem_map_of_mem member)

/-- An output has a live id or one that has not been issued. -/
theorem Updated.known_id (updated : Updated self frameId dets outputs after)
    (member : id ∈ outputs.map TrackerOutput.trackId) :
    (self.held id).isSome ∨ self.nextId.toNat ≤ id.toNat := by
  rcases List.mem_map.mp member with ⟨o, among, rfl⟩
  rcases updated.known o among with ⟨tr, held, _⟩ | new
  · exact .inl (held ▸ rfl)
  · exact .inr new

/-- The number of ids only grows. -/
theorem Updated.nextId_le (updated : Updated self frameId dets outputs after) :
    self.nextId.toNat ≤ after.nextId.toNat := by
  rw [updated.nextId]
  exact Nat.le_add_right _ _

end Frame

/-- One frame of a run that does not use up the ids. -/
theorem IouTracker.Valid.step {self : IouTracker F} (valid : self.Valid) {input : Input F}
    {rest : List (Input F)} (room : self.nextId.toNat + self.issues (input :: rest) < 2 ^ 32) :
    let updated := self.update input.frameId input.dets
    Updated self input.frameId input.dets updated.1 updated.2 ∧
      updated.2.nextId.toNat + updated.2.issues rest < 2 ^ 32 := by
  rw [issues] at room
  have few : self.nextId.toNat + self.spawned input.dets < 2 ^ 32 := by omega
  have updated := update_updated valid input.frameId few
  refine ⟨updated, ?_⟩
  have next := updated.nextId
  omega

/-! ## A whole run -/

/-- The rounds since the last output with an id, as far as they show in the
tracker. -/
structure Aged (tracker : IouTracker F) (id : UInt32) (last : Option Nat) : Prop where
  held : ∀ tr ∈ tracker.held id, last = some tr.framesUnseen ∧ tr.framesUnseen ≤ kMaxAge
  fresh : tracker.nextId.toNat ≤ id.toNat → last = none

section Run

variable {self : IouTracker F} {inputs : List (Input F)}

/-- An id that has died is not an output any more. -/
theorem track_gone (valid : self.Valid) {id : UInt32}
    (room : self.nextId.toNat + self.issues inputs < 2 ^ 32)
    (dead : self.held id = none) (issued : id.toNat < self.nextId.toNat)
    (born : UInt32 → Nat) (number : Nat) :
    ∀ frame ∈ self.track born number inputs, id ∉ frame.ids := by
  induction inputs generalizing self born number with
  | nil => exact nofun
  | cons input rest ih =>
      rcases valid.step room with ⟨updated, room⟩
      have absent : id ∉ (self.update input.frameId input.dets).1.map TrackerOutput.trackId := by
        intro member
        rcases updated.known_id member with held | new
        · rw [dead] at held
          contradiction
        · omega
      rw [IouTracker.track, List.forall_mem_cons]
      refine ⟨absent, ih updated.valid room ?_ ?_ _ _⟩
      · rw [updated.held_unseen absent, dead]
        rfl
      · exact Nat.lt_of_lt_of_le issued updated.nextId_le

/-- The outputs with an id follow each other within the age limit. -/
theorem track_paced {α : Type v} (value : Tracked F → α) (valid : self.Valid) {id : UInt32}
    {last : Option Nat} (aged : Aged self id last)
    (room : self.nextId.toNat + self.issues inputs < 2 ^ 32)
    (born : UInt32 → Nat) (number : Nat) :
    Paced kMaxAge last ((self.track born number inputs).map (Tracked.sighting value id)) := by
  induction inputs generalizing self last born number with
  | nil => trivial
  | cons input rest ih =>
      rcases valid.step room with ⟨updated, room⟩
      rw [IouTracker.track, List.map_cons]
      by_cases member :
          id ∈ (self.update input.frameId input.dets).1.map TrackerOutput.trackId
      · rw [Tracked.sighting, Tracked.ids, if_pos member]
        refine ⟨?_, ih updated.valid ⟨?_, ?_⟩ room _ _⟩
        · intro gap since
          rcases updated.known_id member with held | new
          · rcases Option.isSome_iff_exists.mp held with ⟨tr, held⟩
            rcases aged.held tr held with ⟨same, recent⟩
            rw [same] at since
            cases since
            exact recent
          · rw [aged.fresh new] at since
            contradiction
        · intro tr held
          rcases updated.held_seen member with ⟨o, _, _, seen⟩
          rw [seen] at held
          cases held
          exact ⟨rfl, Nat.zero_le _⟩
        · intro new
          rcases updated.held_seen member with ⟨o, _, _, seen⟩
          have issued := updated.valid.issued_id seen
          omega
      · rw [Tracked.sighting, Tracked.ids, if_neg member]
        refine ih updated.valid ⟨?_, ?_⟩ room _ _
        · intro tr held
          rw [updated.held_unseen member] at held
          rcases Option.bind_eq_some_iff.mp held with ⟨earlier, before, older⟩
          rw [Track.age] at older
          split at older
          next young =>
            cases older
            rw [(aged.held earlier before).1]
            exact ⟨rfl, young⟩
          next => contradiction
        · intro new
          rw [aged.fresh (Nat.le_trans updated.nextId_le new)]
          rfl

/-- All outputs with an id show one track. -/
theorem track_born (valid : self.Valid) (id : UInt32)
    (room : self.nextId.toNat + self.issues inputs < 2 ^ 32)
    (born : UInt32 → Nat) (number : Nat) :
    ∃ start, ((self.held id).isSome → start = born id) ∧
      ∀ frame ∈ self.track born number inputs, id ∈ frame.ids → frame.born id = start := by
  induction inputs generalizing self born number with
  | nil => exact ⟨born id, fun _ => rfl, nofun⟩
  | cons input rest ih =>
      rcases valid.step room with ⟨updated, room⟩
      rw [IouTracker.track]
      generalize shown : (fun id => if (self.held id).isSome then born id else number) = known
      rcases ih updated.valid room known (number + 1) with ⟨start, same, later⟩
      by_cases alive : (self.held id).isSome
      · have kept : known id = born id := by simp only [← shown, alive, if_true]
        cases goes : (self.update input.frameId input.dets).2.held id with
        | some tr =>
            have starts : start = born id := kept ▸ same (goes ▸ rfl)
            refine ⟨start, fun _ => starts, List.forall_mem_cons.mpr ⟨fun _ => ?_, later⟩⟩
            exact kept.trans starts.symm
        | none =>
            rcases Option.isSome_iff_exists.mp alive with ⟨tr, held⟩
            have issued := Nat.lt_of_lt_of_le (valid.issued_id held) updated.nextId_le
            have gone := track_gone updated.valid room goes issued known (number + 1)
            refine ⟨born id, fun _ => rfl, List.forall_mem_cons.mpr ⟨fun _ => kept, ?_⟩⟩
            exact fun frame member shows => absurd shows (gone frame member)
      · refine ⟨start, fun held => absurd held alive,
          List.forall_mem_cons.mpr ⟨fun member => ?_, later⟩⟩
        rcases updated.held_seen member with ⟨o, _, _, seen⟩
        exact (same (seen ▸ rfl)).symm

/-- All outputs with an id have one class. -/
theorem track_named (valid : self.Valid) (id : UInt32)
    (room : self.nextId.toNat + self.issues inputs < 2 ^ 32)
    (born : UInt32 → Nat) (number : Nat) :
    ∃ name, (∀ tr ∈ self.held id, cString tr.det.className = name) ∧
      ∀ frame ∈ self.track born number inputs, ∀ o ∈ frame.outputs, o.trackId = id →
        cString o.det.className = name := by
  induction inputs generalizing self born number with
  | nil =>
      cases self.held id with
      | none => exact ⟨[], nofun, nofun⟩
      | some tr =>
          refine ⟨cString tr.det.className, ?_, nofun⟩
          rintro _ ⟨⟩
          rfl
  | cons input rest ih =>
      rcases valid.step room with ⟨updated, room⟩
      rw [IouTracker.track]
      generalize (fun id => if (self.held id).isSome then born id else number) = known
      rcases ih updated.valid room known (number + 1) with ⟨name, same, later⟩
      by_cases member :
          id ∈ (self.update input.frameId input.dets).1.map TrackerOutput.trackId
      · rcases updated.held_seen member with ⟨shown, among, rfl, seen⟩
        have class_name : cString shown.det.className = name := same _ seen
        refine ⟨name, ?_, List.forall_mem_cons.mpr ⟨?_, later⟩⟩
        · intro tr held
          rcases updated.known shown among with ⟨earlier, before, alike⟩ | new
          · rw [Option.mem_def.mp held] at before
            cases before
            rw [← class_name]
            exact (beq_iff_eq.mp alike).symm
          · have issued := valid.issued_id held
            omega
        · intro o inOutputs equal
          rwa [List.inj_on_of_nodup_map updated.distinct inOutputs among equal]
      · have nothing : ∀ o ∈ (self.update input.frameId input.dets).1, o.trackId ≠ id := by
          rintro o inOutputs rfl
          exact member (List.mem_map_of_mem inOutputs)
        cases held : self.held id with
        | none =>
            refine ⟨name, nofun, List.forall_mem_cons.mpr ⟨?_, later⟩⟩
            exact fun o inOutputs equal => absurd equal (nothing o inOutputs)
        | some tr =>
            refine ⟨cString tr.det.className, ?_, List.forall_mem_cons.mpr ⟨?_, ?_⟩⟩
            · rintro _ ⟨⟩
              rfl
            · exact fun o inOutputs equal => absurd equal (nothing o inOutputs)
            · have older := updated.held_unseen member
              rw [held, Option.bind_some, Track.age] at older
              split at older
              next =>
                have kept : cString tr.det.className = name := same tr.unseen older
                rwa [kept]
              next =>
                have issued := Nat.lt_of_lt_of_le (valid.issued_id held) updated.nextId_le
                have gone := track_gone updated.valid room older issued known (number + 1)
                rintro frame inLater o inOutputs rfl
                exact absurd (List.mem_map_of_mem inOutputs) (gone frame inLater)

/-- No id occurs twice in a frame, and id 0 does not occur. -/
theorem track_ids (valid : self.Valid)
    (room : self.nextId.toNat + self.issues inputs < 2 ^ 32)
    (born : UInt32 → Nat) (number : Nat) :
    ∀ frame ∈ self.track born number inputs, frame.ids.Nodup ∧ 0 ∉ frame.ids := by
  induction inputs generalizing self born number with
  | nil => exact nofun
  | cons input rest ih =>
      rcases valid.step room with ⟨updated, room⟩
      rw [IouTracker.track, List.forall_mem_cons]
      refine ⟨⟨updated.distinct, ?_⟩, ih updated.valid room _ _⟩
      intro member
      rcases updated.held_seen member with ⟨o, _, zero, seen⟩
      rcases mem_of_heldIn seen with ⟨among, same⟩
      have positive := updated.valid.issued.positive _ (List.mem_map_of_mem among)
      rw [same] at positive
      exact absurd positive (by decide)

end Run

section FromStart

variable {inputs : List (Input F)}

theorem EnoughIds.room (enough : EnoughIds inputs) :
    (IouTracker.fresh : IouTracker F).nextId.toNat +
      (IouTracker.fresh : IouTracker F).issues inputs < 2 ^ 32 := by
  have start : (IouTracker.fresh : IouTracker F).nextId.toNat = 1 := rfl
  rw [EnoughIds] at enough
  omega

theorem trackAll_paced {α : Type v} (value : Tracked F → α) (enough : EnoughIds inputs)
    (id : UInt32) : Paced kMaxAge none ((trackAll inputs).map (Tracked.sighting value id)) :=
  track_paced value IouTracker.valid_fresh ⟨nofun, fun _ => rfl⟩ enough.room _ _

theorem trackAll_born (enough : EnoughIds inputs) (id : UInt32) :
    ∃ start, ∀ frame ∈ trackAll inputs, id ∈ frame.ids → frame.born id = start := by
  rcases track_born IouTracker.valid_fresh id enough.room (fun _ => 0) 0 with
    ⟨start, _, shows⟩
  exact ⟨start, shows⟩

theorem trackAll_named (enough : EnoughIds inputs) (id : UInt32) :
    ∃ name, ∀ frame ∈ trackAll inputs, ∀ o ∈ frame.outputs, o.trackId = id →
      cString o.det.className = name := by
  rcases track_named IouTracker.valid_fresh id enough.room (fun _ => 0) 0 with
    ⟨name, _, shows⟩
  exact ⟨name, shows⟩

theorem trackAll_ids (enough : EnoughIds inputs) :
    ∀ frame ∈ trackAll inputs, frame.ids.Nodup ∧ 0 ∉ frame.ids :=
  track_ids IouTracker.valid_fresh enough.room _ _

end FromStart

end KhadasYolo.Tracker
