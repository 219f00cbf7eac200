import KhadasYolo.Tracker.Histories
import Mathlib.Data.List.DropRight

/-!
# Runs of the tracker

The ids of a run come from one counter. A frame numbers the detections that it does
not match in their order, and a matched one continues a track that was an output with
the same class not too long ago.
-/

namespace KhadasYolo.Tracker

open Ipc

universe u

variable {F : Type u}

/-! ## The numbers of a frame -/

/-- The outputs of a frame continue the tracks of its matches, or are numbered in
their order. -/
structure Numbering (ids : List UInt32) (nextId : UInt32) (slots : List (Option Nat))
    (outputs : List (TrackerOutput F)) : Prop where
  matched : ∀ (d t : Nat) o, slots[d]? = some (some t) → outputs[d]? = some o →
    ids[t]? = some o.trackId
  unmatched : ∀ (d : Nat) o, slots[d]? = some none → outputs[d]? = some o →
    o.trackId.toNat = nextId.toNat + (slots.take d).count none

section Cons

variable {frameId : UInt64} {u middle : Updating F}
  {entry : TrackerDetection F × Option Nat}
  {rest : List (TrackerDetection F × Option Nat)} {first : TrackerOutput F}
  {news : List (TrackerOutput F)}

/-- A first output has the id of its track or the next one. -/
theorem Placed.number (placed : Placed frameId u [entry] [first] middle) :
    (∃ t : Nat, entry.2 = some t ∧ (idsOf u.tracks)[t]? = some first.trackId) ∨
      (entry.2 = none ∧ first.trackId = u.nextId) := by
  have next := placed.nextId
  have held := placed.held first.trackId
  rw [List.find?_cons_of_pos (by simp), Option.map_some, Option.some_or] at held
  have below := placed.issued.below _ (List.mem_map_of_mem (mem_of_heldIn held).1)
  rw [(mem_of_heldIn held).2] at below
  rcases placed.known first (List.mem_singleton_self first) with ⟨t, matched, place⟩ | new
  · rw [← List.mem_singleton.mp matched]
    exact .inl ⟨t, rfl, place⟩
  · rw [List.map_singleton, List.count_singleton] at next
    split at next
    next unmatched =>
      exact .inr ⟨beq_iff_eq.mp unmatched, UInt32.toNat_inj.mp (by omega)⟩
    next => omega

theorem Numbering.cons (placeable : Placeable u (entry :: rest))
    (placed : Placed frameId u [entry] [first] middle)
    (later : Numbering (idsOf middle.tracks) middle.nextId (rest.map Prod.snd) news) :
    Numbering (idsOf u.tracks) u.nextId ((entry :: rest).map Prod.snd) (first :: news) where
  matched d t o place shown := by
    cases d with
    | zero =>
        cases shown
        rcases placed.number with ⟨s, slot, number⟩ | ⟨slot, _⟩
        · cases slot.symm.trans (Option.some.inj place)
          exact number
        · cases slot.symm.trans (Option.some.inj place)
    | succ d =>
        rw [List.map_cons, List.getElem?_cons_succ] at place
        have number := later.matched d t o place shown
        rwa [placeable.same_place placed (List.mem_of_getElem? place)] at number
  unmatched d o place shown := by
    cases d with
    | zero =>
        cases shown
        rcases placed.number with ⟨s, slot, _⟩ | ⟨_, number⟩
        · cases slot.symm.trans (Option.some.inj place)
        · exact congrArg UInt32.toNat number
    | succ d =>
        rw [List.map_cons, List.getElem?_cons_succ] at place
        have number := later.unmatched d o place shown
        have next := placed.nextId
        rw [List.map_singleton] at next
        rw [List.map_cons, List.take_succ_cons, ← List.singleton_append,
          List.count_append, ← Nat.add_assoc, ← next]
        exact number

end Cons

theorem placeAll_numbering (frameId : UInt64) {u : Updating F}
    {entries : List (TrackerDetection F × Option Nat)} (placeable : Placeable u entries) :
    ∃ news, (entries.foldl (placeDetection frameId) u).outputs = u.outputs ++ news ∧
      Numbering (idsOf u.tracks) u.nextId (entries.map Prod.snd) news := by
  induction entries generalizing u with
  | nil => exact ⟨[], (List.append_nil _).symm, ⟨fun _ _ _ => nofun, fun _ _ => nofun⟩⟩
  | cons entry rest ih =>
      rcases placeDetection_placed frameId placeable with ⟨first, placed⟩
      rcases ih (placeable.later placed) with ⟨news, outputs, later⟩
      refine ⟨first :: news, ?_, later.cons placeable placed⟩
      rw [List.foldl_cons, outputs, placed.outputs, List.append_assoc, List.singleton_append]

variable [FloatMath F] {self : IouTracker F} {dets : List (TrackerDetection F)}

theorem update_numbering (valid : self.Valid) (frameId : UInt64)
    (room : self.nextId.toNat + self.spawned dets < 2 ^ 32) :
    Numbering (idsOf self.tracks) self.nextId (greedyMatch dets self.tracks).detToTrack
      (self.update frameId dets).1 := by
  have slots := List.map_snd_zip (Nat.le_of_eq (length_detToTrack dets self.tracks))
  rcases placeAll_numbering frameId (valid.placeable room) with ⟨news, outputs, numbering⟩
  rw [slots] at numbering
  rw [List.nil_append] at outputs
  rw [IouTracker.update, outputs]
  exact numbering

omit [FloatMath F] in
/-- A new number is greater than the ids of the tracks and those before it in its
frame. -/
theorem Numbering.ascending {ids : List UInt32} {nextId : UInt32}
    {slots : List (Option Nat)} {outputs : List (TrackerOutput F)}
    (numbering : Numbering ids nextId slots outputs) (issued : Issued ids nextId)
    (lengths : slots.length = outputs.length) {d : Nat} {o earlier : TrackerOutput F}
    (place : slots[d]? = some none) (shown : outputs[d]? = some o)
    (before : earlier ∈ outputs.take d) : earlier.trackId.toNat < o.trackId.toNat := by
  rw [numbering.unmatched d o place shown]
  rcases List.getElem?_of_mem before with ⟨e, older⟩
  rw [List.getElem?_take] at older
  split at older
  next first =>
    have inRange : e < slots.length := lengths ▸ (List.getElem?_eq_some_iff.mp older).1
    have slot := List.getElem?_eq_getElem inRange
    cases matched : slots[e] with
    | some t =>
        rw [matched] at slot
        have number := numbering.matched e t earlier slot older
        exact Nat.lt_add_right _ (issued.below _ (List.mem_of_getElem? number))
    | none =>
        rw [matched] at slot
        have number := numbering.unmatched e earlier slot older
        have counts := (List.take_prefix_take_left (l := slots)
          (Nat.succ_le_of_lt first)).sublist.count_le none
        rw [List.take_add_one, slot, Option.toList_some, List.count_append,
          List.count_singleton_self] at counts
        omega
  next => contradiction

/-! ## All frames -/

/-- The tracker after a run. -/
def IouTracker.after (self : IouTracker F) (inputs : List (Input F)) : IouTracker F :=
  inputs.foldl (fun tracker input => (tracker.update input.frameId input.dets).2) self

/-- The output frames of a run. -/
def IouTracker.shown (self : IouTracker F) : List (Input F) → List (List (TrackerOutput F))
  | [] => []
  | input :: rest =>
      let updated := self.update input.frameId input.dets
      updated.1 :: updated.2.shown rest

theorem after_concat (self : IouTracker F) (inputs : List (Input F)) (input : Input F) :
    self.after (inputs ++ [input]) =
      ((self.after inputs).update input.frameId input.dets).2 := by
  rw [IouTracker.after, List.foldl_append]
  rfl

theorem shown_concat (self : IouTracker F) (inputs : List (Input F)) (input : Input F) :
    self.shown (inputs ++ [input]) =
      self.shown inputs ++ [((self.after inputs).update input.frameId input.dets).1] := by
  induction inputs generalizing self with
  | nil => rfl
  | cons first rest ih => exact congrArg (_ :: ·) (ih _)

theorem issues_concat (self : IouTracker F) (inputs : List (Input F)) (input : Input F) :
    self.issues (inputs ++ [input]) =
      self.issues inputs + (self.after inputs).spawned input.dets := by
  induction inputs generalizing self with
  | nil => exact (Nat.zero_add _).symm
  | cons first rest ih =>
      rw [List.cons_append, IouTracker.issues, ih, IouTracker.issues, Nat.add_assoc]
      rfl

/-- The tracks of a tracker are those that its output frames have shown last. -/
structure Told (tracker : IouTracker F) (frames : List (List (TrackerOutput F))) : Prop where
  valid : tracker.Valid
  below : ∀ outputs ∈ frames, ∀ o ∈ outputs, o.trackId.toNat < tracker.nextId.toNat
  young : ∀ id, ∀ tr ∈ tracker.held id, tr.framesUnseen ≤ kMaxAge
  last : ∀ id, ∀ tr ∈ tracker.held id,
    ∃ outputs, frames.reverse[tr.framesUnseen]? = some outputs ∧ ⟨tr.det, id⟩ ∈ outputs

section Step

variable {frames : List (List (TrackerOutput F))} {frameId : UInt64}
  {outputs : List (TrackerOutput F)} {next : IouTracker F}

omit [FloatMath F] in
theorem told_fresh : Told (F := F) .fresh [] where
  valid := IouTracker.valid_fresh
  below := nofun
  young := nofun
  last := nofun

/-- A frame shows the tracks that it matches and starts, and the others get older. -/
theorem Told.step (told : Told self frames)
    (updated : Updated self frameId dets outputs next) : Told next (frames ++ [outputs]) where
  valid := updated.valid
  below := by
    rw [List.forall_mem_append, List.forall_mem_singleton]
    constructor
    · intro earlier member o among
      exact Nat.lt_of_lt_of_le (told.below earlier member o among) updated.nextId_le
    · intro o among
      rcases updated.held_seen (List.mem_map_of_mem among) with ⟨_, _, _, held⟩
      exact updated.valid.issued_id held
  young id tr held := by
    by_cases seen : id ∈ outputs.map TrackerOutput.trackId
    · rcases updated.held_seen seen with ⟨o, _, _, after⟩
      cases after.symm.trans held
      exact Nat.zero_le _
    · rw [updated.held_unseen seen] at held
      rcases Option.bind_eq_some_iff.mp held with ⟨earlier, _, older⟩
      rw [Track.age] at older
      split at older
      next young =>
        cases older
        exact young
      next => contradiction
  last id tr held := by
    rw [List.reverse_append, List.reverse_singleton, List.singleton_append]
    by_cases seen : id ∈ outputs.map TrackerOutput.trackId
    · rcases updated.held_seen seen with ⟨o, among, rfl, after⟩
      cases after.symm.trans held
      exact ⟨outputs, rfl, among⟩
    · rw [updated.held_unseen seen] at held
      rcases Option.bind_eq_some_iff.mp held with ⟨earlier, before, older⟩
      rw [Track.age] at older
      split at older
      next =>
        cases older
        exact told.last id earlier before
      next => contradiction

omit [FloatMath F] in
/-- A live track was an output in one of the last 31 frames. -/
theorem Told.recent (told : Told self frames) {id : UInt32} {tr : Track F}
    (held : self.held id = some tr) :
    ∃ outputs ∈ frames.rtake 31, ⟨tr.det, id⟩ ∈ outputs := by
  rcases told.last id tr held with ⟨outputs, place, among⟩
  have young : tr.framesUnseen < 31 := Nat.lt_succ_of_le (told.young id tr held)
  refine ⟨outputs, ?_, among⟩
  rw [List.rtake_eq_reverse_take_reverse, List.mem_reverse]
  apply List.mem_of_getElem? (i := tr.framesUnseen)
  rwa [List.getElem?_take_of_lt young]

end Step

theorem after_told {inputs : List (Input F)} (enough : EnoughIds inputs) :
    let tracker := (IouTracker.fresh : IouTracker F).after inputs
    Told tracker (IouTracker.fresh.shown inputs) ∧
      tracker.nextId.toNat = 1 + (IouTracker.fresh : IouTracker F).issues inputs := by
  induction inputs using List.reverseRecOn with
  | nil => exact ⟨told_fresh, rfl⟩
  | append_singleton inputs input ih =>
      rw [EnoughIds, issues_concat] at enough
      rcases ih (Nat.lt_of_le_of_lt (Nat.le_add_right _ _) enough) with ⟨told, counted⟩
      have updated :=
        @update_updated _ _ _ told.valid input.frameId input.dets (by omega)
      rw [after_concat, shown_concat, issues_concat]
      refine ⟨told.step updated, ?_⟩
      rw [updated.nextId, counted, Nat.add_assoc]

/-- In every frame of a run, every detection is one output; the ids are distinct and not
0; an unmatched detection gets an id that is greater than all before, and a matched one
an id that was an output with the same class in one of the 31 frames before. -/
theorem identities {inputs : List (Input F)} {input : Input F}
    (enough : EnoughIds (inputs ++ [input])) :
    let tracker := (IouTracker.fresh : IouTracker F).after inputs
    let frames := (IouTracker.fresh : IouTracker F).shown inputs
    let slots := (greedyMatch input.dets tracker.tracks).detToTrack
    let outputs := (tracker.update input.frameId input.dets).1
    let next := (tracker.update input.frameId input.dets).2
    outputs.map TrackerOutput.det = input.dets ∧
      ((outputs.map TrackerOutput.trackId).Nodup ∧ 0 ∉ outputs.map TrackerOutput.trackId) ∧
      (∀ (d : Nat) o, outputs[d]? = some o →
        (slots[d]? = some none ∧
            ∀ earlier ∈ frames.flatten ++ outputs.take d, earlier.trackId < o.trackId) ∨
          (∃ t, slots[d]? = some (some t)) ∧
            ∃ shown ∈ frames.rtake 31, ∃ earlier ∈ shown, earlier.trackId = o.trackId ∧
              cString earlier.det.className = cString o.det.className) ∧
      (idsOf next.tracks).Nodup ∧
      ∀ tr ∈ next.tracks, tr.id < next.nextId ∧ tr.framesUnseen ≤ kMaxAge := by
  intro tracker frames slots outputs next
  have before : EnoughIds inputs := by
    rw [EnoughIds, issues_concat] at enough
    exact Nat.lt_of_le_of_lt (Nat.le_add_right _ _) enough
  rcases after_told before with ⟨told, counted⟩
  have room : tracker.nextId.toNat + tracker.spawned input.dets < 2 ^ 32 := by
    rw [EnoughIds, issues_concat] at enough
    dsimp only [tracker]
    omega
  have updated := update_updated told.valid input.frameId room
  have later := told.step updated
  have dets := update_dets tracker input.frameId input.dets
  have lengths : slots.length = outputs.length := by
    rw [length_detToTrack, ← dets, List.length_map]
  have numbering := update_numbering told.valid input.frameId room
  refine ⟨dets, ⟨updated.distinct, ?_⟩, ?_, updated.valid.issued.distinct, ?_⟩
  · intro member
    rcases updated.held_seen member with ⟨o, _, zero, seen⟩
    rcases mem_of_heldIn seen with ⟨among, same⟩
    have positive := updated.valid.issued.positive _ (List.mem_map_of_mem among)
    rw [same] at positive
    exact absurd positive (by decide)
  · intro d o shown
    have inRange : d < slots.length := lengths ▸ (List.getElem?_eq_some_iff.mp shown).1
    have place := List.getElem?_eq_getElem inRange
    cases slot : slots[d] with
    | none =>
        rw [slot] at place
        refine .inl ⟨place, fun earlier member => UInt32.lt_iff_toNat_lt.mpr ?_⟩
        rcases List.mem_append.mp member with old | first
        · rcases List.mem_flatten.mp old with ⟨frame, among, inFrame⟩
          rw [numbering.unmatched d o place shown]
          exact Nat.lt_add_right _ (told.below frame among earlier inFrame)
        · exact numbering.ascending told.valid.issued lengths place shown first
    | some t =>
        rw [slot] at place
        have number := numbering.matched d t o place shown
        have below := told.valid.issued.below _ (List.mem_of_getElem? number)
        rcases updated.known o (List.mem_of_getElem? shown) with ⟨tr, held, alike⟩ | new
        · rcases told.recent held with ⟨frame, recent, among⟩
          exact .inr ⟨⟨t, place⟩, frame, recent, _, among, rfl, (beq_iff_eq.mp alike).symm⟩
        · exact absurd below (Nat.not_lt.mpr new)
  · intro tr member
    refine ⟨UInt32.lt_iff_toNat_lt.mpr ?_, ?_⟩
    · exact updated.valid.issued.below _ (List.mem_map_of_mem member)
    · exact later.young tr.id tr (heldIn_of_mem updated.valid.issued.distinct member)

namespace Example

/-- A drone of ten by ten pixels. -/
def drone (left : Int32) : TrackerDetection Float32 where
  className := paddedName [85, 65, 86]
  confidence := 1
  left := left
  top := 0
  right := left + 10
  bottom := 10

def showing (dets : List (TrackerDetection Float32)) : Input Float32 where
  frameId := 0
  timestampUs := 0
  dets := dets
  delivered := true

end Example

/-- Another drone comes beside the one that stays. -/
theorem identities_beside :
    let tracker := IouTracker.fresh.after [Example.showing [Example.drone 0]]
    let outputs := (tracker.update 0 [Example.drone 100, Example.drone 0]).1
    outputs.map TrackerOutput.trackId = [2, 1] ∧
      (outputs.map TrackerOutput.trackId).Nodup := by
  have enough : EnoughIds ([Example.showing [Example.drone 0]] ++
      [Example.showing [Example.drone 100, Example.drone 0]]) := by decide
  exact ⟨by decide, (identities enough).2.1.1⟩

end KhadasYolo.Tracker
