import KhadasYolo.Lib.Episodes
import KhadasYolo.Lib.SinglePrecision
import KhadasYolo.Temporal.TrackManager

/-!
# Traces of the track manager

What `TrackManager` says after any sequence of frames, in terms of the occurrences
of each id. A live state describes the current episode of its id: the frames since it
was away for more than thirty of them, from its first occurrence on.
-/

namespace KhadasYolo.Temporal

open Ipc Ageing

universe u

variable {F : Type u}

/-! ## Frames of a trace -/

/-- The calls of `observe` in one frame, each with its timestamp. -/
abbrev Calls (F : Type u) := List (WireTrackRecord F × UInt64)

/-- The calls with an id; id 0 is ignored. -/
def callsFor (id : UInt32) (calls : Calls F) : Calls F :=
  if id = 0 then [] else calls.filter (·.1.trackId == id)

/-- An id occurs in a frame. -/
def Mentions (id : UInt32) (calls : Calls F) : Prop := ∃ call ∈ calls, call.1.trackId = id

/-- No nonzero id occurs twice. -/
def Single (calls : Calls F) : Prop :=
  ∀ id : UInt32, id ≠ 0 → calls.countP (·.1.trackId == id) ≤ 1

/-- The timestamp of the occurrence of an id in a frame. -/
def occurrence (id : UInt32) (calls : Calls F) : Option UInt64 :=
  (calls.find? (·.1.trackId == id)).map Prod.snd

/-- The frames of a trace, as the history of an id. -/
def occurrences (id : UInt32) (frames : List (Calls F)) : List (Option UInt64) :=
  frames.map (occurrence id)

theorem isSome_occurrence {id : UInt32} {calls : Calls F} :
    (occurrence id calls).isSome ↔ Mentions id calls := by
  simp [occurrence, Mentions]

theorem occurrences_concat (id : UInt32) (frames : List (Calls F)) (calls : Calls F) :
    occurrences id (frames ++ [calls]) = occurrences id frames ++ [occurrence id calls] :=
  List.map_append

/-- An id that occurs at most once has no call or the one of its occurrence. -/
theorem callsFor_single {id : UInt32} (nonzero : id ≠ 0) {calls : Calls F}
    (single : Single calls) :
    (callsFor id calls = [] ∧ occurrence id calls = none) ∨
      ∃ call, callsFor id calls = [call] ∧ call.1.trackId = id ∧
        occurrence id calls = some call.2 := by
  have once := single id nonzero
  rw [List.countP_eq_length_filter] at once
  rw [callsFor, if_neg nonzero, occurrence, ← List.head?_filter]
  cases found : calls.filter (·.1.trackId == id) with
  | nil => exact .inl ⟨rfl, rfl⟩
  | cons call rest =>
      rw [found, List.length_cons] at once
      have last : rest = [] := List.length_eq_zero_iff.mp (by omega)
      have member : call ∈ calls.filter (·.1.trackId == id) := found ▸ List.mem_cons_self
      subst last
      exact .inr ⟨call, rfl, by simpa using (List.mem_filter.mp member).2, rfl⟩

namespace TrackManager

variable [FloatMath F]

def observeEach (self : TrackManager F) (calls : Calls F) : TrackManager F :=
  calls.foldl (fun mgr call => mgr.observe call.1 call.2) self

/-- `begin_frame`, the calls of `observe`, `end_frame`. -/
def traceFrame (self : TrackManager F) (calls : Calls F) : TrackManager F :=
  (self.beginFrame.observeEach calls).endFrame

/-- The frames of a trace, one after the other. -/
def trace (self : TrackManager F) (frames : List (Calls F)) : TrackManager F :=
  frames.foldl traceFrame self

/-- The state that the calls with one id leave behind. -/
def admitEach (roi : Roi) (held : Option (TrackState F)) (calls : Calls F) :
    Option (TrackState F) :=
  calls.foldl (fun held call => some (admitOne roi call.2 held call.1)) held

/-! ## One id -/

/-- A call acts on its own id. -/
theorem observe_call (self : TrackManager F) (call : WireTrackRecord F × UInt64)
    (id : UInt32) :
    (self.observe call.1 call.2).tracks[id]? =
        admitEach self.roi self.tracks[id]? (callsFor id [call]) ∧
      (self.observe call.1 call.2).seenThisFrame[id]? =
        if callsFor id [call] = [] then self.seenThisFrame[id]? else some true := by
  have spec := self.observe_spec call.1 call.2 id
  simp only [callsFor, recordsFor, KeyedFold.recordsOf] at spec ⊢
  by_cases zero : id = 0
  · simpa [zero, admitEach, admitAll] using spec
  · by_cases same : call.1.trackId = id
    · simpa [zero, same, admitEach, admitAll] using spec
    · simpa [zero, same, admitEach, admitAll] using spec

omit [FloatMath F] in
theorem callsFor_cons (id : UInt32) (call : WireTrackRecord F × UInt64) (calls : Calls F) :
    callsFor id (call :: calls) = callsFor id [call] ++ callsFor id calls := by
  simp only [callsFor]
  split
  next => rfl
  next => exact List.filter_append [call] calls

/-- The calls of a frame act on every id through those that carry it. -/
theorem observeEach_spec (self : TrackManager F) (calls : Calls F) (id : UInt32) :
    (self.observeEach calls).tracks[id]? =
        admitEach self.roi self.tracks[id]? (callsFor id calls) ∧
      (self.observeEach calls).seenThisFrame[id]? =
        if callsFor id calls = [] then self.seenThisFrame[id]? else some true := by
  induction calls generalizing self with
  | nil => simp [observeEach, callsFor, admitEach]
  | cons call calls ih =>
      have step := self.observe_call call id
      have rest := ih (self.observe call.1 call.2)
      simp only [observeEach, List.foldl_cons] at rest ⊢
      rw [callsFor_cons]
      constructor
      · rw [rest.1, step.1, self.observe_roi, admitEach, admitEach, admitEach,
          List.foldl_append]
      · rw [rest.2, step.2]
        by_cases unseen : callsFor id calls = []
        · rw [if_pos unseen, unseen, List.append_nil]
        · rw [if_neg unseen, if_neg (by simp [unseen])]

/-- A frame of a trace acts on every id through the calls that carry it. -/
theorem traceFrame_tracks (self : TrackManager F) (calls : Calls F) (id : UInt32) :
    (self.traceFrame calls).tracks[id]? =
      if callsFor id calls = [] then self.tracks[id]?.bind TrackState.miss
      else admitEach self.roi self.tracks[id]? (callsFor id calls) := by
  rcases self.beginFrame.observeEach_spec calls id with ⟨tracks, seen⟩
  simp only [traceFrame, endFrame, Std.ExtTreeMap.getElem?_filterMap', tracks, seen]
  by_cases unseen : callsFor id calls = []
  · simp only [unseen, admitEach, beginFrame, Std.ExtTreeMap.getElem?_map]
    cases self.tracks[id]? <;> simp
  · simp [unseen, beginFrame]

theorem trace_concat (self : TrackManager F) (frames : List (Calls F)) (calls : Calls F) :
    self.trace (frames ++ [calls]) = (self.trace frames).traceFrame calls := by
  rw [trace, List.foldl_append]
  rfl

/-- Id 0 has no state. -/
theorem trace_zero (self : TrackManager F) (frames : List (Calls F))
    (start : self.tracks[(0 : UInt32)]? = none) :
    (self.trace frames).tracks[(0 : UInt32)]? = none := by
  induction frames generalizing self with
  | nil => exact start
  | cons calls rest ih =>
      apply ih (self.traceFrame calls)
      rw [traceFrame_tracks, start]
      rfl

end TrackManager

/-! ## What a state records -/

/-- A state describes an episode of its id. -/
structure Recorded (id : UInt32) (s : TrackState F) (episode : List (Option UInt64)) :
    Prop where
  trackId : s.trackId = id
  /-- the occurrences, counted -/
  seen : s.framesSeen.toNat = episode.countP Option.isSome
  /-- the frames since the first of them, inclusive -/
  sinceFirst : s.framesSinceFirst.toNat = episode.length
  first : ∃ rest, episode = some s.firstSeenUs :: rest
  /-- the last occurrence, and the frames without one behind it -/
  last : ∃ before,
    episode = before ++ some s.lastSeenUs :: List.replicate s.framesMissed.toNat none

namespace Recorded

variable {id : UInt32} {s : TrackState F} {episode : List (Option UInt64)}

theorem missed (recorded : Recorded id s episode) :
    gap episode = some s.framesMissed.toNat := by
  rcases recorded.last with ⟨before, split⟩
  rw [split]
  exact gap_behind _ _ _

/-- A miss leaves a state recorded, or drops it with the end of its episode. -/
theorem miss (recorded : Recorded id s episode) (room : episode.length + 1 < 2 ^ 32) :
    Option.Rel (Recorded id) s.miss (advance kMaxFramesLost.toNat (some episode) none) := by
  rcases recorded.last with ⟨before, split⟩
  have lengths := congrArg List.length split
  rw [List.length_append, List.length_cons, List.length_replicate] at lengths
  have one : UInt32.toNat 1 = 1 := rfl
  have later : s.markMissed.framesMissed.toNat = s.framesMissed.toNat + 1 := by
    rw [TrackState.markMissed, UInt32.toNat_add, one]
    exact Nat.mod_eq_of_lt (by omega)
  have longer : s.markMissed.framesSinceFirst.toNat = s.framesSinceFirst.toNat + 1 := by
    rw [TrackState.markMissed, UInt32.toNat_add, one, recorded.sinceFirst]
    exact Nat.mod_eq_of_lt (by omega)
  have recent : Recent kMaxFramesLost.toNat (episode ++ [none]) ↔
      ¬ s.markMissed.framesMissed > kMaxFramesLost := by
    rw [Recent, gap_concat_none, recorded.missed, gt_iff_lt, UInt32.lt_iff_toNat_lt, later]
    simp
  rw [TrackState.miss, advance, Option.map_some, Option.filter_some]
  by_cases late : s.markMissed.framesMissed > kMaxFramesLost
  · rw [if_pos late, if_neg (by simpa using fun early => recent.mp early late)]
    exact .none
  · rw [if_neg late, if_pos (decide_eq_true (recent.mpr late))]
    refine .some ⟨recorded.trackId, ?_, ?_, ?_, before, ?_⟩
    · rw [List.countP_append, ← recorded.seen]
      rfl
    · rw [longer, recorded.sinceFirst, List.length_append]
      rfl
    · rcases recorded.first with ⟨rest, start⟩
      exact ⟨rest ++ [none], by rw [start]; rfl⟩
    · rw [later, List.replicate_succ', split, List.append_assoc]
      rfl

end Recorded

section Admit

variable [FloatMath F] {roi : Roi} {rec : WireTrackRecord F} {timestampUs : UInt64}

/-- The first occurrence starts a record. -/
theorem recorded_create :
    Recorded rec.trackId (TrackManager.admitOne roi timestampUs none rec)
      [some timestampUs] where
  trackId := rfl
  seen := rfl
  sinceFirst := rfl
  first := ⟨[], rfl⟩
  last := ⟨[], rfl⟩

/-- Another occurrence extends it. -/
theorem Recorded.update {s : TrackState F} {episode : List (Option UInt64)} {id : UInt32}
    (recorded : Recorded id s episode) (room : episode.length + 1 < 2 ^ 32) :
    Recorded id (TrackManager.admitOne roi timestampUs (some s) rec)
      (episode ++ [some timestampUs]) where
  trackId := recorded.trackId
  seen := by
    have few : episode.countP Option.isSome ≤ episode.length := List.countP_le_length
    have counted : (s.framesSeen + 1).toNat = s.framesSeen.toNat + 1 := by
      rw [UInt32.toNat_add, recorded.seen]
      exact Nat.mod_eq_of_lt (Nat.lt_of_le_of_lt (Nat.succ_le_succ few) room)
    rw [List.countP_append, ← recorded.seen]
    exact counted
  sinceFirst := by
    have counted : (s.framesSinceFirst + 1).toNat = s.framesSinceFirst.toNat + 1 := by
      rw [UInt32.toNat_add, recorded.sinceFirst]
      exact Nat.mod_eq_of_lt room
    rw [List.length_append, ← recorded.sinceFirst]
    exact counted
  first := by
    rcases recorded.first with ⟨rest, start⟩
    exact ⟨rest ++ [some timestampUs], by rw [start]; rfl⟩
  last := ⟨episode, rfl⟩

end Admit

section Run

variable [FloatMath F] {frames : List (Calls F)} (roi : Roi)

/-- After every trace the state of an id describes its current episode. -/
theorem trace_recorded (few : frames.length < 2 ^ 32) (single : ∀ calls ∈ frames, Single calls)
    {id : UInt32} (nonzero : id ≠ 0) :
    Option.Rel (Recorded id) ((TrackManager.fresh roi).trace frames).tracks[id]?
      (current kMaxFramesLost.toNat (occurrences id frames)) := by
  induction frames using List.reverseRecOn with
  | nil =>
      rw [TrackManager.trace, List.foldl_nil, TrackManager.fresh, Std.ExtTreeMap.getElem?_empty]
      exact .none
  | append_singleton frames calls ih =>
      rw [List.length_append] at few
      rw [List.forall_mem_append] at single
      have before := ih (Nat.lt_of_le_of_lt (Nat.le_add_right _ _) few) single.1
      have spec := current_spec kMaxFramesLost.toNat (occurrences id frames)
      rw [TrackManager.trace_concat, TrackManager.traceFrame_tracks, occurrences_concat,
        current_concat]
      generalize ((TrackManager.fresh roi).trace frames).tracks[id]? = held at before
      generalize current kMaxFramesLost.toNat (occurrences id frames) = rounds at before spec
      have room : ∀ episode ∈ rounds, episode.length + 1 < 2 ^ 32 := by
        rintro episode ⟨⟩
        rcases spec with ⟨_, older, split⟩
        have lengths := congrArg List.length split.split
        rw [List.length_append, occurrences, List.length_map] at lengths
        rw [List.length_singleton] at few
        omega
      rcases callsFor_single nonzero (single.2 calls (List.mem_singleton_self _)) with
        ⟨none_seen, absent⟩ | ⟨call, seen, rfl, present⟩
      · rw [if_pos none_seen, absent]
        cases before with
        | none => exact .none
        | some recorded => exact recorded.miss (room _ rfl)
      · rw [if_neg (by rw [seen]; exact List.cons_ne_nil _ _), seen, present]
        cases before with
        | none => exact .some recorded_create
        | some recorded => exact .some (recorded.update (room _ rfl))

/-- A live state describes the current episode of its id. -/
theorem trace_held (few : frames.length < 2 ^ 32) (single : ∀ calls ∈ frames, Single calls)
    {id : UInt32} {s : TrackState F}
    (held : ((TrackManager.fresh roi).trace frames).tracks[id]? = some s) :
    id ≠ 0 ∧ ∃ older episode,
      Episode kMaxFramesLost.toNat (occurrences id frames) older episode ∧
        Recorded id s episode := by
  have nonzero : id ≠ 0 := by
    rintro rfl
    rw [TrackManager.trace_zero _ frames Std.ExtTreeMap.getElem?_empty] at held
    contradiction
  have recorded := trace_recorded roi few single nonzero
  have spec := current_spec kMaxFramesLost.toNat (occurrences id frames)
  rw [held] at recorded
  generalize current kMaxFramesLost.toNat (occurrences id frames) = rounds at recorded spec
  cases recorded with
  | some recorded =>
      rcases spec with ⟨_, older, episode⟩
      exact ⟨nonzero, older, _, episode, recorded⟩

/-- The live ids are those of the last 31 frames. -/
theorem trace_alive_iff (few : frames.length < 2 ^ 32)
    (single : ∀ calls ∈ frames, Single calls) (id : UInt32) :
    (((TrackManager.fresh roi).trace frames).tracks[id]?).isSome ↔
      id ≠ 0 ∧ ∃ calls ∈ frames.rtake 31, Mentions id calls := by
  by_cases zero : id = 0
  · rw [zero, TrackManager.trace_zero _ frames Std.ExtTreeMap.getElem?_empty]
    simp
  · have recorded := trace_recorded roi few single zero
    have spec := current_spec kMaxFramesLost.toNat (occurrences id frames)
    have recent : Recent kMaxFramesLost.toNat (occurrences id frames) ↔
        ∃ calls ∈ frames.rtake 31, Mentions id calls := by
      have limit : kMaxFramesLost.toNat + 1 = 31 := rfl
      rw [recent_iff_mem_rtake, limit, occurrences, List.rtake_eq_reverse_take_reverse,
        List.rtake_eq_reverse_take_reverse, ← List.map_reverse, ← List.map_take,
        ← List.map_reverse]
      simp only [List.mem_map, exists_exists_and_eq_and, isSome_occurrence]
    rw [and_iff_right zero, ← recent]
    generalize current kMaxFramesLost.toNat (occurrences id frames) = rounds at recorded spec
    generalize ((TrackManager.fresh roi).trace frames).tracks[id]? = held at recorded ⊢
    cases recorded with
    | none => simpa using spec
    | some => simpa using spec.1

end Run

/-- The share of the frames of an episode with an occurrence. -/
theorem Recorded.visibility {id : UInt32} {s : TrackState Float32}
    {episode : List (Option UInt64)} (recorded : Recorded id s episode) :
    FloatOps.less 0.0 s.visibility = true ∧ FloatOps.less 1.0 s.visibility = false := by
  rcases recorded.first with ⟨rest, start⟩
  have positive : 0 < s.framesSeen.toNat := by
    rw [recorded.seen, start, List.countP_cons]
    exact Nat.succ_pos _
  have ordered : s.framesSeen.toNat ≤ s.framesSinceFirst.toNat := by
    rw [recorded.seen, recorded.sinceFirst]
    exact List.countP_le_length
  have nonzero : (s.framesSinceFirst == 0) = false := by
    rw [beq_eq_false_iff_ne]
    intro zero
    rw [zero] at ordered
    exact absurd positive (Nat.not_lt.mpr ordered)
  rw [TrackState.visibility, nonzero]
  exact SinglePrecision.ratio_bounds positive ordered s.framesSinceFirst.toNat_lt

/-- The view after a trace: one state for each nonzero id of the last 31 frames, which
describes the current episode of its id. -/
theorem trace_semantics (roi : Roi) (order : ViewOrder Float32)
    {frames : List (Calls Float32)} (few : frames.length < 2 ^ 32)
    (single : ∀ calls ∈ frames, Single calls) :
    let view := order.view ((TrackManager.fresh roi).trace frames).tracks
    (view.map TrackState.trackId).Nodup ∧
      (∀ id, id ∈ view.map TrackState.trackId ↔
        id ≠ 0 ∧ ∃ calls ∈ frames.rtake 31, Mentions id calls) ∧
      ∀ s ∈ view,
        (∃ older episode, Episode 30 (occurrences s.trackId frames) older episode) ∧
        (∀ older episode, Episode 30 (occurrences s.trackId frames) older episode →
          Recorded s.trackId s episode) ∧
        FloatOps.less 0.0 s.visibility = true ∧ FloatOps.less 1.0 s.visibility = false := by
  have keyed : ∀ (id : UInt32) s,
      ((TrackManager.fresh roi).trace frames).tracks[id]? = some s → s.trackId = id := by
    intro id s held
    rcases trace_held roi few single held with ⟨_, _, _, _, recorded⟩
    exact recorded.trackId
  have ids := order.ids_view keyed
  refine ⟨ids.nodup_iff.mpr (nodup_ids _), fun id => ?_, fun s member => ?_⟩
  · rw [ids.mem_iff, ← trace_alive_iff roi few single]
    simp only [List.mem_map, Prod.exists, exists_and_right, exists_eq_right,
      Std.ExtTreeMap.mem_toList_iff_getElem?_eq_some, Option.isSome_iff_exists]
  · rcases order.mem_view.mp member with ⟨id, held⟩
    rcases trace_held roi few single held with ⟨_, older, episode, split, recorded⟩
    rw [keyed id s held]
    refine ⟨⟨older, episode, split⟩, fun before other another => ?_, recorded.visibility⟩
    rw [another.unique split]
    exact recorded

namespace Example

def sighting (id : UInt32) : WireTrackRecord Float32 where
  className := paddedName [85, 65, 86]
  confidence := 1
  left := 0
  top := 0
  right := 10
  bottom := 10
  trackId := id

/-- Two sightings of a track, with an untracked record and an empty frame between them. -/
def returning : List (Calls Float32) :=
  [[(sighting 1, 40), (sighting 0, 40)], [], [(sighting 1, 120)]]

theorem returning_single : ∀ calls ∈ returning, Single calls := by
  simp only [returning, List.forall_mem_cons, List.not_mem_nil, false_implies,
    implies_true, and_true]
  refine ⟨fun id nonzero => ?_, fun id _ => Nat.zero_le _, fun id _ => ?_⟩
  · simp only [List.countP_cons, List.countP_nil, sighting]
    rw [if_neg (c := ((0 : UInt32) == id) = true) (by simpa using nonzero.symm)]
    split <;> decide
  · simp only [List.countP_cons, List.countP_nil, sighting]
    split <;> decide

end Example

theorem trace_semantics_returning :
    let view := ViewOrder.ascending.view
      ((TrackManager.fresh .disabled).trace Example.returning).tracks
    (1 : UInt32) ∈ view.map TrackState.trackId ∧
      ∀ s ∈ view, s.trackId = 1 → s.framesSeen = 2 ∧ s.framesSinceFirst = 3 := by
  have few : Example.returning.length < 2 ^ 32 := by decide
  rcases trace_semantics .disabled .ascending few Example.returning_single with
    ⟨_, alive, states⟩
  refine ⟨(alive 1).mpr ⟨by decide, _, .head _, _, .head _, rfl⟩, fun s member same => ?_⟩
  have recorded := (states s member).2.1
  rw [same] at recorded
  have current := recorded [] [some 40, none, some 120]
    { split := rfl
      starts := ⟨40, _, rfl⟩
      unbroken := fun infixed => absurd infixed.length_le (by decide)
      apart := .inl nofun }
  exact ⟨UInt32.toNat_inj.mp current.seen, UInt32.toNat_inj.mp current.sinceFirst⟩

end KhadasYolo.Temporal
