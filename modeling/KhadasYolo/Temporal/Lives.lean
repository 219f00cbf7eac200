import KhadasYolo.Lib.Ageing
import KhadasYolo.Temporal.TrackManager

/-!
# Lives of track states

A `TrackState` lives as long as its id has not been missing for too many frames,
whatever the records say. Where a frame has at most one record of an id, the state
counts the sightings of its life and starts with the first of them.
-/

namespace KhadasYolo.Temporal

open Ipc Ageing TrackManager

universe u v

variable {F : Type u} {α : Type v}

/-- The state of an id has missed as many frames as its life. -/
structure Follows (s : TrackState F) (life : Life α) : Prop where
  missed : s.framesMissed.toNat = life.unseen
  recent : life.unseen ≤ kMaxFramesLost.toNat

/-- It counts the sightings of its life, here their timestamps. -/
structure Tallies (s : TrackState F) (life : Life UInt64) : Prop extends Follows s life where
  seen : s.framesSeen = UInt32.ofNat life.sightings.length
  first : life.sightings.head? = some s.firstSeenUs

/-- Both get over a miss, or neither does. -/
theorem Follows.miss {s : TrackState F} {life : Life α} (follows : Follows s life) :
    (s.miss = some s.markMissed ∧ Follows s.markMissed ⟨life.unseen + 1, life.sightings⟩ ∧
        round kMaxFramesLost.toNat (some life) none =
          some ⟨life.unseen + 1, life.sightings⟩) ∨
      (s.miss = none ∧ round kMaxFramesLost.toNat (some life) none = none) := by
  have limit : kMaxFramesLost.toNat = 30 := rfl
  have recent := follows.recent
  have counted : s.markMissed.framesMissed.toNat = life.unseen + 1 := by
    rw [TrackState.markMissed, UInt32.toNat_add, follows.missed]
    have one : UInt32.toNat 1 = 1 := rfl
    exact Nat.mod_eq_of_lt (by omega)
  have dropped : s.markMissed.framesMissed > kMaxFramesLost ↔
      ¬ life.unseen + 1 ≤ kMaxFramesLost.toNat := by
    rw [gt_iff_lt, UInt32.lt_iff_toNat_lt, counted, Nat.not_le]
  by_cases early : life.unseen + 1 ≤ kMaxFramesLost.toNat
  · refine .inl ⟨if_neg (mt dropped.mp (not_not.mpr early)), ⟨counted, early⟩, ?_⟩
    exact if_pos early
  · exact .inr ⟨if_pos (dropped.mpr early), if_neg early⟩

variable [FloatMath F] {roi : Roi} {timestampUs : UInt64}

/-- A sighted id has missed nothing. -/
theorem admitAll_missed (roi : Roi) (timestampUs : UInt64) (held : Option (TrackState F))
    {records : List (WireTrackRecord F)} (seen : records.isEmpty = false) :
    ∃ after, admitAll roi timestampUs held records = some after ∧ after.framesMissed = 0 := by
  induction records generalizing held with
  | nil => contradiction
  | cons rec records ih =>
      cases records with
      | nil => exact ⟨_, rfl, rfl⟩
      | cons next rest => exact ih _ rfl

/-- A frame is a round in the life of every id. -/
theorem turn_follows {held : Option (TrackState F)} {life : Option (Life α)}
    (follows : Option.Rel Follows held life) {records : List (WireTrackRecord F)}
    {now : Option α} (same : now.isSome = !records.isEmpty) :
    Option.Rel Follows (turn roi timestampUs held records)
      (round kMaxFramesLost.toNat life now) := by
  rw [turn]
  cases now with
  | some sighting =>
      have seen : records.isEmpty = false := by simpa using same.symm
      rcases admitAll_missed roi timestampUs held seen with ⟨after, folded, missed⟩
      rw [seen, if_neg Bool.false_ne_true, folded]
      exact .some ⟨congrArg UInt32.toNat missed, Nat.zero_le _⟩
  | none =>
      have unseen : records.isEmpty = true := by simpa using same.symm
      rw [if_pos unseen]
      cases follows with
      | none => exact .none
      | some follows =>
          rcases follows.miss with ⟨goes, next, round⟩ | ⟨stops, round⟩
          · rw [Option.bind_some, goes, round]
            exact .some next
          · rw [Option.bind_some, stops, round]
            exact .none

/-- Where there is at most one record, the state counts it. -/
theorem turn_tallies {held : Option (TrackState F)} {life : Option (Life UInt64)}
    (tallies : Option.Rel Tallies held life) {records : List (WireTrackRecord F)}
    (single : records.length ≤ 1) {now : Option UInt64}
    (same : now = if records.isEmpty then none else some timestampUs) :
    Option.Rel Tallies (turn roi timestampUs held records)
      (round kMaxFramesLost.toNat life now) := by
  subst same
  rw [turn]
  cases records with
  | nil =>
      cases tallies with
      | none => exact .none
      | some tallies =>
          rcases tallies.toFollows.miss with ⟨goes, next, round⟩ | ⟨stops, round⟩
          · simp only [List.isEmpty_nil, if_true, Option.bind_some, goes, round]
            exact .some ⟨next, tallies.seen, tallies.first⟩
          · simp only [List.isEmpty_nil, if_true, Option.bind_some, stops, round]
            exact .none
  | cons rec rest =>
      have last : rest = [] := List.length_eq_zero_iff.mp (by simpa using single)
      subst last
      cases tallies with
      | none => exact .some ⟨⟨rfl, Nat.zero_le _⟩, rfl, rfl⟩
      | @some s life tallies =>
          refine .some ⟨⟨rfl, Nat.zero_le _⟩, ?_, ?_⟩
          · rw [Option.elim_some, List.length_append, List.length_singleton,
              UInt32.ofNat_add, ← tallies.seen]
            rfl
          · rw [Option.elim_some, List.head?_append, tallies.first]
            rfl

/-! ## What a state keeps -/

/-- A state bears an id and a name. -/
structure Bears (id : UInt32) (name : List UInt8) (s : TrackState F) : Prop where
  trackId : s.trackId = id
  className : cString s.className = name

/-- A state is made with both and keeps them. -/
theorem admitAll_bears {id : UInt32} {name : List UInt8} {held : Option (TrackState F)}
    (bears : ∀ s ∈ held, Bears id name s) {records : List (WireTrackRecord F)}
    (named : ∀ rec ∈ records, rec.trackId = id ∧ cString (copyName rec.className) = name) :
    ∀ s ∈ admitAll roi timestampUs held records, Bears id name s := by
  induction records generalizing held with
  | nil => exact bears
  | cons rec records ih =>
      rw [List.forall_mem_cons] at named
      refine ih ?_ named.2
      rintro _ ⟨⟩
      cases held with
      | none => exact ⟨named.1.1, named.1.2⟩
      | some s => exact ⟨(bears s rfl).trackId, (bears s rfl).className⟩

theorem turn_bears {id : UInt32} {name : List UInt8} {held : Option (TrackState F)}
    (bears : ∀ s ∈ held, Bears id name s) {records : List (WireTrackRecord F)}
    (named : ∀ rec ∈ records, rec.trackId = id ∧ cString (copyName rec.className) = name) :
    ∀ s ∈ turn roi timestampUs held records, Bears id name s := by
  rw [turn]
  split
  next =>
    intro s missed
    rcases Option.bind_eq_some_iff.mp missed with ⟨before, alive, misses⟩
    rw [TrackState.miss] at misses
    split at misses
    next => contradiction
    next =>
      cases misses
      exact ⟨(bears before alive).trackId, (bears before alive).className⟩
  next => exact admitAll_bears bears named

end KhadasYolo.Temporal
