import KhadasYolo.Temporal.TrackState

/-!
# Crossings of the region

The calls of `update` and `mark_missed` of one track, and the region events after each of
them. The events are the changes of the membership of the observed centroids, whatever
frames are missed in between.
-/

namespace KhadasYolo.Temporal

universe u

/-- What happens to a track in a frame. -/
inductive TrackCall where
  | update (obs : Observation)
  | markMissed
  deriving DecidableEq, Repr

/-- The observations of the calls. -/
def observations (calls : List TrackCall) : List Observation :=
  calls.filterMap fun
    | .update obs => some obs
    | .markMissed => none

/-- A centroid is in the region. -/
def Roi.holds (roi : Roi) (obs : Observation) : Bool := roi.contains obs.cx obs.cy

inductive Crossing where
  | entry
  | exit
  deriving DecidableEq, Repr

namespace TrackState

variable {F : Type u}

/-- The events after a call. -/
def crossings (s : TrackState F) : List Crossing :=
  (if s.roiEntered then [.entry] else []) ++ if s.roiExited then [.exit] else []

variable [FloatMath F]

def call (roi : Roi) (s : TrackState F) : TrackCall → TrackState F
  | .update obs => s.update obs roi
  | .markMissed => s.markMissed

/-- All calls, in their order. -/
def after (s : TrackState F) (roi : Roi) (calls : List TrackCall) : TrackState F :=
  calls.foldl (call roi) s

/-- The events after each of the calls. -/
def log (s : TrackState F) (roi : Roi) : List TrackCall → List Crossing
  | [] => []
  | next :: calls => (s.call roi next).crossings ++ (s.call roi next).log roi calls

end TrackState

/-! ## Changes of a membership -/

/-- The crossing from one membership to the next one. -/
def crossing : Bool → Bool → List Crossing
  | false, true => [.entry]
  | true, false => [.exit]
  | false, false | true, true => []

/-- The crossings of a sequence of memberships. -/
def changes : Bool → List Bool → List Crossing
  | _, [] => []
  | before, now :: later => crossing before now ++ changes now later

/-- The crossing that can come next. -/
def due : Bool → Crossing
  | false => .entry
  | true => .exit

def Crossing.opposite : Crossing → Crossing
  | .entry => .exit
  | .exit => .entry

/-- That many crossings by turns. -/
def byTurns : Nat → Crossing → List Crossing
  | 0, _ => []
  | count + 1, first => first :: byTurns count first.opposite

theorem changes_byTurns (before : Bool) (inside : List Bool) :
    changes before inside = byTurns (changes before inside).length (due before) := by
  induction inside generalizing before with
  | nil => rfl
  | cons now later ih =>
      cases before with
      | false =>
          cases now with
          | false => exact ih false
          | true => exact congrArg (Crossing.entry :: ·) (ih true)
      | true =>
          cases now with
          | false => exact congrArg (Crossing.exit :: ·) (ih false)
          | true => exact ih true

theorem crossing_balanced (before now : Bool) :
    (crossing before now).count .entry + before.toNat =
      (crossing before now).count .exit + now.toNat := by
  cases before <;> cases now <;> rfl

theorem changes_balanced (before : Bool) (inside : List Bool) :
    (changes before inside).count .entry + before.toNat =
      (changes before inside).count .exit + (inside.getLastD before).toNat := by
  induction inside generalizing before with
  | nil => rfl
  | cons now later ih =>
      have first := crossing_balanced before now
      have rest := ih now
      rw [List.getLastD_cons, changes, List.count_append, List.count_append]
      omega

/-! ## The events of a track -/

/-- What the events of a track say, after any of its calls. -/
structure CrossingLog {F : Type u} [FloatMath F] (roi : Roi) (observed : List Observation)
    (s : TrackState F) (events : List Crossing) : Prop where
  exclusive : ¬ (s.roiEntered = true ∧ s.roiExited = true)
  complete : events = changes false (observed.map roi.holds)
  alternate : events = byTurns events.length .entry
  membership : s.inRoi = (observed.map roi.holds).getLastD false
  balanced : events.count .entry = events.count .exit + s.inRoi.toNat
  missed : s.markMissed.crossings = [] ∧ s.markMissed.inRoi = s.inRoi
  observed : ∀ obs, (s.update obs roi).crossings = crossing s.inRoi (roi.holds obs)

namespace TrackState

variable {F : Type u} [FloatMath F] {roi : Roi} {s : TrackState F}

theorem crossings_update (obs : Observation) :
    (s.update obs roi).crossings = crossing s.inRoi (roi.holds obs) := by
  change (if roi.holds obs && !s.inRoi then _ else _) ++
    (if !roi.holds obs && s.inRoi then _ else _) = _
  cases roi.holds obs <;> cases s.inRoi <;> rfl

theorem log_eq (calls : List TrackCall) :
    s.log roi calls = changes s.inRoi ((observations calls).map roi.holds) := by
  induction calls generalizing s with
  | nil => rfl
  | cons next calls ih =>
      rw [log, ih]
      cases next with
      | update obs => exact congrArg (· ++ _) (crossings_update obs)
      | markMissed => rfl

theorem inRoi_after (calls : List TrackCall) :
    (s.after roi calls).inRoi = ((observations calls).map roi.holds).getLastD s.inRoi := by
  induction calls generalizing s with
  | nil => rfl
  | cons next calls ih =>
      change ((s.call roi next).after roi calls).inRoi = _
      rw [ih]
      cases next with
      | update obs => exact List.getLastD_cons.symm
      | markMissed => rfl

/-- No call reports both an entry and an exit. -/
def Exclusive (s : TrackState F) : Prop := ¬ (s.roiEntered = true ∧ s.roiExited = true)

theorem exclusive_call (next : TrackCall) : (s.call roi next).Exclusive := by
  cases next with
  | markMissed => exact fun ⟨entered, _⟩ => nomatch entered
  | update obs =>
      change ¬ ((roi.holds obs && !s.inRoi) = true ∧ (!roi.holds obs && s.inRoi) = true)
      cases roi.holds obs <;> simp

theorem exclusive_after (exclusive : s.Exclusive) (calls : List TrackCall) :
    (s.after roi calls).Exclusive := by
  induction calls generalizing s with
  | nil => exact exclusive
  | cons next calls ih => exact ih (exclusive_call next)

/-- The region events of a track are a log of its crossings. -/
theorem crossing_log (trackId : UInt32) (className : Vector UInt8 16) (firstSeenUs : UInt64)
    (roi : Roi) (calls : List TrackCall) :
    let s : TrackState F := create trackId className firstSeenUs
    CrossingLog roi (observations calls) (s.after roi calls) (s.log roi calls) := by
  intro s
  have complete : s.log roi calls = changes false ((observations calls).map roi.holds) :=
    log_eq calls
  have membership : (s.after roi calls).inRoi =
      ((observations calls).map roi.holds).getLastD false := inRoi_after calls
  constructor
  · exact exclusive_after (fun ⟨entered, _⟩ => nomatch entered) calls
  · exact complete
  · rw [complete]
    exact changes_byTurns false _
  · exact membership
  · rw [complete, membership]
    exact changes_balanced false _
  · exact ⟨rfl, rfl⟩
  · exact crossings_update

end TrackState

end KhadasYolo.Temporal
