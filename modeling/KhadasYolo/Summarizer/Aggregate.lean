import KhadasYolo.Ipc.Wire
import KhadasYolo.Lib.FloatOps
import KhadasYolo.Lib.KeyedFold
import KhadasYolo.Lib.RunningMax

/-!
# Per-track aggregates

The rolling record the summarizer keeps for each track of the current presence
episode. The aggregate map is a fold over keyed records, and every field of a
track's aggregate is itself a fold over the corresponding fields of its records.
-/

namespace KhadasYolo.Summarizer

open Ipc

universe u

variable {F : Type u} [FloatOps F]

/-- Rolling aggregate of one track. -/
@[ext] structure AggTrack (F : Type u) where
  className : List UInt8
  trackId : UInt32
  framesSeen : UInt32
  firstSeenUs : UInt64
  lastSeenUs : UInt64
  durationMs : UInt32
  firstCx : Int32
  firstCy : Int32
  lastCx : Int32
  lastCy : Int32
  maxSpeed : F
  sumHeadingX : F
  sumHeadingY : F
  minLoiter : F
  maxLoiter : F
  everInRoi : Bool
  roiEntered : Bool
  roiExited : Bool
  firstSet : Bool
  lastStatus : UInt8

/-- The default member values. -/
def AggTrack.fresh : AggTrack F where
  className := []
  trackId := 0
  framesSeen := 0
  firstSeenUs := 0
  lastSeenUs := 0
  durationMs := 0
  firstCx := 0
  firstCy := 0
  lastCx := 0
  lastCy := 0
  maxSpeed := FloatOps.ofNat 0
  sumHeadingX := FloatOps.ofNat 0
  sumHeadingY := FloatOps.ofNat 0
  minLoiter := FloatOps.ofNat 1
  maxLoiter := FloatOps.ofNat 0
  everInRoi := false
  roiEntered := false
  roiExited := false
  firstSet := false
  lastStatus := 0

/-- The heading of a record in radians. -/
def radians (s : WireTrackSummary F) : F :=
  s.headingDeg * FloatOps.pi / FloatOps.ofNat 180

/-- The body of `update_aggregate`, on the entry the map lookup yields. -/
def AggTrack.update (a : AggTrack F) (s : WireTrackSummary F) : AggTrack F where
  className := cString s.className
  trackId := s.trackId
  framesSeen := RunningMax.larger a.framesSeen s.framesSeen
  firstSeenUs := if a.firstSet then a.firstSeenUs else s.firstSeenUs
  lastSeenUs := s.lastSeenUs
  durationMs := RunningMax.larger a.durationMs s.durationMs
  firstCx := if a.firstSet then a.firstCx else s.cx
  firstCy := if a.firstSet then a.firstCy else s.cy
  lastCx := s.cx
  lastCy := s.cy
  maxSpeed := FloatOps.raise a.maxSpeed s.speed
  sumHeadingX := a.sumHeadingX + FloatOps.cos (radians s)
  sumHeadingY := a.sumHeadingY + FloatOps.sin (radians s)
  minLoiter := FloatOps.lower a.minLoiter s.loiterScore
  maxLoiter := FloatOps.raise a.maxLoiter s.loiterScore
  everInRoi := s.inRoi != 0 || a.everInRoi
  roiEntered := s.roiEntered != 0 || a.roiEntered
  roiExited := s.roiExited != 0 || a.roiExited
  firstSet := true
  lastStatus := s.status

/-- The ordered map from track ids to aggregates. -/
abbrev Aggregate (F : Type u) := Std.ExtTreeMap UInt32 (AggTrack F)

/-- `agg[s.track_id]` inserts a fresh entry for a new id before the update. -/
def updateAggregate (agg : Aggregate F) (s : WireTrackSummary F) : Aggregate F :=
  KeyedFold.absorb WireTrackSummary.trackId AggTrack.fresh AggTrack.update agg s

/-- The fold of `update_aggregate` over a list of records. -/
def aggregateOf (records : List (WireTrackSummary F)) : Aggregate F :=
  records.foldl updateAggregate ∅

/-- The records of one track. -/
abbrev ofTrack (track : UInt32) (records : List (WireTrackSummary F)) :
    List (WireTrackSummary F) :=
  KeyedFold.recordsOf WireTrackSummary.trackId track records

/-- One track's aggregate over its own records. -/
def AggTrack.ofRecords (records : List (WireTrackSummary F)) : AggTrack F :=
  records.foldl AggTrack.update AggTrack.fresh

/-! ## Fields as folds -/

namespace AggTrack

variable {opening later records : List (WireTrackSummary F)}
  {s : WireTrackSummary F}

/-- A field that every update combines with one value of the record. -/
theorem field_ofRecords {Field Value : Type*} {field : AggTrack F → Field}
    (value : WireTrackSummary F → Value) (combine : Field → Value → Field)
    (combined : ∀ a s, field (update a s) = combine (field a) (value s))
    (records : List (WireTrackSummary F)) :
    field (ofRecords records) = (records.map value).foldl combine (field fresh) := by
  rw [List.foldl_map, ofRecords]
  exact (List.foldl_hom field fun a s => (combined a s).symm).symm

theorem ofRecords_concat :
    ofRecords (records ++ [s]) = update (ofRecords records) s :=
  List.foldl_concat ..

theorem firstSet_cons : (ofRecords (s :: records)).firstSet = true := by
  induction records using List.reverseRecOn with
  | nil => rfl
  | append_singleton records last _ => rw [← List.cons_append, ofRecords_concat]; rfl

/-- A field that only the first update sets. -/
theorem field_cons {Field : Type*} {field : AggTrack F → Field}
    (kept : ∀ a s, a.firstSet = true → field (update a s) = field a) :
    field (ofRecords (s :: records)) = field (update fresh s) := by
  induction records using List.reverseRecOn with
  | nil => rfl
  | append_singleton records last ih =>
      rw [← List.cons_append, ofRecords_concat, kept _ _ firstSet_cons, ih]

/-- A flag stays up once a record has raised it. -/
theorem flag_ofRecords {flag : AggTrack F → Bool} {value : WireTrackSummary F → Bool}
    (clear : flag fresh = false)
    (combined : ∀ a s, flag (update a s) = (value s || flag a))
    (records : List (WireTrackSummary F)) :
    flag (ofRecords records) = records.any value := by
  rw [field_ofRecords value (fun held up => up || held) combined, clear]
  induction records using List.reverseRecOn with
  | nil => rfl
  | append_singleton records last ih =>
      rw [List.map_append, List.foldl_append, ih, List.any_append]
      simp [Bool.or_comm]

end AggTrack

/-! ## Leaving out the first records -/

/-- What the first record of a track fixes: when and where it entered. -/
def entry (s : WireTrackSummary F) : UInt64 × Int32 × Int32 :=
  (s.firstSeenUs, s.cx, s.cy)

/-- The records `opening` of a track leave no mark beside the records `later`:
the track is seen again with the same entry, every count and flag they raise is
raised again, and the floating-point folds do not notice them. -/
structure Repeated (opening later : List (WireTrackSummary F)) : Prop where
  seenAgain : later ≠ []
  sameEntry : later.head?.map entry = opening.head?.map entry
  framesSeen : ∀ s ∈ opening, ∃ r ∈ later, s.framesSeen ≤ r.framesSeen
  durationMs : ∀ s ∈ opening, ∃ r ∈ later, s.durationMs ≤ r.durationMs
  inRoi : (∃ s ∈ opening, s.inRoi ≠ 0) → ∃ r ∈ later, r.inRoi ≠ 0
  roiEntered : (∃ s ∈ opening, s.roiEntered ≠ 0) → ∃ r ∈ later, r.roiEntered ≠ 0
  roiExited : (∃ s ∈ opening, s.roiExited ≠ 0) → ∃ r ∈ later, r.roiExited ≠ 0
  speed : (later.map (·.speed)).foldl FloatOps.raise (FloatOps.ofNat 0) =
    ((opening ++ later).map (·.speed)).foldl FloatOps.raise (FloatOps.ofNat 0)
  headingX :
    FloatOps.sumFrom (FloatOps.ofNat 0) (later.map (FloatOps.cos <| radians ·)) =
      FloatOps.sumFrom (FloatOps.ofNat 0)
        ((opening ++ later).map (FloatOps.cos <| radians ·))
  headingY :
    FloatOps.sumFrom (FloatOps.ofNat 0) (later.map (FloatOps.sin <| radians ·)) =
      FloatOps.sumFrom (FloatOps.ofNat 0)
        ((opening ++ later).map (FloatOps.sin <| radians ·))
  minLoiter :
    (later.map (·.loiterScore)).foldl FloatOps.lower (FloatOps.ofNat 1) =
      ((opening ++ later).map (·.loiterScore)).foldl FloatOps.lower (FloatOps.ofNat 1)
  maxLoiter :
    (later.map (·.loiterScore)).foldl FloatOps.raise (FloatOps.ofNat 0) =
      ((opening ++ later).map (·.loiterScore)).foldl FloatOps.raise (FloatOps.ofNat 0)

namespace AggTrack

variable {opening later : List (WireTrackSummary F)}

/-- A field every later record overwrites does not depend on the opening. -/
theorem last_field {Field : Type*} {field : AggTrack F → Field}
    (overwritten : ∀ a b s, field (update a s) = field (update b s))
    (again : later ≠ []) :
    field (ofRecords later) = field (ofRecords (opening ++ later)) := by
  rcases List.eq_nil_or_concat later with none | ⟨init, last, rfl⟩
  · contradiction
  · rw [List.concat_eq_append, ofRecords_concat, ← List.append_assoc, ofRecords_concat]
    exact overwritten _ _ _

/-- A folded field is unchanged exactly when the fold over the values is. -/
theorem fold_field {Field Value : Type*} {field : AggTrack F → Field}
    (value : WireTrackSummary F → Value) (combine : Field → Value → Field)
    (combined : ∀ a s, field (update a s) = combine (field a) (value s)) :
    field (ofRecords later) = field (ofRecords (opening ++ later)) ↔
      (later.map value).foldl combine (field fresh) =
        ((opening ++ later).map value).foldl combine (field fresh) := by
  rw [field_ofRecords value _ combined, field_ofRecords value _ combined]

/-- A running maximum is unchanged exactly when the later records reach it. -/
theorem max_field {field : AggTrack F → UInt32} {value : WireTrackSummary F → UInt32}
    (clear : field fresh = 0)
    (combined : ∀ a s, field (update a s) = RunningMax.larger (field a) (value s))
    (again : later ≠ []) :
    field (ofRecords later) = field (ofRecords (opening ++ later)) ↔
      ∀ s ∈ opening, ∃ r ∈ later, value s ≤ value r := by
  rw [field_ofRecords value _ combined, field_ofRecords value _ combined, List.map_append,
    RunningMax.foldl_larger_eq_append_iff, clear]
  rcases List.exists_mem_of_ne_nil later again with ⟨first, member⟩
  simp only [List.mem_map, forall_exists_index, and_imp, forall_apply_eq_imp_iff₂,
    exists_exists_and_eq_and]
  constructor
  · intro reached s seen
    rcases reached s seen with zero | found
    · exact ⟨first, member, Std.le_trans zero (UInt32.zero_le)⟩
    · exact found
  · exact fun reached s seen => .inr (reached s seen)

/-- A flag is unchanged exactly when the later records raise it too. -/
theorem flag_field {flag : AggTrack F → Bool} {value : WireTrackSummary F → UInt8}
    (clear : flag fresh = false)
    (combined : ∀ a s, flag (update a s) = (value s != 0 || flag a)) :
    flag (ofRecords later) = flag (ofRecords (opening ++ later)) ↔
      ((∃ s ∈ opening, value s ≠ 0) → ∃ r ∈ later, value r ≠ 0) := by
  rw [flag_ofRecords clear combined, flag_ofRecords clear combined, List.any_append,
    Bool.eq_iff_iff, Bool.or_eq_true, List.any_eq_true, List.any_eq_true]
  simp only [bne_iff_ne]
  exact iff_comm.trans or_iff_right_iff_imp

/-- The entry of a track in its aggregate. -/
def entered (a : AggTrack F) : UInt64 × Int32 × Int32 :=
  (a.firstSeenUs, a.firstCx, a.firstCy)

/-- The entry is unchanged exactly when both lists start with the same one. -/
theorem entered_eq_iff (started : opening ≠ []) (again : later ≠ []) :
    entered (ofRecords later) = entered (ofRecords (opening ++ later)) ↔
      later.head?.map entry = opening.head?.map entry := by
  rcases List.exists_cons_of_ne_nil started with ⟨first, opening, rfl⟩
  rcases List.exists_cons_of_ne_nil again with ⟨next, later, rfl⟩
  have kept : ∀ (a : AggTrack F) s, a.firstSet = true →
      entered (update a s) = entered a := by
    intro a s set
    simp [entered, update, set]
  rw [List.cons_append, field_cons kept, field_cons kept]
  simp [entered, entry, update, fresh]

/-- Preceding the records of a track that is seen again by the opening ones does
not change its aggregate exactly when these leave no mark. -/
theorem ofRecords_eq_iff (started : opening ≠ []) :
    later ≠ [] ∧ ofRecords later = ofRecords (opening ++ later) ↔
      Repeated opening later := by
  constructor
  · rintro ⟨again, same⟩
    constructor
    case seenAgain => exact again
    case sameEntry => exact (entered_eq_iff started again).mp (congrArg entered same)
    case framesSeen =>
      exact (max_field rfl (fun _ _ => rfl) again).mp (congrArg framesSeen same)
    case durationMs =>
      exact (max_field rfl (fun _ _ => rfl) again).mp (congrArg durationMs same)
    case inRoi => exact (flag_field rfl fun _ _ => rfl).mp (congrArg everInRoi same)
    case roiEntered =>
      exact (flag_field rfl fun _ _ => rfl).mp (congrArg AggTrack.roiEntered same)
    case roiExited =>
      exact (flag_field rfl fun _ _ => rfl).mp (congrArg AggTrack.roiExited same)
    case speed =>
      exact (fold_field (·.speed) FloatOps.raise fun _ _ => rfl).mp
        (congrArg maxSpeed same)
    case headingX =>
      exact (fold_field (FloatOps.cos <| radians ·) (· + ·) fun _ _ => rfl).mp
        (congrArg sumHeadingX same)
    case headingY =>
      exact (fold_field (FloatOps.sin <| radians ·) (· + ·) fun _ _ => rfl).mp
        (congrArg sumHeadingY same)
    case minLoiter =>
      exact (fold_field (·.loiterScore) FloatOps.lower fun _ _ => rfl).mp
        (congrArg AggTrack.minLoiter same)
    case maxLoiter =>
      exact (fold_field (·.loiterScore) FloatOps.raise fun _ _ => rfl).mp
        (congrArg AggTrack.maxLoiter same)
  · intro repeated
    have again := repeated.seenAgain
    have entries := (entered_eq_iff started again).mpr repeated.sameEntry
    simp only [entered, Prod.mk.injEq] at entries
    refine ⟨again, ?_⟩
    apply AggTrack.ext
    case firstSeenUs => exact entries.1
    case firstCx => exact entries.2.1
    case firstCy => exact entries.2.2
    case framesSeen =>
      exact (max_field rfl (fun _ _ => rfl) again).mpr repeated.framesSeen
    case durationMs =>
      exact (max_field rfl (fun _ _ => rfl) again).mpr repeated.durationMs
    case everInRoi => exact (flag_field rfl fun _ _ => rfl).mpr repeated.inRoi
    case roiEntered => exact (flag_field rfl fun _ _ => rfl).mpr repeated.roiEntered
    case roiExited => exact (flag_field rfl fun _ _ => rfl).mpr repeated.roiExited
    case maxSpeed =>
      exact (fold_field (·.speed) FloatOps.raise fun _ _ => rfl).mpr repeated.speed
    case sumHeadingX =>
      exact (fold_field (FloatOps.cos <| radians ·) (· + ·) fun _ _ => rfl).mpr
        repeated.headingX
    case sumHeadingY =>
      exact (fold_field (FloatOps.sin <| radians ·) (· + ·) fun _ _ => rfl).mpr
        repeated.headingY
    case minLoiter =>
      exact (fold_field (·.loiterScore) FloatOps.lower fun _ _ => rfl).mpr
        repeated.minLoiter
    case maxLoiter =>
      exact (fold_field (·.loiterScore) FloatOps.raise fun _ _ => rfl).mpr
        repeated.maxLoiter
    -- the fields every update overwrites
    all_goals exact last_field (fun _ _ _ => rfl) again

end AggTrack

/-- The aggregates over the records `later` are those over all records exactly
when the records `opening` of each of their tracks leave no mark. -/
theorem aggregateOf_eq_iff (opening later : List (WireTrackSummary F)) :
    aggregateOf later = aggregateOf (opening ++ later) ↔
      ∀ track, ofTrack track opening ≠ [] →
        Repeated (ofTrack track opening) (ofTrack track later) := by
  have folds : ∀ records : List (WireTrackSummary F), aggregateOf records =
      KeyedFold.collect compare WireTrackSummary.trackId AggTrack.fresh
        AggTrack.update records := fun _ => rfl
  rw [folds, folds, KeyedFold.collect_eq_collect_append_iff]
  constructor
  · exact fun each track seen => (AggTrack.ofRecords_eq_iff seen).mp (each track seen)
  · exact fun each track seen => (AggTrack.ofRecords_eq_iff seen).mpr (each track seen)

end KhadasYolo.Summarizer
