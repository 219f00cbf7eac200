import KhadasYolo.Lib.Extent
import KhadasYolo.Temporal.Crossings

/-!
# The loiter score

The history of a track is the window of its last sixteen observations. In exact arithmetic
the loiter score measures the bounding box of their centroids.
-/

namespace KhadasYolo.Temporal

universe u

/-- The last sixteen observations. -/
def window (observed : List Observation) : List Observation :=
  observed.drop (observed.length - kHistoryMax)

/-- The bounding box of the centroids of a window. -/
structure Bounding (window : List Observation) (left top right bottom : Int) : Prop where
  left : IsLeast {x | ∃ obs ∈ window, obs.cx.toInt = x} left
  top : IsLeast {y | ∃ obs ∈ window, obs.cy.toInt = y} top
  right : IsGreatest {x | ∃ obs ∈ window, obs.cx.toInt = x} right
  bottom : IsGreatest {y | ∃ obs ∈ window, obs.cy.toInt = y} bottom

/-- The larger side of a bounding box. -/
def side (left top right bottom : Int) : Int := max (right - left) (bottom - top)

/-- An integer that an `int` can hold. -/
def Fits (value : Int) : Prop := -2 ^ 31 ≤ value ∧ value < 2 ^ 31

instance (value : Int) : Decidable (Fits value) := inferInstanceAs (Decidable (_ ∧ _))

/-- No difference of two coordinates overflows. -/
def Near (observed : List Observation) : Prop :=
  ∀ first ∈ observed, ∀ second ∈ observed,
    Fits (first.cx.toInt - second.cx.toInt) ∧ Fits (first.cy.toInt - second.cy.toInt)

instance (observed : List Observation) : Decidable (Near observed) :=
  inferInstanceAs (Decidable (∀ first ∈ observed, ∀ second ∈ observed, _))

/-! ## The window -/

theorem remember_window (observed : List Observation) (obs : Observation) :
    TrackState.remember (window observed) obs = window (observed ++ [obs]) := by
  have most : kHistoryMax = 16 := rfl
  have size : (window observed ++ [obs]).length =
      observed.length - (observed.length - kHistoryMax) + 1 := by
    rw [List.length_append, window, List.length_drop, List.length_singleton]
  rw [TrackState.remember]
  split
  next full =>
    have enough : kHistoryMax ≤ observed.length := by omega
    have nonempty : window observed ≠ [] := by
      apply List.ne_nil_of_length_pos
      rw [window, List.length_drop]
      omega
    have first : observed.length + 1 - kHistoryMax =
        observed.length - kHistoryMax + 1 := by omega
    have within : observed.length - kHistoryMax + 1 ≤ observed.length := by omega
    rw [List.tail_append_of_ne_nil nonempty, window, window, List.tail_drop,
      List.length_append, List.length_singleton, first, List.drop_append_of_le_length within]
  next room =>
    have all : observed.length - kHistoryMax = 0 := by omega
    have still : observed.length + 1 - kHistoryMax = 0 := by omega
    rw [window, window, List.length_append, List.length_singleton, all, still, List.drop_zero,
      List.drop_zero]

namespace TrackState

variable {F : Type u} [FloatMath F] {roi : Roi} {s : TrackState F}

/-- The history is the window, and the score is that of the history. -/
structure Windowed (observed : List Observation) (s : TrackState F) : Prop where
  history : s.history = window observed
  score : s.loiterScore = loiter s.history

theorem windowed_create (trackId : UInt32) (className : Vector UInt8 16)
    (firstSeenUs : UInt64) :
    Windowed [] (create trackId className firstSeenUs : TrackState F) where
  history := rfl
  score := rfl

theorem Windowed.call {observed : List Observation} (windowed : Windowed observed s)
    (next : TrackCall) : Windowed (observed ++ observations [next]) (s.call roi next) := by
  cases next with
  | markMissed =>
      change Windowed (observed ++ []) s.markMissed
      rw [List.append_nil]
      exact ⟨windowed.history, windowed.score⟩
  | update obs =>
      constructor
      · change remember s.history obs = window (observed ++ [obs])
        rw [windowed.history, remember_window]
      · rfl

theorem Windowed.after {observed : List Observation} (windowed : Windowed observed s)
    (calls : List TrackCall) :
    Windowed (observed ++ observations calls) (s.after roi calls) := by
  induction calls generalizing s observed with
  | nil =>
      change Windowed (observed ++ []) s
      rwa [List.append_nil]
  | cons next calls ih =>
      have split : observations (next :: calls) = observations [next] ++ observations calls :=
        @List.filterMap_append _ _ [next] calls _
      rw [split, ← List.append_assoc]
      exact ih (windowed.call next)

end TrackState

/-! ## The bounding box -/

section Exact

variable {history : List Observation}

theorem toInt_min (a b : Int32) : (min a b).toInt = min a.toInt b.toInt := by
  change (if a ≤ b then a else b).toInt = _
  split
  next below => exact (min_eq_left (Int32.le_iff_toInt_le.mp below)).symm
  next above =>
    rw [Int32.le_iff_toInt_le, not_le] at above
    exact (min_eq_right above.le).symm

theorem toInt_max (a b : Int32) : (max a b).toInt = max a.toInt b.toInt := by
  change (if a ≤ b then b else a).toInt = _
  split
  next below => exact (max_eq_right (Int32.le_iff_toInt_le.mp below)).symm
  next above =>
    rw [Int32.le_iff_toInt_le, not_le] at above
    exact (max_eq_left above.le).symm

theorem toInt_sub_of_fits {a b : Int32} (fits : Fits (a.toInt - b.toInt)) :
    (a - b).toInt = a.toInt - b.toInt := by
  rw [Int32.toInt_sub]
  exact Int.bmod_eq_of_le fits.1 fits.2

/-- The running minimum of a coordinate. -/
theorem toInt_foldl_min (coordinate : Observation → Int32) (start : Int32) :
    (history.foldl (fun held h => min held (coordinate h)) start).toInt =
      (history.map fun h => (coordinate h).toInt).foldl min start.toInt := by
  rw [List.foldl_map]
  exact (List.foldl_hom Int32.toInt fun held h => (toInt_min held (coordinate h)).symm).symm

theorem toInt_foldl_max (coordinate : Observation → Int32) (start : Int32) :
    (history.foldl (fun held h => max held (coordinate h)) start).toInt =
      (history.map fun h => (coordinate h).toInt).foldl max start.toInt := by
  rw [List.foldl_map]
  exact (List.foldl_hom Int32.toInt fun held h => (toInt_max held (coordinate h)).symm).symm

/-- The members of a mapped list. -/
theorem mem_coordinates (coordinate : Observation → Int32) :
    {x | x ∈ history.map fun h => (coordinate h).toInt} =
      {x | ∃ obs ∈ history, (coordinate obs).toInt = x} := by
  ext x
  exact List.mem_map

section Running

variable (coordinate : Observation → Int32) {front : Observation} (member : front ∈ history)

include member

theorem isLeast_coordinate : IsLeast {x | ∃ obs ∈ history, (coordinate obs).toInt = x}
    (history.foldl (fun held h => min held (coordinate h)) (coordinate front)).toInt := by
  rw [toInt_foldl_min, ← mem_coordinates]
  exact Extent.isLeast_foldl_min (List.mem_map_of_mem member)

theorem isGreatest_coordinate : IsGreatest {x | ∃ obs ∈ history, (coordinate obs).toInt = x}
    (history.foldl (fun held h => max held (coordinate h)) (coordinate front)).toInt := by
  rw [toInt_foldl_max, ← mem_coordinates]
  exact Extent.isGreatest_foldl_max (List.mem_map_of_mem member)

end Running

/-- Without overflow the spread is the larger side of the bounding box. -/
theorem toInt_spread (near : Near history) (nonempty : history ≠ []) :
    ∃ left top right bottom, Bounding history left top right bottom ∧
      (TrackState.spread history).toInt = max (right - left) (bottom - top) := by
  cases place : history with
  | nil => exact absurd place nonempty
  | cons front rest =>
      rw [← place]
      have member : front ∈ history := by
        rw [place]
        exact List.mem_cons_self
      have least (coordinate : Observation → Int32) := isLeast_coordinate coordinate member
      have greatest (coordinate : Observation → Int32) :=
        isGreatest_coordinate coordinate member
      refine ⟨_, _, _, _, ⟨least Observation.cx, least Observation.cy,
        greatest Observation.cx, greatest Observation.cy⟩, ?_⟩
      have spread : TrackState.spread history = max
          (history.foldl (fun held h => max held h.cx) front.cx -
            history.foldl (fun held h => min held h.cx) front.cx)
          (history.foldl (fun held h => max held h.cy) front.cy -
            history.foldl (fun held h => min held h.cy) front.cy) := by
        rw [place]
        rfl
      rcases (greatest Observation.cx).1 with ⟨right, inRight, isRight⟩
      rcases (least Observation.cx).1 with ⟨left, inLeft, isLeft⟩
      rcases (greatest Observation.cy).1 with ⟨bottom, inBottom, isBottom⟩
      rcases (least Observation.cy).1 with ⟨top, inTop, isTop⟩
      have width := (near right inRight left inLeft).1
      have height := (near bottom inBottom top inTop).2
      rw [isRight, isLeft] at width
      rw [isBottom, isTop] at height
      rw [spread, toInt_max, toInt_sub_of_fits width, toInt_sub_of_fits height]

end Exact

/-! ## The score -/

section Score

attribute [local instance] FloatOps.exactMath

/-- What the loiter score says. -/
structure LoiterLaw (observed : List Observation) (s : TrackState ℝ) : Prop where
  history : s.history = window observed
  few : observed.length < 4 → s.loiterScore = 0
  score : 4 ≤ observed.length → ∃ left top right bottom,
    Bounding (window observed) left top right bottom ∧
      s.loiterScore = max 0 (1 - (side left top right bottom : ℝ) / 25)
  range : 0 ≤ s.loiterScore ∧ s.loiterScore ≤ 1
  missed : s.markMissed.history = s.history ∧ s.markMissed.loiterScore = s.loiterScore
  still : s.loiterScore = 1 →
    ∀ first ∈ window observed, ∀ second ∈ window observed,
      first.cx = second.cx ∧ first.cy = second.cy

theorem raise_exact (held value : ℝ) : FloatOps.raise held value = max held value := by
  rw [FloatOps.raise, max_def]
  simp only [FloatOps.less, decide_eq_true_eq]
  split
  next above => exact (if_pos above.le).symm
  next below =>
    split
    next same => exact le_antisymm same (not_lt.mp below)
    next => rfl

theorem lower_exact (held value : ℝ) : FloatOps.lower held value = min held value := by
  rw [FloatOps.lower, min_def]
  simp only [FloatOps.less, decide_eq_true_eq]
  split
  next below => exact (if_neg (not_le.mpr below)).symm
  next above => exact (if_pos (not_lt.mp above)).symm

theorem loiter_exact {history : List Observation} (enough : 4 ≤ history.length) :
    (TrackState.loiter history : ℝ) =
      max 0 (min 1 (1 - ((TrackState.spread history).toInt : ℝ) / 25)) := by
  have zero : (0.0 : ℝ) = 0 := by norm_num
  have one : (1.0 : ℝ) = 1 := by norm_num
  have radius : (FloatOps.ofNat kLoiterRadius : ℝ) = 25 := by
    change ((25 : Nat) : ℝ) = 25
    norm_num
  rw [TrackState.loiter, if_pos enough, raise_exact, lower_exact, zero, one, radius]
  rfl

theorem Bounding.side_nonneg {history : List Observation} {left top right bottom : Int}
    (box : Bounding history left top right bottom) : 0 ≤ side left top right bottom :=
  le_max_of_le_left (sub_nonneg.mpr (box.left.2 box.right.1))

/-- A box without sides holds one centroid. -/
theorem Bounding.still {history : List Observation} {left top right bottom : Int}
    (box : Bounding history left top right bottom) (none : side left top right bottom ≤ 0)
    {first second : Observation} (one : first ∈ history) (other : second ∈ history) :
    first.cx = second.cx ∧ first.cy = second.cy := by
  rcases max_le_iff.mp none with ⟨width, height⟩
  constructor
  · apply Int32.toInt_inj.mp
    have low := box.left.2 ⟨first, one, rfl⟩
    have high := box.right.2 ⟨first, one, rfl⟩
    have low' := box.left.2 ⟨second, other, rfl⟩
    have high' := box.right.2 ⟨second, other, rfl⟩
    omega
  · apply Int32.toInt_inj.mp
    have low := box.top.2 ⟨first, one, rfl⟩
    have high := box.bottom.2 ⟨first, one, rfl⟩
    have low' := box.top.2 ⟨second, other, rfl⟩
    have high' := box.bottom.2 ⟨second, other, rfl⟩
    omega

theorem length_window (observed : List Observation) :
    (window observed).length = min observed.length 16 := by
  have most : kHistoryMax = 16 := rfl
  rw [window, List.length_drop]
  omega

theorem Near.window {observed : List Observation} (near : Near observed) :
    Near (window observed) :=
  fun first one second other =>
    near first (List.mem_of_mem_drop one) second (List.mem_of_mem_drop other)

/-- Four observations are enough for a score. -/
theorem loiter_window {observed : List Observation} (near : Near observed)
    (enough : 4 ≤ observed.length) :
    ∃ left top right bottom, Bounding (window observed) left top right bottom ∧
      (TrackState.loiter (window observed) : ℝ) =
        max 0 (1 - (side left top right bottom : ℝ) / 25) := by
  have length : 4 ≤ (window observed).length := by
    rw [length_window]
    omega
  have nonempty : window observed ≠ [] := List.ne_nil_of_length_pos (by omega)
  rcases toInt_spread near.window nonempty with ⟨left, top, right, bottom, box, spread⟩
  refine ⟨left, top, right, bottom, box, ?_⟩
  have nonneg : (0 : ℝ) ≤ side left top right bottom := Int.cast_nonneg box.side_nonneg
  have below : 1 - (side left top right bottom : ℝ) / 25 ≤ 1 := by
    have ratio := div_nonneg nonneg (by norm_num : (0 : ℝ) ≤ 25)
    linarith
  rw [loiter_exact length, spread, ← side, min_eq_right below]

theorem loiter_few {observed : List Observation} (few : observed.length < 4) :
    (TrackState.loiter (window observed) : ℝ) = 0 := by
  have short : ¬ 4 ≤ (window observed).length := by
    rw [length_window]
    omega
  have zero : (0.0 : ℝ) = 0 := by norm_num
  rw [TrackState.loiter, if_neg short, zero]

/-- The loiter score after any calls whose coordinates are near each other. -/
theorem loiter_law (trackId : UInt32) (className : Vector UInt8 16) (firstSeenUs : UInt64)
    (roi : Roi) (calls : List TrackCall) (near : Near (observations calls)) :
    LoiterLaw (observations calls)
      ((TrackState.create trackId className firstSeenUs : TrackState ℝ).after roi calls) := by
  have windowed := @TrackState.Windowed.after ℝ _ roi _ []
    (TrackState.windowed_create trackId className firstSeenUs) calls
  rw [List.nil_append] at windowed
  have score := windowed.score
  rw [windowed.history] at score
  rcases Nat.lt_or_ge (observations calls).length 4 with few | enough
  · have none := score.trans (loiter_few few)
    refine ⟨windowed.history, fun _ => none, fun enough => absurd few (Nat.not_lt.mpr enough),
      ?_, ⟨rfl, rfl⟩, fun one => ?_⟩
    · rw [none]
      exact ⟨le_rfl, zero_le_one⟩
    · rw [none] at one
      exact absurd one zero_ne_one
  · rcases loiter_window near enough with ⟨left, top, right, bottom, box, law⟩
    rw [law] at score
    have nonneg : (0 : ℝ) ≤ (side left top right bottom : ℝ) / 25 :=
      div_nonneg (Int.cast_nonneg box.side_nonneg) (by norm_num)
    refine ⟨windowed.history, fun few => absurd few (Nat.not_lt.mpr enough),
      fun _ => ⟨left, top, right, bottom, box, score⟩, ?_, ⟨rfl, rfl⟩, fun one => ?_⟩
    · rw [score]
      exact ⟨le_max_left _ _, max_le zero_le_one (by linarith)⟩
    · intro first inFirst second inSecond
      apply box.still _ inFirst inSecond
      rw [score] at one
      have none : (side left top right bottom : ℝ) / 25 ≤ 0 := by
        rcases max_choice (0 : ℝ) (1 - (side left top right bottom : ℝ) / 25) with zero | rest
        · rw [zero] at one
          exact absurd one zero_ne_one
        · rw [rest] at one
          linarith
      have small : (side left top right bottom : ℝ) ≤ 0 := by linarith
      exact Int.cast_nonpos.mp small

namespace Example

/-- An observation of a point. -/
def point (timestampUs : UInt64) (cx cy : Int32) : Observation :=
  ⟨timestampUs, cx, cy, cx, cy, cx, cy⟩

/-- A target that is missed once and moves by five pixels. -/
def lingering : List TrackCall :=
  [.update (point 0 10 10), .update (point 40000 12 10), .markMissed,
    .update (point 120000 15 11), .update (point 160000 14 12)]

end Example

theorem loiter_law_lingering : LoiterLaw (observations Example.lingering)
    ((TrackState.create 7 (.replicate 16 0) 0 : TrackState ℝ).after .disabled
      Example.lingering) :=
  loiter_law 7 (.replicate 16 0) 0 .disabled Example.lingering (by decide)

end Score

end KhadasYolo.Temporal
