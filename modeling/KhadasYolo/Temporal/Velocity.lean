import KhadasYolo.Temporal.Loiter

/-!
# Velocity and the clock

The velocity is smoothed with the displacement over the elapsed time. The elapsed time is
the difference of two unsigned timestamps, so a clock that steps back gives a huge one.
-/

namespace KhadasYolo.Temporal

universe u

section Exact

attribute [local instance] FloatOps.exactMath

/-- The difference of the timestamps in microseconds, as `update` computes it. -/
def elapsedUs (previous obs : Observation) : Nat :=
  (obs.timestampUs - previous.timestampUs).toNat

/-- The microseconds from one observation to a later one. -/
def passedUs (previous obs : Observation) : Nat :=
  obs.timestampUs.toNat - previous.timestampUs.toNat

/-- A displacement over a time in microseconds, per second. -/
noncomputable def perSecond (displacement : Int) (us : Nat) : ℝ :=
  displacement / (us * (1 / 1000000))

/-- What an observation does to the velocity of a track that has been observed before. -/
structure VelocityLaw (s : TrackState ℝ) (roi : Roi) (previous obs : Observation) : Prop where
  kept : obs.timestampUs ≤ previous.timestampUs →
    (s.update obs roi).vx = s.vx ∧ (s.update obs roi).vy = s.vy
  mean : previous.timestampUs < obs.timestampUs →
    1 / 10000 < (passedUs previous obs * (1 / 1000000) : ℝ) →
      (s.update obs roi).vx =
          (s.vx + perSecond (obs.cx.toInt - previous.cx.toInt) (passedUs previous obs)) / 2 ∧
        (s.update obs roi).vy =
          (s.vy + perSecond (obs.cy.toInt - previous.cy.toInt) (passedUs previous obs)) / 2

/-- A timestamp that is not later is so much earlier that the unsigned difference is no
more than 100 microseconds, or nothing moves against the smoothed velocity. A later one
comes with a displacement that an `int` holds. The counter of the observations is zero
only when it has wrapped. -/
structure Undisturbed (s : TrackState ℝ) (previous obs : Observation) : Prop where
  kept : obs.timestampUs ≤ previous.timestampUs → s.framesSeen ≠ 0 →
    100 < elapsedUs previous obs →
      s.vx = perSecond (obs.cx - previous.cx).toInt (elapsedUs previous obs) ∧
        s.vy = perSecond (obs.cy - previous.cy).toInt (elapsedUs previous obs)
  mean : previous.timestampUs < obs.timestampUs → 100 < passedUs previous obs →
    if s.framesSeen = 0 then
      s.vx = perSecond (obs.cx.toInt - previous.cx.toInt) (passedUs previous obs) ∧
        s.vy = perSecond (obs.cy.toInt - previous.cy.toInt) (passedUs previous obs)
    else
      Fits (obs.cx.toInt - previous.cx.toInt) ∧ Fits (obs.cy.toInt - previous.cy.toInt)

/-! ## The code's velocity -/

variable {s : TrackState ℝ} {roi : Roi} {previous obs : Observation}

theorem seconds_exact (later earlier : UInt64) :
    (TrackState.seconds later earlier : ℝ) = (later - earlier).toNat * (1 / 1000000) := by
  have unit : (1e-6 : ℝ) = 1 / 1000000 := by norm_num
  rw [TrackState.seconds, unit]
  rfl

theorem smoothed_exact (velocity : ℝ) (now before : Int32) (us : Nat) :
    TrackState.smoothed velocity now before (us * (1 / 1000000)) =
      (velocity + perSecond (now - before).toInt us) / 2 := by
  have half : (0.5 : ℝ) = 1 / 2 := by norm_num
  have one : (1.0 : ℝ) = 1 := by norm_num
  rw [TrackState.smoothed, half, one]
  change 1 / 2 * perSecond (now - before).toInt us + (1 - 1 / 2) * velocity = _
  ring

/-- The time is long enough in seconds when it is in microseconds. -/
theorem long_iff (us : Nat) : 1 / 10000 < (us * (1 / 1000000) : ℝ) ↔ 100 < us := by
  constructor
  · intro more
    have scaled : (100 : ℝ) < us := by linarith
    exact_mod_cast scaled
  · intro more
    have scaled : (100 : ℝ) < us := by exact_mod_cast more
    linarith

theorem moved_iff {least : ℝ} (value : least = 1 / 10000) (us : Nat) :
    FloatOps.less least (us * (1 / 1000000)) = true ↔ 100 < us := by
  change decide (least < _) = true ↔ _
  rw [decide_eq_true_eq, value]
  exact long_iff us

/-- The velocity after an observation that moves it. -/
theorem velocity_moved (same : s.last = previous) (seen : s.framesSeen ≠ 0)
    (long : 100 < elapsedUs previous obs) :
    (s.update obs roi).vx =
        (s.vx + perSecond (obs.cx - previous.cx).toInt (elapsedUs previous obs)) / 2 ∧
      (s.update obs roi).vy =
        (s.vy + perSecond (obs.cy - previous.cy).toInt (elapsedUs previous obs)) / 2 := by
  have moved := (moved_iff (show (1e-4 : ℝ) = 1 / 10000 by norm_num) _).mpr long
  have later : (s.framesSeen == 0) = false := beq_eq_false_iff_ne.mpr seen
  rw [elapsedUs] at moved ⊢
  constructor
  · simp only [TrackState.update, same, seconds_exact, moved, later, Bool.not_false,
      Bool.true_and, if_true, smoothed_exact]
  · simp only [TrackState.update, same, seconds_exact, moved, later, Bool.not_false,
      Bool.true_and, if_true, smoothed_exact]

/-- The velocity after one that does not. -/
theorem velocity_kept (same : s.last = previous)
    (still : ¬ (s.framesSeen ≠ 0 ∧ 100 < elapsedUs previous obs)) :
    (s.update obs roi).vx = s.vx ∧ (s.update obs roi).vy = s.vy := by
  have unmoved : (!(s.framesSeen == 0) && FloatOps.less (1e-4 : ℝ)
      (TrackState.seconds obs.timestampUs s.last.timestampUs)) = false := by
    have least : (1e-4 : ℝ) = 1 / 10000 := by norm_num
    rw [Bool.eq_false_iff, ne_eq, Bool.and_eq_true, seconds_exact, moved_iff least, same]
    simpa [elapsedUs] using still
  constructor
  · simp only [TrackState.update, unmoved, Bool.false_eq_true, if_false]
  · simp only [TrackState.update, unmoved, Bool.false_eq_true, if_false]

theorem toInt_sub_iff {a b : Int32} :
    (a - b).toInt = a.toInt - b.toInt ↔ Fits (a.toInt - b.toInt) := by
  constructor
  · intro same
    rw [← same]
    exact ⟨Int32.le_toInt _, Int32.toInt_lt _⟩
  · exact toInt_sub_of_fits

theorem perSecond_inj {first second : Int} {us : Nat} (positive : 0 < us) :
    perSecond first us = perSecond second us ↔ first = second := by
  have time : (us * (1 / 1000000) : ℝ) ≠ 0 := by positivity
  rw [perSecond, perSecond, div_left_inj' time, Int.cast_inj]

theorem elapsed_later (later : previous.timestampUs < obs.timestampUs) :
    elapsedUs previous obs = passedUs previous obs :=
  UInt64.toNat_sub_of_le _ _ (UInt64.le_of_lt later)

theorem half_eq_iff (velocity rate : ℝ) : (velocity + rate) / 2 = velocity ↔ velocity = rate := by
  constructor
  · intro same
    linarith
  · intro same
    linarith

theorem eq_half_iff (velocity rate : ℝ) : velocity = (velocity + rate) / 2 ↔ velocity = rate :=
  eq_comm.trans (half_eq_iff velocity rate)

theorem half_inj (velocity rate other : ℝ) :
    (velocity + rate) / 2 = (velocity + other) / 2 ↔ rate = other := by
  constructor
  · intro same
    linarith
  · intro same
    rw [same]

/-- The velocity stays when nothing moves against it. -/
theorem velocity_kept_iff (same : s.last = previous) :
    ((s.update obs roi).vx = s.vx ∧ (s.update obs roi).vy = s.vy) ↔
      (s.framesSeen ≠ 0 → 100 < elapsedUs previous obs →
        s.vx = perSecond (obs.cx - previous.cx).toInt (elapsedUs previous obs) ∧
          s.vy = perSecond (obs.cy - previous.cy).toInt (elapsedUs previous obs)) := by
  by_cases moves : s.framesSeen ≠ 0 ∧ 100 < elapsedUs previous obs
  · rcases @velocity_moved s roi previous obs same moves.1 moves.2 with ⟨vx, vy⟩
    rw [vx, vy, half_eq_iff, half_eq_iff]
    exact ⟨fun still _ _ => still, fun still => still moves.1 moves.2⟩
  · apply iff_of_true (velocity_kept same moves)
    intro seen long
    exact absurd ⟨seen, long⟩ moves

/-- The velocity after a later observation is the mean when the displacement fits. -/
theorem velocity_mean_iff (same : s.last = previous)
    (later : previous.timestampUs < obs.timestampUs) (long : 100 < passedUs previous obs) :
    ((s.update obs roi).vx =
          (s.vx + perSecond (obs.cx.toInt - previous.cx.toInt) (passedUs previous obs)) / 2 ∧
        (s.update obs roi).vy =
          (s.vy + perSecond (obs.cy.toInt - previous.cy.toInt) (passedUs previous obs)) / 2) ↔
      if s.framesSeen = 0 then
        s.vx = perSecond (obs.cx.toInt - previous.cx.toInt) (passedUs previous obs) ∧
          s.vy = perSecond (obs.cy.toInt - previous.cy.toInt) (passedUs previous obs)
      else
        Fits (obs.cx.toInt - previous.cx.toInt) ∧ Fits (obs.cy.toInt - previous.cy.toInt) := by
  split
  next wrapped =>
    rcases @velocity_kept s roi previous obs same fun ⟨seen, _⟩ => seen wrapped with ⟨vx, vy⟩
    rw [vx, vy, eq_half_iff, eq_half_iff]
  next seen =>
    have elapsed := elapsed_later later
    have positive : 0 < passedUs previous obs := Nat.zero_lt_of_lt long
    rcases @velocity_moved s roi previous obs same seen (by rwa [elapsed]) with ⟨vx, vy⟩
    rw [vx, vy, elapsed, half_inj, half_inj, perSecond_inj positive, perSecond_inj positive,
      toInt_sub_iff, toInt_sub_iff]

/-- The velocity law for one state. -/
theorem velocity_iff (same : s.last = previous) :
    VelocityLaw s roi previous obs ↔ Undisturbed s previous obs := by
  constructor
  · intro law
    constructor
    · intro notLater
      exact (velocity_kept_iff same).mp (law.kept notLater)
    · intro later long
      exact (velocity_mean_iff same later long).mp (law.mean later ((long_iff _).mpr long))
  · intro undisturbed
    constructor
    · intro notLater
      exact (velocity_kept_iff same).mpr (undisturbed.kept notLater)
    · intro later long
      have enough := (long_iff _).mp long
      exact (velocity_mean_iff same later enough).mpr (undisturbed.mean later enough)

theorem last_after (s : TrackState ℝ) (calls : List TrackCall) :
    (s.after roi calls).last = (observations calls).getLastD s.last := by
  induction calls generalizing s with
  | nil => rfl
  | cons next calls ih =>
      change ((s.call roi next).after roi calls).last = _
      rw [ih]
      cases next with
      | update obs => exact List.getLastD_cons.symm
      | markMissed => rfl

/-- When the velocity law holds for a track that has been observed before. -/
theorem velocity_law_iff (trackId : UInt32) (className : Vector UInt8 16)
    (firstSeenUs : UInt64) (roi : Roi) (calls : List TrackCall) {previous : Observation}
    (last : (observations calls).getLast? = some previous) (obs : Observation) :
    let s : TrackState ℝ :=
      (TrackState.create trackId className firstSeenUs : TrackState ℝ).after roi calls
    VelocityLaw s roi previous obs ↔ Undisturbed s previous obs := by
  apply velocity_iff
  rw [last_after, List.getLastD_eq_getLast?, last]
  rfl

namespace Example

/-- A target that moves by a hundred pixels in a second. -/
def moving : List TrackCall := [.update (point 0 0 0), .update (point 1000000 100 0)]

/-- The state after these calls. -/
noncomputable def moved : TrackState ℝ :=
  (TrackState.create 7 (.replicate 16 0) 0 : TrackState ℝ).after .disabled moving

theorem vx_moved : moved.vx = 50 := by
  have first := (@velocity_kept (TrackState.create 7 (.replicate 16 0) 0) .disabled
    ⟨0, 0, 0, 0, 0, 0, 0⟩ (point 0 0 0) rfl fun ⟨seen, _⟩ => seen rfl).1
  have second := (@velocity_moved ((TrackState.create 7 (.replicate 16 0) 0).update
    (point 0 0 0) .disabled) .disabled (point 0 0 0) (point 1000000 100 0) rfl (by decide)
    (by decide)).1
  have displacement : ((point 1000000 100 0).cx - (point 0 0 0).cx).toInt = 100 := by decide
  have elapsed : elapsedUs (point 0 0 0) (point 1000000 100 0) = 1000000 := by decide
  have start : (TrackState.create 7 (.replicate 16 0) 0 : TrackState ℝ).vx = 0 := by
    change (0.0 : ℝ) = 0
    norm_num
  rw [first, start, displacement, elapsed, perSecond] at second
  rw [moved]
  change (((TrackState.create 7 (.replicate 16 0) 0 : TrackState ℝ).update
    (point 0 0 0) .disabled).update (point 1000000 100 0) .disabled).vx = 50
  rw [second]
  norm_num

end Example

/-- The clock steps back by half a second while the target stands still. -/
theorem velocity_stepped_back :
    ¬ VelocityLaw Example.moved .disabled (Example.point 1000000 100 0)
      (Example.point 500000 100 0) := by
  intro law
  have same : Example.moved.last = Example.point 1000000 100 0 := rfl
  have kept := ((velocity_iff same).mp law).kept (by decide) (by decide) (by decide)
  rw [Example.vx_moved] at kept
  have still : ((Example.point 500000 100 0).cx - (Example.point 1000000 100 0).cx).toInt = 0 := by
    decide
  have velocity := kept.1
  rw [still, perSecond] at velocity
  norm_num at velocity

/-- The clock goes on. -/
theorem velocity_law_iff_moving : VelocityLaw Example.moved .disabled
    (Example.point 1000000 100 0) (Example.point 2000000 150 0) := by
  have general := velocity_law_iff 7 (.replicate 16 0) 0 .disabled Example.moving
    (show (observations Example.moving).getLast? = some (Example.point 1000000 100 0) from rfl)
    (Example.point 2000000 150 0)
  apply general.mpr
  constructor
  · intro notLater
    exact absurd notLater (by decide)
  · intro _ _
    rw [if_neg (by decide)]
    decide

end Exact

end KhadasYolo.Temporal
