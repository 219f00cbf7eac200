import KhadasYolo.Summarizer.Episodes

/-!
# The cooldown before an LLM cycle

The cooldown starts with a departure and ends with the return of the drone or
with the LLM window. One presence episode leads to one LLM cycle at most, and
only after a cooldown in which no UAV record was received.

The elapsed time is the unsigned difference of two readings of the wall clock.
A reading below the departure's wraps it to nearly 2^64, so that a clock stepped
back during a cooldown opens the window at once.
-/

namespace KhadasYolo.Summarizer

open Ipc TransitionSystem

universe u

variable {F : Type u}

/-- The tick that starts a cooldown. -/
def Tick.departs (tick : Tick F) : Bool :=
  tick.before == .dronePresent && tick.reached == .cooldown

/-- The clock reading at the latest departure. -/
def departure : List (Tick F) → UInt64
  | [] => 0
  | tick :: earlier => if tick.departs then tick.nowMs else departure earlier

/-- The ticks since the latest LLM window. -/
def sinceWindow (history : List (Tick F)) : List (Tick F) :=
  history.takeWhile (·.reached != .llmWindow)

/-- A cooldown is running: nothing but quiet ticks that found it too early, back
to its departure. -/
def Cooling (config : Config) (history : List (Tick F)) : Prop :=
  ∃ quiet departed before, history = quiet ++ departed :: before ∧
    departed.departs = true ∧ departed.uavs = [] ∧
    ∀ tick ∈ quiet, tick.before = .cooldown ∧ tick.reached = .cooldown ∧
      tick.uavs = [] ∧ tick.nowMs - departed.nowMs < config.cooldownMs

/-- A tick that runs an LLM cycle or blacks a camera out. -/
def Tick.Triggers (tick : Tick F) : Prop :=
  tick.reached = .llmWindow ∨
    ∃ device, .sendControl device blackoutCommand ∈ tick.effects

/-- A quiet tick of a cooldown whose clock has gone back behind the departure, so
far that the wrapped difference passes for a full cooldown. -/
def Config.Wraps (config : Config) (tick : Tick F) (earlier : List (Tick F)) : Prop :=
  tick.before = .cooldown ∧ tick.uavs = [] ∧ tick.nowMs < departure earlier ∧
    (departure earlier).toNat + config.cooldownMs.toNat ≤ tick.nowMs.toNat + 2 ^ 64

theorem Cooling.departure_eq {config : Config} {history : List (Tick F)}
    (cooling : Cooling config history) :
    ∃ (quiet : List (Tick F)) (departed : Tick F) (before : List (Tick F)),
      history = quiet ++ departed :: before ∧
      departed.departs = true ∧ departed.uavs = [] ∧
      departed.nowMs = departure history ∧
      ∀ tick ∈ quiet, tick.before = .cooldown ∧ tick.reached = .cooldown ∧
        tick.uavs = [] ∧ tick.nowMs - departed.nowMs < config.cooldownMs := by
  rcases cooling with ⟨quiet, departed, before, rfl, departs, gone, silent⟩
  refine ⟨quiet, departed, before, rfl, departs, gone, ?_, silent⟩
  induction quiet with
  | nil => simp [departure, departs]
  | cons tick quiet ih =>
      have waiting := (silent tick List.mem_cons_self).1
      have rest := ih fun other member => silent other (List.mem_cons_of_mem _ member)
      simpa [departure, Tick.departs, waiting] using rest

/-- What a run keeps of an episode: UAV records have been received since the
latest LLM window, and a cooldown has been quiet since its departure. -/
structure Paced (config : Config) (m : Machine F) (history : List (Tick F)) : Prop where
  seen : m.state ≠ .noDrone → ∃ tick ∈ sinceWindow history, tick.uavs ≠ []
  cooling : m.state = .cooldown → Cooling config history

variable [FloatOps F]

namespace TurnEffect

variable {config : Config} {m next : Machine F} {history : List (Tick F)}

/-- The machine holds the reading of the latest departure. -/
theorem departure_eq {tick : Option (Tick F)} (turn : TurnEffect config m tick next)
    (before : m.departedMs = departure history) :
    next.departedMs = departure (tick.toList ++ history) := by
  cases turn with
  | links => exact before
  | departs => rfl
  | idles | opens | stays | returns | waits | expires => exact before

/-- Only an LLM window asks anything of the environment. -/
theorem triggers_iff {tick : Tick F} (turn : TurnEffect config m (some tick) next) :
    tick.Triggers ↔ tick.reached = .llmWindow := by
  constructor
  · rintro (window | ⟨device, sent⟩)
    · exact window
    · cases turn with
      | expires => rfl
      | idles | opens | stays | departs | returns | waits => contradiction
  · exact .inl

/-- A turn runs an LLM cycle before the cooldown is over exactly when it wraps. -/
theorem early_iff {tick : Tick F} (turn : TurnEffect config m (some tick) next)
    (settled : m.Settled) (held : m.departedMs = departure history) :
    (tick.Triggers →
        (departure history).toNat + config.cooldownMs.toNat ≤ tick.nowMs.toNat) ↔
      ¬ config.Wraps tick history := by
  rw [turn.triggers_iff]
  cases turn with
  | idles | opens | stays | departs => simp [Config.Wraps]
  | returns t uavs state seen =>
      have absent : m.present ≠ true := by simp [settled.present, state]
      have heard : uavs ≠ [] := seen.resolve_right absent
      simp [Config.Wraps, heard]
  | waits t state early =>
      rw [held, UInt64.lt_iff_toNat_lt, UInt64.toNat_sub] at early
      simp only [Config.Wraps, UInt64.lt_iff_toNat_lt, reduceCtorEq, false_imp_iff,
        true_and, true_iff, not_and, not_le]
      have bound := (departure history).toNat_lt
      omega
  | expires t written state due =>
      rw [held, UInt64.le_iff_toNat_le, UInt64.toNat_sub] at due
      simp only [Config.Wraps, UInt64.lt_iff_toNat_lt, true_imp_iff, true_and,
        not_and, not_le]
      have bound := (departure history).toNat_lt
      have reading := t.toNat_lt
      omega

/-- A turn keeps the record of the episode. -/
theorem paced {tick : Option (Tick F)} (turn : TurnEffect config m tick next)
    (settled : m.Settled) (held : m.departedMs = departure history)
    (before : Paced config m history) : Paced config next (tick.toList ++ history) := by
  have kept : ∀ tick : Tick F, tick.reached ≠ .llmWindow →
      m.state ≠ .noDrone → ∃ seen ∈ sinceWindow (tick :: history), seen.uavs ≠ [] := by
    intro tick quiet active
    rcases before.seen active with ⟨seen, member, heard⟩
    refine ⟨seen, ?_, heard⟩
    simp [sinceWindow, quiet] at member ⊢
    exact .inr member
  cases turn with
  | links => exact ⟨before.seen, before.cooling⟩
  | idles _ state => exact ⟨absurd state, by simp [state]⟩
  | opens t uavs state seen =>
      have absent : m.present ≠ true := by simp [settled.present, state]
      have heard : uavs ≠ [] := seen.resolve_right absent
      exact ⟨fun _ => ⟨_, List.mem_cons_self, heard⟩, nofun⟩
  | stays _ _ state | returns _ _ state =>
      exact ⟨fun _ => kept _ nofun (by simp [state]), by simp [state]⟩
  | departs t state =>
      exact ⟨fun _ => kept _ nofun (by simp [state]),
        fun _ => ⟨[], _, history, rfl, rfl, rfl, nofun⟩⟩
  | waits t state early =>
      refine ⟨fun _ => kept _ nofun (by simp [state]), fun _ => ?_⟩
      rcases (before.cooling state).departure_eq with
        ⟨quiet, departed, older, same, departs, gone, reading, silent⟩
      refine ⟨_ :: quiet, departed, older, by rw [same]; rfl, departs, gone, ?_⟩
      intro other member
      rcases List.mem_cons.mp member with rfl | member
      · exact ⟨rfl, rfl, rfl, by rw [reading, ← held]; exact early⟩
      · exact silent other member
  | expires => exact ⟨nofun, nofun⟩

end TurnEffect

theorem reachable_departure {config : Config} {watched : Watched F}
    (reach : (system config).Reachable watched) :
    watched.machine.departedMs = departure watched.history := by
  refine System.ReachableUnder.invariant
    (fun watched => watched.machine.departedMs = departure watched.history) rfl ?_ reach
  intro before input after reached held _ taken
  rcases system_step (reachable_settled reached) taken with ⟨tick, turn, recorded⟩
  rw [recorded]
  exact turn.departure_eq held

theorem reachable_paced {config : Config} {watched : Watched F}
    (reach : (system config).Reachable watched) :
    Paced config watched.machine watched.history := by
  refine System.ReachableUnder.invariant
    (fun watched => Paced config watched.machine watched.history)
    ⟨fun active => absurd rfl active, fun cooling => by contradiction⟩ ?_ reach
  intro before input after reached paced _ taken
  rcases system_step (reachable_settled reached) taken with ⟨tick, turn, recorded⟩
  rw [recorded]
  exact turn.paced (reachable_settled reached) (reachable_departure reached) paced

/-! ## Early LLM cycles -/

namespace Schedule

/-- A drone is seen once and gone in the next frame, at the first reading; the
quiet tick after it reads the clock at the second one. -/
def steppedClock (departed later : UInt64) : List (Input Float32) :=
  [.connect true,
    .receive (.frame [sighting 0 0]) departed true,
    .receive (.frame [sighting 2 0]) departed true,
    .receive .timeout later true]

/-- The newest tick reached the LLM window although its reading is below that of
the departure. -/
def windowBehind (watched : Watched Float32) : Bool :=
  match watched.history with
  | [] => false
  | tick :: earlier => tick.reached == .llmWindow && tick.nowMs < departure earlier

theorem steppedClock_windowBehind :
    ∃ watched, (system (Config.ofDevice "33")).Reachable watched ∧
      windowBehind watched = true :=
  System.reaches_of_replay _ System.unrestricted (steppedClock 1000 999) _ (by decide)

end Schedule

/-- No LLM cycle of a run starts before the cooldown is over exactly when no tick
of the run wraps. -/
theorem no_early_cycle_iff (config : Config) {watched : Watched F}
    (reach : (system config).Reachable watched) :
    (∀ tick earlier, (tick :: earlier) <:+ watched.history → tick.Triggers →
        (departure earlier).toNat + config.cooldownMs.toNat ≤ tick.nowMs.toNat) ↔
      ∀ tick earlier, (tick :: earlier) <:+ watched.history →
        ¬ config.Wraps tick earlier := by
  refine forall_congr' fun tick => forall_congr' fun earlier => forall_congr' fun made => ?_
  rcases recorded_turn reach made with ⟨m, next, reached, turn⟩
  exact turn.early_iff (reachable_settled reached) (reachable_departure reached)

namespace Schedule

/-- The newest tick reached the LLM window, and no tick read a clock behind the latest
departure. -/
def windowForward (watched : Watched Float32) : Bool :=
  watched.history.head?.map Tick.reached == some .llmWindow &&
    watched.history.tails.all fun
      | [] => true
      | tick :: earlier => departure earlier ≤ tick.nowMs

theorem visit_windowForward :
    ∃ watched, (system (Config.ofDevice "33")).Reachable watched ∧
      windowForward watched = true :=
  System.reaches_of_replay _ System.unrestricted visit _ (by decide)

end Schedule

/-- A drone leaves for thirty seconds by a clock that only goes forward: there is an LLM
cycle, and it is not early. -/
theorem no_early_cycle_iff_visit :
    ∃ watched : Watched Float32,
      (∃ tick earlier, watched.history = tick :: earlier ∧ tick.Triggers) ∧
        ∀ tick earlier, (tick :: earlier) <:+ watched.history → tick.Triggers →
          (departure earlier).toNat + (Config.ofDevice "33").cooldownMs.toNat ≤
            tick.nowMs.toNat := by
  rcases Schedule.visit_windowForward with ⟨watched, reach, forward⟩
  simp only [Schedule.windowForward, Bool.and_eq_true, beq_iff_eq, List.all_eq_true,
    List.mem_tails] at forward
  refine ⟨watched, ?_, (no_early_cycle_iff _ reach).mpr fun tick earlier made wraps => ?_⟩
  · rcases Option.map_eq_some_iff.mp forward.1 with ⟨tick, newest, window⟩
    rcases List.head?_eq_some_iff.mp newest with ⟨earlier, made⟩
    exact ⟨tick, earlier, made, .inl window⟩
  · have ahead := forward.2 _ made
    exact absurd wraps.2.2.1 (UInt64.not_lt.mpr (of_decide_eq_true ahead))

/-- The clock is stepped back by a millisecond right after a departure: the LLM
cycle runs thirty seconds early. -/
theorem early_cycle_behind_departure :
    ∃ (watched : Watched Float32) (tick : Tick Float32) (earlier : List (Tick Float32)),
      (system (Config.ofDevice "33")).Reachable watched ∧
      (tick :: earlier) <:+ watched.history ∧ tick.Triggers ∧
      ¬ (departure earlier).toNat + (Config.ofDevice "33").cooldownMs.toNat ≤
          tick.nowMs.toNat := by
  rcases Schedule.steppedClock_windowBehind with ⟨watched, reach, behind⟩
  cases made : watched.history with
  | nil => simp [Schedule.windowBehind, made] at behind
  | cons tick earlier =>
      simp only [Schedule.windowBehind, made, Bool.and_eq_true, beq_iff_eq,
        decide_eq_true_eq, UInt64.lt_iff_toNat_lt] at behind
      refine ⟨watched, tick, earlier, reach, made ▸ List.suffix_refl _, .inl behind.1, ?_⟩
      omega

/-! ## One cycle per episode -/

namespace Schedule

/-- A drone leaves, comes back during the cooldown and leaves for good. -/
def returning : List (Input Float32) :=
  [.connect true,
    .receive (.frame [sighting 0 0]) 0 true,
    .receive (.frame [sighting 2 0]) 100 true,
    .receive (.frame [sighting 1 0]) 200 true,
    .receive (.frame [sighting 2 0]) 300 true,
    .receive .timeout 30250 true,
    .receive .timeout 30300 true]

/-- The newest tick reached the LLM window, timed from the given reading. -/
def windowFrom (reading : UInt64) (watched : Watched Float32) : Bool :=
  match watched.history with
  | [] => false
  | tick :: earlier => tick.reached == .llmWindow && departure earlier == reading

theorem returning_windowFrom :
    ∃ watched, (system (Config.ofDevice "33")).Reachable watched ∧
      windowFrom 300 watched = true :=
  System.reaches_of_replay _ System.unrestricted returning _ (by decide)

end Schedule

/-- In a cooldown a UAV record brings the machine back to `DRONE_PRESENT`, and a
tick without one reaches the LLM window exactly when the time since the latest
departure says so. An LLM cycle is only run from a cooldown: UAV records have been
received since the previous cycle, and none since the departure. -/
theorem one_cycle_per_episode (config : Config) {watched : Watched F}
    (reach : (system config).Reachable watched) {tick : Tick F}
    {earlier : List (Tick F)} (made : (tick :: earlier) <:+ watched.history) :
    (tick.before = .cooldown →
        (tick.uavs ≠ [] → tick.reached = .dronePresent) ∧
        (tick.uavs = [] → (tick.reached = .llmWindow ↔
          config.cooldownMs ≤ tick.nowMs - departure earlier))) ∧
      (tick.reached = .llmWindow →
        tick.before = .cooldown ∧ tick.uavs = [] ∧
        (∃ seen ∈ sinceWindow earlier, seen.uavs ≠ []) ∧
        ∃ quiet departed before, earlier = quiet ++ departed :: before ∧
          departed.departs = true ∧ departed.uavs = [] ∧
          departed.nowMs = departure earlier ∧
          ∀ other ∈ quiet, other.before = .cooldown ∧ other.reached = .cooldown ∧
            other.uavs = [] ∧ other.nowMs - departed.nowMs < config.cooldownMs) := by
  rcases recorded_turn reach made with ⟨m, next, reached, turn⟩
  have settled : m.Settled := reachable_settled reached
  have held : m.departedMs = departure earlier := reachable_departure reached
  have paced : Paced config m earlier := reachable_paced reached
  cases turn with
  | idles | opens | stays | departs => exact ⟨nofun, nofun⟩
  | returns t uavs state seen =>
      have absent : m.present ≠ true := by simp [settled.present, state]
      exact ⟨fun _ => ⟨fun _ => rfl, fun silent => absurd silent (seen.resolve_right absent)⟩,
        nofun⟩
  | waits t state early =>
      refine ⟨fun _ => ⟨fun heard => absurd rfl heard, fun _ => ?_⟩, nofun⟩
      simpa [held] using early
  | expires t written state due =>
      refine ⟨fun _ => ⟨fun heard => absurd rfl heard, fun _ => ?_⟩, fun _ => ?_⟩
      · simpa [held] using due
      · exact ⟨rfl, rfl, paced.seen (by simp [state]), (paced.cooling state).departure_eq⟩

/-- A drone that comes back once during the cooldown: the LLM cycle is timed from
its second departure. -/
theorem one_cycle_per_episode_returning :
    ∃ (watched : Watched Float32) (tick : Tick Float32) (earlier : List (Tick Float32)),
      (system (Config.ofDevice "33")).Reachable watched ∧
      (tick :: earlier) <:+ watched.history ∧ tick.reached = .llmWindow ∧
      departure earlier = 300 ∧ tick.uavs = [] ∧
      (∃ seen ∈ sinceWindow earlier, seen.uavs ≠ []) := by
  rcases Schedule.returning_windowFrom with ⟨watched, reach, window⟩
  cases made : watched.history with
  | nil => simp [Schedule.windowFrom, made] at window
  | cons tick earlier =>
      simp only [Schedule.windowFrom, made, Bool.and_eq_true, beq_iff_eq] at window
      have newest : (tick :: earlier) <:+ watched.history := made ▸ List.suffix_refl _
      rcases (one_cycle_per_episode _ reach newest).2 window.1 with ⟨_, silent, seen, _⟩
      exact ⟨watched, tick, earlier, reach, newest, window.1, window.2, silent, seen⟩

end KhadasYolo.Summarizer
