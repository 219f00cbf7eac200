import KhadasYolo.Lib.TransitionSystem
import KhadasYolo.Summarizer.Machine

/-!
# Recorded runs of the summarizer

A run is watched by recording every tick: the state it started from, the UAV
records of its frame, the clock reading, the state its FSM switch reached and
what the tick asked of the environment. The machine never reads the record.
One inversion theorem lists everything a tick can do; the properties of runs
follow from it.
-/

namespace KhadasYolo.Summarizer

open Ipc TransitionSystem

universe u

/-- One tick of the receive loop. -/
structure Tick (F : Type u) where
  before : State
  uavs : List (WireTrackSummary F)
  nowMs : UInt64
  reached : State
  effects : List (Effect F)

/-- A machine with the ticks made so far, newest first. -/
structure Watched (F : Type u) where
  machine : Machine F
  history : List (Tick F)

section Presence

variable {F : Type u}

/-- The records of the frame that was received, if any. -/
def RecvResult.records : RecvResult F → List (WireTrackSummary F)
  | .frame records => records
  | .timeout => []
  | .disconnect => []

/-- The UAV records a tick received. -/
def Config.uavs (config : Config) (result : RecvResult F) :
    List (WireTrackSummary F) :=
  result.records.filter config.isDrone

/-- The presence flag the FSM switch sees: a frame decides it, a quiet tick
keeps it. -/
def Config.sees (config : Config) (m : Machine F) : RecvResult F → Bool
  | .frame records => records.any config.isDrone
  | .timeout => m.present
  | .disconnect => m.present

theorem uavs_eq_nil {config : Config} {m : Machine F} {result : RecvResult F}
    (unseen : config.sees m result = false) : config.uavs result = [] := by
  cases result with
  | frame records =>
      exact List.filter_eq_nil_iff.mpr
        fun s member => by simpa using List.any_eq_false.mp unseen s member
  | timeout | disconnect => rfl

theorem uavs_or_present {config : Config} {m : Machine F} {result : RecvResult F}
    (seen : config.sees m result = true) :
    config.uavs result ≠ [] ∨ m.present = true := by
  cases result with
  | frame records =>
      left
      rcases List.any_eq_true.mp seen with ⟨s, member, drone⟩
      exact List.ne_nil_of_mem (List.mem_filter.mpr ⟨member, drone⟩)
  | timeout | disconnect => exact .inr seen

end Presence

variable {F : Type u} [FloatOps F]

/-- The tick an input makes, if it makes one. -/
def observe (config : Config) (m : Machine F) : Input F → Option (Tick F)
  | .connect _ => none
  | .receive result t written =>
      (tick config m t result).map fun reached =>
        { before := m.state
          uavs := config.uavs result
          nowMs := t
          reached := reached.state
          effects := (finish config written reached).2 }

/-- Watched runs from the start of the program. -/
def system (config : Config) : System (Watched F) (Input F) where
  init := { machine := .start, history := [] }
  step watched input :=
    (step config watched.machine input).map fun next =>
      { machine := next.1
        history := (observe config watched.machine input).toList ++ watched.history }

/-! ## One tick -/

/-- Scanning a frame decides presence and, in an episode, folds in its UAV
records. -/
theorem scanFrame_eq (config : Config) (m : Machine F)
    (records : List (WireTrackSummary F)) :
    scanFrame config m records =
      { m with
        agg := if m.state.active then
            (records.filter config.isDrone).foldl updateAggregate m.agg
          else m.agg
        present := records.any config.isDrone } := by
  have scanned : ∀ start : Machine F, records.foldl (scanRecord config) start =
      { start with
        agg := if start.state.active then
            (records.filter config.isDrone).foldl updateAggregate start.agg
          else start.agg
        present := records.any config.isDrone || start.present } := by
    induction records with
    | nil => intro start; simp
    | cons s records ih =>
        intro start
        rw [List.foldl_cons, ih]
        cases drone : config.isDrone s with
        | false => simp [scanRecord, drone]
        | true =>
            cases active : start.state.active with
            | false => simp [scanRecord, drone, active]
            | true => simp [scanRecord, drone, active]
  rw [scanFrame, scanned, Bool.or_false]

/-- The aggregates after the record loop of a tick. -/
def gathered (config : Config) (m : Machine F) (result : RecvResult F) : Aggregate F :=
  if m.state.active then (config.uavs result).foldl updateAggregate m.agg else m.agg

/-- A tick is a switch taken on the gathered aggregates and the presence seen. -/
theorem tick_eq (config : Config) (m : Machine F) (t : UInt64)
    (result : RecvResult F) :
    tick config m t result =
      if result matches .disconnect then none
      else some (advance config t
        { m with
          agg := gathered config m result
          present := config.sees m result }) := by
  cases result with
  | frame records =>
      simp only [tick, scanFrame_eq, gathered, Config.uavs, RecvResult.records,
        Config.sees]
      rfl
  | timeout => simp [tick, gathered, Config.uavs, RecvResult.records, Config.sees]
  | disconnect => rfl

/-- Everything one turn of the loops can do, with the tick it records. The
switch is at rest between ticks, so the LLM window is not among the states a
turn starts from. -/
inductive TurnEffect (config : Config) (m : Machine F) :
    Option (Tick F) → Machine F → Prop where
  | links (connected : Bool) :
      TurnEffect config m none { m with connected := connected }
  | idles (t : UInt64) (state : m.state = .noDrone) :
      TurnEffect config m (some ⟨.noDrone, [], t, .noDrone, []⟩)
        { m with present := false }
  | opens (t : UInt64) (uavs : List (WireTrackSummary F))
      (state : m.state = .noDrone) (seen : uavs ≠ [] ∨ m.present = true) :
      TurnEffect config m (some ⟨.noDrone, uavs, t, .dronePresent, []⟩)
        { m with agg := ∅, present := true, state := .dronePresent }
  | stays (t : UInt64) (uavs : List (WireTrackSummary F))
      (state : m.state = .dronePresent) (seen : uavs ≠ [] ∨ m.present = true) :
      TurnEffect config m (some ⟨.dronePresent, uavs, t, .dronePresent, []⟩)
        { m with agg := uavs.foldl updateAggregate m.agg, present := true }
  | departs (t : UInt64) (state : m.state = .dronePresent) :
      TurnEffect config m (some ⟨.dronePresent, [], t, .cooldown, []⟩)
        { m with present := false, departedMs := t, state := .cooldown }
  | returns (t : UInt64) (uavs : List (WireTrackSummary F))
      (state : m.state = .cooldown) (seen : uavs ≠ [] ∨ m.present = true) :
      TurnEffect config m (some ⟨.cooldown, uavs, t, .dronePresent, []⟩)
        { m with
          agg := uavs.foldl updateAggregate m.agg
          present := true
          state := .dronePresent }
  | waits (t : UInt64) (state : m.state = .cooldown)
      (early : t - m.departedMs < config.cooldownMs) :
      TurnEffect config m (some ⟨.cooldown, [], t, .cooldown, []⟩)
        { m with present := false }
  | expires (t : UInt64) (written : Bool) (state : m.state = .cooldown)
      (due : config.cooldownMs ≤ t - m.departedMs) :
      TurnEffect config m
        (some ⟨.cooldown, [], t, .llmWindow, llmCycle config written m.agg⟩)
        { m with agg := ∅, present := false, state := .noDrone }

/-- A tick taken from a state at rest is one of the listed moves. -/
theorem tick_effect {config : Config} {m reached : Machine F} {t : UInt64}
    {result : RecvResult F} (written : Bool) (settled : m.state ≠ .llmWindow)
    (ticked : tick config m t result = some reached) :
    TurnEffect config m
      (some ⟨m.state, config.uavs result, t, reached.state,
        (finish config written reached).2⟩)
      (finish config written reached).1 := by
  rw [tick_eq] at ticked
  split at ticked
  next => contradiction
  next =>
    cases ticked
    cases seen : config.sees m result with
    | false =>
        have unseen := uavs_eq_nil seen
        cases state : m.state with
        | noDrone =>
            simpa [advance, finish, gathered, State.active, state, unseen]
              using TurnEffect.idles t state
        | dronePresent =>
            simpa [advance, finish, gathered, State.active, state, unseen]
              using TurnEffect.departs t state
        | cooldown =>
            by_cases due : config.cooldownMs ≤ t - m.departedMs
            · simpa [advance, finish, gathered, State.active, state, unseen, due]
                using TurnEffect.expires t written state due
            · simpa [advance, finish, gathered, State.active, state, unseen, due]
                using TurnEffect.waits t state (UInt64.not_le.mp due)
        | llmWindow => exact absurd state settled
    | true =>
        have heard := uavs_or_present seen
        cases state : m.state with
        | noDrone =>
            simpa [advance, finish, gathered, State.active, state]
              using TurnEffect.opens t (config.uavs result) state heard
        | dronePresent =>
            simpa [advance, finish, gathered, State.active, state]
              using TurnEffect.stays t (config.uavs result) state heard
        | cooldown =>
            simpa [advance, finish, gathered, State.active, state]
              using TurnEffect.returns t (config.uavs result) state heard
        | llmWindow => exact absurd state settled

/-- A turn of the loops is one of the listed moves. -/
theorem step_effect {config : Config} {m : Machine F} {input : Input F}
    {next : Machine F × List (Effect F)} (settled : m.state ≠ .llmWindow)
    (taken : step config m input = some next) :
    TurnEffect config m (observe config m input) next.1 := by
  cases input with
  | connect accepted =>
      simp only [step] at taken
      split at taken
      next => contradiction
      next =>
        cases taken
        exact .links accepted
  | receive result t written =>
      simp only [step] at taken
      split at taken
      next =>
        cases ticked : tick config m t result with
        | some reached =>
            rw [ticked] at taken
            cases taken
            simp only [observe, ticked, Option.map_some]
            exact tick_effect written settled ticked
        | none =>
            rw [ticked] at taken
            cases taken
            simp only [observe, ticked, Option.map_none]
            exact .links false
      next => contradiction

/-! ## Runs -/

/-- Between turns the machine is outside the LLM window, and it believes the
drone to be there exactly in `DRONE_PRESENT`. -/
structure Machine.Settled (m : Machine F) : Prop where
  outside : m.state ≠ .llmWindow
  present : m.present = true ↔ m.state = .dronePresent

omit [FloatOps F] in
theorem Machine.settled_start : (Machine.start : Machine F).Settled where
  outside := nofun
  present := by simp [Machine.start]

/-- A turn leaves the machine settled. -/
theorem TurnEffect.settled {config : Config} {m next : Machine F}
    {tick : Option (Tick F)} (turn : TurnEffect config m tick next)
    (before : m.Settled) : next.Settled := by
  cases turn with
  | links => exact ⟨before.outside, before.present⟩
  | idles _ state | waits _ state | stays _ _ state =>
      exact ⟨before.outside, by simp [state]⟩
  | opens | departs | returns | expires =>
      exact ⟨nofun, by simp⟩

/-- A step of a watched run is a turn of its machine, recorded. -/
theorem system_step {config : Config} {watched next : Watched F} {input : Input F}
    (settled : watched.machine.Settled)
    (taken : (system config).step watched input = some next) :
    ∃ tick, TurnEffect config watched.machine tick next.machine ∧
      next.history = tick.toList ++ watched.history := by
  rcases Option.map_eq_some_iff.mp taken with ⟨after, stepped, same⟩
  subst same
  exact ⟨_, step_effect settled.outside stepped, rfl⟩

theorem reachable_settled {config : Config} {watched : Watched F}
    (reach : (system config).Reachable watched) : watched.machine.Settled := by
  refine System.ReachableUnder.invariant (fun watched => watched.machine.Settled)
    Machine.settled_start ?_ reach
  intro before input after _ settled _ taken
  rcases system_step settled taken with ⟨tick, turn, _⟩
  exact turn.settled settled

/-- Every tick on record was made by a turn from a reachable state that had
recorded exactly the ticks before it. -/
theorem recorded_turn {config : Config} {watched : Watched F} {tick : Tick F}
    {earlier : List (Tick F)} (reach : (system config).Reachable watched)
    (made : (tick :: earlier) <:+ watched.history) :
    ∃ before after : Machine F,
      (system config).Reachable ⟨before, earlier⟩ ∧
        TurnEffect config before (some tick) after := by
  refine System.ReachableUnder.invariant
    (fun watched => ∀ tick earlier, (tick :: earlier) <:+ watched.history →
      ∃ before after : Machine F, (system config).Reachable ⟨before, earlier⟩ ∧
        TurnEffect config before (some tick) after)
    (fun _ _ suffix => by simp [system] at suffix) ?_ reach tick earlier made
  intro watched input next reached ih _ taken newest earlier suffix
  rcases system_step (reachable_settled reached) taken with ⟨tick, turn, recorded⟩
  rw [recorded] at suffix
  cases tick with
  | none => exact ih newest earlier suffix
  | some tick =>
      rcases List.suffix_cons_iff.mp suffix with same | older
      · cases same
        exact ⟨_, _, reached, turn⟩
      · exact ih newest earlier older

end KhadasYolo.Summarizer
