import Mathlib.Logic.Basic

/-!
# Labelled transition systems with guarded paths

A system is an initial state and a partial step function: the label carries the
scheduling decision and every value the environment supplies, so one labelled
step is deterministic and a finite schedule can be replayed by evaluation.

Properties of whole runs are stated over paths whose steps all satisfy a guard.
The unrestricted guard gives ordinary reachability; a proper guard isolates the
runs on which a conditional guarantee is claimed.
-/

namespace TransitionSystem

universe u v

/-- An initial state with a partial, label-deterministic step function. -/
structure System (State : Type u) (Label : Type v) where
  init : State
  step : State → Label → Option State

namespace System

variable {State : Type u} {Label : Type v} (system : System State Label)

/-- Finite paths all of whose steps satisfy `allowed` in the state they leave. -/
inductive Path (allowed : State → Label → Prop) : State → State → Prop where
  | refl (state : State) : Path allowed state state
  | snoc {first middle last : State} {label : Label} :
      Path allowed first middle → allowed middle label →
      system.step middle label = some last → Path allowed first last

/-- The guard that allows every step. -/
def unrestricted : State → Label → Prop := fun _ _ => True

/-- States that some run reaches with every step satisfying `allowed`. -/
def ReachableUnder (allowed : State → Label → Prop) (state : State) : Prop :=
  system.Path allowed system.init state

/-- States that some run reaches. -/
abbrev Reachable (state : State) : Prop :=
  system.ReachableUnder unrestricted state

variable {system}

namespace Path

variable {allowed : State → Label → Prop} {first middle last : State}

theorem single {label : Label} (permitted : allowed first label)
    (step : system.step first label = some last) :
    system.Path allowed first last :=
  .snoc (.refl first) permitted step

theorem trans (left : system.Path allowed first middle)
    (right : system.Path allowed middle last) :
    system.Path allowed first last := by
  induction right with
  | refl => exact left
  | snoc _ permitted step ih => exact .snoc ih permitted step

/-- Weakening the guard keeps every path. -/
theorem mono {weaker : State → Label → Prop}
    (weaken : ∀ state label, allowed state label → weaker state label)
    (path : system.Path allowed first last) :
    system.Path weaker first last := by
  induction path with
  | refl => exact .refl _
  | snoc _ permitted step ih => exact .snoc ih (weaken _ _ permitted) step

/-- A property of the first state that every allowed step preserves holds at
the end of the path. -/
theorem preserves (property : State → Prop)
    (preserved : ∀ before label after, property before → allowed before label →
      system.step before label = some after → property after)
    (path : system.Path allowed first last) (start : property first) :
    property last := by
  induction path with
  | refl => exact start
  | snoc _ permitted step ih => exact preserved _ _ _ ih permitted step

/-- A path of one component is a path of the whole system. -/
theorem map {State' : Type*} {Label' : Type*} {whole : System State' Label'}
    {allowed' : State' → Label' → Prop} (place : State → State') (rename : Label → Label')
    (steps : ∀ before label after, allowed before label →
      system.step before label = some after →
      whole.step (place before) (rename label) = some (place after))
    (allows : ∀ state label, allowed state label → allowed' (place state) (rename label))
    (path : system.Path allowed first last) :
    whole.Path allowed' (place first) (place last) := by
  induction path with
  | refl => exact .refl _
  | snoc _ permitted step ih => exact .snoc ih (allows _ _ permitted) (steps _ _ _ permitted step)

end Path

namespace ReachableUnder

variable {allowed : State → Label → Prop}

theorem init : system.ReachableUnder allowed system.init := .refl _

theorem step {before after : State} {label : Label}
    (reach : system.ReachableUnder allowed before)
    (permitted : allowed before label)
    (taken : system.step before label = some after) :
    system.ReachableUnder allowed after :=
  .snoc reach permitted taken

theorem path {first last : State} (reach : system.ReachableUnder allowed first)
    (path : system.Path allowed first last) :
    system.ReachableUnder allowed last :=
  reach.trans path

/-- Restricting the steps only removes runs. -/
theorem reachable {state : State}
    (reach : system.ReachableUnder allowed state) : system.Reachable state :=
  reach.mono fun _ _ _ => True.intro

/-- Induction over guarded runs. The step case may use that the state it leaves
is itself reachable, so invariants proved earlier are available to it. -/
theorem invariant (property : State → Prop) (start : property system.init)
    (preserved : ∀ before label after, system.ReachableUnder allowed before →
      property before → allowed before label →
      system.step before label = some after → property after)
    {state : State} (reach : system.ReachableUnder allowed state) :
    property state := by
  induction reach with
  | refl => exact start
  | snoc earlier permitted taken ih =>
      exact preserved _ _ _ earlier ih permitted taken

end ReachableUnder

/-! ## Replaying schedules -/

/-- Run a finite schedule, failing at the first label that is not enabled or
that the guard refuses. -/
def replay (system : System State Label) (allowed : State → Label → Prop)
    [∀ state label, Decidable (allowed state label)] :
    State → List Label → Option State
  | state, [] => some state
  | state, label :: rest =>
      if allowed state label then
        match system.step state label with
        | some next => system.replay allowed next rest
        | none => none
      else none

instance (state : State) (label : Label) :
    Decidable (unrestricted state label) :=
  inferInstanceAs (Decidable True)

/-- A replayed schedule is a path that respects the guard. -/
theorem replay_path {allowed : State → Label → Prop}
    [∀ state label, Decidable (allowed state label)]
    {first last : State} {schedule : List Label}
    (replayed : system.replay allowed first schedule = some last) :
    system.Path allowed first last := by
  induction schedule generalizing first with
  | nil =>
      cases replayed
      exact .refl _
  | cons label rest ih =>
      simp only [replay] at replayed
      split at replayed
      next permitted =>
        split at replayed
        next next step =>
          exact (Path.single permitted step).trans (ih replayed)
        next => contradiction
      next => contradiction

/-- A schedule whose last state passes a test leads to a state that passes it. -/
theorem exists_of_replay {allowed : State → Label → Prop}
    [∀ state label, Decidable (allowed state label)]
    {test : State → Bool} {first : State} {schedule : List Label}
    (passes : (system.replay allowed first schedule).any test = true) :
    ∃ last, system.Path allowed first last ∧ test last = true := by
  rcases (Option.any_eq_true _ _).mp passes with ⟨last, replayed, accepted⟩
  exact ⟨last, replay_path replayed, accepted⟩

/-- A schedule from the initial state, run by evaluation. -/
theorem reaches_of_replay (system : System State Label)
    (allowed : State → Label → Prop)
    [∀ state label, Decidable (allowed state label)]
    (schedule : List Label) (test : State → Bool)
    (passes : (system.replay allowed system.init schedule).any test = true) :
    ∃ last, system.ReachableUnder allowed last ∧ test last = true :=
  exists_of_replay passes

end System

end TransitionSystem
