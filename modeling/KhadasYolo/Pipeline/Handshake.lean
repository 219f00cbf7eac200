import KhadasYolo.Pipeline.Effects

/-!
# The blackout handshake

What the lifecycle flags mean at each point of the main thread.  The invariant
`Handshake` ties the owner of `lifecycle_mutex`, the request flags and the
handshake flags to the main thread's program counter; it holds in every
reachable state, whatever the commands, their timing and the library's return
codes.  The results about single commands build on it.
-/

namespace KhadasYolo.Pipeline

open TransitionSystem

/-- What the lifecycle flags say at each point of the main thread. -/
structure Handshake (s : State) : Prop where
  mainHolds : s.flags.lifecycleMutex = some .main ↔ s.pc.critical = true
  controlHolds :
    s.flags.lifecycleMutex = some .control ↔ s.control.holdsMutex = true
  requested : s.pc.serving = true → s.flags.blackoutRequested = true
  resumeSeen : s.pc.resuming = true → s.flags.resumeRequested = true
  leaving : s.pc = .idle .leave →
    s.flags.resumeRequested = true ∨ s.flags.shutdownRequested = true
  active : s.pc.stopping = false → s.flags.blackoutActive = s.pc.announced
  doneCleared : s.pc.awaitingDone = true → s.flags.resumeDone = false
  darkStop : s.pc.stopping = true → s.flags.blackoutActive = true →
    s.flags.resumeDone = false
  controlStopped : s.pc.controlStopped = true → s.control.stopped = true

namespace Handshake

theorem initial : Handshake system.init := by
  constructor <;> simp [system]

/-- While `resume_done` is set, `blackout_active` is clear. -/
theorem active_of_done {s : State} (inv : Handshake s)
    (done : s.flags.resumeDone = true) : s.flags.blackoutActive = false := by
  cases stop : s.pc.stopping with
  | true =>
      cases active : s.flags.blackoutActive with
      | false => rfl
      | true =>
          have cleared := inv.darkStop stop active
          simp [done] at cleared
  | false =>
      rw [inv.active stop]
      cases announced : s.pc.announced with
      | false => rfl
      | true =>
          have cleared :=
            inv.doneCleared (MainPc.awaitingDone_of_announced announced)
          simp [done] at cleared

/-- A step that touches neither the flags nor the two program counters. -/
theorem frame {s after : State} (inv : Handshake s)
    (flags : after.flags = s.flags) (control : after.control = s.control)
    (pc : after.pc = s.pc) : Handshake after := by
  obtain ⟨mainHolds, controlHolds, requested, resumeSeen, leaving, active,
    doneCleared, darkStop, controlStopped⟩ := inv
  constructor <;> simp only [flags, control, pc] <;> assumption

end Handshake

/-! ## Preservation -/

section Main

variable {s after : State} {input : MainInput}

/-- The main thread never moves a running control thread. -/
theorem Handshake.control_main (inv : Handshake s) (effect : MainEffect s after)
    (alive : s.control.stopped = false) : after.control = s.control := by
  rcases effect.control with same | ⟨spawning, _⟩
  · exact same
  · have asleep := inv.controlStopped (by simp [spawning])
    rw [alive] at asleep
    cases asleep

/-- The control thread's hold on the mutex survives a main-thread step. -/
theorem Handshake.controlHolds_main (inv : Handshake s)
    (effect : MainEffect s after) :
    after.flags.lifecycleMutex = some .control ↔
      after.control.holdsMutex = true := by
  have holds : after.control.holdsMutex = s.control.holdsMutex := by
    rcases effect.control with same | ⟨spawning, listening⟩
    · rw [same]
    · have idle := inv.controlStopped (by simp [spawning])
      rw [ControlPc.holdsMutex_of_stopped idle, listening]
      rfl
  rw [holds, effect.mutex, ← inv.controlHolds]
  split
  next locking => simp [effect.mutexFree locking]
  next =>
    split
    next unlocking =>
      have owner := inv.mainHolds.mpr (MainPc.critical_of_unlocking unlocking)
      simp [owner]
    next => rfl

/-- The main thread's critical sections are exactly where it owns the mutex. -/
theorem Handshake.mainHolds_main (inv : Handshake s)
    (effect : MainEffect s after) :
    after.flags.lifecycleMutex = some .main ↔ after.pc.critical = true := by
  rw [effect.mutex, effect.critical]
  cases locking : s.pc.locking with
  | true => simp
  | false =>
      cases unlocking : s.pc.unlocking with
      | true => simp
      | false => simpa using inv.mainHolds

/-- `blackout_active` follows the main thread's program counter. -/
theorem Handshake.active_main (inv : Handshake s) (effect : MainEffect s after)
    (running : after.pc.stopping = false) :
    after.flags.blackoutActive = after.pc.announced := by
  have before : s.pc.stopping = false := by
    cases stop : s.pc.stopping with
    | false => rfl
    | true =>
        rw [effect.stopping stop] at running
        cases running
  rw [effect.blackoutActive, effect.announced running, inv.active before]
  split
  · rfl
  · split
    next clearing =>
      rcases clearing with clearing | clearing <;> simp [clearing]
    next other =>
      rw [if_neg fun clearing => other (Or.inr clearing)]

/-- A main loop that ends in blackout leaves `resume_done` clear. -/
theorem Handshake.darkStop_main (inv : Handshake s)
    (effect : MainEffect s after) (stop : after.pc.stopping = true)
    (active : after.flags.blackoutActive = true) :
    after.flags.resumeDone = false := by
  rw [effect.blackoutActive] at active
  rw [effect.resumeDone]
  rcases effect.halting stop with before | looping | leaving | failed
  · rw [if_neg, if_neg] at active
    · rw [if_neg, if_neg]
      · exact inv.darkStop before active
      all_goals intro here; simp [here] at before
    · rintro (here | here) <;> simp [here] at before
    · intro here
      simp [here] at before
  · have quiet := inv.active (by simp [looping])
    simp [looping, quiet] at active
  · simpa [leaving] using inv.doneCleared (by simp [leaving])
  · simpa [failed] using inv.doneCleared (by simp [failed])

/-- The main thread keeps the invariant. -/
theorem mainStep_handshake (inv : Handshake s)
    (taken : mainStep s input = some after) : Handshake after := by
  have effect := mainStep_effect taken
  constructor
  case mainHolds => exact inv.mainHolds_main effect
  case controlHolds => exact inv.controlHolds_main effect
  case requested =>
    intro serving
    rw [effect.blackoutRequested]
    rcases effect.serving serving with ⟨before, notCleared⟩ | ⟨located, wanted⟩
    · rw [if_neg notCleared]
      exact inv.requested before
    · simpa [located] using wanted
  case resumeSeen =>
    intro resuming
    rw [effect.resumeRequested]
    rcases effect.resuming resuming with ⟨before, notCleared⟩ | ⟨located, running⟩
    · rw [if_neg notCleared]
      exact inv.resumeSeen before
    · have seen := inv.leaving located
      simpa [located, running] using seen
  case leaving =>
    intro leaving
    rcases effect.leaving leaving with ⟨notClearing, cause⟩
    rw [effect.resumeRequested, if_neg notClearing]
    exact cause.imp id effect.shutdownRequested
  case active => exact inv.active_main effect
  case doneCleared =>
    intro awaiting
    rw [effect.resumeDone]
    rcases effect.awaitingDone awaiting with ⟨before, notSet⟩ | located
    · rw [if_neg notSet, inv.doneCleared before]
      split <;> rfl
    · simp [located]
  case darkStop => exact inv.darkStop_main effect
  case controlStopped =>
    intro stopped
    rcases effect.controlStopped stopped with ⟨notSpawning, before⟩
    rcases effect.control with same | ⟨spawning, _⟩
    · rw [same]
      exact before.elim inv.controlStopped id
    · exact absurd spawning notSpawning

end Main

/-- The control thread keeps the invariant: it never takes back a request and
leaves the handshake flags alone. -/
theorem controlStep_handshake {s after : State} {input : ControlInput}
    (inv : Handshake s) (taken : controlStep s input = some after) :
    Handshake after := by
  have effect := controlStep_effect taken
  have alive : s.pc.controlStopped = false := by
    cases stopped : s.pc.controlStopped with
    | false => rfl
    | true =>
        have asleep := inv.controlStopped stopped
        rw [effect.running] at asleep
        cases asleep
  constructor <;> (try rw [effect.pc])
  case mainHolds => exact (effect.mainMutex inv.controlHolds).trans inv.mainHolds
  case controlHolds => exact effect.controlMutex inv.controlHolds
  case requested =>
    intro serving
    rw [effect.blackoutRequested, inv.requested serving, ite_self]
  case resumeSeen =>
    intro resuming
    rw [effect.resumeRequested, inv.resumeSeen resuming, ite_self]
  case leaving =>
    intro leaving
    refine (inv.leaving leaving).imp (fun seen => ?_) effect.shutdownRequested
    rw [effect.resumeRequested, seen, ite_self]
  case active =>
    rw [effect.blackoutActive]
    exact inv.active
  case doneCleared =>
    rw [effect.resumeDone]
    exact inv.doneCleared
  case darkStop =>
    rw [effect.blackoutActive, effect.resumeDone]
    exact inv.darkStop
  case controlStopped =>
    intro stopped
    rw [alive] at stopped
    cases stopped

/-- The handshake invariant is inductive over all three kinds of threads. -/
theorem step_handshake {s after : State} {label : Label} (inv : Handshake s)
    (taken : step s label = some after) : Handshake after := by
  cases label with
  | main input => exact mainStep_handshake inv taken
  | control input => exact controlStep_handshake inv taken
  | worker i input =>
      have frame := workerStep_frame taken
      exact inv.frame frame.flags frame.control frame.pc

theorem reachable_handshake {s : State} (reach : system.Reachable s) :
    Handshake s :=
  System.ReachableUnder.invariant Handshake Handshake.initial
    (fun _ _ _ _ inv _ taken => step_handshake inv taken) reach

end KhadasYolo.Pipeline
