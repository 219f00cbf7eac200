import KhadasYolo.Pipeline.Requests

/-!
# Published handshakes

The main thread publishes the end of a blackout entry in `blackout_active` and
the end of a resume in `resume_done`, and leaves both set for the handler that
waits for them.  A handler that is waiting at that moment can then only return
ok, however late it wakes up and whether its timeout has fired or not; for
"blackout" this needs that no request to resume is pending.
-/

namespace KhadasYolo.Pipeline

open TransitionSystem

/-- Inside the `wait_for` of `command`. -/
@[simp] def ControlPc.waits (command : WaitCommand) : ControlPc → Bool
  | .wait other _ => decide (other = command)
  | _ => false

/-- The step is taken while the handler of `command` waits. -/
def DuringWait (command : WaitCommand) (s : State) (_ : Label) : Prop :=
  s.control.waits command = true

instance (command : WaitCommand) (s : State) :
    DecidablePred (DuringWait command s) :=
  fun _ => inferInstanceAs (Decidable (_ = true))

/-- What the handler of `command` waits for has come. -/
def Published (command : WaitCommand) (s : State) : Prop :=
  command.pred s.flags = true

/-- If it is the start of a blackout, no request to end it again is pending. -/
def Lasting (command : WaitCommand) (s : State) : Prop :=
  command = .blackout → s.flags.resumeRequested = false

instance (command : WaitCommand) (s : State) : Decidable (Published command s) :=
  inferInstanceAs (Decidable (_ = _))

instance (command : WaitCommand) (s : State) : Decidable (Lasting command s) :=
  inferInstanceAs (Decidable (_ → _))

/-- The handler still waits and will find what it waits for, or it is returning
ok. -/
def Noticed (command : WaitCommand) (s : State) : Prop :=
  s.control.waits command = true ∧ Published command s ∧ Lasting command s ∨
    s.control = .waited command .ok

section Steps

variable {command : WaitCommand} {s after : State}

theorem ControlPc.wait_of_waits {control : ControlPc}
    (waiting : control.waits command = true) :
    ∃ point, control = .wait command point := by
  cases control <;> simp_all

/-- The main thread leaves what it has published to a waiting handler. -/
theorem published_main (hand : Handshake s) (run : ResumeRun s)
    (waiting : s.control.waits command = true) (published : Published command s)
    (lasting : Lasting command s) (effect : MainEffect s after) :
    Published command after ∧ Lasting command after := by
  rcases ControlPc.wait_of_waits waiting with ⟨point, located⟩
  cases command with
  | resume =>
      have running : s.control.inResume = true := by simp [located]
      refine ⟨?_, fun other => by cases other⟩
      have done : s.flags.resumeDone = true := published
      have kept := @ResumeRun.not_entry _ run running .clearDone (by simp)
      simp [Published, WaitCommand.pred, effect.resumeDone, kept, done]
  | blackout =>
      have active : s.flags.blackoutActive = true := published
      have unasked := lasting rfl
      have notClearing : ¬(s.pc = .entry .clearActive ∨ s.pc = .resume .clearActive) := by
        rintro (here | here)
        · have announced := hand.active (by simp [here])
          simp [here, active] at announced
        · have seen := hand.resumeSeen (by simp [here])
          rw [unasked] at seen
          cases seen
      constructor
      · simp [Published, WaitCommand.pred, effect.blackoutActive, notClearing, active]
      · intro _
        simp [effect.resumeRequested, unasked]

/-- A handler that evaluates its predicate now returns ok. -/
theorem noticed_control {input : ControlInput}
    (waiting : s.control.waits command = true) (published : Published command s)
    (lasting : Lasting command s) (taken : controlStep s input = some after) :
    Noticed command after := by
  rcases ControlPc.wait_of_waits waiting with ⟨point, located⟩
  have effect := controlStep_effect taken
  have kept : Published command after ∧ Lasting command after := by
    constructor
    · cases command with
      | blackout => exact effect.blackoutActive.trans published
      | resume => exact effect.resumeDone.trans published
    · intro dark
      simp [effect.resumeRequested, located, lasting dark]
  simp only [controlStep, located] at taken
  cases point with
  | lock =>
      cases input with
      | go =>
          rcases State.lock_map_eq_some taken with ⟨_, rfl⟩
          exact Or.inl ⟨by simp, kept⟩
      | _ => contradiction
  | test expired =>
      cases input with
      | go =>
          rw [Published] at published
          simp only [waitStep, published, if_true, Option.some.injEq] at taken
          exact Or.inr (taken ▸ rfl)
      | _ => contradiction
  | asleep =>
      cases input with
      | wake expired =>
          rcases State.lock_map_eq_some taken with ⟨_, rfl⟩
          exact Or.inl ⟨by simp, kept⟩
      | _ => contradiction

theorem noticed_step {label : Label} (reach : system.Reachable s)
    (noticed : Noticed command s) (waiting : DuringWait command s label)
    (taken : step s label = some after) : Noticed command after := by
  have kept : Published command s ∧ Lasting command s := by
    rcases noticed with ⟨_, kept⟩ | returned
    · exact kept
    · simp [DuringWait, returned] at waiting
  rcases kept with ⟨published, lasting⟩
  have hand := reachable_handshake reach
  cases label with
  | main input =>
      have effect := mainStep_effect taken
      have alive : s.control.stopped = false := by
        rcases ControlPc.wait_of_waits waiting with ⟨point, located⟩
        simp [located]
      refine Or.inl ⟨?_, ?_⟩
      · rw [hand.control_main effect alive]
        exact waiting
      · exact published_main hand (reachable_resumeRun reach) waiting published lasting
          effect
  | control input => exact noticed_control waiting published lasting taken
  | worker i input =>
      have frame := workerStep_frame taken
      refine Or.inl ⟨frame.control ▸ waiting, ?_⟩
      simpa only [Published, Lasting, frame.flags] using And.intro published lasting

end Steps

/-- A handler that is waiting when its handshake is published, no request to resume
being pending where that is a blackout, goes on waiting for something that stays true
until it returns ok: neither the main thread's next blackout nor an expired timeout
comes in between. -/
theorem publication_noticed {command : WaitCommand} {s later : State}
    (reach : system.Reachable s) (waiting : s.control.waits command = true)
    (published : Published command s) (lasting : Lasting command s)
    (path : system.Path (DuringWait command) s later) :
    Noticed command later := by
  have both : system.Reachable later ∧ Noticed command later := by
    refine path.preserves (fun t => system.Reachable t ∧ Noticed command t) ?_
      ⟨reach, Or.inl ⟨waiting, published, lasting⟩⟩
    rintro before label after ⟨here, noticed⟩ during taken
    exact ⟨here.step True.intro taken, noticed_step here noticed during taken⟩
  exact both.2

/-- The timeout of a "resume" fires after the main thread has set `resume_done`,
while the handler sleeps; it still returns ok. -/
theorem publication_noticed_late :
    ∃ s later, system.Reachable s ∧ s.control = .wait .resume .asleep ∧
      Published .resume s ∧ system.Path (DuringWait .resume) s later ∧
      later.control ≠ .wait .resume .asleep ∧ Noticed .resume later := by
  obtain ⟨s, reach, accepted⟩ := System.reaches_of_replay system System.unrestricted
    (Schedule.boot ++ Schedule.connect ++ Schedule.blackout ++
      Schedule.request .resume ++ Schedule.control 3 ++ Schedule.publishResume)
    (fun s => s.control = .wait .resume .asleep && decide (Published .resume s) &&
      (system.replay (DuringWait .resume) s
        ([.control (.wake true)] ++ Schedule.control 1)).any
          fun later => later.control = .waited .resume .ok) (by decide)
  simp only [Bool.and_eq_true, decide_eq_true_eq, Option.any_eq_true] at accepted
  rcases accepted with ⟨⟨asleep, published⟩, later, run, returned⟩
  have path := System.replay_path run
  refine ⟨s, later, reach, asleep, published, path, by simp [returned], ?_⟩
  exact publication_noticed reach (by simp [asleep]) published
    (fun other => by cases other) path

/-- A "resume" stores its request behind the main thread's clears; the handler of the
next "blackout" sleeps. -/
def pendingResume : List Label :=
  Schedule.boot ++ Schedule.connect ++ Schedule.blackout ++
    Schedule.request .resume ++ Schedule.control 1 ++ Schedule.expire ++
    Schedule.control 3 ++ Schedule.request .resume ++
    Schedule.publishResume ++ Schedule.main 2 ++ Schedule.control 1 ++
    Schedule.answer ++ Schedule.request .blackout ++ Schedule.control 3 ++
    Schedule.main 9 ++ Schedule.enterBlackout

/-- With a request to resume pending, the blackout is over before its handler
wakes. -/
theorem publication_missed :
    ∃ s later, system.Reachable s ∧ s.control = .wait .blackout .asleep ∧
      Published .blackout s ∧ system.Path (DuringWait .blackout) s later ∧
      ¬Noticed .blackout later := by
  obtain ⟨s, reach, accepted⟩ := System.reaches_of_replay system System.unrestricted
    pendingResume
    (fun s => s.control = .wait .blackout .asleep && decide (Published .blackout s) &&
      (system.replay (DuringWait .blackout) s (Schedule.main 11)).any fun later =>
        later.control = .wait .blackout .asleep && !later.flags.blackoutActive)
    (by decide)
  simp only [Bool.and_eq_true, decide_eq_true_eq, Bool.not_eq_true',
    Option.any_eq_true] at accepted
  rcases accepted with ⟨⟨asleep, published⟩, later, run, still, inactive⟩
  refine ⟨s, later, reach, asleep, published, System.replay_path run, ?_⟩
  rintro (⟨_, met, _⟩ | returned)
  · simp [Published, WaitCommand.pred, inactive] at met
  · rw [still] at returned
    cases returned

end KhadasYolo.Pipeline
