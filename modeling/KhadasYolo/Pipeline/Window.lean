import KhadasYolo.Pipeline.Publication
import KhadasYolo.Pipeline.Responses
import KhadasYolo.Pipeline.Workers

/-!
# The NPU window of one pipeline

A caller that has had "blackout" answered ok uses the NPU until it sends
"resume".  The pipeline keeps off it in the meantime as long as no "resume" has
ever been answered by its timeout: only then does the main thread act on a
request whose handler has gone.
-/

namespace KhadasYolo.Pipeline

open TransitionSystem HandleTable

/-- The step is not a "resume" handler that gives up, its timeout having fired
with `resume_done` still clear. -/
def PatientResume (s : State) (label : Label) : Prop :=
  match label with
  | .control _ => s.control = .wait .resume (.test true) → s.flags.resumeDone = true
  | _ => True

instance (s : State) : DecidablePred (PatientResume s)
  | .control _ => inferInstanceAs (Decidable (_ → _))
  | .main _ | .worker _ _ => inferInstanceAs (Decidable True)

/-! ## Where a "resume" can be -/

/-- How one step of the control thread moves a "resume". -/
inductive ResumeEffect (s after : State) : Prop where
  | dispatched (located : s.control = .recv) (moved : after = dispatchCommand s .resume)
  | stored (located : s.control = .resumeRequest)
      (moved : after.control = .wait .resume .lock) (history : after.history = s.history)
  | waiting (located : s.control.waits .resume = true)
      (moved : after.control.waits .resume = true) (history : after.history = s.history)
  | answered (response : Response) (located : s.control.waits .resume = true)
      (moved : after.control = .waited .resume response)
      (cause : s.flags.resumeDone = true ∨ s.control = .wait .resume (.test true))
      (history : after.history = s.history)
  | elsewhere (located : s.control ≠ .resumeRequest ∧ s.control.waits .resume = false)
      (moved : after.control ≠ .resumeRequest ∧ after.control.waits .resume = false)
      (history : after.history = s.history)

section Control

variable {s after : State} {input : ControlInput}

theorem waitStep_resume {command : WaitCommand} {point : WaitPc}
    (located : s.control = .wait command point)
    (taken : waitStep s command input point = some after) : ResumeEffect s after := by
  cases command with
  | blackout =>
      refine .elsewhere (by simp [located]) ?_ ?_ <;>
        cases point <;> cases input <;> simp only [waitStep, reduceCtorEq] at taken
      case refine_1.lock.go | refine_1.asleep.wake =>
        rcases State.lock_map_eq_some taken with ⟨_, rfl⟩
        simp
      case refine_2.lock.go | refine_2.asleep.wake =>
        rcases State.lock_map_eq_some taken with ⟨_, rfl⟩
        rfl
      case refine_1.test.go expired =>
        cases taken
        cases WaitCommand.blackout.pred s.flags <;> cases expired <;> simp
      case refine_2.test.go expired =>
        cases taken
        cases WaitCommand.blackout.pred s.flags <;> cases expired <;> rfl
  | resume =>
      cases point <;> cases input <;> simp only [waitStep, reduceCtorEq] at taken
      case lock.go | asleep.wake =>
        rcases State.lock_map_eq_some taken with ⟨_, rfl⟩
        exact .waiting (by simp [located]) (by simp) rfl
      case test.go expired =>
        cases taken
        cases met : WaitCommand.resume.pred s.flags with
        | true => exact .answered .ok (by simp [located]) (by simp) (Or.inl met) rfl
        | false =>
            cases expired with
            | true =>
                exact .answered _ (by simp [located]) rfl (Or.inr located) rfl
            | false => exact .waiting (by simp [located]) (by simp) rfl

theorem controlStep_resume (taken : controlStep s input = some after) :
    ResumeEffect s after := by
  simp only [controlStep] at taken
  split at taken
  case h_1 located =>
    cases taken
    refine .elsewhere (by simp [located]) ?_ rfl
    cases s.running <;> simp
  case h_2 located =>
    split at taken
    · cases taken
      exact .elsewhere (by simp [located]) (by simp) rfl
    · contradiction
  case h_4 located =>
    cases taken
    refine .elsewhere (by simp [located]) ?_ rfl
    cases s.running <;> simp
  case h_6 command located =>
    cases taken
    cases command with
    | resume => exact .dispatched located rfl
    | setDumpEnabled enabled =>
        cases enabled <;>
          exact .elsewhere (by simp [located]) (by simp [dispatchCommand]) rfl
    | _ => exact .elsewhere (by simp [located]) (by simp [dispatchCommand]) rfl
  case h_8 located =>
    cases taken
    exact .stored located rfl rfl
  case h_9 located => exact waitStep_resume located taken
  case h_13 => contradiction
  all_goals
    rename_i located
    cases taken
    exact .elsewhere (by simp [located]) (by simp) rfl

end Control

/-- Where no "resume" handler has given up, a request to resume has its handler
waiting for it until the main thread publishes the end of the resume. -/
structure Patience (s : State) : Prop where
  storing : s.control = .resumeRequest → s.pc.stopping = true ∨
    s.pc.announced = true ∧ s.pc.resuming = false ∧ s.flags.resumeRequested = false
  requested : s.flags.resumeRequested = true → s.pc.stopping = true ∨
    s.pc.publishing = true ∨
      s.pc.announced = true ∧ s.control.waits .resume = true
  running : s.flags.blackoutActive = true → s.history.resumeDispatched = true →
    s.control = .resumeRequest ∨ s.control.waits .resume = true

theorem MainPc.not_announced_of_publishing {pc : MainPc}
    (publishing : pc.publishing = true) : pc.announced = false := by
  cases pc with
  | resume point => cases point <;> simp_all
  | _ => simp_all

namespace Patience

theorem initial : Patience system.init := by
  constructor <;> simp [system]

section Main

variable {s after : State}

theorem stored_main (effect : MainEffect s after) (hand : Handshake s)
    (storing : s.pc.announced = true ∧ s.pc.resuming = false ∧
      s.flags.resumeRequested = false) :
    after.pc.stopping = true ∨ after.pc.announced = true ∧
      after.pc.resuming = false ∧ after.flags.resumeRequested = false := by
  rcases storing with ⟨announced, notResuming, unasked⟩
  cases stop : after.pc.stopping with
  | true => exact Or.inl rfl
  | false =>
      refine Or.inr ⟨?_, ?_, ?_⟩
      · have notRetracting : s.pc ≠ .resume .clearActive := by
          intro located
          simp [located] at notResuming
        rw [effect.announced stop, if_neg notRetracting, announced, ite_self]
      · cases resuming : after.pc.resuming with
        | false => rfl
        | true =>
            rcases effect.resuming resuming with ⟨before, _⟩ | ⟨located, noShutdown⟩
            · rw [notResuming] at before
              cases before
            · rcases hand.leaving located with asked | shutdown
              · rw [unasked] at asked
                cases asked
              · rw [noShutdown] at shutdown
                cases shutdown
      · rw [effect.resumeRequested, unasked, ite_self]

theorem requested_main (effect : MainEffect s after)
    (requested : s.pc.stopping = true ∨ s.pc.publishing = true ∨
      s.pc.announced = true ∧ s.control.waits .resume = true)
    (same : s.control.waits .resume = true → after.control = s.control)
    (kept : s.pc ≠ .resume .clearResume) :
    after.pc.stopping = true ∨ after.pc.publishing = true ∨
      after.pc.announced = true ∧ after.control.waits .resume = true := by
  rcases requested with stop | publishing | ⟨announced, waiting⟩
  · exact Or.inl (effect.stopping stop)
  · exact Or.inr (Or.inl ((effect.published publishing).resolve_right kept))
  · by_cases retracting : s.pc = .resume .clearActive
    · exact Or.inr (Or.inl (effect.retracted retracting))
    · cases stop : after.pc.stopping with
      | true => exact Or.inl rfl
      | false =>
          refine Or.inr (Or.inr ⟨?_, same waiting ▸ waiting⟩)
          rw [effect.announced stop, if_neg retracting, announced, ite_self]

theorem main {input : MainInput} (hand : Handshake s) (inv : Patience s)
    (taken : mainStep s input = some after) : Patience after := by
  have effect := mainStep_effect taken
  have keeps : s.control.stopped = false → after.control = s.control :=
    hand.control_main effect
  have alive : ∀ {control : ControlPc}, control = .resumeRequest ∨
      control.waits .resume = true → control.stopped = false := by
    intro control busy
    cases control <;> simp_all
  have back : after.control = .resumeRequest ∨ after.control.waits .resume = true →
      after.control = s.control := by
    intro busy
    rcases effect.control with same | ⟨_, listening⟩
    · exact same
    · simp [listening] at busy
  constructor
  case storing =>
    intro storing
    have same := back (Or.inl storing)
    rcases inv.storing (same ▸ storing) with stop | quiet
    · exact Or.inl (effect.stopping stop)
    · exact stored_main effect hand quiet
  case requested =>
    intro requested
    rw [effect.resumeRequested] at requested
    split at requested
    · cases requested
    next kept =>
      exact requested_main effect (inv.requested requested)
        (fun waiting => keeps (alive (Or.inr waiting))) kept
  case running =>
    intro active dispatched
    rw [effect.resumeDispatched] at dispatched
    rw [effect.blackoutActive] at active
    split at dispatched
    · cases dispatched
    next notStoring =>
      rw [if_neg notStoring] at active
      split at active
      · cases active
      · have busy := inv.running active dispatched
        exact (keeps (alive busy)).symm ▸ busy

end Main

/-- While `blackout_active` is set, a waiting "resume" goes on waiting. -/
theorem waits_control {s after : State} {input : ControlInput} (hand : Handshake s)
    (active : s.flags.blackoutActive = true) (patient : PatientResume s (.control input))
    (waiting : s.control.waits .resume = true) (effect : ResumeEffect s after) :
    after.control.waits .resume = true := by
  cases effect with
  | waiting _ moved => exact moved
  | answered _ _ _ cause =>
      have done : s.flags.resumeDone = true := cause.elim id patient
      rw [hand.active_of_done done] at active
      cases active
  | dispatched located | stored located => simp [located] at waiting
  | elsewhere located =>
      rw [located.2] at waiting
      cases waiting

theorem control {s after : State} {input : ControlInput} (hand : Handshake s)
    (inv : Patience s) (patient : PatientResume s (.control input))
    (taken : controlStep s input = some after) : Patience after := by
  have effect := controlStep_effect taken
  have resume := controlStep_resume taken
  constructor
  case storing =>
    intro storing
    rw [effect.pc]
    cases resume with
    | dispatched located moved =>
        have active : s.flags.blackoutActive = true := by
          rw [moved] at storing
          cases active : s.flags.blackoutActive with
          | true => rfl
          | false => simp [dispatchCommand, active] at storing
        cases stop : s.pc.stopping with
        | true => exact Or.inl rfl
        | false =>
            have announced := hand.active stop
            rw [active] at announced
            have unasked : s.flags.resumeRequested = false := by
              cases asked : s.flags.resumeRequested with
              | false => rfl
              | true =>
                  rcases inv.requested asked with stopped | publishing | ⟨_, waiting⟩
                  · rw [stop] at stopped
                    cases stopped
                  · rw [MainPc.not_announced_of_publishing publishing] at announced
                    cases announced
                  · simp [located] at waiting
            refine Or.inr ⟨announced.symm, ?_, ?_⟩
            · cases resuming : s.pc.resuming with
              | false => rfl
              | true =>
                  rw [hand.resumeSeen resuming] at unasked
                  cases unasked
            · rw [effect.resumeRequested, if_neg (by simp [located]), unasked]
    | stored _ moved | answered _ _ moved => simp [moved] at storing
    | waiting _ moved => simp [storing] at moved
    | elsewhere _ moved => exact absurd storing moved.1
  case requested =>
    intro requested
    rw [effect.pc]
    rw [effect.resumeRequested] at requested
    split at requested
    next located =>
      rcases inv.storing located with stop | ⟨announced, _⟩
      · exact Or.inl stop
      · cases resume with
        | stored _ moved => exact Or.inr (Or.inr ⟨announced, by simp [moved]⟩)
        | dispatched here => simp [located] at here
        | waiting here | answered _ here => simp [located] at here
        | elsewhere here => exact absurd located here.1
    next =>
      rcases inv.requested requested with stop | publishing | ⟨announced, waiting⟩
      · exact Or.inl stop
      · exact Or.inr (Or.inl publishing)
      · cases stop : s.pc.stopping with
        | true => exact Or.inl rfl
        | false =>
            have active : s.flags.blackoutActive = true := by
              rw [hand.active stop, announced]
            exact Or.inr (Or.inr
              ⟨announced, waits_control hand active patient waiting resume⟩)
  case running =>
    intro active dispatched
    rw [effect.blackoutActive] at active
    have continues : s.history.resumeDispatched = true →
        after.control = .resumeRequest ∨ after.control.waits .resume = true := by
      intro before
      rcases inv.running active before with storing | waiting
      · cases resume with
        | stored _ moved => simp [moved]
        | dispatched here => simp [storing] at here
        | waiting here | answered _ here => simp [storing] at here
        | elsewhere here => exact absurd storing here.1
      · exact Or.inr (waits_control hand active patient waiting resume)
    cases resume with
    | dispatched _ moved => simp [moved, dispatchCommand, active]
    | stored _ _ history | waiting _ _ history | answered _ _ _ _ history
    | elsewhere _ _ history => exact continues (history ▸ dispatched)

theorem worker {s after : State} (inv : Patience s) (frame : WorkerFrame s after) :
    Patience after := by
  rcases inv with ⟨storing, requested, running⟩
  constructor <;>
    simp only [frame.pc, frame.control, frame.flags, frame.resumeDispatched] <;>
    assumption

end Patience

theorem reachable_patience {s : State}
    (reach : system.ReachableUnder PatientResume s) : Patience s := by
  refine System.ReachableUnder.invariant Patience Patience.initial ?_ reach
  intro s label after earlier inv patient taken
  have hand := reachable_handshake earlier.reachable
  cases label with
  | main input => exact inv.main hand taken
  | control input => exact inv.control hand patient taken
  | worker i input => exact inv.worker (workerStep_frame taken)

/-! ## What patience rules out -/

/-- A "blackout" never meets the re-creation of the contexts. -/
theorem outside_of_patience {s : State} (hand : Handshake s) (inv : Patience s)
    (label : Label) : OutsideRebuild s label := by
  have handled : s.pc.resuming = true → s.pc.publishing = false →
      s.control.waits .resume = true := by
    intro resuming unpublished
    rcases inv.requested (hand.resumeSeen resuming) with stop | publishing | ⟨_, waiting⟩
    · rw [MainPc.running_of_resuming resuming] at stop
      cases stop
    · rw [unpublished] at publishing
      cases publishing
    · exact waiting
  cases label with
  | worker i input => exact True.intro
  | control input =>
      intro testing
      cases rebuilt : s.pc.rebuilt with
      | false => rfl
      | true =>
          rcases MainPc.resuming_of_rebuilt rebuilt with ⟨resuming, announced⟩
          have waiting := handled resuming (MainPc.unpublished_of_announced announced)
          rcases ControlPc.test_of_testingBlackout testing with ⟨expired, located⟩
          simp [located] at waiting
  | main input =>
      intro located _
      have waiting := handled (by simp [located]) (by simp [located])
      cases control : s.control <;> simp_all

/-- Every "resume" stores its request in time. -/
theorem inTime_of_patience {s : State} (inv : Patience s) (label : Label) :
    StoresInTime s label := by
  cases label with
  | control input =>
      intro located
      rcases inv.storing located with stop | ⟨announced, _⟩
      · exact Or.inr (Or.inr (Or.inl stop))
      · exact Or.inl announced
  | main input | worker i input => exact True.intro

/-- A run without such a timeout respects every guard that patience implies. -/
theorem reachable_of_patient {allowed : State → Label → Prop} {s : State}
    (implied : ∀ {s}, Handshake s → Patience s → ∀ label, allowed s label)
    (reach : system.ReachableUnder PatientResume s) :
    system.ReachableUnder allowed s :=
  System.ReachableUnder.invariant (fun s => system.ReachableUnder allowed s)
    System.ReachableUnder.init
    (fun _ label _ earlier kept _ taken => kept.step
      (implied (reachable_handshake earlier.reachable) (reachable_patience earlier) label)
      taken) reach

/-- As long as no "resume" handler gives up, every "blackout" that returns ok
finds the NPU free, and no blackout is ended by the request of an earlier
cycle. -/
theorem patient_runs_sound {s : State}
    (reach : system.ReachableUnder PatientResume s) :
    BlackoutSound s ∧ ResumeFollowsBlackout s :=
  ⟨blackoutSound_of_outside (reachable_of_patient outside_of_patience reach),
    fun located =>
      (reachable_freshResume (reachable_of_patient (fun _ => inTime_of_patience)
        reach)).seen (by simp [located]) (by simp [located])⟩

/-- A blackout after a whole cycle. -/
theorem patient_runs_sound_again :
    ∃ s, system.ReachableUnder PatientResume s ∧ s.control.blackoutOk = true ∧
      s.history.blackouts = 2 ∧ BlackoutSound s ∧ ResumeFollowsBlackout s := by
  obtain ⟨s, reach, again⟩ := System.reaches_of_replay system PatientResume
    (Schedule.boot ++ Schedule.connect ++ Schedule.blackout ++
      Schedule.request .resume ++ Schedule.control 1 ++ Schedule.publishResume ++
      Schedule.refill ++ Schedule.answer ++ Schedule.request .blackout ++
      Schedule.control 1 ++ Schedule.enterBlackout ++ Schedule.control 2)
    (fun s => s.control.blackoutOk && s.history.blackouts = 2) (by decide)
  simp only [Bool.and_eq_true, decide_eq_true_eq] at again
  exact ⟨s, reach, again.1, again.2, patient_runs_sound reach⟩

/-! ## From the answer to the next "resume" -/

/-- `blackout_active` is set and no "resume" has been dispatched since. -/
structure Released (s : State) : Prop where
  active : s.flags.blackoutActive = true
  undisturbed : s.history.resumeDispatched = false

/-- No context is live, and no inference thread calls the NPU. -/
structure NpuFree (s : State) : Prop where
  contexts : ∀ h, ¬s.rknn.Live h
  idle : ∀ i slot frameId captureUs call,
    s.workers i ≠ .rknn slot frameId captureUs call

namespace Released

/-- The main thread re-creates no context while the NPU is released. -/
theorem not_rebuilt {s : State} (reach : system.ReachableUnder PatientResume s)
    (released : Released s) : s.pc.rebuilt = false := by
  have fresh := reachable_freshResume
    (reachable_of_patient (fun _ => inTime_of_patience) reach)
  cases rebuilt : s.pc.rebuilt with
  | false => rfl
  | true =>
      rcases MainPc.resuming_of_rebuilt rebuilt with ⟨resuming, announced⟩
      have dispatched := fresh.seen resuming announced
      rw [released.undisturbed] at dispatched
      cases dispatched

theorem npuFree {s : State} (reach : system.ReachableUnder PatientResume s)
    (released : Released s) : NpuFree s := by
  have reachable := reach.reachable
  have hand := reachable_handshake reachable
  have vacant := Dark.vacant hand released.active (released.not_rebuilt reach)
  have running : s.pc ≠ .aborted := by
    intro aborted
    have inactive := hand.active (by simp [aborted])
    rw [released.active, aborted] at inactive
    cases inactive
  constructor
  case contexts =>
    exact ((reachable_accounts reachable).accounted running).none_live vacant
  case idle =>
    intro i slot frameId captureUs call working
    have busy : (s.workers i).ticket = some (slot, frameId) := by
      rw [working]
      rfl
    have held := held_of_busy (reachable_slots reachable) (reachable_retirement reachable)
      busy
    rw [vacant i] at held
    cases held.1

/-- A "blackout" that is returning ok has released the NPU. -/
theorem of_ok {s : State} (reach : system.ReachableUnder PatientResume s)
    (returned : s.control.blackoutOk = true) : Released s := by
  have active := (reachable_dark (reachable_of_patient outside_of_patience reach)
    returned).1
  refine ⟨active, ?_⟩
  cases dispatched : s.history.resumeDispatched with
  | false => rfl
  | true =>
      rcases (reachable_patience reach).running active dispatched with storing | waiting
      · simp [storing] at returned
      · cases located : s.control <;> simp_all

theorem main {s after : State} {input : MainInput}
    (reach : system.ReachableUnder PatientResume s) (released : Released s)
    (taken : mainStep s input = some after) : Released after := by
  have effect := mainStep_effect taken
  have rebuilt := released.not_rebuilt reach
  have active := released.active
  constructor
  case active =>
    rw [effect.blackoutActive, if_neg (c := _ ∨ _), active, ite_self]
    rintro (located | located)
    · rw [(reachable_handshake reach.reachable).active (by simp [located]),
        located] at active
      cases active
    · simp [located] at rebuilt
  case undisturbed =>
    rw [effect.resumeDispatched, released.undisturbed, ite_self]

/-- Only the dispatch of a "resume" ends the release. -/
theorem step {s after : State} {label : Label}
    (reach : system.ReachableUnder PatientResume s) (released : Released s)
    (other : label ≠ .control (.request .resume))
    (taken : Pipeline.step s label = some after) : Released after := by
  cases label with
  | main input => exact released.main reach taken
  | control input =>
      have effect := controlStep_effect taken
      refine ⟨effect.blackoutActive.trans released.active, ?_⟩
      cases controlStep_resume taken with
      | stored _ _ history | waiting _ _ history | answered _ _ _ _ history
      | elsewhere _ _ history => rw [history, released.undisturbed]
      | dispatched located moved =>
          cases input with
          | request command =>
              cases command with
              | resume => exact absurd rfl other
              | setDumpEnabled enabled =>
                  simp only [Pipeline.step, controlStep, located, Option.some.injEq] at taken
                  rw [← taken]
                  cases enabled <;> exact released.undisturbed
              | _ =>
                  simp only [Pipeline.step, controlStep, located, Option.some.injEq] at taken
                  rw [← taken]
                  exact released.undisturbed
          | failed =>
              simp only [Pipeline.step, controlStep, located, Option.some.injEq] at taken
              rw [← taken]
              exact released.undisturbed
          | _ => simp [Pipeline.step, controlStep, located] at taken
  | worker i input =>
      have frame := workerStep_frame taken
      exact ⟨frame.flags ▸ released.active,
        frame.resumeDispatched.trans released.undisturbed⟩

end Released

/-- The step is neither a "resume" handler that gives up nor the dispatch of a
"resume". -/
def KeepsWindow (s : State) (label : Label) : Prop :=
  PatientResume s label ∧ label ≠ .control (.request .resume)

instance (s : State) (label : Label) : Decidable (KeepsWindow s label) :=
  inferInstanceAs (Decidable (_ ∧ _))

/-- From the moment "blackout" returns ok to the dispatch of the next "resume"
the pipeline keeps off the NPU, whatever other commands arrive, in every run in
which no "resume" handler gives up. -/
theorem npu_window {s later : State} (reach : system.ReachableUnder PatientResume s)
    (returned : s.control.blackoutOk = true) (window : system.Path KeepsWindow s later) :
    NpuFree later := by
  suffices kept : system.ReachableUnder PatientResume later ∧ Released later from
    kept.2.npuFree kept.1
  refine System.Path.preserves
    (fun s => system.ReachableUnder PatientResume s ∧ Released s) ?_ window
    ⟨reach, .of_ok reach returned⟩
  rintro s label after ⟨reach, released⟩ ⟨patient, other⟩ taken
  exact ⟨reach.step patient taken, released.step reach other taken⟩

/-- A window in which the server answers `get_status` and a "shutdown" ends the
process. -/
theorem npu_window_shutdown :
    ∃ s later, system.ReachableUnder PatientResume s ∧ s.control.blackoutOk = true ∧
      system.Path KeepsWindow s later ∧ later.pc = .returned ∧ NpuFree later := by
  obtain ⟨s, reach, accepted⟩ := System.reaches_of_replay system PatientResume
    (Schedule.boot ++ Schedule.connect ++ Schedule.request .blackout ++
      Schedule.control 1 ++ Schedule.enterBlackout ++ Schedule.control 2)
    (fun s => s.control.blackoutOk &&
      (system.replay KeepsWindow s
        (Schedule.control 3 ++ Schedule.request .getStatus ++ Schedule.control 2 ++
          Schedule.request .shutdown ++ Schedule.main 3 ++ Schedule.stop ++
          Schedule.join ++ Schedule.destroyContexts)).any
        fun later => later.pc = .returned) (by decide)
  rw [Bool.and_eq_true] at accepted
  rcases System.exists_of_replay accepted.2 with ⟨later, window, ended⟩
  exact ⟨s, later, reach, accepted.1, window, by simpa using ended,
    npu_window reach accepted.1 window⟩

end KhadasYolo.Pipeline
