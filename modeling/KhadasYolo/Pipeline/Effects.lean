import KhadasYolo.Pipeline.Step

/-!
# What one step can do

Inversion lemmas for the three kinds of threads.  `MainEffect` says, for every
step of the main thread, how the shared flags change and between which regions
of the program its counter moves; `ControlFrame` and `WorkerFrame` say what the
other threads leave alone.  Invariants are derived from these and do not unfold
the step functions again.
-/

namespace KhadasYolo.Pipeline

open TransitionSystem

/-! ## Regions of the program -/

namespace MainPc

/-- The main thread is inside one of its critical sections. -/
@[simp] def critical : MainPc → Bool
  | .entry .clearActive | .entry .clearDone | .entry .unlock
  | .entry .activeStore | .entry .activeUnlock
  | .resume .clearActive | .resume .enable | .resume .setDone
  | .resume .unlock => true
  | _ => false

/-- About to lock `lifecycle_mutex`. -/
@[simp] def locking : MainPc → Bool
  | .entry .lock | .entry .activeLock | .resume .lock => true
  | _ => false

/-- About to unlock it. -/
@[simp] def unlocking : MainPc → Bool
  | .entry .unlock | .entry .activeUnlock | .resume .unlock => true
  | _ => false

/-- Inside the blackout branch, `blackout_requested` not yet cleared. -/
@[simp] def serving : MainPc → Bool
  | .entry _ | .idle _ | .exited .drain => true
  | .resume .clearResume => false
  | .resume _ => true
  | _ => false

/-- Inside the blackout branch, before `blackout_active` is set. -/
@[simp] def entering : MainPc → Bool
  | .entry .activeUnlock => false
  | .entry _ => true
  | _ => false

/-- Past the idle loop, `resume_requested` not yet cleared. -/
@[simp] def resuming : MainPc → Bool
  | .resume _ | .exited .drain => true
  | _ => false

/-- `blackout_active` has been set for this blackout and not yet cleared. -/
@[simp] def announced : MainPc → Bool
  | .entry .activeUnlock | .idle _ | .exited .drain => true
  | .resume .initContext | .resume .initFailed | .resume (.dupContext _)
  | .resume (.assignContext _) | .resume .drainCamera | .resume .lock
  | .resume .clearActive => true
  | _ => false

/-- The resume handshake is being published, its requests being cleared. -/
@[simp] def publishing : MainPc → Bool
  | .resume .enable | .resume .setDone | .resume .unlock
  | .resume .clearBlackout | .resume .clearResume => true
  | _ => false

/-- `resume_done` has been cleared for this blackout and not yet set. -/
@[simp] def awaitingDone : MainPc → Bool
  | .entry .lock | .entry .clearActive | .entry .clearDone => false
  | .entry _ | .idle _ | .exited .drain => true
  | .resume .unlock | .resume .clearBlackout | .resume .clearResume => false
  | .resume _ => true
  | _ => false

theorem critical_of_unlocking {pc : MainPc} (unlocking : pc.unlocking = true) :
    pc.critical = true := by
  cases pc with
  | entry point => cases point <;> simp_all
  | resume point => cases point <;> simp_all
  | _ => simp_all

theorem awaitingDone_of_announced {pc : MainPc} (announced : pc.announced = true) :
    pc.awaitingDone = true := by
  cases pc with
  | entry point => cases point <;> simp_all
  | resume point => cases point <;> simp_all
  | exited call => cases call <;> simp_all
  | _ => simp_all

theorem unpublished_of_announced {pc : MainPc} (announced : pc.announced = true) :
    pc.publishing = false := by
  cases pc with
  | resume point => cases point <;> simp_all
  | _ => simp_all

theorem serving_of_announced {pc : MainPc} (announced : pc.announced = true) :
    pc.serving = true ∧ pc.entering = false := by
  cases pc with
  | entry point => cases point <;> simp_all
  | resume point => cases point <;> simp_all
  | exited call => cases call <;> simp_all
  | _ => simp_all

/-- At a camera call: a failed ioctl there ends the process. -/
@[simp] def camera : MainPc → Bool
  | .startup .loadCamera | .capture _ (.submit _ _) | .resume .drainCamera
  | .teardown .closeCamera => true
  | _ => false

/-- `main` has ended: it has returned, early or at its end, or a camera call has
ended the process. -/
@[simp] def ended : MainPc → Bool
  | .aborted | .exited _ | .returned => true
  | _ => false

/-- The main loop is over. -/
@[simp] def stopping : MainPc → Bool
  | .teardown _ | .exited .close | .returned => true
  | _ => false

theorem running_of_announced {pc : MainPc} (announced : pc.announced = true) :
    pc.stopping = false := by
  cases pc with
  | exited call => cases call <;> simp_all
  | _ => simp_all

theorem running_of_resuming {pc : MainPc} (resuming : pc.resuming = true) :
    pc.stopping = false := by
  cases pc with
  | exited call => cases call <;> simp_all
  | _ => simp_all

/-- The control thread cannot run: not spawned yet, or already joined. -/
@[simp] def controlStopped : MainPc → Bool
  | .startup .loadCamera => false
  | .startup _ | .aborted | .exited .close | .returned => true
  | .teardown .stopControl | .teardown .closeListen
  | .teardown .joinControl => false
  | .teardown _ => true
  | _ => false

end MainPc

namespace ControlPc

/-- The control thread owns `lifecycle_mutex`. -/
@[simp] def holdsMutex : ControlPc → Bool
  | .wait _ (.test _) | .waited _ _ => true
  | _ => false

/-- The control thread is not running. -/
@[simp] def stopped : ControlPc → Bool
  | .off | .exited => true
  | _ => false

/-- Inside "blackout", from its first store to its response. -/
@[simp] def inBlackout : ControlPc → Bool
  | .blackoutRequest | .wait .blackout _ | .waited .blackout _
  | .reply .blackout _ => true
  | _ => false

/-- Inside the `wait_for` of "blackout". -/
@[simp] def waitingBlackout : ControlPc → Bool
  | .wait .blackout _ => true
  | _ => false

/-- Evaluating the predicate of that `wait_for`. -/
@[simp] def testingBlackout : ControlPc → Bool
  | .wait .blackout (.test _) => true
  | _ => false

/-- "blackout" returns ok. -/
@[simp] def blackoutOk : ControlPc → Bool
  | .waited .blackout .ok | .reply .blackout .ok => true
  | _ => false

/-- Inside "resume", `blackout_active` having been read true. -/
@[simp] def inResume : ControlPc → Bool
  | .resumeRequest | .wait .resume _ | .waited .resume _
  | .reply .resume .ok => true
  | _ => false

/-- "resume" returns ok. -/
@[simp] def resumeOk : ControlPc → Bool
  | .waited .resume .ok | .reply .resume .ok => true
  | _ => false

theorem inResume_of_resumeOk {control : ControlPc}
    (returned : control.resumeOk = true) : control.inResume = true := by
  cases control with
  | waited command response => cases command <;> simp_all
  | reply command response =>
      cases command <;> cases response <;> simp_all
  | _ => simp_all

theorem test_of_testingBlackout {control : ControlPc}
    (testing : control.testingBlackout = true) :
    ∃ expired, control = .wait .blackout (.test expired) := by
  cases control with
  | wait command point => cases command <;> cases point <;> simp_all
  | _ => simp_all

theorem holdsMutex_of_stopped {control : ControlPc}
    (stopped : control.stopped = true) : control.holdsMutex = false := by
  cases control <;> simp_all

end ControlPc

/-! ## Locking -/

theorem State.lock_eq_some {s locked : State} {thread : Thread}
    (taken : s.lock thread = some locked) :
    s.flags.lifecycleMutex = none ∧
      locked = { s with flags := { s.flags with lifecycleMutex := some thread } } := by
  simp only [State.lock] at taken
  split at taken
  next free =>
    cases taken
    exact ⟨free, rfl⟩
  next => contradiction

/-- A step that locks the mutex and then moves on. -/
theorem State.lock_map_eq_some {s after : State} {thread : Thread}
    {move : State → State} (taken : (s.lock thread).map move = some after) :
    s.flags.lifecycleMutex = none ∧
      after = move
        { s with flags := { s.flags with lifecycleMutex := some thread } } := by
  rcases Option.map_eq_some_iff.mp taken with ⟨locked, lockTaken, rfl⟩
  rcases State.lock_eq_some lockTaken with ⟨free, rfl⟩
  exact ⟨free, rfl⟩

theorem afterCapture_outside (site : CaptureSite) :
    (afterCapture site = .loopTop) ∨
      ∃ site', afterCapture site = .capture site' .acquire := by
  cases site with
  | prefill i | refill i =>
      simp only [afterCapture]
      cases nextThread i <;> simp
  | body => exact Or.inl rfl

/-! ## The main thread -/

/-- The effect of one main-thread step on the flags and the program counter. -/
structure MainEffect (s after : State) : Prop where
  control : after.control = s.control ∨
    s.pc = .startup .startServers ∧ after.control = .listen
  mutex : after.flags.lifecycleMutex =
    if s.pc.locking = true then some .main
    else if s.pc.unlocking = true then none
    else s.flags.lifecycleMutex
  mutexFree : s.pc.locking = true → s.flags.lifecycleMutex = none
  inferenceEnabled : after.flags.inferenceEnabled =
    if s.pc = .resume .enable then true else s.flags.inferenceEnabled
  blackoutRequested : after.flags.blackoutRequested =
    if s.pc = .resume .clearBlackout then false else s.flags.blackoutRequested
  blackoutActive : after.flags.blackoutActive =
    if s.pc = .entry .activeStore then true
    else if s.pc = .entry .clearActive ∨ s.pc = .resume .clearActive then false
    else s.flags.blackoutActive
  resumeRequested : after.flags.resumeRequested =
    if s.pc = .resume .clearResume then false else s.flags.resumeRequested
  resumeDone : after.flags.resumeDone =
    if s.pc = .resume .setDone then true
    else if s.pc = .entry .clearDone then false
    else s.flags.resumeDone
  shutdownRequested : s.flags.shutdownRequested = true →
    after.flags.shutdownRequested = true
  blackouts : after.history.blackouts =
    if s.pc = .entry .activeStore then s.history.blackouts + 1
    else s.history.blackouts
  doneOf : after.history.doneOf =
    if s.pc = .resume .setDone then s.history.blackouts else s.history.doneOf
  resumeDispatched : after.history.resumeDispatched =
    if s.pc = .entry .activeStore then false else s.history.resumeDispatched
  createdAtBlackout : after.history.createdAtBlackout =
    if s.pc = .entry .activeStore then s.rknn.created
    else s.history.createdAtBlackout
  critical : after.pc.critical =
    (s.pc.locking || (s.pc.critical && !s.pc.unlocking))
  stopping : s.pc.stopping = true → after.pc.stopping = true
  halting : after.pc.stopping = true → s.pc.stopping = true ∨
    s.pc = .loopTop ∨ s.pc = .idle .leave ∨ s.pc = .resume .initFailed
  exited : ∀ call, after.pc = .exited call → s.pc.camera = true
  entering : after.pc.entering = true → s.pc.entering = true ∨
    s.pc = .checkBlackout ∧ s.flags.blackoutRequested = true
  serving : after.pc.serving = true → s.pc.serving = true ∧
      s.pc ≠ .resume .clearBlackout ∨
    s.pc = .checkBlackout ∧ s.flags.blackoutRequested = true
  served : after.pc.serving = false → s.pc.serving = false ∨
    s.pc = .resume .clearBlackout ∨ after.pc.stopping = true
  announced : after.pc.stopping = false → after.pc.announced =
    if s.pc = .entry .activeStore then true
    else if s.pc = .resume .clearActive then false
    else s.pc.announced
  publishing : after.pc.publishing = true →
    s.pc.publishing = true ∨ s.pc = .resume .clearActive
  published : s.pc.publishing = true →
    after.pc.publishing = true ∨ s.pc = .resume .clearResume
  retracted : s.pc = .resume .clearActive → after.pc.publishing = true
  settingDone : after.pc = .resume .setDone → s.pc = .resume .enable
  leaving : after.pc = .idle .leave → s.pc ≠ .resume .clearResume ∧
    (s.flags.resumeRequested = true ∨ s.flags.shutdownRequested = true)
  resuming : after.pc.resuming = true →
    s.pc.resuming = true ∧ s.pc ≠ .resume .clearResume ∨
    s.pc = .idle .leave ∧ s.flags.shutdownRequested = false
  awaitingDone : after.pc.awaitingDone = true →
    s.pc.awaitingDone = true ∧ s.pc ≠ .resume .setDone ∨
    s.pc = .entry .clearDone
  controlStopped : after.pc.controlStopped = true →
    s.pc ≠ .startup .startServers ∧
      (s.pc.controlStopped = true ∨ s.control.stopped = true)

section Main

variable {s after : State} {input : MainInput}

theorem startupStep_effect {point : StartupPc} (located : s.pc = .startup point)
    (taken : startupStep s input point = some after) : MainEffect s after := by
  cases point with
  | initBase | startServers =>
      cases taken
      cases input.success <;> constructor <;> simp [located, State.createContext]
  | queryModel =>
      cases taken
      cases input.success <;> cases nextThread firstThread <;>
        constructor <;> simp [located]
  | dupContext i =>
      cases taken
      cases input.success <;> cases nextThread i <;>
        constructor <;> simp [located, State.createContext]
  | loadCamera =>
      cases taken
      cases input.success <;> constructor <;> simp [located]
  | initPool | spawn =>
      cases taken
      constructor <;> simp [located]

theorem captureStep_effect {site : CaptureSite} {stage : CaptureStage}
    (located : s.pc = .capture site stage)
    (taken : captureStep s input site stage = some after) :
    MainEffect s after := by
  cases stage with
  | acquire =>
      simp only [captureStep] at taken
      split at taken
      · cases taken
        constructor <;> simp [located]
      · contradiction
  | submit slot captureUs =>
      cases taken
      cases input.success <;> constructor <;> simp [located]
  | stamp =>
      cases taken
      rcases afterCapture_outside site with next | ⟨site', next⟩ <;>
        constructor <;> simp [located, next]

theorem entryStep_effect {point : EntryPc} (located : s.pc = .entry point)
    (taken : entryStep s point = some after) : MainEffect s after := by
  cases point with
  | lock | activeLock =>
      rcases State.lock_map_eq_some taken with ⟨free, rfl⟩
      constructor <;> simp [located, free]
  | clearActive | clearDone | unlock | drainRelease | activeStore
  | activeUnlock =>
      cases taken
      constructor <;> simp [located, State.unlock]
  | drainTest =>
      cases taken
      by_cases flight : 0 < s.inFlight <;> constructor <;>
        simp [located, flight]
  | drainPop =>
      simp only [entryStep] at taken
      split at taken
      · cases taken
        constructor <;> simp [located]
      · contradiction
  | destroy i =>
      cases taken
      cases nextThread i <;> constructor <;>
        simp [located, State.destroyContext]

theorem idleStep_effect {point : IdlePc} (located : s.pc = .idle point)
    (taken : idleStep s point = some after) : MainEffect s after := by
  cases point with
  | testResume =>
      cases taken
      cases seen : s.flags.resumeRequested <;> constructor <;>
        simp [located, seen]
  | testShutdown | leave =>
      cases taken
      cases stop : s.flags.shutdownRequested <;> constructor <;>
        simp [located, stop]

theorem resumeStep_effect {point : ResumePc} (located : s.pc = .resume point)
    (taken : resumeStep s input point = some after) : MainEffect s after := by
  cases point with
  | initContext =>
      cases taken
      cases input.success <;> cases nextThread firstThread <;>
        constructor <;> simp [located, State.createContext]
  | dupContext i =>
      cases taken
      cases input.success <;> cases nextThread i <;>
        constructor <;> simp [located, State.createContext]
  | assignContext i =>
      cases taken
      cases nextThread i <;> constructor <;>
        simp [located, State.assignContext]
  | drainCamera =>
      cases taken
      cases input.success <;> constructor <;> simp [located]
  | lock =>
      rcases State.lock_map_eq_some taken with ⟨free, rfl⟩
      constructor <;> simp [located, free]
  | initFailed | clearActive | enable | setDone | unlock | clearBlackout
  | clearResume =>
      cases taken
      constructor <;> simp [located, State.unlock]

theorem bodyStep_effect {point : BodyPc} (located : s.pc = .body point)
    (taken : bodyStep s input point = some after) : MainEffect s after := by
  cases point with
  | popResult =>
      simp only [bodyStep] at taken
      split at taken
      · cases taken
        constructor <;> simp [located]
      · contradiction
  | display | publish | recycle =>
      cases taken
      constructor <;> simp [located]

theorem teardownStep_effect {point : TeardownPc}
    (located : s.pc = .teardown point)
    (taken : teardownStep s input point = some after) : MainEffect s after := by
  cases point with
  | stopControl | closeListen | deinitPool =>
      cases taken
      constructor <;> simp [located]
  | closeCamera =>
      cases taken
      cases input.success <;> constructor <;> simp [located]
  | joinData | deinitOutput =>
      simp only [teardownStep] at taken
      split at taken
      · cases taken
        constructor <;> simp [located]
      · contradiction
  | joinControl =>
      simp only [teardownStep] at taken
      split at taken
      next joined =>
        cases taken
        rcases joined with joined | joined <;> constructor <;>
          simp [located, joined]
      next => contradiction
  | pushSentinel i =>
      cases taken
      cases nextThread i <;> constructor <;> simp [located]
  | joinWorker i =>
      simp only [teardownStep] at taken
      split at taken
      · cases taken
        cases nextThread i <;> constructor <;> simp [located]
      · contradiction
  | destroy i =>
      cases taken
      cases nextThread i <;> constructor <;>
        simp [located, State.destroyContext]

/-- Everything one step of the main thread can do to the flags. -/
theorem mainStep_effect (taken : mainStep s input = some after) :
    MainEffect s after := by
  simp only [mainStep] at taken
  split at taken
  case h_1 point located => exact startupStep_effect located taken
  case h_2 site stage located => exact captureStep_effect located taken
  case h_3 located =>
    cases taken
    cases s.flags.shutdownRequested <;> constructor <;> simp [located]
  case h_4 located =>
    cases taken
    cases wanted : s.flags.blackoutRequested <;> constructor <;>
      simp [located, wanted]
  case h_5 point located => exact entryStep_effect located taken
  case h_6 point located => exact idleStep_effect located taken
  case h_7 point located => exact resumeStep_effect located taken
  case h_8 point located => exact bodyStep_effect located taken
  case h_9 point located => exact teardownStep_effect located taken
  all_goals contradiction

/-- A failed camera call is the only way out of the process. -/
theorem exited_start {call : CameraCall} (taken : mainStep s input = some after)
    (exited : after.pc = .exited call) :
    s.pc.camera = true ∧ input.success = false := by
  have camera := (mainStep_effect taken).exited call exited
  refine ⟨camera, ?_⟩
  cases called : input.success with
  | false => rfl
  | true =>
      cases located : s.pc with
      | startup point | resume point | teardown point =>
          cases point <;> simp [located] at camera
          simp only [mainStep, located, startupStep, resumeStep, teardownStep,
            called, if_true, Option.some.injEq] at taken
          simp [← taken] at exited
      | capture site stage =>
          cases stage <;> simp [located] at camera
          simp only [mainStep, located, captureStep, called, if_true,
            Option.some.injEq] at taken
          simp [← taken] at exited
      | _ => simp [located] at camera

/-- The resume path is entered from the idle loop only. -/
theorem resuming_start (taken : mainStep s input = some after)
    (resuming : after.pc.resuming = true) :
    (∃ point, s.pc = .resume point ∧ resumeStep s input point = some after) ∨
      s.pc = .idle .leave ∧ after.pc = .resume .initContext := by
  rcases (mainStep_effect taken).resuming resuming with
    ⟨before, _⟩ | ⟨located, noShutdown⟩
  · cases located : s.pc with
    | resume point =>
        exact Or.inl ⟨point, rfl, by simpa only [mainStep, located] using taken⟩
    | exited call => simp [mainStep, located] at taken
    | _ => simp [located] at before
  · simp only [mainStep, located, idleStep, noShutdown, Option.some.injEq] at taken
    exact Or.inr ⟨located, by simp [← taken]⟩

/-- `rknn_init` failing on resume is the only way to its error branch. -/
theorem initFailed_start (taken : mainStep s input = some after)
    (failed : after.pc = .resume .initFailed) :
    s.pc = .resume .initContext ∧ input.success = false := by
  rcases resuming_start taken (by simp [failed]) with
    ⟨point, located, stepped⟩ | ⟨_, started⟩
  · cases point with
    | initContext =>
        cases stepped
        cases called : input.success with
        | true => cases next : nextThread firstThread <;> simp [called, next] at failed
        | false => exact ⟨located, rfl⟩
    | dupContext i | assignContext i =>
        cases stepped
        cases next : nextThread i <;> simp [next] at failed
    | drainCamera =>
        cases stepped
        cases called : input.success <;> simp [called] at failed
    | lock =>
        rcases State.lock_map_eq_some stepped with ⟨_, rfl⟩
        simp at failed
    | initFailed | clearActive | enable | setDone | unlock | clearBlackout
    | clearResume =>
        cases stepped
        simp at failed
  · simp [started] at failed

end Main

/-! ## The control thread -/

/-- The effect of one control step: it touches nothing but flags, its own
program counter and one history variable. -/
structure ControlEffect (s after : State) : Prop where
  pc : after.pc = s.pc
  inFlight : after.inFlight = s.inFlight
  frameCounter : after.frameCounter = s.frameCounter
  ctxs : after.ctxs = s.ctxs
  threadCtx : after.threadCtx = s.threadCtx
  rknn : after.rknn = s.rknn
  pool : after.pool = s.pool
  inferQ : after.inferQ = s.inferQ
  resultQ : after.resultQ = s.resultQ
  workers : after.workers = s.workers
  displayed : after.displayed = s.displayed
  published : after.published = s.published
  history : after.history =
    { s.history with resumeDispatched := after.history.resumeDispatched }
  resumeDispatched : s.history.resumeDispatched = true →
    after.history.resumeDispatched = true
  inferenceEnabled : s.control ≠ .recv →
    after.flags.inferenceEnabled = s.flags.inferenceEnabled
  blackoutRequested : after.flags.blackoutRequested =
    if s.control = .blackoutRequest then true else s.flags.blackoutRequested
  blackoutActive : after.flags.blackoutActive = s.flags.blackoutActive
  resumeRequested : after.flags.resumeRequested =
    if s.control = .resumeRequest then true else s.flags.resumeRequested
  resumeDone : after.flags.resumeDone = s.flags.resumeDone
  shutdownRequested : s.flags.shutdownRequested = true →
    after.flags.shutdownRequested = true
  running : s.control.stopped = false
  mainMutex :
    (s.flags.lifecycleMutex = some .control ↔ s.control.holdsMutex = true) →
    (after.flags.lifecycleMutex = some .main ↔
      s.flags.lifecycleMutex = some .main)
  controlMutex :
    (s.flags.lifecycleMutex = some .control ↔ s.control.holdsMutex = true) →
    (after.flags.lifecycleMutex = some .control ↔
      after.control.holdsMutex = true)
  waitingBlackout : after.control.waitingBlackout = true →
    s.control.waitingBlackout = true ∨ s.control = .blackoutRequest
  inBlackout : after.control.inBlackout = true →
    s.control.inBlackout = true ∨ s.control = .recv
  blackoutOk : after.control.blackoutOk = true →
    s.control.blackoutOk = true ∨
      s.control.testingBlackout = true ∧ s.flags.blackoutActive = true
  inResume : after.control.inResume = true → s.control.inResume = true ∨
    s.flags.blackoutActive = true ∧ after.history.resumeDispatched = true
  resumeOk : after.control.resumeOk = true →
    s.control.resumeOk = true ∨ s.flags.resumeDone = true

section Control

variable {s after : State} {input : ControlInput}

theorem dispatchCommand_effect (command : Command)
    (located : s.control = .recv) :
    ControlEffect s (dispatchCommand s command) := by
  cases command with
  | setDumpEnabled enabled =>
      cases enabled <;> constructor <;> simp [dispatchCommand, located]
  | resume =>
      cases active : s.flags.blackoutActive <;> constructor <;>
        simp [dispatchCommand, located, active]
  | _ => constructor <;> simp [dispatchCommand, located]

theorem waitStep_effect {command : WaitCommand} {point : WaitPc}
    (located : s.control = .wait command point)
    (taken : waitStep s command input point = some after) :
    ControlEffect s after := by
  cases point with
  | lock =>
      cases input with
      | go =>
          rcases State.lock_map_eq_some taken with ⟨free, rfl⟩
          cases command <;> constructor <;> simp [located, free]
      | _ => contradiction
  | test expired =>
      cases input with
      | go =>
          cases taken
          cases met : command.pred s.flags <;> cases expired <;>
            cases command <;> simp only [WaitCommand.pred] at met <;>
            constructor <;> simp_all [State.unlock]
      | _ => contradiction
  | asleep =>
      cases input with
      | wake expired =>
          rcases State.lock_map_eq_some taken with ⟨free, rfl⟩
          cases command <;> constructor <;> simp [located, free]
      | _ => contradiction

/-- Everything one step of the control thread can do. -/
theorem controlStep_effect (taken : controlStep s input = some after) :
    ControlEffect s after := by
  simp only [controlStep] at taken
  split at taken
  case h_1 located =>
    cases taken
    cases s.running <;> constructor <;> simp [located]
  case h_2 located =>
    split at taken
    · cases taken
      constructor <;> simp [located]
    · contradiction
  case h_4 located =>
    cases taken
    cases s.running <;> constructor <;> simp [located]
  case h_6 command located =>
    cases taken
    exact dispatchCommand_effect command located
  case h_9 located => exact waitStep_effect located taken
  case h_10 command response located =>
    cases taken
    cases command <;> cases response <;> constructor <;>
      simp_all [State.unlock, WaitCommand.command]
  case h_11 command response located =>
    cases taken
    cases command <;> cases response <;> constructor <;> simp [located]
  case h_12 command response located =>
    cases taken
    cases command <;> cases response <;> constructor <;> simp [located]
  case h_13 => contradiction
  all_goals
    rename_i located
    cases taken
    constructor <;> simp [located]

end Control

/-! ## The inference threads -/

/-- What an inference thread's step leaves alone. -/
structure WorkerFrame (s after : State) : Prop where
  flags : after.flags = s.flags
  control : after.control = s.control
  pc : after.pc = s.pc
  inFlight : after.inFlight = s.inFlight
  frameCounter : after.frameCounter = s.frameCounter
  ctxs : after.ctxs = s.ctxs
  threadCtx : after.threadCtx = s.threadCtx
  rknn : after.rknn = s.rknn
  pool : after.pool = s.pool
  displayed : after.displayed = s.displayed
  published : after.published = s.published
  blackouts : after.history.blackouts = s.history.blackouts
  createdAtBlackout :
    after.history.createdAtBlackout = s.history.createdAtBlackout
  resumeDispatched :
    after.history.resumeDispatched = s.history.resumeDispatched
  doneOf : after.history.doneOf = s.history.doneOf
  submitted : after.history.submitted = s.history.submitted

theorem workerStep_frame {s after : State} {i : Fin nThreads}
    {input : WorkerInput} (taken : workerStep s i input = some after) :
    WorkerFrame s after := by
  simp only [workerStep] at taken
  split at taken
  case h_3 =>
    split at taken
    · contradiction
    next job inferQ _ =>
      cases taken
      cases job.bufIdx <;> constructor <;> rfl
  case h_1 | h_2 => contradiction
  all_goals
    cases taken
    constructor <;> rfl

end KhadasYolo.Pipeline
