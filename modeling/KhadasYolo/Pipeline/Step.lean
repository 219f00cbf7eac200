import KhadasYolo.Lib.TransitionSystem
import KhadasYolo.Pipeline.State

/-!
# Steps of the inference pipeline process

One step function for each thread, split as `main.cc` is: startup,
`capture_and_submit`, blackout entry, the idle loop, the resume path, the
ordinary iteration, and teardown.  `none` means that the thread blocks, or that
the input does not fit the point it is at.
-/

namespace KhadasYolo.Pipeline

open TransitionSystem

/-- What the environment supplies to a step of the main thread: whether the
library call made there reports success, whether the thread joined there, one
that this model leaves out, has ended, and the clock. -/
structure MainInput where
  success : Bool := true
  joined : Bool := true
  clockUs : Nat := 0
  deriving DecidableEq, Repr

/-- What the environment supplies to the control thread. -/
inductive ControlInput where
  /-- carry on -/
  | go
  /-- `accept` returns a connection -/
  | connected
  /-- `accept`, `recv` or `send` fails, or the client has closed -/
  | failed
  | request (command : Command)
  /-- `wait_for` wakes up, by a notification, spuriously or on expiry -/
  | wake (expired : Bool)
  deriving DecidableEq, Repr

/-- What the NPU and the clock supply to an inference thread: the decoded
detections and the measured inference time. -/
structure WorkerInput where
  group : DetectResultGroup := {}
  inferUs : Nat := 0
  deriving DecidableEq, Repr

inductive Label where
  | main (input : MainInput)
  | control (input : ControlInput)
  | worker (i : Fin nThreads) (input : WorkerInput)
  deriving DecidableEq, Repr

namespace State

/-- A successful `rknn_init` or `rknn_dup_context` into `ctxs[i]`. -/
def createContext (s : State) (i : Fin nThreads) : State :=
  { s with
    ctxs := Function.update s.ctxs i (some s.rknn.created)
    rknn := { s.rknn with created := s.rknn.created + 1 } }

/-- `rknn_destroy(ctxs[i])`. -/
def destroyContext (s : State) (i : Fin nThreads) : State :=
  { s with rknn := { s.rknn with destroyed := s.rknn.destroyed ++ [s.ctxs i] } }

/-- `tctxs[i].ctx = ctxs[i]`. -/
def assignContext (s : State) (i : Fin nThreads) : State :=
  { s with threadCtx := Function.update s.threadCtx i (s.ctxs i) }

/-- Lock `lifecycle_mutex`; blocks while another thread holds it. -/
def lock (s : State) (thread : Thread) : Option State :=
  if s.flags.lifecycleMutex = none then
    some { s with flags := { s.flags with lifecycleMutex := some thread } }
  else none

def unlock (s : State) : State :=
  { s with flags := { s.flags with lifecycleMutex := none } }

end State

/-! ## Main thread -/

/-- Model loading, context creation, pool and thread setup.  `ctxs[0]` stands
for `base_ctx` from the start, and a call that reports an error leaves its
out-parameter alone. -/
def startupStep (s : State) (input : MainInput) : StartupPc → Option State
  | .initBase =>
      some <| if input.success then
        { s.createContext firstThread with pc := .startup .queryModel }
      else { s with pc := .aborted }
  | .queryModel =>
      some { s with
        pc := if input.success then
            match nextThread firstThread with
            | some i => .startup (.dupContext i)
            | none => .startup .initPool
          else .aborted }
  | .dupContext i =>
      some <| if input.success then
        { s.createContext i with
          pc := match nextThread i with
            | some j => .startup (.dupContext j)
            | none => .startup .initPool }
      else { s with pc := .aborted }
  | .initPool => some { s with pool := s.pool.init, pc := .startup .spawn }
  | .spawn =>
      some { s with
        threadCtx := s.ctxs
        workers := fun _ => .popping
        pc := .startup .startServers }
  | .startServers =>
      -- a failed bind leaves the control thread unspawned
      some <| if input.success then
        { s with
          running := true
          listenOpen := true
          control := .listen
          pc := .startup .loadCamera }
      else { s with pc := .startup .loadCamera }
  | .loadCamera =>
      -- the value `load_mipi_camera` returns is ignored, a failed ioctl exits
      some { s with
        pc := if input.success then .capture (.prefill firstThread) .acquire
          else .exited .load }

/-- Where control continues after `capture_and_submit(); ++in_flight;`. -/
def afterCapture : CaptureSite → MainPc
  | .prefill i =>
      match nextThread i with
      | some j => .capture (.prefill j) .acquire
      | none => .loopTop
  | .body => .loopTop
  | .refill i =>
      match nextThread i with
      | some j => .capture (.refill j) .acquire
      | none => .loopTop

/-- `capture_and_submit`, with the increment of `in_flight` that follows every
call.  The camera is read between `acquire` and the push, and a failed ioctl
there ends the process.  `frame_counter` is a `uint64_t`. -/
def captureStep (s : State) (input : MainInput) (site : CaptureSite) :
    CaptureStage → Option State
  | .acquire =>
      match s.pool.acquire with
      | some (slot, pool) =>
          some { s with pool, pc := .capture site (.submit slot input.clockUs) }
      | none => none
  | .submit slot captureUs =>
      some <| if input.success then
        { s with
          inferQ := s.inferQ.push ⟨some slot, s.frameCounter, captureUs⟩
          frameCounter := (s.frameCounter + 1) % 2 ^ 64
          history := { s.history with
            submitted := s.history.submitted ++ [s.frameCounter] }
          pc := .capture site .stamp }
      else { s with pc := .exited (.frame slot) }
  | .stamp =>
      some { s with
        flags := { s.flags with frameId := s.frameCounter }
        inFlight := s.inFlight + 1
        pc := afterCapture site }

/-- The blackout branch up to and including `blackout_active = true`. -/
def entryStep (s : State) : EntryPc → Option State
  | .lock => (s.lock .main).map fun s => { s with pc := .entry .clearActive }
  | .clearActive =>
      some { s with
        flags := { s.flags with blackoutActive := false }
        pc := .entry .clearDone }
  | .clearDone =>
      some { s with
        flags := { s.flags with resumeDone := false }
        pc := .entry .unlock }
  | .unlock => some { s.unlock with pc := .entry .drainTest }
  | .drainTest =>
      some { s with
        pc := if 0 < s.inFlight then .entry .drainPop
          else .entry (.destroy firstThread) }
  | .drainPop =>
      match s.resultQ.pop with
      | some (drain, resultQ) =>
          some { s with resultQ, pc := .entry (.drainRelease drain.bufIdx) }
      | none => none
  | .drainRelease slot =>
      some { s with
        pool := s.pool.release slot
        inFlight := s.inFlight - 1
        pc := .entry .drainTest }
  | .destroy i =>
      some { s.destroyContext i with
        pc := match nextThread i with
          | some j => .entry (.destroy j)
          | none => .entry .activeLock }
  | .activeLock =>
      (s.lock .main).map fun s => { s with pc := .entry .activeStore }
  | .activeStore =>
      some { s with
        flags := { s.flags with blackoutActive := true }
        history := { s.history with
          blackouts := s.history.blackouts + 1
          createdAtBlackout := s.rknn.created
          resumeDispatched := false }
        pc := .entry .activeUnlock }
  | .activeUnlock => some { s.unlock with pc := .idle .testResume }

/-- The idle loop tests `resume_requested` first; after it only
`shutdown_requested` is looked at again. -/
def idleStep (s : State) : IdlePc → Option State
  | .testResume =>
      some { s with
        pc := if s.flags.resumeRequested then .idle .leave
          else .idle .testShutdown }
  | .testShutdown =>
      some { s with
        pc := if s.flags.shutdownRequested then .idle .leave
          else .idle .testResume }
  | .leave =>
      some { s with
        pc := if s.flags.shutdownRequested then .teardown .stopControl
          else .resume .initContext }

/-- The resume path.  The result of `rknn_dup_context` is ignored here, unlike
at startup. -/
def resumeStep (s : State) (input : MainInput) : ResumePc → Option State
  | .initContext =>
      some <| if input.success then
        { s.createContext firstThread with
          pc := match nextThread firstThread with
            | some i => .resume (.dupContext i)
            | none => .resume (.assignContext firstThread) }
      else { s with pc := .resume .initFailed }
  | .initFailed =>
      some { s with
        flags := { s.flags with shutdownRequested := true }
        pc := .teardown .stopControl }
  | .dupContext i =>
      some { (if input.success then s.createContext i else s) with
        pc := match nextThread i with
          | some j => .resume (.dupContext j)
          | none => .resume (.assignContext firstThread) }
  | .assignContext i =>
      some { s.assignContext i with
        pc := match nextThread i with
          | some j => .resume (.assignContext j)
          | none => .resume .drainCamera }
  | .drainCamera =>
      some { s with
        pc := if input.success then .resume .lock else .exited .drain }
  | .lock => (s.lock .main).map fun s => { s with pc := .resume .clearActive }
  | .clearActive =>
      some { s with
        flags := { s.flags with blackoutActive := false }
        pc := .resume .enable }
  | .enable =>
      some { s with
        flags := { s.flags with inferenceEnabled := true }
        pc := .resume .setDone }
  | .setDone =>
      some { s with
        flags := { s.flags with resumeDone := true }
        history := { s.history with doneOf := s.history.blackouts }
        pc := .resume .unlock }
  | .unlock => some { s.unlock with pc := .resume .clearBlackout }
  | .clearBlackout =>
      some { s with
        flags := { s.flags with blackoutRequested := false }
        pc := .resume .clearResume }
  | .clearResume =>
      some { s with
        flags := { s.flags with resumeRequested := false }
        pc := .capture (.refill firstThread) .acquire }

/-- One ordinary iteration: take a result, display it, publish it, recycle its
buffer. -/
def bodyStep (s : State) (input : MainInput) : BodyPc → Option State
  | .popResult =>
      match s.resultQ.pop with
      | some (res, resultQ) =>
          some { s with
            resultQ
            inFlight := s.inFlight - 1
            pc := .body (.display res input.clockUs) }
      | none => none
  | .display res startUs =>
      some { s with
        displayed := s.displayed ++ [res.frameId]
        pc := .body (.publish res startUs) }
  | .publish res startUs =>
      some { s with
        published := s.published ++ [⟨res.frameId, startUs, res.group⟩]
        pc := .body (.recycle res.bufIdx) }
  | .recycle slot =>
      some { s with
        pool := s.pool.release slot
        pc := .capture .body .acquire }

/-- Teardown.  `join` blocks until the joined thread has left its loop.  The
listening socket of the data plane and the queue to its sender are closed with
the join of that thread. -/
def teardownStep (s : State) (input : MainInput) : TeardownPc → Option State
  | .stopControl => some { s with running := false, pc := .teardown .closeListen }
  | .closeListen => some { s with listenOpen := false, pc := .teardown .joinControl }
  | .joinControl =>
      if s.control = .off ∨ s.control = .exited then
        some { s with pc := .teardown .joinData }
      else none
  | .joinData =>
      if input.joined then
        some { s with pc := .teardown (.pushSentinel firstThread) }
      else none
  | .pushSentinel i =>
      some { s with
        inferQ := s.inferQ.push .sentinel
        pc := match nextThread i with
          | some j => .teardown (.pushSentinel j)
          | none => .teardown (.joinWorker firstThread) }
  | .joinWorker i =>
      if s.workers i = .exited then
        some { s with
          pc := match nextThread i with
            | some j => .teardown (.joinWorker j)
            | none => .teardown .closeCamera }
      else none
  | .closeCamera =>
      some { s with
        pc := if input.success then .teardown .deinitOutput else .exited .close }
  | .deinitOutput =>
      if input.joined then some { s with pc := .teardown .deinitPool } else none
  | .deinitPool =>
      some { s with pool := s.pool.deinit, pc := .teardown (.destroy firstThread) }
  | .destroy i =>
      some { s.destroyContext i with
        pc := match nextThread i with
          | some j => .teardown (.destroy j)
          | none => .returned }

def mainStep (s : State) (input : MainInput) : Option State :=
  match s.pc with
  | .startup point => startupStep s input point
  | .capture site stage => captureStep s input site stage
  | .loopTop =>
      some { s with
        pc := if s.flags.shutdownRequested then .teardown .stopControl
          else .checkBlackout }
  | .checkBlackout =>
      some { s with
        pc := if s.flags.blackoutRequested then .entry .lock
          else .body .popResult }
  | .entry point => entryStep s point
  | .idle point => idleStep s point
  | .resume point => resumeStep s input point
  | .body point => bodyStep s input point
  | .teardown point => teardownStep s input point
  | .aborted | .exited _ | .returned => none

/-! ## Control thread -/

/-- `dispatchCommand` up to its first access to the shared state. -/
def dispatchCommand (s : State) : Command → State
  | .pauseYolo =>
      { s with
        flags := { s.flags with inferenceEnabled := false }
        control := .reply .pauseYolo .ok }
  | .resumeYolo =>
      { s with
        flags := { s.flags with inferenceEnabled := true }
        control := .reply .resumeYolo .ok }
  | .getStatus =>
      { s with
        control := .reply .getStatus
          (.status s.flags.inferenceEnabled s.flags.dumpEnabled s.flags.frameId) }
  | .setDumpEnabled none =>
      { s with
        control := .reply (.setDumpEnabled none)
          (.error "missing 'enabled' param (expected true/false)") }
  | .setDumpEnabled (some enabled) =>
      { s with
        flags := { s.flags with dumpEnabled := enabled }
        control := .reply (.setDumpEnabled (some enabled)) .ok }
  | .shutdown =>
      { s with
        flags := { s.flags with shutdownRequested := true }
        control := .reply .shutdown .ok }
  | .blackout =>
      { s with
        flags := { s.flags with inferenceEnabled := false }
        control := .blackoutRequest }
  | .resume =>
      { s with
        history := { s.history with resumeDispatched := true }
        control := if s.flags.blackoutActive then .resumeRequest
          else .reply .resume (.error "not in blackout") }
  | .unknown => { s with control := .reply .unknown (.error "unknown command") }

/-- `wait_for(lk, timeout, pred)` after the constructor of `lk`: the predicate is
evaluated with the mutex held, once more after the timeout has fired. -/
def waitStep (s : State) (command : WaitCommand) (input : ControlInput) :
    WaitPc → Option State
  | .lock =>
      match input with
      | .go =>
          (s.lock .control).map fun s => { s with control := .wait command (.test false) }
      | _ => none
  | .test expired =>
      match input with
      | .go =>
          some <| if command.pred s.flags then
            { s with control := .waited command .ok }
          else if expired then
            { s with control := .waited command (.error command.timeoutMessage) }
          else { s.unlock with control := .wait command .asleep }
      | _ => none
  | .asleep =>
      match input with
      | .wake expired =>
          (s.lock .control).map fun s => { s with control := .wait command (.test expired) }
      | _ => none

/-- The control thread: `listenerLoop`, `handleConnection`, `dispatchCommand`. -/
def controlStep (s : State) (input : ControlInput) : Option State :=
  match s.control, input with
  | .listen, .go => some { s with control := if s.running then .accept else .exited }
  | .accept, .connected =>
      if s.listenOpen then some { s with control := .serve } else none
  | .accept, .failed => some { s with control := .exited }
  | .serve, .go => some { s with control := if s.running then .recv else .listen }
  | .recv, .failed => some { s with control := .listen }
  | .recv, .request command => some (dispatchCommand s command)
  | .blackoutRequest, .go =>
      some { s with
        flags := { s.flags with blackoutRequested := true }
        control := .wait .blackout .lock }
  | .resumeRequest, .go =>
      some { s with
        flags := { s.flags with resumeRequested := true }
        control := .wait .resume .lock }
  | .wait command point, input => waitStep s command input point
  | .waited command response, .go =>
      some { s.unlock with control := .reply command.command response }
  | .reply _ _, .go => some { s with control := .serve }
  | .reply _ _, .failed => some { s with control := .listen }
  | _, _ => none

/-! ## Inference threads -/

/-- The RKNN call after this one, `none` after the last. -/
def RknnCall.next : RknnCall → Option RknnCall
  | .inputsSet => some .run
  | .run => some .outputsGet
  | .outputsGet => some .outputsRelease
  | .outputsRelease => none

/-- `inference_thread`. -/
def workerStep (s : State) (i : Fin nThreads) (input : WorkerInput) : Option State :=
  match s.workers i with
  | .unstarted | .exited => none
  | .popping =>
      match s.inferQ.pop with
      | none => none
      | some (job, inferQ) =>
          some <| match job.bufIdx with
            | some slot =>
                { s with
                  inferQ
                  workers := Function.update s.workers i
                    (.check slot job.frameId job.captureUs) }
            | none =>
                { s with
                  inferQ
                  history := { s.history with
                    sentinels := Function.update s.history.sentinels i
                      (s.history.sentinels i + 1) }
                  workers := Function.update s.workers i .exited }
  | .check slot frameId captureUs =>
      some { s with
        workers := Function.update s.workers i <|
          if s.flags.inferenceEnabled then .rknn slot frameId captureUs .inputsSet
          else .emit ⟨slot, {}, frameId, captureUs, 0⟩ }
  | .rknn slot frameId captureUs call =>
      some { s with
        workers := Function.update s.workers i <|
          match call.next with
          | some call => .rknn slot frameId captureUs call
          | none => .emit ⟨slot, input.group, frameId, captureUs, input.inferUs⟩ }
  | .emit result =>
      some { s with
        resultQ := s.resultQ.push result
        history := { s.history with
          processed := s.history.processed ++ [result.frameId] }
        workers := Function.update s.workers i .popping }

/-! ## The system -/

def step (s : State) : Label → Option State
  | .main input => mainStep s input
  | .control input => controlStep s input
  | .worker i input => workerStep s i input

/-- The process from the first RKNN call of `main` on, under every schedule. -/
def system : System State Label where
  init := {}
  step := step

end KhadasYolo.Pipeline
