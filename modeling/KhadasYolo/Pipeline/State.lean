import Mathlib.Data.Fintype.Pi
import Mathlib.Data.Rat.Defs

/-!
# State of the inference pipeline process

The data of `main.cc` and of the control server that shares its process: the
atomics of `YoloControlState`, the frame-buffer pool, the two job queues, the
RKNN contexts, and one program counter for each thread.

Every atomic access, queue operation and RKNN call is one step of its own, so a
program counter names the next such access.  Work that touches no shared state
(drawing, colour conversion, timing) is folded into the neighbouring step.
Fields that no modelled access reads, such as the performance averages, are left
out.
-/

namespace KhadasYolo.Pipeline

/-- `N_THREADS`: inference threads, one per NPU core. -/
def nThreads : Nat := 3

/-- `N_BUF`: slots in the frame-buffer pool. -/
def nBuf : Nat := nThreads + 2

-- the zero that numerals of `Fin` refer to
instance : @NeZero Nat Zero.ofOfNat0 nThreads := ⟨Nat.succ_ne_zero 2⟩

/-- The first thread of every `for (int i = 0; i < N_THREADS; i++)` loop. -/
def firstThread : Fin nThreads := 0

/-- The loop increment `i++` with its bound test: `none` leaves the loop. -/
def nextThread (i : Fin nThreads) : Option (Fin nThreads) :=
  if inBounds : i.val + 1 < nThreads then some ⟨i.val + 1, inBounds⟩ else none

theorem nextThread_some {i j : Fin nThreads} (next : nextThread i = some j) :
    j.val = i.val + 1 := by
  simp only [nextThread] at next
  split at next
  · cases next
    rfl
  · contradiction

theorem nextThread_none {i : Fin nThreads} (last : nextThread i = none) :
    i.val + 1 = nThreads := by
  simp only [nextThread] at last
  split at last
  · contradiction
  · next outside =>
      have inside := i.isLt
      omega

/-! ## Messages -/

/-- `BOX_RECT`. -/
structure BoxRect where
  left : Int
  right : Int
  top : Int
  bottom : Int
  deriving DecidableEq, Repr

/-- `detect_result_t`; the name holds the bytes before its terminating NUL. -/
structure DetectResult where
  name : List UInt8
  box : BoxRect
  prop : Rat
  deriving DecidableEq, Repr

/-- `detect_result_group_t`; its `count` is the length of the list. -/
structure DetectResultGroup where
  results : List DetectResult := []
  deriving DecidableEq, Repr

/-- A job for the inference threads.  The source's negative `buf_idx`, the
shutdown sentinel, is `none`. -/
structure InferJob where
  bufIdx : Option (Fin nBuf)
  frameId : Nat
  captureUs : Nat
  deriving DecidableEq, Repr

/-- The job `{-1, 0.f, 0.f, 0, 0}` that ends one inference thread. -/
def InferJob.sentinel : InferJob := ⟨none, 0, 0⟩

/-- A result on its way back to the main thread. -/
structure InferResult where
  bufIdx : Fin nBuf
  group : DetectResultGroup
  frameId : Nat
  captureUs : Nat
  inferUs : Nat
  deriving DecidableEq, Repr

/-- What the main loop hands to `data_pub.publish`. -/
structure DetectionMessage where
  frameId : Nat
  timestampUs : Nat
  group : DetectResultGroup
  deriving DecidableEq, Repr

/-! ## Queues and the buffer pool -/

/-- `TSQueue<T>`: push and pop run under the queue's own mutex, hence in one
step each; `pop` blocks, here `none`, while the queue is empty. -/
structure TSQueue (α : Type) where
  items : List α := []

namespace TSQueue

variable {α : Type}

def push (queue : TSQueue α) (item : α) : TSQueue α :=
  ⟨queue.items ++ [item]⟩

def pop (queue : TSQueue α) : Option (α × TSQueue α) :=
  match queue.items with
  | [] => none
  | item :: rest => some (item, ⟨rest⟩)

@[simp] theorem items_push (queue : TSQueue α) (item : α) :
    (queue.push item).items = queue.items ++ [item] := rfl

theorem pop_eq_some {queue rest : TSQueue α} {item : α} :
    queue.pop = some (item, rest) ↔ queue.items = item :: rest.items := by
  cases queue with
  | mk items =>
    cases rest with
    | mk tail =>
      cases items <;> simp [pop]

end TSQueue

/-- `BufPool`: the free list of slot indices, and whether `deinit` has deleted
the buffers. -/
structure BufPool where
  freeList : TSQueue (Fin nBuf) := {}
  deinited : Bool := false

namespace BufPool

/-- `init`: every slot starts on the free list, in index order. -/
def init (pool : BufPool) : BufPool :=
  { pool with freeList := ⟨pool.freeList.items ++ List.finRange nBuf⟩ }

/-- `acquire` blocks while no slot is free. -/
def acquire (pool : BufPool) : Option (Fin nBuf × BufPool) :=
  pool.freeList.pop.map fun (slot, rest) => (slot, { pool with freeList := rest })

def release (pool : BufPool) (slot : Fin nBuf) : BufPool :=
  { pool with freeList := pool.freeList.push slot }

def deinit (pool : BufPool) : BufPool :=
  { pool with deinited := true }

end BufPool

/-! ## RKNN contexts -/

/-- A context handle, numbered by the call that created it. -/
abbrev Handle := Nat

/-- The RKNN runtime as this process sees it: a successful `rknn_init` or
`rknn_dup_context` returns a fresh handle, and `destroyed` lists the arguments
of all `rknn_destroy` calls so far, oldest first. -/
structure Rknn where
  created : Nat := 0
  destroyed : List (Option Handle) := []

/-- A handle is live from its creation to the first `rknn_destroy` on it. -/
def Rknn.Live (rknn : Rknn) (handle : Handle) : Prop :=
  handle < rknn.created ∧ some handle ∉ rknn.destroyed

instance (rknn : Rknn) (handle : Handle) : Decidable (rknn.Live handle) :=
  inferInstanceAs (Decidable (_ ∧ _))

/-! ## The shared control state -/

/-- Holders of `lifecycle_mutex`. -/
inductive Thread where
  | main
  | control
  deriving DecidableEq, Repr

/-- `YoloControlState`, with the owner of its mutex. -/
structure YoloControlState where
  inferenceEnabled : Bool := true
  dumpEnabled : Bool := false
  shutdownRequested : Bool := false
  frameId : Nat := 0
  blackoutRequested : Bool := false
  blackoutActive : Bool := false
  resumeRequested : Bool := false
  resumeDone : Bool := false
  lifecycleMutex : Option Thread := none
  deriving DecidableEq, Repr

/-! ## Control commands -/

/-- The commands `dispatchCommand` tells apart.  `setDumpEnabled none` is the
request whose "enabled" parameter is missing. -/
inductive Command where
  | pauseYolo
  | resumeYolo
  | getStatus
  | setDumpEnabled (enabled : Option Bool)
  | shutdown
  | blackout
  | resume
  | unknown
  deriving DecidableEq, Repr

/-- Responses; the numeric payload of `get_status` is not modelled. -/
inductive Response where
  | ok
  | status (inferenceEnabled dumpEnabled : Bool) (frameId : Nat)
  | error (message : String)
  deriving DecidableEq, Repr

/-- The two commands that park in `lifecycle_cv.wait_for`. -/
inductive WaitCommand where
  | blackout
  | resume
  deriving DecidableEq, Repr

namespace WaitCommand

def command : WaitCommand → Command
  | .blackout => .blackout
  | .resume => .resume

/-- The predicate each handler passes to `wait_for`. -/
def pred (flags : YoloControlState) : WaitCommand → Bool
  | .blackout => flags.blackoutActive
  | .resume => flags.resumeDone

/-- The error each handler returns when its wait expires. -/
def timeoutMessage : WaitCommand → String
  | .blackout => "blackout timeout"
  | .resume => "resume timeout"

end WaitCommand

/-! ## Program counters -/

/-- Points inside `wait_for(lk, timeout, pred)`. -/
inductive WaitPc where
  /-- about to lock `lifecycle_mutex` -/
  | lock
  /-- holding the mutex, about to evaluate the predicate; `expired` records
  whether the timeout fired before this evaluation -/
  | test (expired : Bool)
  /-- blocked with the mutex released -/
  | asleep
  deriving DecidableEq, Repr

/-- The control thread, from `listenerLoop` down to `dispatchCommand`. -/
inductive ControlPc where
  /-- `start()` has not spawned the thread -/
  | off
  /-- at `while (running_)` of `listenerLoop` -/
  | listen
  | accept
  /-- at `while (running_)` of `handleConnection` -/
  | serve
  | recv
  /-- in "blackout", about to store `blackout_requested` -/
  | blackoutRequest
  /-- in "resume", `blackout_active` read true, about to store
  `resume_requested` -/
  | resumeRequest
  | wait (command : WaitCommand) (point : WaitPc)
  /-- leaving `wait_for` with its response decided, the mutex still held -/
  | waited (command : WaitCommand) (response : Response)
  /-- `dispatchCommand` has returned, about to send -/
  | reply (command : Command) (response : Response)
  | exited
  deriving DecidableEq, Repr

/-- The RKNN calls of one inference, in order. -/
inductive RknnCall where
  | inputsSet
  | run
  | outputsGet
  | outputsRelease
  deriving DecidableEq, Repr

/-- An inference thread. -/
inductive WorkerPc where
  | unstarted
  | popping
  /-- about to load `inference_enabled` -/
  | check (slot : Fin nBuf) (frameId captureUs : Nat)
  | rknn (slot : Fin nBuf) (frameId captureUs : Nat) (call : RknnCall)
  | emit (result : InferResult)
  | exited
  deriving DecidableEq, Repr

/-- Where `capture_and_submit` was called from. -/
inductive CaptureSite where
  | prefill (i : Fin nThreads)
  | body
  | refill (i : Fin nThreads)
  deriving DecidableEq, Repr

/-- Points inside `capture_and_submit`. -/
inductive CaptureStage where
  | acquire
  | submit (slot : Fin nBuf) (captureUs : Nat)
  | stamp
  deriving DecidableEq, Repr

/-- Main thread before its first capture. -/
inductive StartupPc where
  | initBase
  | queryModel
  | dupContext (i : Fin nThreads)
  | initPool
  | spawn
  | startServers
  | loadCamera
  deriving DecidableEq, Repr

/-- Blackout entry: reset, drain, destroy, announce. -/
inductive EntryPc where
  | lock
  | clearActive
  | clearDone
  | unlock
  | drainTest
  | drainPop
  | drainRelease (slot : Fin nBuf)
  | destroy (i : Fin nThreads)
  | activeLock
  | activeStore
  | activeUnlock
  deriving DecidableEq, Repr

/-- The zero-resource idle loop and the shutdown test after it. -/
inductive IdlePc where
  | testResume
  | testShutdown
  | leave
  deriving DecidableEq, Repr

/-- Re-initialisation and the resume handshake. -/
inductive ResumePc where
  | initContext
  | initFailed
  | dupContext (i : Fin nThreads)
  | assignContext (i : Fin nThreads)
  /-- the stale frames of the blackout are read and dropped -/
  | drainCamera
  | lock
  | clearActive
  | enable
  | setDone
  | unlock
  | clearBlackout
  | clearResume
  deriving DecidableEq, Repr

/-- One ordinary iteration of the main loop, up to its capture. -/
inductive BodyPc where
  | popResult
  | display (result : InferResult) (startUs : Nat)
  | publish (result : InferResult) (startUs : Nat)
  | recycle (slot : Fin nBuf)
  deriving DecidableEq, Repr

/-- Teardown after the main loop. -/
inductive TeardownPc where
  | stopControl
  | closeListen
  | joinControl
  /-- in `data_pub.stop()`, at the join of the sender thread -/
  | joinData
  | pushSentinel (i : Fin nThreads)
  | joinWorker (i : Fin nThreads)
  | closeCamera
  /-- in the deinit of the display or of the RTSP stream, at the join of its
  thread -/
  | deinitOutput
  | deinitPool
  | destroy (i : Fin nThreads)
  deriving DecidableEq, Repr

/-- The camera calls of the main thread.  Each of them ends the process when one
of its ioctls fails. -/
inductive CameraCall where
  | load
  /-- in `capture_and_submit`, which has acquired the slot -/
  | frame (slot : Fin nBuf)
  | drain
  | close
  deriving DecidableEq, Repr

/-- The main thread. -/
inductive MainPc where
  | startup (point : StartupPc)
  | capture (site : CaptureSite) (stage : CaptureStage)
  | loopTop
  | checkBlackout
  | entry (point : EntryPc)
  | idle (point : IdlePc)
  | resume (point : ResumePc)
  | body (point : BodyPc)
  | teardown (point : TeardownPc)
  /-- an early `return -1` -/
  | aborted
  /-- `exit(EXIT_FAILURE)` inside a camera call -/
  | exited (call : CameraCall)
  | returned
  deriving DecidableEq, Repr

/-! ## The process -/

/-- History variables: written along the way, read by no step. -/
structure History where
  /-- how often `blackout_active` was set -/
  blackouts : Nat := 0
  /-- contexts created before the latest of these -/
  createdAtBlackout : Nat := 0
  /-- whether a "resume" was dispatched since -/
  resumeDispatched : Bool := false
  /-- the value of `blackouts` when `resume_done` was last set -/
  doneOf : Nat := 0
  /-- frames submitted to `infer_q`, and frames whose result was pushed -/
  submitted : List Nat := []
  processed : List Nat := []
  /-- sentinels consumed by each inference thread -/
  sentinels : Fin nThreads → Nat := fun _ => 0

/-- The whole process. -/
structure State where
  flags : YoloControlState := {}
  control : ControlPc := .off
  running : Bool := false
  listenOpen : Bool := false
  pc : MainPc := .startup .initBase
  inFlight : Nat := 0
  frameCounter : Nat := 0
  ctxs : Fin nThreads → Option Handle := fun _ => none
  threadCtx : Fin nThreads → Option Handle := fun _ => none
  rknn : Rknn := {}
  pool : BufPool := {}
  inferQ : TSQueue InferJob := {}
  resultQ : TSQueue InferResult := {}
  workers : Fin nThreads → WorkerPc := fun _ => .unstarted
  displayed : List Nat := []
  published : List DetectionMessage := []
  history : History := {}

end KhadasYolo.Pipeline
