import KhadasYolo.Pipeline.Progress
import Mathlib.Algebra.BigOperators.Ring.Finset

/-!
# Shutdown

"shutdown" only sets a flag.  From then on each step of the main thread and of
the inference threads brings the process closer to its end: the rank counts the
points the main thread can still pass, and for each job and sentinel the points
an inference thread can still pass with it.
-/

namespace KhadasYolo.Pipeline

open TransitionSystem

/-! ## The rank -/

/-- The points the main thread can still pass once a shutdown is requested,
`inFlight` results being left to drain.  A test whose outcome is open counts with
the longer of its branches. -/
@[simp] def MainPc.stepsLeft (inFlight : Nat) : MainPc → Nat
  | .aborted | .exited _ | .returned => 0
  | .teardown (.destroy i) => nThreads - i.val
  | .teardown .deinitPool => nThreads + 1
  | .teardown .deinitOutput => nThreads + 2
  | .teardown .closeCamera => nThreads + 3
  | .teardown (.joinWorker i) => nThreads - i.val + (nThreads + 3)
  | .teardown (.pushSentinel i) => nThreads - i.val + (2 * nThreads + 3)
  | .teardown .joinData => 3 * nThreads + 4
  | .teardown .joinControl => 3 * nThreads + 5
  | .teardown .closeListen => 3 * nThreads + 6
  | .teardown .stopControl => 3 * nThreads + 7
  | .loopTop | .idle .leave | .resume .initFailed => 3 * nThreads + 8
  | .idle .testShutdown => 3 * nThreads + 9
  | .idle .testResume => 3 * nThreads + 10
  | .entry .activeUnlock => 3 * nThreads + 11
  | .entry .activeStore => 3 * nThreads + 12
  | .entry .activeLock => 3 * nThreads + 13
  | .entry (.destroy i) => nThreads - i.val + (3 * nThreads + 13)
  | .entry .drainTest => 3 * inFlight + (4 * nThreads + 14)
  | .entry .drainPop => 3 * inFlight + (4 * nThreads + 13)
  | .entry (.drainRelease _) => 3 * inFlight + (4 * nThreads + 12)
  | .entry .unlock => 3 * inFlight + (4 * nThreads + 15)
  | .entry .clearDone => 3 * inFlight + (4 * nThreads + 16)
  | .entry .clearActive => 3 * inFlight + (4 * nThreads + 17)
  | .entry .lock => 3 * inFlight + (4 * nThreads + 18)
  | .checkBlackout => 3 * inFlight + (4 * nThreads + 19)
  | .capture .body .stamp => 3 * nThreads + 9
  | .capture .body (.submit _ _) => 3 * nThreads + 10
  | .capture .body .acquire => 3 * nThreads + 11
  | .capture (.prefill i) stage | .capture (.refill i) stage =>
      3 * (nThreads - i.val) + (3 * nThreads + 6) + match stage with
        | .stamp => 0
        | .submit _ _ => 1
        | .acquire => 2
  | .body (.recycle _) => 3 * nThreads + 12
  | .body (.publish _ _) => 3 * nThreads + 13
  | .body (.display _ _) => 3 * nThreads + 14
  | .body .popResult => 3 * nThreads + 15
  | .resume .clearResume => 6 * nThreads + 9
  | .resume .clearBlackout => 6 * nThreads + 10
  | .resume .unlock => 6 * nThreads + 11
  | .resume .setDone => 6 * nThreads + 12
  | .resume .enable => 6 * nThreads + 13
  | .resume .clearActive => 6 * nThreads + 14
  | .resume .lock => 6 * nThreads + 15
  | .resume .drainCamera => 6 * nThreads + 16
  | .resume (.assignContext i) => nThreads - i.val + (6 * nThreads + 16)
  | .resume (.dupContext i) => nThreads - i.val + (7 * nThreads + 16)
  | .resume .initContext => 8 * nThreads + 17
  | .startup .loadCamera => 6 * nThreads + 9
  | .startup .startServers => 6 * nThreads + 10
  | .startup .spawn => 6 * nThreads + 11
  | .startup .initPool => 6 * nThreads + 12
  | .startup (.dupContext i) => nThreads - i.val + (6 * nThreads + 12)
  | .startup .queryModel => 7 * nThreads + 13
  | .startup .initBase => 7 * nThreads + 14

/-- The RKNN calls left of an inference, the push of its result included. -/
def RknnCall.stepsLeft : RknnCall → Nat
  | .inputsSet => 5
  | .run => 4
  | .outputsGet => 3
  | .outputsRelease => 2

/-- The points an inference thread can still pass with the job in its hands. -/
def WorkerPc.stepsLeft : WorkerPc → Nat
  | .unstarted | .popping | .exited => 0
  | .check _ _ _ => 6
  | .rknn _ _ _ call => call.stepsLeft
  | .emit _ => 1

/-- The points an inference thread can pass with an element of `infer_q`. -/
def InferJob.stepsLeft (job : InferJob) : Nat :=
  if job.bufIdx.isSome then 7 else 1

/-- The points the inference threads can still pass. -/
def Queues.stepsLeft (q : Queues) : Nat :=
  (q.inferQ.items.map InferJob.stepsLeft).sum + ∑ i, (q.workers i).stepsLeft

/-- The points the threads can still pass.  One point of the main thread weighs
more than the job it may submit there. -/
def State.stepsLeft (s : State) : Nat :=
  8 * s.pc.stepsLeft s.inFlight + s.queues.stepsLeft

/-! ## The main thread -/

/-- The end of a round of a loop over the inference threads. -/
theorem stepsLeft_next {i : Fin nThreads} {inFlight bound : Nat}
    {round : Fin nThreads → MainPc} {rest : MainPc}
    (rounds : ∀ j : Fin nThreads, j.val = i.val + 1 →
      (round j).stepsLeft inFlight < bound)
    (leaves : i.val + 1 = nThreads → rest.stepsLeft inFlight < bound) :
    (match nextThread i with
      | some j => round j
      | none => rest).stepsLeft inFlight < bound := by
  cases next : nextThread i with
  | some j => exact rounds j (nextThread_some next)
  | none => exact leaves (nextThread_none next)

section Main

variable {s after : State} {input : MainInput}

theorem startupStep_lower {point : StartupPc} (located : s.pc = .startup point)
    (taken : startupStep s input point = some after) :
    after.pc.stepsLeft after.inFlight < s.pc.stepsLeft s.inFlight := by
  have first : firstThread.val = 0 := rfl
  rw [located]
  cases point with
  | initBase =>
      cases taken
      cases input.success <;> simp
  | queryModel =>
      cases taken
      cases input.success with
      | false => simp
      | true =>
          cases next : nextThread firstThread with
          | some j =>
              have advance := nextThread_some next
              simp
              omega
          | none =>
              have last := nextThread_none next
              simp
              omega
  | dupContext i =>
      cases taken
      have inside := i.isLt
      cases input.success with
      | false => simp
      | true =>
          rw [if_pos rfl]
          refine stepsLeft_next (fun j next => ?_) (fun last => ?_) <;>
            simp only [MainPc.stepsLeft] <;> omega
  | initPool | spawn =>
      cases taken
      simp
  | startServers =>
      cases taken
      cases input.success <;> simp
  | loadCamera =>
      cases taken
      cases input.success with
      | true =>
          simp [first]
          omega
      | false => simp

theorem captureStep_lower {site : CaptureSite} {stage : CaptureStage}
    (located : s.pc = .capture site stage)
    (taken : captureStep s input site stage = some after) :
    after.pc.stepsLeft after.inFlight < s.pc.stepsLeft s.inFlight := by
  rw [located]
  cases stage with
  | acquire =>
      simp only [captureStep] at taken
      split at taken
      · cases taken
        cases site <;> simp
      · contradiction
  | submit slot captureUs =>
      cases taken
      cases input.success <;> cases site <;> simp
  | stamp =>
      cases taken
      cases site with
      | body => simp [afterCapture]
      | prefill i | refill i =>
          have inside := i.isLt
          refine stepsLeft_next (fun j next => ?_) (fun last => ?_) <;>
            simp only [MainPc.stepsLeft] <;> omega

theorem entryStep_lower {point : EntryPc} (slots : Slots s)
    (located : s.pc = .entry point)
    (taken : entryStep s point = some after) :
    after.pc.stepsLeft after.inFlight < s.pc.stepsLeft s.inFlight := by
  have first : firstThread.val = 0 := rfl
  have level := slots.level
  rw [located] at level ⊢
  cases point with
  | lock | activeLock =>
      rcases State.lock_map_eq_some taken with ⟨_, rfl⟩
      simp
  | clearActive | clearDone | unlock | activeStore | activeUnlock =>
      cases taken
      simp [State.unlock]
  | drainTest =>
      cases taken
      by_cases flight : 0 < s.inFlight <;> simp [flight, first]
      omega
  | drainPop =>
      simp only [entryStep] at taken
      split at taken
      · cases taken
        simp
      · contradiction
  | drainRelease slot =>
      cases taken
      simp only [MainPc.level] at level
      simp only [MainPc.stepsLeft]
      omega
  | destroy i =>
      cases taken
      have inside := i.isLt
      refine stepsLeft_next (fun j next => ?_) (fun last => ?_) <;>
        simp only [MainPc.stepsLeft] <;> omega

/-- With the request set the idle loop is left, and for teardown. -/
theorem idleStep_lower {point : IdlePc} (asked : s.flags.shutdownRequested = true)
    (located : s.pc = .idle point) (taken : idleStep s point = some after) :
    after.pc.stepsLeft after.inFlight < s.pc.stepsLeft s.inFlight := by
  rw [located]
  cases point with
  | testResume =>
      cases taken
      cases s.flags.resumeRequested <;> simp
  | testShutdown | leave =>
      cases taken
      simp [asked]

theorem resumeStep_lower {point : ResumePc} (located : s.pc = .resume point)
    (taken : resumeStep s input point = some after) :
    after.pc.stepsLeft after.inFlight < s.pc.stepsLeft s.inFlight := by
  have first : firstThread.val = 0 := rfl
  rw [located]
  cases point with
  | initContext =>
      cases taken
      cases input.success with
      | false => simp; omega
      | true =>
          cases next : nextThread firstThread with
          | some j =>
              have advance := nextThread_some next
              simp
              omega
          | none =>
              have last := nextThread_none next
              simp
              omega
  | dupContext i =>
      cases taken
      have inside := i.isLt
      have flight : (if input.success = true then s.createContext i else s).inFlight =
          s.inFlight := by cases input.success <;> rfl
      refine stepsLeft_next (fun j next => ?_) (fun last => ?_) <;>
        simp only [MainPc.stepsLeft] <;> omega
  | assignContext i =>
      cases taken
      have inside := i.isLt
      refine stepsLeft_next (fun j next => ?_) (fun last => ?_) <;>
        simp only [MainPc.stepsLeft] <;> omega
  | drainCamera =>
      cases taken
      cases input.success <;> simp
  | lock =>
      rcases State.lock_map_eq_some taken with ⟨_, rfl⟩
      simp
  | initFailed | clearActive | enable | setDone | unlock | clearBlackout =>
      cases taken
      simp
  | clearResume =>
      cases taken
      simp [first]
      omega

theorem bodyStep_lower {point : BodyPc} (located : s.pc = .body point)
    (taken : bodyStep s input point = some after) :
    after.pc.stepsLeft after.inFlight < s.pc.stepsLeft s.inFlight := by
  rw [located]
  cases point with
  | popResult =>
      simp only [bodyStep] at taken
      split at taken
      · cases taken
        simp
      · contradiction
  | display | publish | recycle =>
      cases taken
      simp

theorem teardownStep_lower {point : TeardownPc}
    (located : s.pc = .teardown point)
    (taken : teardownStep s input point = some after) :
    after.pc.stepsLeft after.inFlight < s.pc.stepsLeft s.inFlight := by
  have first : firstThread.val = 0 := rfl
  rw [located]
  cases point with
  | stopControl | closeListen =>
      cases taken
      simp
  | joinControl | joinData | deinitOutput =>
      simp only [teardownStep] at taken
      split at taken
      · cases taken
        simp only [MainPc.stepsLeft]
        omega
      · contradiction
  | closeCamera =>
      cases taken
      cases input.success <;> simp
  | pushSentinel i =>
      cases taken
      have inside := i.isLt
      refine stepsLeft_next (fun j next => ?_) (fun last => ?_) <;>
        simp only [MainPc.stepsLeft] <;> omega
  | joinWorker i =>
      simp only [teardownStep] at taken
      split at taken
      · cases taken
        have inside := i.isLt
        refine stepsLeft_next (fun j next => ?_) (fun last => ?_) <;>
          simp only [MainPc.stepsLeft] <;> omega
      · contradiction
  | deinitPool =>
      cases taken
      simp only [MainPc.stepsLeft]
      omega
  | destroy i =>
      cases taken
      have inside := i.isLt
      refine stepsLeft_next (fun j next => ?_) (fun last => ?_) <;>
        simp only [MainPc.stepsLeft] <;> omega

/-- Once a shutdown is requested every step brings the main thread closer to its
end. -/
theorem mainStep_lower (slots : Slots s) (asked : s.flags.shutdownRequested = true)
    (taken : mainStep s input = some after) :
    after.pc.stepsLeft after.inFlight < s.pc.stepsLeft s.inFlight := by
  simp only [mainStep] at taken
  split at taken
  case h_1 point located => exact startupStep_lower located taken
  case h_2 site stage located => exact captureStep_lower located taken
  case h_3 located =>
    cases taken
    simp [located, asked]
  case h_4 located =>
    cases taken
    cases s.flags.blackoutRequested <;> simp [located]
    omega
  case h_5 point located => exact entryStep_lower slots located taken
  case h_6 point located => exact idleStep_lower asked located taken
  case h_7 point located => exact resumeStep_lower located taken
  case h_8 point located => exact bodyStep_lower located taken
  case h_9 point located => exact teardownStep_lower located taken
  all_goals contradiction

/-- One step of the main thread adds at most one job to the work of the inference
threads. -/
theorem queues_stepsLeft_main (hand : Handshake s)
    (taken : mainStep s input = some after) :
    after.queues.stepsLeft ≤ s.queues.stepsLeft + 7 := by
  have push (q : Queues) (job : InferJob) :
      { q with inferQ := q.inferQ.push job }.stepsLeft =
        q.stepsLeft + job.stepsLeft := by
    simp [Queues.stepsLeft]
    omega
  cases mainStep_queues hand taken with
  | submit site slot captureUs located moved queues =>
      have pushed := push s.queues ⟨some slot, s.frameCounter, captureUs⟩
      rw [queues]
      exact Nat.le_of_eq pushed
  | pushSentinel i located moved queues =>
      have pushed := push s.queues .sentinel
      rw [queues]
      refine (Nat.le_of_eq pushed).trans ?_
      simp [InferJob.stepsLeft, InferJob.sentinel]
  | spawn located moved queues =>
      rw [queues]
      simp [Queues.stepsLeft, WorkerPc.stepsLeft]
      omega
  | initPool _ _ queues | acquire _ _ _ _ _ _ _ queues | stamp _ _ _ queues
  | drainPop _ _ _ _ _ queues | drainRelease _ _ _ queues
  | popResult _ _ _ _ _ _ queues | display _ _ _ _ queues | publish _ _ _ _ queues
  | recycle _ _ _ queues | deinitPool _ _ queues | kept _ queues =>
      rw [queues]
      exact Nat.le_add_right _ 7

end Main

/-! ## The inference threads -/

/-- A step of an inference thread that moves it to `next` and takes `jobs` off
`infer_q`. -/
theorem Queues.stepsLeft_move (q : Queues) (i : Fin nThreads) {next : WorkerPc}
    {jobs rest : List InferJob} (queued : q.inferQ.items = jobs ++ rest)
    (lower : next.stepsLeft < (q.workers i).stepsLeft +
      (jobs.map InferJob.stepsLeft).sum) :
    (rest.map InferJob.stepsLeft).sum +
        ∑ j, (Function.update q.workers i next j).stepsLeft < q.stepsLeft := by
  have moved : ∑ j, (Function.update q.workers i next j).stepsLeft =
      ∑ j, Function.update (fun j => (q.workers j).stepsLeft) i next.stepsLeft j := by
    apply Finset.sum_congr rfl
    intro j _
    by_cases same : j = i
    · subst same
      simp
    · simp [Function.update_of_ne same]
  have sum := sum_update_add (fun j => (q.workers j).stepsLeft) i next.stepsLeft
  rw [moved, Queues.stepsLeft, queued, List.map_append, List.sum_append]
  omega

/-- Every step of an inference thread uses up some of its work. -/
theorem workerStep_lower {s after : State} {i : Fin nThreads}
    {input : WorkerInput} (taken : workerStep s i input = some after) :
    after.queues.stepsLeft < s.queues.stepsLeft := by
  simp only [workerStep] at taken
  split at taken
  case h_1 | h_2 => contradiction
  case h_3 located =>
    split at taken
    · contradiction
    next job inferQ popped =>
      have queued : s.queues.inferQ.items = [job] ++ inferQ.items :=
        TSQueue.pop_eq_some.mp popped
      rcases job with ⟨bufIdx, frameId, captureUs⟩
      cases taken
      cases bufIdx with
      | some slot =>
          refine s.queues.stepsLeft_move i queued ?_
          simp [located, WorkerPc.stepsLeft, InferJob.stepsLeft]
      | none =>
          refine s.queues.stepsLeft_move i queued ?_
          simp [located, WorkerPc.stepsLeft, InferJob.stepsLeft]
  case h_4 slot frameId captureUs located =>
    cases taken
    refine s.queues.stepsLeft_move i (List.nil_append _).symm ?_
    cases s.flags.inferenceEnabled <;>
      simp [located, WorkerPc.stepsLeft, RknnCall.stepsLeft]
  case h_5 slot frameId captureUs call located =>
    cases taken
    refine s.queues.stepsLeft_move i (List.nil_append _).symm ?_
    cases call <;>
      simp [located, WorkerPc.stepsLeft, RknnCall.stepsLeft, RknnCall.next]
  case h_6 result located =>
    cases taken
    refine s.queues.stepsLeft_move i (List.nil_append _).symm ?_
    simp [located, WorkerPc.stepsLeft]

/-! ## The bound -/

/-- The steps of the main thread and of the inference threads. -/
def Label.ownStep : Label → Bool
  | .main _ | .worker _ _ => true
  | .control _ => false

/-- A reachable state in which a shutdown has been requested. -/
def Stopping (s : State) : Prop :=
  system.Reachable s ∧ s.flags.shutdownRequested = true

theorem Stopping.step {s after : State} {label : Label} (stopping : Stopping s)
    (taken : system.step s label = some after) : Stopping after := by
  refine ⟨stopping.1.step True.intro taken, ?_⟩
  cases label with
  | main input => exact (mainStep_effect taken).shutdownRequested stopping.2
  | control input => exact (controlStep_effect taken).shutdownRequested stopping.2
  | worker i input => exact (workerStep_frame taken).flags ▸ stopping.2

theorem Stopping.lower {s after : State} {label : Label} (stopping : Stopping s)
    (taken : system.step s label = some after) (own : label.ownStep = true) :
    after.stepsLeft < s.stepsLeft := by
  cases label with
  | main input =>
      have main := mainStep_lower (reachable_slots stopping.1) stopping.2 taken
      have work := queues_stepsLeft_main (reachable_handshake stopping.1) taken
      simp only [State.stepsLeft]
      omega
  | control input => cases own
  | worker i input =>
      have frame := workerStep_frame taken
      have work := workerStep_lower taken
      simp only [State.stepsLeft, frame.pc, frame.inFlight]
      omega

/-- The rank of a process that is stopping. -/
def stopping : system.Ranking Stopping Label.ownStep where
  rank := State.stepsLeft
  keeps := Stopping.step
  lowers := Stopping.lower
  levels := by
    intro s label after _ taken other
    cases label with
    | control input =>
        have effect := controlStep_effect taken
        rw [State.stepsLeft, State.stepsLeft, queues_control effect, effect.pc,
          effect.inFlight]
    | main input | worker i input => cases other

/-- The main thread has at most 41 points to pass. -/
theorem mainLeft_le {s : State} (slots : Slots s) :
    s.pc.stepsLeft s.inFlight ≤ 41 := by
  have level := slots.level
  have three : nThreads = 3 := rfl
  cases located : s.pc with
  | startup point | idle point | resume point | body point | teardown point =>
      cases point <;> simp only [MainPc.stepsLeft] <;> omega
  | capture site stage =>
      cases site <;> cases stage <;> simp only [MainPc.stepsLeft] <;> omega
  | entry point =>
      rw [located] at level
      cases point <;> simp only [MainPc.level] at level <;>
        simp only [MainPc.stepsLeft] <;> omega
  | checkBlackout =>
      rw [located] at level
      simp only [MainPc.level] at level
      simp only [MainPc.stepsLeft]
      omega
  | loopTop | aborted | exited | returned =>
      simp only [MainPc.stepsLeft]
      omega

/-- What `infer_q` holds are jobs and sentinels. -/
theorem queuedLeft_eq (jobs : List InferJob) :
    (jobs.map InferJob.stepsLeft).sum =
      7 * (jobs.filterMap InferJob.ticket).length +
        jobs.countP (·.bufIdx.isNone) := by
  induction jobs with
  | nil => rfl
  | cons job rest ih =>
      rcases job with ⟨bufIdx, frameId, captureUs⟩
      cases bufIdx <;>
        simp [List.filterMap_cons, InferJob.stepsLeft, ih, Nat.mul_add] <;> omega

theorem WorkerPc.stepsLeft_le (pc : WorkerPc) :
    pc.stepsLeft ≤ 7 * pc.ticket.toList.length := by
  cases pc with
  | rknn slot frameId captureUs call =>
      cases call <;> simp [WorkerPc.stepsLeft, RknnCall.stepsLeft]
  | _ => simp [WorkerPc.stepsLeft]

/-- A job in flight takes the inference threads at most seven points. -/
theorem workLeft_le (s : State) :
    s.queues.stepsLeft ≤ 7 * s.queues.tickets.card +
      s.inferQ.items.countP (·.bufIdx.isNone) := by
  have working : ∑ i, (s.workers i).stepsLeft ≤
      ∑ i, 7 * (s.workers i).ticket.toList.length :=
    Finset.sum_le_sum fun i _ => (s.workers i).stepsLeft_le
  have queued := queuedLeft_eq s.inferQ.items
  rw [← Finset.mul_sum] at working
  simp only [Queues.stepsLeft, Queues.tickets, Queues.queued, Queues.busy,
    Multiset.card_add, Multiset.coe_card, Multiset.card_sum, State.queues_inferQ,
    State.queues_workers]
  omega

theorem tickets_le {s : State} (slots : Slots s) :
    s.queues.tickets.card ≤ nBuf := by
  have conserved := congrArg Multiset.card slots.conserved
  rw [State.slots, Multiset.card_add, Multiset.card_map] at conserved
  have most : (if s.pc.pooled = true then (Finset.univ : Finset (Fin nBuf)).val
      else 0).card ≤ nBuf := by
    split <;> simp
  omega

/-- A bound on the rank of every state of every run. -/
theorem stepsLeft_le {s : State} (reach : system.Reachable s) :
    s.stepsLeft ≤ 366 := by
  have slots := reachable_slots reach
  have main := mainLeft_le slots
  have work := workLeft_le s
  have jobs := tickets_le slots
  have sentinels := (reachable_retirement reach).pushed
  have pushed := s.pc.pushed_le
  have sizes : nBuf = 5 ∧ nThreads = 3 := ⟨rfl, rfl⟩
  simp only [State.stepsLeft]
  omega

end KhadasYolo.Pipeline
