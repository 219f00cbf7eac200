import KhadasYolo.Pipeline.Handshake
import Mathlib.Algebra.BigOperators.Group.Finset.Piecewise
import Mathlib.Algebra.Order.Group.Multiset
import Mathlib.Tactic.Abel

/-!
# Buffers and queues

`QueueEffect` says what one step of the main thread does to the buffer pool, the
two queues, the inference threads and the counters that go with them; steps that
concern none of these are all of the one kind `kept`.  `WorkerEffect` does the
same for the inference threads.  Everything about slots, jobs and results is
derived from these two.
-/

namespace KhadasYolo.Pipeline

open TransitionSystem

/-- The part of the state that buffers, jobs and results live in. -/
structure Queues where
  pool : BufPool
  inferQ : TSQueue InferJob
  resultQ : TSQueue InferResult
  workers : Fin nThreads → WorkerPc
  inFlight : Nat
  frameCounter : Nat
  displayed : List Nat
  published : List DetectionMessage
  submitted : List Nat
  processed : List Nat
  sentinels : Fin nThreads → Nat

@[simps] def State.queues (s : State) : Queues where
  pool := s.pool
  inferQ := s.inferQ
  resultQ := s.resultQ
  workers := s.workers
  inFlight := s.inFlight
  frameCounter := s.frameCounter
  displayed := s.displayed
  published := s.published
  submitted := s.history.submitted
  processed := s.history.processed
  sentinels := s.history.sentinels

/-! ## What the program counter says about them -/

namespace MainPc

/-- The buffer pool is initialised. -/
@[simp] def pooled : MainPc → Bool
  | .startup .spawn | .startup .startServers | .startup .loadCamera => true
  | .startup _ | .aborted => false
  | _ => true

/-- The slot the main thread holds. -/
@[simp] def slots : MainPc → List (Fin nBuf)
  | .capture _ (.submit slot _) | .exited (.frame slot) => [slot]
  | .entry (.drainRelease slot) => [slot]
  | .body (.display res _) | .body (.publish res _) => [res.bufIdx]
  | .body (.recycle slot) => [slot]
  | _ => []

/-- A result is in the main thread's hands, to be displayed or published. -/
@[simp] def showing : MainPc → Bool
  | .body (.display _ _) | .body (.publish _ _) => true
  | _ => false

/-- The value of `in_flight` at each point; `dark` says whether `blackout_active`
is set. -/
@[simp] def level (dark : Bool) (inFlight : Nat) : MainPc → Prop
  | .startup _ => inFlight = 0
  | .capture (.prefill i) _ | .capture (.refill i) _ => inFlight = i.val
  | .capture .body _ => inFlight + 1 = nThreads
  | .loopTop | .checkBlackout => inFlight = nThreads
  | .entry .drainTest => inFlight ≤ nThreads
  | .entry .drainPop | .entry (.drainRelease _) =>
      0 < inFlight ∧ inFlight ≤ nThreads
  | .entry .lock | .entry .clearActive | .entry .clearDone | .entry .unlock =>
      inFlight = nThreads
  | .entry _ | .idle _ | .resume _ => inFlight = 0
  | .body .popResult => inFlight = nThreads
  | .body _ => inFlight + 1 = nThreads
  | .teardown _ | .exited .close => dark = true → inFlight = 0
  | .exited (.frame _) => inFlight < nThreads
  | .exited .load | .exited .drain | .aborted => inFlight = 0
  | .returned => True

/-- Jobs submitted that `in_flight` does not count yet. -/
@[simp] def uncounted : MainPc → Nat
  | .capture _ .stamp => 1
  | _ => 0

/-- Results taken that `in_flight` still counts. -/
@[simp] def overcounted : MainPc → Nat
  | .entry (.drainRelease _) => 1
  | _ => 0

/-- The sentinels pushed so far. -/
@[simp] def pushed : MainPc → Nat
  | .teardown (.pushSentinel i) => i.val
  | .teardown (.joinWorker _) | .teardown .closeCamera
  | .teardown .deinitOutput | .teardown .deinitPool
  | .teardown (.destroy _) | .exited .close | .returned => nThreads
  | _ => 0

theorem pushed_le (pc : MainPc) : pc.pushed ≤ nThreads := by
  cases pc with
  | teardown point =>
      cases point with
      | pushSentinel i => exact Nat.le_of_lt i.isLt
      | _ => simp
  | exited call => cases call <;> simp
  | _ => simp

/-- Inference thread `i` has been joined. -/
@[simp] def joined (i : Fin nThreads) : MainPc → Bool
  | .teardown (.joinWorker j) => decide (i < j)
  | .teardown .closeCamera | .teardown .deinitOutput | .teardown .deinitPool
  | .teardown (.destroy _) | .exited .close | .returned => true
  | _ => false

/-- `pool.deinit()` has been called. -/
@[simp] def deinited : MainPc → Bool
  | .teardown (.destroy _) | .returned => true
  | _ => false

end MainPc

/-- After a capture nothing is in the main thread's hands. -/
theorem afterCapture_plain (site : CaptureSite) :
    (afterCapture site).slots = [] ∧ (afterCapture site).uncounted = 0 ∧
      (afterCapture site).overcounted = 0 ∧ (afterCapture site).pooled = true ∧
      (afterCapture site).pushed = 0 ∧
      (∀ i, (afterCapture site).joined i = false) ∧
      (afterCapture site).deinited = false ∧
      (afterCapture site).showing = false := by
  rcases afterCapture_outside site with next | ⟨site', next⟩ <;> simp [next]

/-- Nothing about slots, jobs or sentinels changes at this move. -/
structure Plain (s after : State) : Prop where
  slots : after.pc.slots = s.pc.slots
  showing : s.pc.showing = false ∧ after.pc.showing = false
  counted : s.pc.uncounted = 0 ∧ after.pc.uncounted = 0
  drained : s.pc.overcounted = 0 ∧ after.pc.overcounted = 0
  pooled : after.pc.pooled = s.pc.pooled
  level : s.pc.level s.flags.blackoutActive s.inFlight →
    after.pc.level after.flags.blackoutActive s.inFlight
  pushed : after.pc.pushed = s.pc.pushed
  joined : ∀ i, after.pc.joined i = true →
    s.pc.joined i = true ∨ s.workers i = .exited
  deinited : after.pc.deinited = s.pc.deinited

/-- What one step of the main thread does to the buffers and queues. -/
inductive QueueEffect (s after : State) : Prop where
  | initPool (located : s.pc = .startup .initPool)
      (moved : after.pc = .startup .spawn)
      (queues : after.queues = { s.queues with pool := s.pool.init })
  | spawn (located : s.pc = .startup .spawn)
      (moved : after.pc = .startup .startServers)
      (queues : after.queues = { s.queues with workers := fun _ => .popping })
  | acquire (site : CaptureSite) (slot : Fin nBuf) (captureUs : Nat)
      (rest : List (Fin nBuf)) (located : s.pc = .capture site .acquire)
      (moved : after.pc = .capture site (.submit slot captureUs))
      (free : s.pool.freeList.items = slot :: rest)
      (queues : after.queues =
        { s.queues with pool := { s.pool with freeList := ⟨rest⟩ } })
  | submit (site : CaptureSite) (slot : Fin nBuf) (captureUs : Nat)
      (located : s.pc = .capture site (.submit slot captureUs))
      (moved : after.pc = .capture site .stamp)
      (queues : after.queues = { s.queues with
        inferQ := s.inferQ.push ⟨some slot, s.frameCounter, captureUs⟩
        frameCounter := (s.frameCounter + 1) % 2 ^ 64
        submitted := s.history.submitted ++ [s.frameCounter] })
  | stamp (site : CaptureSite) (located : s.pc = .capture site .stamp)
      (moved : after.pc = afterCapture site)
      (queues : after.queues = { s.queues with inFlight := s.inFlight + 1 })
  | drainPop (drain : InferResult) (rest : List InferResult)
      (located : s.pc = .entry .drainPop)
      (moved : after.pc = .entry (.drainRelease drain.bufIdx))
      (ready : s.resultQ.items = drain :: rest)
      (queues : after.queues = { s.queues with resultQ := ⟨rest⟩ })
  | drainRelease (slot : Fin nBuf) (located : s.pc = .entry (.drainRelease slot))
      (moved : after.pc = .entry .drainTest)
      (queues : after.queues = { s.queues with
        pool := s.pool.release slot
        inFlight := s.inFlight - 1 })
  | popResult (res : InferResult) (rest : List InferResult) (startUs : Nat)
      (located : s.pc = .body .popResult)
      (moved : after.pc = .body (.display res startUs))
      (ready : s.resultQ.items = res :: rest)
      (queues : after.queues = { s.queues with
        resultQ := ⟨rest⟩
        inFlight := s.inFlight - 1 })
  | display (res : InferResult) (startUs : Nat)
      (located : s.pc = .body (.display res startUs))
      (moved : after.pc = .body (.publish res startUs))
      (queues : after.queues =
        { s.queues with displayed := s.displayed ++ [res.frameId] })
  | publish (res : InferResult) (startUs : Nat)
      (located : s.pc = .body (.publish res startUs))
      (moved : after.pc = .body (.recycle res.bufIdx))
      (queues : after.queues = { s.queues with
        published := s.published ++ [⟨res.frameId, startUs, res.group⟩] })
  | recycle (slot : Fin nBuf) (located : s.pc = .body (.recycle slot))
      (moved : after.pc = .capture .body .acquire)
      (queues : after.queues = { s.queues with pool := s.pool.release slot })
  | pushSentinel (i : Fin nThreads) (located : s.pc = .teardown (.pushSentinel i))
      (moved : after.pc = match nextThread i with
        | some j => .teardown (.pushSentinel j)
        | none => .teardown (.joinWorker firstThread))
      (queues : after.queues =
        { s.queues with inferQ := s.inferQ.push .sentinel })
  | deinitPool (located : s.pc = .teardown .deinitPool)
      (moved : after.pc = .teardown (.destroy firstThread))
      (queues : after.queues = { s.queues with pool := s.pool.deinit })
  | kept (plain : Plain s after) (queues : after.queues = s.queues)

section Main

variable {s after : State} {input : MainInput}

theorem startupStep_queues {point : StartupPc}
    (located : s.pc = .startup point)
    (taken : startupStep s input point = some after) : QueueEffect s after := by
  cases point with
  | initBase | startServers | loadCamera =>
      cases taken
      cases input.success <;>
        exact .kept (by constructor <;> simp [located, firstThread]) rfl
  | queryModel =>
      cases taken
      refine .kept ?_ rfl
      cases input.success <;> cases nextThread firstThread <;>
        constructor <;> simp [located]
  | dupContext i =>
      cases taken
      cases input.success <;> cases nextThread i <;>
        exact .kept (by constructor <;> simp [located]) rfl
  | initPool =>
      cases taken
      exact .initPool located rfl rfl
  | spawn =>
      cases taken
      exact .spawn located rfl rfl

theorem captureStep_queues {site : CaptureSite} {stage : CaptureStage}
    (located : s.pc = .capture site stage)
    (taken : captureStep s input site stage = some after) :
    QueueEffect s after := by
  cases stage with
  | acquire =>
      simp only [captureStep] at taken
      split at taken
      next slot pool acquired =>
        cases taken
        rcases Option.map_eq_some_iff.mp acquired with ⟨⟨slot', rest⟩, popped, same⟩
        cases same
        exact .acquire site slot input.clockUs rest.items located rfl
          (TSQueue.pop_eq_some.mp popped) rfl
      next => contradiction
  | submit slot captureUs =>
      cases taken
      cases input.success with
      | true => exact .submit site slot captureUs located rfl rfl
      | false =>
          refine .kept ?_ rfl
          cases site <;> constructor <;> simp [located] <;> omega
  | stamp =>
      cases taken
      exact .stamp site located rfl rfl

theorem entryStep_queues {point : EntryPc} (located : s.pc = .entry point)
    (taken : entryStep s point = some after) : QueueEffect s after := by
  cases point with
  | lock | activeLock =>
      rcases State.lock_map_eq_some taken with ⟨_, rfl⟩
      exact .kept (by constructor <;> simp [located]) rfl
  | clearActive | clearDone | activeStore | activeUnlock =>
      cases taken
      refine .kept ?_ rfl
      constructor <;> simp [located]
  | unlock =>
      cases taken
      refine .kept ?_ rfl
      constructor <;> simp +contextual [located]
  | drainTest =>
      cases taken
      refine .kept ?_ rfl
      by_cases flight : 0 < s.inFlight <;> constructor <;>
        simp [located, flight]
      omega
  | drainPop =>
      simp only [entryStep] at taken
      split at taken
      next drain resultQ popped =>
        cases taken
        exact .drainPop drain resultQ.items located rfl
          (TSQueue.pop_eq_some.mp popped) rfl
      next => contradiction
  | drainRelease slot =>
      cases taken
      exact .drainRelease slot located rfl rfl
  | destroy i =>
      cases taken
      refine .kept ?_ rfl
      cases nextThread i <;> constructor <;> simp [located]

/-- The main loop is left for teardown with `blackout_active` set from inside
the blackout branch only, where nothing is in flight. -/
theorem idleStep_queues {point : IdlePc} (located : s.pc = .idle point)
    (taken : idleStep s point = some after) : QueueEffect s after := by
  cases point with
  | testResume =>
      cases taken
      refine .kept ?_ rfl
      cases s.flags.resumeRequested <;> constructor <;> simp [located]
  | testShutdown | leave =>
      cases taken
      refine .kept ?_ rfl
      cases s.flags.shutdownRequested <;> constructor <;> simp +contextual [located]

theorem resumeStep_queues {point : ResumePc} (located : s.pc = .resume point)
    (taken : resumeStep s input point = some after) : QueueEffect s after := by
  cases point with
  | initContext =>
      cases taken
      cases input.success <;> cases nextThread firstThread <;>
        exact .kept (by constructor <;> simp [located]) rfl
  | initFailed =>
      cases taken
      exact .kept (by constructor <;> simp +contextual [located]) rfl
  | dupContext i =>
      cases taken
      cases input.success <;> cases nextThread i <;>
        exact .kept (by constructor <;> simp [located]) rfl
  | assignContext i =>
      cases taken
      cases nextThread i <;>
        exact .kept (by constructor <;> simp [located]) rfl
  | drainCamera =>
      cases taken
      cases input.success <;>
        exact .kept (by constructor <;> simp [located]) rfl
  | lock =>
      rcases State.lock_map_eq_some taken with ⟨_, rfl⟩
      exact .kept (by constructor <;> simp [located]) rfl
  | clearActive | enable | setDone | unlock | clearBlackout | clearResume =>
      cases taken
      exact .kept (by constructor <;> simp [located, firstThread]) rfl

theorem bodyStep_queues {point : BodyPc} (located : s.pc = .body point)
    (taken : bodyStep s input point = some after) : QueueEffect s after := by
  cases point with
  | popResult =>
      simp only [bodyStep] at taken
      split at taken
      next res resultQ popped =>
        cases taken
        exact .popResult res resultQ.items input.clockUs located rfl
          (TSQueue.pop_eq_some.mp popped) rfl
      next => contradiction
  | display res startUs =>
      cases taken
      exact .display res startUs located rfl rfl
  | publish res startUs =>
      cases taken
      exact .publish res startUs located rfl rfl
  | recycle slot =>
      cases taken
      exact .recycle slot located rfl rfl

theorem teardownStep_queues {point : TeardownPc}
    (located : s.pc = .teardown point)
    (taken : teardownStep s input point = some after) : QueueEffect s after := by
  cases point with
  | stopControl | closeListen =>
      cases taken
      exact .kept (by constructor <;> simp [located]) rfl
  | joinControl | joinData | deinitOutput =>
      simp only [teardownStep] at taken
      split at taken
      · cases taken
        exact .kept (by constructor <;> simp [located, firstThread]) rfl
      · contradiction
  | closeCamera =>
      cases taken
      cases input.success <;>
        exact .kept (by constructor <;> simp [located]) rfl
  | pushSentinel i =>
      cases taken
      exact .pushSentinel i located rfl rfl
  | joinWorker i =>
      simp only [teardownStep] at taken
      split at taken
      next exited =>
        have joined : ∀ j : Fin nThreads, j.val < i.val + 1 →
            j < i ∨ s.workers j = .exited := by
          intro j below
          rcases Nat.lt_succ_iff_lt_or_eq.mp below with earlier | same
          · exact Or.inl earlier
          · exact Or.inr (Fin.ext same ▸ exited)
        cases taken
        refine .kept ?_ rfl
        cases next : nextThread i with
        | some k =>
            have advance := nextThread_some next
            constructor <;> simp [located]
            intro j before
            exact joined j (by rwa [Fin.lt_def, advance] at before)
        | none =>
            have ends := nextThread_none next
            constructor <;> simp [located]
            intro j
            exact joined j (by omega)
      next => contradiction
  | deinitPool =>
      cases taken
      exact .deinitPool located rfl rfl
  | destroy i =>
      cases taken
      cases nextThread i <;>
        exact .kept (by constructor <;> simp [located, State.destroyContext]) rfl

/-- Everything one step of the main thread can do to the buffers and queues. -/
theorem mainStep_queues (hand : Handshake s)
    (taken : mainStep s input = some after) : QueueEffect s after := by
  simp only [mainStep] at taken
  split at taken
  case h_1 point located => exact startupStep_queues located taken
  case h_2 site stage located => exact captureStep_queues located taken
  case h_3 located =>
    have lit : s.flags.blackoutActive = false := by
      rw [hand.active (by simp [located])]
      simp [located]
    cases taken
    refine .kept ?_ rfl
    cases s.flags.shutdownRequested <;> constructor <;> simp [located, lit]
  case h_4 located =>
    cases taken
    refine .kept ?_ rfl
    cases s.flags.blackoutRequested <;> constructor <;> simp [located]
  case h_5 point located => exact entryStep_queues located taken
  case h_6 point located => exact idleStep_queues located taken
  case h_7 point located => exact resumeStep_queues located taken
  case h_8 point located => exact bodyStep_queues located taken
  case h_9 point located => exact teardownStep_queues located taken
  all_goals contradiction

end Main

/-- The control thread leaves them alone. -/
theorem queues_control {s after : State} (effect : ControlEffect s after) :
    after.queues = s.queues := by
  simp only [State.queues, effect.pool, effect.inferQ, effect.resultQ,
    effect.workers, effect.inFlight, effect.frameCounter, effect.displayed,
    effect.published]
  rw [effect.history]

/-! ## Tickets -/

/-- A job on its way through the pipeline: its slot and its frame number. -/
abbrev Ticket := Fin nBuf × Nat

@[simp] def InferJob.ticket (job : InferJob) : Option Ticket :=
  job.bufIdx.map fun slot => (slot, job.frameId)

@[simp] def InferResult.ticket (result : InferResult) : Ticket :=
  (result.bufIdx, result.frameId)

/-- The job an inference thread is working on. -/
@[simp] def WorkerPc.ticket : WorkerPc → Option Ticket
  | .unstarted | .popping | .exited => none
  | .check slot frameId _ | .rknn slot frameId _ _ => some (slot, frameId)
  | .emit result => some result.ticket

namespace Queues

/-- The jobs queued for the inference threads, sentinels left out. -/
def queued (q : Queues) : Multiset Ticket :=
  ↑(q.inferQ.items.filterMap InferJob.ticket)

/-- The jobs in the hands of the inference threads. -/
def busy (q : Queues) : Multiset Ticket :=
  ∑ i, ↑(q.workers i).ticket.toList

/-- The jobs whose results wait for the main thread. -/
def ready (q : Queues) : Multiset Ticket :=
  ↑(q.resultQ.items.map InferResult.ticket)

/-- All jobs in flight. -/
def tickets (q : Queues) : Multiset Ticket :=
  q.queued + q.busy + q.ready

end Queues

/-! ## One step of an inference thread -/

/-- What one step of inference thread `i` does to the buffers and queues. -/
inductive WorkerEffect (s : State) (i : Fin nThreads) (after : State) : Prop where
  | take (slot : Fin nBuf) (frameId captureUs : Nat) (rest : List InferJob)
      (located : s.workers i = .popping)
      (ready : s.inferQ.items = ⟨some slot, frameId, captureUs⟩ :: rest)
      (queues : after.queues = { s.queues with
        inferQ := ⟨rest⟩
        workers := Function.update s.workers i (.check slot frameId captureUs) })
  | retire (frameId captureUs : Nat) (rest : List InferJob)
      (located : s.workers i = .popping)
      (ready : s.inferQ.items = ⟨none, frameId, captureUs⟩ :: rest)
      (queues : after.queues = { s.queues with
        inferQ := ⟨rest⟩
        workers := Function.update s.workers i .exited
        sentinels := Function.update s.history.sentinels i
          (s.history.sentinels i + 1) })
  | work (ticket : Ticket) (next : WorkerPc)
      (located : (s.workers i).ticket = some ticket)
      (carried : next.ticket = some ticket)
      (queues : after.queues =
        { s.queues with workers := Function.update s.workers i next })
  | emit (result : InferResult) (located : s.workers i = .emit result)
      (queues : after.queues = { s.queues with
        resultQ := s.resultQ.push result
        processed := s.history.processed ++ [result.frameId]
        workers := Function.update s.workers i .popping })

theorem workerStep_queues {s after : State} {i : Fin nThreads}
    {input : WorkerInput} (taken : workerStep s i input = some after) :
    WorkerEffect s i after := by
  simp only [workerStep] at taken
  split at taken
  case h_1 | h_2 => contradiction
  case h_3 located =>
    split at taken
    · contradiction
    next job inferQ popped =>
      have ready := TSQueue.pop_eq_some.mp popped
      rcases job with ⟨bufIdx, frameId, captureUs⟩
      cases taken
      cases bufIdx with
      | some slot =>
          exact .take slot frameId captureUs inferQ.items located ready rfl
      | none => exact .retire frameId captureUs inferQ.items located ready rfl
  case h_4 slot frameId captureUs located =>
    cases taken
    refine .work (slot, frameId) _ (by simp [located]) ?_ rfl
    cases s.flags.inferenceEnabled <;> simp
  case h_5 slot frameId captureUs call located =>
    cases taken
    refine .work (slot, frameId) _ (by simp [located]) ?_ rfl
    cases call.next <;> simp
  case h_6 result located =>
    cases taken
    exact .emit result located rfl

/-! ## Tickets in flight -/

/-- A sum over agents when one of them changes. -/
theorem sum_update_add {ι M : Type*} [Fintype ι] [DecidableEq ι]
    [AddCommMonoid M] (f : ι → M) (i : ι) (x : M) :
    ∑ j, Function.update f i x j + f i = ∑ j, f j + x := by
  rw [Finset.sum_update_of_mem (Finset.mem_univ i), Finset.sdiff_singleton_eq_erase,
    add_assoc, Finset.sum_erase_add _ _ (Finset.mem_univ i), add_comm]

namespace Queues

variable (q : Queues)

theorem busy_update (i : Fin nThreads) (next : WorkerPc) :
    ∑ j, (↑(Function.update q.workers i next j).ticket.toList : Multiset Ticket) +
      ↑(q.workers i).ticket.toList = q.busy + ↑next.ticket.toList := by
  have moved : (fun j => (↑(Function.update q.workers i next j).ticket.toList :
      Multiset Ticket)) = Function.update
        (fun j => (↑(q.workers j).ticket.toList : Multiset Ticket)) i
        ↑next.ticket.toList := by
    funext j
    by_cases same : j = i
    · subst same
      simp
    · simp [Function.update_of_ne same]
  rw [moved]
  exact sum_update_add _ i _

/-- What one step of an inference thread takes off `infer_q` it keeps, and what
it gives up it has put on `result_q`. -/
theorem moves_worker {s after : State} {i : Fin nThreads}
    (effect : WorkerEffect s i after) :
    ∃ taken handed : Multiset Ticket,
      s.queues.queued = taken + after.queues.queued ∧
      after.queues.busy + handed = s.queues.busy + taken ∧
      after.queues.ready = s.queues.ready + handed ∧
      (after.queues.processed : Multiset Nat) =
        s.queues.processed + handed.map Prod.snd := by
  cases effect with
  | take slot frameId captureUs rest located ready queues =>
      refine ⟨{(slot, frameId)}, 0, ?_⟩
      have busy := s.queues.busy_update i (.check slot frameId captureUs)
      simp only [State.queues, located] at busy
      rw [queues]
      refine ⟨?_, by simpa [Queues.busy, State.queues] using busy, ?_, ?_⟩ <;>
        simp [Queues.queued, Queues.ready, State.queues, ready]
  | retire frameId captureUs rest located ready queues =>
      refine ⟨0, 0, ?_⟩
      have busy := s.queues.busy_update i .exited
      simp only [State.queues, located] at busy
      rw [queues]
      refine ⟨?_, by simpa [Queues.busy, State.queues] using busy, ?_, ?_⟩ <;>
        simp [Queues.queued, Queues.ready, State.queues, ready, List.filterMap_cons]
  | work ticket next located carried queues =>
      refine ⟨0, 0, ?_⟩
      have busy := s.queues.busy_update i next
      simp only [State.queues, located, carried, add_left_inj] at busy
      rw [queues]
      refine ⟨?_, by simpa [Queues.busy, State.queues] using busy, ?_, ?_⟩ <;>
        simp [Queues.queued, Queues.ready, State.queues]
  | emit result located queues =>
      refine ⟨0, {result.ticket}, ?_⟩
      have busy := s.queues.busy_update i .popping
      simp only [State.queues, located] at busy
      rw [queues]
      refine ⟨?_, by simpa [Queues.busy, State.queues] using busy, ?_, ?_⟩ <;>
        simp [Queues.queued, Queues.ready, State.queues, ← Multiset.coe_add]

/-- An inference thread neither loses nor invents a job. -/
theorem tickets_worker {s after : State} {i : Fin nThreads}
    (effect : WorkerEffect s i after) :
    after.queues.tickets = s.queues.tickets := by
  rcases moves_worker effect with ⟨taken, handed, queued, busy, ready, _⟩
  apply add_right_cancel (b := handed)
  rw [Queues.tickets, Queues.tickets, ready, queued]
  calc after.queues.queued + after.queues.busy + (s.queues.ready + handed) + handed
      = after.queues.queued + (after.queues.busy + handed) +
          (s.queues.ready + handed) := by abel
    _ = after.queues.queued + (s.queues.busy + taken) +
          (s.queues.ready + handed) := by rw [busy]
    _ = taken + after.queues.queued + s.queues.busy + s.queues.ready + handed := by
        abel

end Queues

end KhadasYolo.Pipeline
