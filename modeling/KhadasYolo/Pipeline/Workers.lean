import KhadasYolo.Pipeline.Contexts
import KhadasYolo.Pipeline.Slots

/-!
# The inference threads

An inference thread uses the context in its `ThreadCtx` and the buffer of its
job.  While any job is in flight the main thread is at a point where the contexts
are held and the pool exists, so both are safe to use as long as the contexts
really were created.  At shutdown the sentinels queue up behind the last job, so
no job is left over.
-/

namespace KhadasYolo.Pipeline

open TransitionSystem HandleTable

/-! ## The contexts of the threads -/

/-- `tctxs[i].ctx` is up to date at this point. -/
@[simp] def MainPc.bound (i : Fin nThreads) : MainPc → Bool
  | .startup .startServers | .startup .loadCamera => true
  | .startup _ | .aborted => false
  | .resume (.dupContext _) => false
  | .resume (.assignContext j) => decide (i < j)
  | _ => true

/-- Every thread that is up to date has the context of its entry. -/
def Bound (s : State) : Prop :=
  ∀ i, s.pc.bound i = true → s.threadCtx i = s.ctxs i

namespace Bound

section Main

variable {s after : State} {input : MainInput}

/-- A step that leaves contexts and assignments alone. -/
theorem carry (inv : Bound s) (threads : after.threadCtx = s.threadCtx)
    (ctxs : after.ctxs = s.ctxs)
    (bound : ∀ i, after.pc.bound i = true → s.pc.bound i = true) : Bound after := by
  intro i up
  rw [threads, ctxs]
  exact inv i (bound i up)

theorem startup (inv : Bound s) {point : StartupPc}
    (located : s.pc = .startup point)
    (taken : startupStep s input point = some after) : Bound after := by
  cases point with
  | initBase =>
      cases taken
      intro i up
      cases called : input.success <;> simp [called] at up
  | queryModel =>
      cases taken
      intro i up
      cases called : input.success <;> cases next : nextThread firstThread <;>
        simp [called, next] at up
  | dupContext i =>
      cases taken
      intro j up
      cases called : input.success <;> cases next : nextThread i <;>
        simp [called, next] at up
  | initPool =>
      cases taken
      intro i up
      simp at up
  | spawn =>
      cases taken
      exact fun _ _ => rfl
  | startServers | loadCamera =>
      cases taken
      cases input.success <;>
        exact inv.carry rfl rfl fun i _ => by simp [located]

theorem resume (inv : Bound s) {point : ResumePc}
    (located : s.pc = .resume point)
    (taken : resumeStep s input point = some after) : Bound after := by
  cases point with
  | initContext =>
      cases taken
      cases called : input.success with
      | true =>
          intro i up
          cases next : nextThread firstThread <;> simp [next] at up
      | false => exact inv.carry rfl rfl fun i _ => by simp [located]
  | dupContext i =>
      cases taken
      intro j up
      cases next : nextThread i <;> simp [next] at up
  | assignContext i =>
      cases taken
      intro j up
      by_cases same : j = i
      · subst same
        simp [State.assignContext]
      · have before : s.pc.bound j = true := by
          have reached : (decide (j < i) || decide (j = i)) = true := by
            cases next : nextThread i with
            | some k =>
                rw [← filled_next next]
                simpa [next] using up
            | none => exact filled_last next
          simpa [located, same] using reached
        simpa [State.assignContext, Function.update_of_ne same] using inv j before
  | drainCamera =>
      cases taken
      cases input.success <;>
        exact inv.carry rfl rfl fun i _ => by simp [located]
  | lock =>
      rcases State.lock_map_eq_some taken with ⟨_, rfl⟩
      exact inv.carry rfl rfl fun i _ => by simp [located]
  | initFailed | clearActive | enable | setDone | unlock | clearBlackout
  | clearResume =>
      cases taken
      exact inv.carry rfl rfl fun i _ => by simp [located]

theorem main (inv : Bound s) (taken : mainStep s input = some after) :
    Bound after := by
  simp only [mainStep] at taken
  split at taken
  case h_1 point located => exact inv.startup located taken
  case h_2 site stage located =>
    cases stage with
    | acquire =>
        simp only [captureStep] at taken
        split at taken
        · cases taken
          exact inv.carry rfl rfl fun i _ => by simp [located]
        · contradiction
    | submit =>
        cases taken
        cases input.success <;>
          exact inv.carry rfl rfl fun i _ => by simp [located]
    | stamp =>
        cases taken
        exact inv.carry rfl rfl fun i _ => by simp [located]
  case h_3 located | h_4 located =>
    cases taken
    exact inv.carry rfl rfl fun i _ => by simp [located]
  case h_5 point located =>
    cases point with
    | lock | activeLock =>
        rcases State.lock_map_eq_some taken with ⟨_, rfl⟩
        exact inv.carry rfl rfl fun i _ => by simp [located]
    | drainPop =>
        simp only [entryStep] at taken
        split at taken
        · cases taken
          exact inv.carry rfl rfl fun i _ => by simp [located]
        · contradiction
    | clearActive | clearDone | unlock | drainTest | drainRelease | destroy
    | activeStore | activeUnlock =>
        cases taken
        exact inv.carry rfl rfl fun i _ => by simp [located]
  case h_6 point located =>
    cases point with
    | testResume | testShutdown | leave =>
        cases taken
        exact inv.carry rfl rfl fun i _ => by simp [located]
  case h_7 point located => exact inv.resume located taken
  case h_8 point located =>
    cases point with
    | popResult =>
        simp only [bodyStep] at taken
        split at taken
        · cases taken
          exact inv.carry rfl rfl fun i _ => by simp [located]
        · contradiction
    | display | publish | recycle =>
        cases taken
        exact inv.carry rfl rfl fun i _ => by simp [located]
  case h_9 point located =>
    cases point with
    | joinControl | joinData | joinWorker | deinitOutput =>
        simp only [teardownStep] at taken
        split at taken
        · cases taken
          exact inv.carry rfl rfl fun i _ => by simp [located]
        · contradiction
    | stopControl | closeListen | pushSentinel | closeCamera | deinitPool | destroy =>
        cases taken
        exact inv.carry rfl rfl fun i _ => by simp [located]
  all_goals contradiction

end Main

end Bound

theorem reachable_bound {s : State} (reach : system.Reachable s) : Bound s := by
  refine System.ReachableUnder.invariant Bound ?_ ?_ reach
  · simp [Bound, system]
  · intro s label after _ inv _ taken
    cases label with
    | main input => exact inv.main taken
    | control input =>
        have effect := controlStep_effect taken
        exact inv.carry effect.threadCtx effect.ctxs fun i => by simp [effect.pc]
    | worker i input =>
        have frame := workerStep_frame taken
        exact inv.carry frame.threadCtx frame.ctxs fun i => by simp [frame.pc]

/-! ## Jobs and sentinels -/

/-- `infer_q` holds jobs and then sentinels, and the inference threads consume
both in this order. -/
structure Retirement (s : State) : Prop where
  /-- behind a sentinel there are only sentinels -/
  ordered : s.inferQ.items.Pairwise fun job later =>
    job.bufIdx = none → later.bufIdx = none
  /-- every sentinel pushed is queued or consumed -/
  pushed : s.inferQ.items.countP (·.bufIdx.isNone) +
    ∑ i, s.history.sentinels i = s.pc.pushed
  once : ∀ i, s.history.sentinels i = if s.workers i = .exited then 1 else 0
  jobsFirst : ∀ i, s.workers i = .exited →
    ∀ job ∈ s.inferQ.items, job.bufIdx = none
  joined : ∀ i, s.pc.joined i = true → s.workers i = .exited
  deinited : s.pool.deinited = s.pc.deinited
  /-- every frame submitted is queued, in work or processed -/
  processed : (s.history.submitted : Multiset Nat) =
    s.queues.queued.map Prod.snd + s.queues.busy.map Prod.snd +
      s.history.processed

namespace Retirement

theorem initial : Retirement system.init := by
  constructor <;> simp [system, State.queues, Queues.queued, Queues.busy]

/-- No sentinel is queued or consumed before teardown pushes the first. -/
theorem none_pushed {s : State} (inv : Retirement s) (before : s.pc.pushed = 0) :
    (∀ job ∈ s.inferQ.items, job.bufIdx ≠ none) ∧
      ∀ i, s.workers i ≠ .exited := by
  have pushed := inv.pushed
  rw [before, Nat.add_eq_zero_iff, List.countP_eq_zero, Finset.sum_eq_zero_iff] at pushed
  refine ⟨fun job member none => ?_, fun i exited => ?_⟩
  · exact pushed.1 job member (by simp [none])
  · have consumed := inv.once i
    rw [if_pos exited, pushed.2 i (Finset.mem_univ i)] at consumed
    cases consumed

section Main

variable {s after : State} {input : MainInput}

/-- A step that leaves `infer_q` and the inference threads alone. -/
theorem carry (inv : Retirement s) (inferQ : after.inferQ = s.inferQ)
    (workers : after.workers = s.workers)
    (sentinels : after.history.sentinels = s.history.sentinels)
    (submitted : after.history.submitted = s.history.submitted)
    (processed : after.history.processed = s.history.processed)
    (pushed : after.pc.pushed = s.pc.pushed)
    (joined : ∀ i, after.pc.joined i = true →
      s.pc.joined i = true ∨ s.workers i = .exited)
    (deinited : after.pool.deinited = after.pc.deinited) : Retirement after := by
  have queued : after.queues.queued = s.queues.queued := by
    simp only [Queues.queued, State.queues_inferQ, inferQ]
  have busy : after.queues.busy = s.queues.busy := by
    simp only [Queues.busy, State.queues_workers, workers]
  constructor
  case joined =>
    intro i here
    rw [workers]
    exact (joined i here).elim (inv.joined i) id
  case deinited => exact deinited
  case processed =>
    rw [submitted, processed, queued, busy]
    exact inv.processed
  case ordered => exact inferQ ▸ inv.ordered
  case pushed =>
    rw [inferQ, sentinels, pushed]
    exact inv.pushed
  case once =>
    rw [sentinels, workers]
    exact inv.once
  case jobsFirst =>
    rw [inferQ, workers]
    exact inv.jobsFirst

/-- Every job a capture submits goes in front of the sentinels. -/
theorem submit_main (inv : Retirement s) {site : CaptureSite} {slot : Fin nBuf}
    {captureUs : Nat} (located : s.pc = .capture site (.submit slot captureUs))
    (moved : after.pc = .capture site .stamp)
    (queues : after.queues = { s.queues with
      inferQ := s.inferQ.push ⟨some slot, s.frameCounter, captureUs⟩
      frameCounter := (s.frameCounter + 1) % 2 ^ 64
      submitted := s.history.submitted ++ [s.frameCounter] }) :
    Retirement after := by
  rcases inv.none_pushed (by simp [located]) with ⟨jobs, alive⟩
  have inferQ : after.inferQ.items = s.inferQ.items ++
      [⟨some slot, s.frameCounter, captureUs⟩] := by
    rw [← State.queues_inferQ after, queues]
    rfl
  have workers : after.workers = s.workers := congrArg Queues.workers queues
  have sentinels : after.history.sentinels = s.history.sentinels :=
    congrArg Queues.sentinels queues
  have pool : after.pool = s.pool := congrArg Queues.pool queues
  have submitted : after.history.submitted = s.history.submitted ++ [s.frameCounter] :=
    congrArg Queues.submitted queues
  have processed : after.history.processed = s.history.processed :=
    congrArg Queues.processed queues
  have queued : after.queues.queued =
      s.queues.queued + {(slot, s.frameCounter)} := by
    rw [queues]
    exact s.queues.queued_push ⟨some slot, s.frameCounter, captureUs⟩
  have busy : after.queues.busy = s.queues.busy := by
    simp only [Queues.busy, State.queues_workers, workers]
  constructor
  case ordered =>
    rw [inferQ, List.pairwise_append]
    refine ⟨inv.ordered, List.pairwise_singleton _ _, fun job member _ _ none => ?_⟩
    exact absurd none (jobs job member)
  case pushed =>
    have before := inv.pushed
    rw [located] at before
    rw [inferQ, sentinels, moved]
    simpa using before
  case once =>
    rw [sentinels, workers]
    exact inv.once
  case jobsFirst =>
    rw [workers]
    exact fun i exited => absurd exited (alive i)
  case joined =>
    rw [moved]
    simp
  case deinited =>
    rw [pool, moved, inv.deinited, located]
    rfl
  case processed =>
    rw [submitted, processed, queued, busy, ← Multiset.coe_add, inv.processed,
      Multiset.map_add, Multiset.map_singleton, Multiset.coe_singleton]
    abel

/-- A sentinel goes behind everything that is queued. -/
theorem pushSentinel_main (inv : Retirement s) {i : Fin nThreads}
    (located : s.pc = .teardown (.pushSentinel i))
    (moved : after.pc = match nextThread i with
      | some j => .teardown (.pushSentinel j)
      | none => .teardown (.joinWorker firstThread))
    (queues : after.queues =
      { s.queues with inferQ := s.inferQ.push .sentinel }) :
    Retirement after := by
  have inferQ : after.inferQ.items = s.inferQ.items ++ [.sentinel] := by
    rw [← State.queues_inferQ after, queues]
    rfl
  have workers : after.workers = s.workers := congrArg Queues.workers queues
  have sentinels : after.history.sentinels = s.history.sentinels :=
    congrArg Queues.sentinels queues
  have pool : after.pool = s.pool := congrArg Queues.pool queues
  have submitted : after.history.submitted = s.history.submitted :=
    congrArg Queues.submitted queues
  have processed : after.history.processed = s.history.processed :=
    congrArg Queues.processed queues
  have queued : after.queues.queued = s.queues.queued := by
    rw [queues]
    exact (s.queues.queued_push .sentinel).trans (add_zero _)
  have busy : after.queues.busy = s.queues.busy := by
    simp only [Queues.busy, State.queues_workers, workers]
  have counts : after.pc.pushed = i.val + 1 ∧
      (∀ j, after.pc.joined j = false) ∧ after.pc.deinited = false := by
    rw [moved]
    cases next : nextThread i with
    | some j => simp [nextThread_some next]
    | none => simp [nextThread_none next]
  constructor
  case ordered =>
    rw [inferQ, List.pairwise_append]
    refine ⟨inv.ordered, List.pairwise_singleton _ _, fun _ _ later member _ => ?_⟩
    rw [List.mem_singleton.mp member]
    rfl
  case pushed =>
    have before := inv.pushed
    rw [located] at before
    rw [inferQ, sentinels, counts.1, List.countP_append]
    simp only [MainPc.pushed] at before
    simp [InferJob.sentinel]
    omega
  case once =>
    rw [sentinels, workers]
    exact inv.once
  case jobsFirst =>
    intro j exited job member
    rw [workers] at exited
    rw [inferQ, List.mem_append, List.mem_singleton] at member
    rcases member with before | rfl
    · exact inv.jobsFirst j exited job before
    · rfl
  case joined =>
    intro j here
    rw [counts.2.1 j] at here
    cases here
  case deinited =>
    rw [pool, counts.2.2, inv.deinited, located]
    rfl
  case processed =>
    rw [submitted, processed, queued, busy]
    exact inv.processed

/-- Before the inference threads are spawned there is nothing for them. -/
theorem spawn_main (slots : Slots s) (inv : Retirement s)
    (located : s.pc = .startup .spawn) (moved : after.pc = .startup .startServers)
    (queues : after.queues = { s.queues with workers := fun _ => .popping }) :
    Retirement after := by
  rcases inv.none_pushed (by simp [located]) with ⟨_, alive⟩
  have inferQ : after.inferQ = s.inferQ := congrArg Queues.inferQ queues
  have workers : after.workers = fun _ => .popping := congrArg Queues.workers queues
  have sentinels : after.history.sentinels = s.history.sentinels :=
    congrArg Queues.sentinels queues
  have pool : after.pool = s.pool := congrArg Queues.pool queues
  have submitted : after.history.submitted = s.history.submitted :=
    congrArg Queues.submitted queues
  have processed : after.history.processed = s.history.processed :=
    congrArg Queues.processed queues
  have queued : after.queues.queued = s.queues.queued := by rw [queues]; rfl
  have idle : s.queues.busy = 0 := by
    have level := slots.level
    have counted := slots.counted
    rw [located] at level counted
    simp only [MainPc.level] at level
    simp only [level, Queues.tickets, Multiset.card_add, MainPc.overcounted,
      MainPc.uncounted] at counted
    exact Multiset.card_eq_zero.mp (by omega)
  have busy : after.queues.busy = 0 := by
    rw [queues]
    exact Queues.busy_spawn _
  constructor
  case ordered => exact inferQ ▸ inv.ordered
  case pushed =>
    rw [inferQ, sentinels, moved, inv.pushed, located]
    rfl
  case once =>
    intro i
    rw [sentinels, workers, inv.once i, if_neg (alive i), if_neg (by simp)]
  case jobsFirst =>
    intro i exited
    simp [workers] at exited
  case joined =>
    intro i here
    simp [moved] at here
  case deinited =>
    rw [pool, moved, inv.deinited, located]
    rfl
  case processed =>
    rw [submitted, processed, queued, busy, inv.processed, idle]

theorem main (hand : Handshake s) (slots : Slots s) (inv : Retirement s)
    (taken : mainStep s input = some after) : Retirement after := by
  have deinited := inv.deinited
  cases mainStep_queues hand taken with
  | kept plain queues =>
      refine inv.carry (congrArg Queues.inferQ queues)
        (congrArg Queues.workers queues) (congrArg Queues.sentinels queues)
        (congrArg Queues.submitted queues) (congrArg Queues.processed queues)
        plain.pushed plain.joined ?_
      rw [plain.deinited, ← deinited]
      exact congrArg (·.pool.deinited) queues
  | submit site slot captureUs located moved queues =>
      exact inv.submit_main located moved queues
  | pushSentinel i located moved queues =>
      exact inv.pushSentinel_main located moved queues
  | spawn located moved queues => exact inv.spawn_main slots located moved queues
  | stamp site located moved queues =>
      rcases afterCapture_plain site with ⟨_, _, _, _, pushed, joined, notDeinited, _⟩
      rw [located] at deinited
      refine inv.carry (congrArg Queues.inferQ queues)
        (congrArg Queues.workers queues) (congrArg Queues.sentinels queues)
        (congrArg Queues.submitted queues) (congrArg Queues.processed queues)
        (by rw [moved, pushed, located]; rfl) (fun i here => ?_) ?_
      · rw [moved, joined i] at here
        cases here
      rw [moved, notDeinited, ← State.queues_pool after, queues]
      exact deinited
  | initPool located moved queues | acquire _ _ _ _ located moved _ queues
  | drainPop _ _ located moved _ queues | drainRelease _ located moved queues
  | popResult _ _ _ located moved _ queues | display _ _ located moved queues
  | publish _ _ located moved queues | recycle _ located moved queues =>
      rw [located] at deinited
      refine inv.carry (congrArg Queues.inferQ queues)
        (congrArg Queues.workers queues) (congrArg Queues.sentinels queues)
        (congrArg Queues.submitted queues) (congrArg Queues.processed queues)
        (by simp [located, moved]) (by simp [located, moved]) ?_
      rw [moved, ← State.queues_pool after, queues]
      exact deinited
  | deinitPool located moved queues =>
      refine inv.carry (congrArg Queues.inferQ queues)
        (congrArg Queues.workers queues) (congrArg Queues.sentinels queues)
        (congrArg Queues.submitted queues) (congrArg Queues.processed queues)
        (by simp [located, moved]) (by simp [located]) ?_
      rw [moved, ← State.queues_pool after, queues]
      rfl

end Main

section Worker

variable {s after : State} {i : Fin nThreads}

theorem exited_update {workers : Fin nThreads → WorkerPc} {next : WorkerPc}
    (alive : workers i ≠ .exited) (going : next ≠ .exited) (j : Fin nThreads) :
    Function.update workers i next j = .exited ↔ workers j = .exited := by
  by_cases same : j = i
  · subst same
    simp [alive, going]
  · rw [Function.update_of_ne same]

theorem processed_worker (inv : Retirement s) (frame : WorkerFrame s after)
    (effect : WorkerEffect s i after) :
    (after.history.submitted : Multiset Nat) =
      after.queues.queued.map Prod.snd + after.queues.busy.map Prod.snd +
        after.history.processed := by
  rcases Queues.moves_worker effect with ⟨taken, handed, queued, busy, _, grown⟩
  simp only [State.queues_processed] at grown
  have moved := congrArg (Multiset.map Prod.snd) busy
  rw [Multiset.map_add, Multiset.map_add] at moved
  rw [frame.submitted, inv.processed, queued, grown, Multiset.map_add]
  calc taken.map Prod.snd + after.queues.queued.map Prod.snd +
        s.queues.busy.map Prod.snd + ↑s.history.processed
      = after.queues.queued.map Prod.snd +
          (s.queues.busy.map Prod.snd + taken.map Prod.snd) +
          ↑s.history.processed := by abel
    _ = _ := by
        rw [← moved]
        abel

/-- A step of an inference thread that does not retire it, taking at most jobs
off `infer_q`. -/
theorem carry_worker (inv : Retirement s) (frame : WorkerFrame s after)
    (effect : WorkerEffect s i after) (jobs : List InferJob)
    (inferQ : s.inferQ.items = jobs ++ after.inferQ.items)
    (real : ∀ job ∈ jobs, job.bufIdx ≠ none)
    (exited : ∀ j, after.workers j = .exited ↔ s.workers j = .exited)
    (sentinels : after.history.sentinels = s.history.sentinels) :
    Retirement after := by
  constructor
  case ordered =>
    have ordered := inv.ordered
    rw [inferQ, List.pairwise_append] at ordered
    exact ordered.2.1
  case pushed =>
    have none : jobs.countP (·.bufIdx.isNone) = 0 := by
      rw [List.countP_eq_zero]
      exact fun job member => by simpa using real job member
    have pushed := inv.pushed
    rw [inferQ, List.countP_append, none, zero_add] at pushed
    rw [sentinels, frame.pc]
    exact pushed
  case once =>
    intro j
    rw [sentinels, inv.once j]
    simp only [exited j]
  case jobsFirst =>
    intro j gone job member
    apply inv.jobsFirst j ((exited j).mp gone) job
    rw [inferQ]
    exact List.mem_append_right _ member
  case joined =>
    intro j here
    rw [frame.pc] at here
    exact (exited j).mpr (inv.joined j here)
  case deinited =>
    rw [frame.pool, frame.pc]
    exact inv.deinited
  case processed => exact inv.processed_worker frame effect

/-- An inference thread retires on a sentinel, which only sentinels follow. -/
theorem retire_worker (inv : Retirement s) (frame : WorkerFrame s after)
    (effect : WorkerEffect s i after) {sentinel : InferJob}
    (located : s.workers i = .popping) (last : sentinel.bufIdx = none)
    (inferQ : s.inferQ.items = sentinel :: after.inferQ.items)
    (workers : after.workers = Function.update s.workers i .exited)
    (sentinels : after.history.sentinels = Function.update s.history.sentinels i
      (s.history.sentinels i + 1)) : Retirement after := by
  have ordered := inv.ordered
  rw [inferQ, List.pairwise_cons] at ordered
  constructor
  case ordered => exact ordered.2
  case pushed =>
    have pushed := inv.pushed
    rw [inferQ, List.countP_cons, if_pos (by simp [last])] at pushed
    have sum := sum_update_add s.history.sentinels i (s.history.sentinels i + 1)
    rw [sentinels, frame.pc]
    omega
  case once =>
    intro j
    by_cases same : j = i
    · subst same
      simp [sentinels, workers, inv.once j, located]
    · rw [sentinels, workers, Function.update_of_ne same,
        Function.update_of_ne same, inv.once j]
  case jobsFirst => exact fun _ _ job member => ordered.1 job member last
  case joined =>
    intro j here
    rw [frame.pc] at here
    by_cases same : j = i
    · subst same
      rw [workers, Function.update_self]
    · rw [workers, Function.update_of_ne same]
      exact inv.joined j here
  case deinited =>
    rw [frame.pool, frame.pc]
    exact inv.deinited
  case processed => exact inv.processed_worker frame effect

theorem worker (inv : Retirement s) (frame : WorkerFrame s after)
    (effect : WorkerEffect s i after) : Retirement after := by
  have whole := effect
  cases effect with
  | take slot frameId captureUs rest located ready queues =>
      refine inv.carry_worker frame whole [⟨some slot, frameId, captureUs⟩] ?_ ?_ ?_
        (congrArg Queues.sentinels queues)
      · rw [← State.queues_inferQ after, queues]
        exact ready
      · simp
      · have workers : after.workers = _ := congrArg Queues.workers queues
        rw [workers]
        exact exited_update (by simp [located]) (by simp)
  | retire frameId captureUs rest located ready queues =>
      have inferQ : s.inferQ.items =
          ⟨none, frameId, captureUs⟩ :: after.inferQ.items := by
        rw [← State.queues_inferQ after, queues]
        exact ready
      exact inv.retire_worker frame whole located rfl inferQ
        (congrArg Queues.workers queues) (congrArg Queues.sentinels queues)
  | work ticket next located carried queues =>
      refine inv.carry_worker frame whole [] ?_ (by simp) ?_
        (congrArg Queues.sentinels queues)
      · rw [← State.queues_inferQ after, queues]
        rfl
      · have workers : after.workers = _ := congrArg Queues.workers queues
        rw [workers]
        refine exited_update ?_ ?_
        · intro gone
          simp [gone] at located
        · rintro rfl
          simp at carried
  | emit result located queues =>
      refine inv.carry_worker frame whole [] ?_ (by simp) ?_
        (congrArg Queues.sentinels queues)
      · rw [← State.queues_inferQ after, queues]
        rfl
      · have workers : after.workers = _ := congrArg Queues.workers queues
        rw [workers]
        exact exited_update (by simp [located]) (by simp)

end Worker

theorem step {s after : State} {label : Label} (hand : Handshake s)
    (slots : Slots s) (inv : Retirement s)
    (taken : Pipeline.step s label = some after) : Retirement after := by
  cases label with
  | main input => exact inv.main hand slots taken
  | control input =>
      have effect := controlStep_effect taken
      have queues := queues_control effect
      refine inv.carry (congrArg Queues.inferQ queues)
        (congrArg Queues.workers queues) (congrArg Queues.sentinels queues)
        (congrArg Queues.submitted queues) (congrArg Queues.processed queues)
        (by rw [effect.pc]) (fun j here => Or.inl (effect.pc ▸ here)) ?_
      rw [effect.pool, effect.pc]
      exact inv.deinited
  | worker i input =>
      exact inv.worker (workerStep_frame taken) (workerStep_queues taken)

end Retirement

theorem reachable_retirement {s : State} (reach : system.Reachable s) :
    Retirement s :=
  System.ReachableUnder.invariant Retirement Retirement.initial
    (fun _ _ _ earlier inv _ taken => inv.step (reachable_handshake earlier)
      (reachable_slots earlier) taken) reach

/-! ## Safety of the inference threads -/

/-- The thread is at an RKNN call. -/
@[simp] def WorkerPc.calling : WorkerPc → Bool
  | .rknn _ _ _ _ => true
  | _ => false

/-- What the inference threads do and leave behind. -/
structure WorkersSafe (s : State) : Prop where
  /-- an RKNN call is made on a live context, its buffers not yet freed -/
  calls : ∀ i slot frameId captureUs call,
    s.workers i = .rknn slot frameId captureUs call →
      (∃ h, s.threadCtx i = some h ∧ s.rknn.Live h) ∧ s.pool.deinited = false
  /-- no thread consumes a second sentinel, and each that has ended one -/
  once : ∀ i, s.history.sentinels i = if s.workers i = .exited then 1 else 0
  /-- a sentinel is consumed only when no job is left in `infer_q` -/
  jobsFirst : ∀ i, s.workers i = .exited → s.queues.queued = 0
  /-- when all threads are joined, all jobs are done and `infer_q` is empty -/
  drained : (∀ i, s.pc.joined i = true) → s.inferQ.items = [] ∧
    (s.history.processed : Multiset Nat) = s.history.submitted

/-- A thread with a job means a job in flight. -/
theorem busy_pos {s : State} {i : Fin nThreads} {ticket : Ticket}
    (working : (s.workers i).ticket = some ticket) :
    0 < s.queues.tickets.card := by
  refine Multiset.card_pos_iff_exists_mem.mpr ⟨ticket, ?_⟩
  have mine : ticket ∈ (↑(s.workers i).ticket.toList : Multiset Ticket) := by
    rw [working]
    exact Multiset.mem_singleton_self ticket
  have busy : ticket ∈ s.queues.busy :=
    Multiset.mem_sum.mpr ⟨i, Finset.mem_univ i, mine⟩
  exact Multiset.mem_add.mpr (Or.inl (Multiset.mem_add.mpr (Or.inr busy)))

/-- While a thread has a job, the contexts are held and assigned, and the pool
exists: the main thread destroys neither before the last job is done. -/
theorem held_of_busy {s : State} (slots : Slots s) (retire : Retirement s)
    {i : Fin nThreads} {ticket : Ticket}
    (working : (s.workers i).ticket = some ticket) :
    s.holds i = true ∧ s.pc.bound i = true ∧ s.pc.deinited = false := by
  have flight := busy_pos working
  have level := slots.level
  have counted := slots.counted
  have notJoined : s.pc.joined i = false := by
    cases here : s.pc.joined i with
    | false => rfl
    | true => simp [retire.joined i here] at working
  cases located : s.pc with
  | startup point =>
      simp [located] at level counted
      omega
  | capture site stage | loopTop | checkBlackout | body point =>
      simp [State.holds, located, MainPc.holds]
  | entry point =>
      cases point <;> simp [located] at level counted <;>
        first | omega | simp [State.holds, located, MainPc.holds]
  | idle point =>
      simp [located] at level counted
      omega
  | resume point =>
      simp [located] at level counted
      omega
  | teardown point =>
      have lit : s.flags.blackoutActive = false := by
        cases dark : s.flags.blackoutActive with
        | false => rfl
        | true =>
            simp [located, dark] at level counted
            omega
      cases point <;> simp [located] at notJoined <;>
        simp [State.holds, located, MainPc.holds, lit]
  | exited call =>
      cases call <;> simp [located] at level counted notJoined <;>
        first | omega | simp [State.holds, located, MainPc.holds]
  | aborted =>
      simp [located] at level counted
      omega
  | returned => simp [located] at notJoined

/-- The calls of an inference thread are safe where its context was created. -/
theorem calls_safe {s : State} (slots : Slots s) (retire : Retirement s)
    (bound : Bound s) (filled : Filled s) {i : Fin nThreads} {slot : Fin nBuf}
    {frameId captureUs : Nat} {call : RknnCall}
    (working : s.workers i = .rknn slot frameId captureUs call) :
    (∃ h, s.threadCtx i = some h ∧ s.rknn.Live h) ∧ s.pool.deinited = false := by
  have ticket : (s.workers i).ticket = some (slot, frameId) := by rw [working]; rfl
  rcases held_of_busy slots retire ticket with ⟨held, up, pooled⟩
  rcases filled.owned i held with ⟨h, stored, live⟩
  exact ⟨⟨h, (bound i up).trans stored, live⟩, retire.deinited.trans pooled⟩

/-- Once all sentinels are consumed nothing is left over. -/
theorem drained_of_joined {s : State} (retire : Retirement s)
    (joined : ∀ i, s.pc.joined i = true) : s.inferQ.items = [] ∧
      (s.history.processed : Multiset Nat) = s.history.submitted := by
  have exited : ∀ i, s.workers i = .exited := fun i => retire.joined i (joined i)
  have consumed : ∑ i, s.history.sentinels i = nThreads := by
    rw [Finset.sum_congr rfl fun i _ => (retire.once i).trans (if_pos (exited i))]
    simp
  have bound := s.pc.pushed_le
  have empty : s.inferQ.items = [] := by
    have pushed := retire.pushed
    have none : s.inferQ.items.countP (·.bufIdx.isNone) = 0 := by omega
    refine List.eq_nil_iff_forall_not_mem.mpr fun job member => ?_
    apply List.countP_eq_zero.mp none job member
    simp [retire.jobsFirst firstThread (exited _) job member]
  refine ⟨empty, ?_⟩
  have busy : s.queues.busy = 0 := by simp [Queues.busy, exited]
  have queued : s.queues.queued = 0 := by simp [Queues.queued, empty]
  rw [retire.processed, busy, queued, Multiset.map_zero, zero_add, zero_add]

/-- In runs whose resumes duplicate all contexts the inference threads are safe
in every state.  After a failed duplication no call of that thread is, until its
context is created again. -/
theorem workers_safe (s : State) :
    (system.ReachableUnder DupSucceeds s → WorkersSafe s) ∧
    (∀ i input after later slot frameId captureUs call, system.Reachable s →
      s.pc = .resume (.dupContext i) → input.success = false →
      mainStep s input = some after →
      system.Path (LeavesEntry i) after later →
      later.workers i = .rknn slot frameId captureUs call →
      ¬WorkersSafe later) := by
  constructor
  · intro reach
    have slots := reachable_slots reach.reachable
    have retire := reachable_retirement reach.reachable
    constructor
    case calls =>
      exact fun i slot frameId captureUs call working => calls_safe slots retire
        (reachable_bound reach.reachable) (reachable_filled reach) working
    case once => exact retire.once
    case jobsFirst =>
      intro i exited
      refine (Multiset.coe_eq_zero _).mpr (List.filterMap_eq_nil_iff.mpr ?_)
      intro job member
      simp [retire.jobsFirst i exited job member]
    case drained => exact drained_of_joined retire
  · intro i input after later slot frameId captureUs call reach located refused
      taken path working safe
    rcases stale_after_failed_dup reach located refused taken path with ⟨here, stale⟩
    obtain ⟨⟨h, assigned, live⟩, _⟩ := safe.calls i slot frameId captureUs call working
    have ticket : (later.workers i).ticket = some (slot, frameId) := by
      rw [working]
      rfl
    obtain ⟨_, up, _⟩ :=
      held_of_busy (reachable_slots here) (reachable_retirement here) ticket
    have older := stale h ((reachable_bound here i up).symm.trans assigned)
    exact absurd ((reachable_accounts here).recent h live) (Nat.not_le_of_lt older)

/-- A shutdown with jobs in flight runs to the end. -/
theorem workers_safe_shutdown :
    ∃ s, system.ReachableUnder DupSucceeds s ∧ s.pc = .returned ∧
      s.history.processed ≠ [] ∧ WorkersSafe s := by
  obtain ⟨s, reach, ended⟩ := System.reaches_of_replay system DupSucceeds
    (Schedule.boot ++ Schedule.connect ++ Schedule.request .shutdown ++
      Schedule.main 1 ++ Schedule.stop ++ Schedule.npuJobs ++ Schedule.join ++
      Schedule.destroyContexts)
    (fun s => s.pc = .returned && s.history.processed ≠ []) (by decide)
  simp only [Bool.and_eq_true, decide_eq_true_eq] at ended
  exact ⟨s, reach, ended.1, ended.2, (workers_safe s).1 reach⟩

/-- The first `rknn_dup_context` of a resume fails; the pipeline is refilled, and
thread 1 takes a job. -/
def jobWithoutContext : List Label :=
  Schedule.boot ++ Schedule.connect ++ Schedule.blackout ++
    Schedule.request .resume ++ Schedule.control 1 ++ Schedule.main 3 ++
    .main { success := false } :: Schedule.main 10 ++ Schedule.refill ++
    List.replicate 2 (.worker 1 {})

theorem worker_calls_destroyed_context :
    ¬∀ s, system.Reachable s → WorkersSafe s := by
  intro safe
  obtain ⟨s, reach, dead⟩ := System.reaches_of_replay system
    System.unrestricted jobWithoutContext
    (fun s => (s.workers 1).calling &&
      !(s.threadCtx 1).any fun h => s.rknn.Live h) (by decide)
  rw [Bool.and_eq_true, Bool.not_eq_true'] at dead
  cases working : s.workers 1 with
  | rknn slot frameId captureUs call =>
      obtain ⟨⟨h, assigned, live⟩, _⟩ :=
        (safe s reach).calls 1 slot frameId captureUs call working
      simp [assigned, live] at dead
  | _ => simp [working] at dead

end KhadasYolo.Pipeline
