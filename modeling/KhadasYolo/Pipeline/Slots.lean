import KhadasYolo.Pipeline.Queues
import KhadasYolo.Pipeline.Requests

/-!
# Frame-buffer slots

Every slot of the pool is in one place at a time, and `in_flight` counts the jobs
that are anywhere between `infer_q` and `result_q`.  Both follow from three
invariants: the value of `in_flight` at each point of the main thread, its
agreement with the jobs in flight up to the one being handed over, and the
conservation of slots as a multiset.
-/

namespace KhadasYolo.Pipeline

open TransitionSystem

/-- All slots, place by place: the free list, the main thread's own, and those
of the jobs in flight. -/
def State.slots (s : State) : Multiset (Fin nBuf) :=
  ↑s.pool.freeList.items + ↑s.pc.slots + s.queues.tickets.map Prod.fst

/-- The accounts of slots and jobs. -/
structure Slots (s : State) : Prop where
  level : s.pc.level s.flags.blackoutActive s.inFlight
  counted : s.queues.tickets.card + s.pc.overcounted =
    s.inFlight + s.pc.uncounted
  conserved : s.slots = if s.pc.pooled = true then Finset.univ.val else 0

namespace Queues

variable (q : Queues)

theorem queued_push (job : InferJob) :
    { q with inferQ := q.inferQ.push job }.queued =
      q.queued + ↑job.ticket.toList := by
  rcases job with ⟨bufIdx, frameId, captureUs⟩
  cases bufIdx <;> simp [Queues.queued, List.filterMap_cons, ← Multiset.coe_add]

theorem tickets_push (job : InferJob) :
    { q with inferQ := q.inferQ.push job }.tickets =
      q.tickets + ↑job.ticket.toList := by
  rw [Queues.tickets, queued_push]
  change q.queued + _ + q.busy + q.ready = q.queued + q.busy + q.ready + _
  abel

theorem tickets_pop {res : InferResult} {rest : List InferResult}
    (ready : q.resultQ.items = res :: rest) :
    q.tickets = res.ticket ::ₘ { q with resultQ := ⟨rest⟩ }.tickets := by
  have popped : q.ready = res.ticket ::ₘ { q with resultQ := ⟨rest⟩ }.ready := by
    simp [Queues.ready, ready]
  rw [Queues.tickets, popped, Multiset.add_cons]
  rfl

/-- No inference thread has a job when it starts. -/
theorem busy_spawn : { q with workers := fun _ => .popping }.busy = 0 := by
  simp [Queues.busy]

theorem tickets_spawn :
    { q with workers := fun _ => .popping }.tickets = q.queued + q.ready := by
  rw [Queues.tickets, busy_spawn, add_zero]
  rfl

end Queues

namespace Slots

theorem initial : Slots system.init := by
  constructor <;> simp [system, State.queues, State.slots, Queues.tickets,
    Queues.queued, Queues.busy, Queues.ready]

section Main

variable {s after : State} {input : MainInput}

/-- `in_flight` has its value at every point of the main thread. -/
theorem level_main (hand : Handshake s) (inv : Slots s)
    (taken : mainStep s input = some after) :
    after.pc.level after.flags.blackoutActive after.inFlight := by
  have level := inv.level
  have dark := (mainStep_effect taken).blackoutActive
  cases mainStep_queues hand taken with
  | kept plain queues =>
      have same : after.inFlight = s.inFlight := congrArg Queues.inFlight queues
      exact same ▸ plain.level level
  | acquire site _ _ _ located moved _ queues
  | submit site _ _ located moved queues =>
      have same : after.inFlight = s.inFlight := congrArg Queues.inFlight queues
      rw [located] at level
      rw [moved, same]
      cases site <;> simpa using level
  | initPool located moved queues | spawn located moved queues
  | drainPop _ _ located moved _ queues | display _ _ located moved queues
  | publish _ _ located moved queues | recycle _ located moved queues =>
      have same : after.inFlight = s.inFlight := congrArg Queues.inFlight queues
      rw [located] at level
      rw [moved, same]
      simpa using level
  | stamp site located moved queues =>
      have counted : after.inFlight = s.inFlight + 1 :=
        congrArg Queues.inFlight queues
      rw [located] at level
      rw [moved, counted]
      cases site with
      | prefill i | refill i =>
          simp only [afterCapture]
          cases next : nextThread i with
          | some j => simpa [nextThread_some next] using level
          | none => simpa [← nextThread_none next] using level
      | body => simpa [afterCapture] using level
  | drainRelease _ located moved queues | popResult _ _ _ located moved _ queues =>
      have counted : after.inFlight = s.inFlight - 1 :=
        congrArg Queues.inFlight queues
      rw [located] at level
      rw [moved, counted]
      simp only [MainPc.level] at level ⊢
      have threads : 0 < nThreads := by decide
      omega
  | pushSentinel i located moved queues =>
      have same : after.inFlight = s.inFlight := congrArg Queues.inFlight queues
      rw [located] at level dark
      rw [moved, same, dark]
      cases nextThread i <;> simpa using level
  | deinitPool located moved queues =>
      have same : after.inFlight = s.inFlight := congrArg Queues.inFlight queues
      rw [located] at level dark
      rw [moved, same, dark]
      simpa using level

/-- The counted jobs are the jobs in flight, and every slot of an initialised
pool is in one place. -/
def Conserves (s : State) : Prop :=
  s.queues.tickets.card + s.pc.overcounted = s.inFlight + s.pc.uncounted ∧
    s.slots = if s.pc.pooled = true then Finset.univ.val else 0

/-- A step that hands slots around keeps their number. -/
theorem conserved_of_eq (inv : Slots s) (pooled : after.pc.pooled = s.pc.pooled)
    (same : after.slots = s.slots) :
    after.slots = if after.pc.pooled = true then Finset.univ.val else 0 := by
  rw [same, pooled]
  exact inv.conserved

/-- A step that leaves the jobs in flight alone, slots passing at most between
the free list and the main thread. -/
theorem settled (inv : Slots s)
    (tickets : after.queues.tickets = s.queues.tickets)
    (flight : after.inFlight = s.inFlight)
    (counts : after.pc.uncounted = s.pc.uncounted ∧
      after.pc.overcounted = s.pc.overcounted)
    (pooled : after.pc.pooled = s.pc.pooled)
    (slots : (↑after.pool.freeList.items + ↑after.pc.slots : Multiset (Fin nBuf)) =
      ↑s.pool.freeList.items + ↑s.pc.slots) :
    Conserves after := by
  constructor
  · rw [tickets, flight, counts.1, counts.2]
    exact inv.counted
  · exact inv.conserved_of_eq pooled (by rw [State.slots, State.slots, tickets, slots])

/-- `BufPool::init` puts every slot on the free list. -/
theorem initPool_main (inv : Slots s) (located : s.pc = .startup .initPool)
    (moved : after.pc = .startup .spawn)
    (queues : after.queues = { s.queues with pool := s.pool.init }) :
    Conserves after := by
  have pool : after.pool = s.pool.init := congrArg Queues.pool queues
  have flight : after.inFlight = s.inFlight := congrArg Queues.inFlight queues
  have tickets : after.queues.tickets = s.queues.tickets := by rw [queues]; rfl
  have empty : s.slots = 0 := by simpa [located] using inv.conserved
  have counted := inv.counted
  rw [located] at counted
  constructor
  · rw [tickets, flight, moved]
    exact counted
  · calc after.slots = s.slots + ↑(List.finRange nBuf) := by
          rw [State.slots, State.slots, tickets, pool, located, moved]
          simp only [BufPool.init, MainPc.slots, ← Multiset.coe_add]
          abel
      _ = _ := by
          rw [empty, zero_add, moved]
          rfl

/-- The threads are spawned before any job is in flight. -/
theorem spawn_main (inv : Slots s) (flight : s.inFlight = 0)
    (located : s.pc = .startup .spawn) (moved : after.pc = .startup .startServers)
    (queues : after.queues = { s.queues with workers := fun _ => .popping }) :
    Conserves after := by
  have pool : after.pool = s.pool := congrArg Queues.pool queues
  have counted := inv.counted
  rw [located] at counted
  simp only [MainPc.overcounted, MainPc.uncounted, flight, add_zero,
    Multiset.card_eq_zero] at counted
  have tickets : after.queues.tickets = 0 := by
    have cards := congrArg Multiset.card counted
    simp only [Queues.tickets, Multiset.card_add, Multiset.card_zero] at cards
    rw [queues, Queues.tickets_spawn, ← Multiset.card_eq_zero, Multiset.card_add]
    omega
  refine inv.settled (tickets.trans counted.symm)
    (congrArg Queues.inFlight queues) ?_ ?_ ?_ <;> simp [located, moved, pool]

/-- A submission moves the slot of the main thread into a job, which is counted
one step later. -/
theorem submit_main (inv : Slots s) {site : CaptureSite} {slot : Fin nBuf}
    {captureUs : Nat} (located : s.pc = .capture site (.submit slot captureUs))
    (moved : after.pc = .capture site .stamp)
    (queues : after.queues = { s.queues with
      inferQ := s.inferQ.push ⟨some slot, s.frameCounter, captureUs⟩
      frameCounter := (s.frameCounter + 1) % 2 ^ 64
      submitted := s.history.submitted ++ [s.frameCounter] }) :
    Conserves after := by
  have pool : after.pool = s.pool := congrArg Queues.pool queues
  have flight : after.inFlight = s.inFlight := congrArg Queues.inFlight queues
  have tickets : after.queues.tickets =
      s.queues.tickets + {(slot, s.frameCounter)} := by
    rw [queues]
    exact s.queues.tickets_push ⟨some slot, s.frameCounter, captureUs⟩
  have counted := inv.counted
  rw [located] at counted
  refine ⟨?_, inv.conserved_of_eq (by simp [located, moved]) ?_⟩
  · rw [tickets, flight, moved]
    simpa using counted
  · rw [State.slots, State.slots, tickets, pool, located, moved]
    simp only [MainPc.slots, Multiset.map_add, Multiset.map_singleton,
      Multiset.coe_nil, Multiset.coe_singleton]
    abel

theorem stamp_main (inv : Slots s) {site : CaptureSite}
    (located : s.pc = .capture site .stamp) (moved : after.pc = afterCapture site)
    (queues : after.queues = { s.queues with inFlight := s.inFlight + 1 }) :
    Conserves after := by
  have pool : after.pool = s.pool := congrArg Queues.pool queues
  have flight : after.inFlight = s.inFlight + 1 := congrArg Queues.inFlight queues
  have tickets : after.queues.tickets = s.queues.tickets := by rw [queues]; rfl
  have counted := inv.counted
  rw [located] at counted
  obtain ⟨slots, counted', drained, pooled, _⟩ := afterCapture_plain site
  rw [← moved] at slots counted' drained pooled
  refine ⟨?_, inv.conserved_of_eq (by rw [pooled, located]; rfl) ?_⟩
  · rw [tickets, flight, drained, counted']
    exact counted
  · rw [State.slots, State.slots, tickets, pool, slots, located]
    rfl

/-- Taking a result moves its slot to the main thread; `in_flight` follows at
once, or when the slot is released in a drain. -/
theorem take_main (inv : Slots s) {res : InferResult}
    (tickets : s.queues.tickets = res.ticket ::ₘ after.queues.tickets)
    (pool : after.pool = s.pool) (empty : s.pc.slots = [])
    (held : after.pc.slots = [res.bufIdx]) (pooled : after.pc.pooled = s.pc.pooled)
    (counted : after.queues.tickets.card + after.pc.overcounted =
      after.inFlight + after.pc.uncounted) : Conserves after := by
  refine ⟨counted, inv.conserved_of_eq pooled ?_⟩
  rw [State.slots, State.slots, tickets, pool, empty, held, Multiset.map_cons]
  simp only [InferResult.ticket, Multiset.coe_nil, Multiset.coe_singleton,
    ← Multiset.singleton_add]
  abel

/-- Submitting and taking results keep `in_flight` in step with the jobs, and
every slot stays in one place. -/
theorem conserves_main (hand : Handshake s) (inv : Slots s)
    (taken : mainStep s input = some after) : Conserves after := by
  have counted := inv.counted
  have level := inv.level
  cases mainStep_queues hand taken with
  | kept plain queues =>
      have pool : after.pool = s.pool := congrArg Queues.pool queues
      refine inv.settled (by rw [queues]) (congrArg Queues.inFlight queues)
        ?_ plain.pooled ?_
      · rw [plain.counted.1, plain.counted.2, plain.drained.1, plain.drained.2]
        exact ⟨rfl, rfl⟩
      · rw [pool, plain.slots]
  | initPool located moved queues => exact inv.initPool_main located moved queues
  | spawn located moved queues =>
      rw [located] at level
      exact inv.spawn_main level located moved queues
  | acquire site slot captureUs rest located moved free queues =>
      have pool : after.pool.freeList.items = rest := by
        rw [← State.queues_pool after, queues]
      refine inv.settled (by rw [queues]; rfl) (congrArg Queues.inFlight queues)
        (by simp [located, moved]) (by simp [located, moved]) ?_
      rw [pool, free, located, moved]
      simp only [MainPc.slots, ← Multiset.cons_coe, ← Multiset.singleton_add]
      abel
  | submit site slot captureUs located moved queues =>
      exact inv.submit_main located moved queues
  | stamp site located moved queues => exact inv.stamp_main located moved queues
  | drainPop res rest located moved ready queues =>
      have flight : after.inFlight = s.inFlight := congrArg Queues.inFlight queues
      have tickets : s.queues.tickets = res.ticket ::ₘ after.queues.tickets := by
        rw [queues]
        exact s.queues.tickets_pop ready
      rw [located, tickets, Multiset.card_cons] at counted
      apply inv.take_main tickets (congrArg Queues.pool queues) <;>
        simp only [located, moved, MainPc.slots, MainPc.pooled]
      rw [flight]
      exact counted
  | popResult res rest startUs located moved ready queues =>
      have flight : after.inFlight = s.inFlight - 1 := congrArg Queues.inFlight queues
      have tickets : s.queues.tickets = res.ticket ::ₘ after.queues.tickets := by
        rw [queues]
        exact s.queues.tickets_pop ready
      rw [located, tickets, Multiset.card_cons] at counted
      apply inv.take_main tickets (congrArg Queues.pool queues) <;>
        simp only [located, moved, MainPc.slots, MainPc.pooled]
      rw [flight]
      simp only [MainPc.overcounted, MainPc.uncounted] at counted ⊢
      omega
  | drainRelease slot located moved queues =>
      have pool : after.pool.freeList.items = s.pool.freeList.items ++ [slot] := by
        rw [← State.queues_pool after, queues]
        rfl
      have flight : after.inFlight = s.inFlight - 1 := congrArg Queues.inFlight queues
      have tickets : after.queues.tickets = s.queues.tickets := by rw [queues]; rfl
      rw [located] at counted level
      refine ⟨?_, inv.conserved_of_eq (by simp [located, moved]) ?_⟩
      · rw [tickets, moved, flight]
        simp only [MainPc.overcounted, MainPc.uncounted, MainPc.level]
          at counted level ⊢
        omega
      · rw [State.slots, State.slots, tickets, pool, located, moved]
        simp only [MainPc.slots, ← Multiset.coe_add, Multiset.coe_nil]
        abel
  | recycle slot located moved queues =>
      have pool : after.pool.freeList.items = s.pool.freeList.items ++ [slot] := by
        rw [← State.queues_pool after, queues]
        rfl
      refine inv.settled (by rw [queues]; rfl) (congrArg Queues.inFlight queues)
        (by simp [located, moved]) (by simp [located, moved]) ?_
      rw [pool, located, moved]
      simp only [MainPc.slots, ← Multiset.coe_add, Multiset.coe_nil]
      abel
  | display res startUs located moved queues
  | publish res startUs located moved queues =>
      have pool : after.pool = s.pool := congrArg Queues.pool queues
      refine inv.settled (by rw [queues]; rfl) (congrArg Queues.inFlight queues)
        ?_ ?_ ?_ <;> simp [located, moved, pool]
  | pushSentinel i located moved queues =>
      have pool : after.pool = s.pool := congrArg Queues.pool queues
      have tickets : after.queues.tickets = s.queues.tickets := by
        rw [queues]
        exact (s.queues.tickets_push .sentinel).trans (add_zero _)
      cases next : nextThread i <;> rw [next] at moved <;>
        refine inv.settled tickets (congrArg Queues.inFlight queues) ?_ ?_ ?_ <;>
        simp [located, moved, pool]
  | deinitPool located moved queues =>
      have pool : after.pool.freeList = s.pool.freeList := by
        rw [← State.queues_pool after, queues]
        rfl
      refine inv.settled (by rw [queues]; rfl) (congrArg Queues.inFlight queues)
        ?_ ?_ ?_ <;> simp [located, moved, pool]

end Main

theorem step {s after : State} {label : Label} (hand : Handshake s)
    (inv : Slots s) (taken : Pipeline.step s label = some after) :
    Slots after := by
  cases label with
  | main input =>
      rcases inv.conserves_main hand taken with ⟨counted, conserved⟩
      exact ⟨inv.level_main hand taken, counted, conserved⟩
  | control input =>
      have effect := controlStep_effect taken
      have queues := queues_control effect
      rcases inv with ⟨level, counted, conserved⟩
      constructor <;> simp only [State.slots, queues, effect.pc, effect.inFlight,
        effect.pool, effect.blackoutActive] <;> assumption
  | worker i input =>
      have frame := workerStep_frame taken
      have tickets := Queues.tickets_worker (workerStep_queues taken)
      rcases inv with ⟨level, counted, conserved⟩
      constructor <;> simp only [State.slots, tickets, frame.pc, frame.inFlight,
        frame.pool, frame.flags] <;> assumption

end Slots

theorem reachable_slots {s : State} (reach : system.Reachable s) : Slots s :=
  System.ReachableUnder.invariant Slots Slots.initial
    (fun _ _ _ earlier inv _ taken =>
      inv.step (reachable_handshake earlier) taken) reach

/-! ## Conservation and deadlock freedom -/

/-- Where the slots are and what `in_flight` says. -/
structure SlotsAccounted (s : State) : Prop where
  /-- once the pool exists, each slot is in exactly one place -/
  onePlace : s.pc.pooled = true → ∀ slot, s.slots.count slot = 1
  /-- `in_flight` is exact except between a queue operation of the main thread
  and the update that follows it; every test and every wait is outside -/
  counts : s.pc.uncounted = 0 → s.pc.overcounted = 0 →
    s.inFlight = s.queues.tickets.card
  /-- `pool.acquire()` finds a free slot -/
  acquires : ∀ site, s.pc = .capture site .acquire → s.pool.freeList.items ≠ []
  /-- `result_q.pop()` waits for a job that is in flight -/
  awaits : s.pc = .entry .drainPop ∨ s.pc = .body .popResult →
    s.queues.tickets ≠ 0

/-- Fewer than `N_THREADS` jobs are in flight when a capture begins. -/
theorem capture_room {s : State} (inv : Slots s) {site : CaptureSite}
    (located : s.pc = .capture site .acquire) : s.inFlight < nThreads := by
  have level := inv.level
  rw [located] at level
  cases site with
  | prefill i | refill i => exact lt_of_eq_of_lt level i.isLt
  | body => exact Nat.lt_of_succ_le (Nat.le_of_eq level)

theorem free_nonempty {s : State} (inv : Slots s) {site : CaptureSite}
    (located : s.pc = .capture site .acquire) :
    s.pool.freeList.items ≠ [] := by
  intro empty
  have conserved := congrArg Multiset.card inv.conserved
  have counted := inv.counted
  have room := capture_room inv located
  have smaller : nThreads < nBuf := by decide
  rw [State.slots, empty, located] at conserved
  rw [located] at counted
  simp at conserved counted
  omega

/-- In every state of every run each slot is in one place, `in_flight` counts the
jobs in flight, and the main thread waits for nothing that cannot come. -/
theorem slots_accounted {s : State} (reach : system.Reachable s) :
    SlotsAccounted s := by
  have inv := reachable_slots reach
  constructor
  case onePlace =>
    intro pooled slot
    rw [inv.conserved, if_pos pooled]
    exact Multiset.count_eq_one_of_mem Finset.univ.nodup (Finset.mem_univ slot)
  case counts =>
    intro settled drained
    have counted := inv.counted
    rw [settled, drained] at counted
    exact counted.symm
  case acquires => exact fun site located => free_nonempty inv located
  case awaits =>
    intro waiting none
    have counted := inv.counted
    have level := inv.level
    have threads : 0 < nThreads := by decide
    rcases waiting with located | located <;> rw [located] at counted level <;>
      simp [none] at counted level <;> omega

/-- A run through startup, pre-fill and a blackout's drain. -/
theorem slots_accounted_in_drain :
    ∃ s, system.Reachable s ∧ s.pc = .entry .drainPop ∧ SlotsAccounted s := by
  obtain ⟨s, reach, located⟩ := System.reaches_of_replay system System.unrestricted
    (Schedule.boot ++ Schedule.connect ++ Schedule.request .blackout ++
      Schedule.control 1 ++ Schedule.main 7)
    (fun s => s.pc = .entry .drainPop) (by decide)
  exact ⟨s, reach, by simpa using located, slots_accounted reach⟩

end KhadasYolo.Pipeline
