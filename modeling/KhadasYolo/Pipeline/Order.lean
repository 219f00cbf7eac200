import KhadasYolo.Pipeline.Slots

/-!
# Capture order

Frames are numbered as they are submitted and `infer_q` keeps their order, but
three threads take them from there and put their results on one `result_q` in
whatever order they finish.  The frames displayed and published are in capture
order as long as no thread overtakes another.
-/

namespace KhadasYolo.Pipeline

open TransitionSystem

/-! ## Frames along the pipeline -/

namespace MainPc

/-- The frame in hand that is not displayed yet. -/
@[simp] def undisplayed : MainPc → List Nat
  | .body (.display res _) => [res.frameId]
  | _ => []

/-- The frame in hand that is displayed and not published yet. -/
@[simp] def unpublished : MainPc → List Nat
  | .body (.publish res _) => [res.frameId]
  | _ => []

/-- About to push a job. -/
@[simp] def submitting : MainPc → Bool
  | .capture _ (.submit _ _) => true
  | _ => false

theorem no_frame {pc : MainPc} (hidden : pc.showing = false) :
    pc.undisplayed = [] ∧ pc.unpublished = [] := by
  cases pc with
  | body point => cases point <;> simp_all
  | _ => simp

end MainPc

/-- A thread about to push its result has a newer frame than the other one. -/
@[simp] def WorkerPc.overtakes (emitting other : WorkerPc) : Bool :=
  match emitting, other.ticket with
  | .emit result, some ticket => decide (ticket.2 < result.frameId)
  | _, _ => false

namespace State

/-- Frames past the inference threads, in the order of their results. -/
def results (s : State) : List Nat :=
  s.displayed ++ s.pc.undisplayed ++ s.resultQ.items.map (·.frameId)

/-- Frames before the inference threads, and the number of the next. -/
def upcoming (s : State) : List Nat :=
  (s.inferQ.items.filterMap InferJob.ticket).map Prod.snd ++ [s.frameCounter]

end State

/-- Frames are displayed and published in the order of their capture, and an
iteration takes the oldest frame in flight. -/
structure InCaptureOrder (s : State) : Prop where
  displayed : s.displayed.Pairwise (· < ·)
  published : (s.published.map (·.frameId)).Pairwise (· < ·)
  oldest : s.pc = .body .popResult → ∀ res rest,
    s.resultQ.items = res :: rest →
      ∀ ticket ∈ s.queues.tickets, res.frameId ≤ ticket.2

/-- The step is neither an inference thread's push of a result while another
thread has an older frame in hand, nor the submission that makes the 64-bit
`frame_counter` wrap. -/
def KeepsOrder (s : State) (label : Label) : Prop :=
  match label with
  | .main _ => s.pc.submitting = true → s.frameCounter + 1 < 2 ^ 64
  | .worker i _ => ∀ j, j ≠ i → (s.workers i).overtakes (s.workers j) = false
  | .control _ => True

instance (s : State) : DecidablePred (KeepsOrder s)
  | .main _ => inferInstanceAs (Decidable (_ → _))
  | .worker i _ => inferInstanceAs (Decidable (∀ j, j ≠ i → _ = _))
  | .control _ => inferInstanceAs (Decidable True)

/-- The frames of the four stages follow one another. -/
structure InOrder (s : State) : Prop where
  results : s.results.Pairwise (· < ·)
  upcoming : s.upcoming.Pairwise (· < ·)
  gap : ∀ done ∈ s.results, ∀ next ∈ s.upcoming, done < next
  busyAfter : ∀ i ticket, (s.workers i).ticket = some ticket →
    ∀ done ∈ s.results, done < ticket.2
  busyBefore : ∀ i ticket, (s.workers i).ticket = some ticket →
    ∀ next ∈ s.upcoming, ticket.2 < next
  distinct : ∀ i j mine other, (s.workers i).ticket = some mine →
    (s.workers j).ticket = some other → i ≠ j → mine.2 ≠ other.2
  shown : s.displayed = s.published.map (·.frameId) ++ s.pc.unpublished

namespace InOrder

theorem initial : InOrder system.init := by
  constructor <;> simp [system, State.results, State.upcoming]

section Main

variable {s after : State} {input : MainInput}

/-- A step that leaves the inference threads and what is before them alone, and
past them at most drops results. -/
theorem carry (inv : InOrder s) (results : after.results.Sublist s.results)
    (upcoming : after.upcoming = s.upcoming)
    (workers : ∀ i ticket, (after.workers i).ticket = some ticket →
      (s.workers i).ticket = some ticket)
    (shown : after.displayed =
      after.published.map (·.frameId) ++ after.pc.unpublished) :
    InOrder after := by
  constructor
  case results => exact inv.results.sublist results
  case upcoming => exact upcoming ▸ inv.upcoming
  case gap =>
    intro done member
    rw [upcoming]
    exact inv.gap done (results.subset member)
  case busyAfter =>
    intro i ticket working done member
    exact inv.busyAfter i ticket (workers i ticket working) done
      (results.subset member)
  case busyBefore =>
    intro i ticket working
    rw [upcoming]
    exact inv.busyBefore i ticket (workers i ticket working)
  case distinct =>
    intro i j mine other left right
    exact inv.distinct i j mine other (workers i mine left) (workers j other right)
  case shown => exact shown

/-- A step that leaves results and frames to come alone. -/
theorem idle (inv : InOrder s) (displayed : after.displayed = s.displayed)
    (published : after.published = s.published)
    (resultQ : after.resultQ = s.resultQ) (upcoming : after.upcoming = s.upcoming)
    (workers : ∀ i ticket, (after.workers i).ticket = some ticket →
      (s.workers i).ticket = some ticket)
    (undisplayed : after.pc.undisplayed = s.pc.undisplayed)
    (unpublished : after.pc.unpublished = s.pc.unpublished) : InOrder after := by
  have results : after.results = s.results := by
    rw [State.results, State.results, displayed, undisplayed, resultQ]
  apply inv.carry (results ▸ List.Sublist.refl _) upcoming workers
  rw [displayed, published, unpublished]
  exact inv.shown

theorem upcoming_eq (inferQ : after.inferQ = s.inferQ)
    (counter : after.frameCounter = s.frameCounter) :
    after.upcoming = s.upcoming := by
  rw [State.upcoming, State.upcoming, inferQ, counter]

/-- A step that changes no more than the pool and `in_flight`. -/
theorem idle_main (inv : InOrder s) {pool : BufPool} {inFlight : Nat}
    (queues : after.queues = { s.queues with pool := pool, inFlight := inFlight })
    (undisplayed : after.pc.undisplayed = s.pc.undisplayed)
    (unpublished : after.pc.unpublished = s.pc.unpublished) : InOrder after := by
  have workers : after.workers = s.workers := congrArg Queues.workers queues
  have upcoming : after.upcoming = s.upcoming :=
    upcoming_eq (congrArg Queues.inferQ queues) (congrArg Queues.frameCounter queues)
  apply inv.idle (congrArg Queues.displayed queues) (congrArg Queues.published queues)
    (congrArg Queues.resultQ queues) upcoming
  · intro i ticket carried
    rwa [workers] at carried
  · exact undisplayed
  · exact unpublished

/-- A new frame is behind all others. -/
theorem submit_main (inv : InOrder s) {site : CaptureSite} {slot : Fin nBuf}
    {captureUs : Nat} (located : s.pc = .capture site (.submit slot captureUs))
    (inBounds : s.frameCounter + 1 < 2 ^ 64)
    (moved : after.pc = .capture site .stamp)
    (queues : after.queues = { s.queues with
      inferQ := s.inferQ.push ⟨some slot, s.frameCounter, captureUs⟩
      frameCounter := (s.frameCounter + 1) % 2 ^ 64
      submitted := s.history.submitted ++ [s.frameCounter] }) :
    InOrder after := by
  have results : after.results = s.results := by
    rw [State.results, State.results, moved, located,
      ← State.queues_displayed after, queues,
      ← State.queues_resultQ after, queues]
    rfl
  have workers : after.workers = s.workers := congrArg Queues.workers queues
  have upcoming : after.upcoming = s.upcoming ++ [s.frameCounter + 1] := by
    rw [State.upcoming, State.upcoming,
      ← State.queues_inferQ after, queues,
      ← State.queues_frameCounter after, queues,
      Nat.mod_eq_of_lt inBounds]
    simp
  have last : ∀ next ∈ s.upcoming, next ≤ s.frameCounter := by
    have ordered := inv.upcoming
    rw [State.upcoming, List.pairwise_append] at ordered
    intro next member
    rcases List.mem_append.mp member with queued | counter
    · exact Nat.le_of_lt (ordered.2.2 next queued _ (List.mem_singleton_self _))
    · exact Nat.le_of_eq (List.mem_singleton.mp counter)
  have counter : s.frameCounter ∈ s.upcoming :=
    List.mem_append_right _ (List.mem_singleton_self _)
  constructor
  case results => exact results ▸ inv.results
  case upcoming =>
    rw [upcoming, List.pairwise_append]
    refine ⟨inv.upcoming, List.pairwise_singleton _ _, fun next member new new' => ?_⟩
    rw [List.mem_singleton.mp new']
    exact Nat.lt_succ_of_le (last next member)
  case gap =>
    intro done member next queued
    rw [results] at member
    rw [upcoming, List.mem_append, List.mem_singleton] at queued
    rcases queued with before | rfl
    · exact inv.gap done member next before
    · exact Nat.lt_succ_of_lt (inv.gap done member _ counter)
  case busyAfter =>
    rw [workers, results]
    exact inv.busyAfter
  case busyBefore =>
    intro i ticket working next queued
    rw [workers] at working
    rw [upcoming, List.mem_append, List.mem_singleton] at queued
    rcases queued with before | rfl
    · exact inv.busyBefore i ticket working next before
    · exact Nat.lt_succ_of_lt (inv.busyBefore i ticket working _ counter)
  case distinct =>
    rw [workers]
    exact inv.distinct
  case shown =>
    have shown := inv.shown
    rw [located] at shown
    rw [moved, ← State.queues_displayed after, queues,
      ← State.queues_published after, queues]
    exact shown

theorem main (hand : Handshake s) (inv : InOrder s)
    (keeps : KeepsOrder s (.main input))
    (taken : mainStep s input = some after) : InOrder after := by
  have shown := inv.shown
  cases mainStep_queues hand taken with
  | submit site slot captureUs located moved queues =>
      exact inv.submit_main located (keeps (by simp [located])) moved queues
  | kept plain queues =>
      rcases MainPc.no_frame plain.showing.1 with ⟨undisplayed, unpublished⟩
      rcases MainPc.no_frame plain.showing.2 with ⟨undisplayed', unpublished'⟩
      apply inv.idle_main queues
      · exact undisplayed'.trans undisplayed.symm
      · exact unpublished'.trans unpublished.symm
  | spawn located moved queues =>
      have workers : after.workers = fun _ => .popping := congrArg Queues.workers queues
      exact inv.idle (congrArg Queues.displayed queues)
        (congrArg Queues.published queues) (congrArg Queues.resultQ queues)
        (upcoming_eq (congrArg Queues.inferQ queues)
          (congrArg Queues.frameCounter queues))
        (by simp [workers]) (by simp [located, moved]) (by simp [located, moved])
  | stamp site located moved queues =>
      obtain ⟨_, _, _, _, _, _, _, hidden⟩ := afterCapture_plain site
      obtain ⟨undisplayed, unpublished⟩ := MainPc.no_frame hidden
      apply inv.idle_main queues
      · rw [moved, undisplayed, located]
        rfl
      · rw [moved, unpublished, located]
        rfl
  | initPool located moved queues | acquire _ _ _ _ located moved _ queues
  | drainRelease _ located moved queues | recycle _ located moved queues
  | deinitPool located moved queues =>
      apply inv.idle_main queues
      · rw [located, moved]
        rfl
      · rw [located, moved]
        rfl
  | pushSentinel i located moved queues =>
      have workers : after.workers = s.workers := congrArg Queues.workers queues
      have upcoming : after.upcoming = s.upcoming := by
        rw [State.upcoming, State.upcoming,
          ← State.queues_inferQ after, queues,
          ← State.queues_frameCounter after, queues]
        simp [InferJob.sentinel]
      cases next : nextThread i <;> rw [next] at moved <;>
        exact inv.idle (congrArg Queues.displayed queues)
          (congrArg Queues.published queues) (congrArg Queues.resultQ queues)
          upcoming (by simp [workers]) (by simp [located, moved])
          (by simp [located, moved])
  | drainPop res rest located moved ready queues
  | popResult res rest _ located moved ready queues =>
      have workers : after.workers = s.workers := congrArg Queues.workers queues
      have displayed : after.displayed = s.displayed := congrArg Queues.displayed queues
      have published : after.published = s.published := congrArg Queues.published queues
      have resultQ : after.resultQ = ⟨rest⟩ := congrArg Queues.resultQ queues
      refine inv.carry ?_ (upcoming_eq (congrArg Queues.inferQ queues)
        (congrArg Queues.frameCounter queues)) (by simp [workers]) ?_
      · rw [State.results, State.results, moved, located, ready, displayed, resultQ]
        simp
      · rw [located] at shown
        rw [moved, displayed, published]
        exact shown
  | display res startUs located moved queues =>
      have workers : after.workers = s.workers := congrArg Queues.workers queues
      have displayed : after.displayed = s.displayed ++ [res.frameId] :=
        congrArg Queues.displayed queues
      have published : after.published = s.published := congrArg Queues.published queues
      have resultQ : after.resultQ = s.resultQ := congrArg Queues.resultQ queues
      refine inv.carry ?_ (upcoming_eq (congrArg Queues.inferQ queues)
        (congrArg Queues.frameCounter queues)) (by simp [workers]) ?_
      · rw [State.results, State.results, moved, located, displayed, resultQ]
        simp
      · simp only [located, MainPc.unpublished, List.append_nil] at shown
        rw [moved, displayed, published, shown]
        rfl
  | publish res startUs located moved queues =>
      have workers : after.workers = s.workers := congrArg Queues.workers queues
      have displayed : after.displayed = s.displayed := congrArg Queues.displayed queues
      have published : after.published =
          s.published ++ [⟨res.frameId, startUs, res.group⟩] :=
        congrArg Queues.published queues
      have resultQ : after.resultQ = s.resultQ := congrArg Queues.resultQ queues
      refine inv.carry ?_ (upcoming_eq (congrArg Queues.inferQ queues)
        (congrArg Queues.frameCounter queues)) (by simp [workers]) ?_
      · rw [State.results, State.results, moved, located, displayed, resultQ]
        simp
      · simp only [located, MainPc.unpublished] at shown
        rw [moved, displayed, published, shown]
        simp

end Main

section Worker

variable {s after : State} {i : Fin nThreads}

/-- A frame in work after a step of `i` is the one that `i` holds now, or was already
in work by another thread. -/
theorem ticket_update {next : WorkerPc}
    (workers : after.workers = Function.update s.workers i next) {j : Fin nThreads}
    {ticket : Ticket} (held : (after.workers j).ticket = some ticket) :
    (j = i ∧ next.ticket = some ticket) ∨
      (j ≠ i ∧ (s.workers j).ticket = some ticket) := by
  rw [workers] at held
  by_cases same : j = i
  · subst same
    rw [Function.update_self] at held
    exact Or.inl ⟨rfl, held⟩
  · rw [Function.update_of_ne same] at held
    exact Or.inr ⟨same, held⟩

/-- An inference thread takes the oldest frame of `infer_q`. -/
theorem take_worker (inv : InOrder s) (frame : WorkerFrame s after)
    {slot : Fin nBuf} {frameId captureUs : Nat} {rest : List InferJob}
    (ready : s.inferQ.items = ⟨some slot, frameId, captureUs⟩ :: rest)
    (queues : after.queues = { s.queues with
      inferQ := ⟨rest⟩
      workers := Function.update s.workers i (.check slot frameId captureUs) }) :
    InOrder after := by
  have workers : after.workers =
      Function.update s.workers i (.check slot frameId captureUs) :=
    congrArg Queues.workers queues
  have resultQ : after.resultQ = s.resultQ := congrArg Queues.resultQ queues
  have results : after.results = s.results := by
    rw [State.results, State.results, frame.displayed, frame.pc, resultQ]
  have upcoming : s.upcoming = frameId :: after.upcoming := by
    rw [State.upcoming, State.upcoming, frame.frameCounter, ready,
      ← State.queues_inferQ after, queues]
    simp
  have ordered := inv.upcoming
  have gap := inv.gap
  rw [upcoming, List.pairwise_cons] at ordered
  rw [upcoming] at gap
  have working : ∀ j ticket, (after.workers j).ticket = some ticket →
      (j = i ∧ ticket = (slot, frameId)) ∨
        (j ≠ i ∧ (s.workers j).ticket = some ticket) := by
    intro j ticket held
    rcases ticket_update workers held with ⟨same, taken⟩ | before
    · exact Or.inl ⟨same, (Option.some.inj taken).symm⟩
    · exact Or.inr before
  have older : ∀ j ticket, (s.workers j).ticket = some ticket →
      ticket.2 < frameId := by
    intro j ticket held
    apply inv.busyBefore j ticket held frameId
    rw [upcoming]
    exact List.mem_cons_self
  constructor
  case results => exact results ▸ inv.results
  case upcoming => exact ordered.2
  case gap =>
    intro done member next queued
    exact gap done (results ▸ member) next (List.mem_cons_of_mem _ queued)
  case busyAfter =>
    intro j ticket held done member
    rw [results] at member
    rcases working j ticket held with ⟨_, rfl⟩ | ⟨_, before⟩
    · exact gap done member frameId List.mem_cons_self
    · exact inv.busyAfter j ticket before done member
  case busyBefore =>
    intro j ticket held next queued
    rcases working j ticket held with ⟨_, rfl⟩ | ⟨_, before⟩
    · exact ordered.1 next queued
    · exact (older j ticket before).trans (ordered.1 next queued)
  case distinct =>
    intro j k mine other left right different
    rcases working j mine left with ⟨rfl, rfl⟩ | ⟨_, left⟩ <;>
      rcases working k other right with ⟨rfl, rfl⟩ | ⟨_, right⟩
    · exact absurd rfl different
    · exact (older k other right).ne'
    · exact (older j mine left).ne
    · exact inv.distinct j k mine other left right different
  case shown =>
    rw [frame.displayed, frame.published, frame.pc]
    exact inv.shown

/-- A result that overtakes no other frame goes behind all results. -/
theorem emit_worker (inv : InOrder s) (frame : WorkerFrame s after)
    {result : InferResult} (located : s.workers i = .emit result)
    (keeps : ∀ j, j ≠ i → (s.workers i).overtakes (s.workers j) = false)
    (queues : after.queues = { s.queues with
      resultQ := s.resultQ.push result
      processed := s.history.processed ++ [result.frameId]
      workers := Function.update s.workers i .popping }) : InOrder after := by
  have workers : after.workers = Function.update s.workers i .popping :=
    congrArg Queues.workers queues
  have mine : (s.workers i).ticket = some result.ticket := by
    rw [located]
    rfl
  have results : after.results = s.results ++ [result.frameId] := by
    rw [State.results, State.results, frame.displayed, frame.pc,
      ← State.queues_resultQ after, queues]
    simp
  have upcoming : after.upcoming = s.upcoming := by
    rw [State.upcoming, State.upcoming, frame.frameCounter,
      ← State.queues_inferQ after, queues]
    rfl
  have working : ∀ j ticket, (after.workers j).ticket = some ticket →
      j ≠ i ∧ (s.workers j).ticket = some ticket := by
    intro j ticket held
    rcases ticket_update workers held with ⟨_, idle⟩ | before
    · cases idle
    · exact before
  have newer : ∀ j ticket, j ≠ i → (s.workers j).ticket = some ticket →
      result.frameId < ticket.2 := by
    intro j ticket different held
    have behind := keeps j different
    simp only [located, WorkerPc.overtakes, held, decide_eq_false_iff_not,
      Nat.not_lt] at behind
    apply lt_of_le_of_ne behind
    exact inv.distinct i j _ ticket mine held different.symm
  constructor
  case results =>
    rw [results, List.pairwise_append]
    refine ⟨inv.results, List.pairwise_singleton _ _, fun done member new new' => ?_⟩
    rw [List.mem_singleton.mp new']
    exact inv.busyAfter i _ mine done member
  case upcoming => exact upcoming ▸ inv.upcoming
  case gap =>
    intro done member next queued
    rw [upcoming] at queued
    rw [results, List.mem_append, List.mem_singleton] at member
    rcases member with before | rfl
    · exact inv.gap done before next queued
    · exact inv.busyBefore i _ mine next queued
  case busyAfter =>
    intro j ticket held done member
    rcases working j ticket held with ⟨different, before⟩
    rw [results, List.mem_append, List.mem_singleton] at member
    rcases member with old | rfl
    · exact inv.busyAfter j ticket before done old
    · exact newer j ticket different before
  case busyBefore =>
    intro j ticket held
    rw [upcoming]
    exact inv.busyBefore j ticket (working j ticket held).2
  case distinct =>
    intro j k one other left right
    exact inv.distinct j k one other (working j one left).2 (working k other right).2
  case shown =>
    rw [frame.displayed, frame.published, frame.pc]
    exact inv.shown

theorem worker (inv : InOrder s) (frame : WorkerFrame s after)
    (keeps : ∀ j, j ≠ i → (s.workers i).overtakes (s.workers j) = false)
    (effect : WorkerEffect s i after) : InOrder after := by
  have undisplayed : after.pc.undisplayed = s.pc.undisplayed := by rw [frame.pc]
  have unpublished : after.pc.unpublished = s.pc.unpublished := by rw [frame.pc]
  cases effect with
  | take slot frameId captureUs rest located ready queues =>
      exact inv.take_worker frame ready queues
  | emit result located queues => exact inv.emit_worker frame located keeps queues
  | retire frameId captureUs rest located ready queues =>
      have workers : after.workers = Function.update s.workers i .exited :=
        congrArg Queues.workers queues
      have upcoming : after.upcoming = s.upcoming := by
        rw [State.upcoming, State.upcoming, frame.frameCounter, ready,
          ← State.queues_inferQ after, queues]
        simp [List.filterMap_cons]
      refine inv.idle frame.displayed frame.published
        (congrArg Queues.resultQ queues) upcoming ?_ undisplayed unpublished
      intro j ticket held
      rcases ticket_update workers held with ⟨_, gone⟩ | ⟨_, before⟩
      · cases gone
      · exact before
  | work ticket next located carried queues =>
      have workers : after.workers = Function.update s.workers i next :=
        congrArg Queues.workers queues
      refine inv.idle frame.displayed frame.published
        (congrArg Queues.resultQ queues)
        (upcoming_eq (congrArg Queues.inferQ queues) frame.frameCounter)
        ?_ undisplayed unpublished
      intro j held' held
      rcases ticket_update workers held with ⟨rfl, still⟩ | ⟨_, before⟩
      · rw [carried] at still
        rw [located, still]
      · exact before

end Worker

end InOrder

theorem reachable_inOrder {s : State}
    (reach : system.ReachableUnder KeepsOrder s) : InOrder s := by
  refine System.ReachableUnder.invariant InOrder InOrder.initial ?_ reach
  intro s label after earlier inv keeps taken
  cases label with
  | main input =>
      exact inv.main (reachable_handshake earlier.reachable) keeps taken
  | control input =>
      have effect := controlStep_effect taken
      exact inv.idle effect.displayed effect.published effect.resultQ
        (InOrder.upcoming_eq effect.inferQ effect.frameCounter)
        (by simp [effect.workers]) (by rw [effect.pc]) (by rw [effect.pc])
  | worker i input =>
      exact inv.worker (workerStep_frame taken) keeps (workerStep_queues taken)

/-- The head of `result_q` is older than anything else in flight. -/
theorem oldest_of_inOrder {s : State} (inv : InOrder s) {res : InferResult}
    {rest : List InferResult} (ready : s.resultQ.items = res :: rest)
    (ticket : Ticket) (flight : ticket ∈ s.queues.tickets) :
    res.frameId ≤ ticket.2 := by
  have head : res.frameId ∈ s.results := by simp [State.results, ready]
  rw [Queues.tickets, Multiset.mem_add, Multiset.mem_add] at flight
  rcases flight with (queued | busy) | waiting
  · refine Nat.le_of_lt (inv.gap _ head ticket.2 (List.mem_append_left _ ?_))
    exact List.mem_map_of_mem queued
  · rcases Multiset.mem_sum.mp busy with ⟨i, _, held⟩
    exact Nat.le_of_lt (inv.busyAfter i ticket (Option.mem_toList.mp held) _ head)
  · have ordered := inv.results
    rw [State.results, ready, List.map_cons, List.pairwise_append,
      List.pairwise_cons] at ordered
    rcases List.mem_map.mp (Multiset.mem_coe.mp waiting) with ⟨result, member, rfl⟩
    rw [State.queues_resultQ, ready, List.mem_cons] at member
    rcases member with rfl | member
    · exact Nat.le_refl _
    · exact Nat.le_of_lt (ordered.2.1.1 _ (List.mem_map_of_mem member))

/-- As long as no inference thread overtakes another and the frame counter does
not wrap, frames are displayed and published in capture order. -/
theorem in_capture_order {s : State}
    (reach : system.ReachableUnder KeepsOrder s) : InCaptureOrder s := by
  have inv := reachable_inOrder reach
  have displayed : s.displayed.Pairwise (· < ·) := by
    have ordered := inv.results
    rw [State.results, List.append_assoc, List.pairwise_append] at ordered
    exact ordered.1
  constructor
  case displayed => exact displayed
  case published =>
    rw [inv.shown, List.pairwise_append] at displayed
    exact displayed.1
  case oldest => exact fun _ res rest ready => oldest_of_inOrder inv ready

/-- From the top of the main loop through one ordinary iteration. -/
def iteration : List Label := Schedule.main 9

/-- The three threads finish in the order of their frames. -/
theorem in_capture_order_in_turn :
    ∃ s, system.ReachableUnder KeepsOrder s ∧ s.displayed = [0, 1] ∧
      InCaptureOrder s := by
  obtain ⟨s, reach, shown⟩ := System.reaches_of_replay system KeepsOrder
    (Schedule.boot ++ Schedule.npuJobs ++ iteration ++ iteration)
    (fun s => s.displayed = [0, 1]) (by decide)
  exact ⟨s, reach, by simpa using shown, in_capture_order reach⟩

/-- Thread 0 takes frame 0; thread 1 takes frame 1 and finishes first. -/
def overtaking : List Label :=
  Schedule.boot ++ [.worker 0 {}] ++ List.replicate 7 (.worker 1 {}) ++
    iteration ++ List.replicate 6 (.worker 0 {}) ++ iteration

theorem frames_out_of_order :
    ¬∀ s, system.Reachable s → InCaptureOrder s := by
  intro ordered
  obtain ⟨s, reach, shown⟩ := System.reaches_of_replay system
    System.unrestricted overtaking
    (fun s => s.displayed = [1, 0] && s.published.map (·.frameId) = [1, 0])
    (by decide)
  simp only [Bool.and_eq_true, decide_eq_true_eq] at shown
  have displayed := (ordered s reach).displayed
  simp [shown.1] at displayed

end KhadasYolo.Pipeline
