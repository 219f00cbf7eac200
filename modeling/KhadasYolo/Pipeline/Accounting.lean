import KhadasYolo.Pipeline.Order
import KhadasYolo.Pipeline.Workers

/-!
# Where the frames go

Every frame that is submitted is displayed and published once, or dropped when a
blackout drains the jobs in flight, or still in flight.  A blackout drops exactly
one frame for each inference thread, and nothing else drops any.
-/

namespace KhadasYolo.Pipeline

open TransitionSystem

/-- The results that the blackout being entered has drained so far. -/
@[simp] def MainPc.drained (inFlight : Nat) : MainPc → Nat
  | .entry .drainTest | .entry .drainPop => nThreads - inFlight
  | .entry (.drainRelease _) => nThreads - inFlight + 1
  | .entry (.destroy _) | .entry .activeLock | .entry .activeStore => nThreads
  | _ => 0

theorem MainPc.drained_of_not_entering {pc : MainPc} {inFlight : Nat}
    (outside : pc.entering = false) : pc.drained inFlight = 0 := by
  cases pc with
  | entry point => cases point <;> simp_all
  | _ => rfl

/-- The results lost to blackouts so far. -/
def State.losses (s : State) : Nat :=
  nThreads * s.history.blackouts + s.pc.drained s.inFlight

/-- The frames behind the inference threads, in no order. -/
def State.behind (s : State) : Multiset Nat :=
  ↑s.displayed + ↑s.pc.undisplayed + s.queues.ready.map Prod.snd

/-! ## Losses -/

section Main

variable {s after : State} {input : MainInput}

/-- Outside the blackout entry nothing is lost. -/
theorem losses_outside (effect : MainEffect s after)
    (outside : s.pc.entering = false) (notTesting : s.pc ≠ .checkBlackout) :
    after.losses = s.losses := by
  have notAnnouncing : s.pc ≠ .entry .activeStore := by
    intro located
    simp [located] at outside
  have still : after.pc.entering = false := by
    cases entering : after.pc.entering with
    | false => rfl
    | true =>
        rcases effect.entering entering with before | ⟨located, _⟩
        · rw [outside] at before
          cases before
        · exact absurd located notTesting
  rw [State.losses, State.losses, MainPc.drained_of_not_entering outside,
    MainPc.drained_of_not_entering still, effect.blackouts, if_neg notAnnouncing]

/-- The entry loses a result where it takes one off `result_q`. -/
theorem losses_entry {point : EntryPc} (slots : Slots s)
    (located : s.pc = .entry point) (taken : entryStep s point = some after) :
    after.losses = s.losses + if point = .drainPop then 1 else 0 := by
  have level := slots.level
  rw [located] at level
  cases point with
  | lock | activeLock =>
      rcases State.lock_map_eq_some taken with ⟨_, rfl⟩
      simp [State.losses, located]
  | clearActive | clearDone | activeUnlock =>
      cases taken
      simp [State.losses, located, State.unlock]
  | unlock =>
      cases taken
      simp only [MainPc.level] at level
      simp [State.losses, located, State.unlock, level]
  | drainTest =>
      cases taken
      simp only [MainPc.level] at level
      by_cases flight : 0 < s.inFlight
      · simp [State.losses, located, flight]
      · have none : s.inFlight = 0 := Nat.eq_zero_of_not_pos flight
        simp [State.losses, located, none]
  | drainPop =>
      simp only [entryStep] at taken
      split at taken
      · cases taken
        simp [State.losses, located]
        omega
      · contradiction
  | drainRelease slot =>
      cases taken
      simp only [MainPc.level] at level
      simp only [State.losses, located, MainPc.drained, reduceCtorEq, if_false]
      omega
  | destroy i =>
      cases taken
      cases nextThread i <;>
        simp [State.losses, located, State.destroyContext]
  | activeStore =>
      cases taken
      simp [State.losses, located, Nat.mul_add]

/-- What one step of the main thread loses. -/
theorem losses_main (slots : Slots s) (taken : mainStep s input = some after) :
    after.losses = s.losses + if s.pc = .entry .drainPop then 1 else 0 := by
  by_cases entry : ∃ point, s.pc = .entry point
  · rcases entry with ⟨point, located⟩
    have stepped : entryStep s point = some after := by
      simpa only [mainStep, located] using taken
    simpa [located] using losses_entry slots located stepped
  · have notPopping : s.pc ≠ .entry .drainPop := fun located => entry ⟨_, located⟩
    rw [if_neg notPopping, Nat.add_zero]
    by_cases testing : s.pc = .checkBlackout
    · simp only [mainStep, testing, Option.some.injEq] at taken
      subst taken
      cases s.flags.blackoutRequested <;> simp [State.losses, testing]
    · refine losses_outside (mainStep_effect taken) ?_ testing
      cases located : s.pc with
      | entry point => exact absurd ⟨point, located⟩ entry
      | _ => rfl

/-! ## One step of the main thread -/

theorem ready_pop {res : InferResult} {rest : List InferResult}
    (ready : s.resultQ.items = res :: rest) (popped : after.resultQ = ⟨rest⟩) :
    s.queues.ready.map Prod.snd = res.frameId ::ₘ after.queues.ready.map Prod.snd := by
  simp [Queues.ready, ready, popped]

/-- What the main thread takes off `result_q` it displays, unless it is draining. -/
theorem behind_main (hand : Handshake s) (taken : mainStep s input = some after) :
    ∃ lost : Multiset Nat, s.behind = after.behind + lost ∧
      lost.card = if s.pc = .entry .drainPop then 1 else 0 := by
  have settled : ∀ {queues : Queues}, after.queues = queues →
      queues.displayed = s.displayed → queues.resultQ = s.resultQ →
      after.pc.undisplayed = s.pc.undisplayed → s.pc ≠ .entry .drainPop →
      ∃ lost : Multiset Nat, s.behind = after.behind + lost ∧
        lost.card = if s.pc = .entry .drainPop then 1 else 0 := by
    intro queues effect displayed resultQ undisplayed elsewhere
    subst effect
    refine ⟨0, ?_, by rw [if_neg elsewhere]; rfl⟩
    simp only [State.queues_displayed] at displayed
    rw [State.behind, State.behind, displayed, undisplayed, Queues.ready,
      Queues.ready, resultQ, add_zero]
    rfl
  cases mainStep_queues hand taken with
  | kept plain queues =>
      refine settled queues rfl rfl ?_ fun located => ?_
      · rw [(MainPc.no_frame plain.showing.1).1, (MainPc.no_frame plain.showing.2).1]
      · have popping : entryStep s .drainPop = some after := by
          simpa only [mainStep, located] using taken
        simp only [entryStep] at popping
        split at popping
        · cases popping
          simpa [located] using plain.slots
        · contradiction
  | initPool located moved queues | spawn located moved queues
  | acquire _ _ _ _ located moved _ queues | submit _ _ _ located moved queues
  | drainRelease _ located moved queues | recycle _ located moved queues
  | deinitPool located moved queues =>
      exact settled queues rfl rfl (by simp [located, moved]) (by simp [located])
  | stamp site located moved queues =>
      refine settled queues rfl rfl ?_ (by simp [located])
      obtain ⟨_, _, _, _, _, _, _, hidden⟩ := afterCapture_plain site
      rw [moved, located, (MainPc.no_frame hidden).1]
      rfl
  | pushSentinel i located moved queues =>
      refine settled queues rfl rfl ?_ (by simp [located])
      rw [moved, located]
      cases nextThread i <;> rfl
  | drainPop drain rest located moved ready queues =>
      refine ⟨{drain.frameId}, ?_, by simp [located]⟩
      have displayed : after.displayed = s.displayed :=
        congrArg Queues.displayed queues
      rw [State.behind, State.behind, located, moved, displayed,
        ready_pop ready (congrArg Queues.resultQ queues), ← Multiset.singleton_add]
      simp only [MainPc.undisplayed]
      abel
  | popResult res rest startUs located moved ready queues =>
      refine ⟨0, ?_, by simp [located]⟩
      have displayed : after.displayed = s.displayed :=
        congrArg Queues.displayed queues
      rw [State.behind, State.behind, located, moved, displayed,
        ready_pop ready (congrArg Queues.resultQ queues), ← Multiset.singleton_add]
      simp only [MainPc.undisplayed, Multiset.coe_nil, Multiset.coe_singleton]
      abel
  | display res startUs located moved queues =>
      refine ⟨0, ?_, by simp [located]⟩
      have displayed : after.displayed = s.displayed ++ [res.frameId] :=
        congrArg Queues.displayed queues
      have resultQ : after.queues.ready = s.queues.ready := by
        rw [queues]
        rfl
      rw [State.behind, State.behind, located, moved, displayed, resultQ]
      simp only [MainPc.undisplayed, ← Multiset.coe_add, Multiset.coe_nil]
      abel
  | publish res startUs located moved queues =>
      exact settled queues rfl rfl (by simp [located, moved]) (by simp [located])

end Main

/-! ## The books -/

/-- The books of the pipeline; `dropped` are the frames lost to blackouts. -/
structure Books (s : State) (dropped : Multiset Nat) : Prop where
  /-- the `n`-th frame submitted has number `n`, in 64 bits -/
  numbered : s.history.submitted =
    (List.range s.history.submitted.length).map (· % 2 ^ 64)
  counter : s.frameCounter = s.history.submitted.length % 2 ^ 64
  handed : (s.history.processed : Multiset Nat) = s.behind + dropped
  lost : dropped.card = s.losses
  shown : s.displayed = s.published.map (·.frameId) ++ s.pc.unpublished

namespace Books

theorem initial : Books system.init 0 := by
  constructor <;>
    simp [system, State.behind, State.losses, State.queues, Queues.ready]

variable {s after : State} {dropped : Multiset Nat}

section Main

variable {input : MainInput}

theorem processed_main (hand : Handshake s) (taken : mainStep s input = some after) :
    after.history.processed = s.history.processed := by
  cases mainStep_queues hand taken with
  | kept _ queues | initPool _ _ queues | spawn _ _ queues
  | acquire _ _ _ _ _ _ _ queues | submit _ _ _ _ _ queues | stamp _ _ _ queues
  | drainPop _ _ _ _ _ queues | drainRelease _ _ _ queues
  | popResult _ _ _ _ _ _ queues | display _ _ _ _ queues
  | publish _ _ _ _ queues | recycle _ _ _ queues | pushSentinel _ _ _ queues
  | deinitPool _ _ queues => exact congrArg Queues.processed queues

/-- Frames are numbered as they are submitted, modulo the width of the counter. -/
theorem numbered_main (hand : Handshake s) (inv : Books s dropped)
    (taken : mainStep s input = some after) :
    after.history.submitted =
      (List.range after.history.submitted.length).map (· % 2 ^ 64) ∧
    after.frameCounter = after.history.submitted.length % 2 ^ 64 := by
  cases mainStep_queues hand taken with
  | submit _ _ _ _ _ queues =>
      have submitted : after.history.submitted =
          s.history.submitted ++ [s.frameCounter] :=
        congrArg Queues.submitted queues
      have counter : after.frameCounter = (s.frameCounter + 1) % 2 ^ 64 :=
        congrArg Queues.frameCounter queues
      rw [submitted, counter, List.length_append, List.length_singleton,
        List.range_succ, List.map_append, ← inv.numbered, inv.counter]
      exact ⟨rfl, Nat.mod_add_mod _ _ _⟩
  | kept _ queues | initPool _ _ queues | spawn _ _ queues
  | acquire _ _ _ _ _ _ _ queues | stamp _ _ _ queues
  | drainPop _ _ _ _ _ queues | drainRelease _ _ _ queues
  | popResult _ _ _ _ _ _ queues | display _ _ _ _ queues
  | publish _ _ _ _ queues | recycle _ _ _ queues | pushSentinel _ _ _ queues
  | deinitPool _ _ queues =>
      have submitted : after.history.submitted = s.history.submitted :=
        congrArg Queues.submitted queues
      have counter : after.frameCounter = s.frameCounter :=
        congrArg Queues.frameCounter queues
      rw [submitted, counter]
      exact ⟨inv.numbered, inv.counter⟩

/-- A frame is published right after it is displayed. -/
theorem shown_main (hand : Handshake s) (inv : Books s dropped)
    (taken : mainStep s input = some after) :
    after.displayed =
      after.published.map (·.frameId) ++ after.pc.unpublished := by
  have shown := inv.shown
  have settled : ∀ {queues : Queues}, after.queues = queues →
      queues.displayed = s.displayed → queues.published = s.published →
      after.pc.unpublished = s.pc.unpublished →
      after.displayed =
        after.published.map (·.frameId) ++ after.pc.unpublished := by
    intro queues effect displayed published unpublished
    subst effect
    simp only [State.queues_displayed, State.queues_published] at displayed published
    rw [displayed, published, unpublished, shown]
  cases mainStep_queues hand taken with
  | kept plain queues =>
      refine settled queues rfl rfl ?_
      rw [(MainPc.no_frame plain.showing.1).2, (MainPc.no_frame plain.showing.2).2]
  | initPool located moved queues | spawn located moved queues
  | acquire _ _ _ _ located moved _ queues | submit _ _ _ located moved queues
  | drainPop _ _ located moved _ queues | drainRelease _ located moved queues
  | popResult _ _ _ located moved _ queues | recycle _ located moved queues
  | deinitPool located moved queues =>
      exact settled queues rfl rfl (by simp [located, moved])
  | stamp site located moved queues =>
      refine settled queues rfl rfl ?_
      obtain ⟨_, _, _, _, _, _, _, hidden⟩ := afterCapture_plain site
      rw [moved, located, (MainPc.no_frame hidden).2]
      rfl
  | pushSentinel i located moved queues =>
      refine settled queues rfl rfl ?_
      rw [moved, located]
      cases nextThread i <;> rfl
  | display res startUs located moved queues =>
      have displayed : after.displayed = s.displayed ++ [res.frameId] :=
        congrArg Queues.displayed queues
      have published : after.published = s.published :=
        congrArg Queues.published queues
      rw [located, MainPc.unpublished, List.append_nil] at shown
      · rw [displayed, published, shown, moved]
        rfl
      · simp
  | publish res startUs located moved queues =>
      have displayed : after.displayed = s.displayed :=
        congrArg Queues.displayed queues
      have published : after.published =
          s.published ++ [⟨res.frameId, startUs, res.group⟩] :=
        congrArg Queues.published queues
      rw [displayed, published, shown, located, moved]
      simp

theorem main (hand : Handshake s) (slots : Slots s) (inv : Books s dropped)
    (taken : mainStep s input = some after) :
    ∃ dropped, Books after dropped := by
  rcases behind_main hand taken with ⟨lost, behind, one⟩
  rcases inv.numbered_main hand taken with ⟨numbered, counter⟩
  refine ⟨dropped + lost, numbered, counter, ?_, ?_, inv.shown_main hand taken⟩
  · rw [processed_main hand taken, inv.handed, behind]
    abel
  · rw [Multiset.card_add, inv.lost, one, losses_main slots taken]

end Main

/-- The control thread touches no book. -/
theorem control (inv : Books s dropped) (effect : ControlEffect s after) :
    Books after dropped := by
  have queues := queues_control effect
  have submitted : after.history.submitted = s.history.submitted :=
    congrArg Queues.submitted queues
  have processed : after.history.processed = s.history.processed :=
    congrArg Queues.processed queues
  have blackouts : after.history.blackouts = s.history.blackouts := by
    rw [effect.history]
  constructor
  case numbered => rw [submitted]; exact inv.numbered
  case counter => rw [submitted, effect.frameCounter]; exact inv.counter
  case handed =>
    rw [processed, State.behind, effect.displayed, effect.pc, queues]
    exact inv.handed
  case lost =>
    rw [State.losses, blackouts, effect.pc, effect.inFlight]
    exact inv.lost
  case shown =>
    rw [effect.displayed, effect.published, effect.pc]
    exact inv.shown

/-- An inference thread hands every frame it finishes to the main thread. -/
theorem worker {i : Fin nThreads} (inv : Books s dropped)
    (frame : WorkerFrame s after) (effect : WorkerEffect s i after) :
    Books after dropped := by
  rcases Queues.moves_worker effect with ⟨_, handed, _, _, ready, processed⟩
  constructor
  case numbered => rw [frame.submitted]; exact inv.numbered
  case counter => rw [frame.submitted, frame.frameCounter]; exact inv.counter
  case handed =>
    rw [State.queues_processed, State.queues_processed, inv.handed] at processed
    rw [processed, State.behind, State.behind, frame.displayed, frame.pc, ready,
      Multiset.map_add]
    abel
  case lost =>
    rw [State.losses, frame.blackouts, frame.pc, frame.inFlight]
    exact inv.lost
  case shown =>
    rw [frame.displayed, frame.published, frame.pc]
    exact inv.shown

end Books

theorem reachable_books {s : State} (reach : system.Reachable s) :
    ∃ dropped, Books s dropped := by
  refine System.ReachableUnder.invariant (fun s => ∃ dropped, Books s dropped)
    ⟨0, Books.initial⟩ ?_ reach
  rintro s label after earlier ⟨dropped, inv⟩ _ taken
  cases label with
  | main input =>
      exact inv.main (reachable_handshake earlier) (reachable_slots earlier) taken
  | control input => exact ⟨dropped, inv.control (controlStep_effect taken)⟩
  | worker i input =>
      exact ⟨dropped, inv.worker (workerStep_frame taken) (workerStep_queues taken)⟩

/-- What becomes of the frames; `dropped` are those that blackouts drained. -/
structure FramesAccounted (s : State) (dropped : Multiset Nat) : Prop where
  numbered : s.history.submitted =
    (List.range s.history.submitted.length).map (· % 2 ^ 64)
  /-- every submitted frame is displayed, about to be, in flight or dropped -/
  conserved : (s.history.submitted : Multiset Nat) =
    ↑s.displayed + ↑s.pc.undisplayed + s.queues.tickets.map Prod.snd + dropped
  /-- a completed blackout drops one frame for each inference thread -/
  lost : s.pc.entering = false → dropped.card = nThreads * s.history.blackouts
  /-- what is displayed is published, in the same order -/
  shown : s.displayed = s.published.map (·.frameId) ++ s.pc.unpublished
  /-- before the counter wraps no frame is shown twice, or both shown and lost -/
  once : s.history.submitted.length ≤ 2 ^ 64 →
    ((s.displayed : Multiset Nat) + dropped).Nodup
  /-- what a finished process has not published was lost to blackouts or left on
  `result_q` -/
  ended : s.pc = .returned → s.history.submitted.length =
    s.published.length + nThreads * s.history.blackouts + s.resultQ.items.length

/-- In every state of every run all submitted frames are accounted for. -/
theorem frames_accounted {s : State} (reach : system.Reachable s) :
    ∃ dropped, FramesAccounted s dropped := by
  rcases reachable_books reach with ⟨dropped, inv⟩
  have retire := reachable_retirement reach
  have conserved : (s.history.submitted : Multiset Nat) =
      ↑s.displayed + ↑s.pc.undisplayed + s.queues.tickets.map Prod.snd + dropped := by
    rw [retire.processed, inv.handed, State.behind, Queues.tickets,
      Multiset.map_add, Multiset.map_add]
    abel
  have lost : s.pc.entering = false →
      dropped.card = nThreads * s.history.blackouts := by
    intro outside
    rw [inv.lost, State.losses, MainPc.drained_of_not_entering outside, Nat.add_zero]
  refine ⟨dropped, inv.numbered, conserved, lost, inv.shown, ?_, ?_⟩
  · intro narrow
    have distinct : (s.history.submitted : Multiset Nat).Nodup := by
      rw [Multiset.coe_nodup, inv.numbered]
      refine List.Nodup.map_on ?_ List.nodup_range
      intro m below n below' same
      rw [List.mem_range] at below below'
      rwa [Nat.mod_eq_of_lt (below.trans_le narrow),
        Nat.mod_eq_of_lt (below'.trans_le narrow)] at same
    rw [conserved] at distinct
    refine Multiset.nodup_of_le ?_ distinct
    refine Multiset.le_iff_exists_add.mpr
      ⟨↑s.pc.undisplayed + s.queues.tickets.map Prod.snd, ?_⟩
    abel
  · intro ended
    have exited : ∀ i, s.workers i = .exited :=
      fun i => retire.joined i (by simp [ended])
    have busy : s.queues.busy = 0 := by simp [Queues.busy, exited]
    have queued : s.queues.queued = 0 := by
      have drained := (drained_of_joined retire fun i => by simp [ended]).1
      simp [Queues.queued, drained]
    have cards := congrArg Multiset.card conserved
    have shown := congrArg List.length inv.shown
    simp only [Queues.tickets, queued, busy, Queues.ready, ended, Multiset.card_add,
      Multiset.card_map, Multiset.coe_card, MainPc.undisplayed, MainPc.unpublished,
      List.length_append, List.length_map, List.length_nil,
      lost (by simp [ended]), State.queues_resultQ, Multiset.card_zero] at cards shown
    omega

/-- A blackout drops three frames, and the process then shuts down. -/
theorem frames_accounted_blackout :
    ∃ s, system.Reachable s ∧ s.pc = .returned ∧ s.history.submitted.length = 3 ∧
      ∃ dropped, FramesAccounted s dropped := by
  obtain ⟨s, reach, ended⟩ := System.reaches_of_replay system System.unrestricted
    (Schedule.boot ++ Schedule.connect ++ Schedule.blackout ++
      Schedule.request .shutdown ++ Schedule.main 3 ++ Schedule.stop ++
      Schedule.join ++ Schedule.destroyContexts)
    (fun s => s.pc = .returned && s.history.submitted.length = 3) (by decide)
  simp only [Bool.and_eq_true, decide_eq_true_eq] at ended
  exact ⟨s, reach, ended.1, ended.2, frames_accounted reach⟩

end KhadasYolo.Pipeline
