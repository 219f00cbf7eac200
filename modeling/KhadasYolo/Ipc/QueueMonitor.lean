import KhadasYolo.Ipc.BoundedQueue
import KhadasYolo.Lib.Monitor
import Mathlib.Data.Fintype.Option

/-!
# The bounded queue as a monitor

Producers, consumers and `close` share one mutex and one condition variable.  A
`push` notifies only after it has put its item in, `pop` waits with a timeout, and
`close` notifies everybody.
-/

namespace KhadasYolo.Ipc

open Monitor TransitionSystem

universe u

/-- What a call returns; a `pop` that has not timed out returns an item, or none when
the queue is closed and drained. -/
inductive QueueReturn (α : Type u) where
  | pushed (kept : Bool)
  | popped (item : Option α)
  | closed
  deriving DecidableEq, Repr

namespace BoundedQueue

variable {α : Type u}

/-- The critical section of a call. -/
def perform (self : BoundedQueue α) : QueueCall α → QueueReturn α × BoundedQueue α
  | .push item =>
      let (returned, queue) := self.push item
      (.pushed returned, queue)
  | .pop =>
      match self.pop with
      | some (item, queue) => (.popped (some item), queue)
      | none => (.popped none, self)
  | .close => (.closed, self.close)

/-- The early returns of `push` notify nobody. -/
def signal (self : BoundedQueue α) : QueueCall α → Signal
  | .push _ =>
      if self.closed then .silent
      else if self.items.length ≥ self.capacity && self.policy = .dropNewest then .silent
      else .one
  | .pop => .silent
  | .close => .all

def monitor (α : Type u) : Interface (BoundedQueue α) (QueueCall α) (QueueReturn α) where
  ready self := !self.items.isEmpty || self.closed
  blocking
    | .pop => true
    | .push _ | .close => false
  timed
    | .pop => true
    | .push _ | .close => false
  perform call self := self.perform call
  signal call self := self.signal call

/-- How many waiting consumers can be served. -/
def served (self : BoundedQueue α) : ℕ∞ := if self.closed then ⊤ else self.items.length

variable {self : BoundedQueue α}

/-- A `push` serves one consumer more at most, and says so. -/
theorem served_push (item : α) :
    (self.push item).2.served ≤ self.served ∧ self.signal (.push item) = .silent ∨
      (self.push item).2.served ≤ self.served + 1 ∧ self.signal (.push item) = .one := by
  cases closed : self.closed with
  | true =>
      rw [push_closed closed]
      exact Or.inl ⟨le_rfl, if_pos closed⟩
  | false =>
      have signalled : self.signal (.push item) =
          if self.items.length ≥ self.capacity && self.policy = .dropNewest then .silent
          else .one := by simp only [signal, closed, Bool.false_eq_true, if_false]
      rcases push_cases closed item with ⟨room, pushed⟩ | ⟨full, oldest, pushed⟩ |
        ⟨newest, pushed⟩
      · refine Or.inr ⟨?_, ?_⟩
        · rw [pushed]
          simp [served, closed]
        · rw [signalled, if_neg (by simp [room])]
      · refine Or.inr ⟨?_, ?_⟩
        · have shorter : self.items.length - 1 ≤ self.items.length := Nat.sub_le _ _
          rw [pushed]
          simp only [served, closed, Bool.false_eq_true, if_false, List.length_append,
            List.length_tail, List.length_singleton]
          exact_mod_cast Nat.add_le_add_right shorter 1
        · rw [signalled, if_neg (by simp [oldest])]
      · rw [pushed, signalled]
        split
        · exact Or.inl ⟨le_rfl, rfl⟩
        · exact Or.inr ⟨le_self_add, rfl⟩

def demand (α : Type u) : Demand (monitor α) where
  demand := served
  ready_iff self := by
    change (!self.items.isEmpty || self.closed) = true ↔ 0 < self.served
    rw [served]
    cases self.closed <;> cases self.items <;> simp
  takes {call self} blocking ready := by
    cases call with
    | push item | close => cases blocking
    | pop =>
        refine ⟨rfl, ?_⟩
        change (self.perform .pop).2.served + 1 ≤ self.served
        cases items : self.items with
        | cons item rest =>
            rw [perform, pop_first items]
            simp only [served, items]
            cases self.closed <;> simp
        | nil =>
            have closed : self.closed = true := by simpa [monitor, items] using ready
            rw [perform, pop_empty items]
            simp [served, closed]
  gives {call self} blocking := by
    cases call with
    | pop => cases blocking
    | close => trivial
    | push item =>
        change match self.signal (.push item) with
          | .silent => (self.push item).2.served ≤ self.served
          | .one => (self.push item).2.served ≤ self.served + 1
          | .all => True
        rcases served_push item with ⟨same, quiet⟩ | ⟨more, loud⟩
        · rw [quiet]
          exact same
        · rw [loud]
          exact more

end BoundedQueue

/-! ## What the callers find -/

def QueueCall.isClose {α : Type u} : QueueCall α → Bool
  | .close => true
  | .push _ | .pop => false

section Logs

variable {α : Type u}

/-- What a log says of a push. -/
def pushEntry : QueueCall α × QueueReturn α → Option (α × Bool)
  | (.push item, .pushed kept) => some (item, kept)
  | _ => none

/-- The pushes before `close`, with what they have returned. -/
def loggedPushes (log : List (QueueCall α × QueueReturn α)) : List (α × Bool) :=
  (log.takeWhile fun entry => !entry.1.isClose).filterMap pushEntry

/-- The item that a call has returned. -/
def popEntry : QueueCall α × QueueReturn α → Option α
  | (_, .popped item) => item
  | _ => none

def closedIn (log : List (QueueCall α × QueueReturn α)) : Bool :=
  log.any fun entry => entry.1.isClose

theorem loggedPushes_snoc (log : List (QueueCall α × QueueReturn α))
    (entry : QueueCall α × QueueReturn α) :
    loggedPushes (log ++ [entry]) =
      if closedIn log then loggedPushes log
      else loggedPushes log ++ (pushEntry entry).toList := by
  induction log with
  | nil =>
      rcases entry with ⟨call, returned⟩
      cases call <;> cases returned <;> rfl
  | cons head rest ih =>
      have closes : closedIn (head :: rest) = (head.1.isClose || closedIn rest) := rfl
      cases first : head.1.isClose with
      | true => simp [closes, first, loggedPushes]
      | false =>
          have ahead : ∀ tail : List (QueueCall α × QueueReturn α),
              loggedPushes (head :: tail) = (pushEntry head).toList ++ loggedPushes tail := by
            intro tail
            simp only [loggedPushes, List.takeWhile_cons, first, Bool.not_false, if_true]
            rw [List.filterMap_cons]
            cases pushEntry head <;> rfl
          rw [List.cons_append, ahead, ahead, ih, closes, first, Bool.false_or]
          split
          · rfl
          · rw [List.append_assoc]

theorem closedIn_snoc (log : List (QueueCall α × QueueReturn α))
    (entry : QueueCall α × QueueReturn α) :
    closedIn (log ++ [entry]) = (closedIn log || entry.1.isClose) := by
  simp [closedIn]

/-- A history that the log of a queue tells. -/
structure Recorded (log : List (QueueCall α × QueueReturn α)) (queue : BoundedQueue α)
    (history : QueueHistory α) : Prop where
  queue : history.queue = queue
  pushes : history.pushes = loggedPushes log
  popped : history.popped = log.filterMap popEntry

/-- Nothing but `close` closes the queue, and nothing reopens it. -/
theorem closed_perform (queue : BoundedQueue α) (call : QueueCall α) :
    (queue.perform call).2.closed = (queue.closed || call.isClose) := by
  cases call with
  | push item =>
      cases closed : queue.closed with
      | true =>
          rw [BoundedQueue.perform, BoundedQueue.push_closed closed]
          exact closed
      | false =>
          rw [BoundedQueue.perform]
          rcases BoundedQueue.push_cases closed item with ⟨_, pushed⟩ | ⟨_, _, pushed⟩ |
            ⟨_, pushed⟩ <;> rw [pushed] <;> exact closed
  | pop =>
      rw [BoundedQueue.perform]
      cases items : queue.items with
      | nil => simp [BoundedQueue.pop_empty items, QueueCall.isClose]
      | cons item rest => simp [BoundedQueue.pop_first items, QueueCall.isClose]
  | close => simp [BoundedQueue.perform, BoundedQueue.close, QueueCall.isClose]

theorem closed_of_sequential {start queue : BoundedQueue α}
    {log : List (QueueCall α × QueueReturn α)}
    (run : Sequential (BoundedQueue.monitor α) start log queue)
    (isOpen : start.closed = false) : queue.closed = closedIn log := by
  induction run with
  | nil => exact isOpen
  | @snoc log queue call earlier unblocked ih =>
      rw [closedIn_snoc, ← ih]
      exact closed_perform queue call

/-- A call on a queue that a log describes. -/
theorem Recorded.call {log : List (QueueCall α × QueueReturn α)} {queue : BoundedQueue α}
    {history : QueueHistory α} (recorded : Recorded log queue history)
    (closed : queue.closed = closedIn log) (call : QueueCall α) :
    Recorded (log ++ [(call, (queue.perform call).1)]) (queue.perform call).2
      (history.call call) := by
  have snoc := loggedPushes_snoc log (call, (queue.perform call).1)
  rw [← closed, ← recorded.pushes] at snoc
  cases call with
  | push item =>
      refine ⟨?_, ?_, ?_⟩
      · rw [← recorded.queue]
        rfl
      · rw [snoc]
        simp only [QueueHistory.call, recorded.queue]
        rfl
      · rw [List.filterMap_append, ← recorded.popped]
        exact (List.append_nil _).symm
  | pop =>
      have pushes : loggedPushes (log ++ [(.pop, (queue.perform .pop).1)]) =
          history.pushes := by
        rw [snoc]
        cases queue.closed <;> simp [pushEntry]
      cases items : queue.items with
      | nil =>
          have performed : queue.perform .pop = (.popped none, queue) := by
            rw [BoundedQueue.perform, BoundedQueue.pop_empty items]
          rw [performed] at pushes ⊢
          rw [QueueHistory.call_pop_empty (by rw [recorded.queue, items])]
          refine ⟨recorded.queue, pushes.symm, ?_⟩
          rw [List.filterMap_append, ← recorded.popped]
          exact (List.append_nil _).symm
      | cons item rest =>
          have performed : queue.perform .pop =
              (.popped (some item), { queue with items := rest }) := by
            rw [BoundedQueue.perform, BoundedQueue.pop_first items]
          rw [performed] at pushes ⊢
          rw [QueueHistory.call_pop_first (by rw [recorded.queue, items])]
          refine ⟨by rw [recorded.queue], pushes.symm, ?_⟩
          rw [List.filterMap_append, ← recorded.popped]
          rfl
  | close =>
      refine ⟨?_, ?_, ?_⟩
      · rw [← recorded.queue]
        rfl
      · rw [snoc]
        cases queue.closed <;> simp [pushEntry, QueueHistory.call]
      · rw [List.filterMap_append, ← recorded.popped]
        exact (List.append_nil _).symm

theorem recorded_of_sequential {capacity : Nat} {policy : DropPolicy}
    {log : List (QueueCall α × QueueReturn α)} {queue : BoundedQueue α}
    (run : Sequential (BoundedQueue.monitor α) (.empty capacity policy) log queue) :
    Recorded log queue ((QueueHistory.start capacity policy).after (log.map Prod.fst)) := by
  induction run with
  | nil => exact ⟨rfl, rfl, rfl⟩
  | @snoc log queue call earlier unblocked ih =>
      rw [List.map_append, QueueHistory.after, List.foldl_append]
      exact ih.call (closed_of_sequential earlier rfl) call

/-- A `pop` that has not timed out comes back without an item only after `close`. -/
theorem close_of_drained {start queue : BoundedQueue α}
    {log : List (QueueCall α × QueueReturn α)}
    (run : Sequential (BoundedQueue.monitor α) start log queue)
    (isOpen : start.closed = false) {earlier later : List (QueueCall α × QueueReturn α)}
    (drained : log = earlier ++ (.pop, .popped none) :: later) : closedIn earlier = true := by
  induction run generalizing later with
  | nil => simp at drained
  | @snoc log queue call before unblocked ih =>
      rcases List.eq_nil_or_concat later with rfl | ⟨later, last, rfl⟩
      · rcases List.append_inj' drained rfl with ⟨rfl, same⟩
        simp only [List.cons.injEq, Prod.mk.injEq, and_true] at same
        rcases same with ⟨rfl, returned⟩
        rw [← closed_of_sequential before isOpen]
        cases items : queue.items with
        | nil => simpa [BoundedQueue.monitor, items] using unblocked rfl
        | cons item rest =>
            simp [BoundedQueue.monitor, BoundedQueue.perform, BoundedQueue.pop_first items]
              at returned
      · rw [List.concat_eq_append, ← List.cons_append, ← List.append_assoc] at drained
        exact ih (List.append_inj' drained rfl).1

end Logs

variable {α : Type u} {Thread : Type*} [DecidableEq Thread] [Fintype Thread]

/-- What threads find that share a queue, in any number and order of calls. -/
structure Shared (capacity : Nat) (policy : DropPolicy)
    (s : Monitor.State (BoundedQueue α) (QueueCall α) (QueueReturn α) Thread) : Prop where
  /-- what the calls have returned is what they return one after the other -/
  recorded : Recorded s.log s.value
    ((QueueHistory.start capacity policy).after (s.log.map Prod.fst))
  /-- every item that was put in is returned once, evicted or still there -/
  accounted : ((QueueHistory.start capacity policy).after (s.log.map Prod.fst)).Accounted
    capacity policy
  /-- no `pop` comes back without an item before `close`, unless it times out -/
  drained : ∀ earlier later, s.log = earlier ++ (.pop, .popped none) :: later →
    closedIn earlier = true
  /-- left to themselves, the threads soon come to rest -/
  settles : ∀ schedule later,
    (settling (BoundedQueue.monitor α) s).replay System.unrestricted s schedule =
      some later →
    schedule.length ≤ Fintype.card Thread * (2 * Fintype.card Thread + 3)
  /-- and then nobody waits beside an item, or after `close` -/
  awake : ∀ schedule later,
    (settling (BoundedQueue.monitor α) s).replay System.unrestricted s schedule =
      some later →
    Quiet (BoundedQueue.monitor α) later → ∀ i, later.threads i = .outside ∨
      (∃ call, later.threads i = .asleep call) ∧ later.value.items = [] ∧
        later.value.closed = false

/-- A queue that any number of threads share. -/
theorem boundedQueue_shared {capacity : Nat} (positive : 1 ≤ capacity) (policy : DropPolicy)
    {s : Monitor.State (BoundedQueue α) (QueueCall α) (QueueReturn α) Thread}
    (reach : (Monitor.system (BoundedQueue.monitor α)
      (.empty capacity policy)).Reachable s) : Shared capacity policy s := by
  have run := reachable_sequential reach
  have valid := reachable_valid (BoundedQueue.demand α) reach
  refine ⟨recorded_of_sequential run, ?_, fun _ _ => close_of_drained run rfl,
    fun schedule later rest => (settles valid rest).1, ?_⟩
  · exact (QueueHistory.Valid.start.after positive _).accounted
  · intro schedule later rest quiet i
    refine ((settles valid rest).2 quiet i).imp_right fun ⟨asleep, unready⟩ => ?_
    have waits : (!later.value.items.isEmpty || later.value.closed) = false := unready
    simp only [Bool.or_eq_false_iff, Bool.not_eq_false', List.isEmpty_iff] at waits
    exact ⟨asleep, waits⟩

/-- Two consumers wait, an item comes, and the producer (`none`) closes the queue. -/
def lastItem : List (Monitor.Action (QueueCall Nat) (Option Bool)) :=
  [.call (some false) .pop, .lock (some false), .run (some false),
    .call (some true) .pop, .lock (some true), .run (some true),
    .call none (.push 7), .lock none, .run none, .notifyOne none (some (some true)),
    .call none .close, .lock none, .run none, .notifyAll none,
    .lock (some true), .run (some true), .lock (some false), .run (some false)]

/-- One consumer takes the item, the other leaves without. -/
theorem boundedQueue_shared_last_item :
    ∃ s : Monitor.State (BoundedQueue Nat) (QueueCall Nat) (QueueReturn Nat) (Option Bool),
      s.log.map Prod.snd = [.pushed true, .closed, .popped (some 7), .popped none] ∧
        Shared 2 .dropOldest s := by
  obtain ⟨s, reach, ended⟩ := System.reaches_of_replay
    (Monitor.system (BoundedQueue.monitor Nat) (.empty 2 .dropOldest)) System.unrestricted
    lastItem
    (fun s => s.log.map Prod.snd = [.pushed true, .closed, .popped (some 7), .popped none])
    (by decide)
  exact ⟨s, of_decide_eq_true ended, boundedQueue_shared (Nat.le_succ 1) .dropOldest reach⟩

end KhadasYolo.Ipc
