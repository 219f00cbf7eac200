import KhadasYolo.Lib.Monitor
import KhadasYolo.Pipeline.State

/-!
# The queues as monitors

`TSQueue` and `BufPool` lock their own mutex, wait on their own condition variable
and notify one thread after the unlock.  Seen from outside every call takes effect
at once, which is how the steps of the pipeline use them; and whatever threads come
and go, no thread is left asleep beside an item.
-/

namespace KhadasYolo.Pipeline

open Monitor TransitionSystem

/-! ## First in, first out -/

/-- A container whose calls are those of a queue. -/
structure Fifo (σ α : Type) where
  items : σ → List α
  push : σ → α → σ
  pop : σ → Option (α × σ)
  items_push : ∀ queue item, items (push queue item) = items queue ++ [item]
  items_pop : ∀ {queue rest item}, pop queue = some (item, rest) →
    items queue = item :: items rest
  pop_isSome : ∀ queue, (pop queue).isSome = !(items queue).isEmpty

inductive FifoCall (α : Type) where
  | push (item : α)
  /-- wait until the container is not empty -/
  | pop
  deriving DecidableEq, Repr

namespace Fifo

variable {σ α : Type} (queue : Fifo σ α)

/-- Both calls as critical sections, with the item that a `pop` returns. -/
def monitor : Interface σ (FifoCall α) (Option α) where
  ready value := (queue.pop value).isSome
  blocking
    | .push _ => false
    | .pop => true
  timed _ := false
  perform
    | .push item, value => (none, queue.push value item)
    | .pop, value =>
        match queue.pop value with
        | some (item, rest) => (some item, rest)
        | none => (none, value)
  signal
    | .push _, _ => .one
    | .pop, _ => .silent

/-- One waiting thread can be served for each item. -/
def demand : Demand queue.monitor where
  demand value := (queue.items value).length
  ready_iff value := by
    change (queue.pop value).isSome = true ↔ _
    rw [queue.pop_isSome]
    cases queue.items value <;> simp
  takes {call value} blocking ready := by
    cases call with
    | push item => cases blocking
    | pop =>
        refine ⟨rfl, ?_⟩
        simp only [monitor] at ready ⊢
        cases popped : queue.pop value with
        | none => simp [popped] at ready
        | some taken =>
            rcases taken with ⟨item, rest⟩
            simp [queue.items_pop popped]
  gives {call value} blocking := by
    cases call with
    | pop => cases blocking
    | push item => simp [monitor, queue.items_push]

/-- What the pushes of a log have put in. -/
def pushed (log : List (FifoCall α × Option α)) : List α :=
  log.filterMap fun entry =>
    match entry.1 with
    | .push item => some item
    | .pop => none

/-- What its pops have taken out. -/
def popped (log : List (FifoCall α × Option α)) : List α := log.filterMap Prod.snd

/-- What threads find that call the container in any number and order. -/
structure Served {Thread : Type*} [DecidableEq Thread] [Fintype Thread] (start : σ)
    (s : Monitor.State σ (FifoCall α) (Option α) Thread) : Prop where
  /-- the calls have taken effect one after the other -/
  atomic : Sequential queue.monitor start s.log s.value
  /-- every item is taken once, in the order of the pushes -/
  fifo : queue.items start ++ pushed s.log = popped s.log ++ queue.items s.value
  /-- every `pop` returns an item -/
  found : ∀ result, (.pop, result) ∈ s.log → result.isSome = true
  /-- left to themselves, the threads soon come to rest -/
  settles : ∀ schedule later,
    (settling queue.monitor s).replay System.unrestricted s schedule = some later →
    schedule.length ≤ Fintype.card Thread * (2 * Fintype.card Thread + 3)
  /-- and then nobody sleeps beside an item -/
  awake : ∀ schedule later,
    (settling queue.monitor s).replay System.unrestricted s schedule = some later →
    Quiet queue.monitor later → (∃ i call, later.threads i = .asleep call) →
    queue.items later.value = []

variable {queue}

theorem fifo_of_sequential {start value : σ} {log : List (FifoCall α × Option α)}
    (run : Sequential queue.monitor start log value) :
    queue.items start ++ pushed log = popped log ++ queue.items value ∧
      ∀ result, (.pop, result) ∈ log → result.isSome = true := by
  induction run with
  | nil => simp [pushed, popped]
  | @snoc log value call earlier unblocked ih =>
      rcases ih with ⟨order, found⟩
      cases call with
      | push item =>
          constructor
          · simp only [pushed, popped, monitor, List.filterMap_append, queue.items_push]
              at order ⊢
            simp [← List.append_assoc, order]
          · intro result member
            simp only [monitor, List.mem_append, List.mem_singleton] at member
            exact found result (member.resolve_right (by simp))
      | pop =>
          have ready := unblocked rfl
          simp only [monitor] at ready
          cases taken : queue.pop value with
          | none => simp [taken] at ready
          | some pair =>
              rcases pair with ⟨item, rest⟩
              constructor
              · simp only [pushed, popped, monitor, taken, List.filterMap_append] at order ⊢
                simp [order, queue.items_pop taken]
              · intro result member
                simp only [monitor, taken, List.mem_append, List.mem_singleton] at member
                rcases member with earlier | now
                · exact found result earlier
                · cases now
                  rfl

variable {Thread : Type*} [DecidableEq Thread] [Fintype Thread] {start : σ}
  {s : Monitor.State σ (FifoCall α) (Option α) Thread}

theorem served (reach : (Monitor.system queue.monitor start).Reachable s) :
    queue.Served start s := by
  have run := reachable_sequential reach
  have valid := reachable_valid queue.demand reach
  rcases fifo_of_sequential run with ⟨order, found⟩
  refine ⟨run, order, found, fun schedule later rest => (settles valid rest).1, ?_⟩
  rintro schedule later rest quiet ⟨i, call, asleep⟩
  rcases (settles valid rest).2 quiet i with outside | ⟨_, unready⟩
  · rw [outside] at asleep
    cases asleep
  · have empty := queue.pop_isSome later.value
    rw [show (queue.pop later.value).isSome = false from unready] at empty
    exact List.isEmpty_iff.mp (Bool.not_eq_eq_eq_not.mp empty.symm)

end Fifo

/-! ## The containers of the pipeline -/

/-- `TSQueue<T>`. -/
def TSQueue.fifo (α : Type) : Fifo (TSQueue α) α where
  items queue := queue.items
  push := TSQueue.push
  pop := TSQueue.pop
  items_push _ _ := rfl
  items_pop popped := TSQueue.pop_eq_some.mp popped
  pop_isSome queue := by
    cases queue with
    | mk items => cases items <;> rfl

/-- `BufPool`: `release` pushes and `acquire` pops. -/
def BufPool.fifo : Fifo BufPool (Fin nBuf) where
  items pool := pool.freeList.items
  push := BufPool.release
  pop := BufPool.acquire
  items_push _ _ := rfl
  items_pop acquired := by
    rcases Option.map_eq_some_iff.mp acquired with ⟨⟨slot, rest⟩, popped, same⟩
    cases same
    exact TSQueue.pop_eq_some.mp popped
  pop_isSome pool := by
    rw [BufPool.acquire, Option.isSome_map]
    exact (TSQueue.fifo _).pop_isSome pool.freeList

/-- Any number of threads share a `TSQueue`, or a `BufPool` whatever slots they
release. -/
theorem containers_served {Thread : Type*} [DecidableEq Thread] [Fintype Thread] :
    (∀ {α : Type} {s : Monitor.State (TSQueue α) (FifoCall α) (Option α) Thread},
      (Monitor.system (TSQueue.fifo α).monitor {}).Reachable s →
        (TSQueue.fifo α).Served {} s) ∧
    (∀ (pool : BufPool)
      {s : Monitor.State BufPool (FifoCall (Fin nBuf)) (Option (Fin nBuf)) Thread},
      (Monitor.system BufPool.fifo.monitor pool.init).Reachable s →
        BufPool.fifo.Served pool.init s) :=
  ⟨Fifo.served, fun _ => Fifo.served⟩

/-- One thread waits for the item of the other. -/
def handOver : List (Monitor.Action (FifoCall Nat) (Fin 2)) :=
  [.call 0 .pop, .lock 0, .run 0, .call 1 (.push 7), .lock 1, .run 1,
    .notifyOne 1 (some 0), .lock 0, .run 0]

/-- It wakes up and takes the item. -/
theorem containers_served_hand_over :
    ∃ s : Monitor.State (TSQueue Nat) (FifoCall Nat) (Option Nat) (Fin 2),
      s.log = [(.push 7, none), (.pop, some 7)] ∧ (TSQueue.fifo Nat).Served {} s := by
  obtain ⟨s, reach, ended⟩ := System.reaches_of_replay
    (Monitor.system (TSQueue.fifo Nat).monitor {}) System.unrestricted handOver
    (fun s => s.log = [(.push 7, none), (.pop, some 7)]) (by decide)
  exact ⟨s, of_decide_eq_true ended, containers_served.1 reach⟩

end KhadasYolo.Pipeline
