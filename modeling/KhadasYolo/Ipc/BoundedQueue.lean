import Mathlib.Data.List.Basic

/-!
# The bounded queue

`BoundedQueue<T>`: a queue between the main loop and the sender thread. Every call runs
under the mutex of the queue.
-/

namespace KhadasYolo.Ipc

universe u

inductive DropPolicy where
  | dropOldest
  | dropNewest
  deriving DecidableEq, Repr

structure BoundedQueue (α : Type u) where
  capacity : Nat
  policy : DropPolicy
  closed : Bool
  items : List α
  deriving DecidableEq, Repr

namespace BoundedQueue

variable {α : Type u}

def empty (capacity : Nat) (policy : DropPolicy) : BoundedQueue α :=
  ⟨capacity, policy, false, []⟩

/-- `push`, with its result. With a capacity of zero, `pop_front` would meet an empty
queue. -/
def push (self : BoundedQueue α) (item : α) : Bool × BoundedQueue α :=
  if self.closed then (false, self)
  else if self.items.length ≥ self.capacity then
    match self.policy with
    | .dropOldest => (false, { self with items := self.items.tail ++ [item] })
    | .dropNewest => (false, self)
  else (true, { self with items := self.items ++ [item] })

/-- `pop`. It is `none` when the time runs out or the queue has been closed, and it is
empty in both cases. -/
def pop (self : BoundedQueue α) : Option (α × BoundedQueue α) :=
  match self.items with
  | [] => none
  | item :: rest => some (item, { self with items := rest })

def close (self : BoundedQueue α) : BoundedQueue α := { self with closed := true }

variable {self : BoundedQueue α}

/-- What a push to an open queue does. -/
theorem push_cases (isOpen : self.closed = false) (item : α) :
    (self.items.length < self.capacity ∧
        self.push item = (true, { self with items := self.items ++ [item] })) ∨
      (self.capacity ≤ self.items.length ∧ self.policy = .dropOldest ∧
        self.push item = (false, { self with items := self.items.tail ++ [item] })) ∨
      self.policy = .dropNewest ∧ self.push item = (false, self) := by
  rw [push, if_neg (by rw [isOpen]; exact Bool.false_ne_true)]
  split
  next full =>
    cases policy : self.policy with
    | dropOldest => exact .inr (.inl ⟨full, rfl, rfl⟩)
    | dropNewest => exact .inr (.inr ⟨rfl, rfl⟩)
  next room => exact .inl ⟨Nat.not_le.mp room, rfl⟩

/-- A push to an open queue that drops its oldest items. -/
theorem push_open (isOpen : self.closed = false) (oldest : self.policy = .dropOldest)
    (item : α) :
    (self.push item = (true, { self with items := self.items ++ [item] })) ∨
      self.push item = (false, { self with items := self.items.tail ++ [item] }) := by
  rcases push_cases isOpen item with ⟨_, pushed⟩ | ⟨_, _, pushed⟩ | ⟨newest, _⟩
  · exact .inl pushed
  · exact .inr pushed
  · rw [oldest] at newest
    contradiction

theorem pop_empty (empty : self.items = []) : self.pop = none := by
  rw [pop, empty]

theorem pop_first {item : α} {rest : List α} (items : self.items = item :: rest) :
    self.pop = some (item, { self with items := rest }) := by
  rw [pop, items]

theorem push_closed (isClosed : self.closed = true) (item : α) :
    self.push item = (false, self) := by
  rw [push, if_pos isClosed]

end BoundedQueue

/-! ## Every order of calls -/

/-- A call of a producer or a consumer. -/
inductive QueueCall (α : Type u) where
  | push (item : α)
  | pop
  | close

/-- A queue with the pushes that came before `close`, what they returned, and the items
that have been popped. -/
structure QueueHistory (α : Type u) where
  queue : BoundedQueue α
  pushes : List (α × Bool)
  popped : List α

namespace QueueHistory

variable {α : Type u}

def start (capacity : Nat) (policy : DropPolicy) : QueueHistory α :=
  ⟨.empty capacity policy, [], []⟩

def call (self : QueueHistory α) : QueueCall α → QueueHistory α
  | .push item =>
      let (returned, queue) := self.queue.push item
      { self with
        queue := queue
        pushes := if self.queue.closed then self.pushes else self.pushes ++ [(item, returned)] }
  | .pop =>
      match self.queue.pop with
      | none => self
      | some (item, queue) => { self with queue := queue, popped := self.popped ++ [item] }
  | .close => { self with queue := self.queue.close }

/-- The calls of all threads, in the order in which they get the mutex. -/
def after (self : QueueHistory α) (calls : List (QueueCall α)) : QueueHistory α :=
  calls.foldl call self

/-- The items that were pushed before `close`. -/
def pushed (self : QueueHistory α) : List α := self.pushes.map Prod.fst

/-- How many of these pushes have returned false. -/
def refusals (self : QueueHistory α) : Nat := self.pushes.countP fun push => !push.2

/-- What becomes of every item. -/
structure Accounted (capacity : Nat) (policy : DropPolicy) (history : QueueHistory α) :
    Prop where
  bounded : history.queue.items.length ≤ capacity
  ordered : (history.popped ++ history.queue.items).Sublist history.pushed
  distinct : history.pushed.Nodup → (history.popped ++ history.queue.items).Nodup
  counted : history.pushes.length =
    history.popped.length + history.queue.items.length + history.refusals
  newest : policy = .dropOldest → history.queue.items <:+ history.pushed

/-- After `close` the rest is drained. -/
structure Drained (before after : QueueHistory α) (pops : Nat) : Prop where
  refuses : ∀ item, after.queue.push item = (false, after.queue)
  queue : after.queue = { before.queue with items := before.queue.items.drop pops }
  popped : after.popped = before.popped ++ before.queue.items.take pops

variable {capacity : Nat} {policy : DropPolicy} {self : QueueHistory α}

/-! ### One call -/

/-- A history of a queue with this capacity and policy. -/
structure Valid (capacity : Nat) (policy : DropPolicy) (history : QueueHistory α) : Prop where
  room : history.queue.capacity = capacity
  drops : history.queue.policy = policy
  bounded : history.queue.items.length ≤ capacity
  ordered : (history.popped ++ history.queue.items).Sublist history.pushed
  counted : history.pushes.length =
    history.popped.length + history.queue.items.length + history.refusals
  newest : policy = .dropOldest → history.queue.items <:+ history.pushed

theorem Valid.start : (start capacity policy : QueueHistory α).Valid capacity policy where
  room := rfl
  drops := rfl
  bounded := Nat.zero_le _
  ordered := .refl _
  counted := rfl
  newest _ := List.suffix_refl _

theorem Valid.accounted (valid : self.Valid capacity policy) :
    self.Accounted capacity policy where
  bounded := valid.bounded
  ordered := valid.ordered
  distinct := valid.ordered.nodup
  counted := valid.counted
  newest := valid.newest

/-- A push that puts some of the queue out, and its item in. -/
theorem Valid.put (valid : self.Valid capacity policy) {item : α} {returned : Bool}
    {left : List α} (sublist : left.Sublist self.queue.items)
    (suffix : left <:+ self.queue.items) (bounded : left.length + 1 ≤ capacity)
    (counted : self.queue.items.length = left.length + (if returned then 0 else 1)) :
    Valid capacity policy
      { self with
        queue := { self.queue with items := left ++ [item] }
        pushes := self.pushes ++ [(item, returned)] } := by
  have pushed : (self.pushes ++ [(item, returned)]).map Prod.fst = self.pushed ++ [item] :=
    List.map_append
  constructor
  · exact valid.room
  · exact valid.drops
  · rwa [List.length_append, List.length_singleton]
  · change (self.popped ++ (left ++ [item])).Sublist _
    rw [QueueHistory.pushed, pushed, ← List.append_assoc]
    exact ((sublist.append_left _).trans valid.ordered).append_right [item]
  · have before := valid.counted
    rw [refusals] at before ⊢
    rw [List.countP_append, List.countP_singleton, List.length_append, List.length_append,
      List.length_singleton, List.length_singleton]
    cases returned <;> simp at counted ⊢ <;> omega
  · intro oldest
    change left ++ [item] <:+ _
    rw [QueueHistory.pushed, pushed]
    rcases suffix.trans (valid.newest oldest) with ⟨gone, rest⟩
    exact ⟨gone, by rw [← List.append_assoc, rest]⟩

theorem call_push_closed (isClosed : self.queue.closed = true) (item : α) :
    self.call (.push item) = self := by
  rw [call, BoundedQueue.push_closed isClosed]
  simp only [isClosed, if_true]

theorem call_push_open (isOpen : self.queue.closed = false) {item : α} {returned : Bool}
    {queue : BoundedQueue α} (pushed : self.queue.push item = (returned, queue)) :
    self.call (.push item) =
      { self with queue := queue, pushes := self.pushes ++ [(item, returned)] } := by
  rw [call, pushed]
  simp only [isOpen, Bool.false_eq_true, if_false]

theorem call_pop_empty (items : self.queue.items = []) : self.call .pop = self := by
  rw [call, BoundedQueue.pop_empty items]

theorem call_pop_first {item : α} {rest : List α} (items : self.queue.items = item :: rest) :
    self.call .pop =
      { self with
        queue := { self.queue with items := rest }
        popped := self.popped ++ [item] } := by
  rw [call, BoundedQueue.pop_first items]

theorem call_close_closed (isClosed : self.queue.closed = true) : self.call .close = self := by
  rw [call, BoundedQueue.close, ← isClosed]

theorem Valid.push (valid : self.Valid capacity policy) (positive : 1 ≤ capacity) (item : α) :
    (self.call (.push item)).Valid capacity policy := by
  cases closed : self.queue.closed with
  | true =>
      rw [call_push_closed closed]
      exact valid
  | false =>
      rcases BoundedQueue.push_cases closed item with
        ⟨room, pushed⟩ | ⟨full, _, pushed⟩ | ⟨newest, pushed⟩
      · rw [call_push_open closed pushed]
        apply valid.put (.refl _) (List.suffix_refl _)
        · rw [valid.room] at room
          exact room
        · rfl
      · rw [call_push_open closed pushed]
        have bounded := valid.bounded
        rw [valid.room] at full
        apply valid.put (List.tail_sublist _) (List.tail_suffix _)
        · rw [List.length_tail]
          omega
        · rw [List.length_tail]
          simp only [Bool.false_eq_true, if_false]
          omega
      · rw [call_push_open closed pushed]
        have unchanged : (self.pushes ++ [(item, false)]).map Prod.fst =
            self.pushed ++ [item] := List.map_append
        refine ⟨valid.room, valid.drops, valid.bounded, ?_, ?_, fun oldest => ?_⟩
        · change List.Sublist _ ((self.pushes ++ [(item, false)]).map Prod.fst)
          rw [unchanged]
          exact valid.ordered.trans (List.sublist_append_left _ _)
        · have before := valid.counted
          rw [refusals] at before ⊢
          rw [List.countP_append, List.countP_singleton, List.length_append,
            List.length_singleton]
          simp only [Bool.not_false, if_true]
          omega
        · rw [valid.drops, oldest] at newest
          contradiction

theorem Valid.pop (valid : self.Valid capacity policy) :
    (self.call .pop).Valid capacity policy := by
  cases items : self.queue.items with
  | nil =>
      rw [call_pop_empty items]
      exact valid
  | cons item rest =>
      rw [call_pop_first items]
      have bounded := valid.bounded
      have ordered := valid.ordered
      have counted := valid.counted
      have newest := valid.newest
      rw [items] at bounded ordered counted newest
      rw [List.length_cons] at bounded counted
      refine ⟨valid.room, valid.drops, Nat.le_of_succ_le bounded, ?_, ?_, fun oldest => ?_⟩
      · change (self.popped ++ [item] ++ rest).Sublist _
        rwa [List.append_assoc, List.singleton_append]
      · change self.pushes.length = (self.popped ++ [item]).length + rest.length + self.refusals
        rw [List.length_append, List.length_singleton]
        omega
      · exact (List.suffix_cons item rest).trans (newest oldest)

theorem Valid.call (valid : self.Valid capacity policy) (positive : 1 ≤ capacity)
    (call : QueueCall α) : (self.call call).Valid capacity policy := by
  cases call with
  | push item => exact valid.push positive item
  | pop => exact valid.pop
  | close => exact ⟨valid.room, valid.drops, valid.bounded, valid.ordered, valid.counted,
      valid.newest⟩

/-! ### All calls -/

theorem Valid.after (valid : self.Valid capacity policy) (positive : 1 ≤ capacity)
    (calls : List (QueueCall α)) : (self.after calls).Valid capacity policy := by
  induction calls generalizing self with
  | nil => exact valid
  | cons call calls ih => exact ih (valid.call positive call)

/-- How many of the calls are pops. -/
def pops (calls : List (QueueCall α)) : Nat :=
  calls.countP fun
    | .pop => true
    | .push _ | .close => false

theorem after_cons (self : QueueHistory α) (call : QueueCall α) (calls : List (QueueCall α)) :
    self.after (call :: calls) = (self.call call).after calls := rfl

/-- One pop more in front of others. -/
theorem Drained.pop {after : QueueHistory α} {pops : Nat}
    (drained : Drained (self.call .pop) after pops) : Drained self after (pops + 1) := by
  rcases drained with ⟨refuses, queue, popped⟩
  cases items : self.queue.items with
  | nil =>
      rw [call_pop_empty items, items, List.drop_nil] at queue
      rw [call_pop_empty items, items, List.take_nil] at popped
      refine ⟨refuses, ?_, ?_⟩
      · rw [items, List.drop_nil]
        exact queue
      · rw [items, List.take_nil]
        exact popped
  | cons item rest =>
      rw [call_pop_first items] at queue popped
      refine ⟨refuses, ?_, ?_⟩
      · rw [items, List.drop_succ_cons]
        exact queue
      · rw [items, List.take_succ_cons, popped, List.append_assoc, List.singleton_append]

theorem call_closed (isClosed : self.queue.closed = true) (call : QueueCall α) :
    (self.call call).queue.closed = true := by
  cases call with
  | push item => rwa [call_push_closed isClosed]
  | close => rfl
  | pop =>
      cases items : self.queue.items with
      | nil => rwa [call_pop_empty items]
      | cons item rest => rwa [call_pop_first items]

theorem drained_after (isClosed : self.queue.closed = true) (calls : List (QueueCall α)) :
    Drained self (self.after calls) (pops calls) := by
  induction calls generalizing self with
  | nil =>
      refine ⟨BoundedQueue.push_closed isClosed, ?_, ?_⟩
      · rfl
      · exact (List.append_nil _).symm
  | cons call calls ih =>
      have drained := ih (call_closed isClosed call)
      rw [after_cons]
      cases call with
      | push item =>
          have same := call_push_closed isClosed item
          rw [same] at drained ⊢
          exact drained
      | close =>
          have same := call_close_closed isClosed
          rw [same] at drained ⊢
          exact drained
      | pop =>
          have count : pops (.pop :: calls : List (QueueCall α)) = pops calls + 1 :=
            List.countP_cons_of_pos rfl
          rw [count]
          exact drained.pop

/-- Loss, duplication and order over all calls, and after `close`. -/
theorem accounting {α : Type u} {capacity : Nat} (positive : 1 ≤ capacity)
    (policy : DropPolicy) (calls : List (QueueCall α)) :
    let history : QueueHistory α := (start capacity policy).after calls
    history.Accounted capacity policy ∧
      (history.queue.closed = true → ∀ later,
        Drained history (history.after later) (pops later)) := by
  constructor
  · exact (Valid.start.after positive calls).accounted
  · exact fun isClosed later => drained_after isClosed later

/-- An item is evicted, one is popped, and the rest is drained. -/
theorem accounting_eviction :
    let history := (start 2 .dropOldest).after
      [.push 1, .push 2, .push 3, .pop, .push 4, .close, .push 5]
    (history.queue.items = [3, 4] ∧ history.refusals = 1) ∧
      history.Accounted 2 .dropOldest ∧ Drained history (history.after [.pop, .pop]) 2 := by
  have general := accounting (Nat.le_succ 1) .dropOldest
    [.push 1, .push 2, .push 3, .pop, .push 4, .close, .push 5]
  exact ⟨by decide, general.1, general.2 rfl [.pop, .pop]⟩

end QueueHistory

end KhadasYolo.Ipc
