import KhadasYolo.Lib.Ranking
import Mathlib.Algebra.BigOperators.Group.Finset.Piecewise
import Mathlib.Algebra.Order.BigOperators.Group.Finset
import Mathlib.Data.ENat.Basic

/-!
# Monitors

A value behind a mutex with one condition variable.  A call locks the mutex, waits
on the variable while it blocks, reads and changes the value in one critical
section, unlocks and then notifies.  All blocking calls wait for the same
predicate.

Any number of threads call any number of times.  The calls take effect one after
the other in the order of their critical sections; and where no blocking call is
served without using up one unit of a demand that every notification announces, no
wake-up is lost, although a notification reaches one thread only and threads also
wake up by themselves.
-/

namespace Monitor

open TransitionSystem

universe u v w

/-- What a call notifies once it has unlocked. -/
inductive Signal where
  | silent
  | one
  | all
  deriving DecidableEq, Repr

/-- The calls of a monitor on values of type `σ`. -/
structure Interface (σ : Type u) (Call : Type v) (Result : Type w) where
  /-- the predicate that blocking calls wait for -/
  ready : σ → Bool
  blocking : Call → Bool
  /-- the wait has a timeout -/
  timed : Call → Bool
  perform : Call → σ → Result × σ
  /-- by the value that the critical section has found -/
  signal : Call → σ → Signal

/-- Where a thread is. -/
inductive Status (Call : Type v) where
  | outside
  | entering (call : Call)
  /-- holding the mutex, about to test the predicate -/
  | testing (call : Call) (expired : Bool)
  | asleep (call : Call)
  /-- woken up, about to lock again -/
  | waking (call : Call) (expired : Bool)
  | notifyingOne
  | notifyingAll
  deriving DecidableEq, Repr

/-- The monitor and its threads.  `log` lists the critical sections so far. -/
structure State (σ : Type u) (Call : Type v) (Result : Type w) (Thread : Type*) where
  value : σ
  owner : Option Thread
  threads : Thread → Status Call
  log : List (Call × Result)

inductive Action (Call : Type v) (Thread : Type*) where
  | call (thread : Thread) (call : Call)
  | lock (thread : Thread)
  /-- test the predicate and perform the call, give up, or fall asleep -/
  | run (thread : Thread)
  /-- wake up some thread, if one sleeps -/
  | notifyOne (thread : Thread) (target : Option Thread)
  | notifyAll (thread : Thread)
  /-- wake up by itself -/
  | wake (thread : Thread) (expired : Bool)

namespace Status

variable {Call : Type v}

@[simp] def sleeps : Status Call → Bool
  | .asleep _ => true
  | _ => false

@[simp] def tests : Status Call → Bool
  | .testing _ _ => true
  | _ => false

/-- After a notification of all. -/
@[simp] def notified : Status Call → Status Call
  | .asleep call => .waking call false
  | other => other

end Status

/-- Where a thread goes after its critical section. -/
@[simp] def Signal.after {Call : Type v} : Signal → Status Call
  | .silent => .outside
  | .one => .notifyingOne
  | .all => .notifyingAll

section Steps

variable {σ : Type u} {Call : Type v} {Result : Type w} {Thread : Type*}
  [DecidableEq Thread] [Fintype Thread]

/-- One thread moves. -/
def State.move (s : State σ Call Result Thread) (thread : Thread) (status : Status Call) :
    State σ Call Result Thread :=
  { s with threads := Function.update s.threads thread status }

/-- The critical section of a call. -/
def State.perform (m : Interface σ Call Result) (s : State σ Call Result Thread)
    (thread : Thread) (call : Call) : State σ Call Result Thread :=
  { s.move thread (m.signal call s.value).after with
    value := (m.perform call s.value).2
    owner := none
    log := s.log ++ [(call, (m.perform call s.value).1)] }

/-- A thread that holds the mutex tests the predicate. -/
def State.test (m : Interface σ Call Result) (s : State σ Call Result Thread)
    (thread : Thread) (call : Call) (expired : Bool) : State σ Call Result Thread :=
  if !m.blocking call || m.ready s.value then s.perform m thread call
  else if expired && m.timed call then { s.move thread .outside with owner := none }
  else { s.move thread (.asleep call) with owner := none }

def step (m : Interface σ Call Result) (s : State σ Call Result Thread) :
    Action Call Thread → Option (State σ Call Result Thread)
  | .call thread call =>
      match s.threads thread with
      | .outside => some (s.move thread (.entering call))
      | _ => none
  | .lock thread =>
      match s.owner, s.threads thread with
      | none, .entering call =>
          some { s.move thread (.testing call false) with owner := some thread }
      | none, .waking call expired =>
          some { s.move thread (.testing call expired) with owner := some thread }
      | _, _ => none
  | .run thread =>
      match s.threads thread with
      | .testing call expired => some (s.test m thread call expired)
      | _ => none
  | .notifyOne thread target =>
      match s.threads thread, target with
      | .notifyingOne, some sleeper =>
          match s.threads sleeper with
          | .asleep call => some ((s.move thread .outside).move sleeper (.waking call false))
          | _ => none
      | .notifyingOne, none =>
          if ∀ i, (s.threads i).sleeps = false then some (s.move thread .outside) else none
      | _, _ => none
  | .notifyAll thread =>
      match s.threads thread with
      | .notifyingAll =>
          some { s with
            threads := fun i => if i = thread then .outside else (s.threads i).notified }
      | _ => none
  | .wake thread expired =>
      match s.threads thread with
      | .asleep call => some (s.move thread (.waking call expired))
      | _ => none

/-- A monitor from its construction on. -/
def system (m : Interface σ Call Result) (start : σ) :
    System (State σ Call Result Thread) (Action Call Thread) where
  init := ⟨start, none, fun _ => .outside, []⟩
  step := step m

end Steps

/-! ## Critical sections follow one another -/

section Order

variable {σ : Type u} {Call : Type v} {Result : Type w}

/-- Calls that take effect one after the other, each at a moment at which it does
not block. -/
inductive Sequential (m : Interface σ Call Result) (start : σ) :
    List (Call × Result) → σ → Prop where
  | nil : Sequential m start [] start
  | snoc {log : List (Call × Result)} {value : σ} (call : Call)
      (earlier : Sequential m start log value)
      (unblocked : m.blocking call = true → m.ready value = true) :
      Sequential m start (log ++ [(call, (m.perform call value).1)])
        (m.perform call value).2

variable {Thread : Type*} [DecidableEq Thread] [Fintype Thread]
  {m : Interface σ Call Result} {start : σ}

theorem sequential_step {s after : State σ Call Result Thread}
    {action : Action Call Thread} (inv : Sequential m start s.log s.value)
    (taken : step m s action = some after) : Sequential m start after.log after.value := by
  cases action with
  | run thread =>
      simp only [step] at taken
      split at taken
      next call expired _ =>
        cases taken
        simp only [State.test]
        split
        next open_ =>
          refine .snoc call inv fun blocking => ?_
          simpa [blocking] using open_
        · split <;> exact inv
      · contradiction
  | call | lock | notifyOne | notifyAll | wake =>
      simp only [step] at taken
      repeat' split at taken
      all_goals first | contradiction | (cases taken; exact inv)

/-- The log of a monitor is a sequential run of its calls. -/
theorem reachable_sequential {s : State σ Call Result Thread}
    (reach : (system m start).Reachable s) : Sequential m start s.log s.value :=
  System.ReachableUnder.invariant (fun s => Sequential m start s.log s.value)
    .nil (fun _ _ _ _ inv _ taken => sequential_step inv taken) reach

end Order

/-! ## No wake-up is lost -/

/-- How many blocking calls the value still serves, and what the calls do to this
number: a blocking call uses up one and announces nothing, and what any other call
adds it announces. -/
structure Demand {σ : Type u} {Call : Type v} {Result : Type w}
    (m : Interface σ Call Result) where
  demand : σ → ℕ∞
  ready_iff : ∀ value, m.ready value = true ↔ 0 < demand value
  takes : ∀ {call value}, m.blocking call = true → m.ready value = true →
    m.signal call value = .silent ∧ demand (m.perform call value).2 + 1 ≤ demand value
  gives : ∀ {call value}, m.blocking call = false →
    match m.signal call value with
    | .silent => demand (m.perform call value).2 ≤ demand value
    | .one => demand (m.perform call value).2 ≤ demand value + 1
    | .all => True

section Wakeups

variable {σ : Type u} {Call : Type v} {Result : Type w} {Thread : Type*}
  [DecidableEq Thread] [Fintype Thread] {m : Interface σ Call Result}

/-- A thread that will look for a unit of the demand, or wake up one that will. -/
@[simp] def Status.prospect (m : Interface σ Call Result) : Status Call → Nat
  | .entering call | .testing call _ | .waking call _ => (m.blocking call).toNat
  | .notifyingOne => 1
  | .outside | .asleep _ | .notifyingAll => 0

/-- A sum over the threads when one of them moves. -/
theorem sum_move (weight : Status Call → Nat) (threads : Thread → Status Call)
    (thread : Thread) (status : Status Call) :
    ∑ i, weight (Function.update threads thread status i) + weight (threads thread) =
      ∑ i, weight (threads i) + weight status := by
  have moved : (fun i => weight (Function.update threads thread status i)) =
      Function.update (fun i => weight (threads i)) thread (weight status) := by
    funext i
    by_cases same : i = thread
    · subst same
      simp
    · simp [Function.update_of_ne same]
  rw [moved, Finset.sum_update_of_mem (Finset.mem_univ thread),
    Finset.sdiff_singleton_eq_erase, add_assoc,
    Finset.sum_erase_add _ _ (Finset.mem_univ thread), add_comm]

namespace State

variable (s : State σ Call Result Thread)

def prospects (m : Interface σ Call Result) : Nat := ∑ i, (s.threads i).prospect m

end State

/-- Only blocking calls sleep. -/
@[simp] def Status.proper (m : Interface σ Call Result) : Status Call → Bool
  | .asleep call | .waking call _ => m.blocking call
  | _ => true

/-- The invariant of a monitor. -/
structure Valid (m : Interface σ Call Result) (demand : Demand m)
    (s : State σ Call Result Thread) : Prop where
  owned : ∀ i, s.owner = some i ↔ (s.threads i).tests = true
  proper : ∀ i, (s.threads i).proper m = true
  /-- where a thread sleeps, every unit of the demand has a thread that comes for it -/
  awake : ∀ i, (s.threads i).sleeps = true →
    (∃ j, s.threads j = .notifyingAll) ∨ demand.demand s.value ≤ s.prospects m

/-- The step needs neither a new call nor a thread that wakes up by itself. -/
def Action.internal {Call : Type*} {Thread : Type*} : Action Call Thread → Bool
  | .lock _ | .run _ | .notifyOne _ _ | .notifyAll _ => true
  | .call _ _ | .wake _ _ => false

/-- What one step does, by the thread that makes it. -/
inductive Effect (m : Interface σ Call Result) (s : State σ Call Result Thread)
    (action : Action Call Thread) (after : State σ Call Result Thread) : Prop where
  | called (thread : Thread) (call : Call) (external : action.internal = false)
      (located : s.threads thread = .outside)
      (moved : after = s.move thread (.entering call))
  | locked (thread : Thread) (call : Call) (expired : Bool) (free : s.owner = none)
      (located : s.threads thread = .entering call ∨
        s.threads thread = .waking call expired)
      (moved : after = { s.move thread (.testing call expired) with owner := some thread })
  | performed (thread : Thread) (call : Call) (expired : Bool)
      (located : s.threads thread = .testing call expired)
      (unblocked : m.blocking call = true → m.ready s.value = true)
      (moved : after = s.perform m thread call)
  | gaveUp (thread : Thread) (call : Call) (expired : Bool)
      (located : s.threads thread = .testing call expired)
      (refused : m.blocking call = true ∧ m.ready s.value = false)
      (moved : after = { s.move thread .outside with owner := none })
  | slept (thread : Thread) (call : Call) (expired : Bool)
      (located : s.threads thread = .testing call expired)
      (refused : m.blocking call = true ∧ m.ready s.value = false)
      (moved : after = { s.move thread (.asleep call) with owner := none })
  | notified (thread sleeper : Thread) (call : Call)
      (located : s.threads thread = .notifyingOne)
      (asleep : s.threads sleeper = .asleep call)
      (moved : after = (s.move thread .outside).move sleeper (.waking call false))
  | unheard (thread : Thread) (located : s.threads thread = .notifyingOne)
      (none : ∀ i, (s.threads i).sleeps = false) (moved : after = s.move thread .outside)
  | notifiedAll (thread : Thread) (located : s.threads thread = .notifyingAll)
      (moved : after = { s with
        threads := fun i => if i = thread then .outside else (s.threads i).notified })
  | woke (thread : Thread) (call : Call) (expired : Bool)
      (external : action.internal = false) (located : s.threads thread = .asleep call)
      (moved : after = s.move thread (.waking call expired))

theorem step_effect {s after : State σ Call Result Thread} {action : Action Call Thread}
    (taken : step m s action = some after) : Effect m s action after := by
  cases action with
  | call thread call =>
      simp only [step] at taken
      split at taken
      next located =>
        cases taken
        exact .called thread call rfl located rfl
      · contradiction
  | lock thread =>
      simp only [step] at taken
      split at taken
      next call free located =>
        cases taken
        exact .locked thread call false free (Or.inl located) rfl
      next call expired free located =>
        cases taken
        exact .locked thread call expired free (Or.inr located) rfl
      · contradiction
  | run thread =>
      simp only [step] at taken
      split at taken
      next call expired located =>
        cases taken
        cases blocking : m.blocking call with
        | false =>
            refine .performed thread call expired located (by simp [blocking]) ?_
            simp [State.test, blocking]
        | true =>
            cases ready : m.ready s.value with
            | true =>
                refine .performed thread call expired located (by simp [ready]) ?_
                simp [State.test, ready]
            | false =>
                by_cases stops : (expired && m.timed call) = true
                · refine .gaveUp thread call expired located ⟨blocking, ready⟩ ?_
                  simp [State.test, blocking, ready, stops]
                · refine .slept thread call expired located ⟨blocking, ready⟩ ?_
                  simp [State.test, blocking, ready, stops]
      · contradiction
  | notifyOne thread target =>
      simp only [step] at taken
      split at taken
      next sleeper located =>
        split at taken
        next call asleep =>
          cases taken
          exact .notified thread sleeper call located asleep rfl
        · contradiction
      next located =>
        split at taken
        next none =>
          cases taken
          exact .unheard thread located none rfl
        · contradiction
      · contradiction
  | notifyAll thread =>
      simp only [step] at taken
      split at taken
      next located =>
        cases taken
        exact .notifiedAll thread located rfl
      · contradiction
  | wake thread expired =>
      simp only [step] at taken
      split at taken
      next call located =>
        cases taken
        exact .woke thread call expired rfl located rfl
      · contradiction

namespace Valid

variable {demand : Demand m} {s after : State σ Call Result Thread}

theorem initial (start : σ) :
    Valid m demand (system m start : System (State σ Call Result Thread) _).init := by
  constructor <;> simp [system]

end Valid

section Threads

variable {threads : Thread → Status Call} {thread : Thread} {status : Status Call}

omit [Fintype Thread] in
theorem apply_update {β : Type*} (read : Status Call → β) (i : Thread) :
    read (Function.update threads thread status i) =
      if i = thread then read status else read (threads i) := by
  by_cases same : i = thread
  · rw [if_pos same, same, Function.update_self]
  · rw [if_neg same, Function.update_of_ne same]

end Threads

namespace Valid

variable {demand : Demand m} {s after : State σ Call Result Thread}
  {action : Action Call Thread}

omit [DecidableEq Thread] in
/-- A step that leaves the mutex alone. -/
theorem owned_of_eq (inv : Valid m demand s) (owner : after.owner = s.owner)
    (tests : ∀ i, (after.threads i).tests = (s.threads i).tests) (i : Thread) :
    after.owner = some i ↔ (after.threads i).tests = true := by
  rw [owner, tests]
  exact inv.owned i

/-- Nobody but the owner holds the mutex. -/
theorem tests_eq (inv : Valid m demand s) {thread : Thread}
    (holds : (s.threads thread).tests = true) (i : Thread) :
    (s.threads i).tests = decide (i = thread) := by
  have owner := (inv.owned thread).mpr holds
  rw [Bool.eq_iff_iff, ← inv.owned i, owner, Option.some_inj, decide_eq_true_eq]
  exact eq_comm

/-- A step that unlocks the mutex. -/
theorem owned_of_unlock (inv : Valid m demand s) {thread : Thread} {status : Status Call}
    (holds : (s.threads thread).tests = true) (leaves : status.tests = false)
    (owner : after.owner = none)
    (threads : after.threads = Function.update s.threads thread status) (i : Thread) :
    after.owner = some i ↔ (after.threads i).tests = true := by
  rw [owner, threads, apply_update Status.tests, inv.tests_eq holds, leaves]
  by_cases same : i = thread <;> simp [same]

theorem owned_step (inv : Valid m demand s) (effect : Effect m s action after) (i : Thread) :
    after.owner = some i ↔ (after.threads i).tests = true := by
  cases effect with
  | called thread call external located moved | woke thread call expired external located moved
  | unheard thread located none moved =>
      have owner : after.owner = s.owner := by rw [moved]; rfl
      refine inv.owned_of_eq owner (fun j => ?_) i
      rw [moved, State.move, apply_update Status.tests]
      split
      next same => rw [same, located]; rfl
      · rfl
  | notified thread sleeper call located asleep moved =>
      have owner : after.owner = s.owner := by rw [moved]; rfl
      refine inv.owned_of_eq owner (fun j => ?_) i
      rw [moved, State.move, State.move, apply_update Status.tests,
        apply_update Status.tests]
      split
      next same => rw [same, asleep]; rfl
      · split
        next same => rw [same, located]; rfl
        · rfl
  | notifiedAll thread located moved =>
      have owner : after.owner = s.owner := by rw [moved]
      refine inv.owned_of_eq owner (fun j => ?_) i
      subst moved
      by_cases same : j = thread
      · subst same
        simp [located]
      · cases here : s.threads j <;> simp [same, here]
  | locked thread call expired free located moved =>
      subst moved
      have nobody : ∀ j, (s.threads j).tests = false := by
        intro j
        rw [← Bool.not_eq_true, ← inv.owned j, free]
        simp
      rw [State.move, apply_update Status.tests, nobody]
      by_cases same : i = thread
      · simp [same]
      · simp [same, Ne.symm same]
  | performed thread call expired located unblocked moved =>
      subst moved
      refine inv.owned_of_unlock (by rw [located]; rfl) ?_ rfl rfl i
      cases m.signal call s.value <;> rfl
  | gaveUp thread call expired located refused moved
  | slept thread call expired located refused moved =>
      subst moved
      exact inv.owned_of_unlock (by rw [located]; rfl) rfl rfl rfl i

theorem proper_step (inv : Valid m demand s) (effect : Effect m s action after) (i : Thread) :
    (after.threads i).proper m = true := by
  have proper := inv.proper i
  cases effect with
  | called thread call external located moved | unheard thread located none moved
  | locked thread call expired free located moved
  | gaveUp thread call expired located refused moved =>
      subst moved
      rw [State.move, apply_update (Status.proper m)]
      split
      · rfl
      · exact proper
  | performed thread call expired located unblocked moved =>
      subst moved
      rw [State.perform, State.move, apply_update (Status.proper m)]
      split
      · cases m.signal call s.value <;> rfl
      · exact proper
  | slept thread call expired located refused moved =>
      subst moved
      rw [State.move, apply_update (Status.proper m)]
      split
      · exact refused.1
      · exact proper
  | woke thread call expired external located moved =>
      subst moved
      rw [State.move, apply_update (Status.proper m)]
      split
      next same =>
        subst same
        rwa [located] at proper
      · exact proper
  | notified thread sleeper call located asleep moved =>
      subst moved
      rw [State.move, State.move, apply_update (Status.proper m),
        apply_update (Status.proper m)]
      split
      next same =>
        subst same
        rwa [asleep] at proper
      · split
        · rfl
        · exact proper
  | notifiedAll thread located moved =>
      subst moved
      by_cases same : i = thread
      · simp [same]
      · cases here : s.threads i <;> simp_all

/-- Who sleeps after a thread has moved, and which prospects are left. -/
theorem awake_of_move (inv : Valid m demand s) {thread i : Thread}
    {status : Status Call} (awake : status.sleeps = false)
    (quiet : s.threads thread ≠ .notifyingAll)
    (threads : after.threads = Function.update s.threads thread status)
    (asleep : (after.threads i).sleeps = true) :
    (∃ j, after.threads j = .notifyingAll) ∨
      demand.demand s.value ≤ s.prospects m ∧
        after.prospects m + (s.threads thread).prospect m =
          s.prospects m + status.prospect m := by
  have before : (s.threads i).sleeps = true := by
    rw [threads, apply_update Status.sleeps] at asleep
    split at asleep
    · rw [awake] at asleep
      cases asleep
    · exact asleep
  rcases inv.awake i before with ⟨j, notifying⟩ | enough
  · refine Or.inl ⟨j, ?_⟩
    have other : j ≠ thread := by
      rintro rfl
      exact quiet notifying
    rw [threads, Function.update_of_ne other, notifying]
  · refine Or.inr ⟨enough, ?_⟩
    rw [State.prospects, threads]
    exact sum_move (Status.prospect m) s.threads thread status

omit [DecidableEq Thread] [Fintype Thread] in
theorem demand_zero (refused : m.ready s.value = false) : demand.demand s.value = 0 := by
  by_contra more
  have ready := (demand.ready_iff s.value).mpr (pos_iff_ne_zero.mpr more)
  rw [refused] at ready
  cases ready

theorem awake_performed (inv : Valid m demand s) {thread i : Thread} {call : Call}
    {expired : Bool} (located : s.threads thread = .testing call expired)
    (unblocked : m.blocking call = true → m.ready s.value = true)
    (asleep : ((s.perform m thread call).threads i).sleeps = true) :
    (∃ j, (s.perform m thread call).threads j = .notifyingAll) ∨
      demand.demand (s.perform m thread call).value ≤
        (s.perform m thread call).prospects m := by
  have awake : ((m.signal call s.value).after : Status Call).sleeps = false := by
    cases m.signal call s.value <;> rfl
  rcases inv.awake_of_move awake (by simp [located]) rfl asleep with loud | ⟨enough, count⟩
  · exact Or.inl loud
  · rw [located] at count
    change (_ : ℕ∞) ≤ _ at enough
    cases blocking : m.blocking call with
    | true =>
        obtain ⟨silent, less⟩ := demand.takes blocking (unblocked blocking)
        simp only [Status.prospect, blocking, Bool.toNat_true, silent, Signal.after,
          Nat.add_zero] at count
        have bound := less.trans enough
        rw [← count, Nat.cast_add, Nat.cast_one] at bound
        exact Or.inr ((ENat.add_le_add_iff_right ENat.one_ne_top).mp bound)
    | false =>
        have gives := @Demand.gives _ _ _ m demand call s.value blocking
        simp only [Status.prospect, blocking, Bool.toNat_false, Nat.add_zero] at count
        cases signal : m.signal call s.value with
        | silent =>
            rw [signal] at gives count
            refine Or.inr (gives.trans ?_)
            rw [count]
            exact enough
        | one =>
            rw [signal] at gives count
            refine Or.inr (gives.trans ?_)
            rw [count, Nat.cast_add]
            exact add_le_add_left enough 1
        | all =>
            refine Or.inl ⟨thread, ?_⟩
            simp [State.perform, State.move, signal]

/-- A notification turns one prospect into another. -/
theorem awake_notified (inv : Valid m demand s) {thread sleeper i : Thread} {call : Call}
    (located : s.threads thread = .notifyingOne)
    (sleeping : s.threads sleeper = .asleep call)
    (moved : after = (s.move thread .outside).move sleeper (.waking call false))
    (asleep : (after.threads i).sleeps = true) :
    (∃ j, after.threads j = .notifyingAll) ∨
      demand.demand after.value ≤ after.prospects m := by
  have other : sleeper ≠ thread := by
    rintro rfl
    rw [located] at sleeping
    cases sleeping
  have before : (s.threads i).sleeps = true := by
    rw [moved, State.move, State.move, apply_update Status.sleeps,
      apply_update Status.sleeps] at asleep
    split at asleep
    · cases asleep
    · split at asleep
      · cases asleep
      · exact asleep
  rcases inv.awake i before with ⟨j, notifying⟩ | enough
  · refine Or.inl ⟨j, ?_⟩
    have distinct : j ≠ sleeper ∧ j ≠ thread := by
      constructor <;> rintro rfl
      · rw [sleeping] at notifying
        cases notifying
      · rw [located] at notifying
        cases notifying
    simp [moved, State.move, Function.update_of_ne distinct.1,
      Function.update_of_ne distinct.2, notifying]
  · have blocking : m.blocking call = true := by
      simpa [sleeping] using inv.proper sleeper
    have left := sum_move (Status.prospect m) s.threads thread .outside
    have taken := sum_move (Status.prospect m)
      (Function.update s.threads thread .outside) sleeper (.waking call false)
    rw [Function.update_of_ne other, sleeping] at taken
    rw [located] at left
    have one : (Status.waking call false).prospect m = 1 := by simp [blocking]
    rw [one] at taken
    change _ + 1 = _ + 0 at left
    change _ + 0 = _ at taken
    have same : after.prospects m = s.prospects m := by
      rw [moved]
      change ∑ j, _ = ∑ j, _
      simp only [State.move]
      omega
    rw [same, moved]
    exact Or.inr enough

theorem awake_step (inv : Valid m demand s) (effect : Effect m s action after) (i : Thread)
    (asleep : (after.threads i).sleeps = true) :
    (∃ j, after.threads j = .notifyingAll) ∨
      demand.demand after.value ≤ after.prospects m := by
  cases effect with
  | called thread call external located moved | woke thread call expired external located moved =>
      subst moved
      rcases inv.awake_of_move rfl (by simp [located]) rfl asleep with loud | ⟨enough, count⟩
      · exact Or.inl loud
      · refine Or.inr (enough.trans (Nat.cast_le.mpr ?_))
        rw [located] at count
        simp only [Status.prospect] at count
        omega
  | locked thread call expired free located moved =>
      have threads : after.threads =
          Function.update s.threads thread (.testing call expired) := by rw [moved]; rfl
      have value : after.value = s.value := by rw [moved]; rfl
      have quiet : s.threads thread ≠ .notifyingAll := by
        rcases located with located | located <;> simp [located]
      rcases inv.awake_of_move rfl quiet threads asleep with loud | ⟨enough, count⟩
      · exact Or.inl loud
      · rw [value]
        refine Or.inr (enough.trans (Nat.cast_le.mpr ?_))
        rcases located with located | located <;> rw [located] at count <;>
          simp only [Status.prospect] at count <;> omega
  | performed thread call expired located unblocked moved =>
      subst moved
      exact inv.awake_performed located unblocked asleep
  | gaveUp thread call expired located refused moved
  | slept thread call expired located refused moved =>
      subst moved
      refine Or.inr (le_of_eq_of_le ?_ bot_le)
      exact demand_zero refused.2
  | unheard thread located none moved =>
      subst moved
      rw [State.move, apply_update Status.sleeps, none] at asleep
      split at asleep <;> cases asleep
  | notifiedAll thread located moved =>
      subst moved
      simp only at asleep
      split at asleep
      · cases asleep
      · cases here : s.threads i <;> simp [here] at asleep
  | notified thread sleeper call located sleeping moved =>
      exact inv.awake_notified located sleeping moved asleep

theorem step (inv : Valid m demand s) (effect : Effect m s action after) :
    Valid m demand after :=
  ⟨inv.owned_step effect, inv.proper_step effect, inv.awake_step effect⟩

end Valid

theorem reachable_valid (demand : Demand m) {start : σ} {s : State σ Call Result Thread}
    (reach : (system m start).Reachable s) : Valid m demand s :=
  System.ReachableUnder.invariant (Valid m demand) (Valid.initial start)
    (fun _ _ _ _ inv _ taken => inv.step (step_effect taken)) reach

/-! ## Threads left to themselves -/

/-- No thread can go on. -/
def Quiet (m : Interface σ Call Result) (s : State σ Call Result Thread) : Prop :=
  ∀ action : Action Call Thread, action.internal = true → step m s action = none

/-- Where no thread can go on, a thread that is not outside sleeps, and the value does
not serve it. -/
theorem Valid.quiet {demand : Demand m} {s : State σ Call Result Thread}
    (inv : Valid m demand s) (quiet : Quiet m s) (i : Thread) :
    s.threads i = .outside ∨
      (∃ call, s.threads i = .asleep call) ∧ m.ready s.value = false := by
  have untested : ∀ j call expired, s.threads j ≠ .testing call expired := by
    intro j call expired located
    have stuck := quiet (.run j) rfl
    simp [Monitor.step, located] at stuck
  have free : s.owner = none := by
    cases owner : s.owner with
    | none => rfl
    | some j =>
        have tests := (inv.owned j).mp owner
        cases located : s.threads j with
        | testing call expired => exact absurd located (untested j call expired)
        | _ => simp [located] at tests
  have settled : ∀ j, s.threads j = .outside ∨ ∃ call, s.threads j = .asleep call := by
    intro j
    cases located : s.threads j with
    | outside => exact Or.inl rfl
    | asleep call => exact Or.inr ⟨call, rfl⟩
    | testing call expired => exact absurd located (untested j call expired)
    | entering call | waking call expired =>
        have stuck := quiet (.lock j) rfl
        simp [Monitor.step, free, located] at stuck
    | notifyingAll =>
        have stuck := quiet (.notifyAll j) rfl
        simp [Monitor.step, located] at stuck
    | notifyingOne =>
        by_cases nobody : ∀ k, (s.threads k).sleeps = false
        · have stuck := quiet (.notifyOne j none) rfl
          simp only [Monitor.step, located, if_pos nobody] at stuck
          cases stuck
        · rw [not_forall] at nobody
          rcases nobody with ⟨k, asleep⟩
          cases sleeping : s.threads k with
          | asleep call =>
              have stuck := quiet (.notifyOne j (some k)) rfl
              simp [Monitor.step, located, sleeping] at stuck
          | _ => simp [sleeping] at asleep
  refine (settled i).imp id fun sleeping => ⟨sleeping, ?_⟩
  rcases sleeping with ⟨call, located⟩
  have empty : s.prospects m = 0 := by
    refine Finset.sum_eq_zero fun j _ => ?_
    rcases settled j with located | ⟨call, located⟩ <;> rw [located] <;> rfl
  rcases inv.awake i (by rw [located]; rfl) with ⟨j, notifying⟩ | enough
  · rcases settled j with located | ⟨call, located⟩ <;> rw [located] at notifying <;>
      cases notifying
  · rw [empty] at enough
    rw [← Bool.not_eq_true, demand.ready_iff]
    exact not_lt_of_ge enough

/-- How many steps a thread has left at most, `n` being the number of threads. -/
def Status.left (m : Interface σ Call Result) (n : Nat) : Status Call → Nat
  | .outside | .asleep _ => 0
  | .testing call _ => if m.blocking call then 1 else 2 * n + 2
  | .entering call => if m.blocking call then 2 else 2 * n + 3
  | .waking _ _ => 2
  | .notifyingOne => 3
  | .notifyingAll => 2 * n + 1

/-- The steps that all threads have left. -/
def State.left (s : State σ Call Result Thread) (m : Interface σ Call Result) : Nat :=
  ∑ i, (s.threads i).left m (Fintype.card Thread)

omit [DecidableEq Thread] in
theorem left_le (s : State σ Call Result Thread) :
    s.left m ≤ Fintype.card Thread * (2 * Fintype.card Thread + 3) := by
  have each : ∀ i, (s.threads i).left m (Fintype.card Thread) ≤
      2 * Fintype.card Thread + 3 := by
    intro i
    cases s.threads i <;> simp only [Status.left] <;> (try split) <;> omega
  have total := Finset.sum_le_sum fun i (_ : i ∈ Finset.univ) => each i
  rwa [Finset.sum_const, Finset.card_univ, nsmul_eq_mul, Nat.cast_id] at total

/-- The monitor without new calls, and without threads that wake up by themselves. -/
def settling (m : Interface σ Call Result) (start : State σ Call Result Thread) :
    System (State σ Call Result Thread) (Action Call Thread) where
  init := start
  step s action := if action.internal then step m s action else none

theorem left_move {s after : State σ Call Result Thread} {thread : Thread}
    {status : Status Call} (threads : after.threads = Function.update s.threads thread status)
    (less : status.left m (Fintype.card Thread) <
      (s.threads thread).left m (Fintype.card Thread)) : after.left m < s.left m := by
  have count := sum_move (Status.left m (Fintype.card Thread)) s.threads thread status
  rw [State.left, State.left, threads]
  omega

/-- Every step of the threads by themselves leaves fewer. -/
theorem left_step {demand : Demand m} {s after : State σ Call Result Thread}
    {action : Action Call Thread} (inv : Valid m demand s)
    (internal : action.internal = true) (taken : step m s action = some after) :
    after.left m < s.left m := by
  cases step_effect taken with
  | called thread call external | woke thread call expired external =>
      rw [internal] at external
      cases external
  | locked thread call expired free located moved =>
      have threads : after.threads =
          Function.update s.threads thread (.testing call expired) := by rw [moved]; rfl
      refine left_move threads ?_
      rcases located with located | located
      · rw [located, Status.left, Status.left]
        split <;> omega
      · have blocking : m.blocking call = true := by
          simpa [located] using inv.proper thread
        rw [located, Status.left, Status.left, if_pos blocking]
        omega
  | performed thread call expired located unblocked moved =>
      have threads : after.threads =
          Function.update s.threads thread (m.signal call s.value).after := by
        rw [moved]
        rfl
      refine left_move threads ?_
      have threads : 0 < Fintype.card Thread := Fintype.card_pos_iff.mpr ⟨thread⟩
      cases blocking : m.blocking call with
      | true =>
          rw [located, (demand.takes blocking (unblocked blocking)).1, Signal.after,
            Status.left, Status.left, if_pos blocking]
          exact Nat.one_pos
      | false =>
          rw [located, Status.left]
          cases m.signal call s.value <;> simp [Status.left, blocking]
          omega
  | gaveUp thread call expired located refused moved
  | slept thread call expired located refused moved =>
      refine left_move (by rw [moved]; rfl) ?_
      rw [located, Status.left, Status.left, if_pos refused.1]
      exact Nat.one_pos
  | unheard thread located none moved =>
      refine left_move (by rw [moved]; rfl) ?_
      rw [located, Status.left, Status.left]
      omega
  | notified thread sleeper call located asleep moved =>
      have other : sleeper ≠ thread := by
        rintro rfl
        rw [located] at asleep
        cases asleep
      have leaves := sum_move (Status.left m (Fintype.card Thread)) s.threads thread .outside
      have wakes := sum_move (Status.left m (Fintype.card Thread))
        (Function.update s.threads thread .outside) sleeper (.waking call false)
      rw [Function.update_of_ne other, asleep] at wakes
      rw [located] at leaves
      change _ + 3 = _ + 0 at leaves
      change _ + 0 = _ + 2 at wakes
      rw [moved]
      change ∑ i, _ < ∑ i, _
      simp only [State.move]
      omega
  | notifiedAll thread located moved =>
      have each : ∀ i, (after.threads i).left m (Fintype.card Thread) +
          (if i = thread then 2 * Fintype.card Thread + 1 else 0) ≤
            (s.threads i).left m (Fintype.card Thread) + 2 := by
        intro i
        rw [moved]
        by_cases same : i = thread
        · subst same
          simp [located, Status.left]
        · cases here : s.threads i <;> simp [same, here, Status.left]
      have total := Finset.sum_le_sum fun i (_ : i ∈ Finset.univ) => each i
      rw [Finset.sum_add_distrib, Finset.sum_add_distrib, Finset.sum_ite_eq',
        if_pos (Finset.mem_univ thread), Finset.sum_const, Finset.card_univ,
        nsmul_eq_mul, Nat.cast_id] at total
      rw [State.left, State.left]
      omega

/-- The rank of the threads left to themselves. -/
def settlingRank (demand : Demand m) (start : State σ Call Result Thread) :
    (settling m start).Ranking (Valid m demand) fun _ => true where
  rank s := s.left m
  keeps inv taken := by
    simp only [settling] at taken
    split at taken
    · exact inv.step (step_effect taken)
    · contradiction
  lowers inv taken _ := by
    simp only [settling] at taken
    split at taken
    next internal => exact left_step inv internal taken
    · contradiction
  levels _ _ uncounted := by cases uncounted

/-- A monitor left to itself settles after a bounded number of steps, under every
schedule, and then every thread is outside or sleeps for want of demand. -/
theorem settles {demand : Demand m} {s later : State σ Call Result Thread}
    (inv : Valid m demand s) {schedule : List (Action Call Thread)}
    (run : (settling m s).replay System.unrestricted s schedule = some later) :
    schedule.length ≤ Fintype.card Thread * (2 * Fintype.card Thread + 3) ∧
      (Quiet m later → ∀ i, later.threads i = .outside ∨
        (∃ call, later.threads i = .asleep call) ∧ m.ready later.value = false) := by
  have ⟨bound, valid⟩ := (settlingRank demand s).countP_add_rank_le inv run
  rw [List.countP_true] at bound
  exact ⟨(Nat.le_of_add_right_le bound).trans (left_le s), valid.quiet⟩

end Wakeups

end Monitor
