import KhadasYolo.Lib.TransitionSystem
import Mathlib.Logic.Function.Basic
import Mathlib.Data.List.Count
import Mathlib.Order.Basic

/-!
# The RTSP stream

The server configures a media for its first client and drops it behind its last one, in
threads of its own, while the pipeline pushes frames.  `g_appsrc` holds a reference to
the source element of the last media, and a push borrows one more.

Calls overlap in any way, apart from shutdowns, which the pipeline makes one after the
other, and every access to `g_appsrc` is a step of its own.  The thread of the main loop
starts and ends in its own time, and a shutdown joins it.
-/

namespace KhadasYolo.Rtsp

open TransitionSystem

/-- What happened to `g_appsrc`, in the order of the critical sections. -/
inductive Event where
  /-- a push has read it -/
  | pushed (copy : Option Nat)
  | stored (element : Nat)
  | released
  deriving DecidableEq, Repr

/-- The element that was stored last, unless it has been released; newest first. -/
def current : List Event → Option Nat
  | [] => none
  | .pushed _ :: older => current older
  | .stored element :: _ => some element
  | .released :: _ => none

/-- Where a call is, at the next thing that it does. -/
inductive Pc where
  /- `rtsp_stream_push_frame` -/
  | pushLock
  | pushRead
  | pushRef (copy : Option Nat)
  | pushUnlock (copy : Option Nat)
  | pushEmit (element : Nat)
  | pushUnref (element : Nat)
  /- `on_media_configure`, with the reference of `gst_bin_get_by_name_recurse_up` -/
  | configureSet (element : Nat)
  | configureLock (element : Nat)
  | configureRelease (element : Nat)
  | configureStore (element : Nat)
  | configureUnlock
  /- `rtsp_stream_deinit` -/
  | deinitLock
  | deinitFlush
  | deinitRelease
  | deinitClear
  | deinitUnlock
  | deinitQuit
  | deinitJoin
  | deinitUnref
  | deinitServer
  | returned
  deriving DecidableEq, Repr

/-- `glib_loop_thread`. -/
inductive LoopThread where
  /-- before `g_main_loop_run` -/
  | created
  | running
  /-- `g_main_loop_quit` has been called -/
  | quitting
  | ended
  deriving DecidableEq, Repr

structure MainLoop where
  /-- `g_loop` is set -/
  present : Bool
  thread : LoopThread
  /-- a quit came before `g_main_loop_run`, which does not notice it -/
  missed : Bool

namespace MainLoop

variable (loop : MainLoop)

/-- `g_main_loop_quit`. -/
def quit : MainLoop :=
  match loop.thread with
  | .created => { loop with missed := true }
  | .running => { loop with thread := .quitting }
  | .quitting | .ended => loop

/-- The thread goes on, if it can. -/
def turn : Option MainLoop :=
  match loop.thread with
  | .created => some { loop with thread := .running }
  | .quitting => some { loop with thread := .ended }
  | .running | .ended => none

end MainLoop

/-- The elements with their reference counts, `g_appsrc` and the main loop. -/
structure Shared where
  appsrc : Option Nat
  refs : Nat → Nat
  /-- an element was used after its last reference had gone -/
  faulted : Bool
  history : List Event
  loop : MainLoop
  /-- `g_server` is set -/
  server : Bool

namespace Shared

variable (s : Shared)

/-- An element is used. -/
def touch (element : Nat) : Shared :=
  { s with faulted := s.faulted || s.refs element == 0 }

/-- `gst_object_ref`. -/
def ref (element : Nat) : Shared :=
  { s.touch element with refs := Function.update s.refs element (s.refs element + 1) }

/-- `gst_object_unref`. -/
def unref (element : Nat) : Shared :=
  { s.touch element with refs := Function.update s.refs element (s.refs element - 1) }

/-- `gst_object_unref(g_appsrc)`. -/
def unrefAppsrc : Shared :=
  match s.appsrc with
  | none => s
  | some element => s.unref element

end Shared

/-- The next thing that a call does, and what it does to the elements. -/
def Pc.next (s : Shared) : Pc → Pc × Shared
  | .pushLock => (.pushRead, s)
  | .pushRead => (.pushRef s.appsrc, { s with history := .pushed s.appsrc :: s.history })
  | .pushRef none => (.pushUnlock none, s)
  | .pushRef (some element) => (.pushUnlock (some element), s.ref element)
  | .pushUnlock none => (.returned, s)
  | .pushUnlock (some element) => (.pushEmit element, s)
  | .pushEmit element => (.pushUnref element, s.touch element)
  | .pushUnref element => (.returned, s.unref element)
  | .configureSet element => (.configureLock element, s.touch element)
  | .configureLock element => (.configureRelease element, s)
  | .configureRelease element => (.configureStore element, s.unrefAppsrc)
  | .configureStore element =>
      (.configureUnlock,
        { s with appsrc := some element, history := .stored element :: s.history })
  | .configureUnlock => (.returned, s)
  | .deinitLock => (.deinitFlush, s)
  | .deinitFlush =>
      match s.appsrc with
      | none => (.deinitUnlock, s)
      | some element => (.deinitRelease, s.touch element)
  | .deinitRelease => (.deinitClear, s.unrefAppsrc)
  | .deinitClear =>
      (.deinitUnlock, { s with appsrc := none, history := .released :: s.history })
  | .deinitUnlock => (.deinitQuit, s)
  | .deinitQuit =>
      if s.loop.present then (.deinitJoin, { s with loop := s.loop.quit })
      else (.deinitServer, s)
  | .deinitJoin => (.deinitUnref, s)
  | .deinitUnref => (.deinitServer, { s with loop := { s.loop with present := false } })
  | .deinitServer => (.returned, { s with server := false })
  | .returned => (.returned, s)

namespace Pc

def locks : Pc → Bool
  | .pushLock | .configureLock _ | .deinitLock => true
  | _ => false

def unlocks : Pc → Bool
  | .pushUnlock _ | .configureUnlock | .deinitUnlock => true
  | _ => false

/-- Between `pthread_mutex_lock` and `pthread_mutex_unlock`. -/
def inside : Pc → Bool
  | .pushRead | .pushRef _ | .pushUnlock _ | .configureRelease _ | .configureStore _
  | .configureUnlock | .deinitFlush | .deinitRelease | .deinitClear | .deinitUnlock => true
  | _ => false

/-- Inside `rtsp_stream_deinit`. -/
def deinits : Pc → Bool
  | .deinitLock | .deinitFlush | .deinitRelease | .deinitClear | .deinitUnlock | .deinitQuit
  | .deinitJoin | .deinitUnref | .deinitServer => true
  | _ => false

/-- `g_appsrc` still points to the element whose reference has been given back. -/
def stale : Pc → Bool
  | .configureStore _ | .deinitClear => true
  | _ => false

/-- The call has a reference to the element. -/
def owns (element : Nat) : Pc → Bool
  | .pushUnlock (some held) | .pushEmit held | .pushUnref held | .configureSet held
  | .configureLock held | .configureRelease held | .configureStore held => held == element
  | _ => false

/-- The steps that a call has left, at most. -/
def left : Pc → Nat
  | .pushLock => 6
  | .pushRead => 5
  | .pushRef _ => 4
  | .pushUnlock _ => 3
  | .pushEmit _ => 2
  | .pushUnref _ => 1
  | .configureSet _ => 5
  | .configureLock _ => 4
  | .configureRelease _ => 3
  | .configureStore _ => 2
  | .configureUnlock => 1
  | .deinitLock => 9
  | .deinitFlush => 8
  | .deinitRelease => 7
  | .deinitClear => 6
  | .deinitUnlock => 5
  | .deinitQuit => 4
  | .deinitJoin => 3
  | .deinitUnref => 2
  | .deinitServer => 1
  | .returned => 0

end Pc

/-- The stream with all calls so far. -/
structure State where
  shared : Shared
  /-- `g_mutex`, with the call that has locked it -/
  mutex : Option Nat
  /-- the elements of the medias that the server still has -/
  medias : List Nat
  made : Nat
  calls : List Pc

inductive Action where
  | push
  /-- a media is made and configured -/
  | configure
  | deinit
  /-- the server drops a media -/
  | drop (element : Nat)
  | run (call : Nat)
  /-- the thread of the main loop goes on -/
  | turn
  deriving DecidableEq, Repr

/-- A call goes one step further. -/
def State.advance (s : State) (call : Nat) (pc : Pc) : State :=
  { s with
    shared := (pc.next s.shared).2
    mutex := if pc.locks then some call else if pc.unlocks then none else s.mutex
    calls := s.calls.set call (pc.next s.shared).1 }

/-- The mutex is locked, or the thread to be joined has not ended. -/
def State.holdsUp (s : State) (pc : Pc) : Bool :=
  pc.locks && s.mutex.isSome || pc == .deinitJoin && s.shared.loop.thread != .ended

def State.run (s : State) (call : Nat) : Option State :=
  match s.calls[call]? with
  | none | some .returned => none
  | some pc => if s.holdsUp pc then none else some (s.advance call pc)

/-- The media of a new element is configured. -/
def State.configure (s : State) : State :=
  { s with
    shared := { s.shared with refs := Function.update s.shared.refs s.made 2 }
    medias := s.made :: s.medias
    made := s.made + 1
    calls := s.calls ++ [.configureSet s.made] }

/-- The media of an element is dropped. -/
def State.drop (s : State) (element : Nat) : State :=
  { s with
    shared := s.shared.unref element
    medias := s.medias.erase element }

/-- The thread of the main loop goes on. -/
def State.turn (s : State) : Option State :=
  s.shared.loop.turn.map fun loop => { s with shared := { s.shared with loop := loop } }

def step (s : State) : Action → Option State
  | .push => some { s with calls := s.calls ++ [.pushLock] }
  | .deinit =>
      if s.calls.any Pc.deinits then none else some { s with calls := s.calls ++ [.deinitLock] }
  | .configure => some s.configure
  | .drop element => if element ∈ s.medias then some (s.drop element) else none
  | .run call => s.run call
  | .turn => s.turn

/-- The stream from `rtsp_stream_init` on. -/
def stream : System State Action where
  init :=
    { shared := ⟨none, fun _ => 0, false, [], ⟨true, .created, false⟩, true⟩
      mutex := none
      medias := []
      made := 0
      calls := [] }
  step := step

/-- What a call does that is not waiting. -/
theorem run_cases {s after : State} {call : Nat} (taken : s.run call = some after) :
    ∃ pc, s.calls[call]? = some pc ∧ pc ≠ .returned ∧ (pc.locks = true → s.mutex = none) ∧
      (pc = .deinitJoin → s.shared.loop.thread = .ended) ∧ after = s.advance call pc := by
  rw [State.run] at taken
  split at taken
  · contradiction
  · contradiction
  next pc ready found =>
    split at taken
    · contradiction
    next free =>
      cases taken
      rw [State.holdsUp, Bool.or_eq_true, not_or] at free
      refine ⟨pc, found, ready, fun locks => ?_, ?_, rfl⟩
      · simpa [locks] using free.1
      · rintro rfl
        simpa using free.2

/-- What the thread of the main loop does. -/
theorem turn_cases {s after : State} (taken : s.turn = some after) :
    ∃ loop, s.shared.loop.turn = some loop ∧
      after = { s with shared := { s.shared with loop := loop } } := by
  rcases Option.map_eq_some_iff.mp taken with ⟨loop, turned, rfl⟩
  exact ⟨loop, turned, rfl⟩

/-! ## The mutex -/

/-- The call that has locked the mutex is the one inside. -/
def Exclusive (s : State) : Prop :=
  ∀ call : Nat, s.mutex = some call ↔ ∃ pc, s.calls[call]? = some pc ∧ pc.inside = true

theorem Pc.inside_next (s : Shared) (pc : Pc) :
    (pc.next s).1.inside = (pc.locks || (pc.inside && !pc.unlocks)) := by
  cases pc with
  | pushRef copy => cases copy <;> rfl
  | pushUnlock copy => cases copy <;> rfl
  | deinitFlush =>
      rw [Pc.next]
      split <;> rfl
  | deinitQuit =>
      rw [Pc.next]
      split <;> rfl
  | _ => rfl

theorem Pc.inside_of_unlocks {pc : Pc} (unlocks : pc.unlocks = true) : pc.inside = true := by
  cases pc <;> first | rfl | contradiction

/-- A new call begins outside. -/
theorem Exclusive.append {s after : State} {pc : Pc} (exclusive : Exclusive s)
    (calls : after.calls = s.calls ++ [pc]) (mutex : after.mutex = s.mutex)
    (outside : pc.inside = false) : Exclusive after := by
  intro call
  rw [mutex, exclusive call, calls]
  constructor
  · rintro ⟨other, found, inside⟩
    refine ⟨other, ?_, inside⟩
    rwa [List.getElem?_append_left (List.getElem?_eq_some_iff.mp found).1]
  · rintro ⟨other, found, inside⟩
    refine ⟨other, ?_, inside⟩
    rw [List.getElem?_append] at found
    split at found
    · exact found
    · rcases List.mem_singleton.mp (List.mem_of_getElem? found) with rfl
      exact absurd (outside.symm.trans inside) nofun

section Run

variable {s : State} {call : Nat} {pc : Pc} (exclusive : Exclusive s)
  (found : s.calls[call]? = some pc)

include exclusive found in
theorem Exclusive.inside_iff : s.mutex = some call ↔ pc.inside = true := by
  rw [exclusive call, found]
  constructor
  · rintro ⟨_, ⟨⟩, inside⟩
    exact inside
  · exact fun inside => ⟨pc, rfl, inside⟩

include exclusive found in
theorem Exclusive.advance (free : pc.locks = true → s.mutex = none) :
    Exclusive (s.advance call pc) := by
  intro other
  have inRange := (List.getElem?_eq_some_iff.mp found).1
  have own := exclusive.inside_iff found
  dsimp only [State.advance]
  by_cases same : call = other
  · subst same
    rw [List.getElem?_set_self inRange]
    simp only [Option.some.injEq, exists_eq_left', Pc.inside_next]
    cases locks : pc.locks with
    | true => simp
    | false =>
        cases unlocks : pc.unlocks with
        | true => simp
        | false => simpa using own
  · rw [List.getElem?_set_ne same, ← exclusive other]
    cases locks : pc.locks with
    | true => simp [free locks, same]
    | false =>
        cases unlocks : pc.unlocks with
        | true =>
            rw [own.mpr (Pc.inside_of_unlocks unlocks)]
            simp [same]
        | false => rfl

end Run

end KhadasYolo.Rtsp
