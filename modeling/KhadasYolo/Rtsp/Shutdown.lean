import KhadasYolo.Rtsp.References

/-!
# The end of the calls

A shutdown tells the main loop to quit and joins its thread.  `g_main_loop_run` does not
notice a quit that came before it, and the join then waits for good.  All other calls come
to their end, since nobody waits inside the mutex.
-/

namespace KhadasYolo.Rtsp

open TransitionSystem

/-! ## The work that is left -/

/-- The steps that the thread of the main loop has left, at most. -/
def LoopThread.left : LoopThread → Nat
  | .created => 2
  | .running | .quitting => 1
  | .ended => 0

/-- The steps that the calls and the thread have left, at most. -/
def State.left (s : State) : Nat :=
  (s.calls.map Pc.left).sum + s.shared.loop.thread.left

theorem Pc.left_next (s : Shared) {pc : Pc} (more : pc ≠ .returned) :
    (pc.next s).1.left < pc.left := by
  cases pc with
  | pushRef copy => cases copy <;> simp [next, left]
  | pushUnlock copy => cases copy <;> simp [next, left]
  | deinitFlush =>
      rw [Pc.next]
      split <;> simp [left]
  | deinitQuit =>
      rw [Pc.next]
      split <;> simp [left]
  | returned => contradiction
  | _ => simp [next, left]

theorem MainLoop.quit_left (loop : MainLoop) : loop.quit.thread.left = loop.thread.left := by
  rw [quit]
  split <;> simp [*, LoopThread.left]

/-- What a call does to the main loop. -/
theorem Pc.next_loop (s : Shared) (pc : Pc) :
    (pc.next s).2.loop = s.loop ∨
      (pc = .deinitQuit ∧ (pc.next s).1 = .deinitJoin ∧ (pc.next s).2.loop = s.loop.quit) ∨
      (pc = .deinitUnref ∧ (pc.next s).2.loop = { s.loop with present := false }) := by
  have unref : s.unrefAppsrc.loop = s.loop := by
    rw [Shared.unrefAppsrc]
    split <;> rfl
  cases pc with
  | pushRef copy => cases copy <;> exact .inl rfl
  | pushUnlock copy => cases copy <;> exact .inl rfl
  | configureRelease x => exact .inl unref
  | deinitFlush =>
      rw [Pc.next]
      split <;> exact .inl rfl
  | deinitRelease => exact .inl unref
  | deinitQuit =>
      rw [Pc.next]
      split
      · exact .inr (.inl ⟨rfl, rfl, rfl⟩)
      · exact .inl rfl
  | deinitUnref => exact .inr (.inr ⟨rfl, rfl⟩)
  | _ => exact .inl rfl

theorem left_set {calls : List Pc} {call : Nat} {pc next : Pc}
    (found : calls[call]? = some pc) (less : next.left < pc.left) :
    ((calls.set call next).map Pc.left).sum < (calls.map Pc.left).sum := by
  induction calls generalizing call with
  | nil => contradiction
  | cons newest rest ih =>
      cases call with
      | zero =>
          cases found
          rw [List.set_cons_zero, List.map_cons, List.map_cons, List.sum_cons, List.sum_cons]
          exact Nat.add_lt_add_right less _
      | succ call =>
          rw [List.set_cons_succ, List.map_cons, List.map_cons, List.sum_cons, List.sum_cons]
          exact Nat.add_lt_add_left (ih found) _

theorem run_left {s after : State} {call : Nat} (taken : s.run call = some after) :
    after.left < s.left := by
  rcases run_cases taken with ⟨pc, found, more, _, _, rfl⟩
  have fewer := left_set found (Pc.left_next s.shared more)
  have thread : (s.advance call pc).shared.loop.thread.left = s.shared.loop.thread.left := by
    rcases Pc.next_loop s.shared pc with same | ⟨_, _, quits⟩ | ⟨_, unrefs⟩
    · exact congrArg (·.thread.left) same
    · exact (congrArg (·.thread.left) quits).trans (MainLoop.quit_left _)
    · exact congrArg (·.thread.left) unrefs
  rw [State.left, thread]
  exact Nat.add_lt_add_right fewer _

theorem turn_left {s after : State} (taken : s.turn = some after) : after.left < s.left := by
  rcases turn_cases taken with ⟨loop, turned, rfl⟩
  rw [MainLoop.turn] at turned
  split at turned
  next created =>
    cases turned
    simp [State.left, created, LoopThread.left]
  next quitting =>
    cases turned
    simp [State.left, quitting, LoopThread.left]
  next => contradiction
  next => contradiction

/-! ## Shutdowns -/

/-- What holds of the shutdowns in every state. -/
structure Joining (s : State) : Prop where
  /-- they come one after the other -/
  single : ∀ (first second : Nat) (pc other : Pc), s.calls[first]? = some pc →
    s.calls[second]? = some other → pc.deinits = true → other.deinits = true → first = second
  /-- the thread to be joined has been told to quit -/
  told : ∀ call : Nat, s.calls[call]? = some .deinitJoin → s.shared.loop.missed = true ∨
    s.shared.loop.thread = .quitting ∨ s.shared.loop.thread = .ended
  missed : s.shared.loop.missed = true → (∃ call : Nat, s.calls[call]? = some .deinitJoin) ∧
    (s.shared.loop.thread = .created ∨ s.shared.loop.thread = .running)

theorem Joining.start : Joining stream.init where
  single _ _ _ _ found := nomatch found
  told _ found := nomatch found
  missed := nofun

/-- A quit is noticed unless it came before the loop. -/
theorem MainLoop.quit_told (loop : MainLoop) : loop.quit.missed = true ∨
    loop.quit.thread = .quitting ∨ loop.quit.thread = .ended := by
  rw [quit]
  split
  · exact .inl rfl
  · exact .inr (.inl rfl)
  next quitting => exact .inr (.inl quitting)
  next ended => exact .inr (.inr ended)

theorem MainLoop.created_of_missed {loop : MainLoop} (earlier : loop.missed = false)
    (missed : loop.quit.missed = true) : loop.quit.thread = .created := by
  rw [quit] at missed ⊢
  split at missed
  next created => simp [created]
  all_goals exact absurd (earlier.symm.trans missed) Bool.false_ne_true

/-- A call that comes to the join has told the thread to quit. -/
theorem Pc.next_join {s : Shared} {pc : Pc} (waits : (pc.next s).1 = .deinitJoin) :
    (pc.next s).2.loop = s.loop.quit := by
  cases pc with
  | pushRef copy => cases copy <;> contradiction
  | pushUnlock copy => cases copy <;> contradiction
  | deinitFlush =>
      rw [Pc.next] at waits
      split at waits <;> contradiction
  | deinitQuit =>
      rw [Pc.next] at waits ⊢
      split
      · rfl
      next absent =>
        rw [if_neg absent] at waits
        contradiction
  | _ => contradiction

theorem Pc.deinits_next {s : Shared} {pc : Pc} (later : (pc.next s).1.deinits = true) :
    pc.deinits = true := by
  cases pc with
  | pushRef copy => cases copy <;> contradiction
  | pushUnlock copy => cases copy <;> contradiction
  | deinitFlush => rfl
  | deinitQuit => rfl
  | _ => first | rfl | contradiction

/-- Only a shutdown changes the main loop. -/
theorem Pc.loop_next {s : Shared} {pc : Pc} (outside : pc.deinits = false) :
    (pc.next s).2.loop = s.loop := by
  rcases Pc.next_loop s pc with kept | ⟨rfl, _⟩ | ⟨rfl, _⟩
  · exact kept
  · contradiction
  · contradiction

section Steps

variable {s after : State}

/-- A call begins that is no shutdown, or the only one. -/
theorem Joining.append (joining : Joining s) {pc : Pc} (calls : after.calls = s.calls ++ [pc])
    (loop : after.shared.loop = s.shared.loop) (waits : pc ≠ .deinitJoin)
    (only : pc.deinits = true → ∀ other ∈ s.calls, other.deinits = false) : Joining after := by
  have place (call : Nat) (other : Pc) (found : after.calls[call]? = some other) :
      s.calls[call]? = some other ∨ call = s.calls.length ∧ other = pc := by
    rw [calls, List.getElem?_append] at found
    split at found
    · exact .inl found
    next behind =>
      rcases List.getElem?_eq_some_iff.mp found with ⟨inRange, rfl⟩
      rw [List.length_singleton] at inRange
      exact .inr ⟨by omega, List.getElem_singleton inRange⟩
  have absent {call : Nat} {other : Pc} (found : s.calls[call]? = some other)
      (deinits : other.deinits = true) (begins : pc.deinits = true) : False := by
    rw [only begins other (List.mem_of_getElem? found)] at deinits
    contradiction
  refine ⟨fun first second one other found next begins continues => ?_, fun call found => ?_, ?_⟩
  · rcases place first one found with old | ⟨rfl, rfl⟩
    · rcases place second other next with older | ⟨rfl, rfl⟩
      · exact joining.single first second one other old older begins continues
      · exact (absent old begins continues).elim
    · rcases place second other next with older | ⟨rfl, rfl⟩
      · exact (absent older continues begins).elim
      · rfl
  · rw [loop]
    rcases place call .deinitJoin found with old | ⟨_, same⟩
    · exact joining.told call old
    · exact absurd same.symm waits
  · rw [loop]
    intro missed
    rcases joining.missed missed with ⟨⟨call, found⟩, thread⟩
    refine ⟨⟨call, ?_⟩, thread⟩
    rwa [calls, List.getElem?_append_left (List.getElem?_eq_some_iff.mp found).1]

/-- The only shutdown waits for a thread that does not end, so that another call goes on. -/
theorem Joining.outside (joining : Joining s) (missed : s.shared.loop.missed = true) {call : Nat}
    {pc : Pc} (found : s.calls[call]? = some pc)
    (joined : pc = .deinitJoin → s.shared.loop.thread = .ended) : pc.deinits = false := by
  rcases joining.missed missed with ⟨⟨other, place⟩, thread⟩
  rw [Bool.eq_false_iff]
  intro deinits
  have same := joining.single other call .deinitJoin pc place found rfl deinits
  subst same
  cases place.symm.trans found
  rcases thread with created | running
  · exact absurd ((joined rfl).symm.trans created) nofun
  · exact absurd ((joined rfl).symm.trans running) nofun

/-- A call goes on. -/
theorem Joining.advance (joining : Joining s) {call : Nat} {pc : Pc}
    (found : s.calls[call]? = some pc)
    (joined : pc = .deinitJoin → s.shared.loop.thread = .ended) : Joining (s.advance call pc) := by
  have own : (s.advance call pc).calls[call]? = some (pc.next s.shared).1 :=
    List.getElem?_set_self (List.getElem?_eq_some_iff.mp found).1
  have others {other : Nat} (apart : other ≠ call) :
      (s.advance call pc).calls[other]? = s.calls[other]? := List.getElem?_set_ne apart.symm
  -- a shutdown that was there before, at its place
  have before {other : Nat} {later : Pc} (place : (s.advance call pc).calls[other]? = some later)
      (deinits : later.deinits = true) :
      ∃ earlier, s.calls[other]? = some earlier ∧ earlier.deinits = true := by
    by_cases same : other = call
    · subst same
      rw [own] at place
      cases place
      exact ⟨pc, found, Pc.deinits_next deinits⟩
    · rw [others same] at place
      exact ⟨later, place, deinits⟩
  refine ⟨fun first second one other place next begins continues => ?_, fun other place => ?_,
    fun missed => ?_⟩
  · rcases before place begins with ⟨earlier, old, wasOne⟩
    rcases before next continues with ⟨older, was, wasOther⟩
    exact joining.single first second earlier older old was wasOne wasOther
  · by_cases same : other = call
    · subst same
      rw [own, Option.some.injEq] at place
      rw [State.advance, Pc.next_join place]
      exact MainLoop.quit_told _
    · rw [others same] at place
      have outside : pc.deinits = false := by
        rw [Bool.eq_false_iff]
        exact fun deinits => same (joining.single other call _ _ place found rfl deinits)
      rw [State.advance, Pc.loop_next outside]
      exact joining.told other place
  · rw [State.advance] at missed ⊢
    cases earlier : s.shared.loop.missed with
    | true =>
        have outside := joining.outside earlier found joined
        rcases joining.missed earlier with ⟨⟨other, place⟩, thread⟩
        have apart : other ≠ call := by
          rintro rfl
          cases place.symm.trans found
          contradiction
        rw [Pc.loop_next outside]
        exact ⟨⟨other, (List.getElem?_set_ne apart.symm).trans place⟩, thread⟩
    | false =>
        rcases Pc.next_loop s.shared pc with kept | ⟨_, waits, quits⟩ | ⟨_, unrefs⟩
        · rw [kept, earlier] at missed
          contradiction
        · rw [quits] at missed ⊢
          exact ⟨⟨call, own.trans (congrArg some waits)⟩,
            .inl (MainLoop.created_of_missed earlier missed)⟩
        · rw [unrefs, earlier] at missed
          contradiction

/-- The thread goes on. -/
theorem Joining.turn (joining : Joining s) {loop : MainLoop}
    (turned : s.shared.loop.turn = some loop) :
    Joining { s with shared := { s.shared with loop := loop } } := by
  rw [MainLoop.turn] at turned
  split at turned
  next created =>
    cases turned
    refine ⟨joining.single, fun call found => ?_, fun missed => ?_⟩
    · rcases joining.told call found with missed | quitting | ended
      · exact .inl missed
      · exact absurd (created.symm.trans quitting) nofun
      · exact absurd (created.symm.trans ended) nofun
    · exact ⟨(joining.missed missed).1, .inr rfl⟩
  next quitting =>
    cases turned
    refine ⟨joining.single, fun _ _ => .inr (.inr rfl), fun missed => ?_⟩
    rcases (joining.missed missed).2 with created | running
    · exact absurd (quitting.symm.trans created) nofun
    · exact absurd (quitting.symm.trans running) nofun
  next => contradiction
  next => contradiction

theorem joining_step {action : Action} (joining : Joining s)
    (taken : step s action = some after) : Joining after := by
  cases action with
  | push =>
      cases taken
      exact joining.append rfl rfl (by simp) fun begins => absurd begins Bool.false_ne_true
  | configure =>
      cases taken
      exact joining.append rfl rfl (by simp) fun begins => absurd begins Bool.false_ne_true
  | deinit =>
      rw [step] at taken
      split at taken
      · contradiction
      next alone =>
        cases taken
        refine joining.append rfl rfl (by simp) fun _ other member => ?_
        simpa using fun deinits => alone (List.any_eq_true.mpr ⟨other, member, deinits⟩)
  | drop element =>
      rw [step] at taken
      split at taken
      · cases taken
        exact ⟨joining.single, joining.told, joining.missed⟩
      · contradiction
  | run call =>
      rcases run_cases taken with ⟨pc, found, _, _, joined, rfl⟩
      exact joining.advance found joined
  | turn =>
      rcases turn_cases taken with ⟨loop, turned, rfl⟩
      exact joining.turn turned

end Steps

theorem reachable_joining {s : State} (reach : stream.Reachable s) : Joining s :=
  reach.invariant Joining .start fun _ _ _ _ joining _ taken => joining_step joining taken

/-! ## Rest -/

/-- A call that nothing holds up can go on. -/
theorem run_of_free {s : State} {call : Nat} {pc : Pc} (found : s.calls[call]? = some pc)
    (more : pc ≠ .returned) (free : s.holdsUp pc = false) :
    s.run call = some (s.advance call pc) := by
  rw [State.run, found]
  cases pc <;> first | contradiction | exact if_neg (ne_true_of_eq_false free)

section Rest

variable {s : State} (idle : ∀ call, s.run call = none)

include idle in
/-- Nobody is inside when no call can go on. -/
theorem Exclusive.free (exclusive : Exclusive s) : s.mutex = none := by
  cases holder : s.mutex with
  | none => rfl
  | some call =>
      rcases (exclusive call).mp holder with ⟨pc, found, inside⟩
      have free : s.holdsUp pc = false := by
        cases pc <;> first | contradiction | rfl
      have more : pc ≠ .returned := by
        rintro rfl
        contradiction
      exact absurd ((idle call).symm.trans (run_of_free found more free)) nofun

include idle in
/-- All calls have returned then, unless one waits for a main loop that missed its quit. -/
theorem Joining.rest (joining : Joining s) (free : s.mutex = none) (still : s.turn = none) :
    ∀ pc ∈ s.calls, pc = .returned ∨ pc = .deinitJoin ∧ s.shared.loop.missed = true := by
  intro pc member
  rcases List.getElem?_of_mem member with ⟨call, found⟩
  by_cases ended : pc = .returned
  · exact .inl ended
  have held : s.holdsUp pc = true := by
    rw [← Bool.not_eq_false]
    exact fun open_ => absurd ((idle call).symm.trans (run_of_free found ended open_)) nofun
  rw [State.holdsUp, free, Option.isSome_none, Bool.and_false, Bool.false_or,
    Bool.and_eq_true, beq_iff_eq, bne_iff_ne] at held
  rcases held with ⟨rfl, thread⟩
  refine .inr ⟨rfl, ?_⟩
  rcases joining.told call found with missed | quitting | finished
  · exact missed
  · rw [State.turn, MainLoop.turn, quitting] at still
    contradiction
  · exact absurd finished thread

end Rest

/-! ## A missed quit -/

section Missed

variable {s : State} {call : Nat}

/-- A shutdown whose quit was missed cannot go on. -/
theorem Joining.stuck (joining : Joining s) (missed : s.shared.loop.missed = true)
    (waits : s.calls[call]? = some .deinitJoin) : s.run call = none := by
  rw [State.run, waits]
  rcases (joining.missed missed).2 with created | running
  · simp [State.holdsUp, created]
  · simp [State.holdsUp, running]

/-- It waits in the next state as well. -/
theorem Joining.waits_step (joining : Joining s) (missed : s.shared.loop.missed = true)
    (waits : s.calls[call]? = some .deinitJoin) {action : Action} {after : State}
    (taken : step s action = some after) :
    after.shared.loop.missed = true ∧ after.calls[call]? = some .deinitJoin := by
  have appended (pc : Pc) : (s.calls ++ [pc])[call]? = some .deinitJoin := by
    rw [List.getElem?_append_left (List.getElem?_eq_some_iff.mp waits).1, waits]
  cases action with
  | push | configure =>
      cases taken
      exact ⟨missed, appended _⟩
  | deinit =>
      rw [step] at taken
      split at taken
      · contradiction
      · cases taken
        exact ⟨missed, appended _⟩
  | drop element =>
      rw [step] at taken
      split at taken
      · cases taken
        exact ⟨missed, waits⟩
      · contradiction
  | run other =>
      have taken : s.run other = some after := taken
      have apart : other ≠ call := by
        rintro rfl
        rw [joining.stuck missed waits] at taken
        contradiction
      rcases run_cases taken with ⟨pc, found, _, _, joined, rfl⟩
      refine ⟨?_, (List.getElem?_set_ne apart).trans waits⟩
      rw [State.advance, Pc.loop_next (joining.outside missed found joined)]
      exact missed
  | turn =>
      rcases turn_cases taken with ⟨loop, turned, rfl⟩
      rw [MainLoop.turn] at turned
      split at turned <;> cases turned <;> exact ⟨missed, waits⟩

/-- It waits for good. -/
theorem Joining.waits_path (joining : Joining s) (missed : s.shared.loop.missed = true)
    (waits : s.calls[call]? = some .deinitJoin) {later : State}
    (path : stream.Path System.unrestricted s later) :
    later.calls[call]? = some .deinitJoin ∧ later.run call = none := by
  have kept : Joining later ∧ later.shared.loop.missed = true ∧
      later.calls[call]? = some .deinitJoin :=
    path.preserves (fun state => Joining state ∧ state.shared.loop.missed = true ∧
        state.calls[call]? = some .deinitJoin)
      (fun _ _ _ before _ taken => ⟨joining_step before.1 taken,
        before.1.waits_step before.2.1 before.2.2 taken⟩) ⟨joining, missed, waits⟩
  exact ⟨kept.2.2, kept.1.stuck kept.2.1 kept.2.2⟩

end Missed

/-- However pushes, shutdowns, the medias of the server and its main loop overlap, no element
is used without a reference. An element has one reference for its media, one for `g_appsrc`
and one for every call that works on it; a push reads the element that was stored last,
unless it has been released; and every call comes to its end, but for the shutdown whose
quit the main loop has missed. What is left behind all calls is one reference, to the
element of a media configured since the last release, if there is one. -/
theorem appsrc_references {s : State} (reach : stream.Reachable s) :
    s.shared.faulted = false ∧
      (∀ element, s.shared.refs element = s.medias.count element +
        s.shared.keeps s.stale element + s.calls.countP (Pc.owns element)) ∧
      (∀ copy older, (Event.pushed copy :: older) <:+ s.shared.history →
        copy = current older) ∧
      ((∀ pc ∈ s.calls, pc = .returned) → ∀ element, s.shared.refs element =
        s.medias.count element + if current s.shared.history = some element then 1 else 0) ∧
      ((∀ call after, s.run call = some after → after.left < s.left) ∧
        ∀ after, s.turn = some after → after.left < s.left) ∧
      ((∀ call, s.run call = none) → s.turn = none → ∀ pc ∈ s.calls,
        pc = .returned ∨ pc = .deinitJoin ∧ s.shared.loop.missed = true) ∧
      (s.shared.loop.missed = true →
        ∃ call : Nat, ∀ later, stream.Path System.unrestricted s later →
          later.calls[call]? = some .deinitJoin ∧ later.run call = none) := by
  have sound := reachable_sound reach
  have joining := reachable_joining reach
  refine ⟨sound.unfaulted, sound.balanced, sound.pushed, fun done element => ?_,
    ⟨fun _ _ => run_left, fun _ => turn_left⟩,
    fun idle => joining.rest idle (sound.exclusive.free idle), fun missed =>
      (joining.missed missed).1.imp fun _ waits _ => joining.waits_path missed waits⟩
  have idle : s.calls.countP (Pc.owns element) = 0 := by
    rw [List.countP_eq_zero]
    intro pc member
    rw [done pc member]
    exact Bool.false_ne_true
  have free : s.mutex = none := by
    cases holder : s.mutex with
    | none => rfl
    | some call =>
        rcases (sound.exclusive call).mp holder with ⟨pc, found, inside⟩
        rw [done pc (List.mem_of_getElem? found)] at inside
        exact absurd inside nofun
  rw [sound.balanced element, idle, State.stale_of_free free, Shared.keeps, sound.appsrc]
  simp

/-- The first media, a push that the shutdown waits for, and the late media. -/
def late : List Action :=
  [[.configure], List.replicate 5 (.run 0), [.turn, .push, .run 1, .run 1, .deinit],
    List.replicate 4 (.run 1), List.replicate 6 (.run 2), [.turn], List.replicate 3 (.run 2),
    [.configure], List.replicate 5 (.run 3), [.drop 0, .drop 1]].flatten

/-- A shutdown before the thread has come to its loop. -/
def early : List Action :=
  [[.deinit], List.replicate 4 (.run 0), [.turn]].flatten

/-- A media that is configured behind the shutdown leaves its element behind, and a shutdown
that is too early waits. -/
theorem appsrc_references_late :
    (∃ s, stream.Reachable s ∧ s.medias = [] ∧ s.shared.refs 0 = 0 ∧ s.shared.refs 1 = 1 ∧
      s.shared.faulted = false ∧ ∀ pc ∈ s.calls, pc = .returned) ∧
    ∃ s, stream.Reachable s ∧ s.turn = none ∧
      ∃ call : Nat, ∀ later, stream.Path System.unrestricted s later →
        later.calls[call]? = some .deinitJoin ∧ later.run call = none := by
  constructor
  · have run := stream.reaches_of_replay System.unrestricted late
      (fun s => s.medias == [] && s.shared.refs 0 == 0 && s.shared.refs 1 == 1 &&
        decide (∀ pc ∈ s.calls, pc = .returned)) (by decide)
    rcases run with ⟨s, reach, test⟩
    simp only [Bool.and_eq_true, beq_iff_eq, decide_eq_true_eq] at test
    exact ⟨s, reach, test.1.1.1, test.1.1.2, test.1.2, (appsrc_references reach).1, test.2⟩
  · have run := stream.reaches_of_replay System.unrestricted early
      (fun s => s.shared.loop.missed && s.turn.isNone) (by decide)
    rcases run with ⟨s, reach, test⟩
    simp only [Bool.and_eq_true, Option.isNone_iff_eq_none] at test
    exact ⟨s, reach, test.2, (appsrc_references reach).2.2.2.2.2.2 test.1⟩

end KhadasYolo.Rtsp
