import KhadasYolo.Ipc.ControlServer
import KhadasYolo.Ipc.DataPublisher
import KhadasYolo.Ipc.Publisher

/-!
# The end of the program

At the end of `main` the control server is stopped, and then the publisher. A `stop`
clears `running_`, closes the listening socket and joins the thread of its server. It does
not touch the connection that the thread may be serving.
-/

namespace KhadasYolo.Ipc

open StreamSocket TransitionSystem

universe u

/-- The main thread: its loop, and then the statements of the two calls of `stop`. -/
inductive MainThread where
  | looping
  | stopControl
  | closeControl
  | joinControl
  | stopData
  | closeQueue
  | closeData
  | joinData
  | joined
  deriving DecidableEq, Repr

/-- The main thread and the two servers. -/
structure Servers (μ : Type u) where
  main : MainThread
  control : ControlServer
  data : Publisher μ

inductive ServersAction (μ : Type u) where
  | main
  | control (action : ControlAction)
  | data (action : PublisherAction μ)

variable {μ : Type u}

/-- A step that no client and no consumer takes part in. -/
def ServersAction.Own : ServersAction μ → Prop
  | .main => True
  | .control action => action.Own
  | .data action => action.Own

namespace Servers

/-- The servers after `start`. -/
def start (capacity : Nat) : Servers μ := ⟨.looping, .start, .start capacity⟩

/-- The next statement of the main thread. A join waits for its thread. -/
def advance (self : Servers μ) : Option (Servers μ) :=
  match self.main with
  | .looping => some { self with main := .stopControl }
  | .stopControl =>
      some { self with main := .closeControl, control := { self.control with running := false } }
  | .closeControl =>
      some { self with main := .joinControl, control := { self.control with listening := false } }
  | .joinControl =>
      if self.control.listener = .exited then some { self with main := .stopData } else none
  | .stopData =>
      some { self with main := .closeQueue, data := { self.data with running := false } }
  | .closeQueue =>
      some { self with main := .closeData, data := { self.data with queue := self.data.queue.close } }
  | .closeData =>
      some { self with main := .joinData, data := { self.data with listening := false } }
  | .joinData =>
      match self.data.sender with
      | .exited => some { self with main := .joined }
      | _ => none
  | .joined => none

variable (responds : List UInt8 → List UInt8 → Bool) (parts : μ → List (List UInt8))

/-- A step of the program. Only the loop of the main thread publishes. -/
def step (self : Servers μ) : ServersAction μ → Option (Servers μ)
  | .main => self.advance
  | .control action =>
      (self.control.step responds action).map fun control => { self with control := control }
  | .data action =>
      if action.publishes = true ∧ self.main ≠ .looping then none
      else (self.data.step parts action).map fun data => { self with data := data }

def system (capacity : Nat) : System (Servers μ) (ServersAction μ) where
  init := start capacity
  step := step responds parts

/-- A join waits for a thread that only its client or its consumer can set free. -/
def Stuck (self : Servers μ) : Prop :=
  self.main = .joinControl ∧ self.control.listener.Blocked ∨
    self.main = .joinData ∧ self.data.sender.Blocked

instance (self : Servers μ) : Decidable self.Stuck := inferInstanceAs (Decidable (_ ∨ _))

/-- When `running_` is cleared, the thread can finish what it is doing with what its
client or its consumer has done. -/
def Prompt (self : Servers μ) : ServersAction μ → Prop
  | .main =>
      match self.main with
      | .stopControl => self.control.listener.Finishes responds
      | .stopData => self.data.Finishes parts
      | _ => True
  | .control _ | .data _ => True

variable {responds parts} {self next : Servers μ} {capacity : Nat}

/-! ## Every run -/

/-- There is something left to read or to send, wherever a thread could wait. -/
structure Valid (state : Servers μ) : Prop where
  control : state.control.listener.Valid
  data : state.data.sender.Valid

/-- A server that is being stopped can finish. -/
structure Finishing (responds : List UInt8 → List UInt8 → Bool)
    (parts : μ → List (List UInt8)) (state : Servers μ) : Prop where
  valid : state.Valid
  control : state.main = .closeControl ∨ state.main = .joinControl →
    state.control.running = false ∧ state.control.listener.Finishes responds
  data : state.main = .closeQueue ∨ state.main = .closeData ∨ state.main = .joinData →
    state.data.running = false ∧ state.data.Finishes parts

theorem Valid.start : (start capacity : Servers μ).Valid := ⟨True.intro, True.intro⟩

/-- The main thread leaves the other threads where they are. -/
theorem advance_threads (taken : self.advance = some next) :
    next.control.listener = self.control.listener ∧ next.data.sender = self.data.sender := by
  rw [advance] at taken
  split at taken
  all_goals
    first
    | contradiction
    | cases taken; exact ⟨rfl, rfl⟩
    | skip
  · split at taken
    · cases taken
      exact ⟨rfl, rfl⟩
    · contradiction
  · split at taken
    · cases taken
      exact ⟨rfl, rfl⟩
    · contradiction

theorem Valid.step (valid : self.Valid) {action : ServersAction μ}
    (taken : self.step responds parts action = some next) : next.Valid := by
  cases action with
  | main =>
      rcases advance_threads taken with ⟨listener, sender⟩
      constructor
      · rw [listener]
        exact valid.control
      · rw [sender]
        exact valid.data
  | control action =>
      rcases Option.map_eq_some_iff.mp taken with ⟨control, stepped, rfl⟩
      exact ⟨(ControlServer.step_continues stepped).valid valid.control, valid.data⟩
  | data action =>
      rw [Servers.step] at taken
      split at taken
      next => contradiction
      next =>
        rcases Option.map_eq_some_iff.mp taken with ⟨data, stepped, rfl⟩
        exact ⟨valid.control, Publisher.valid_step valid.data stepped⟩

theorem reachable_valid (reach : (system responds parts capacity).Reachable self) :
    self.Valid :=
  reach.invariant _ Valid.start fun _ _ _ _ valid _ taken => valid.step taken

/-! ## Prompt runs -/

theorem Finishing.start : (start capacity : Servers μ).Finishing responds parts where
  valid := Valid.start
  control := by simp [Servers.start]
  data := by simp [Servers.start]

/-- A statement of the main thread. -/
theorem Finishing.advance (finishing : self.Finishing responds parts)
    (prompt : self.Prompt responds parts .main) (taken : self.advance = some next) :
    next.Finishing responds parts := by
  have valid : next.Valid := @Valid.step _ responds parts _ _ finishing.valid .main taken
  have control := finishing.control
  have data := finishing.data
  rw [Prompt] at prompt
  rw [Servers.advance] at taken
  cases place : self.main with
  | looping =>
      rw [place] at taken
      cases taken
      exact ⟨valid, by simp, by simp⟩
  | stopControl =>
      rw [place] at taken prompt
      cases taken
      exact ⟨valid, fun _ => ⟨rfl, prompt⟩, by simp⟩
  | closeControl =>
      rw [place] at taken control
      cases taken
      exact ⟨valid, fun _ => control (.inl rfl), by simp⟩
  | joinControl =>
      rw [place] at taken
      dsimp only at taken
      split at taken
      next =>
        cases taken
        exact ⟨valid, by simp, by simp⟩
      next => contradiction
  | stopData =>
      rw [place] at taken prompt
      cases taken
      exact ⟨valid, by simp, fun _ => ⟨rfl, prompt⟩⟩
  | closeQueue =>
      rw [place] at taken data
      cases taken
      exact ⟨valid, by simp, fun _ => data (.inl rfl)⟩
  | closeData =>
      rw [place] at taken data
      cases taken
      exact ⟨valid, by simp, fun _ => data (.inr (.inl rfl))⟩
  | joinData =>
      rw [place] at taken
      dsimp only at taken
      split at taken
      next =>
        cases taken
        exact ⟨valid, by simp, by simp⟩
      next => contradiction
  | joined =>
      rw [place] at taken
      contradiction

theorem Finishing.step (finishing : self.Finishing responds parts) {action : ServersAction μ}
    (prompt : self.Prompt responds parts action)
    (taken : self.step responds parts action = some next) : next.Finishing responds parts := by
  have valid := finishing.valid.step taken
  cases action with
  | main => exact finishing.advance prompt taken
  | control action =>
      rcases Option.map_eq_some_iff.mp taken with ⟨control, stepped, rfl⟩
      have continues := ControlServer.step_continues stepped
      refine ⟨valid, fun place => ?_, finishing.data⟩
      rcases finishing.control place with ⟨stopped, finishes⟩
      exact ⟨continues.running.trans stopped,
        continues.finishes finishing.valid.control stopped finishes⟩
  | data action =>
      rw [Servers.step] at taken
      split at taken
      next => contradiction
      next quiet =>
        rcases Option.map_eq_some_iff.mp taken with ⟨data, stepped, rfl⟩
        refine ⟨valid, finishing.control, fun place => ?_⟩
        rcases finishing.data place with ⟨stopped, finishes⟩
        have silent : action.publishes = false := by
          rw [not_and, not_not] at quiet
          apply Bool.eq_false_iff.mpr
          intro publishes
          have looping := quiet publishes
          dsimp only at place
          rw [looping] at place
          simp at place
        have continues := Publisher.step_continues silent stepped
        exact ⟨continues.running.trans stopped, continues.finishes stopped finishes⟩

theorem Finishing.not_stuck (finishing : self.Finishing responds parts) : ¬ self.Stuck := by
  rintro (⟨place, blocked⟩ | ⟨place, blocked⟩)
  · exact (finishing.control (.inr place)).2.not_blocked finishing.valid.control blocked
  · exact (finishing.data (.inr (.inr place))).2.not_blocked finishing.valid.data blocked

/-! ## The other runs -/

/-- A path on which no client and no consumer acts. -/
abbrev OwnPath (responds : List UInt8 → List UInt8 → Bool) (parts : μ → List (List UInt8))
    (capacity : Nat) : Servers μ → Servers μ → Prop :=
  (system responds parts capacity).Path fun _ action => action.Own

theorem own_advance (taken : self.advance = some next) :
    OwnPath responds parts capacity self next :=
  .single (show ServersAction.Own .main from True.intro) taken

theorem own_control {last : ControlServer}
    (path : (ControlServer.system responds).Path (fun _ action => action.Own) self.control
      last) : OwnPath responds parts capacity self { self with control := last } := by
  apply path.map (fun control => ({ self with control := control } : Servers μ)) .control
  · intro before action after own taken
    exact Option.map_eq_some_iff.mpr ⟨after, taken, rfl⟩
  · exact fun _ _ own => own

theorem own_data {last : Publisher μ}
    (path : (Publisher.system parts capacity).Path (fun _ action => action.Own) self.data
      last) : OwnPath responds parts capacity self { self with data := last } := by
  apply path.map (fun data => ({ self with data := data } : Servers μ)) .data
  · intro before action after own taken
    have quiet : ¬ (action.publishes = true ∧ self.main ≠ .looping) := by
      rintro ⟨publishes, _⟩
      cases action with
      | publish message => exact own
      | run | connect room | acceptFails | send more | peer action => contradiction
    change (if _ then none else _) = _
    rw [if_neg quiet]
    exact Option.map_eq_some_iff.mpr ⟨after, taken, rfl⟩
  · exact fun _ _ own => own

/-- The thread of the control server comes to wait for its client, and the main thread for
the thread. -/
theorem stuck_control (valid : self.Valid) (place : self.main = .stopControl)
    (unfinished : ¬ self.control.listener.Finishes responds) :
    ∃ last, OwnPath responds parts capacity self last ∧ last.Stuck := by
  have stops : OwnPath responds parts capacity self { self with
      main := .closeControl, control := { self.control with running := false } } := by
    apply own_advance
    rw [advance, place]
  rcases @ControlServer.comesToBlock responds { self.control with running := false }
    valid.control unfinished with ⟨last, path, blocked⟩
  have waits := @own_control _ responds parts { self with
    main := .closeControl, control := { self.control with running := false } } capacity _ path
  have joins : OwnPath responds parts capacity
      { self with main := .closeControl, control := last }
      { self with main := .joinControl, control := { last with listening := false } } :=
    own_advance rfl
  exact ⟨_, (stops.trans waits).trans joins, .inl ⟨rfl, blocked⟩⟩

theorem stuck_data (valid : self.Valid) (place : self.main = .stopData)
    (unfinished : ¬ self.data.Finishes parts) :
    ∃ last, OwnPath responds parts capacity self last ∧ last.Stuck := by
  have stops : OwnPath responds parts capacity self { self with
      main := .closeQueue, data := { self.data with running := false } } := by
    apply own_advance
    rw [advance, place]
  rcases @Publisher.comesToBlock _ parts { self.data with running := false } capacity
    valid.data unfinished with ⟨last, path, blocked⟩
  have waits := @own_data _ responds parts { self with
    main := .closeQueue, data := { self.data with running := false } } capacity _ path
  have closes : OwnPath responds parts capacity
      { self with main := .closeQueue, data := last }
      { self with main := .closeData, data := { last with queue := last.queue.close } } :=
    own_advance rfl
  have joins : OwnPath responds parts capacity
      { self with main := .closeData, data := { last with queue := last.queue.close } }
      { self with
        main := .joinData
        data := { last with queue := last.queue.close, listening := false } } :=
    own_advance rfl
  exact ⟨_, ((stops.trans waits).trans closes).trans joins, .inr ⟨rfl, blocked⟩⟩

/-- In a prompt run no join gets stuck. After any other one a join can get stuck without
anything that a client or a consumer does. -/
theorem stop_not_stuck (responds : List UInt8 → List UInt8 → Bool)
    (parts : μ → List (List UInt8)) (capacity : Nat) :
    (∀ state, (system responds parts capacity).ReachableUnder (Prompt responds parts) state →
      ¬ state.Stuck) ∧
    ∀ state action, (system responds parts capacity).Reachable state →
      ¬ state.Prompt responds parts action →
        ∃ last, OwnPath responds parts capacity state last ∧ last.Stuck := by
  constructor
  · intro state reach
    have finishing : state.Finishing responds parts :=
      reach.invariant _ Finishing.start fun _ _ _ _ finishing prompt taken =>
        finishing.step prompt taken
    exact finishing.not_stuck
  · intro state action reach late
    have valid := reachable_valid reach
    cases action with
    | main =>
        rw [Prompt] at late
        cases place : state.main with
        | stopControl =>
            rw [place] at late
            exact stuck_control valid place late
        | stopData =>
            rw [place] at late
            exact stuck_data valid place late
        | looping | closeControl | joinControl | closeQueue | closeData | joinData | joined =>
            rw [place] at late
            exact absurd True.intro late
    | control action => exact absurd True.intro late
    | data action => exact absurd True.intro late

namespace Example

/-- The request `shutdown`. -/
def shutdown : List UInt8 :=
  [123, 34, 99, 109, 100, 34, 58, 34, 115, 104, 117, 116, 100, 111, 119, 110, 34, 125]

/-- Its response. -/
def ok : List UInt8 := [123, 34, 111, 107, 34, 58, 116, 114, 117, 101, 125]

def answers (request response : List UInt8) : Bool :=
  decide (request = shutdown ∧ response = ok)

/-- A client sends `shutdown` and gets its response. -/
def session : List (ServersAction (DetectionMessage Float32)) :=
  [.control .run, .control (.connect 100), .control .run,
    .control (.peer (.supplies (Codec.uint32.encode 18 ++ shutdown))), .control (.read 3),
    .control (.read 17), .control (.respond ok), .control (.send 3), .control (.send 10),
    .control .run]

/-- The client leaves before the main thread stops the servers. -/
def leaving : List (ServersAction (DetectionMessage Float32)) :=
  session ++ [.control (.peer .leaves), .control (.read 0), .control .run, .control .run,
    .data .run, .main, .main, .main, .control .acceptFails, .main, .main, .main, .main]

/-- A thread that is being stopped has no connection. -/
def Unconnected (state : Servers (DetectionMessage Float32)) :
    ServersAction (DetectionMessage Float32) → Prop
  | .main => (state.main = .stopControl → state.control.listener = .accepting) ∧
      (state.main = .stopData → state.data.sender.consumer.isNone)
  | .control _ | .data _ => True

instance (state : Servers (DetectionMessage Float32)) :
    (action : ServersAction (DetectionMessage Float32)) → Decidable (Unconnected state action)
  | .main => inferInstanceAs (Decidable (_ ∧ _))
  | .control _ | .data _ => inferInstanceAs (Decidable True)

theorem Unconnected.prompt {state : Servers (DetectionMessage Float32)}
    {action : ServersAction (DetectionMessage Float32)} (alone : Unconnected state action) :
    state.Prompt answers detectionParts action := by
  cases action with
  | main =>
      rw [Prompt]
      split
      next place =>
        rw [alone.1 place]
        exact True.intro
      next place =>
        have none := alone.2 place
        rw [Publisher.Finishes]
        cases sender : state.data.sender with
        | looping | accepting | exited | checking conn | closing conn => exact True.intro
        | popping conn | sending conn left =>
            rw [sender] at none
            contradiction
      next => exact True.intro
  | control action => exact True.intro
  | data action => exact True.intro

end Example

/-- The client that has sent `shutdown` keeps its session open, and the thread waits for its
next request. -/
theorem stop_stuck_session : ∃ state : Servers (DetectionMessage Float32),
    (system Example.answers detectionParts 32).Reachable state ∧ state.Stuck := by
  rcases System.reaches_of_replay (system Example.answers detectionParts 32)
    System.unrestricted (Example.session ++ [.main, .main, .main])
    (fun state => decide state.Stuck) (by decide +kernel) with ⟨state, reach, stuck⟩
  exact ⟨state, reach, of_decide_eq_true stuck⟩

theorem stop_not_stuck_leaving : ∃ state : Servers (DetectionMessage Float32),
    state.main = .joinData ∧ ¬ state.Stuck := by
  rcases System.reaches_of_replay (system Example.answers detectionParts 32)
    Example.Unconnected Example.leaving
    (fun state => decide (state.main = .joinData)) (by decide +kernel) with
    ⟨state, reach, place⟩
  have prompt := reach.mono fun _ _ => Example.Unconnected.prompt
  exact ⟨state, of_decide_eq_true place,
    (stop_not_stuck Example.answers detectionParts 32).1 state prompt⟩

end Servers

end KhadasYolo.Ipc
