import KhadasYolo.Ipc.BoundedQueue
import KhadasYolo.Lib.StreamSocket
import KhadasYolo.Lib.TransitionSystem

/-!
# The publisher and its sender thread

`UnixDataPublisher` step by step. `publish` puts a message into the queue. The sender
thread waits for a consumer, takes messages from the queue and sends each one in several
parts. When a `send` fails it drops the consumer and waits for the next one.

The messages and their parts are parameters. What `send` has accepted and the messages
that have been sent or begun are recorded for each connection, and so is what every
`publish` has done.
-/

namespace KhadasYolo.Ipc

open StreamSocket

universe u

/-- A message with the number of the `publish` call that brought it. -/
structure Published (μ : Type u) where
  number : Nat
  message : μ
  deriving DecidableEq

/-- A consumer. A message that has been begun is being sent, or its `send` has failed. -/
structure Consumer (μ : Type u) where
  peer : Peer
  accepted : List UInt8
  sent : List (Published μ)
  begun : Option (Published μ)
  deriving DecidableEq

/-- The sender thread: `senderLoop`, and `sendFrame` with the parts that are left. -/
inductive Sender (μ : Type u) where
  | looping
  | accepting
  | checking (conn : Consumer μ)
  | popping (conn : Consumer μ)
  | sending (conn : Consumer μ) (left : List (List UInt8))
  | closing (conn : Consumer μ)
  | exited
  deriving DecidableEq

/-- A call of `publish`, with the queue before and after it. -/
structure PublishCall (μ : Type u) where
  published : Published μ
  before : List (Published μ)
  after : List (Published μ)
  returned : Bool
  deriving DecidableEq

structure Publisher (μ : Type u) where
  running : Bool
  listening : Bool
  queue : BoundedQueue (Published μ)
  sender : Sender μ
  dropped : List (Consumer μ)
  calls : List (PublishCall μ)
  deriving DecidableEq

/-- What happens to a publisher. A step of the thread that does not wait is a `run`. -/
inductive PublisherAction (μ : Type u) where
  | publish (message : μ)
  | run
  | connect (room : Nat)
  | acceptFails
  | send (more : Nat)
  | peer (action : PeerAction)
  deriving DecidableEq

variable {μ : Type u}

/-- A consumer that has just connected. -/
def Consumer.fresh (room : Nat) : Consumer μ := ⟨.fresh room, [], [], none⟩

/-- `sendFrame` has returned true. -/
def Consumer.finish (conn : Consumer μ) : Consumer μ :=
  { conn with sent := conn.sent ++ conn.begun.toList, begun := none }

/-- All messages of which something may have been sent. -/
def Consumer.messages (conn : Consumer μ) : List (Published μ) :=
  conn.sent ++ conn.begun.toList

namespace Sender

/-- The next `send` of `sendFrame`, or its return. -/
def resume (conn : Consumer μ) (left : List (List UInt8)) : Sender μ :=
  match unsent left with
  | [] => .checking conn.finish
  | left => .sending conn left

def consumer : Sender μ → Option (Consumer μ)
  | .looping | .accepting | .exited => none
  | .checking conn | .popping conn | .sending conn _ | .closing conn => some conn

/-- The peer of the current connection acts. -/
def act (sender : Sender μ) (action : PeerAction) : Option (Sender μ) :=
  match sender with
  | .looping | .accepting | .exited => none
  | .checking conn => some (.checking { conn with peer := conn.peer.act action })
  | .popping conn => some (.popping { conn with peer := conn.peer.act action })
  | .sending conn left => some (.sending { conn with peer := conn.peer.act action } left)
  | .closing conn => some (.closing { conn with peer := conn.peer.act action })

end Sender

namespace Publisher

/-- A publisher after `start`. -/
def start (capacity : Nat) : Publisher μ where
  running := true
  listening := true
  queue := .empty capacity .dropOldest
  sender := .looping
  dropped := []
  calls := []

/-- `publish`. -/
def publish (self : Publisher μ) (message : μ) : Publisher μ :=
  let published := ⟨self.calls.length, message⟩
  let (returned, queue) := self.queue.push published
  { self with
    queue := queue
    calls := self.calls ++ [⟨published, self.queue.items, queue.items, returned⟩] }

/-- A step of the sender thread outside of `accept` and `send`. -/
def run (parts : μ → List (List UInt8)) (self : Publisher μ) : Option (Publisher μ) :=
  match self.sender with
  | .looping =>
      some { self with sender := if self.running then .accepting else .exited }
  | .checking conn =>
      some { self with sender := if self.running then .popping conn else .closing conn }
  | .popping conn =>
      match self.queue.pop with
      | none => some { self with sender := .checking conn }
      | some (published, queue) =>
          some { self with
            queue := queue
            sender := .resume { conn with begun := some published } (parts published.message) }
  | .closing conn =>
      some { self with sender := .looping, dropped := self.dropped ++ [conn] }
  | .accepting | .sending _ _ | .exited => none

/-- `accept` returns a connection. -/
def connect (self : Publisher μ) (room : Nat) : Option (Publisher μ) :=
  match self.sender with
  | .accepting =>
      if self.listening then some { self with sender := .checking (.fresh room) } else none
  | _ => none

/-- `accept` fails, and the thread ends. -/
def acceptFails (self : Publisher μ) : Option (Publisher μ) :=
  match self.sender with
  | .accepting => some { self with sender := .exited }
  | _ => none

/-- A `send` of `sendFrame`. -/
def send (self : Publisher μ) (more : Nat) : Option (Publisher μ) :=
  match self.sender with
  | .sending conn (bytes :: left) =>
      match conn.peer.send bytes more with
      | none => none
      | some (some count, peer) =>
          some { self with
            sender := .resume
              { conn with peer := peer, accepted := conn.accepted ++ bytes.take count }
              (bytes.drop count :: left) }
      | some (none, peer) => some { self with sender := .closing { conn with peer := peer } }
  | _ => none

def step (parts : μ → List (List UInt8)) (self : Publisher μ) :
    PublisherAction μ → Option (Publisher μ)
  | .publish message => some (self.publish message)
  | .run => self.run parts
  | .connect room => self.connect room
  | .acceptFails => self.acceptFails
  | .send more => self.send more
  | .peer action => (self.sender.act action).map fun sender => { self with sender := sender }

/-- The publisher until `stop` is called. -/
def system (parts : μ → List (List UInt8)) (capacity : Nat) :
    TransitionSystem.System (Publisher μ) (PublisherAction μ) where
  init := start capacity
  step := step parts

/-- All connections, in their order. -/
def consumers (self : Publisher μ) : List (Consumer μ) :=
  self.dropped ++ self.sender.consumer.toList

/-- The message that is being sent. -/
def beingSent (self : Publisher μ) : Option (Published μ) :=
  match self.sender with
  | .sending conn _ => conn.begun
  | _ => none

/-- The connections that are or will be closed. -/
def lost (self : Publisher μ) : List (Consumer μ) :=
  match self.sender with
  | .closing conn => self.dropped ++ [conn]
  | _ => self.dropped

end Publisher

def PublisherAction.publishes : PublisherAction μ → Bool
  | .publish _ => true
  | .run | .connect _ | .acceptFails | .send _ | .peer _ => false

/-- A step that no consumer takes part in, and that is not a `publish`. -/
def PublisherAction.Own : PublisherAction μ → Prop
  | .publish _ | .connect _ | .peer _ => False
  | .run | .acceptFails | .send _ => True

/-! ## Waiting for a consumer -/

namespace Sender

/-- The thread waits in a `send` that only its consumer can end. -/
def Blocked : Sender μ → Prop
  | .sending conn _ => conn.peer.Stalled
  | _ => False

instance (sender : Sender μ) : Decidable sender.Blocked :=
  match sender with
  | .sending conn _ => inferInstanceAs (Decidable conn.peer.Stalled)
  | .looping | .accepting | .checking _ | .popping _ | .closing _ | .exited =>
      inferInstanceAs (Decidable False)

/-- There is something left to send. -/
def Valid : Sender μ → Prop
  | .sending _ left => Begins left
  | _ => True

theorem valid_resume (conn : Consumer μ) (left : List (List UInt8)) :
    (resume conn left).Valid := by
  rw [resume]
  split
  next => exact True.intro
  next some => exact (unsent_begins left).resolve_left some

/-- There is something to send. -/
theorem resume_sending {conn : Consumer μ} {left : List (List UInt8)}
    (begins : Begins (unsent left)) : resume conn left = .sending conn (unsent left) := by
  rcases begins with ⟨first, rest, later, unsent⟩
  rw [resume, unsent]

end Sender

namespace Publisher

variable {parts : μ → List (List UInt8)} {self next : Publisher μ}

/-- The thread can finish its message, and the next one if it is waiting for it, with what
its consumer has done. -/
def Finishes (parts : μ → List (List UInt8)) (self : Publisher μ) : Prop :=
  match self.sender with
  | .popping conn => ∀ first ∈ self.queue.items.head?,
      conn.peer.Takes (parts first.message).flatten.length
  | .sending conn left => conn.peer.Takes left.flatten.length
  | _ => True

theorem finishes_resume {conn : Consumer μ} {left : List (List UInt8)}
    (place : self.sender = .resume conn left) (takes : conn.peer.Takes left.flatten.length) :
    self.Finishes parts := by
  rw [Finishes, place, Sender.resume]
  cases unsent : unsent left with
  | nil => exact True.intro
  | cons bytes later =>
      have flatten := flatten_unsent left
      rw [unsent] at flatten
      dsimp only
      rw [flatten]
      exact takes

/-- A thread that can finish is not blocked. -/
theorem Finishes.not_blocked (finishes : self.Finishes parts) (valid : self.sender.Valid) :
    ¬ self.sender.Blocked := by
  rw [Finishes] at finishes
  cases place : self.sender with
  | sending conn left =>
      rw [place] at finishes valid
      exact Peer.Takes.not_stalled finishes (Begins.length_pos valid)
  | looping | accepting | checking conn | popping conn | closing conn | exited => exact id

/-- What holds after a step: there is something left to send, and a thread that can finish
still can when `stop` has set the flag. -/
structure Continues (parts : μ → List (List UInt8)) (before after : Publisher μ) : Prop where
  running : after.running = before.running
  valid : before.sender.Valid → after.sender.Valid
  finishes : before.running = false → before.Finishes parts → after.Finishes parts

theorem run_continues (taken : self.run parts = some next) : Continues parts self next := by
  rw [run] at taken
  split at taken
  next =>
    cases taken
    refine ⟨rfl, fun _ => ?_, fun stopped _ => ?_⟩
    · split <;> exact True.intro
    · rw [stopped]
      exact True.intro
  next conn place =>
    cases taken
    refine ⟨rfl, fun _ => ?_, fun stopped _ => ?_⟩
    · split <;> exact True.intro
    · rw [stopped]
      exact True.intro
  next conn place =>
    cases items : self.queue.items with
    | nil =>
        rw [BoundedQueue.pop_empty items] at taken
        cases taken
        exact ⟨rfl, fun _ => True.intro, fun _ _ => True.intro⟩
    | cons first rest =>
        rw [BoundedQueue.pop_first items] at taken
        cases taken
        refine ⟨rfl, fun _ => Sender.valid_resume _ _, fun _ finishes => finishes_resume rfl ?_⟩
        rw [Finishes, place, items] at finishes
        exact finishes first rfl
  next conn place =>
    cases taken
    exact ⟨rfl, fun _ => True.intro, fun _ _ => True.intro⟩
  all_goals contradiction

theorem send_continues {more : Nat} (taken : self.send more = some next) :
    Continues parts self next := by
  rw [send] at taken
  split at taken
  next conn bytes left place =>
    split at taken
    next => contradiction
    next count peer returned =>
      cases taken
      refine ⟨rfl, fun _ => Sender.valid_resume _ _, fun _ finishes => finishes_resume rfl ?_⟩
      rw [Finishes, place] at finishes
      dsimp only at finishes
      rw [List.flatten_cons, List.length_append] at finishes
      rw [List.flatten_cons, List.length_append, List.length_drop]
      exact finishes.send returned
    next peer returned =>
      cases taken
      exact ⟨rfl, fun _ => True.intro, fun _ _ => True.intro⟩
  next => contradiction

theorem act_continues {action : PeerAction} {sender : Sender μ}
    (taken : self.sender.act action = some sender) :
    Continues parts self { self with sender := sender } := by
  refine ⟨rfl, fun valid => ?_, fun _ finishes => ?_⟩
  · cases place : self.sender with
    | looping | accepting | exited =>
        rw [place] at taken
        contradiction
    | checking conn | popping conn | closing conn | sending conn left =>
        rw [place] at taken valid
        cases taken
        exact valid
  · rw [Finishes] at finishes
    cases place : self.sender with
    | looping | accepting | exited =>
        rw [place] at taken
        contradiction
    | checking conn | closing conn =>
        rw [place] at taken
        cases taken
        exact True.intro
    | popping conn =>
        rw [place] at taken finishes
        cases taken
        rcases conn.peer.act_later action with ⟨more, goes⟩
        exact fun first member => goes.takes _ (finishes first member)
    | sending conn left =>
        rw [place] at taken finishes
        cases taken
        rcases conn.peer.act_later action with ⟨more, goes⟩
        exact goes.takes _ finishes

/-- Every step but a `publish`. -/
theorem step_continues {action : PublisherAction μ} (quiet : action.publishes = false)
    (taken : self.step parts action = some next) : Continues parts self next := by
  cases action with
  | publish message => contradiction
  | run => exact run_continues taken
  | connect room =>
      rw [step, connect] at taken
      split at taken
      next =>
        split at taken
        next =>
          cases taken
          exact ⟨rfl, fun _ => True.intro, fun _ _ => True.intro⟩
        next => contradiction
      next => contradiction
  | acceptFails =>
      rw [step, Publisher.acceptFails] at taken
      split at taken
      next =>
        cases taken
        exact ⟨rfl, fun _ => True.intro, fun _ _ => True.intro⟩
      next => contradiction
  | send more => exact send_continues taken
  | peer action =>
      rcases Option.map_eq_some_iff.mp taken with ⟨sender, acted, rfl⟩
      exact act_continues acted

/-- There is always something left to send. -/
theorem valid_step {action : PublisherAction μ} (valid : self.sender.Valid)
    (taken : self.step parts action = some next) : next.sender.Valid := by
  by_cases publishes : action.publishes = true
  · cases action with
    | publish message =>
        cases taken
        exact valid
    | run | connect room | acceptFails | send more | peer action => contradiction
  · exact (step_continues (Bool.eq_false_iff.mpr publishes) taken).valid valid

/-! ### When the thread cannot go on -/

open TransitionSystem.System

/-- The thread comes to wait for its consumer, if the consumer does nothing more. -/
def ComesToBlock (parts : μ → List (List UInt8)) (capacity : Nat) (self : Publisher μ) : Prop :=
  ∃ last, (system parts capacity).Path (fun _ action => action.Own) self last ∧
    last.sender.Blocked

variable {capacity : Nat}

theorem ComesToBlock.step {action : PublisherAction μ}
    (taken : self.step parts action = some next) (own : action.Own)
    (blocks : ComesToBlock parts capacity next) : ComesToBlock parts capacity self := by
  rcases blocks with ⟨last, path, blocked⟩
  have first : (system parts capacity).Path (fun _ action => action.Own) self next :=
    .single own taken
  exact ⟨last, first.trans path, blocked⟩

/-- It runs out of room in the middle of a message. -/
theorem blocks_sending {conn : Consumer μ} {left : List (List UInt8)}
    (place : self.sender = .sending conn left) (begins : Begins left)
    (present : conn.peer.gone = false) (short : conn.peer.room < left.flatten.length) :
    ComesToBlock parts capacity self := by
  have blocks : ∀ accepted, ComesToBlock parts capacity
      { self with sender := .sending { conn with accepted := accepted } left } := by
    apply @runs_out (fun peer left => ∀ accepted, ComesToBlock parts capacity { self with
      sender := .sending { conn with peer := peer, accepted := accepted } left }) _ _ _ _ present
        begins short
    · exact fun peer left stalled accepted => ⟨_, .refl _, stalled⟩
    · intro peer first rest later present room begins blocks accepted
      have taken : Publisher.step parts { self with
          sender := .sending { conn with peer := peer, accepted := accepted }
            ((first :: rest) :: later) } (.send 0) =
            some { self with
              sender := .resume { conn with
                peer := { peer with room := peer.room - 1 }
                accepted := accepted ++ [first] } (rest :: later) } := by
        rw [Publisher.step, send]
        dsimp only
        rw [Peer.send_one present room]
        rfl
      apply ComesToBlock.step taken True.intro
      rw [Sender.resume_sending begins]
      exact blocks _
  have this := blocks conn.accepted
  rwa [← place] at this

/-- A thread that cannot finish comes to wait for its consumer. -/
theorem comesToBlock (valid : self.sender.Valid) (unfinished : ¬ self.Finishes parts) :
    ComesToBlock parts capacity self := by
  rw [Finishes] at unfinished
  cases place : self.sender with
  | popping conn =>
      rw [place] at unfinished
      push Not at unfinished
      rcases unfinished with ⟨first, head, full⟩
      rw [Peer.Takes, not_or] at full
      rcases List.head?_eq_some_iff.mp head with ⟨rest, items⟩
      have begins := unsent_begins_of_pos (Nat.zero_lt_of_lt (Nat.not_le.mp full.2))
      have taken : self.step parts .run = some { self with
          queue := { self.queue with items := rest }
          sender := .resume { conn with begun := some first } (parts first.message) } := by
        rw [Publisher.step, run, place]
        dsimp only
        rw [BoundedQueue.pop_first items]
      apply ComesToBlock.step taken True.intro
      apply blocks_sending (Sender.resume_sending begins) begins
      · exact Bool.eq_false_iff.mpr full.1
      · rw [flatten_unsent]
        exact Nat.not_le.mp full.2
  | sending conn left =>
      rw [place] at valid unfinished
      dsimp only at unfinished
      rw [Peer.Takes, not_or] at unfinished
      exact blocks_sending place valid (Bool.eq_false_iff.mpr unfinished.1)
        (Nat.not_le.mp unfinished.2)
  | looping | accepting | checking conn | closing conn | exited =>
      rw [place] at unfinished
      exact absurd True.intro unfinished

end Publisher

end KhadasYolo.Ipc
