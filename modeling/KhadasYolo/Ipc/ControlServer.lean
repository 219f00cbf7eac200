import KhadasYolo.Lib.Codec
import KhadasYolo.Lib.StreamSocket
import KhadasYolo.Lib.TransitionSystem

/-!
# The control server and its listener thread

`UnixControlServer` step by step: the listener thread accepts one client at a time, reads
a request with its length, dispatches it, and sends the response with its length. It tests
`running_` between two requests. What `dispatchCommand` may answer is a parameter; it may
wait for the main loop, but not for a client.
-/

namespace KhadasYolo.Ipc

open StreamSocket

/-- The listener thread: `listenerLoop`, `handleConnection`, and within `recvMsg` and
`sendMsg` what has been read and what is left to send. -/
inductive Listener where
  | looping
  | accepting
  | checking (peer : Peer)
  | readingLength (peer : Peer) (got : List UInt8)
  | readingBody (peer : Peer) (length : Nat) (got : List UInt8)
  | dispatching (peer : Peer) (request : List UInt8)
  | sending (peer : Peer) (left : List (List UInt8))
  | closing (peer : Peer)
  | exited
  deriving DecidableEq, Repr

structure ControlServer where
  running : Bool
  listening : Bool
  listener : Listener
  deriving DecidableEq, Repr

/-- What happens to a control server. A step of the thread that does not wait is a
`run`. -/
inductive ControlAction where
  | run
  | connect (room : Nat)
  | acceptFails
  | read (more : Nat)
  | respond (response : List UInt8)
  | send (more : Nat)
  | peer (action : PeerAction)
  deriving DecidableEq, Repr

namespace Listener

/-- `recvMsg` after a `read` of the length, with the cap of 1 MB. -/
def receivedLength (peer : Peer) (got : List UInt8) : Listener :=
  if got.length < 4 then .readingLength peer got
  else
    let length := Codec.ofBytes got
    if length = 0 ∨ 2 ^ 20 < length then .closing peer else .readingBody peer length []

/-- `recvMsg` after a `read` of the body. -/
def receivedBody (peer : Peer) (length : Nat) (got : List UInt8) : Listener :=
  if got.length < length then .readingBody peer length got else .dispatching peer got

/-- The next `send` of `sendMsg`, or its return. -/
def resume (peer : Peer) (left : List (List UInt8)) : Listener :=
  match unsent left with
  | [] => .checking peer
  | left => .sending peer left

/-- `sendMsg`. -/
def sendMsg (peer : Peer) (msg : List UInt8) : Listener :=
  resume peer [Codec.uint32.encode (UInt32.ofNat msg.length), msg]

/-- The peer of the current connection acts. -/
def act (listener : Listener) (action : PeerAction) : Option Listener :=
  match listener with
  | .looping | .accepting | .exited => none
  | .checking peer => some (.checking (peer.act action))
  | .readingLength peer got => some (.readingLength (peer.act action) got)
  | .readingBody peer length got => some (.readingBody (peer.act action) length got)
  | .dispatching peer request => some (.dispatching (peer.act action) request)
  | .sending peer left => some (.sending (peer.act action) left)
  | .closing peer => some (.closing (peer.act action))

/-- The step of the thread outside of the calls that wait. -/
def run (running : Bool) : Listener → Option Listener
  | .looping => some (if running then .accepting else .exited)
  | .checking peer => some (if running then .readingLength peer [] else .closing peer)
  | .closing _ => some .looping
  | _ => none

/-- A `read` of `recvMsg`. -/
def read (more : Nat) : Listener → Option Listener
  | .readingLength peer got =>
      (peer.read (4 - got.length) more).map fun (bytes, next) =>
        if bytes = [] then .closing next else receivedLength next (got ++ bytes)
  | .readingBody peer length got =>
      (peer.read (length - got.length) more).map fun (bytes, next) =>
        if bytes = [] then .closing next else receivedBody next length (got ++ bytes)
  | _ => none

/-- A `send` of `sendMsg`. -/
def send (more : Nat) : Listener → Option Listener
  | .sending peer (bytes :: left) =>
      (peer.send bytes more).map fun
        | (some count, next) => resume next (bytes.drop count :: left)
        | (none, next) => .closing next
  | _ => none

end Listener

namespace ControlServer

/-- A server after `start`. -/
def start : ControlServer := ⟨true, true, .looping⟩

def step (responds : List UInt8 → List UInt8 → Bool) (self : ControlServer) :
    ControlAction → Option ControlServer
  | .run => (self.listener.run self.running).map fun next => { self with listener := next }
  | .connect room =>
      match self.listener with
      | .accepting =>
          if self.listening then some { self with listener := .checking (.fresh room) }
          else none
      | _ => none
  | .acceptFails =>
      match self.listener with
      | .accepting => some { self with listener := .exited }
      | _ => none
  | .read more => (self.listener.read more).map fun next => { self with listener := next }
  | .respond response =>
      match self.listener with
      | .dispatching peer request =>
          if responds request response then
            some { self with listener := .sendMsg peer response }
          else none
      | _ => none
  | .send more => (self.listener.send more).map fun next => { self with listener := next }
  | .peer action => (self.listener.act action).map fun next => { self with listener := next }

def system (responds : List UInt8 → List UInt8 → Bool) :
    TransitionSystem.System ControlServer ControlAction where
  init := start
  step := step responds

end ControlServer

/-- A step that no client takes part in. -/
def ControlAction.Own : ControlAction → Prop
  | .connect _ | .peer _ => False
  | .run | .acceptFails | .read _ | .respond _ | .send _ => True

/-! ## Waiting for a client -/

namespace Listener

/-- The thread waits in a `read` or a `send` that only its client can end. -/
def Blocked : Listener → Prop
  | .readingLength peer _ | .readingBody peer _ _ => peer.Silent
  | .sending peer _ => peer.Stalled
  | _ => False

instance (listener : Listener) : Decidable listener.Blocked :=
  match listener with
  | .readingLength peer _ | .readingBody peer _ _ => inferInstanceAs (Decidable peer.Silent)
  | .sending peer _ => inferInstanceAs (Decidable peer.Stalled)
  | .looping | .accepting | .checking _ | .dispatching _ _ | .closing _ | .exited =>
      inferInstanceAs (Decidable False)

/-- There is something left to read or to send. -/
def Valid : Listener → Prop
  | .readingLength _ got => got.length < 4
  | .readingBody _ length got => got.length < length
  | .sending _ left => Begins left
  | _ => True

variable (responds : List UInt8 → List UInt8 → Bool)

/-- There is room for every response to a request. -/
def Answerable (peer : Peer) (request : List UInt8) : Prop :=
  ∀ response, responds request response = true → peer.Takes (4 + response.length)

/-- The body has arrived and can be answered, or it is cut off. -/
def BodyFinishes (peer : Peer) (length : Nat) (bytes : List UInt8) : Prop :=
  if bytes.length < length then peer.ended = true
  else Answerable responds peer (bytes.take length)

/-- The request has arrived and can be answered, or it is cut off or refused. -/
def RequestFinishes (peer : Peer) (bytes : List UInt8) : Prop :=
  if bytes.length < 4 then peer.ended = true
  else
    let length := Codec.ofBytes (bytes.take 4)
    length = 0 ∨ 2 ^ 20 < length ∨ BodyFinishes responds peer length (bytes.drop 4)

/-- The thread can finish the current request with what its client has done. -/
def Finishes : Listener → Prop
  | .readingLength peer got => RequestFinishes responds peer (got ++ peer.incoming)
  | .readingBody peer length got => BodyFinishes responds peer length (got ++ peer.incoming)
  | .dispatching peer request => Answerable responds peer request
  | .sending peer left => peer.Takes left.flatten.length
  | _ => True

variable {responds} {peer next : Peer} {listener after : Listener} {left : List (List UInt8)}
  {got bytes more : List UInt8} {length : Nat}

/-! ### Sending -/

theorem valid_resume (peer : Peer) (left : List (List UInt8)) : (resume peer left).Valid := by
  rw [resume]
  split
  next => exact True.intro
  next some => exact (unsent_begins left).resolve_left some

theorem finishes_resume (takes : peer.Takes left.flatten.length) :
    (resume peer left).Finishes responds := by
  rw [resume]
  split
  next => exact True.intro
  next =>
    rw [Finishes, flatten_unsent]
    exact takes

/-- There is something to send. -/
theorem resume_sending (begins : Begins (unsent left)) :
    resume peer left = .sending peer (unsent left) := by
  rcases begins with ⟨first, rest, later, unsent⟩
  rw [resume, unsent]

/-- The bytes of a response. -/
theorem length_sendMsg (msg : List UInt8) :
    [Codec.uint32.encode (UInt32.ofNat msg.length), msg].flatten.length = 4 + msg.length := by
  have size := Codec.uint32.length_encode (UInt32.ofNat msg.length)
  have four : Codec.uint32.size = 4 := rfl
  simp only [List.flatten_cons, List.flatten_nil, List.length_append, size, four,
    List.length_nil, Nat.add_zero]

theorem valid_sendMsg (peer : Peer) (msg : List UInt8) : (sendMsg peer msg).Valid :=
  valid_resume peer _

theorem finishes_sendMsg {msg : List UInt8} (takes : peer.Takes (4 + msg.length)) :
    (sendMsg peer msg).Finishes responds := by
  apply finishes_resume
  rw [length_sendMsg]
  exact takes

/-! ### When the client goes on -/

theorem Answerable.later (answerable : Answerable responds peer bytes)
    (goes : peer.Later next more) : Answerable responds next bytes :=
  fun response known => goes.takes _ (answerable response known)

theorem BodyFinishes.later (finishes : BodyFinishes responds peer length bytes)
    (goes : peer.Later next more) : BodyFinishes responds next length (bytes ++ more) := by
  rw [BodyFinishes] at finishes
  split at finishes
  next short =>
    rcases goes.ended finishes with ⟨ended, none⟩
    rw [none, List.append_nil, BodyFinishes, if_pos short]
    exact ended
  next arrived =>
    have still : ¬ (bytes ++ more).length < length := by
      rw [List.length_append]
      omega
    rw [BodyFinishes, if_neg still, List.take_append_of_le_length (Nat.not_lt.mp arrived)]
    exact Answerable.later finishes goes

theorem RequestFinishes.later (finishes : RequestFinishes responds peer bytes)
    (goes : peer.Later next more) : RequestFinishes responds next (bytes ++ more) := by
  rw [RequestFinishes] at finishes
  split at finishes
  next short =>
    rcases goes.ended finishes with ⟨ended, none⟩
    rw [none, List.append_nil, RequestFinishes, if_pos short]
    exact ended
  next arrived =>
    have still : ¬ (bytes ++ more).length < 4 := by
      rw [List.length_append]
      omega
    rw [RequestFinishes, if_neg still, List.take_append_of_le_length (Nat.not_lt.mp arrived),
      List.drop_append_of_le_length (Nat.not_lt.mp arrived)]
    exact finishes.imp_right (Or.imp_right (BodyFinishes.later · goes))

/-- The action of a client. -/
theorem act_keeps {action : PeerAction} (taken : listener.act action = some after) :
    (listener.Valid → after.Valid) ∧
      (listener.Finishes responds → after.Finishes responds) := by
  cases listener with
  | looping | accepting | exited => contradiction
  | checking peer | closing peer =>
      cases taken
      exact ⟨id, id⟩
  | readingLength peer got =>
      cases taken
      rcases peer.act_later action with ⟨more, goes⟩
      refine ⟨id, fun finishes => ?_⟩
      rw [Finishes, goes.incoming, ← List.append_assoc]
      exact RequestFinishes.later finishes goes
  | readingBody peer length got =>
      cases taken
      rcases peer.act_later action with ⟨more, goes⟩
      refine ⟨id, fun finishes => ?_⟩
      rw [Finishes, goes.incoming, ← List.append_assoc]
      exact BodyFinishes.later finishes goes
  | dispatching peer request =>
      cases taken
      rcases peer.act_later action with ⟨more, goes⟩
      exact ⟨id, fun finishes => Answerable.later finishes goes⟩
  | sending peer left =>
      cases taken
      rcases peer.act_later action with ⟨more, goes⟩
      exact ⟨id, goes.takes _⟩

/-! ### When the thread goes on -/

theorem receivedLength_valid (peer : Peer) (got : List UInt8) :
    (receivedLength peer got).Valid := by
  rw [receivedLength]
  split
  next short => exact short
  next =>
    dsimp only
    split
    next => exact True.intro
    next accepted =>
      rw [not_or] at accepted
      exact Nat.pos_of_ne_zero accepted.1

theorem receivedBody_valid (peer : Peer) (length : Nat) (got : List UInt8) :
    (receivedBody peer length got).Valid := by
  rw [receivedBody]
  split
  next short => exact short
  next => exact True.intro

theorem receivedLength_finishes (within : got.length ≤ 4)
    (finishes : RequestFinishes responds peer (got ++ peer.incoming)) :
    (receivedLength peer got).Finishes responds := by
  rw [receivedLength]
  split
  next => exact finishes
  next arrived =>
    have whole : got.length = 4 := by omega
    have first : ¬ (got ++ peer.incoming).length < 4 := by
      rw [List.length_append]
      omega
    rw [RequestFinishes, if_neg first, ← whole, List.take_left, List.drop_left] at finishes
    dsimp only at finishes ⊢
    split
    next => exact True.intro
    next accepted =>
      rw [not_or] at accepted
      exact (finishes.resolve_left accepted.1).resolve_left accepted.2

theorem receivedBody_finishes (within : got.length ≤ length)
    (finishes : BodyFinishes responds peer length (got ++ peer.incoming)) :
    (receivedBody peer length got).Finishes responds := by
  rw [receivedBody]
  split
  next => exact finishes
  next arrived =>
    have whole : got.length = length := by omega
    have all : ¬ (got ++ peer.incoming).length < length := by
      rw [List.length_append]
      omega
    rw [BodyFinishes, if_neg all, ← whole, List.take_left] at finishes
    exact finishes

/-- A client that has ended has ended at its last byte. -/
theorem later_of_read {limit count : Nat}
    (returned : peer.read limit count = some (got, next)) :
    peer.incoming = got ++ next.incoming ∧ got.length ≤ limit ∧
      { peer with incoming := next.incoming } = next := by
  rcases (Peer.read_some returned).1 with ⟨moved, within, ended, room, gone⟩
  refine ⟨moved.symm, within, ?_⟩
  rw [← ended, ← room, ← gone]

theorem read_keeps {count : Nat} (valid : listener.Valid)
    (taken : listener.read count = some after) :
    after.Valid ∧ (listener.Finishes responds → after.Finishes responds) := by
  cases listener with
  | readingLength peer got =>
      rcases Option.map_eq_some_iff.mp taken with ⟨⟨bytes, next⟩, returned, rfl⟩
      rcases later_of_read returned with ⟨moved, within, same⟩
      dsimp only
      split
      next => exact ⟨True.intro, fun _ => True.intro⟩
      next =>
        refine ⟨receivedLength_valid _ _, fun finishes => receivedLength_finishes ?_ ?_⟩
        · have short : got.length < 4 := valid
          rw [List.length_append]
          omega
        · rw [Finishes, moved] at finishes
          rw [List.append_assoc, ← same]
          exact finishes
  | readingBody peer length got =>
      rcases Option.map_eq_some_iff.mp taken with ⟨⟨bytes, next⟩, returned, rfl⟩
      rcases later_of_read returned with ⟨moved, within, same⟩
      dsimp only
      split
      next => exact ⟨True.intro, fun _ => True.intro⟩
      next =>
        refine ⟨receivedBody_valid _ _ _, fun finishes => receivedBody_finishes ?_ ?_⟩
        · have short : got.length < length := valid
          rw [List.length_append]
          omega
        · rw [Finishes, moved] at finishes
          rw [List.append_assoc, ← same]
          exact finishes
  | looping | accepting | checking peer | dispatching peer request | sending peer left
  | closing peer | exited => contradiction

theorem send_keeps {count : Nat} (taken : listener.send count = some after) :
    after.Valid ∧ (listener.Finishes responds → after.Finishes responds) := by
  cases listener with
  | sending peer left =>
      cases left with
      | nil => contradiction
      | cons bytes left =>
          rcases Option.map_eq_some_iff.mp taken with ⟨⟨accepted, next⟩, returned, rfl⟩
          cases accepted with
          | none => exact ⟨True.intro, fun _ => True.intro⟩
          | some count =>
              refine ⟨valid_resume _ _, fun finishes => finishes_resume ?_⟩
              rw [Finishes, List.flatten_cons, List.length_append] at finishes
              rw [List.flatten_cons, List.length_append, List.length_drop]
              exact finishes.send returned
  | looping | accepting | checking peer | readingLength peer got
  | readingBody peer length got | dispatching peer request | closing peer | exited =>
      contradiction

theorem run_keeps {running : Bool} (taken : listener.run running = some after) :
    after.Valid ∧ (running = false → after.Finishes responds) := by
  cases listener with
  | looping =>
      cases taken
      cases running <;> exact ⟨True.intro, fun _ => True.intro⟩
  | checking peer =>
      cases taken
      cases running with
      | false => exact ⟨True.intro, fun _ => True.intro⟩
      | true => exact ⟨Nat.zero_lt_succ 3, nofun⟩
  | closing peer =>
      cases taken
      exact ⟨True.intro, fun _ => True.intro⟩
  | accepting | readingLength peer got | readingBody peer length got
  | dispatching peer request | sending peer left | exited => contradiction

/-- A thread that can finish is not blocked. -/
theorem Finishes.not_blocked (finishes : listener.Finishes responds) (valid : listener.Valid) :
    ¬ listener.Blocked := by
  cases listener with
  | readingLength peer got =>
      rintro ⟨nothing, still⟩
      have short : (got ++ peer.incoming).length < 4 := by
        rw [nothing, List.append_nil]
        exact valid
      rw [Finishes, RequestFinishes, if_pos short, still] at finishes
      contradiction
  | readingBody peer length got =>
      rintro ⟨nothing, still⟩
      have short : (got ++ peer.incoming).length < length := by
        rw [nothing, List.append_nil]
        exact valid
      rw [Finishes, BodyFinishes, if_pos short, still] at finishes
      contradiction
  | sending peer left =>
      exact Peer.Takes.not_stalled finishes (Begins.length_pos valid)
  | looping | accepting | checking peer | dispatching peer request | closing peer | exited =>
      exact id

end Listener

namespace ControlServer

open Listener TransitionSystem.System

variable {responds : List UInt8 → List UInt8 → Bool} {self next : ControlServer} {peer : Peer}

/-- What holds after a step: there is something left to read or to send, and a thread that
can finish still can when `stop` has cleared the flag. -/
structure Continues (responds : List UInt8 → List UInt8 → Bool)
    (before after : ControlServer) : Prop where
  running : after.running = before.running
  valid : before.listener.Valid → after.listener.Valid
  finishes : before.listener.Valid → before.running = false →
    before.listener.Finishes responds → after.listener.Finishes responds

theorem step_continues {action : ControlAction} (taken : self.step responds action = some next) :
    Continues responds self next := by
  cases action with
  | run =>
      rcases Option.map_eq_some_iff.mp taken with ⟨listener, ran, rfl⟩
      have keeps := @run_keeps responds _ _ _ ran
      exact ⟨rfl, fun _ => keeps.1, fun _ stopped _ => keeps.2 stopped⟩
  | connect room =>
      rw [step] at taken
      split at taken
      next =>
        split at taken
        next =>
          cases taken
          exact ⟨rfl, fun _ => True.intro, fun _ _ _ => True.intro⟩
        next => contradiction
      next => contradiction
  | acceptFails =>
      rw [step] at taken
      split at taken
      next =>
        cases taken
        exact ⟨rfl, fun _ => True.intro, fun _ _ _ => True.intro⟩
      next => contradiction
  | read more =>
      rcases Option.map_eq_some_iff.mp taken with ⟨listener, got, rfl⟩
      exact ⟨rfl, fun valid => (@read_keeps responds _ _ _ valid got).1,
        fun valid _ => (read_keeps valid got).2⟩
  | respond response =>
      rw [step] at taken
      split at taken
      next peer request place =>
        split at taken
        next known =>
          cases taken
          refine ⟨rfl, fun _ => valid_sendMsg peer response, fun _ _ finishes =>
            finishes_sendMsg ?_⟩
          rw [place] at finishes
          exact finishes response known
        next => contradiction
      next => contradiction
  | send more =>
      rcases Option.map_eq_some_iff.mp taken with ⟨listener, sent, rfl⟩
      exact ⟨rfl, fun _ => (@send_keeps responds _ _ _ sent).1, fun _ _ => (send_keeps sent).2⟩
  | peer action =>
      rcases Option.map_eq_some_iff.mp taken with ⟨listener, acted, rfl⟩
      exact ⟨rfl, (@act_keeps responds _ _ _ acted).1, fun _ _ => (act_keeps acted).2⟩

/-! ### When the thread cannot go on -/

/-- The thread comes to wait for its client, if the client does nothing more. -/
def ComesToBlock (responds : List UInt8 → List UInt8 → Bool) (self : ControlServer) : Prop :=
  ∃ last, (system responds).Path (fun _ action => action.Own) self last ∧ last.listener.Blocked

theorem ComesToBlock.step {next : ControlServer} {action : ControlAction}
    (taken : self.step responds action = some next) (own : action.Own)
    (blocks : ComesToBlock responds next) : ComesToBlock responds self := by
  rcases blocks with ⟨last, path, blocked⟩
  have first : (system responds).Path (fun _ action => action.Own) self next :=
    .single own taken
  exact ⟨last, first.trans path, blocked⟩

/-- It runs out of room in the middle of a response. -/
theorem blocks_sending {left : List (List UInt8)} (place : self.listener = .sending peer left)
    (begins : Begins left) (present : peer.gone = false)
    (short : peer.room < left.flatten.length) : ComesToBlock responds self := by
  have blocks : ComesToBlock responds { self with listener := .sending peer left } := by
    apply @runs_out (fun peer left =>
      ComesToBlock responds { self with listener := .sending peer left }) _ _ _ _ present begins
        short
    · exact fun peer left stalled => ⟨_, .refl _, stalled⟩
    · intro peer first rest later present room begins blocks
      have taken : ControlServer.step responds
          { self with listener := .sending peer ((first :: rest) :: later) } (.send 0) =
            some { self with
              listener := .resume { peer with room := peer.room - 1 } (rest :: later) } := by
        rw [ControlServer.step, Listener.send, Peer.send_one present room]
        rfl
      apply ComesToBlock.step taken True.intro
      rwa [resume_sending begins]
  rwa [← place] at blocks

theorem blocks_answer {request : List UInt8} (place : self.listener = .dispatching peer request)
    (unanswerable : ¬ Answerable responds peer request) : ComesToBlock responds self := by
  rw [Answerable] at unanswerable
  push Not at unanswerable
  rcases unanswerable with ⟨response, known, full⟩
  rw [Peer.Takes, not_or] at full
  have length := length_sendMsg response
  have begins := unsent_begins_of_pos (Nat.lt_of_lt_of_eq (by omega) length.symm)
  have taken : self.step responds (.respond response) =
      some { self with listener := .sendMsg peer response } := by
    rw [ControlServer.step, place]
    exact if_pos known
  apply ComesToBlock.step taken True.intro
  apply blocks_sending (resume_sending begins) begins (Bool.eq_false_iff.mpr full.1)
  rw [flatten_unsent, length]
  omega

theorem blocks_body {length : Nat} {got : List UInt8}
    (place : self.listener = .readingBody peer length got) (valid : got.length < length)
    (unfinished : ¬ BodyFinishes responds peer length (got ++ peer.incoming)) :
    ComesToBlock responds self := by
  rw [BodyFinishes] at unfinished
  split at unfinished
  next short =>
    have still : peer.ended = false := Bool.eq_false_iff.mpr unfinished
    by_cases nothing : peer.incoming = []
    · refine ⟨self, .refl self, ?_⟩
      rw [place]
      exact ⟨nothing, still⟩
    · rw [List.length_append] at short
      have whole : (got ++ peer.incoming).length < length := by
        rwa [List.length_append]
      have taken : self.step responds (.read peer.incoming.length) = some { self with
          listener := .readingBody { peer with incoming := [] } length
            (got ++ peer.incoming) } := by
        rw [ControlServer.step, place, Listener.read, Peer.read_all nothing (by omega)]
        simp only [Option.map_some, if_neg nothing, receivedBody, if_pos whole]
      apply ComesToBlock.step taken True.intro
      exact ⟨_, .refl _, rfl, still⟩
  next arrived =>
    rw [List.length_append] at arrived
    have limit : 0 < length - got.length := Nat.sub_pos_of_lt valid
    have within : length - got.length ≤ peer.incoming.length := by omega
    have nonempty : peer.incoming.take (length - got.length) ≠ [] := by
      apply List.ne_nil_of_length_pos
      rw [List.length_take]
      omega
    have all : ¬ (got ++ peer.incoming.take (length - got.length)).length < length := by
      rw [List.length_append, List.length_take]
      omega
    have taken : self.step responds (.read (length - got.length)) = some { self with
        listener := .dispatching
          { peer with incoming := peer.incoming.drop (length - got.length) }
          (got ++ peer.incoming.take (length - got.length)) } := by
      rw [ControlServer.step, place, Listener.read, Peer.read_limit limit within]
      simp only [Option.map_some, if_neg nonempty, receivedBody, if_neg all]
    apply ComesToBlock.step taken True.intro
    apply blocks_answer rfl
    rw [List.take_append, List.take_of_length_le valid.le] at unfinished
    exact unfinished

theorem blocks_length {got : List UInt8} (place : self.listener = .readingLength peer got)
    (valid : got.length < 4)
    (unfinished : ¬ RequestFinishes responds peer (got ++ peer.incoming)) :
    ComesToBlock responds self := by
  rw [RequestFinishes] at unfinished
  split at unfinished
  next short =>
    have still : peer.ended = false := Bool.eq_false_iff.mpr unfinished
    by_cases nothing : peer.incoming = []
    · refine ⟨self, .refl self, ?_⟩
      rw [place]
      exact ⟨nothing, still⟩
    · rw [List.length_append] at short
      have whole : (got ++ peer.incoming).length < 4 := by
        rwa [List.length_append]
      have taken : self.step responds (.read peer.incoming.length) = some { self with
          listener := .readingLength { peer with incoming := [] } (got ++ peer.incoming) } := by
        rw [ControlServer.step, place, Listener.read, Peer.read_all nothing (by omega)]
        simp only [Option.map_some, if_neg nothing, receivedLength, if_pos whole]
      apply ComesToBlock.step taken True.intro
      exact ⟨_, .refl _, rfl, still⟩
  next arrived =>
    rw [List.length_append] at arrived
    have limit : 0 < 4 - got.length := Nat.sub_pos_of_lt valid
    have within : 4 - got.length ≤ peer.incoming.length := by omega
    have nonempty : peer.incoming.take (4 - got.length) ≠ [] := by
      apply List.ne_nil_of_length_pos
      rw [List.length_take]
      omega
    have all : ¬ (got ++ peer.incoming.take (4 - got.length)).length < 4 := by
      rw [List.length_append, List.length_take]
      omega
    have first : (got ++ peer.incoming).take 4 = got ++ peer.incoming.take (4 - got.length) := by
      rw [List.take_append, List.take_of_length_le valid.le]
    have rest : (got ++ peer.incoming).drop 4 = peer.incoming.drop (4 - got.length) := by
      rw [List.drop_append, List.drop_of_length_le valid.le, List.nil_append]
    rw [first, rest] at unfinished
    dsimp only at unfinished
    rw [← or_assoc, not_or] at unfinished
    have taken : self.step responds (.read (4 - got.length)) = some { self with
        listener := .readingBody
          { peer with incoming := peer.incoming.drop (4 - got.length) }
          (Codec.ofBytes (got ++ peer.incoming.take (4 - got.length))) [] } := by
      rw [ControlServer.step, place, Listener.read, Peer.read_limit limit within]
      simp only [Option.map_some, if_neg nonempty, receivedLength, if_neg all,
        if_neg unfinished.1]
    apply ComesToBlock.step taken True.intro
    apply blocks_body rfl
    · exact Nat.pos_of_ne_zero (not_or.mp unfinished.1).1
    · exact unfinished.2

/-- A thread that cannot finish comes to wait for its client. -/
theorem comesToBlock (valid : self.listener.Valid)
    (unfinished : ¬ self.listener.Finishes responds) : ComesToBlock responds self := by
  cases place : self.listener with
  | readingLength peer got =>
      rw [place] at valid unfinished
      exact blocks_length place valid unfinished
  | readingBody peer length got =>
      rw [place] at valid unfinished
      exact blocks_body place valid unfinished
  | dispatching peer request =>
      rw [place] at unfinished
      exact blocks_answer place unfinished
  | sending peer left =>
      rw [place] at unfinished
      rw [Finishes, Peer.Takes, not_or] at unfinished
      rw [place] at valid
      exact blocks_sending place valid (Bool.eq_false_iff.mpr unfinished.1)
        (Nat.not_le.mp unfinished.2)
  | looping | accepting | checking peer | closing peer | exited =>
      rw [place] at unfinished
      exact absurd True.intro unfinished

end ControlServer

end KhadasYolo.Ipc
