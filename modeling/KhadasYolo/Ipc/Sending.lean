import KhadasYolo.Ipc.DataPublisher
import KhadasYolo.Ipc.Publisher

/-!
# Sending a message

The sender thread and `sendFrame` send the same bytes. Whatever the calls of `send` of the
thread come to, `sendFrame` with these outcomes gets as far, and it returns when the thread
goes on.
-/

namespace KhadasYolo.Ipc

open ByteSink StreamSocket

universe u

variable {μ : Type u}

/-- A peer without an empty buffer to start with. -/
theorem writeAll_unsent (sink : Sink) (left : List (List UInt8)) :
    sink.writeAll (unsent left) = sink.writeAll left := by
  induction left with
  | nil => rfl
  | cons bytes left ih =>
      cases bytes with
      | nil => exact ih
      | cons first rest => rfl

namespace Sender

/-- A write with these outcomes has got as far as the thread, whatever comes later. -/
def Follows (write : Sink → Bool × Sink) (accepted : List UInt8) (script : List Outcome) :
    Sender μ → Prop
  | .sending conn left => ∀ later,
      write ⟨script ++ later, accepted⟩ = Sink.writeAll ⟨later, conn.accepted⟩ left
  | .checking conn => ∀ later,
      write ⟨script ++ later, accepted⟩ = (true, ⟨later, conn.accepted⟩)
  | .closing conn => ∀ later,
      write ⟨script ++ later, accepted⟩ = (false, ⟨later, conn.accepted⟩)
  | .looping | .accepting | .popping _ | .exited => False

variable {write : Sink → Bool × Sink} {accepted : List UInt8} {script : List Outcome}
  {sender next : Sender μ}

theorem Follows.resume {conn : Consumer μ} {left : List (List UInt8)}
    (follows : ∀ later,
      write ⟨script ++ later, accepted⟩ = Sink.writeAll ⟨later, conn.accepted⟩ left) :
    (resume conn left).Follows write accepted script := by
  rw [Sender.resume]
  split
  next nothing =>
    intro later
    rw [follows, ← writeAll_unsent, nothing]
    rfl
  next =>
    intro later
    rw [follows, writeAll_unsent]

/-- A peer does not touch what has been accepted. -/
theorem Follows.act (follows : sender.Follows write accepted script) {action : PeerAction}
    (taken : sender.act action = some next) : next.Follows write accepted script := by
  cases sender with
  | looping | accepting | popping conn | exited => contradiction
  | checking conn | sending conn left | closing conn =>
      cases taken
      exact follows

end Sender

namespace Publisher

variable {parts : μ → List (List UInt8)} {self next first last : Publisher μ}
  {write : Sink → Bool × Sink} {accepted : List UInt8} {script : List Outcome}

/-- A call of `send` of the thread is the next one of the write. -/
theorem follows_send {more : Nat} (follows : self.sender.Follows write accepted script)
    (valid : self.sender.Valid) (taken : self.send more = some next) :
    ∃ outcome, next.sender.Follows write accepted (script ++ [outcome]) := by
  rw [Publisher.send] at taken
  split at taken
  next conn bytes left place =>
    rw [place] at follows valid
    rcases valid with ⟨byte, rest, later, begins⟩
    cases begins
    split at taken
    next => contradiction
    next count peer sent =>
      cases taken
      rcases Peer.send_accepts sent with ⟨some, rfl⟩
      refine ⟨.accepts some, Sender.Follows.resume fun script => ?_⟩
      rw [List.append_assoc, follows, List.singleton_append, Sink.writeAll_accepts,
        List.take_eq_take_min, List.drop_eq_drop_min]
    next peer sent =>
      cases taken
      refine ⟨.fails, fun script => ?_⟩
      rw [List.append_assoc, follows, List.singleton_append, Sink.writeAll_fails]
  next => contradiction

/-- The thread goes on with its message until its next step outside of `send`. -/
theorem follows_step {action : PublisherAction μ} (sends : action ≠ .run)
    (follows : self.sender.Follows write accepted script) (valid : self.sender.Valid)
    (taken : self.step parts action = some next) :
    ∃ script, next.sender.Follows write accepted script := by
  cases action with
  | publish message =>
      cases taken
      exact ⟨script, follows⟩
  | run => contradiction
  | connect room =>
      rw [step, connect] at taken
      split at taken
      next place =>
        rw [place] at follows
        contradiction
      next => contradiction
  | acceptFails =>
      rw [step, acceptFails] at taken
      split at taken
      next place =>
        rw [place] at follows
        contradiction
      next => contradiction
  | send more =>
      rcases follows_send follows valid taken with ⟨outcome, still⟩
      exact ⟨_, still⟩
  | peer action =>
      rcases Option.map_eq_some_iff.mp taken with ⟨sender, acted, rfl⟩
      exact ⟨script, follows.act acted⟩

/-- `sendFrame` sends what the thread sends of a message that it has taken out of the
queue, and returns what leads the thread on. -/
theorem sendFrame_follows {F : Type u} [FloatBits F] {capacity : Nat}
    {first last : Publisher (DetectionMessage F)} {conn : Consumer (DetectionMessage F)}
    {message : DetectionMessage F}
    (begins : first.sender = .resume conn (detectionParts message))
    (path : (system detectionParts capacity).Path (fun _ action => action ≠ .run) first last) :
    ∃ script, last.sender.Follows (sendFrame · message) conn.accepted script := by
  have run : last.sender.Valid ∧
      ∃ script, last.sender.Follows (sendFrame · message) conn.accepted script := by
    apply path.preserves fun state => state.sender.Valid ∧
      ∃ script, state.sender.Follows (sendFrame · message) conn.accepted script
    · rintro before action after ⟨valid, script, follows⟩ sends taken
      exact ⟨valid_step valid taken, follows_step sends follows valid taken⟩
    · rw [begins]
      exact ⟨Sender.valid_resume _ _, [], Sender.Follows.resume fun _ => rfl⟩
  exact run.2

end Publisher

end KhadasYolo.Ipc
