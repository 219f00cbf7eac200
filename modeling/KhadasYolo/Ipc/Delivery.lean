import KhadasYolo.Ipc.DataPublisher
import KhadasYolo.Ipc.Publisher

/-!
# What the consumers receive

Every message that was published is queued, evicted, or taken by the sender thread, and a
message that it has taken belongs to one connection. What `send` has accepted on a
connection is the encoding of the messages sent on it, and of a part of the next one.
-/

namespace KhadasYolo.Ipc

open StreamSocket

universe u

variable {μ : Type u}

/-! ## One connection -/

section Connection

variable (parts : μ → List (List UInt8))

/-- The bytes of messages. -/
def encodings (messages : List (Published μ)) : List UInt8 :=
  messages.flatMap fun published => (parts published.message).flatten

theorem encodings_append (first second : List (Published μ)) :
    encodings parts (first ++ second) = encodings parts first ++ encodings parts second :=
  List.flatMap_append

/-- What has been accepted, and what is left of the message that has been begun. -/
structure Consumer.Written (conn : Consumer μ) (left : List UInt8) : Prop where
  accepted : ∃ tail, conn.accepted = encodings parts conn.sent ++ tail ∧
    tail ++ left = encodings parts conn.begun.toList
  unfinished : conn.begun.isSome = true → left ≠ []

/-- Nothing is begun, and all that was sent has been accepted. -/
def Consumer.Idle (conn : Consumer μ) : Prop :=
  conn.begun = none ∧ conn.accepted = encodings parts conn.sent

/-- The bytes of a connection at each place of the sender thread. -/
def Sender.Written : Sender μ → Prop
  | .looping | .accepting | .exited => True
  | .checking conn | .popping conn => conn.Idle parts
  | .sending conn left => conn.begun.isSome = true ∧ conn.Written parts left.flatten
  | .closing conn => ∃ left, conn.Written parts left

variable {parts} {conn : Consumer μ} {left : List (List UInt8)}

theorem Consumer.Idle.written (idle : conn.Idle parts) : conn.Written parts [] where
  accepted := by
    refine ⟨[], ?_, ?_⟩
    · rw [List.append_nil]
      exact idle.2
    · rw [idle.1]
      rfl
  unfinished some := by
    rw [idle.1] at some
    contradiction

@[simp] theorem Consumer.messages_finish (conn : Consumer μ) :
    conn.finish.messages = conn.messages :=
  List.append_nil _

/-- `sendFrame` goes on with what is left, and returns when nothing is. -/
theorem Sender.resume_written {tail : List UInt8} {published : Published μ}
    (begun : conn.begun = some published)
    (bytes : conn.accepted = encodings parts conn.sent ++ tail)
    (whole : tail ++ left.flatten = (parts published.message).flatten) :
    (Sender.resume conn left).Written parts := by
  have encoding : encodings parts conn.begun.toList = (parts published.message).flatten := by
    simp [begun, encodings]
  rw [← flatten_unsent, ← encoding] at whole
  rw [Sender.resume]
  split
  next nothing =>
    rw [nothing, List.flatten_nil, List.append_nil] at whole
    refine ⟨rfl, ?_⟩
    change conn.accepted = encodings parts (conn.sent ++ conn.begun.toList)
    rw [bytes, whole, encodings_append]
  next some =>
    have begins := (unsent_begins left).resolve_left some
    refine ⟨by rw [begun]; rfl, ⟨tail, bytes, whole⟩, fun _ nothing => ?_⟩
    exact List.ne_nil_of_length_pos begins.length_pos nothing

/-- The connection stays the same one, with the same messages. -/
theorem Sender.resume_messages (conn : Consumer μ) (left : List (List UInt8)) :
    ((Sender.resume conn left).consumer.toList.flatMap Consumer.messages) = conn.messages := by
  rw [Sender.resume]
  split
  next => simp [Sender.consumer]
  next => simp [Sender.consumer]

/-- A peer does not touch the messages and what has been accepted. -/
theorem Sender.act_keeps {before after : Sender μ} {action : PeerAction}
    (taken : before.act action = some after) :
    after.consumer.toList.flatMap Consumer.messages =
        before.consumer.toList.flatMap Consumer.messages ∧
      (before.Written parts → after.Written parts) := by
  cases before with
  | looping | accepting | exited => contradiction
  | checking conn | popping conn =>
      cases taken
      exact ⟨rfl, id⟩
  | sending conn left =>
      cases taken
      exact ⟨rfl, fun ⟨begun, bytes, unfinished⟩ => ⟨begun, bytes, unfinished⟩⟩
  | closing conn =>
      cases taken
      exact ⟨rfl, fun ⟨left, bytes, unfinished⟩ => ⟨left, bytes, unfinished⟩⟩

end Connection

/-! ## The whole publisher -/

namespace Publisher

variable {parts : μ → List (List UInt8)} {self next : Publisher μ}

/-- The messages that the sender thread has taken, and then those in the queue. -/
def kept (self : Publisher μ) : List (Published μ) :=
  self.consumers.flatMap Consumer.messages ++ self.queue.items

/-- A `publish` that returned false has put a message out of the queue. -/
def Evicted (self : Publisher μ) (published : Published μ) : Prop :=
  ∃ call ∈ self.calls, call.returned = false ∧ published ∈ call.before ∧
    published ∉ call.after

/-- What holds until `stop` is called. -/
structure Valid (parts : μ → List (List UInt8)) (state : Publisher μ) : Prop where
  isOpen : state.queue.closed = false
  oldest : state.queue.policy = .dropOldest
  sender : state.sender.Written parts
  dropped : ∀ conn ∈ state.dropped, ∃ left, conn.Written parts left
  numbered : state.calls.map (fun call => call.published.number) =
    List.range state.calls.length
  ordered : state.kept.Sublist (state.calls.map PublishCall.published)
  accounted : ∀ call ∈ state.calls, call.published ∈ state.kept ∨ state.Evicted call.published

/-- A step of the sender thread or of a peer leaves every message where it is or moves the
first one of the queue to the end of those that were taken. -/
structure Keeps (before after : Publisher μ) : Prop where
  calls : after.calls = before.calls
  kept : after.kept = before.kept
  closed : after.queue.closed = before.queue.closed
  policy : after.queue.policy = before.queue.policy

theorem Valid.keeps (valid : self.Valid parts) (keeps : Keeps self next)
    (sender : next.sender.Written parts)
    (dropped : ∀ conn ∈ next.dropped, ∃ left, conn.Written parts left) : next.Valid parts where
  isOpen := keeps.closed.trans valid.isOpen
  oldest := keeps.policy.trans valid.oldest
  sender := sender
  dropped := dropped
  numbered := by
    rw [keeps.calls]
    exact valid.numbered
  ordered := by
    rw [keeps.calls, keeps.kept]
    exact valid.ordered
  accounted := by
    intro call member
    rw [keeps.calls] at member
    rw [keeps.kept]
    apply (valid.accounted call member).imp_right
    rintro ⟨push, pushed, evicted⟩
    rw [← keeps.calls] at pushed
    exact ⟨push, pushed, evicted⟩

/-- A step that only moves the sender thread, with its connection. -/
theorem Keeps.sender {sender : Sender μ}
    (same : sender.consumer.toList.flatMap Consumer.messages =
      self.sender.consumer.toList.flatMap Consumer.messages) :
    Keeps self { self with sender := sender } where
  calls := rfl
  kept := by
    simp only [Publisher.kept, consumers, List.flatMap_append, same]
  closed := rfl
  policy := rfl

/-! ### The sender thread and the peers -/

/-- A step that only moves the sender thread keeps what holds. -/
theorem Valid.move (valid : self.Valid parts) {sender : Sender μ}
    (same : sender.consumer.toList.flatMap Consumer.messages =
      self.sender.consumer.toList.flatMap Consumer.messages)
    (written : sender.Written parts) : ({ self with sender := sender } : Publisher μ).Valid parts :=
  valid.keeps (.sender same) written valid.dropped

theorem Valid.pop (valid : self.Valid parts) {conn : Consumer μ} {published : Published μ}
    {rest : List (Published μ)} (place : self.sender = .popping conn)
    (items : self.queue.items = published :: rest) :
    ({ self with
      queue := { self.queue with items := rest }
      sender := .resume { conn with begun := some published } (parts published.message) } :
      Publisher μ).Valid parts := by
  have idle := valid.sender
  rw [place] at idle
  apply valid.keeps
  · constructor
    · rfl
    · have before : self.sender.consumer.toList.flatMap Consumer.messages = conn.sent := by
        rw [place]
        simp [Sender.consumer, Consumer.messages, idle.1]
      rw [kept, kept, consumers, consumers, List.flatMap_append, List.flatMap_append, before,
        items]
      change _ ++ (Sender.resume _ _).consumer.toList.flatMap _ ++ rest = _
      rw [Sender.resume_messages]
      simp [Consumer.messages]
    · rfl
    · rfl
  · apply Sender.resume_written rfl
    · exact idle.2.trans (List.append_nil _).symm
    · exact List.nil_append _
  · exact valid.dropped

/-- A step of the sender thread. -/
theorem Valid.run (valid : self.Valid parts) (taken : self.run parts = some next) :
    next.Valid parts := by
  have written := valid.sender
  rw [Publisher.run] at taken
  split at taken
  next place =>
    cases taken
    apply valid.move
    · rw [place]
      split <;> rfl
    · split <;> exact True.intro
  next conn place =>
    cases taken
    rw [place] at written
    apply valid.move
    · rw [place]
      split <;> rfl
    · split
      next => exact written
      next => exact ⟨[], Consumer.Idle.written written⟩
  next conn place =>
    cases items : self.queue.items with
    | nil =>
        rw [BoundedQueue.pop_empty items] at taken
        cases taken
        rw [place] at written
        apply valid.move
        · rw [place]
          rfl
        · exact written
    | cons published rest =>
        rw [BoundedQueue.pop_first items] at taken
        cases taken
        exact valid.pop place items
  next conn place =>
    cases taken
    rw [place] at written
    apply valid.keeps
    · constructor
      · rfl
      · simp [kept, consumers, place, Sender.consumer]
      · rfl
      · rfl
    · exact True.intro
    · rw [List.forall_mem_append, List.forall_mem_singleton]
      exact ⟨valid.dropped, written⟩
  all_goals contradiction

theorem Valid.send (valid : self.Valid parts) {more : Nat}
    (taken : self.send more = some next) : next.Valid parts := by
  have written := valid.sender
  rw [Publisher.send] at taken
  split at taken
  next conn bytes left place =>
    rw [place] at written
    rcases written with ⟨some, ⟨tail, accepted, whole⟩, unfinished⟩
    rcases Option.isSome_iff_exists.mp some with ⟨published, begun⟩
    have encoding : encodings parts conn.begun.toList = (parts published.message).flatten := by
      simp [begun, encodings]
    rw [encoding] at whole
    split at taken
    next => contradiction
    next count peer sent =>
      cases taken
      apply valid.move
      · rw [Sender.resume_messages, place]
        simp [Sender.consumer, Consumer.messages]
      · apply @Sender.resume_written _ _ { conn with
          peer := peer, accepted := conn.accepted ++ bytes.take count } _
          (tail ++ bytes.take count) _ begun
        · change conn.accepted ++ bytes.take count = _
          rw [accepted, List.append_assoc]
        · rw [List.append_assoc, List.flatten_cons, ← List.append_assoc (bytes.take count),
            List.take_append_drop, ← List.flatten_cons, whole]
    next peer sent =>
      cases taken
      apply valid.move
      · rw [place]
        simp [Sender.consumer, Consumer.messages]
      · exact ⟨_, ⟨tail, accepted, whole.trans encoding.symm⟩, unfinished⟩
  next => contradiction

/-! ### Every step -/

theorem Valid.distinct (valid : self.Valid parts) :
    (self.calls.map PublishCall.published).Nodup := by
  apply List.Nodup.of_map Published.number
  rw [List.map_map]
  have numbers := valid.numbered
  change self.calls.map (Published.number ∘ PublishCall.published) = _ at numbers
  rw [numbers]
  exact List.nodup_range

theorem Valid.number_lt (valid : self.Valid parts) {published : Published μ}
    (member : published ∈ self.calls.map PublishCall.published) :
    published.number < self.calls.length := by
  rcases List.mem_map.mp member with ⟨call, inCalls, rfl⟩
  have number : call.published.number ∈ self.calls.map fun call => call.published.number :=
    List.mem_map_of_mem inCalls
  rw [valid.numbered] at number
  exact List.mem_range.mp number

/-- A `publish` that puts some of the queue out, and its message in. -/
theorem Valid.push (valid : self.Valid parts) {message : μ} {returned : Bool}
    {queue : BoundedQueue (Published μ)} {left : List (Published μ)}
    (pushed : self.queue.push ⟨self.calls.length, message⟩ = (returned, queue))
    (items : queue.items = left ++ [⟨self.calls.length, message⟩])
    (flags : queue.closed = self.queue.closed ∧ queue.policy = self.queue.policy)
    (sublist : left.Sublist self.queue.items)
    (gone : ∀ published ∈ self.queue.items, published ∉ left → returned = false) :
    (self.publish message).Valid parts := by
  have next : self.publish message = { self with
      queue := queue
      calls := self.calls ++
        [⟨⟨self.calls.length, message⟩, self.queue.items, queue.items, returned⟩] } := by
    rw [Publisher.publish, pushed]
  rw [next]
  have keeps : (self.consumers.flatMap Consumer.messages ++ left).Sublist self.kept :=
    sublist.append_left _
  constructor
  · exact flags.1.trans valid.isOpen
  · exact flags.2.trans valid.oldest
  · exact valid.sender
  · exact valid.dropped
  · rw [List.map_append, valid.numbered, List.length_append, List.length_singleton,
      List.range_succ]
    rfl
  · rw [kept, items, ← List.append_assoc, List.map_append]
    exact (keeps.trans valid.ordered).append (.refl _)
  · rw [List.forall_mem_append, List.forall_mem_singleton]
    constructor
    · intro call member
      rcases valid.accounted call member with held | ⟨push, inCalls, evicted⟩
      · by_cases stays : call.published ∈ self.consumers.flatMap Consumer.messages ++ left
        · apply Or.inl
          rw [kept, items, ← List.append_assoc]
          exact List.mem_append_left _ stays
        · -- It was in the queue, and this call has put it out.
          rw [List.mem_append, not_or] at stays
          have queued : call.published ∈ self.queue.items :=
            (List.mem_append.mp held).resolve_left stays.1
          refine .inr ⟨_, List.mem_append_right _ (List.mem_singleton_self _),
            gone _ queued stays.2, queued, ?_⟩
          change call.published ∉ queue.items
          rw [items, List.mem_append, List.mem_singleton]
          rintro (later | same)
          · exact stays.2 later
          · have below := valid.number_lt (List.mem_map_of_mem member)
            rw [same] at below
            exact Nat.lt_irrefl _ below
      · exact .inr ⟨push, List.mem_append_left _ inCalls, evicted⟩
    · apply Or.inl
      rw [kept, items]
      simp

theorem Valid.publish (valid : self.Valid parts) (message : μ) :
    (self.publish message).Valid parts := by
  rcases BoundedQueue.push_open valid.isOpen valid.oldest ⟨self.calls.length, message⟩ with
    pushed | pushed
  · apply valid.push pushed rfl ⟨rfl, rfl⟩ (List.Sublist.refl _)
    exact fun _ queued absent => absurd queued absent
  · exact valid.push pushed rfl ⟨rfl, rfl⟩ (List.tail_sublist _) fun _ _ _ => rfl

theorem Valid.start (capacity : Nat) : (start capacity : Publisher μ).Valid parts where
  isOpen := rfl
  oldest := rfl
  sender := True.intro
  dropped := nofun
  numbered := rfl
  ordered := .refl _
  accounted := nofun

theorem Valid.step (valid : self.Valid parts) {action : PublisherAction μ}
    (taken : self.step parts action = some next) : next.Valid parts := by
  cases action with
  | publish message =>
      cases taken
      exact valid.publish message
  | run => exact valid.run taken
  | connect room =>
      rw [Publisher.step, connect] at taken
      split at taken
      next place =>
        split at taken
        next =>
          cases taken
          apply valid.move
          · rw [place]
            rfl
          · exact ⟨rfl, rfl⟩
        next => contradiction
      next => contradiction
  | acceptFails =>
      rw [Publisher.step, Publisher.acceptFails] at taken
      split at taken
      next place =>
        cases taken
        apply valid.move
        · rw [place]
          rfl
        · exact True.intro
      next => contradiction
  | send more => exact valid.send taken
  | peer action =>
      rcases Option.map_eq_some_iff.mp taken with ⟨sender, acted, rfl⟩
      have keeps := @Sender.act_keeps _ parts _ _ _ acted
      exact valid.move keeps.1 (keeps.2 valid.sender)

theorem reachable_valid {capacity : Nat} {state : Publisher μ}
    (reach : (system parts capacity).Reachable state) : state.Valid parts :=
  reach.invariant _ (Valid.start capacity) fun _ _ _ _ valid _ taken => valid.step taken

/-! ## Delivery -/

/-- What a publisher has delivered. -/
structure Delivered (parts : μ → List (List UInt8)) (state : Publisher μ) : Prop where
  /-- A connection has accepted whole messages and a proper part of one. -/
  framed : ∀ conn ∈ state.consumers, ∃ tail, conn.accepted = encodings parts conn.sent ++ tail ∧
    (tail = [] ∨ ∃ begun ∈ conn.begun, tail <+: (parts begun.message).flatten ∧
      tail ≠ (parts begun.message).flatten)
  numbered : state.calls.map (fun call => call.published.number) =
    List.range state.calls.length
  ordered : (state.consumers.flatMap Consumer.sent).Sublist
    (state.calls.map PublishCall.published)
  apart : state.consumers.Pairwise fun first second =>
    List.Disjoint first.messages second.messages
  accounted : ∀ call ∈ state.calls,
    call.published ∈ state.consumers.flatMap Consumer.sent ∨
    call.published ∈ state.queue.items ∨
    state.beingSent = some call.published ∨
    state.Evicted call.published ∨
    ∃ conn ∈ state.lost, conn.begun = some call.published

theorem Valid.written (valid : self.Valid parts) {conn : Consumer μ}
    (member : conn ∈ self.consumers) : ∃ left, conn.Written parts left := by
  rcases List.mem_append.mp member with dropped | current
  · exact valid.dropped conn dropped
  · have written := valid.sender
    cases place : self.sender with
    | looping | accepting | exited =>
        rw [place] at current
        contradiction
    | checking other | popping other =>
        rw [place] at current written
        cases List.mem_singleton.mp current
        exact ⟨[], Consumer.Idle.written written⟩
    | sending other left =>
        rw [place] at current written
        cases List.mem_singleton.mp current
        exact ⟨_, written.2⟩
    | closing other =>
        rw [place] at current written
        cases List.mem_singleton.mp current
        exact written

/-- A message that a connection has begun is being sent, or its `send` has failed. -/
theorem Valid.begun (valid : self.Valid parts) {conn : Consumer μ}
    (member : conn ∈ self.consumers) {published : Published μ}
    (begun : conn.begun = some published) :
    self.beingSent = some published ∨ ∃ other ∈ self.lost, other.begun = some published := by
  rcases List.mem_append.mp member with dropped | current
  · refine .inr ⟨conn, ?_, begun⟩
    rw [lost]
    split
    next => exact List.mem_append_left _ dropped
    next => exact dropped
  · have written := valid.sender
    cases place : self.sender with
    | looping | accepting | exited =>
        rw [place] at current
        contradiction
    | checking other | popping other =>
        rw [place] at current written
        cases List.mem_singleton.mp current
        rw [written.1] at begun
        contradiction
    | sending other left =>
        rw [place] at current
        cases List.mem_singleton.mp current
        apply Or.inl
        rw [beingSent, place]
        exact begun
    | closing other =>
        rw [place] at current
        cases List.mem_singleton.mp current
        refine .inr ⟨conn, ?_, begun⟩
        rw [lost, place]
        exact List.mem_append_right _ (List.mem_singleton_self conn)

theorem Valid.delivered (valid : self.Valid parts) : self.Delivered parts where
  framed := by
    intro conn member
    rcases valid.written member with ⟨left, ⟨tail, accepted, whole⟩, unfinished⟩
    refine ⟨tail, accepted, ?_⟩
    cases begun : conn.begun with
    | none =>
        rw [begun] at whole
        exact .inl (List.append_eq_nil_iff.mp whole).1
    | some published =>
        have encoding : encodings parts [published] = (parts published.message).flatten := by
          simp [encodings]
        rw [begun, Option.toList_some, encoding] at whole
        refine .inr ⟨published, rfl, ⟨left, whole⟩, fun same => ?_⟩
        rw [← whole] at same
        rw [begun] at unfinished
        exact unfinished rfl (List.self_eq_append_right.mp same)
  numbered := valid.numbered
  ordered := by
    have sent : (self.consumers.flatMap Consumer.sent).Sublist
        (self.consumers.flatMap Consumer.messages) :=
      List.Sublist.flatMap_right _ fun _ _ => List.sublist_append_left _ _
    exact (sent.trans (List.sublist_append_left _ _)).trans valid.ordered
  apart := by
    have distinct := (valid.ordered.nodup valid.distinct).of_append_left
    exact (List.nodup_flatMap.mp distinct).2
  accounted := by
    intro call member
    rcases valid.accounted call member with held | evicted
    · rcases List.mem_append.mp held with taken | queued
      · rcases List.mem_flatMap.mp taken with ⟨conn, inConsumers, message⟩
        rcases List.mem_append.mp message with sent | begun
        · exact .inl (List.mem_flatMap.mpr ⟨conn, inConsumers, sent⟩)
        · have this := valid.begun inConsumers (Option.mem_toList.mp begun)
          exact .inr (.inr (this.imp_right .inr))
      · exact .inr (.inl queued)
    · exact .inr (.inr (.inr (.inl evicted)))

/-- The messages are delivered in order, each on one connection. -/
theorem delivery {F : Type u} [FloatBits F] {capacity : Nat}
    {state : Publisher (DetectionMessage F)}
    (reach : (system detectionParts capacity).Reachable state) :
    state.Delivered detectionParts :=
  (reachable_valid reach).delivered

namespace Example

theorem still_count : 0 ≤ 64 := Nat.zero_le 64

/-- A message without detections. -/
def still : DetectionMessage Float32 where
  frameId := 7
  timestampUs := 1000
  group :=
    { count := 0
      results := .replicate 64 ⟨.replicate 16 0, ⟨0, 0, 0, 0⟩, 0⟩
      count_le := still_count }

/-- A consumer leaves in the middle of the second message, while a queue of two is full. -/
def leaving : List (PublisherAction (DetectionMessage Float32)) :=
  [.publish still, .publish still, .publish still, .run, .connect 40, .run, .run, .send 3,
    .send 23, .run, .run, .send 3, .publish still, .peer .leaves, .send 0, .run]

end Example

theorem delivery_leaving : ∃ state : Publisher (DetectionMessage Float32),
    state.Delivered detectionParts ∧
      (state.calls.map PublishCall.returned = [true, true, false, true] ∧
        state.dropped.map (fun conn => conn.sent.map Published.number) = [[1]] ∧
        state.dropped.map (fun conn => conn.begun.map Published.number) = [some 2] ∧
        state.dropped.map (fun conn => conn.accepted.length) = [32]) := by
  rcases TransitionSystem.System.reaches_of_replay (system detectionParts 2)
    TransitionSystem.System.unrestricted Example.leaving
    (fun state => decide (state.calls.map PublishCall.returned = [true, true, false, true] ∧
      state.dropped.map (fun conn => conn.sent.map Published.number) = [[1]] ∧
      state.dropped.map (fun conn => conn.begun.map Published.number) = [some 2] ∧
      state.dropped.map (fun conn => conn.accepted.length) = [32])) (by decide +kernel) with
    ⟨state, reach, passes⟩
  exact ⟨state, delivery reach, of_decide_eq_true passes⟩

end Publisher

end KhadasYolo.Ipc
