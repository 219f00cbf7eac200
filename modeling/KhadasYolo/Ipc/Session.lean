import KhadasYolo.Ipc.Commands
import KhadasYolo.Lib.ByteSink
import KhadasYolo.Lib.ByteStream
import KhadasYolo.Lib.Codec

/-!
# A control session

`handleConnection` from the first request of a client to the end of its connection.
Requests and responses have their length before them. An empty string stands for every
reason to end the session: the end of the stream, a message that is cut off, and a length
that is zero or too large.
-/

namespace KhadasYolo.Ipc

open ByteSink ByteStream Pipeline

/-- `recvMsg`, of the server and of its client. -/
def recvMsg (stream : List Arrival) : List UInt8 × List Arrival :=
  match readExact 4 stream with
  | (none, later) => ([], later)
  | (some bytes, later) =>
      let len := (Codec.uint32.decode bytes).toNat
      if len = 0 ∨ 2 ^ 20 < len then ([], later)
      else
        match readExact len later with
        | (none, last) => ([], last)
        | (some body, last) => (body, last)

/-- `sendMsg`, of the server and of its client. -/
def sendMsg (sink : Sink) (msg : List UInt8) : Bool × Sink :=
  sink.writeAll [Codec.uint32.encode (UInt32.ofNat msg.length), msg]

/-- What one round of the loop finds. -/
structure Turn where
  /-- `running_` at the test of the loop -/
  running : Bool
  /-- what the other threads have done since the last dispatch -/
  others : YoloControlState → YoloControlState
  around : Surroundings

/-- What the handling of a connection leaves: the requests that were dispatched with what
`dispatchCommand` returned, the flags, and what was sent. -/
structure Handled where
  exchanges : List (List UInt8 × List UInt8)
  flags : YoloControlState
  sink : Sink

/-- The loop of `handleConnection`. -/
def handleRounds : Nat → (Nat → Turn) → YoloControlState → List Arrival → Sink → Handled
  | 0, _, flags, _, sink => ⟨[], flags, sink⟩
  | rounds + 1, turns, flags, stream, sink =>
      if (turns 0).running then
        let (req, later) := recvMsg stream
        if req = [] then ⟨[], flags, sink⟩
        else
          let (resp, now) := dispatchCommand (turns 0).around ((turns 0).others flags) req
          match sendMsg sink resp with
          | (false, next) => ⟨[(req, resp)], now, next⟩
          | (true, next) =>
              let after := handleRounds rounds (fun n => turns (n + 1)) now later next
              ⟨(req, resp) :: after.exchanges, after.flags, after.sink⟩
      else ⟨[], flags, sink⟩

def handleConnection (turns : Nat → Turn) (flags : YoloControlState) (stream : List Arrival)
    (sink : Sink) : Handled :=
  handleRounds (weight stream + 1) turns flags stream sink

/-- A message with its length. -/
def message (body : List UInt8) : List UInt8 :=
  Codec.uint32.encode (UInt32.ofNat body.length) ++ body

/-- A body that `recvMsg` accepts. -/
def Sized (body : List UInt8) : Prop := 1 ≤ body.length ∧ body.length ≤ 2 ^ 20

/-- The stream ends in front of a message or inside of it, or the length is zero or too
large, whatever follows it. -/
def Broken (tail : List UInt8) : Prop :=
  tail.length < 4 ∨
    (let len := (Codec.uint32.decode (tail.take 4)).toNat
     len = 0 ∨ 2 ^ 20 < len ∨ tail.length < 4 + len)

/-- The requests with the strings that `dispatchCommand` returns for them, one after the
other. -/
def dispatches (turns : Nat → Turn) (flags : YoloControlState) :
    List (List UInt8) → List (List UInt8 × List UInt8)
  | [] => []
  | req :: rest =>
      let (resp, now) := dispatchCommand (turns 0).around ((turns 0).others flags) req
      (req, resp) :: dispatches (fun n => turns (n + 1)) now rest

/-- Several calls of `recvMsg`. -/
def receive : Nat → List Arrival → List (List UInt8) × List Arrival
  | 0, stream => ([], stream)
  | calls + 1, stream =>
      let (msg, later) := recvMsg stream
      let (more, last) := receive calls later
      (msg :: more, last)

/-! ## One message -/

section Message

variable {stream later : List Arrival} {body more tail : List UInt8}

theorem toNat_length (sized : Sized body) :
    (UInt32.ofNat body.length).toNat = body.length := by
  have high := sized.2
  exact UInt32.toNat_ofNat_of_lt' (lt_of_le_of_lt high (by decide))

/-- A message is read whole, however it is cut into chunks. -/
theorem recvMsg_message (sized : Sized body) (shows : Shows stream (message body ++ more) later) :
    ∃ rest, recvMsg stream = (body, rest) ∧ Shows rest more later := by
  rw [message, List.append_assoc] at shows
  rcases readExact_append (Codec.uint32.length_encode _) shows with ⟨next, head, after⟩
  rcases readExact_append rfl after with ⟨rest, whole, behind⟩
  have four : Codec.uint32.size = 4 := rfl
  have accepted : ¬ (body.length = 0 ∨ 2 ^ 20 < body.length) := by
    have low := sized.1
    have high := sized.2
    omega
  refine ⟨rest, ?_, behind⟩
  rw [recvMsg, ← four, head]
  dsimp only
  rw [Codec.uint32.decode_encode, toNat_length sized, if_neg accepted, whole]

/-- A message that is broken is not read. -/
theorem recvMsg_broken (broken : Broken tail) (shows : Shows stream tail later) :
    (recvMsg stream).1 = [] := by
  rw [recvMsg]
  by_cases short : tail.length < 4
  · rw [readExact_short shows short]
  · rcases readExact_take shows (Nat.not_lt.mp short) with ⟨next, head, after⟩
    rw [head]
    dsimp only
    split
    next => rfl
    next accepted =>
      have cut : (tail.drop 4).length < (Codec.uint32.decode (tail.take 4)).toNat := by
        rcases broken with early | zero | large | missing
        · contradiction
        · exact absurd (.inl zero) accepted
        · exact absurd (.inr large) accepted
        · rw [List.length_drop]
          omega
      rw [readExact_short after cut]

/-- A message that is read takes bytes from the stream. -/
theorem recvMsg_progress (some : (recvMsg stream).1 ≠ []) :
    weight (recvMsg stream).2 < weight stream := by
  rw [recvMsg] at some ⊢
  have head := readExact_effect 4 stream
  generalize readExact 4 stream = outcome at head some
  cases head with
  | broken => exact absurd rfl some
  | done bytes rest next length before after =>
      dsimp only at some ⊢
      split at some
      next => exact absurd rfl some
      next accepted =>
        rw [if_neg accepted]
        have first : weight stream = 4 + weight next := by
          rw [weight_eq, before, List.length_append, length, after.weight, Nat.add_assoc]
        generalize (Codec.uint32.decode bytes).toNat = len at some
        have whole := readExact_effect len next
        generalize readExact len next = outcome at whole some
        cases whole with
        | broken => exact absurd rfl some
        | done body more last length before after =>
            have second : weight next = len + weight last := by
              rw [weight_eq, before, List.length_append, length, after.weight, Nat.add_assoc]
            dsimp only
            omega

end Message

/-! ## The loop -/

section Loop

variable {turns : Nat → Turn} {flags : YoloControlState} {stream later : List Arrival}
  {sink : Sink} {tail : List UInt8}

/-- The rounds of the loop are as many as it needs. -/
theorem handleRounds_enough {first second : Nat} (enough : weight stream < first)
    (also : weight stream < second) :
    handleRounds first turns flags stream sink = handleRounds second turns flags stream sink := by
  induction first generalizing second turns flags stream sink with
  | zero => contradiction
  | succ first ih =>
      cases second with
      | zero => contradiction
      | succ second =>
          rw [handleRounds, handleRounds]
          split
          next =>
            dsimp only
            split
            next => rfl
            next some =>
              have progress := recvMsg_progress some
              split
              next => rfl
              next next sent =>
                have same := @ih (fun n => turns (n + 1))
                  (dispatchCommand (turns 0).around ((turns 0).others flags) (recvMsg stream).1).2
                  (recvMsg stream).2 next second (by omega) (by omega)
                rw [same]
          next => rfl

theorem sendMsg_effect (sink : Sink) (msg : List UInt8) :
    WriteEffect sink (message msg) (sendMsg sink msg) := by
  have parts : [Codec.uint32.encode (UInt32.ofNat msg.length), msg].flatten = message msg := by
    rw [List.flatten_cons, List.flatten_singleton, message]
  rw [← parts]
  exact sink.writeAll_effect _

/-- What is sent for some exchanges. -/
def replies (exchanges : List (List UInt8 × List UInt8)) : List UInt8 :=
  (exchanges.map Prod.snd).flatMap message

/-- The session goes through the requests, and through all of them unless it is stopped or
its client is gone. -/
structure Serves (turns : Nat → Turn) (flags : YoloControlState) (bodies : List (List UInt8))
    (sink : Sink) (handled : Handled) : Prop where
  exchanges : handled.exchanges <+: dispatches turns flags bodies
  sent : ∃ part, part <+: replies handled.exchanges ∧ handled.sink.sent = sink.sent ++ part
  complete : (∀ i < bodies.length, (turns i).running = true) → sink.Willing →
    handled.exchanges = dispatches turns flags bodies ∧
      handled.sink.sent = sink.sent ++ replies handled.exchanges

/-- A session that has ended before the first request. -/
theorem serves_nothing {bodies : List (List UInt8)}
    (ended : (∀ i < bodies.length, (turns i).running = true) → bodies = []) :
    Serves turns flags bodies sink ⟨[], flags, sink⟩ where
  exchanges := List.nil_prefix
  sent := ⟨[], List.nil_prefix, (List.append_nil _).symm⟩
  complete running _ := by
    rw [ended running]
    exact ⟨rfl, (List.append_nil _).symm⟩

theorem replies_cons (req resp : List UInt8) (exchanges : List (List UInt8 × List UInt8)) :
    replies ((req, resp) :: exchanges) = message resp ++ replies exchanges := by
  rw [replies, List.map_cons, List.flatMap_cons]
  rfl

section Round

variable {body resp : List UInt8} {bodies : List (List UInt8)} {now : YoloControlState}
  {next : Sink} {after : Handled}

/-- A round whose response is sent. -/
theorem Serves.cons
    (dispatch : dispatchCommand (turns 0).around ((turns 0).others flags) body = (resp, now))
    (effect : WriteEffect sink (message resp) (true, next))
    (serves : Serves (fun n => turns (n + 1)) now bodies next after) :
    Serves turns flags (body :: bodies) sink
      ⟨(body, resp) :: after.exchanges, after.flags, after.sink⟩ := by
  have first : dispatches turns flags (body :: bodies) =
      (body, resp) :: dispatches (fun n => turns (n + 1)) now bodies := by
    rw [dispatches, dispatch]
  have whole := effect.whole rfl
  constructor
  · rw [first]
    exact List.cons_prefix_cons.mpr ⟨rfl, serves.exchanges⟩
  · rcases serves.sent with ⟨part, initial, sent⟩
    refine ⟨message resp ++ part, ?_, ?_⟩
    · rw [replies_cons]
      exact (List.prefix_append_right_inj _).mpr initial
    · rw [sent, whole, List.append_assoc]
  · intro running willing
    have shifted : ∀ i < bodies.length, (turns (i + 1)).running = true := by
      intro i below
      exact running (i + 1) (Nat.succ_lt_succ below)
    rcases serves.complete shifted (effect.willing willing).2 with ⟨all, sent⟩
    constructor
    · rw [first, all]
    · rw [sent, whole, replies_cons, List.append_assoc]

/-- A round whose response is not sent ends the session. -/
theorem serves_cut
    (dispatch : dispatchCommand (turns 0).around ((turns 0).others flags) body = (resp, now))
    (effect : WriteEffect sink (message resp) (false, next)) :
    Serves turns flags (body :: bodies) sink ⟨[(body, resp)], now, next⟩ where
  exchanges := by
    rw [dispatches, dispatch]
    exact List.cons_prefix_cons.mpr ⟨rfl, List.nil_prefix⟩
  sent := by
    rcases effect.sent with ⟨part, initial, sent⟩
    refine ⟨part, ?_, sent⟩
    rw [replies_cons]
    exact initial.trans (List.prefix_append _ _)
  complete _ willing := absurd (effect.willing willing).1 Bool.false_ne_true

end Round

/-- The loop on a stream of requests. -/
theorem handleRounds_serves {rounds : Nat} {bodies : List (List UInt8)}
    (sized : ∀ body ∈ bodies, Sized body) (broken : Broken tail)
    (shows : Shows stream (bodies.flatMap message ++ tail) later)
    (enough : bodies.length < rounds) :
    Serves turns flags bodies sink (handleRounds rounds turns flags stream sink) := by
  induction bodies generalizing rounds turns flags stream sink with
  | nil =>
      cases rounds with
      | zero => contradiction
      | succ rounds =>
          rw [handleRounds]
          split
          next =>
            have nothing := recvMsg_broken broken shows
            dsimp only
            rw [if_pos nothing]
            exact serves_nothing fun _ => rfl
          next => exact serves_nothing fun _ => rfl
  | cons body bodies ih =>
      cases rounds with
      | zero => contradiction
      | succ rounds =>
          rw [List.forall_mem_cons] at sized
          rw [List.flatMap_cons, List.append_assoc] at shows
          rcases recvMsg_message sized.1 shows with ⟨rest, read, after⟩
          have some : body ≠ [] := List.ne_nil_of_length_pos sized.1.1
          rw [handleRounds]
          split
          next =>
            rw [read]
            dsimp only
            rw [if_neg some]
            rcases dispatch : dispatchCommand (turns 0).around ((turns 0).others flags) body with
              ⟨resp, now⟩
            have effect := sendMsg_effect sink resp
            dsimp only
            split
            next next sent =>
              rw [sent] at effect
              exact serves_cut dispatch effect
            next next sent =>
              rw [sent] at effect
              apply Serves.cons dispatch effect
              exact ih sized.2 after (Nat.lt_of_succ_lt_succ enough)
          next stopped =>
            apply serves_nothing
            intro running
            exact absurd (running 0 (Nat.succ_pos _)) stopped

end Loop

/-! ## The client -/

section Client

variable {stream later : List Arrival} {bodies : List (List UInt8)} {more : List UInt8}

theorem receive_messages (sized : ∀ body ∈ bodies, Sized body)
    (shows : Shows stream (bodies.flatMap message ++ more) later) :
    (receive bodies.length stream).1 = bodies := by
  induction bodies generalizing stream with
  | nil => rfl
  | cons body bodies ih =>
      rw [List.forall_mem_cons] at sized
      rw [List.flatMap_cons, List.append_assoc] at shows
      rcases recvMsg_message sized.1 shows with ⟨rest, read, after⟩
      rw [List.length_cons, receive, read]
      dsimp only
      rw [ih sized.2 after]

theorem map_dispatches (turns : Nat → Turn) (flags : YoloControlState)
    (bodies : List (List UInt8)) : (dispatches turns flags bodies).map Prod.fst = bodies := by
  induction bodies generalizing turns flags with
  | nil => rfl
  | cons body bodies ih =>
      rw [dispatches, List.map_cons, ih]

/-- The client accepts every response. -/
theorem sized_dispatches (turns : Nat → Turn) (flags : YoloControlState)
    (bodies : List (List UInt8)) :
    ∀ resp ∈ (dispatches turns flags bodies).map Prod.snd, Sized resp := by
  induction bodies generalizing turns flags with
  | nil => exact fun _ => nofun
  | cons body bodies ih =>
      rw [dispatches, List.map_cons, List.forall_mem_cons]
      constructor
      · have length := length_dispatchCommand (turns 0).around ((turns 0).others flags) body
        exact ⟨length.1, length.2.trans (by decide)⟩
      · exact ih _ _

theorem length_messages (bodies : List (List UInt8)) :
    bodies.length ≤ (bodies.flatMap message).length := by
  induction bodies with
  | nil => exact Nat.le_refl 0
  | cons body bodies ih =>
      have four := Codec.uint32.length_encode (UInt32.ofNat body.length)
      have size : Codec.uint32.size = 4 := rfl
      rw [List.flatMap_cons, List.length_append, List.length_cons, message, List.length_append,
        four, size]
      omega

end Client

/-- Bytes that do not begin with a broken message begin with a whole one. -/
theorem message_of_not_broken {bytes : List UInt8} (whole : ¬ Broken bytes) :
    ∃ body rest, bytes = message body ++ rest ∧ Sized body := by
  rw [Broken] at whole
  simp only [not_or, Nat.not_lt] at whole
  rcases whole with ⟨head, some, small, enough⟩
  have four : (bytes.take 4).length = 4 := List.length_take_of_le head
  generalize number : Codec.uint32.decode (bytes.take 4) = len at some small enough
  have length : ((bytes.drop 4).take len.toNat).length = len.toNat := by
    rw [List.length_take_of_le]
    rw [List.length_drop]
    omega
  refine ⟨(bytes.drop 4).take len.toNat, (bytes.drop 4).drop len.toNat, ?_, ?_⟩
  · rw [message, length, UInt32.ofNat_toNat, ← number, Codec.uint32_encode_decode four,
      List.append_assoc, List.take_append_drop, List.take_append_drop]
  · rw [Sized, length]
    exact ⟨Nat.pos_of_ne_zero some, small⟩

/-- Any bytes are some messages and a rest that is broken. -/
theorem exists_messages (bytes : List UInt8) : ∃ (bodies : List (List UInt8)) (tail : List UInt8),
    bytes = bodies.flatMap message ++ tail ∧ (∀ body ∈ bodies, Sized body) ∧ Broken tail := by
  induction length : bytes.length using Nat.strong_induction_on generalizing bytes with
  | _ n ih =>
      by_cases broken : Broken bytes
      · exact ⟨[], bytes, rfl, fun _ => nofun, broken⟩
      · rcases message_of_not_broken broken with ⟨body, rest, rfl, sized⟩
        have shorter : rest.length < n := by
          have low := sized.1
          rw [← length, message, List.length_append, List.length_append]
          omega
        rcases ih rest.length shorter rest rfl with ⟨bodies, tail, rfl, all, broken⟩
        refine ⟨body :: bodies, tail, ?_, List.forall_mem_cons.mpr ⟨sized, all⟩, broken⟩
        rw [List.flatMap_cons, List.append_assoc]

/-- A session dispatches the requests that arrive whole, in their order, and sends one
response for each. It ends with the first message that is broken. -/
theorem control_session (bodies : List (List UInt8)) (tail : List UInt8) (chunks : List Chunk)
    (turns : Nat → Turn) (flags : YoloControlState) (sink : Sink)
    (sized : ∀ body ∈ bodies, Sized body) (broken : Broken tail)
    (arrives : joined chunks = bodies.flatMap message ++ tail) :
    let handled := handleConnection turns flags (unpaused chunks) sink
    (dispatches turns flags bodies).map Prod.fst = bodies ∧
      handled.exchanges <+: dispatches turns flags bodies ∧
      ((∀ i < bodies.length, (turns i).running = true) → sink.Willing →
        handled.exchanges = dispatches turns flags bodies ∧
        handled.sink.sent = sink.sent ++ replies handled.exchanges ∧
        ∀ answers more, joined answers = replies handled.exchanges ++ more →
          (receive bodies.length (unpaused answers)).1 =
            (dispatches turns flags bodies).map Prod.snd) := by
  intro handled
  have shows := unpaused_shows chunks
  rw [arrives] at shows
  have enough : bodies.length < weight (unpaused chunks) + 1 := by
    have length := length_messages bodies
    rw [shows.weight, List.length_append]
    omega
  have serves : Serves turns flags bodies sink handled :=
    handleRounds_serves sized broken shows enough
  refine ⟨map_dispatches turns flags bodies, serves.exchanges, fun running willing => ?_⟩
  rcases serves.complete running willing with ⟨all, sent⟩
  refine ⟨all, sent, fun answers more arrives => ?_⟩
  have replied := unpaused_shows answers
  rw [arrives, all, replies] at replied
  have received := receive_messages (sized_dispatches turns flags bodies) replied
  rwa [List.length_map, ← List.length_map (f := Prod.fst), map_dispatches] at received

namespace Example

/-- A server that no other thread disturbs. -/
def quiet (_ : Nat) : Turn := ⟨true, id, ⟨0, 0, fun _ => id⟩⟩

def pauseRequest : List UInt8 := Json.bytesOf "\x7b\"cmd\":\"pause_yolo\"\x7d"

theorem dispatches_pause :
    dispatches quiet {} [pauseRequest] = [(pauseRequest, okResponse)] := by
  decide

end Example

/-- One request and a length of zero behind it, byte by byte. -/
theorem control_session_pause :
    (handleConnection Example.quiet {}
      (unpaused (bytewise ([Example.pauseRequest].flatMap message ++ [0, 0, 0, 0, 42])))
      .fresh).exchanges = [(Example.pauseRequest, okResponse)] := by
  have sized : ∀ body ∈ [Example.pauseRequest], Sized body := by
    rw [List.forall_mem_singleton]
    exact ⟨by decide, by decide⟩
  have broken : Broken [0, 0, 0, 0, 42] := .inr (.inl (by decide))
  have session := control_session [Example.pauseRequest] [0, 0, 0, 0, 42] _ Example.quiet {}
    .fresh sized broken (joined_bytewise _)
  have all := (session.2.2 (fun _ _ => rfl) List.not_mem_nil).1
  rwa [Example.dispatches_pause] at all

end KhadasYolo.Ipc
