import KhadasYolo.Ipc.RequestText
import KhadasYolo.Ipc.Session

/-!
# The command-line client

`control_client` from its arguments to its exit status, and the exchange with
`handleConnection` at the other end.  The command is pasted into the request as it
stands, without escapes, so the server sees it up to its first quote.
-/

namespace KhadasYolo.Ipc

open ByteSink ByteStream Json Pipeline Substring

namespace ControlClient

/-! ## The client -/

/-- The request of a command without parameters. -/
def commandRequest (cmd : List UInt8) : List UInt8 :=
  bytesOf "\x7b\"cmd\":\"" ++ cmd ++ bytesOf "\"\x7d"

def dumpRequest (enabled : Bool) : List UInt8 :=
  bytesOf "\x7b\"cmd\":\"set_dump_enabled\",\"params\":\x7b\"enabled\":" ++ boolText enabled ++
    bytesOf "\x7d\x7d"

/-- Whether a parameter stands for true. -/
def isTrue (value : List UInt8) : Bool := value == bytesOf "true" || value == bytesOf "1"

/-- `buildCommand` on three arguments or more; empty where the parameter is missing. -/
def buildCommand (argv : List (List UInt8)) : List UInt8 :=
  let cmd := argv.getD 2 []
  if cmd = bytesOf "set_dump_enabled" then
    match argv[3]? with
    | none => []
    | some value => dumpRequest (isTrue value)
  else commandRequest cmd

/-- How the client ends: its exit status, the request and the response it has printed,
and its side of the connection. -/
structure Ended where
  status : Nat
  request : List UInt8
  response : List UInt8
  sink : Sink

/-- `main`, given whether `connect` succeeds. -/
def main (argv : List (List UInt8)) (connects : Bool) (sink : Sink)
    (stream : List Arrival) : Ended :=
  if argv.length < 3 then ⟨1, [], [], sink⟩
  else if !connects then ⟨1, [], [], sink⟩
  else
    let cmdJson := buildCommand argv
    if cmdJson = [] then ⟨1, [], [], sink⟩
    else
      match sendMsg sink cmdJson with
      | (false, broken) => ⟨1, cmdJson, [], broken⟩
      | (true, sent) =>
          let resp := (recvMsg stream).1
          if resp = [] then ⟨1, cmdJson, [], sent⟩ else ⟨0, cmdJson, resp, sent⟩

/-- The command that the arguments name. -/
def asked (argv : List (List UInt8)) : Command :=
  commandFor (fun name => argv.getD 2 [] == bytesOf name) (argv[3]?.map isTrue)

/-! ## What the server makes of a request -/

theorem requestCommand_dumpRequest (enabled : Bool) :
    requestCommand (dumpRequest enabled) = .setDumpEnabled (some enabled) := by
  cases enabled <;> decide

/-- The string ends at the first quote, be it one of the command. -/
theorem extractString_commandRequest (cmd : List UInt8) :
    extractString (commandRequest cmd) (bytesOf "cmd") = cmd.takeWhile (· != quote) := by
  have pattern : [quote] ++ bytesOf "cmd" ++ [quote, colon, quote] =
      (bytesOf "\x7b\"cmd\":\"").tail := by decide
  have start : bytesOf "\x7b\"cmd\":\"" = 123 :: (bytesOf "\x7b\"cmd\":\"").tail := by decide
  have close : bytesOf "\"\x7d" = quote :: bytesOf "\x7d" := by decide
  generalize (bytesOf "\x7b\"cmd\":\"").tail = opening at pattern start
  have absent : ¬ opening <+: 123 :: (opening ++ (cmd ++ bytesOf "\"\x7d")) := by
    rw [← pattern]
    intro initial
    exact absurd (List.cons_prefix_cons.mp initial).1 (by decide)
  have found : find opening (commandRequest cmd) = some 1 := by
    rw [commandRequest, start, List.cons_append, List.cons_append, List.append_assoc, find,
      if_neg absent, find_append]
    rfl
  have rest : (commandRequest cmd).drop (1 + opening.length) = cmd ++ quote :: bytesOf "\x7d" := by
    rw [commandRequest, start, List.cons_append, List.cons_append, List.append_assoc,
      Nat.add_comm, List.drop_succ_cons, List.drop_left, close]
  rcases take_find_singleton quote cmd (bytesOf "\x7d") with ⟨count, closes, before⟩
  rw [extractString, pattern, found]
  dsimp only
  rw [rest, closes]
  exact before

/-- A command without a quote is acted on as the arguments ask. -/
theorem requestCommand_buildCommand {argv : List (List UInt8)} (some : buildCommand argv ≠ [])
    (unquoted : quote ∉ argv.getD 2 []) : requestCommand (buildCommand argv) = asked argv := by
  rw [buildCommand] at some ⊢
  split at some
  next named =>
    rw [if_pos named]
    cases value : argv[3]? with
    | none =>
        rw [value] at some
        exact absurd rfl some
    | some value =>
        rw [requestCommand_dumpRequest, asked, named, ‹argv[3]? = _›]
        rfl
  next other =>
    rw [if_neg other, requestCommand, extractString_commandRequest, asked]
    have whole : (argv.getD 2 []).takeWhile (· != quote) = argv.getD 2 [] := by
      rw [List.takeWhile_eq_self_iff]
      intro byte member
      rw [bne_iff_ne]
      rintro rfl
      exact unquoted member
    rw [whole, commandFor_eq_iff]
    refine ⟨rfl, fun command => ?_⟩
    have named := named_setDumpEnabled command
    exact absurd (eq_of_beq named) other

/-! ## The exchange -/

section Server

variable {turns : Nat → Turn} {flags : YoloControlState} {stream later : List Arrival}
  {sink : Sink} {body tail : List UInt8}

/-- A connection that brings nothing whole. -/
theorem handleRounds_broken (rounds : Nat) (broken : Broken tail)
    (shows : Shows stream tail later) :
    handleRounds rounds turns flags stream sink = ⟨[], flags, sink⟩ := by
  cases rounds with
  | zero => rfl
  | succ rounds =>
      have nothing := recvMsg_broken broken shows
      rw [handleRounds]
      split
      · dsimp only
        rw [if_pos nothing]
      · rfl

/-- A connection of one request. -/
theorem handleConnection_single (sized : Sized body) (running : (turns 0).running = true)
    (shows : Shows stream (message body) later) :
    handleConnection turns flags stream sink =
      let dispatched := dispatchCommand (turns 0).around ((turns 0).others flags) body
      ⟨[(body, dispatched.1)], dispatched.2, (sendMsg sink dispatched.1).2⟩ := by
  rw [← List.append_nil (message body)] at shows
  rcases recvMsg_message sized shows with ⟨rest, read, after⟩
  have some : body ≠ [] := List.ne_nil_of_length_pos sized.1
  have short : Broken [] := .inl (by decide)
  rw [handleConnection, handleRounds, if_pos running, read]
  dsimp only
  rw [if_neg some]
  rcases dispatchCommand (turns 0).around ((turns 0).others flags) body with ⟨resp, now⟩
  rcases sent : sendMsg sink resp with ⟨whole, written⟩
  cases whole with
  | false => rfl
  | true =>
      dsimp only
      rw [handleRounds_broken _ short after]

/-- A connection to a server that is stopping. -/
theorem handleConnection_stopped (stopped : (turns 0).running = false) :
    handleConnection turns flags stream sink = ⟨[], flags, sink⟩ := by
  rw [handleConnection, handleRounds, if_neg (by rw [stopped]; exact Bool.false_ne_true)]

end Server

/-- Neither a part of a message nor one that is too long is whole. -/
theorem broken_of_initial {body part : List UInt8} (fits : body.length < 2 ^ 32)
    (initial : part <+: message body) (cut : part = message body → ¬ Sized body) :
    Broken part := by
  rw [Broken]
  by_cases short : part.length < 4
  · exact Or.inl short
  · have four : (Codec.uint32.encode (UInt32.ofNat body.length)).length = 4 :=
      Codec.uint32.length_encode _
    have head : part.take 4 = Codec.uint32.encode (UInt32.ofNat body.length) := by
      have start := initial.take 4
      rw [message, List.take_append_of_le_length (Nat.le_of_eq four.symm),
        List.take_of_length_le (Nat.le_of_eq four)] at start
      exact start.eq_of_length (by rw [four, List.length_take]; omega)
    have length : (Codec.uint32.decode (part.take 4)).toNat = body.length := by
      rw [head, Codec.uint32.decode_encode]
      exact UInt32.toNat_ofNat_of_lt' fits
    refine Or.inr ?_
    dsimp only
    rw [length]
    by_contra whole
    simp only [not_or, Nat.not_lt] at whole
    have all : (message body).length ≤ part.length := by
      rw [message, List.length_append, four]
      exact whole.2.2
    exact cut (initial.eq_of_length_le all) ⟨Nat.pos_of_ne_zero whole.1, whole.2.1⟩

section Exchange

variable {argv : List (List UInt8)} {turns : Nat → Turn} {flags : YoloControlState}
  {stream later : List Arrival} {sink : Sink} {body part : List UInt8}

/-- What the server returns for the one request of a client. -/
def answered (turns : Nat → Turn) (flags : YoloControlState) (body : List UInt8) :
    List UInt8 × YoloControlState :=
  dispatchCommand (turns 0).around ((turns 0).others flags) body

/-- The server gets nothing, or the whole request. -/
theorem handleConnection_part (fits : body.length < 2 ^ 32) (initial : part <+: message body)
    (shows : Shows stream part later) :
    handleConnection turns flags stream sink = ⟨[], flags, sink⟩ ∧
        (Sized body → part = message body → (turns 0).running = false) ∨
      handleConnection turns flags stream sink =
        ⟨[(body, (answered turns flags body).1)], (answered turns flags body).2,
          (sendMsg sink (answered turns flags body).1).2⟩ := by
  by_cases whole : part = message body ∧ Sized body
  · rcases whole with ⟨rfl, sized⟩
    cases running : (turns 0).running with
    | false => exact Or.inl ⟨handleConnection_stopped running, fun _ _ => rfl⟩
    | true => exact Or.inr (handleConnection_single sized running shows)
  · have broken := broken_of_initial fits initial fun same sized => whole ⟨same, sized⟩
    exact Or.inl ⟨handleRounds_broken _ broken shows,
      fun sized same => absurd ⟨same, sized⟩ whole⟩

/-- A part of a message is read as nothing, and the whole as its body. -/
theorem recvMsg_part (sized : Sized body) (initial : part <+: message body)
    (shows : Shows stream part later) :
    (recvMsg stream).1 = [] ∨ (recvMsg stream).1 = body := by
  by_cases whole : part = message body
  · rw [whole, ← List.append_nil (message body)] at shows
    rcases recvMsg_message sized shows with ⟨rest, read, _⟩
    exact Or.inr (congrArg Prod.fst read)
  · have fits : body.length < 2 ^ 32 := lt_of_le_of_lt sized.2 (by decide)
    exact Or.inl (recvMsg_broken (broken_of_initial fits initial fun same => absurd same whole)
      shows)

theorem sized_answered (turns : Nat → Turn) (flags : YoloControlState) (body : List UInt8) :
    Sized (answered turns flags body).1 := by
  have length := length_dispatchCommand (turns 0).around ((turns 0).others flags) body
  exact ⟨length.1, length.2.trans (by decide)⟩

/-- The client from the request on. -/
theorem main_cases (argv : List (List UInt8)) (sink : Sink) (stream : List Arrival) :
    (main argv true sink stream = ⟨1, [], [], sink⟩ ∧
        (3 ≤ argv.length → buildCommand argv = [])) ∨
      buildCommand argv ≠ [] ∧
        main argv true sink stream =
          if (sendMsg sink (buildCommand argv)).1 = true ∧ (recvMsg stream).1 ≠ [] then
            ⟨0, buildCommand argv, (recvMsg stream).1, (sendMsg sink (buildCommand argv)).2⟩
          else ⟨1, buildCommand argv, [], (sendMsg sink (buildCommand argv)).2⟩ := by
  rw [main]
  by_cases few : argv.length < 3
  · rw [if_pos few]
    exact Or.inl ⟨rfl, fun enough => absurd few (Nat.not_lt.mpr enough)⟩
  · rw [if_neg few, if_neg (by simp)]
    dsimp only
    by_cases missing : buildCommand argv = []
    · rw [if_pos missing]
      exact Or.inl ⟨rfl, fun _ => missing⟩
    · rw [if_neg missing]
      refine Or.inr ⟨missing, ?_⟩
      rcases sendMsg sink (buildCommand argv) with ⟨whole, written⟩
      cases whole with
      | false => rfl
      | true =>
          by_cases silent : (recvMsg stream).1 = []
          · simp [silent]
          · simp [silent]

end Exchange

/-- What an exchange comes to at both ends. -/
structure Exchange (argv : List (List UInt8)) (turns : Nat → Turn) (flags : YoloControlState)
    (client : Ended) (server : Handled) : Prop where
  /-- the server dispatches the request of the arguments, or nothing -/
  only : (server.exchanges = [] ∧ server.flags = flags) ∨
    (server.exchanges = [(buildCommand argv, (answered turns flags (buildCommand argv)).1)] ∧
      server.flags = (answered turns flags (buildCommand argv)).2)
  /-- where the client ends with status 0, it has printed what was dispatched -/
  success : client.status = 0 → client.request = buildCommand argv ∧
    server.exchanges = [(client.request, client.response)]
  /-- and what was dispatched is the command of the arguments -/
  meaning : quote ∉ argv.getD 2 [] → ∀ exchange ∈ server.exchanges,
    requestCommand exchange.1 = asked argv

theorem Exchange.nothing {argv : List (List UInt8)} {turns : Nat → Turn}
    {flags : YoloControlState} {client : Ended} {sink : Sink} (failed : client.status = 1) :
    Exchange argv turns flags client ⟨[], flags, sink⟩ where
  only := Or.inl ⟨rfl, rfl⟩
  success done := by
    rw [failed] at done
    cases done
  meaning _ _ member := absurd member List.not_mem_nil

/-- One run of the client against the server, whatever pieces the bytes travel in and
wherever the connection breaks. -/
theorem client_exchange (argv : List (List UInt8)) (turns : Nat → Turn)
    (flags : YoloControlState) (sends replies : List Outcome) (requests answers : List Chunk)
    (fits : (buildCommand argv).length < 2 ^ 32) :
    let client := main argv true ⟨sends, []⟩ (unpaused answers)
    let server := handleConnection turns flags (unpaused requests) ⟨replies, []⟩
    joined requests = client.sink.sent → joined answers = server.sink.sent →
      Exchange argv turns flags client server ∧
        (3 ≤ argv.length → buildCommand argv ≠ [] → (buildCommand argv).length ≤ 2 ^ 20 →
          (turns 0).running = true → .fails ∉ sends → .fails ∉ replies → client.status = 0) := by
  intro client server arrives returns
  have requested := unpaused_shows requests
  have returned := unpaused_shows answers
  rw [arrives] at requested
  rw [returns] at returned
  have silent : Broken [] := .inl (by decide)
  rcases main_cases argv ⟨sends, []⟩ (unpaused answers) with ⟨ended, missing⟩ | ⟨some, ended⟩
  · have failed : client = ⟨1, [], [], ⟨sends, []⟩⟩ := ended
    rw [failed] at requested
    have idle : server = ⟨[], flags, ⟨replies, []⟩⟩ := handleRounds_broken _ silent requested
    rw [idle, failed]
    exact ⟨.nothing rfl, fun three some => absurd (missing three) some⟩
  · have effect := sendMsg_effect ⟨sends, []⟩ (buildCommand argv)
    have sink : client.sink = (sendMsg ⟨sends, []⟩ (buildCommand argv)).2 := by
      rw [show client = _ from ended]
      split <;> rfl
    rcases effect.sent with ⟨part, initial, sent⟩
    rw [sink, sent] at requested
    rcases handleConnection_part fits initial requested with ⟨idle, cut⟩ | dispatched
    · have idle : server = ⟨[], flags, ⟨replies, []⟩⟩ := idle
      rw [idle] at returned
      have quiet : (recvMsg (unpaused answers)).1 = [] := recvMsg_broken silent returned
      have failed : client.status = 1 := by
        rw [show client = _ from ended, if_neg (by rw [quiet]; simp)]
      rw [idle]
      refine ⟨.nothing failed, fun _ _ small running able _ => ?_⟩
      have whole : part = message (buildCommand argv) := by
        have all := effect.whole (effect.willing able).1
        rw [sent] at all
        exact List.append_cancel_left all
      rw [cut ⟨List.length_pos_of_ne_nil some, small⟩ whole] at running
      cases running
    · have dispatched : server = _ := dispatched
      have sized := sized_answered turns flags (buildCommand argv)
      have reply := sendMsg_effect ⟨replies, []⟩ (answered turns flags (buildCommand argv)).1
      rcases reply.sent with ⟨back, start, replied⟩
      rw [dispatched, replied] at returned
      rw [dispatched]
      constructor
      · constructor
        · exact Or.inr ⟨rfl, rfl⟩
        · intro done
          rw [show client = _ from ended] at done ⊢
          split at done
          next read =>
            rw [if_pos read]
            refine ⟨rfl, ?_⟩
            rw [(recvMsg_part sized start returned).resolve_left read.2]
          next => cases done
        · intro unquoted exchange member
          rw [List.mem_singleton.mp member]
          exact requestCommand_buildCommand some unquoted
      · intro _ _ _ _ able willing
        have all := reply.whole (reply.willing willing).1
        rw [replied] at all
        rw [List.append_cancel_left all, List.nil_append,
          ← List.append_nil (message _)] at returned
        rcases recvMsg_message sized returned with ⟨rest, read, _⟩
        have heard : (recvMsg (unpaused answers)).1 ≠ [] := by
          rw [read]
          exact List.ne_nil_of_length_pos sized.1
        rw [show client = _ from ended, if_pos ⟨(effect.willing able).1, heard⟩]

/-- `control_client 33 set_dump_enabled 1`. -/
def dumpArguments : List (List UInt8) :=
  [bytesOf "control_client", bytesOf "33", bytesOf "set_dump_enabled", bytesOf "1"]

/-- The bytes travel one by one, and the client ends with status 0. -/
theorem client_exchange_dump :
    ∃ client server, Exchange dumpArguments Example.quiet {} client server ∧
      client.status = 0 ∧ client.response = okResponse ∧ server.flags.dumpEnabled = true := by
  have exchange := client_exchange dumpArguments Example.quiet {} [] []
    (bytewise (message (dumpRequest true))) (bytewise (message okResponse)) (by decide)
    (by decide) (by decide)
  exact ⟨_, _, exchange.1,
    exchange.2 (by decide) (by decide) (by decide) rfl List.not_mem_nil List.not_mem_nil,
    by decide, by decide⟩

end ControlClient

end KhadasYolo.Ipc
