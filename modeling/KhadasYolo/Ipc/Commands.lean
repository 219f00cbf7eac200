import KhadasYolo.Lib.JsonSearch
import KhadasYolo.Pipeline.Step

/-!
# Commands of the control plane

Requests and responses are JSON texts. `dispatchCommand` finds the command and its
parameter by searching the text for patterns, and answers with a fixed text or with a
status that is cut to its buffer. What the other threads contribute is given with each
call.
-/

namespace KhadasYolo.Ipc

open Json Pipeline Substring

/-! ## Minimal JSON helpers -/

/-- `"key":"value"`. A string that is not found and one that is not closed are empty. -/
def extractString (json key : List UInt8) : List UInt8 :=
  let pattern := [quote] ++ key ++ [quote, colon, quote]
  match find pattern json with
  | none => []
  | some pos =>
      let rest := json.drop (pos + pattern.length)
      match find [quote] rest with
      | none => []
      | some count => rest.take count

/-- `"key":true` or `"key":false`, the first of them before the second. -/
def extractBool (json key : List UInt8) : Option Bool :=
  if (find ([quote] ++ key ++ [quote, colon] ++ bytesOf "true") json).isSome then some true
  else if (find ([quote] ++ key ++ [quote, colon] ++ bytesOf "false") json).isSome then
    some false
  else none

def okResponse : List UInt8 := bytesOf "\x7b\"ok\":true\x7d"

def errResponse (msg : String) : List UInt8 :=
  bytesOf "\x7b\"ok\":false,\"error\":\"" ++ bytesOf msg ++ bytesOf "\"\x7d"

/-! ## Numbers in a status -/

def decimal (n : Nat) : List UInt8 := (Nat.toDigits 10 n).flatMap String.utf8EncodeChar

/-- The quotient of two numbers as the nearest one, the even one of two. -/
def nearest (n d : Nat) : Nat :=
  if d < 2 * (n % d) ∨ d = 2 * (n % d) ∧ n / d % 2 = 1 then n / d + 1 else n / d

/-- `%.1f` of a value in single precision with these bits. -/
def fixedPoint (bits : UInt32) : List UInt8 :=
  let exponent := bits.toNat / 2 ^ 23 % 2 ^ 8
  let fraction := bits.toNat % 2 ^ 23
  let sign := if bits.toNat < 2 ^ 31 then [] else bytesOf "-"
  if exponent = 255 then sign ++ bytesOf (if fraction = 0 then "inf" else "nan")
  else
    -- the value is the mantissa times a power of two
    let mantissa := if exponent = 0 then fraction else 2 ^ 23 + fraction
    let shift := max exponent 1
    let tenths := if 150 ≤ shift then mantissa * 2 ^ (shift - 150) * 10
      else nearest (mantissa * 10) (2 ^ (150 - shift))
    sign ++ decimal (tenths / 10) ++ bytesOf "." ++ decimal (tenths % 10)

def boolText (value : Bool) : List UInt8 := bytesOf (if value then "true" else "false")

/-- The response to `get_status` with its buffer of 320 bytes. -/
def statusResponse (inferenceEnabled dumpEnabled : Bool) (frameId queueDepth : Nat)
    (fps : UInt32) : List UInt8 :=
  (bytesOf "\x7b\"ok\":true,\"payload\":\x7b\"inference_enabled\":" ++ boolText inferenceEnabled ++
    bytesOf ",\"dump_enabled\":" ++ boolText dumpEnabled ++
    bytesOf ",\"frame_id\":" ++ decimal frameId ++
    bytesOf ",\"queue_depth\":" ++ decimal queueDepth ++
    bytesOf ",\"fps\":" ++ fixedPoint fps ++ bytesOf "\x7d\x7d").take 319

/-! ## Dispatch -/

/-- What a dispatch finds of the other threads. -/
structure Surroundings where
  /-- of the data publisher, zero without one -/
  queueDepth : Nat
  /-- the bits of the frame rate -/
  fps : UInt32
  /-- what the main loop does until `wait_for` returns -/
  awaited : WaitCommand → YoloControlState → YoloControlState

/-- The command of a name, compared with one name after the other. -/
def commandFor (named : String → Bool) (enabled : Option Bool) : Command :=
  if named "pause_yolo" then .pauseYolo
  else if named "resume_yolo" then .resumeYolo
  else if named "get_status" then .getStatus
  else if named "set_dump_enabled" then .setDumpEnabled enabled
  else if named "shutdown" then .shutdown
  else if named "blackout" then .blackout
  else if named "resume" then .resume
  else .unknown

/-- The command that is found in a request. -/
def requestCommand (json : List UInt8) : Command :=
  let cmd := extractString json (bytesOf "cmd")
  commandFor (fun name => cmd == bytesOf name) (extractBool json (bytesOf "enabled"))

/-- A wait and the response after it. -/
def await (around : Surroundings) (command : WaitCommand) (flags : YoloControlState) :
    Response × YoloControlState :=
  let now := around.awaited command flags
  (if command.pred now then .ok else .error command.timeoutMessage, now)

/-- The branches of `dispatchCommand`. -/
def perform (around : Surroundings) (flags : YoloControlState) :
    Command → Response × YoloControlState
  | .pauseYolo => (.ok, { flags with inferenceEnabled := false })
  | .resumeYolo => (.ok, { flags with inferenceEnabled := true })
  | .getStatus => (.status flags.inferenceEnabled flags.dumpEnabled flags.frameId, flags)
  | .setDumpEnabled none => (.error "missing 'enabled' param (expected true/false)", flags)
  | .setDumpEnabled (some enabled) => (.ok, { flags with dumpEnabled := enabled })
  | .shutdown => (.ok, { flags with shutdownRequested := true })
  | .blackout =>
      await around .blackout { flags with inferenceEnabled := false, blackoutRequested := true }
  | .resume =>
      if flags.blackoutActive then
        await around .resume { flags with resumeRequested := true }
      else (.error "not in blackout", flags)
  | .unknown => (.error "unknown command", flags)

/-- The text of a response. -/
def responseText (around : Surroundings) : Response → List UInt8
  | .ok => okResponse
  | .status inferenceEnabled dumpEnabled frameId =>
      statusResponse inferenceEnabled dumpEnabled frameId around.queueDepth around.fps
  | .error msg => errResponse msg

def dispatchCommand (around : Surroundings) (flags : YoloControlState) (json : List UInt8) :
    List UInt8 × YoloControlState :=
  let (response, now) := perform around flags (requestCommand json)
  (responseText around response, now)

/-! ## Responses -/

section Responses

variable {around : Surroundings} {flags : YoloControlState} {command : Command}

/-- A response that is not empty and fits the buffer of a status. -/
def Brief (response : Response) : Prop :=
  ∀ around, 0 < (responseText around response).length ∧
    (responseText around response).length ≤ 319

theorem brief_ok : Brief .ok := by
  have size : 0 < okResponse.length ∧ okResponse.length ≤ 319 := by decide
  exact fun _ => size

theorem brief_error {msg : String}
    (size : 0 < (errResponse msg).length ∧ (errResponse msg).length ≤ 319) :
    Brief (.error msg) :=
  fun _ => size

theorem brief_status (inferenceEnabled dumpEnabled : Bool) (frameId : Nat) :
    Brief (.status inferenceEnabled dumpEnabled frameId) := by
  intro around
  have start : 0 < (bytesOf
      "\x7b\"ok\":true,\"payload\":\x7b\"inference_enabled\":").length := by decide
  rw [responseText, statusResponse, List.length_take]
  constructor
  · apply lt_min (by decide)
    simp only [List.length_append]
    omega
  · exact min_le_left _ _

theorem brief_timeout (command : WaitCommand) : Brief (.error command.timeoutMessage) := by
  cases command with
  | blackout => exact brief_error (by decide)
  | resume => exact brief_error (by decide)

theorem brief_await (command : WaitCommand) : Brief (await around command flags).1 := by
  rw [await]
  dsimp only
  split
  next => exact brief_ok
  next => exact brief_timeout command

theorem brief_perform (around : Surroundings) (flags : YoloControlState) (command : Command) :
    Brief (perform around flags command).1 := by
  match command with
  | .pauseYolo => exact brief_ok
  | .resumeYolo => exact brief_ok
  | .getStatus => exact brief_status _ _ _
  | .setDumpEnabled none => exact brief_error (by decide)
  | .setDumpEnabled (some _) => exact brief_ok
  | .shutdown => exact brief_ok
  | .blackout => exact brief_await .blackout
  | .resume =>
      rw [perform]
      split
      next => exact brief_await .resume
      next => exact brief_error (by decide)
  | .unknown => exact brief_error (by decide)

/-- Every response is one that the client accepts. -/
theorem length_dispatchCommand (around : Surroundings) (flags : YoloControlState)
    (json : List UInt8) : 0 < (dispatchCommand around flags json).1.length ∧
      (dispatchCommand around flags json).1.length ≤ 319 :=
  brief_perform around flags (requestCommand json) around

/-- A dispatch without a wait is a step of the control thread. -/
theorem perform_dispatch {s : State} {response : Response}
    (replies : (Pipeline.dispatchCommand s command).control = .reply command response) :
    perform around s.flags command =
      (response, (Pipeline.dispatchCommand s command).flags) := by
  match command with
  | .pauseYolo | .resumeYolo | .getStatus | .setDumpEnabled none | .setDumpEnabled (some _)
  | .shutdown | .unknown =>
      cases replies
      rfl
  | .blackout => cases replies
  | .resume =>
      rw [Pipeline.dispatchCommand] at replies
      rw [perform]
      split
      next active =>
        rw [if_pos active] at replies
        cases replies
      next inactive =>
        rw [if_neg inactive] at replies
        cases replies
        rfl

end Responses

end KhadasYolo.Ipc
