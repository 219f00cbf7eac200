import KhadasYolo.Summarizer.Aggregate

/-!
# The summarizer's presence machine

The receive loop of `event_summarizer`: every received frame is scanned record
by record, the state machine then moves at most one step, and a tick that lands
in the LLM window runs the whole cycle before the loop continues. A tick without
a frame (the 200 ms receive timeout) only moves the machine. The aggregates and
the machine survive a lost connection.
-/

namespace KhadasYolo.Summarizer

open Ipc

universe u

/-- The FSM states. -/
inductive State where
  | noDrone
  | dronePresent
  | cooldown
  | llmWindow
  deriving DecidableEq, Repr

/-- The command line. An empty `qwenCmd` asks for the snapshot only. -/
structure Config where
  device : String
  cooldownMs : UInt64
  droneClass : List UInt8
  outPath : String
  qwenCmd : String
  useControl : Bool
  alsoDevices : List String

/-- The values in force without options. The default class is `UAV`. -/
def Config.ofDevice (device : String) : Config where
  device := device
  cooldownMs := 30 * 1000
  droneClass := [85, 65, 86]
  outPath := "/tmp/yolo_summary_" ++ device ++ ".txt"
  qwenCmd := ""
  useControl := true
  alsoDevices := []

/-- What the program asks of its environment during an LLM cycle. -/
inductive Effect (F : Type u) where
  | sendControl (device command : String)
  | writeSnapshot (path device : String) (agg : Aggregate F)
  | system (command : String)

/-- Outcome of one `recv_frame`. -/
inductive RecvResult (F : Type u) where
  | frame (records : List (WireTrackSummary F))
  | timeout
  | disconnect

/-- The locals of `main` that live across the loops. `connected` says which of
the two nested loops is running. -/
structure Machine (F : Type u) where
  agg : Aggregate F
  state : State
  present : Bool
  departedMs : UInt64
  connected : Bool

/-- One turn of a loop: a connection attempt and its outcome, or a `recv_frame`
with its outcome, the clock reading of the tick and, should the tick run an LLM
cycle, whether the snapshot file could be written. -/
inductive Input (F : Type u) where
  | connect (accepted : Bool)
  | receive (result : RecvResult F) (nowMs : UInt64) (written : Bool)

variable {F : Type u}

def Machine.start : Machine F where
  agg := ∅
  state := .noDrone
  present := false
  departedMs := 0
  connected := false

/-- A record that counts as the drone being there. -/
def Config.isDrone (config : Config) (s : WireTrackSummary F) : Bool :=
  config.droneClass == cString s.className && s.status != 2

/-- An episode is running: the only states in which records are aggregated. -/
def State.active (state : State) : Bool :=
  state == .dronePresent || state == .cooldown

/-- The body of the record loop. The state tested is the one before this tick's
transition. -/
def scanRecord [FloatOps F] (config : Config) (m : Machine F)
    (s : WireTrackSummary F) : Machine F where
  agg := if config.isDrone s && m.state.active then updateAggregate m.agg s else m.agg
  state := m.state
  present := config.isDrone s || m.present
  departedMs := m.departedMs
  connected := m.connected

/-- A whole frame: presence is decided anew. -/
def scanFrame [FloatOps F] (config : Config) (m : Machine F)
    (records : List (WireTrackSummary F)) : Machine F :=
  records.foldl (scanRecord config) { m with present := false }

/-- The FSM switch, at clock reading `t`. The difference of the two readings is
unsigned. -/
def advance (config : Config) (t : UInt64) (m : Machine F) : Machine F :=
  match m.state with
  | .noDrone =>
      if m.present then { m with agg := ∅, state := .dronePresent } else m
  | .dronePresent =>
      if !m.present then { m with departedMs := t, state := .cooldown } else m
  | .cooldown =>
      if m.present then { m with state := .dronePresent }
      else if t - m.departedMs ≥ config.cooldownMs then { m with state := .llmWindow }
      else m
  | .llmWindow => m

def blackoutCommand : String := "\x7b\"cmd\":\"blackout\"\x7d"

def resumeCommand : String := "\x7b\"cmd\":\"resume\"\x7d"

/-- Send one command to every camera; the outcomes are not looked at. -/
def Config.broadcast (config : Config) (command : String) : List (Effect F) :=
  if config.useControl then
    (config.device :: config.alsoDevices).map (.sendControl · command)
  else []

/-- Run the model over the snapshot, when there is one and a command is set. -/
def Config.runQwen (config : Config) (written : Bool) : List (Effect F) :=
  if written && config.qwenCmd != "" then
    [.system (config.qwenCmd ++ " " ++ config.outPath)]
  else []

/-- The LLM cycle, in its order of execution. -/
def llmCycle (config : Config) (written : Bool) (agg : Aggregate F) : List (Effect F) :=
  config.broadcast blackoutCommand ++
    .writeSnapshot config.outPath config.device agg ::
      (config.runQwen written ++ config.broadcast resumeCommand)

/-- Handle the LLM window, which never outlives its tick. -/
def finish (config : Config) (written : Bool) (m : Machine F) :
    Machine F × List (Effect F) :=
  match m.state with
  | .llmWindow =>
      ({ m with agg := ∅, present := false, state := .noDrone },
        llmCycle config written m.agg)
  | _ => (m, [])

/-- The machine after the FSM switch of a tick; a disconnect has no tick. -/
def tick [FloatOps F] (config : Config) (m : Machine F) (t : UInt64) :
    RecvResult F → Option (Machine F)
  | .frame records => some (advance config t (scanFrame config m records))
  | .timeout => some (advance config t m)
  | .disconnect => none

/-- One turn of the loops. -/
def step [FloatOps F] (config : Config) (m : Machine F) :
    Input F → Option (Machine F × List (Effect F))
  | .connect accepted =>
      if m.connected then none else some ({ m with connected := accepted }, [])
  | .receive result t written =>
      if m.connected then
        match tick config m t result with
        | some reached => some (finish config written reached)
        | none => some ({ m with connected := false }, [])
      else none

end KhadasYolo.Summarizer
