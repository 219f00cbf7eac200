import KhadasYolo.Ipc.Commands
import KhadasYolo.Pipeline.Window
import KhadasYolo.Summarizer.Machine

/-!
# The summarizer and its cameras

`main` of `event_summarizer` carries out the effects of an LLM cycle one after the
other. Each `send_control` is a connection to the control server of one camera; its
answer is read and discarded. The cameras, one pipeline for each device name, go on
by themselves meanwhile and serve other clients.
-/

namespace KhadasYolo.Summarizer

open Ipc TransitionSystem

universe u

/-- Whose connection a control server has accepted last. -/
inductive Peer where
  | summarizer
  /-- the summarizer, which has closed it -/
  | gone
  | other
  deriving DecidableEq, Repr

/-- Where the `send_control` in progress is. -/
inductive Exchange where
  | connecting
  | connected
  | asked
  deriving DecidableEq, Repr

/-- One finished `send_control`; without a response the connection has failed. -/
structure Answer where
  device : String
  command : String
  response : Option Pipeline.Response
  deriving DecidableEq, Repr

/-- The summarizer, the cameras, and the connections between them. `todo` is what
is left of the LLM cycle; `answers` are those of its commands so far, which the
program does not keep. -/
structure Deployment (F : Type u) where
  machine : Machine F := .start
  todo : List (Effect F) := []
  exchange : Exchange := .connecting
  cameras : String → Pipeline.State := fun _ => Pipeline.system.init
  peers : String → Peer := fun _ => .other
  answers : List Answer := []

inductive Turn (F : Type u) where
  | tick (input : Input F)
  /-- a camera by itself, or with another client -/
  | camera (device : String) (label : Pipeline.Label)
  /-- the server accepts the summarizer's connection -/
  | connect
  /-- the server receives the summarizer's command -/
  | request
  /-- the summarizer receives the response and closes -/
  | answer
  /-- `send_control` returns without a response -/
  | giveUp
  /-- the snapshot is written, or the shell command has ended -/
  | proceed

/-- The step passes something over the accepted connection. -/
def Carries (camera : Pipeline.State) : Pipeline.Label → Bool
  | .control (.request _) => true
  | .control .failed => camera.control != .accept
  | .control .go =>
      match camera.control with
      | .reply _ _ => true
      | _ => false
  | _ => false

/-- Without the summarizer a camera uses its own connection only to other clients,
and finds the one closed that the summarizer has left. -/
def Foreign (peer : Peer) (camera : Pipeline.State) (label : Pipeline.Label) : Bool :=
  match peer with
  | .summarizer => !Carries camera label
  | .gone => !(label matches .control (.request _))
  | .other => true

namespace Deployment

variable {F : Type u}

/-- One step of a camera. -/
def serve (s : Deployment F) (device : String) (label : Pipeline.Label) (peer : Peer) :
    Option (Deployment F) :=
  (Pipeline.step (s.cameras device) label).map fun camera =>
    { s with
      cameras := Function.update s.cameras device camera
      peers := Function.update s.peers device peer }

/-- The rest of the program once `send_control` has returned. -/
def returned (s : Deployment F) (answer : Answer) (rest : List (Effect F)) :
    Deployment F :=
  { s with todo := rest, exchange := .connecting, answers := s.answers ++ [answer] }

/-- The peer of a camera once the summarizer has closed its connection. -/
def closed (peer : Peer) : Peer :=
  if peer = .summarizer then .gone else peer

def step [FloatOps F] (config : Config) (s : Deployment F) :
    Turn F → Option (Deployment F)
  | .tick input =>
      match s.todo with
      | [] => (Summarizer.step config s.machine input).map fun (machine, effects) =>
          { s with machine, todo := effects, answers := [] }
      | _ :: _ => none
  | .camera device label =>
      if Foreign (s.peers device) (s.cameras device) label then
        s.serve device label
          (if label = .control .connected then .other else s.peers device)
      else none
  | .connect =>
      match s.todo, s.exchange with
      | .sendControl device _ :: _, .connecting =>
          (s.serve device (.control .connected) .summarizer).map fun s =>
            { s with exchange := .connected }
      | _, _ => none
  | .request =>
      match s.todo, s.exchange with
      | .sendControl device command :: _, .connected =>
          if s.peers device = .summarizer then
            (s.serve device (.control (.request (requestCommand (Json.bytesOf command))))
              .summarizer).map fun s => { s with exchange := .asked }
          else none
      | _, _ => none
  | .answer =>
      match s.todo, s.exchange with
      | .sendControl device command :: rest, .asked =>
          match s.peers device, (s.cameras device).control with
          | .summarizer, .reply _ response =>
              (s.serve device (.control .go) .gone).map fun s =>
                s.returned ⟨device, command, some response⟩ rest
          | _, _ => none
      | _, _ => none
  | .giveUp =>
      match s.todo with
      | .sendControl device command :: rest =>
          some ({ s with
              peers := Function.update s.peers device (closed (s.peers device)) }.returned
            ⟨device, command, none⟩ rest)
      | _ => none
  | .proceed =>
      match s.todo with
      | .writeSnapshot _ _ _ :: rest | .system _ :: rest => some { s with todo := rest }
      | _ => none

def system [FloatOps F] (config : Config) : System (Deployment F) (Turn F) where
  init := {}
  step := step config

/-! ## What one turn can do -/

/-- The effects of a turn, by what is left to do. -/
inductive Move (config : Config) (s : Deployment F) (turn : Turn F)
    (after : Deployment F) : Prop where
  | tick (idle : s.todo = [])
      (started : after.todo = [] ∨
        ∃ written agg, after.todo = llmCycle config written agg)
      (exchange : after.exchange = s.exchange)
      (cameras : after.cameras = s.cameras) (answers : after.answers = [])
  /-- a camera makes a step that is not the summarizer's -/
  | camera (device : String) (label : Pipeline.Label) (camera : Pipeline.State)
      (peer : Peer) (turned : turn = .camera device label)
      (taken : Pipeline.step (s.cameras device) label = some camera)
      (foreign : Foreign (s.peers device) (s.cameras device) label = true)
      (accepts : peer = if label = .control .connected then .other else s.peers device)
      (kept : after = { s with
        cameras := Function.update s.cameras device camera
        peers := Function.update s.peers device peer })
  | connect (device command : String) (rest : List (Effect F)) (camera : Pipeline.State)
      (next : s.todo = .sendControl device command :: rest)
      (taken : Pipeline.step (s.cameras device) (.control .connected) = some camera)
      (kept : after = { s with
        cameras := Function.update s.cameras device camera
        peers := Function.update s.peers device .summarizer
        exchange := .connected })
  | request (device command : String) (rest : List (Effect F)) (camera : Pipeline.State)
      (next : s.todo = .sendControl device command :: rest)
      (taken : Pipeline.step (s.cameras device)
        (.control (.request (requestCommand (Json.bytesOf command)))) = some camera)
      (kept : after = { s with
        cameras := Function.update s.cameras device camera
        peers := Function.update s.peers device .summarizer
        exchange := .asked })
  | answer (device command : String) (rest : List (Effect F)) (camera : Pipeline.State)
      (done : Pipeline.Command) (response : Pipeline.Response)
      (next : s.todo = .sendControl device command :: rest)
      (asked : s.exchange = .asked) (ours : s.peers device = .summarizer)
      (replying : (s.cameras device).control = .reply done response)
      (taken : Pipeline.step (s.cameras device) (.control .go) = some camera)
      (kept : after = { s with
        cameras := Function.update s.cameras device camera
        peers := Function.update s.peers device .gone
        todo := rest
        exchange := .connecting
        answers := s.answers ++ [⟨device, command, some response⟩] })
  | giveUp (device command : String) (rest : List (Effect F))
      (next : s.todo = .sendControl device command :: rest)
      (todo : after.todo = rest) (exchange : after.exchange = .connecting)
      (cameras : after.cameras = s.cameras)
      (answers : after.answers = s.answers ++ [⟨device, command, none⟩])
  | proceed (effect : Effect F) (rest : List (Effect F)) (next : s.todo = effect :: rest)
      (own : ∀ device command, effect ≠ .sendControl device command)
      (kept : after = { s with todo := rest })

theorem serve_eq_some {s after : Deployment F} {device : String}
    {label : Pipeline.Label} {peer : Peer} (taken : s.serve device label peer = some after) :
    ∃ camera, Pipeline.step (s.cameras device) label = some camera ∧
      after = { s with
        cameras := Function.update s.cameras device camera
        peers := Function.update s.peers device peer } := by
  rcases Option.map_eq_some_iff.mp taken with ⟨camera, stepped, rfl⟩
  exact ⟨camera, stepped, rfl⟩

/-- An LLM cycle is all that a tick ever asks for. -/
theorem effects_step [FloatOps F] {config : Config} {m machine : Machine F}
    {input : Input F} {effects : List (Effect F)}
    (taken : Summarizer.step config m input = some (machine, effects)) :
    effects = [] ∨ ∃ written agg, effects = llmCycle config written agg := by
  cases input with
  | connect accepted =>
      simp only [Summarizer.step] at taken
      split at taken
      · contradiction
      · cases taken
        exact Or.inl rfl
  | receive result t written =>
      simp only [Summarizer.step] at taken
      split at taken
      · split at taken
        next reached _ =>
          simp only [finish] at taken
          split at taken
          · cases taken
            exact Or.inr ⟨written, reached.agg, rfl⟩
          · cases taken
            exact Or.inl rfl
        · cases taken
          exact Or.inl rfl
      · contradiction

theorem step_move [FloatOps F] {config : Config} {s after : Deployment F} {turn : Turn F}
    (taken : s.step config turn = some after) : Move config s turn after := by
  cases turn with
  | tick input =>
      simp only [step] at taken
      split at taken
      next idle =>
        rcases Option.map_eq_some_iff.mp taken with ⟨⟨machine, effects⟩, stepped, rfl⟩
        exact .tick idle (effects_step stepped) rfl rfl rfl
      · contradiction
  | camera device label =>
      simp only [step] at taken
      split at taken
      next foreign =>
        rcases serve_eq_some taken with ⟨camera, stepped, rfl⟩
        exact .camera device label camera _ rfl stepped foreign rfl rfl
      · contradiction
  | connect =>
      simp only [step] at taken
      split at taken
      next device command rest next _ =>
        rcases Option.map_eq_some_iff.mp taken with ⟨_, served, rfl⟩
        rcases serve_eq_some served with ⟨camera, stepped, rfl⟩
        exact .connect device command rest camera next stepped rfl
      · contradiction
  | request =>
      simp only [step] at taken
      split at taken
      next device command rest next _ =>
        split at taken
        · rcases Option.map_eq_some_iff.mp taken with ⟨_, served, rfl⟩
          rcases serve_eq_some served with ⟨camera, stepped, rfl⟩
          exact .request device command rest camera next stepped rfl
        · contradiction
      · contradiction
  | answer =>
      simp only [step] at taken
      split at taken
      next device command rest next asked =>
        split at taken
        next done response ours replying =>
          rcases Option.map_eq_some_iff.mp taken with ⟨_, served, rfl⟩
          rcases serve_eq_some served with ⟨camera, stepped, rfl⟩
          exact .answer device command rest camera done response next asked ours replying
            stepped rfl
        · contradiction
      · contradiction
  | giveUp =>
      simp only [step] at taken
      split at taken
      next device command rest next =>
        cases taken
        exact .giveUp device command rest next rfl rfl rfl rfl
      · contradiction
  | proceed =>
      simp only [step] at taken
      split at taken
      next path device agg rest next =>
        cases taken
        exact .proceed _ rest next (by simp) rfl
      next command rest next =>
        cases taken
        exact .proceed _ rest next (by simp) rfl
      · contradiction

end Deployment

end KhadasYolo.Summarizer
