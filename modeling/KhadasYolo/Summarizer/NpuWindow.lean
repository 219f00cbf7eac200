import KhadasYolo.Summarizer.Deployment
import KhadasYolo.Summarizer.Episodes

/-!
# The NPU during the LLM cycle

Qwen is started after "blackout" has been sent to every camera and before "resume"
is. Although the program does not look at the answers, a camera that has answered ok
keeps off the NPU for the whole of the Qwen run, whatever the cameras, their other
clients and the connections do meanwhile, as long as no other client sends "resume"
and no camera has given up a resume.
-/

namespace KhadasYolo.Summarizer

open Ipc TransitionSystem

universe u

variable {F : Type u}

/-! ## The program of a cycle -/

def Effect.isSend : Effect F → Bool
  | .sendControl _ _ => true
  | .writeSnapshot _ _ _ | .system _ => false

def Answer.sent (answer : Answer) : String × String := (answer.device, answer.command)

/-- The cameras that an LLM cycle blacks out. -/
def Config.cameras (config : Config) : List String :=
  if config.useControl then config.device :: config.alsoDevices else []

theorem Config.broadcast_eq (config : Config) (command : String) :
    config.broadcast (F := F) command = config.cameras.map (.sendControl · command) := by
  cases control : config.useControl <;> simp [Config.broadcast, Config.cameras, control]

/-- What is left of a cycle after these answers. -/
inductive Stage (config : Config) (answers : List Answer) : List (Effect F) → Prop where
  | blackouts (devices : List String) (written : Bool) (agg : Aggregate F)
      (asked : answers.map Answer.sent ++ devices.map (·, blackoutCommand) =
        config.cameras.map (·, blackoutCommand)) :
      Stage config answers (devices.map (.sendControl · blackoutCommand) ++
        .writeSnapshot config.outPath config.device agg ::
          (config.runQwen written ++ config.broadcast resumeCommand))
  | qwen (command : String)
      (asked : answers.map Answer.sent = config.cameras.map (·, blackoutCommand)) :
      Stage config answers (.system command :: config.broadcast resumeCommand)
  | resumes (todo : List (Effect F)) (sends : ∀ effect ∈ todo, effect.isSend = true) :
      Stage config answers todo

namespace Stage

variable {config : Config} {answers : List Answer} {rest : List (Effect F)}

theorem start (written : Bool) (agg : Aggregate F) :
    Stage config [] (llmCycle config written agg) := by
  rw [llmCycle, Config.broadcast_eq config blackoutCommand]
  exact .blackouts config.cameras written agg rfl

theorem resuming : Stage config answers (config.broadcast (F := F) resumeCommand) := by
  refine .resumes _ fun effect member => ?_
  rw [Config.broadcast_eq] at member
  rcases List.mem_map.mp member with ⟨_, _, rfl⟩
  rfl

/-- Whatever is sent before the snapshot or the LLM is a blackout. -/
theorem blackout {device command : String}
    (stage : Stage config answers (.sendControl device command :: rest))
    (pending : rest.any (!·.isSend) = true) : command = blackoutCommand := by
  generalize todo : Effect.sendControl device command :: rest = effects at stage
  cases stage with
  | blackouts devices written agg asked =>
      cases devices <;> simp at todo
      exact todo.1.2
  | qwen command asked => cases todo
  | resumes effects sends =>
      subst todo
      rcases List.any_eq_true.mp pending with ⟨own, later, notSend⟩
      simp [sends own (List.mem_cons_of_mem _ later)] at notSend

theorem send {device command : String}
    (stage : Stage config answers (.sendControl device command :: rest))
    (response : Option Pipeline.Response) :
    Stage config (answers ++ [⟨device, command, response⟩]) rest := by
  generalize todo : Effect.sendControl device command :: rest = effects at stage
  cases stage with
  | blackouts devices written agg asked =>
      cases devices with
      | nil => simp at todo
      | cons first others =>
          simp only [List.map_cons, List.cons_append, List.cons.injEq,
            Effect.sendControl.injEq] at todo
          rcases todo with ⟨⟨rfl, rfl⟩, rfl⟩
          exact .blackouts others written agg (by simpa [Answer.sent] using asked)
  | qwen command asked => cases todo
  | resumes effects sends =>
      subst todo
      exact .resumes rest fun effect member => sends effect (List.mem_cons_of_mem _ member)

theorem proceed {effect : Effect F} (stage : Stage config answers (effect :: rest))
    (own : ∀ device command, effect ≠ .sendControl device command) :
    Stage config answers rest := by
  generalize todo : effect :: rest = effects at stage
  cases stage with
  | blackouts devices written agg asked =>
      cases devices with
      | nil =>
          cases todo
          rw [List.map_nil, List.append_nil] at asked
          rw [Config.runQwen]
          split
          · exact .qwen _ asked
          · exact resuming
      | cons first others =>
          cases todo
          exact absurd rfl (own _ _)
  | qwen command asked =>
      cases todo
      exact resuming
  | resumes effects sends =>
      subst todo
      exact .resumes rest fun effect member => sends effect (List.mem_cons_of_mem _ member)

/-- By the time the LLM runs, every camera has been sent its blackout. -/
theorem asked {command : String} (stage : Stage config answers (.system command :: rest)) :
    answers.map Answer.sent = config.cameras.map (·, blackoutCommand) := by
  generalize todo : Effect.system command :: rest = effects at stage
  cases stage with
  | blackouts devices written agg asked => cases devices <;> simp at todo
  | qwen command asked => exact asked
  | resumes effects sends =>
      subst todo
      cases sends _ List.mem_cons_self

end Stage

/-! ## Blackouts on their way -/

section Camera

open Pipeline (Handshake)

variable {s after : Pipeline.State} {label : Pipeline.Label}

/-- A "blackout" stays in progress until its response is sent. -/
theorem inBlackout_step (hand : Handshake s) (running : s.control.inBlackout = true)
    (silent : Carries s label = false) (taken : Pipeline.step s label = some after) :
    after.control.inBlackout = true := by
  cases label with
  | main input =>
      have alive : s.control.stopped = false := by
        cases located : s.control <;> simp_all
      rw [hand.control_main (Pipeline.mainStep_effect taken) alive, running]
  | worker i input => rw [(Pipeline.workerStep_frame taken).control, running]
  | control input =>
      simp only [Pipeline.step] at taken
      cases located : s.control with
      | blackoutRequest =>
          cases input <;> simp only [Pipeline.controlStep, located, reduceCtorEq] at taken
          cases taken
          rfl
      | wait command point =>
          cases command with
          | resume => simp [located] at running
          | blackout =>
              simp only [Pipeline.controlStep, located] at taken
              cases point <;> cases input <;>
                simp only [Pipeline.waitStep, reduceCtorEq] at taken
              case lock.go | asleep.wake =>
                rcases Pipeline.State.lock_map_eq_some taken with ⟨_, rfl⟩
                rfl
              case test.go expired =>
                cases taken
                cases Pipeline.WaitCommand.blackout.pred s.flags <;> cases expired <;> rfl
      | waited command response =>
          cases command with
          | resume => simp [located] at running
          | blackout =>
              cases input <;>
                simp only [Pipeline.controlStep, located, reduceCtorEq] at taken
              cases taken
              rfl
      | reply command response =>
          cases input <;> simp [Carries, located] at silent <;>
            simp [Pipeline.controlStep, located] at taken
      | _ => simp [located] at running

/-- An accepted connection and a received command leave no handler waiting. -/
theorem patient_of_client {input : Pipeline.ControlInput}
    (client : input = .connected ∨ ∃ command, input = .request command)
    (taken : Pipeline.step s (.control input) = some after) :
    Pipeline.PatientResume s (.control input) := by
  intro located
  rcases client with rfl | ⟨command, rfl⟩ <;>
    simp [Pipeline.step, Pipeline.controlStep, located, Pipeline.waitStep] at taken

/-- The dispatch of a "blackout". -/
theorem inBlackout_request
    (taken : Pipeline.step s (.control (.request .blackout)) = some after) :
    after.control.inBlackout = true := by
  cases located : s.control with
  | recv =>
      simp only [Pipeline.step, Pipeline.controlStep, located, Option.some.injEq] at taken
      rw [← taken]
      rfl
  | wait command point =>
      cases point <;>
        simp [Pipeline.step, Pipeline.controlStep, located, Pipeline.waitStep] at taken
  | _ => simp [Pipeline.step, Pipeline.controlStep, located] at taken

theorem blackoutOk_of_reply {command : Pipeline.Command}
    (running : s.control.inBlackout = true) (located : s.control = .reply command .ok) :
    s.control.blackoutOk = true := by
  cases command <;> simp_all

end Camera

theorem requestCommand_blackout :
    requestCommand (Json.bytesOf blackoutCommand) = .blackout := by
  decide

/-! ## The window -/

namespace Deployment

/-- The snapshot or the LLM is still to come. -/
def inWindow (s : Deployment F) : Bool := s.todo.any (!·.isSend)

/-- The turn is not a "resume" handler of a camera that gives up. -/
def Patient (s : Deployment F) : Turn F → Prop
  | .camera device label => Pipeline.PatientResume (s.cameras device) label
  | _ => True

/-- The turn is not a "resume" from another client while the window lasts. -/
def Undisturbed (s : Deployment F) : Turn F → Prop
  | .camera _ label => label = .control (.request .resume) → s.inWindow = false
  | _ => True

instance (s : Deployment F) : DecidablePred s.Patient
  | .camera _ _ => inferInstanceAs (Decidable (Pipeline.PatientResume _ _))
  | .tick _ | .connect | .request | .answer | .giveUp | .proceed =>
      inferInstanceAs (Decidable True)

instance (s : Deployment F) : DecidablePred s.Undisturbed
  | .camera _ _ => inferInstanceAs (Decidable (_ → _))
  | .tick _ | .connect | .request | .answer | .giveUp | .proceed =>
      inferInstanceAs (Decidable True)

/-- The turn is neither a "resume" handler that gives up nor another client's
"resume" in the window. -/
def KeepsCycle (s : Deployment F) (turn : Turn F) : Prop :=
  s.Patient turn ∧ s.Undisturbed turn

instance (s : Deployment F) : DecidablePred s.KeepsCycle :=
  fun _ => inferInstanceAs (Decidable (_ ∧ _))

/-- Where the cycle is, and what the cameras that have answered ok keep to. -/
structure InCycle (config : Config) (s : Deployment F) : Prop where
  cameras : ∀ device, Pipeline.system.ReachableUnder Pipeline.PatientResume
    (s.cameras device)
  stage : s.todo = [] ∨ Stage config s.answers s.todo
  settled : s.exchange ≠ .connecting →
    ∃ device command rest, s.todo = .sendControl device command :: rest
  asked : s.inWindow = true → s.exchange = .asked → ∀ device command rest,
    s.todo = .sendControl device command :: rest → s.peers device = .summarizer →
    (s.cameras device).control.inBlackout = true
  released : s.inWindow = true → ∀ device,
    ⟨device, blackoutCommand, some .ok⟩ ∈ s.answers →
      Pipeline.Released (s.cameras device)

namespace InCycle

variable {config : Config} {s after : Deployment F}

theorem initial [FloatOps F] : InCycle config (system (F := F) config).init := by
  constructor <;> simp [system, inWindow]
  exact System.ReachableUnder.init

/-- A step of one camera keeps the guarantees of all. -/
theorem cameras_update (inv : InCycle config s) {device : String}
    {label : Pipeline.Label} {camera : Pipeline.State}
    (patient : Pipeline.PatientResume (s.cameras device) label)
    (taken : Pipeline.step (s.cameras device) label = some camera) (other : String) :
    Pipeline.system.ReachableUnder Pipeline.PatientResume
      (Function.update s.cameras device camera other) := by
  by_cases same : other = device
  · subst same
    rw [Function.update_self]
    exact (inv.cameras other).step patient taken
  · rw [Function.update_of_ne same]
    exact inv.cameras other

/-- A step that dispatches no "resume" keeps the NPU released. -/
theorem released_update (inv : InCycle config s) {device : String}
    {label : Pipeline.Label} {camera : Pipeline.State}
    (other : label ≠ .control (.request .resume))
    (taken : Pipeline.step (s.cameras device) label = some camera) {target : String}
    (released : Pipeline.Released (s.cameras target)) :
    Pipeline.Released (Function.update s.cameras device camera target) := by
  by_cases same : target = device
  · subst same
    rw [Function.update_self]
    exact released.step (inv.cameras target) other taken
  · rwa [Function.update_of_ne same]

theorem camera (inv : InCycle config s) {device : String} {label : Pipeline.Label}
    {camera : Pipeline.State} {peer : Peer}
    (patient : Pipeline.PatientResume (s.cameras device) label)
    (undisturbed : label = .control (.request .resume) → s.inWindow = false)
    (taken : Pipeline.step (s.cameras device) label = some camera)
    (foreign : Foreign (s.peers device) (s.cameras device) label = true)
    (accepts : peer = if label = .control .connected then .other else s.peers device)
    (kept : after = { s with
      cameras := Function.update s.cameras device camera
      peers := Function.update s.peers device peer }) : InCycle config after := by
  subst kept
  constructor
  case cameras => exact inv.cameras_update patient taken
  case stage => exact inv.stage
  case settled => exact inv.settled
  case asked =>
    intro window asked target command rest next ours
    by_cases same : target = device
    · subst same
      simp only [Function.update_self] at ours ⊢
      rw [accepts] at ours
      split at ours
      · cases ours
      · have silent : Carries (s.cameras target) label = false := by
          simpa [Foreign, ours] using foreign
        exact inBlackout_step (Pipeline.reachable_handshake (inv.cameras target).reachable)
          (inv.asked window asked target command rest next ours) silent taken
    · simp only [Function.update_of_ne same] at ours ⊢
      exact inv.asked window asked target command rest next ours
  case released =>
    intro window target answered
    change s.inWindow = true at window
    refine inv.released_update (fun resumed => ?_) taken
      (inv.released window target answered)
    rw [undisturbed resumed] at window
    cases window

theorem connect (inv : InCycle config s) {device command : String}
    {rest : List (Effect F)} {camera : Pipeline.State}
    (next : s.todo = .sendControl device command :: rest)
    (taken : Pipeline.step (s.cameras device) (.control .connected) = some camera)
    (kept : after = { s with
      cameras := Function.update s.cameras device camera
      peers := Function.update s.peers device .summarizer
      exchange := .connected }) : InCycle config after := by
  subst kept
  constructor
  case cameras => exact inv.cameras_update (patient_of_client (Or.inl rfl) taken) taken
  case stage => exact inv.stage
  case settled => exact fun _ => ⟨device, command, rest, next⟩
  case asked => exact fun _ asked => by cases asked
  case released =>
    exact fun window target answered =>
      inv.released_update (by simp) taken (inv.released window target answered)

theorem request (inv : InCycle config s) {device command : String}
    {rest : List (Effect F)} {camera : Pipeline.State}
    (next : s.todo = .sendControl device command :: rest)
    (taken : Pipeline.step (s.cameras device)
      (.control (.request (requestCommand (Json.bytesOf command)))) = some camera)
    (kept : after = { s with
      cameras := Function.update s.cameras device camera
      peers := Function.update s.peers device .summarizer
      exchange := .asked }) : InCycle config after := by
  subst kept
  have sends : s.inWindow = true → requestCommand (Json.bytesOf command) = .blackout := by
    intro window
    rcases inv.stage with none | stage
    · rw [none] at next
      cases next
    · rw [next] at stage
      have pending : rest.any (!·.isSend) = true := by
        simpa [inWindow, next, Effect.isSend] using window
      rw [stage.blackout pending, requestCommand_blackout]
  constructor
  case cameras =>
    exact inv.cameras_update (patient_of_client (Or.inr ⟨_, rfl⟩) taken) taken
  case stage => exact inv.stage
  case settled => exact fun _ => ⟨device, command, rest, next⟩
  case asked =>
    intro window _ target command' rest' next' _
    simp only [next, List.cons.injEq, Effect.sendControl.injEq] at next'
    rcases next' with ⟨⟨rfl, _⟩, _⟩
    rw [sends window] at taken
    simpa using inBlackout_request taken
  case released =>
    intro window target answered
    refine inv.released_update ?_ taken (inv.released window target answered)
    rw [sends window]
    simp

theorem answer (inv : InCycle config s) {device command : String}
    {rest : List (Effect F)} {camera : Pipeline.State} {done : Pipeline.Command}
    {response : Pipeline.Response} (next : s.todo = .sendControl device command :: rest)
    (asked : s.exchange = .asked) (ours : s.peers device = .summarizer)
    (replying : (s.cameras device).control = .reply done response)
    (taken : Pipeline.step (s.cameras device) (.control .go) = some camera)
    (kept : after = { s with
      cameras := Function.update s.cameras device camera
      peers := Function.update s.peers device .gone
      todo := rest
      exchange := .connecting
      answers := s.answers ++ [⟨device, command, some response⟩] }) :
    InCycle config after := by
  subst kept
  have before : rest.any (!·.isSend) = true → s.inWindow = true := by
    intro window
    simpa [inWindow, next, Effect.isSend] using window
  constructor
  case cameras =>
    refine inv.cameras_update (fun located => ?_) taken
    rw [replying] at located
    cases located
  case stage =>
    rcases inv.stage with none | stage
    · rw [none] at next
      cases next
    · rw [next] at stage
      exact Or.inr (stage.send _)
  case settled => exact fun busy => absurd rfl busy
  case asked => exact fun _ asked => by cases asked
  case released =>
    intro window target answered
    have lasts := before window
    apply inv.released_update (by simp) taken
    rw [List.mem_append, List.mem_singleton] at answered
    rcases answered with earlier | now
    · exact inv.released lasts target earlier
    · cases now
      have running := inv.asked lasts asked _ _ rest next ours
      exact .of_ok (inv.cameras _) (blackoutOk_of_reply running replying)

theorem giveUp (inv : InCycle config s) {device command : String}
    {rest : List (Effect F)} (next : s.todo = .sendControl device command :: rest)
    (todo : after.todo = rest) (exchange : after.exchange = .connecting)
    (cameras : after.cameras = s.cameras)
    (answers : after.answers = s.answers ++ [⟨device, command, none⟩]) :
    InCycle config after := by
  constructor
  case cameras => exact cameras ▸ inv.cameras
  case stage =>
    rcases inv.stage with none | stage
    · rw [none] at next
      cases next
    · rw [next] at stage
      rw [todo, answers]
      exact Or.inr (stage.send none)
  case settled => exact fun busy => absurd exchange busy
  case asked =>
    intro _ asked
    rw [exchange] at asked
    cases asked
  case released =>
    intro window target answered
    rw [answers, List.mem_append, List.mem_singleton] at answered
    rw [cameras]
    refine inv.released ?_ target (answered.resolve_right (by simp))
    simpa [inWindow, next, todo, Effect.isSend] using window

theorem proceed (inv : InCycle config s) {effect : Effect F} {rest : List (Effect F)}
    (next : s.todo = effect :: rest)
    (own : ∀ device command, effect ≠ .sendControl device command)
    (kept : after = { s with todo := rest }) : InCycle config after := by
  subst kept
  have connecting : s.exchange = .connecting := by
    by_contra busy
    rcases inv.settled busy with ⟨device, command, others, sending⟩
    rw [next] at sending
    cases sending
    exact own device command rfl
  constructor
  case cameras => exact inv.cameras
  case stage =>
    rcases inv.stage with none | stage
    · rw [none] at next
      cases next
    · rw [next] at stage
      exact Or.inr (stage.proceed own)
  case settled => exact fun busy => absurd connecting busy
  case asked =>
    intro _ asked
    rw [show s.exchange = .asked from asked] at connecting
    cases connecting
  case released =>
    intro window
    apply inv.released
    simpa [inWindow, next] using Or.inr (List.any_eq_true.mp window)

theorem tick (inv : InCycle config s) (idle : s.todo = [])
    (started : after.todo = [] ∨
      ∃ written agg, after.todo = llmCycle config written agg)
    (exchange : after.exchange = s.exchange) (cameras : after.cameras = s.cameras)
    (answers : after.answers = []) : InCycle config after := by
  have connecting : after.exchange = .connecting := by
    rw [exchange]
    by_contra busy
    rcases inv.settled busy with ⟨device, command, rest, sending⟩
    rw [idle] at sending
    cases sending
  constructor
  case cameras => exact cameras ▸ inv.cameras
  case stage =>
    refine started.imp id ?_
    rintro ⟨written, agg, started⟩
    rw [started, answers]
    exact Stage.start written agg
  case settled => exact fun busy => absurd connecting busy
  case asked =>
    intro _ asked
    rw [connecting] at asked
    cases asked
  case released =>
    intro _ target answered
    rw [answers] at answered
    cases answered

/-- Every turn keeps the cycle's guarantees. -/
theorem turn {turn : Turn F} (inv : InCycle config s) (keeps : s.KeepsCycle turn)
    (move : Move config s turn after) : InCycle config after := by
  cases move with
  | tick idle started exchange cameras answers =>
      exact inv.tick idle started exchange cameras answers
  | camera device label camera peer turned taken foreign accepts kept =>
      subst turned
      exact inv.camera keeps.1 keeps.2 taken foreign accepts kept
  | connect device command rest camera next taken kept =>
      exact inv.connect next taken kept
  | request device command rest camera next taken kept =>
      exact inv.request next taken kept
  | answer device command rest camera done response next asked ours replying taken kept =>
      exact inv.answer next asked ours replying taken kept
  | giveUp device command rest next todo exchange cameras answers =>
      exact inv.giveUp next todo exchange cameras answers
  | proceed effect rest next own kept => exact inv.proceed next own kept

end InCycle

variable [FloatOps F] {config : Config} {s : Deployment F}

theorem reachable_inCycle (reach : (system config).ReachableUnder KeepsCycle s) :
    InCycle config s :=
  System.ReachableUnder.invariant (InCycle config) InCycle.initial
    (fun _ _ _ _ inv keeps taken => inv.turn keeps (step_move taken)) reach

/-- The window of the LLM: every camera has been sent its blackout, and those that
have answered ok keep off the NPU. -/
structure LlmWindow (config : Config) (s : Deployment F) : Prop where
  asked : ∀ device ∈ config.cameras, ∃ response,
    ⟨device, blackoutCommand, response⟩ ∈ s.answers
  free : ∀ device, ⟨device, blackoutCommand, some .ok⟩ ∈ s.answers →
    Pipeline.NpuFree (s.cameras device)
  whole : (∀ answer ∈ s.answers, answer.response = some .ok) →
    ∀ device ∈ config.cameras, Pipeline.NpuFree (s.cameras device)

/-- Whenever the LLM runs, the cameras that have acknowledged their blackout in this
cycle leave the NPU to it, in every run in which no camera's "resume" handler gives up
and no other client sends "resume" in the window. -/
theorem npu_free_during_llm (reach : (system config).ReachableUnder KeepsCycle s)
    {command : String} {rest : List (Effect F)}
    (running : s.todo = .system command :: rest) : LlmWindow config s := by
  have inv := reachable_inCycle reach
  have window : s.inWindow = true := by simp [inWindow, running, Effect.isSend]
  have sent : s.answers.map Answer.sent = config.cameras.map (·, blackoutCommand) := by
    rcases inv.stage with none | stage
    · rw [none] at running
      cases running
    · rw [running] at stage
      exact stage.asked
  have asked : ∀ device ∈ config.cameras, ∃ response,
      (⟨device, blackoutCommand, response⟩ : Answer) ∈ s.answers := by
    intro device member
    have pair : (device, blackoutCommand) ∈ s.answers.map Answer.sent := by
      rw [sent]
      exact List.mem_map_of_mem member
    rcases List.mem_map.mp pair with ⟨⟨device', command', response⟩, answered, same⟩
    cases same
    exact ⟨response, answered⟩
  have free : ∀ device, (⟨device, blackoutCommand, some .ok⟩ : Answer) ∈ s.answers →
      Pipeline.NpuFree (s.cameras device) := fun device answered =>
    (inv.released window device answered).npuFree (inv.cameras device)
  refine ⟨asked, free, fun acknowledged device member => ?_⟩
  rcases asked device member with ⟨response, answered⟩
  apply free
  have ok : response = some .ok := acknowledged _ answered
  exact ok ▸ answered

/-! ## A cycle over two cameras -/

namespace Schedule

open Summarizer.Schedule (visit)

/-- Two cameras and an LLM. -/
def pair : Config := { Config.ofDevice "33" with qwenCmd := "qwen", alsoDevices := ["51"] }

/-- The steps of one camera. -/
def own (device : String) (labels : List Pipeline.Label) : List (Turn Float32) :=
  labels.map (.camera device)

/-- A `send_control` of the blackout, from the connection to the answer. -/
def blackout (device : String) : List (Turn Float32) :=
  own device (Pipeline.Schedule.control 1) ++ .connect ::
    own device (Pipeline.Schedule.control 1) ++ .request ::
    own device (Pipeline.Schedule.control 1 ++ Pipeline.Schedule.enterBlackout ++
      Pipeline.Schedule.control 3) ++ [.answer]

/-- Both cameras start, a drone comes and goes, and both are blacked out. -/
def cycle : List (Turn Float32) :=
  own "33" Pipeline.Schedule.boot ++ own "51" Pipeline.Schedule.boot ++
    visit.map .tick ++ blackout "33" ++ blackout "51" ++ [.proceed]

end Schedule

/-- Both cameras answer ok, and Qwen starts. -/
theorem npu_free_during_llm_pair :
    ∃ (s : Deployment Float32) (command : String) (rest : List (Effect Float32)),
      (system Schedule.pair).ReachableUnder KeepsCycle s ∧
      s.todo = .system command :: rest ∧
      (∀ answer ∈ s.answers, answer.response = some .ok) ∧ LlmWindow Schedule.pair s := by
  obtain ⟨s, reach, running⟩ := System.reaches_of_replay (system Schedule.pair) KeepsCycle
    Schedule.cycle
    (fun s => (match s.todo with
        | .system _ :: _ => true
        | [] | .sendControl _ _ :: _ | .writeSnapshot _ _ _ :: _ => false) &&
      s.answers.all (·.response = some .ok)) (by decide)
  rw [Bool.and_eq_true, List.all_eq_true] at running
  simp only [decide_eq_true_eq] at running
  rcases running with ⟨running, acknowledged⟩
  cases located : s.todo with
  | nil => rw [located] at running; cases running
  | cons effect rest =>
      rw [located] at running
      cases effect with
      | system command =>
          exact ⟨s, command, rest, reach, located, acknowledged,
            npu_free_during_llm reach located⟩
      | sendControl | writeSnapshot => cases running

end Deployment

end KhadasYolo.Summarizer
