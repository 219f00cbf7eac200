import KhadasYolo.Pipeline.Handshake

/-!
# Blackout and resume requests

Whether a request reaches the main thread, and whether a request that the main
thread acts on was made for the blackout it is in.  The control thread serves
one command at a time, so while a "resume" is running no new blackout can be
entered; `ResumeRun` records this together with what "resume" may conclude from
`resume_done`.
-/

namespace KhadasYolo.Pipeline

open TransitionSystem

/-! ## Schedules -/

namespace Schedule

def main (steps : Nat) : List Label := List.replicate steps (.main {})

def control (steps : Nat) : List Label := List.replicate steps (.control .go)

def request (command : Command) : List Label := [.control (.request command)]

/-- Startup and pre-fill, up to the first test of the main loop. -/
def boot : List Label := main 17

/-- A client connects and the control thread waits for its command. -/
def connect : List Label := .control .go :: .control .connected :: control 1

/-- Each inference thread in turn makes `steps` steps. -/
def workers (steps : Nat) : List Label :=
  (List.finRange nThreads).flatMap fun i => List.replicate steps (.worker i {})

/-- Each inference thread passes one job through without running the NPU. -/
def pausedJobs : List Label := workers 3

/-- Each inference thread runs one job on the NPU. -/
def npuJobs : List Label := workers 7

/-- From the top of the main loop through the blackout branch to the idle loop,
three results having arrived. -/
def enterBlackout : List Label := pausedJobs ++ main 22

/-- From a handler's `wait_for` on a condition that holds to the next `recv`. -/
def answer : List Label := control 5

/-- A handler's `wait_for` whose predicate is false and whose timeout fires. -/
def expire : List Label := control 2 ++ .control (.wake true) :: control 1

/-- A "blackout" that succeeds. -/
def blackout : List Label :=
  request .blackout ++ control 1 ++ enterBlackout ++ answer

/-- From the idle loop to the end of the resume handshake's critical section,
`resume_requested` being set. -/
def publishResume : List Label := main 14

/-- From there to the top of the main loop, the pipeline refilled. -/
def refill : List Label := main 11

/-- From the first step of teardown to the sentinels, the response to "shutdown"
being sent in the meantime. -/
def stop : List Label := main 2 ++ control 3 ++ main 5

/-- The inference threads take their sentinels and are joined; the camera, the
output and the pool are closed. -/
def join : List Label := workers 1 ++ main 6

/-- The last loop of `main`. -/
def destroyContexts : List Label := main 3

end Schedule

/-! ## While a "resume" is running -/

/-- What holds while the control thread is in a "resume" that has found
`blackout_active` set: the main thread cannot enter another blackout, and
`resume_done` can only come from the current one. -/
structure ResumeRun (s : State) : Prop where
  notEntering : s.control.inResume = true → s.pc.entering = false
  quiet : s.control.inResume = true → s.pc.serving = false →
    s.pc.stopping = true ∨ s.flags.blackoutRequested = false
  dispatched : s.control.inResume = true → s.history.resumeDispatched = true
  enabling : s.control.inResume = true → s.pc = .resume .setDone →
    s.flags.inferenceEnabled = true
  enabled : s.control.inResume = true → s.flags.resumeDone = true →
    s.flags.inferenceEnabled = true
  done : s.control.resumeOk = true → s.flags.resumeDone = true
  current : s.flags.resumeDone = true → s.history.doneOf = s.history.blackouts

namespace ResumeRun

theorem initial : ResumeRun system.init := by
  constructor <;> simp [system]

section Main

variable {s after : State}

theorem inResume_main (effect : MainEffect s after)
    (running : after.control.inResume = true) : s.control.inResume = true := by
  rcases effect.control with same | ⟨_, listening⟩
  · rwa [same] at running
  · simp [listening] at running

/-- While a "resume" runs, the main thread neither resets nor re-announces. -/
theorem not_entry (run : ResumeRun s) (running : s.control.inResume = true)
    {point : EntryPc} (before : point ≠ .activeUnlock) :
    s.pc ≠ .entry point := by
  intro located
  have outside := run.notEntering running
  cases point <;> simp_all

theorem notEntering_main (run : ResumeRun s) (effect : MainEffect s after)
    (running : s.control.inResume = true) : after.pc.entering = false := by
  cases entering : after.pc.entering with
  | false => rfl
  | true =>
      rcases effect.entering entering with before | ⟨located, wanted⟩
      · rw [run.notEntering running] at before
        cases before
      · rcases run.quiet running (by simp [located]) with stop | cleared
        · simp [located] at stop
        · simp [cleared] at wanted

theorem quiet_main (run : ResumeRun s) (effect : MainEffect s after)
    (running : s.control.inResume = true) (served : after.pc.serving = false) :
    after.pc.stopping = true ∨ after.flags.blackoutRequested = false := by
  rw [effect.blackoutRequested]
  rcases effect.served served with before | clearing | stop
  · rcases run.quiet running before with stop | cleared
    · exact Or.inl (effect.stopping stop)
    · simp [cleared]
  · simp [clearing]
  · exact Or.inl stop

theorem enabled_main (run : ResumeRun s) (effect : MainEffect s after)
    (running : s.control.inResume = true)
    (done : after.flags.resumeDone = true) :
    after.flags.inferenceEnabled = true := by
  rw [effect.inferenceEnabled]
  rw [effect.resumeDone] at done
  split at done
  next located => simp [located, run.enabling running located]
  next =>
    split at done
    · cases done
    · simp [run.enabled running done]

theorem current_main (inv : Handshake s) (run : ResumeRun s)
    (effect : MainEffect s after) (done : after.flags.resumeDone = true) :
    after.history.doneOf = after.history.blackouts := by
  rw [effect.doneOf, effect.blackouts]
  rw [effect.resumeDone] at done
  split at done
  next located => simp [located]
  next notSetting =>
    split at done
    · cases done
    · have notAnnouncing : s.pc ≠ .entry .activeStore := by
        intro located
        have cleared := inv.doneCleared (by simp [located])
        simp [done] at cleared
      simpa [notSetting, notAnnouncing] using run.current done

theorem main (inv : Handshake s) (run : ResumeRun s)
    (effect : MainEffect s after) : ResumeRun after where
  notEntering running := run.notEntering_main effect (inResume_main effect running)
  quiet running := run.quiet_main effect (inResume_main effect running)
  dispatched running := by
    have before := inResume_main effect running
    rw [effect.resumeDispatched, if_neg (run.not_entry before (by simp))]
    exact run.dispatched before
  enabling _ setting := by
    rw [effect.inferenceEnabled, if_pos (effect.settingDone setting)]
  enabled running := run.enabled_main effect (inResume_main effect running)
  done returned := by
    have before : s.control.resumeOk = true := by
      rcases effect.control with same | ⟨_, listening⟩
      · rwa [same] at returned
      · simp [listening] at returned
    have running := ControlPc.inResume_of_resumeOk before
    rw [effect.resumeDone, if_neg (run.not_entry running (by simp))]
    simp [run.done before]
  current := run.current_main inv effect

end Main

/-- The control thread starts a "resume" only while `blackout_active` is set. -/
theorem control {s after : State} (inv : Handshake s) (run : ResumeRun s)
    (effect : ControlEffect s after) : ResumeRun after := by
  have started : after.control.inResume = true →
      s.control.inResume = true ∨ s.pc.stopping = true ∨
        s.pc.announced = true := by
    intro running
    refine (effect.inResume running).imp id ?_
    rintro ⟨active, _⟩
    cases stop : s.pc.stopping with
    | true => exact Or.inl rfl
    | false => exact Or.inr (inv.active stop ▸ active)
  have notReceiving : s.control.inResume = true → s.control ≠ .recv := by
    intro running receiving
    simp [receiving] at running
  constructor
  case notEntering =>
    intro running
    rw [effect.pc]
    rcases started running with before | stop | announced
    · exact run.notEntering before
    · cases located : s.pc <;> simp_all
    · exact (MainPc.serving_of_announced announced).2
  case quiet =>
    intro running served
    rw [effect.pc] at served ⊢
    rcases started running with before | stop | announced
    · refine (run.quiet before served).imp id fun cleared => ?_
      rw [effect.blackoutRequested, if_neg, cleared]
      intro located
      simp [located] at before
    · exact Or.inl stop
    · rw [(MainPc.serving_of_announced announced).1] at served
      cases served
  case dispatched =>
    intro running
    rcases effect.inResume running with before | ⟨_, recorded⟩
    · exact effect.resumeDispatched (run.dispatched before)
    · exact recorded
  case enabling =>
    intro running setting
    rw [effect.pc] at setting
    rcases started running with before | stop | announced
    · rw [effect.inferenceEnabled (notReceiving before)]
      exact run.enabling before setting
    · simp [setting] at stop
    · simp [setting] at announced
  case enabled =>
    intro running done
    rw [effect.resumeDone] at done
    rcases effect.inResume running with before | ⟨active, _⟩
    · rw [effect.inferenceEnabled (notReceiving before)]
      exact run.enabled before done
    · simp [inv.active_of_done done] at active
  case done =>
    intro returned
    rw [effect.resumeDone]
    exact (effect.resumeOk returned).elim run.done id
  case current =>
    rw [effect.resumeDone, effect.history]
    exact run.current

theorem worker {s after : State} (run : ResumeRun s)
    (frame : WorkerFrame s after) : ResumeRun after := by
  rcases run with ⟨notEntering, quiet, dispatched, enabling, enabled, done, current⟩
  constructor <;>
    simp only [frame.pc, frame.control, frame.flags, frame.resumeDispatched,
      frame.doneOf, frame.blackouts] <;> assumption

theorem step {s after : State} {label : Label} (inv : Handshake s)
    (run : ResumeRun s) (taken : Pipeline.step s label = some after) :
    ResumeRun after := by
  cases label with
  | main input => exact run.main inv (mainStep_effect taken)
  | control input => exact run.control inv (controlStep_effect taken)
  | worker i input => exact run.worker (workerStep_frame taken)

end ResumeRun

theorem reachable_resumeRun {s : State} (reach : system.Reachable s) :
    ResumeRun s :=
  System.ReachableUnder.invariant ResumeRun ResumeRun.initial
    (fun _ _ _ earlier run _ taken =>
      run.step (reachable_handshake earlier) taken) reach

/-! ## No blackout request is lost -/

/-- While "blackout" waits, its request is still set, or the main thread is in
the blackout branch on its way to `blackout_active`, or has set it. -/
def BlackoutServed (s : State) : Prop :=
  s.control.waitingBlackout = true →
    s.flags.blackoutRequested = true ∨ s.pc.entering = true ∨
      s.flags.blackoutActive = true

/-- The step is not the main thread's clear of `blackout_requested` at a moment
when "blackout" is waiting. -/
def SparesRequest (s : State) (label : Label) : Prop :=
  match label with
  | .main _ => s.pc = .resume .clearBlackout → s.control.waitingBlackout = false
  | _ => True

instance (s : State) : DecidablePred (SparesRequest s)
  | .main _ => inferInstanceAs (Decidable (_ → _))
  | .control _ | .worker _ _ => inferInstanceAs (Decidable True)

/-- A waiting "blackout" finds its own request set as long as the clear that
ends a resume never falls into a wait. -/
theorem requested_of_spares {s : State}
    (reach : system.ReachableUnder SparesRequest s) :
    s.control.waitingBlackout = true → s.flags.blackoutRequested = true := by
  refine System.ReachableUnder.invariant
    (fun s => s.control.waitingBlackout = true →
      s.flags.blackoutRequested = true) ?_ ?_ reach
  · simp [system]
  · intro s label after _ kept spares taken waiting
    cases label with
    | main input =>
        have effect := mainStep_effect taken
        have before : s.control.waitingBlackout = true := by
          rcases effect.control with same | ⟨_, listening⟩
          · rwa [same] at waiting
          · simp [listening] at waiting
        rw [effect.blackoutRequested, if_neg, kept before]
        intro clearing
        rw [spares clearing] at before
        cases before
    | control input =>
        have effect := controlStep_effect taken
        rw [effect.blackoutRequested]
        split
        · rfl
        next notStoring =>
          exact kept ((effect.waitingBlackout waiting).resolve_right notStoring)
    | worker i input =>
        have frame := workerStep_frame taken
        rw [frame.flags]
        exact kept (frame.control ▸ waiting)

/-- The step that the guard excludes loses the request at once. -/
theorem lost_of_not_spares {s after : State} {label : Label}
    (reach : system.Reachable s) (taken : step s label = some after)
    (clears : ¬SparesRequest s label) : ¬BlackoutServed after := by
  cases label with
  | control input => exact absurd True.intro clears
  | worker i input => exact absurd True.intro clears
  | main input =>
      simp only [SparesRequest, Classical.not_imp, Bool.not_eq_false] at clears
      rcases clears with ⟨located, waiting⟩
      have inactive := (reachable_handshake reach).active (by simp [located])
      simp only [step, mainStep, located, resumeStep, Option.some.injEq] at taken
      subst taken
      simp_all [BlackoutServed]

/-- No blackout request is lost in a run exactly as long as the main thread
does not clear `blackout_requested` under a waiting "blackout". -/
theorem blackout_request_kept (s : State) :
    (system.ReachableUnder SparesRequest s → BlackoutServed s) ∧
    (∀ label after, system.Reachable s → step s label = some after →
      ¬SparesRequest s label → ¬BlackoutServed after) :=
  ⟨fun reach waiting => Or.inl (requested_of_spares reach waiting),
    fun _ _ reach taken clears => lost_of_not_spares reach taken clears⟩

/-- A first "blackout" waits with its request set. -/
theorem blackout_request_kept_once :
    ∃ s, system.ReachableUnder SparesRequest s ∧
      s.control.waitingBlackout = true ∧ BlackoutServed s := by
  obtain ⟨s, reach, waiting⟩ := System.reaches_of_replay system SparesRequest
    (Schedule.boot ++ Schedule.connect ++ Schedule.request .blackout ++
      Schedule.control 1)
    (fun s => s.control.waitingBlackout) (by decide)
  exact ⟨s, reach, waiting, (blackout_request_kept s).1 reach⟩

/-- A "blackout" sent right after a "resume" was answered ok stores its request
before the main thread's clear, which then erases it. -/
def lostRequest : List Label :=
  Schedule.boot ++ Schedule.connect ++ Schedule.blackout ++
    Schedule.request .resume ++ Schedule.control 1 ++ Schedule.publishResume ++
    Schedule.answer ++ Schedule.request .blackout ++ Schedule.control 1 ++
    Schedule.main 1

theorem blackout_request_lost :
    ¬∀ s, system.Reachable s → BlackoutServed s := by
  intro served
  obtain ⟨s, reach, lost⟩ := System.reaches_of_replay system
    System.unrestricted lostRequest
    (fun s => s.control.waitingBlackout && !s.flags.blackoutRequested &&
      !s.pc.entering && !s.flags.blackoutActive) (by decide)
  simp only [Bool.and_eq_true, Bool.not_eq_true'] at lost
  rcases lost with ⟨⟨⟨waiting, unrequested⟩, outside⟩, inactive⟩
  rcases served s reach waiting with requested | entering | active
  · rw [unrequested] at requested
    cases requested
  · rw [outside] at entering
    cases entering
  · rw [inactive] at active
    cases active

/-! ## No stale resume -/

/-- Whenever the main thread has left the idle loop without a shutdown, a
"resume" was dispatched after this blackout became active. -/
def ResumeFollowsBlackout (s : State) : Prop :=
  s.pc = .resume .initContext → s.history.resumeDispatched = true

/-- The step is not a store of `resume_requested` that comes after the main
thread's clear for the blackout the "resume" was dispatched in. -/
def StoresInTime (s : State) (label : Label) : Prop :=
  match label with
  | .control _ => s.control = .resumeRequest →
      s.pc.announced = true ∨ s.pc.publishing = true ∨
        s.pc.stopping = true ∨ s.flags.shutdownRequested = true
  | _ => True

instance (s : State) : DecidablePred (StoresInTime s)
  | .control _ => inferInstanceAs (Decidable (_ → _))
  | .main _ | .worker _ _ => inferInstanceAs (Decidable True)

/-- A set `resume_requested` belongs to the blackout in progress, or the main
thread is about to clear it, or it will never be acted on. -/
structure FreshResume (s : State) : Prop where
  pending : s.flags.resumeRequested = true →
    s.flags.shutdownRequested = true ∨ s.pc.stopping = true ∨
      s.pc.publishing = true ∨
      s.pc.announced = true ∧ s.history.resumeDispatched = true
  seen : s.pc.resuming = true → s.pc.announced = true →
    s.history.resumeDispatched = true

namespace FreshResume

theorem initial : FreshResume system.init := by
  constructor <;> simp [system]

theorem pending_main {s after : State} (fresh : FreshResume s)
    (effect : MainEffect s after)
    (requested : after.flags.resumeRequested = true) :
    after.flags.shutdownRequested = true ∨ after.pc.stopping = true ∨
      after.pc.publishing = true ∨
      after.pc.announced = true ∧ after.history.resumeDispatched = true := by
  rw [effect.resumeRequested] at requested
  split at requested
  · cases requested
  next notClearing =>
    rcases fresh.pending requested with
      shutdown | stop | publishing | ⟨announced, dispatched⟩
    · exact Or.inl (effect.shutdownRequested shutdown)
    · exact Or.inr (Or.inl (effect.stopping stop))
    · exact Or.inr (Or.inr (Or.inl
        ((effect.published publishing).resolve_right notClearing)))
    · by_cases retracting : s.pc = .resume .clearActive
      · exact Or.inr (Or.inr (Or.inl (effect.retracted retracting)))
      · cases stop : after.pc.stopping with
        | true => exact Or.inr (Or.inl rfl)
        | false =>
            have notStoring : s.pc ≠ .entry .activeStore := by
              intro located
              simp [located] at announced
            rw [effect.announced stop, if_neg notStoring, if_neg retracting,
              effect.resumeDispatched, if_neg notStoring]
            exact Or.inr (Or.inr (Or.inr ⟨announced, dispatched⟩))

theorem seen_main {s after : State} (inv : Handshake s) (fresh : FreshResume s)
    (effect : MainEffect s after) (resuming : after.pc.resuming = true)
    (announced : after.pc.announced = true) :
    after.history.resumeDispatched = true := by
  rw [effect.announced (MainPc.running_of_announced announced)] at announced
  rw [effect.resumeDispatched]
  rcases effect.resuming resuming with ⟨before, _⟩ | ⟨located, noShutdown⟩
  · have notStoring : s.pc ≠ .entry .activeStore := by
      intro located
      simp [located] at before
    rw [if_neg notStoring] at announced ⊢
    split at announced
    · cases announced
    · exact fresh.seen before announced
  · have requested : s.flags.resumeRequested = true := by
      simpa [noShutdown] using inv.leaving located
    simpa [located, noShutdown] using fresh.pending requested

theorem control {s after : State} {input : ControlInput} (run : ResumeRun s)
    (fresh : FreshResume s) (inTime : StoresInTime s (.control input))
    (effect : ControlEffect s after) : FreshResume after := by
  constructor <;> rw [effect.pc]
  case pending =>
    intro requested
    rw [effect.resumeRequested] at requested
    split at requested
    next storing =>
      have dispatched := effect.resumeDispatched
        (run.dispatched (by simp [storing]))
      rcases inTime storing with announced | publishing | stop | shutdown
      · exact Or.inr (Or.inr (Or.inr ⟨announced, dispatched⟩))
      · exact Or.inr (Or.inr (Or.inl publishing))
      · exact Or.inr (Or.inl stop)
      · exact Or.inl (effect.shutdownRequested shutdown)
    next =>
      rcases fresh.pending requested with
        shutdown | stop | publishing | ⟨announced, dispatched⟩
      · exact Or.inl (effect.shutdownRequested shutdown)
      · exact Or.inr (Or.inl stop)
      · exact Or.inr (Or.inr (Or.inl publishing))
      · exact Or.inr (Or.inr (Or.inr
          ⟨announced, effect.resumeDispatched dispatched⟩))
  case seen =>
    intro resuming announced
    exact effect.resumeDispatched (fresh.seen resuming announced)

theorem worker {s after : State} (fresh : FreshResume s)
    (frame : WorkerFrame s after) : FreshResume after := by
  rcases fresh with ⟨pending, seen⟩
  constructor <;> simp only [frame.pc, frame.flags, frame.resumeDispatched] <;>
    assumption

end FreshResume

theorem reachable_freshResume {s : State}
    (reach : system.ReachableUnder StoresInTime s) : FreshResume s := by
  refine System.ReachableUnder.invariant FreshResume
    FreshResume.initial ?_ reach
  intro s label after earlier fresh inTime taken
  cases label with
  | main input =>
      have effect := mainStep_effect taken
      have inv := reachable_handshake earlier.reachable
      exact ⟨fresh.pending_main effect, fresh.seen_main inv effect⟩
  | control input =>
      exact fresh.control (reachable_resumeRun earlier.reachable) inTime
        (controlStep_effect taken)
  | worker i input => exact fresh.worker (workerStep_frame taken)

/-- As long as every "resume" stores its request before the main thread's clear
for the same blackout, the idle loop ends only for a "resume" of that blackout. -/
theorem resume_follows_blackout {s : State}
    (reach : system.ReachableUnder StoresInTime s) : ResumeFollowsBlackout s :=
  fun located => (reachable_freshResume reach).seen (by simp [located])
    (by simp [located])

/-- One blackout and one resume in good time reach the resume path. -/
theorem resume_follows_blackout_once :
    ∃ s, system.ReachableUnder StoresInTime s ∧ s.pc = .resume .initContext ∧
      ResumeFollowsBlackout s := by
  obtain ⟨s, reach, located⟩ := System.reaches_of_replay system StoresInTime
    (Schedule.boot ++ Schedule.connect ++ Schedule.blackout ++
      Schedule.request .resume ++ Schedule.control 1 ++ Schedule.main 2)
    (fun s => s.pc = .resume .initContext) (by decide)
  exact ⟨s, reach, by simpa using located, resume_follows_blackout reach⟩

/-- A "resume" times out while the main thread re-initialises; a second one is
dispatched, and its store comes after the main thread's clears.  The next
blackout finds `resume_requested` set. -/
def staleResume : List Label :=
  Schedule.boot ++ Schedule.connect ++ Schedule.blackout ++
    Schedule.request .resume ++ Schedule.control 1 ++ Schedule.expire ++
    Schedule.control 3 ++ Schedule.request .resume ++
    Schedule.publishResume ++ Schedule.main 2 ++ Schedule.control 1 ++
    Schedule.answer ++ Schedule.request .blackout ++ Schedule.control 1 ++
    Schedule.main 9 ++ Schedule.enterBlackout ++ Schedule.main 2

theorem stale_resume_ends_blackout :
    ¬∀ s, system.Reachable s → ResumeFollowsBlackout s := by
  intro follows
  obtain ⟨s, reach, stale⟩ := System.reaches_of_replay system
    System.unrestricted staleResume
    (fun s => s.pc = .resume .initContext &&
      !s.history.resumeDispatched) (by decide)
  simp only [Bool.and_eq_true, decide_eq_true_eq, Bool.not_eq_true'] at stale
  have dispatched := follows s reach stale.1
  simp [stale.2] at dispatched

/-! ## A failed blackout -/

/-- The control thread is inside "blackout", its response not yet decided. -/
def DuringBlackout (s : State) (_ : Label) : Prop :=
  s.control = .blackoutRequest ∨ s.control.waitingBlackout = true

/-- The step is not the main thread's step at `point`. -/
def MainAvoids (point : ResumePc) (s : State) (label : Label) : Prop :=
  match label with
  | .main _ => s.pc ≠ .resume point
  | _ => True

/-- No further "blackout" is dispatched. -/
def NoBlackout (_ : State) (label : Label) : Prop :=
  label ≠ .control (.request .blackout)

instance (s : State) (label : Label) : Decidable (DuringBlackout s label) :=
  inferInstanceAs (Decidable (_ ∨ _))

instance (s : State) (label : Label) : Decidable (NoBlackout s label) :=
  inferInstanceAs (Decidable (_ ≠ _))

instance (point : ResumePc) (s : State) : DecidablePred (MainAvoids point s)
  | .main _ => inferInstanceAs (Decidable (_ ≠ _))
  | .control _ | .worker _ _ => inferInstanceAs (Decidable True)

/-- The response of a "blackout" whose wait expired. -/
def blackoutTimeout : ControlPc :=
  .waited .blackout (.error "blackout timeout")

/-- Nothing but the main thread's resume handshake re-enables inference while
"blackout" runs. -/
theorem inference_stays_disabled {s after : State}
    (path : system.Path
      (fun s label => DuringBlackout s label ∧ MainAvoids .enable s label)
      (dispatchCommand s .blackout) after) :
    after.flags.inferenceEnabled = false := by
  refine System.Path.preserves
    (fun s => s.flags.inferenceEnabled = false) ?_ path rfl
  rintro s label after disabled ⟨during, avoids⟩ taken
  cases label with
  | main input =>
      rw [(mainStep_effect taken).inferenceEnabled, if_neg avoids, disabled]
  | control input =>
      have notReceiving : s.control ≠ .recv := by
        intro receiving
        simp [DuringBlackout, receiving] at during
      rw [(controlStep_effect taken).inferenceEnabled notReceiving, disabled]
  | worker i input => rw [(workerStep_frame taken).flags, disabled]

/-- A set request outlives every step but the main thread's clear. -/
theorem request_persists {s after : State} {label : Label}
    (requested : s.flags.blackoutRequested = true)
    (avoids : MainAvoids .clearBlackout s label)
    (taken : step s label = some after) :
    after.flags.blackoutRequested = true := by
  cases label with
  | main input =>
      rw [(mainStep_effect taken).blackoutRequested, if_neg avoids, requested]
  | control input =>
      rw [(controlStep_effect taken).blackoutRequested, requested, ite_self]
  | worker i input => rw [(workerStep_frame taken).flags, requested]

/-- By the time "blackout" has left its first store, its request is set. -/
theorem request_set {s after : State} (inv : Handshake s)
    (storing : s.control = .blackoutRequest)
    (path : system.Path
      (fun s label => DuringBlackout s label ∧ MainAvoids .clearBlackout s label)
      s after) :
    after.flags.blackoutRequested = true ∨ after.control = .blackoutRequest := by
  suffices kept : Handshake after ∧ (after.flags.blackoutRequested = true ∨
      after.control = .blackoutRequest) from kept.2
  refine System.Path.preserves (fun s => Handshake s ∧
    (s.flags.blackoutRequested = true ∨ s.control = .blackoutRequest))
    ?_ path ⟨inv, Or.inr storing⟩
  rintro s label after ⟨inv, requested | storing⟩ ⟨_, avoids⟩ taken
  · exact ⟨step_handshake inv taken,
      Or.inl (request_persists requested avoids taken)⟩
  · refine ⟨step_handshake inv taken, ?_⟩
    cases label with
    | main input =>
        have same := inv.control_main (mainStep_effect taken) (by simp [storing])
        exact Or.inr (same.trans storing)
    | control input =>
        left
        rw [(controlStep_effect taken).blackoutRequested, if_pos storing]
    | worker i input =>
        exact Or.inr ((workerStep_frame taken).control.trans storing)

/-- A "blackout" that times out is not withdrawn.  Its two stores stand when it
returns, unless the main thread's resume handshake has overwritten them in the
meantime; and the request stays set until the main thread's next clear, so that
the main loop enters the blackout branch at its next test. -/
theorem failed_blackout_stays_pending {s after : State}
    (reach : system.Reachable s) (located : s.control = .recv)
    (failed : after.control = blackoutTimeout) :
    (system.Path
        (fun s label => DuringBlackout s label ∧ MainAvoids .enable s label)
        (dispatchCommand s .blackout) after →
      after.flags.inferenceEnabled = false) ∧
    (system.Path
        (fun s label =>
          DuringBlackout s label ∧ MainAvoids .clearBlackout s label)
        (dispatchCommand s .blackout) after →
      after.flags.blackoutRequested = true) ∧
    (after.flags.blackoutRequested = true → ∀ later,
      system.Path (MainAvoids .clearBlackout) after later →
      later.flags.blackoutRequested = true ∧
        (later.pc = .checkBlackout → ∀ input, mainStep later input =
          some { later with pc := .entry .lock })) := by
  refine ⟨inference_stays_disabled, fun path => ?_, fun requested later path => ?_⟩
  · have dispatched : step s (.control (.request .blackout)) =
        some (dispatchCommand s .blackout) := by
      simp [step, controlStep, located]
    have inv := step_handshake (reachable_handshake reach) dispatched
    refine (request_set inv rfl path).resolve_right fun storing => ?_
    simp [storing, blackoutTimeout] at failed
  · have kept : later.flags.blackoutRequested = true :=
      System.Path.preserves
        (fun s => s.flags.blackoutRequested = true)
        (fun _ _ _ requested avoids taken =>
          request_persists requested avoids taken) path requested
    refine ⟨kept, fun testing input => ?_⟩
    simp [mainStep, testing, kept]

/-- A client connects before the main loop has looked at any flag. -/
def connected : List Label := Schedule.boot ++ Schedule.connect

/-- From the dispatch of "blackout" to its timeout, the main thread standing
still. -/
def blackoutExpires : List Label := Schedule.control 1 ++ Schedule.expire

/-- A first "blackout" that times out at once keeps both its stores. -/
theorem failed_blackout_stays_pending_once :
    ∃ s after, system.Reachable s ∧
      system.Path DuringBlackout (dispatchCommand s .blackout) after ∧
      after.control = blackoutTimeout ∧
      after.flags.inferenceEnabled = false ∧
      after.flags.blackoutRequested = true := by
  obtain ⟨s, reach, rest⟩ := System.reaches_of_replay system
    System.unrestricted connected
    (fun s => s.control = .recv &&
      (system.replay (fun s label => DuringBlackout s label ∧
          MainAvoids .enable s label ∧ MainAvoids .clearBlackout s label)
        (dispatchCommand s .blackout) blackoutExpires).any fun after =>
          after.control = blackoutTimeout)
    (by decide)
  simp only [Bool.and_eq_true, decide_eq_true_eq] at rest
  rcases rest with ⟨receiving, rest⟩
  rcases System.exists_of_replay rest with ⟨after, path, failed⟩
  simp only [decide_eq_true_eq] at failed
  obtain ⟨disabled, requested, _⟩ :=
    failed_blackout_stays_pending reach receiving failed
  exact ⟨s, after, reach, path.mono fun _ _ guard => guard.1, failed,
    disabled (path.mono fun _ _ guard => ⟨guard.1, guard.2.1⟩),
    requested (path.mono fun _ _ guard => ⟨guard.1, guard.2.2⟩)⟩

/-- The failed "blackout" is reported and a "resume" is dispatched. -/
def resumeRefused : List Label := Schedule.control 3 ++ Schedule.request .resume

/-- The refusal is reported, and the main loop goes on. -/
def darkAfterRefusal : List Label := Schedule.control 2 ++ Schedule.enterBlackout

/-- A "blackout" answered "blackout timeout" leaves inference disabled and its
request set.  A "resume" after it is answered "not in blackout", and still the
main thread ends up in the idle loop, although no further blackout was asked
for. -/
theorem failed_blackout_takes_effect :
    ∃ before after refused later,
      system.Reachable before ∧ before.control = .recv ∧
      before.flags.inferenceEnabled = true ∧
      before.flags.blackoutRequested = false ∧
      system.Path DuringBlackout (dispatchCommand before .blackout) after ∧
      after.control = blackoutTimeout ∧
      after.flags.inferenceEnabled = false ∧
      after.flags.blackoutRequested = true ∧
      system.Path NoBlackout after refused ∧
      refused.control = .reply .resume (.error "not in blackout") ∧
      system.Path NoBlackout refused later ∧
      later.control = .recv ∧ later.pc = .idle .testResume := by
  obtain ⟨before, reach, rest⟩ := System.reaches_of_replay system
    System.unrestricted connected
    (fun before => before.control = .recv &&
      before.flags.inferenceEnabled && !before.flags.blackoutRequested &&
      (system.replay DuringBlackout (dispatchCommand before .blackout)
        blackoutExpires).any fun after =>
          after.control = blackoutTimeout && !after.flags.inferenceEnabled &&
          after.flags.blackoutRequested &&
          (system.replay NoBlackout after resumeRefused).any fun refused =>
            refused.control = .reply .resume (.error "not in blackout") &&
            (system.replay NoBlackout refused darkAfterRefusal).any fun later =>
              later.control = .recv && later.pc = .idle .testResume)
    (by decide)
  simp only [Bool.and_eq_true, decide_eq_true_eq, Bool.not_eq_true'] at rest
  rcases rest with ⟨⟨⟨receiving, enabled⟩, unrequested⟩, rest⟩
  rcases System.exists_of_replay rest with ⟨after, command, rest⟩
  simp only [Bool.and_eq_true, decide_eq_true_eq, Bool.not_eq_true'] at rest
  rcases rest with ⟨⟨⟨failed, disabled⟩, requested⟩, rest⟩
  rcases System.exists_of_replay rest with ⟨refused, answered, rest⟩
  simp only [Bool.and_eq_true, decide_eq_true_eq] at rest
  rcases rest with ⟨refusal, rest⟩
  rcases System.exists_of_replay rest with ⟨later, onward, rest⟩
  simp only [Bool.and_eq_true, decide_eq_true_eq] at rest
  exact ⟨before, after, refused, later, reach, receiving, enabled, unrequested,
    command, failed, disabled, requested, answered, refusal, onward, rest.1,
    rest.2⟩

end KhadasYolo.Pipeline
