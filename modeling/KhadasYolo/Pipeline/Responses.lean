import KhadasYolo.Pipeline.Contexts
import KhadasYolo.Pipeline.Requests

/-!
# What the answer "ok" means

The caller of "blackout" relies on a free NPU, the caller of "resume" on a
running pipeline.  The handlers decide from `blackout_active` and `resume_done`
alone.  `blackout_active` stays set while a resume re-creates the contexts, and
the resume path does not look at the result of `rknn_dup_context`; away from
these two points both answers are sound.
-/

namespace KhadasYolo.Pipeline

open TransitionSystem HandleTable

/-! ## "blackout" -/

/-- When "blackout" returns ok, no context is live. -/
def BlackoutSound (s : State) : Prop :=
  s.control.blackoutOk = true → ∀ h, ¬s.rknn.Live h

/-- The step is neither the evaluation of the "blackout" predicate while the
main thread re-creates contexts with `blackout_active` still set, nor the first
`rknn_init` of a resume while a "blackout" is returning ok. -/
def OutsideRebuild (s : State) (label : Label) : Prop :=
  match label with
  | .control _ => s.control.testingBlackout = true → s.pc.rebuilt = false
  | .main input => s.pc = .resume .initContext → input.success = true →
      s.control.blackoutOk = false
  | .worker _ _ => True

instance (s : State) : DecidablePred (OutsideRebuild s)
  | .control _ => inferInstanceAs (Decidable (_ → _))
  | .main _ => inferInstanceAs (Decidable (_ → _ → _))
  | .worker _ _ => inferInstanceAs (Decidable True)

/-- A "blackout" that is returning ok: the main thread has announced the
blackout and has not begun to undo it. -/
def Dark (s : State) : Prop :=
  s.control.blackoutOk = true →
    s.flags.blackoutActive = true ∧ s.pc.rebuilt = false

namespace Dark

theorem main {s after : State} {input : MainInput} (hand : Handshake s)
    (dark : Dark s) (outside : OutsideRebuild s (.main input))
    (taken : mainStep s input = some after) : Dark after := by
  intro returned
  have effect := mainStep_effect taken
  have before : s.control.blackoutOk = true := by
    rcases effect.control with same | ⟨_, listening⟩
    · rwa [same] at returned
    · simp [listening] at returned
  rcases dark before with ⟨active, notRebuilt⟩
  constructor
  · rw [effect.blackoutActive]
    split
    · rfl
    · rw [if_neg, active]
      rintro (clearing | clearing)
      · simp [hand.active, clearing] at active
      · simp [clearing] at notRebuilt
  · cases rebuilt : after.pc.rebuilt with
    | false => rfl
    | true =>
        rcases Accounts.rebuilt_start taken rebuilt with still | ⟨located, called, _⟩
        · rw [notRebuilt] at still
          cases still
        · rw [outside located called] at before
          cases before

theorem control {s after : State} {input : ControlInput} (dark : Dark s)
    (outside : OutsideRebuild s (.control input))
    (effect : ControlEffect s after) : Dark after := by
  intro returned
  rw [effect.blackoutActive, effect.pc]
  rcases effect.blackoutOk returned with before | ⟨testing, active⟩
  · exact dark before
  · exact ⟨active, outside testing⟩

/-- At such a point no entry of `ctxs` is held. -/
theorem vacant {s : State} (hand : Handshake s)
    (active : s.flags.blackoutActive = true) (notRebuilt : s.pc.rebuilt = false)
    (i : Fin nThreads) : s.holds i = false := by
  cases stop : s.pc.stopping with
  | true => cases located : s.pc with
    | teardown point => cases point <;> simp [State.holds, located, MainPc.holds, active]
    | exited call => cases call <;> simp [State.holds, located, MainPc.holds, active] at stop ⊢
    | returned => simp [State.holds, located, MainPc.holds]
    | _ => simp [located] at stop
  | false =>
      have announced := hand.active stop
      rw [active] at announced
      cases located : s.pc with
      | entry point | resume point =>
          cases point <;>
            simp [located, State.holds, MainPc.holds] at announced notRebuilt ⊢
      | idle point => simp [State.holds, located, MainPc.holds]
      | exited call => cases call <;> simp [located] at announced notRebuilt
      | _ => simp [located] at announced

end Dark

theorem reachable_dark {s : State}
    (reach : system.ReachableUnder OutsideRebuild s) : Dark s := by
  refine System.ReachableUnder.invariant Dark ?_ ?_ reach
  · simp [Dark, system]
  · intro s label after earlier dark outside taken
    cases label with
    | main input =>
        exact dark.main (reachable_handshake earlier.reachable) outside taken
    | control input => exact dark.control outside (controlStep_effect taken)
    | worker i input =>
        have frame := workerStep_frame taken
        simpa only [Dark, frame.control, frame.flags, frame.pc] using dark

theorem blackoutSound_of_outside {s : State}
    (reach : system.ReachableUnder OutsideRebuild s) : BlackoutSound s := by
  intro returned
  have hand := reachable_handshake reach.reachable
  rcases reachable_dark reach returned with ⟨active, notRebuilt⟩
  have running : s.pc ≠ .aborted := by
    intro aborted
    have stopped := hand.controlStopped (by simp [aborted])
    cases located : s.control <;> simp_all
  exact ((reachable_accounts reach.reachable).accounted running).none_live
    (Dark.vacant hand active notRebuilt)

/-- Either excluded step makes an ok that no longer, or never, meant a free
NPU. -/
theorem unsound_of_not_outside {s after : State} {label : Label}
    (reach : system.Reachable s) (taken : step s label = some after)
    (inside : ¬OutsideRebuild s label) : ¬BlackoutSound after := by
  have hand := reachable_handshake reach
  have accounts := reachable_accounts reach
  intro sound
  cases label with
  | worker i input => exact inside True.intro
  | main input =>
      simp only [OutsideRebuild, Classical.not_imp, Bool.not_eq_false] at inside
      rcases inside with ⟨located, called, returned⟩
      simp only [step, mainStep, located, resumeStep, called, if_pos,
        Option.some.injEq] at taken
      subst taken
      have live : (s.table.create firstThread).Live s.rknn.created :=
        (Table.live_create accounts.valid).mpr (Or.inr rfl)
      exact sound returned _ live
  | control input =>
      simp only [OutsideRebuild, Classical.not_imp, Bool.not_eq_false] at inside
      rcases inside with ⟨testing, rebuilt⟩
      rcases accounts.rebuilt rebuilt with ⟨h, live⟩
      have announced := (MainPc.resuming_of_rebuilt rebuilt).2
      have active : s.flags.blackoutActive = true :=
        (hand.active (MainPc.running_of_announced announced)).trans announced
      rcases ControlPc.test_of_testingBlackout testing with ⟨expired, waiting⟩
      cases input with
      | go =>
          simp only [step, controlStep, waiting, waitStep, WaitCommand.pred, active,
            if_pos, Option.some.injEq] at taken
          subst taken
          exact sound rfl h live
      | _ => simp [step, controlStep, waiting, waitStep] at taken

/-- Every "blackout" that returns ok finds the NPU free in a run exactly as long
as none of its handlers meets the re-creation of the contexts. -/
theorem blackout_ok_sound (s : State) :
    (system.ReachableUnder OutsideRebuild s → BlackoutSound s) ∧
    (∀ label after, system.Reachable s → step s label = some after →
      ¬OutsideRebuild s label → ¬BlackoutSound after) :=
  ⟨fun reach => blackoutSound_of_outside reach,
    fun _ _ reach taken inside => unsound_of_not_outside reach taken inside⟩

/-- A "blackout" with no resume about is answered ok. -/
theorem blackout_ok_sound_once :
    ∃ s, system.ReachableUnder OutsideRebuild s ∧
      s.control.blackoutOk = true ∧ BlackoutSound s := by
  obtain ⟨s, reach, returned⟩ := System.reaches_of_replay system OutsideRebuild
    (Schedule.boot ++ Schedule.connect ++ Schedule.request .blackout ++
      Schedule.control 1 ++ Schedule.enterBlackout ++ Schedule.control 2)
    (fun s => s.control.blackoutOk) (by decide)
  exact ⟨s, reach, returned, (blackout_ok_sound s).1 reach⟩

/-- A "resume" times out, the main thread begins to re-create the contexts, and
a second "blackout" finds `blackout_active` still set. -/
def blackoutInRebuild : List Label :=
  Schedule.boot ++ Schedule.connect ++ Schedule.blackout ++
    Schedule.request .resume ++ Schedule.control 1 ++ Schedule.expire ++
    Schedule.control 3 ++ Schedule.main 3 ++ Schedule.request .blackout ++
    Schedule.control 3

theorem blackout_ok_with_live_context :
    ¬∀ s, system.Reachable s → BlackoutSound s := by
  intro sound
  obtain ⟨s, reach, live⟩ := System.reaches_of_replay system
    System.unrestricted blackoutInRebuild
    (fun s => s.control.blackoutOk &&
      (s.ctxs firstThread).any fun h => s.rknn.Live h) (by decide)
  simp only [Bool.and_eq_true, Option.any_eq_true, decide_eq_true_eq] at live
  rcases live with ⟨returned, h, _, live⟩
  exact sound s reach returned h live

/-! ## "resume" -/

/-- When "resume" returns ok, every context has been re-created since the latest
blackout and is live, inference is enabled, the blackout is over, and the
`resume_done` that the handler saw was set for this blackout. -/
def ResumeSound (s : State) : Prop :=
  s.control.resumeOk = true →
    (∀ i, ∃ h, s.ctxs i = some h ∧ s.history.createdAtBlackout ≤ h ∧
      s.rknn.Live h) ∧
    s.flags.inferenceEnabled = true ∧ s.flags.blackoutActive = false ∧
    s.history.doneOf = s.history.blackouts

/-- While a "resume" returns ok every entry of `ctxs` is held. -/
theorem holds_of_resumeOk {s : State} (hand : Handshake s) (run : ResumeRun s)
    (returned : s.control.resumeOk = true) (i : Fin nThreads) :
    s.holds i = true := by
  have running := ControlPc.inResume_of_resumeOk returned
  have done := run.done returned
  have inactive := hand.active_of_done done
  have outside := run.notEntering running
  have alive : s.pc.controlStopped = false := by
    cases stopped : s.pc.controlStopped with
    | false => rfl
    | true =>
        have asleep := hand.controlStopped stopped
        cases located : s.control <;> simp_all
  have handed : s.pc.awaitingDone = false := by
    cases awaiting : s.pc.awaitingDone with
    | false => rfl
    | true => simp [hand.doneCleared awaiting] at done
  cases located : s.pc with
  | entry point | resume point | teardown point =>
      cases point <;> simp [located] at alive handed outside <;>
        simp [State.holds, located, MainPc.holds, inactive]
  | capture site stage | loopTop | checkBlackout | body point =>
      simp [State.holds, located, MainPc.holds]
  | idle point => simp [located] at handed
  | startup point =>
      cases point <;> simp [located] at alive
      simp [State.holds, located, MainPc.holds]
  | exited call =>
      cases call <;> simp [located] at alive handed <;>
        simp [State.holds, located, MainPc.holds]
  | aborted | returned => simp [located] at alive

theorem resumeSound_of_dupSucceeds {s : State}
    (reach : system.ReachableUnder DupSucceeds s) : ResumeSound s := by
  intro returned
  have hand := reachable_handshake reach.reachable
  have run := reachable_resumeRun reach.reachable
  have done := run.done returned
  refine ⟨fun i => ?_, run.enabled (ControlPc.inResume_of_resumeOk returned) done,
    hand.active_of_done done, run.current done⟩
  obtain ⟨h, stored, live⟩ :=
    (reachable_filled reach).owned i (holds_of_resumeOk hand run returned i)
  exact ⟨h, stored, (reachable_accounts reach.reachable).recent h live, live⟩

theorem unsound_of_failed_dup {i : Fin nThreads} {s after later : State}
    {input : MainInput} (reach : system.Reachable s)
    (located : s.pc = .resume (.dupContext i)) (refused : input.success = false)
    (taken : mainStep s input = some after)
    (path : system.Path (LeavesEntry i) after later)
    (returned : later.control.resumeOk = true) : ¬ResumeSound later := by
  rcases stale_after_failed_dup reach located refused taken path with ⟨_, stale⟩
  intro sound
  rcases (sound returned).1 i with ⟨h, stored, recent, _⟩
  exact absurd (stale h stored) (Nat.not_lt_of_le recent)

/-- Every "resume" that returns ok is sound in runs whose resumes duplicate all
contexts; after a failed duplication no ok is sound until the entry is created
again. -/
theorem resume_ok_sound (s : State) :
    (system.ReachableUnder DupSucceeds s → ResumeSound s) ∧
    (∀ i input after later, system.Reachable s →
      s.pc = .resume (.dupContext i) → input.success = false →
      mainStep s input = some after →
      system.Path (LeavesEntry i) after later →
      later.control.resumeOk = true → ¬ResumeSound later) :=
  ⟨fun reach => resumeSound_of_dupSucceeds reach,
    fun _ _ _ _ reach located refused taken path returned =>
      unsound_of_failed_dup reach located refused taken path returned⟩

/-- A blackout and a resume up to the handler's ok. -/
theorem resume_ok_sound_once :
    ∃ s, system.ReachableUnder DupSucceeds s ∧ s.control.resumeOk = true ∧
      ResumeSound s := by
  obtain ⟨s, reach, returned⟩ := System.reaches_of_replay system DupSucceeds
    (Schedule.boot ++ Schedule.connect ++ Schedule.blackout ++
      Schedule.request .resume ++ Schedule.control 1 ++ Schedule.publishResume ++
      Schedule.control 2)
    (fun s => s.control.resumeOk) (by decide)
  exact ⟨s, reach, returned, (resume_ok_sound s).1 reach⟩

/-- The first `rknn_dup_context` of a resume fails. -/
def resumeWithoutContext : List Label :=
  Schedule.boot ++ Schedule.connect ++ Schedule.blackout ++
    Schedule.request .resume ++ Schedule.control 1 ++ Schedule.main 3 ++
    .main { success := false } :: Schedule.main 10 ++ Schedule.control 2

theorem resume_ok_without_context :
    ¬∀ s, system.Reachable s → ResumeSound s := by
  intro sound
  obtain ⟨s, reach, dead⟩ := System.reaches_of_replay system
    System.unrestricted resumeWithoutContext
    (fun s => s.control.resumeOk &&
      !(s.ctxs 1).any fun h => s.rknn.Live h) (by decide)
  simp only [Bool.and_eq_true, Bool.not_eq_true'] at dead
  rcases (sound s reach dead.1).1 1 with ⟨h, stored, _, live⟩
  simp [stored, live] at dead

end KhadasYolo.Pipeline
