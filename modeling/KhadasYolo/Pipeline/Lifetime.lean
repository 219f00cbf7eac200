import KhadasYolo.Pipeline.Contexts
import KhadasYolo.Pipeline.Requests

/-!
# The lifetime of the RKNN contexts

Contexts are destroyed at the entry of a blackout and at teardown, and created
at startup and on resume.  The two sides balance as long as the calls that the
main thread relies on succeed and the idle loop is not left for teardown, where
the contexts of the blackout would be destroyed a second time.
-/

namespace KhadasYolo.Pipeline

open TransitionSystem HandleTable

/-- Every destroy call is on a live context, and once `main` has ended every
context it created has been destroyed exactly once. -/
def ContextsBalanced (s : State) : Prop :=
  (∀ i, s.pc = .entry (.destroy i) ∨ s.pc = .teardown (.destroy i) →
    ∃ h, s.ctxs i = some h ∧ s.rknn.Live h) ∧
  (s.pc.ended = true →
    ∀ h < s.rknn.created, s.rknn.destroyed.count (some h) = 1)

/-- The step is neither a failing library call of which the main thread does not
recover, nor a failing camera call, nor the exit from the idle loop to
teardown. -/
def KeepsContexts (s : State) (label : Label) : Prop :=
  match label with
  | .main input => (s.pc.obliged = true → input.success = true) ∧
      (s.pc.camera = true → input.success = true) ∧
      (s.pc = .idle .leave → s.flags.shutdownRequested = false)
  | _ => True

instance (s : State) : DecidablePred (KeepsContexts s)
  | .main _ => inferInstanceAs (Decidable (_ ∧ _))
  | .control _ | .worker _ _ => inferInstanceAs (Decidable True)

/-- Live contexts are in held entries, and teardown is entered with all entries
held. -/
structure Balanced (s : State) : Prop where
  accounted : s.table.Accounted s.holds
  nodup : s.table.destroyed.Nodup
  recovers : s.pc ≠ .resume .initFailed
  survives : ∀ call, s.pc ≠ .exited call
  lit : s.pc.stopping = true → s.flags.blackoutActive = false

namespace Balanced

theorem initial : Balanced system.init := by
  constructor <;> simp [system, State.table, State.holds, MainPc.holds,
    Table.Accounted, Table.Live]

theorem frame {s after : State} (inv : Balanced s)
    (table : after.table = s.table) (pc : after.pc = s.pc)
    (dark : after.flags.blackoutActive = s.flags.blackoutActive) :
    Balanced after := by
  have holds := holds_eq pc dark
  rcases inv with ⟨accounted, nodup, recovers, survives, lit⟩
  constructor <;> simp only [table, pc, holds, dark] <;> assumption

section Main

variable {s after : State} {input : MainInput}

/-- An entry about to be destroyed has a live context. -/
theorem destroys_live (inv : Balanced s) (filled : Filled s) {i : Fin nThreads}
    (located : s.pc = .entry (.destroy i) ∨ s.pc = .teardown (.destroy i)) :
    ∃ h, s.ctxs i = some h ∧ s.rknn.Live h := by
  refine filled.owned i ((Filled.destroys_held located).resolve_right fun none => ?_)
  have vacant := none i
  rcases located with located | located
  · simp [State.holds, located, MainPc.holds] at vacant
  · simp [State.holds, located, MainPc.holds,
      inv.lit (by simp [located])] at vacant

theorem lit_main (hand : Handshake s) (inv : Balanced s)
    (keeps : KeepsContexts s (.main input))
    (taken : mainStep s input = some after) (stop : after.pc.stopping = true) :
    after.flags.blackoutActive = false := by
  have effect := mainStep_effect taken
  have before : s.flags.blackoutActive = false → s.pc ≠ .entry .activeStore →
      after.flags.blackoutActive = false := by
    intro inactive notStoring
    rw [effect.blackoutActive, if_neg notStoring, inactive, ite_self]
  rcases effect.halting stop with stopped | looping | leaving | failed
  · refine before (inv.lit stopped) fun storing => ?_
    simp [storing] at stopped
  · refine before ?_ (by simp [looping])
    rw [hand.active (by simp [looping])]
    simp [looping]
  · have noShutdown := keeps.2.2 leaving
    simp only [mainStep, leaving, idleStep, noShutdown, Option.some.injEq] at taken
    simp [← taken] at stop
  · exact absurd failed inv.recovers

theorem main (hand : Handshake s) (valid : s.table.Valid) (filled : Filled s)
    (inv : Balanced s) (keeps : KeepsContexts s (.main input))
    (taken : mainStep s input = some after) : Balanced after := by
  have recovers : after.pc ≠ .resume .initFailed := by
    intro failed
    rcases initFailed_start taken failed with ⟨located, refused⟩
    simp [keeps.1 (by simp [located])] at refused
  have survives : ∀ call, after.pc ≠ .exited call := by
    intro call exited
    rcases exited_start taken exited with ⟨camera, refused⟩
    simp [keeps.2.1 camera] at refused
  have lit := inv.lit_main hand keeps taken
  cases mainStep_contexts hand taken with
  | created i _ table vacant filled =>
      exact ⟨table ▸ inv.accounted.create valid vacant filled,
        table ▸ inv.nodup, recovers, survives, lit⟩
  | destroyed i located table vacated =>
      rcases inv.destroys_live filled located with ⟨handle, stored, live⟩
      exact ⟨table ▸ inv.accounted.destroy vacated,
        table ▸ Table.nodup_destroy inv.nodup stored live, recovers, survives, lit⟩
  | unfilled i located refused =>
      simp [keeps.1 (by simp [located])] at refused
  | abandoned obliged refused =>
      simp [keeps.1 obliged] at refused
  | kept table holds =>
      have same : after.holds = s.holds := funext holds
      exact ⟨table ▸ same ▸ inv.accounted, table ▸ inv.nodup, recovers, survives, lit⟩

end Main

end Balanced

theorem dupSucceeds_of_keeps (s : State) (label : Label)
    (keeps : KeepsContexts s label) : DupSucceeds s label := by
  cases label with
  | main input =>
      intro duplicating
      apply keeps.1
      cases located : s.pc with
      | resume point => cases point <;> simp_all
      | _ => simp [located] at duplicating
  | control input | worker i input => exact True.intro

theorem reachable_balanced {s : State}
    (reach : system.ReachableUnder KeepsContexts s) : Balanced s := by
  refine System.ReachableUnder.invariant Balanced
    Balanced.initial ?_ reach
  intro s label after earlier inv keeps taken
  cases label with
  | main input =>
      exact inv.main (reachable_handshake earlier.reachable)
        (reachable_accounts earlier.reachable).valid
        (reachable_filled (earlier.mono dupSucceeds_of_keeps)) keeps taken
  | control input =>
      have effect := controlStep_effect taken
      exact inv.frame (table_eq effect.ctxs effect.rknn) effect.pc
        effect.blackoutActive
  | worker i input =>
      have frame := workerStep_frame taken
      exact inv.frame (table_eq frame.ctxs frame.rknn) frame.pc
        (by rw [frame.flags])

/-- Under these conditions every context is destroyed exactly once, and only
while it is live. -/
theorem contexts_balanced {s : State}
    (reach : system.ReachableUnder KeepsContexts s) : ContextsBalanced s := by
  have inv := reachable_balanced reach
  have filled := reachable_filled (reach.mono dupSucceeds_of_keeps)
  refine ⟨fun i located => inv.destroys_live filled located, ?_⟩
  intro ended h created
  refine Table.count_destroyed inv.accounted (fun i => ?_) inv.nodup created
  cases located : s.pc with
  | aborted | returned => simp [State.holds, located, MainPc.holds]
  | exited call => exact absurd located (inv.survives call)
  | _ => simp [located] at ended

/-- A blackout, a resume and a shutdown: all six contexts are destroyed. -/
def fullCycle : List Label :=
  Schedule.boot ++ Schedule.connect ++ Schedule.blackout ++
    Schedule.request .resume ++ Schedule.control 1 ++ Schedule.publishResume ++
    Schedule.refill ++ Schedule.answer ++ Schedule.request .shutdown ++
    Schedule.main 1 ++ Schedule.stop ++ Schedule.npuJobs ++ Schedule.join ++
    Schedule.destroyContexts

theorem contexts_balanced_full_cycle :
    ∃ s, system.ReachableUnder KeepsContexts s ∧ s.pc = .returned ∧
      s.rknn.created = 6 ∧ ContextsBalanced s := by
  obtain ⟨s, reach, ended⟩ := System.reaches_of_replay system
    KeepsContexts fullCycle
    (fun s => s.pc = .returned && s.rknn.created = 6) (by decide)
  simp only [Bool.and_eq_true, decide_eq_true_eq] at ended
  exact ⟨s, reach, ended.1, ended.2, contexts_balanced reach⟩

/-- "shutdown" arrives while the pipeline is blacked out. -/
def shutdownInBlackout : List Label :=
  Schedule.boot ++ Schedule.connect ++ Schedule.blackout ++
    Schedule.request .shutdown ++ Schedule.main 3 ++ Schedule.stop ++
    Schedule.join

/-- Teardown destroys the contexts that the blackout has destroyed. -/
theorem shutdown_in_blackout_destroys_twice :
    ¬∀ s, system.Reachable s → ContextsBalanced s := by
  intro balanced
  obtain ⟨s, reach, twice⟩ := System.reaches_of_replay system
    System.unrestricted shutdownInBlackout
    (fun s => s.pc = .teardown (.destroy firstThread) &&
      !(s.ctxs firstThread).any fun h => s.rknn.Live h) (by decide)
  simp only [Bool.and_eq_true, decide_eq_true_eq, Bool.not_eq_true'] at twice
  rcases (balanced s reach).1 firstThread (Or.inr twice.1) with ⟨h, stored, live⟩
  simp [stored, live] at twice

end KhadasYolo.Pipeline
