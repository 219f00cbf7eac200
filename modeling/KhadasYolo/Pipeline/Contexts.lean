import KhadasYolo.Lib.HandleTable
import KhadasYolo.Pipeline.Handshake

/-!
# The RKNN contexts

Which entries of `ctxs` hold a live context is a function of the main thread's
program counter and of `blackout_active`: `State.holds`.  `ContextEffect` says
how one step of the main thread changes the table of contexts and, in step with
it, the set of held entries.

Live contexts are accounted for in every run.  That a held entry really is live
needs the library calls to succeed and the main loop not to be left while blacked
out; `ContextsBalanced`, the lifetime property, holds under exactly these
conditions.
-/

namespace KhadasYolo.Pipeline

open TransitionSystem HandleTable

/-! ## Held contexts -/

/-- `ctxs[i]` should hold a live context at this point; `dark` says whether
`blackout_active` is set, which decides it during teardown. -/
def MainPc.holds (dark : Bool) (i : Fin nThreads) : MainPc → Bool
  | .startup .initBase => false
  | .startup .queryModel => decide (i = firstThread)
  | .startup (.dupContext j) => decide (i < j)
  | .startup _ | .capture _ _ | .loopTop | .checkBlackout | .body _
  | .exited .load | .exited (.frame _) | .exited .drain => true
  | .entry (.destroy j) => decide (j ≤ i)
  | .entry .activeLock | .entry .activeStore | .entry .activeUnlock => false
  | .entry _ => true
  | .idle _ => false
  | .resume .initContext | .resume .initFailed => false
  | .resume (.dupContext j) => decide (i < j)
  | .resume _ => true
  | .teardown (.destroy j) => !dark && decide (j ≤ i)
  | .teardown _ | .exited .close => !dark
  | .aborted | .returned => false

namespace State

def holds (s : State) (i : Fin nThreads) : Bool :=
  s.pc.holds s.flags.blackoutActive i

/-- The contexts as a table of handles. -/
def table (s : State) : Table (Fin nThreads) :=
  ⟨s.ctxs, s.rknn.created, s.rknn.destroyed⟩

end State

theorem table_eq {s after : State} (ctxs : after.ctxs = s.ctxs)
    (rknn : after.rknn = s.rknn) : after.table = s.table := by
  simp only [State.table, ctxs, rknn]

theorem holds_eq {s after : State} (pc : after.pc = s.pc)
    (dark : after.flags.blackoutActive = s.flags.blackoutActive) :
    after.holds = s.holds := by
  funext i
  simp only [State.holds, pc, dark]

/-! ## Loops over the contexts -/

section Loops

variable {i j k : Fin nThreads}

theorem first_le (i : Fin nThreads) : firstThread ≤ i := Nat.zero_le _

theorem filled_next (next : nextThread i = some k) :
    decide (j < k) = (decide (j < i) || decide (j = i)) := by
  have advance := nextThread_some next
  rw [← Bool.decide_or, decide_eq_decide, Fin.lt_def, Fin.lt_def, Fin.ext_iff]
  omega

theorem filled_last (last : nextThread i = none) :
    (decide (j < i) || decide (j = i)) = true := by
  have ends := nextThread_none last
  have inside := j.isLt
  rw [← Bool.decide_or, decide_eq_true_eq, Fin.lt_def, Fin.ext_iff]
  omega

theorem vacated_next (next : nextThread i = some k) :
    decide (k ≤ j) = (decide (i ≤ j) && decide (j ≠ i)) := by
  have advance := nextThread_some next
  rw [← Bool.decide_and, decide_eq_decide, Fin.le_def, Fin.le_def, ne_eq,
    Fin.ext_iff]
  omega

theorem vacated_last (last : nextThread i = none) :
    (decide (i ≤ j) && decide (j ≠ i)) = false := by
  have ends := nextThread_none last
  have inside := j.isLt
  rw [← Bool.decide_and, decide_eq_false_iff_not, Fin.le_def, ne_eq, Fin.ext_iff]
  omega

@[simp] theorem not_lt_first (i : Fin nThreads) : ¬i < firstThread :=
  Nat.not_lt_zero _

end Loops

/-! ## One step -/

/-- The main thread is at a library call whose failure it does not survive, or
does not notice, with contexts held. -/
@[simp] def MainPc.obliged : MainPc → Bool
  | .startup .queryModel | .startup (.dupContext _) => true
  | .resume .initContext | .resume (.dupContext _) => true
  | _ => false

/-- The library call here, if it succeeds, creates `ctxs[i]`. -/
@[simp] def MainPc.creates (i : Fin nThreads) : MainPc → Bool
  | .startup .initBase | .resume .initContext => decide (i = firstThread)
  | .startup (.dupContext j) | .resume (.dupContext j) => decide (i = j)
  | _ => false

/-- What one step of the main thread does to the contexts. -/
inductive ContextEffect (s : State) (input : MainInput) (after : State) : Prop where
  | created (i : Fin nThreads) (site : s.pc.creates i = true)
      (table : after.table = s.table.create i) (vacant : s.holds i = false)
      (filled : ∀ j, after.holds j = (s.holds j || decide (j = i)))
  | destroyed (i : Fin nThreads)
      (located : s.pc = .entry (.destroy i) ∨ s.pc = .teardown (.destroy i))
      (table : after.table = s.table.destroy i)
      (vacated : ∀ j, after.holds j = (s.holds j && decide (j ≠ i)))
  /-- a failed `rknn_dup_context` that the resume path takes for a success -/
  | unfilled (i : Fin nThreads) (located : s.pc = .resume (.dupContext i))
      (refused : input.success = false) (table : after.table = s.table)
      (filled : ∀ j, after.holds j = (s.holds j || decide (j = i)))
  | abandoned (obliged : s.pc.obliged = true) (refused : input.success = false)
      (table : after.table = s.table) (located : after.pc = .aborted)
  | kept (table : after.table = s.table) (holds : ∀ j, after.holds j = s.holds j)

section Effect

attribute [local simp] MainPc.holds

variable {s after : State} {input : MainInput}

theorem startupStep_contexts {point : StartupPc}
    (located : s.pc = .startup point)
    (taken : startupStep s input point = some after) :
    ContextEffect s input after := by
  cases point with
  | initBase =>
      cases taken
      cases called : input.success with
      | true =>
          refine .created firstThread (by simp [located]) (by simp; rfl) ?_ fun j => ?_ <;>
            simp [State.holds, located]
      | false =>
          refine .kept (by simp; rfl) fun j => ?_
          simp [State.holds, located]
  | queryModel =>
      cases taken
      cases called : input.success with
      | true =>
          refine .kept rfl fun j => ?_
          cases next : nextThread firstThread with
          | some i =>
              simp [State.holds, located, filled_next next]
          | none =>
              have only : j = firstThread := by simpa using filled_last (j := j) next
              simp [State.holds, located, only]
      | false => exact .abandoned (by simp [located]) called rfl (by simp)
  | dupContext i =>
      cases taken
      cases called : input.success with
      | true =>
          refine .created i (by simp [located]) (by simp; rfl) ?_ fun j => ?_
          · simp [State.holds, located]
          · cases next : nextThread i with
            | some k =>
                simp [State.holds, located, filled_next next]
            | none =>
                simp [State.holds, located, filled_last next]
      | false => exact .abandoned (by simp [located]) called (by simp; rfl) (by simp)
  | initPool | spawn =>
      cases taken
      exact .kept rfl fun j => by simp [State.holds, located]
  | startServers | loadCamera =>
      cases taken
      cases input.success <;>
        exact .kept rfl fun j => by simp [State.holds, located]

theorem captureStep_contexts {site : CaptureSite} {stage : CaptureStage}
    (located : s.pc = .capture site stage)
    (taken : captureStep s input site stage = some after) :
    ContextEffect s input after := by
  cases stage with
  | acquire =>
      simp only [captureStep] at taken
      split at taken
      · cases taken
        exact .kept rfl fun j => by simp [State.holds, located]
      · contradiction
  | submit slot captureUs =>
      cases taken
      cases input.success <;>
        exact .kept rfl fun j => by simp [State.holds, located]
  | stamp =>
      cases taken
      refine .kept rfl fun j => ?_
      rcases afterCapture_outside site with next | ⟨site', next⟩ <;>
        simp [State.holds, located, next]

theorem entryStep_contexts {point : EntryPc} (located : s.pc = .entry point)
    (taken : entryStep s point = some after) : ContextEffect s input after := by
  cases point with
  | lock | activeLock =>
      rcases State.lock_map_eq_some taken with ⟨_, rfl⟩
      exact .kept rfl fun j => by simp [State.holds, located]
  | clearActive | clearDone | unlock | drainRelease | activeStore
  | activeUnlock =>
      cases taken
      exact .kept rfl fun j => by
        simp [State.holds, located]
  | drainTest =>
      cases taken
      refine .kept rfl fun j => ?_
      by_cases flight : 0 < s.inFlight <;>
        simp [State.holds, located, flight, first_le]
  | drainPop =>
      simp only [entryStep] at taken
      split at taken
      · cases taken
        exact .kept rfl fun j => by simp [State.holds, located]
      · contradiction
  | destroy i =>
      cases taken
      refine .destroyed i (Or.inl located) rfl fun j => ?_
      cases next : nextThread i with
      | some k => simp [State.holds, located, vacated_next next]
      | none =>
          simp only [State.holds, located, MainPc.holds, vacated_last next]

/-- The idle loop is left for teardown with `blackout_active` still set, so no
context is held there either. -/
theorem idleStep_contexts (inv : Handshake s) {point : IdlePc}
    (located : s.pc = .idle point)
    (taken : idleStep s point = some after) : ContextEffect s input after := by
  have dark : s.flags.blackoutActive = true := by
    rw [inv.active (by simp [located])]
    simp [located]
  cases point with
  | testResume =>
      cases taken
      refine .kept rfl fun j => ?_
      cases s.flags.resumeRequested <;> simp [State.holds, located]
  | testShutdown | leave =>
      cases taken
      refine .kept rfl fun j => ?_
      cases s.flags.shutdownRequested <;>
        simp [State.holds, located, dark]

theorem resumeStep_contexts (inv : Handshake s) {point : ResumePc}
    (located : s.pc = .resume point)
    (taken : resumeStep s input point = some after) :
    ContextEffect s input after := by
  cases point with
  | initContext =>
      cases taken
      cases called : input.success with
      | true =>
          refine .created firstThread (by simp [located]) (by simp; rfl) ?_ fun j => ?_
          · simp [State.holds, located]
          · cases next : nextThread firstThread with
            | some k =>
                simp [State.holds, located, filled_next next]
            | none =>
                have only : j = firstThread := by
                  simpa using filled_last (j := j) next
                simp [State.holds, located, only]
      | false =>
          refine .kept (by simp; rfl) fun j => ?_
          simp [State.holds, located]
  | initFailed =>
      have dark : s.flags.blackoutActive = true := by
        rw [inv.active (by simp [located])]
        simp [located]
      cases taken
      exact .kept rfl fun j => by simp [State.holds, located, dark]
  | dupContext i =>
      have filled : ∀ j, after.holds j = (s.holds j || decide (j = i)) := by
        cases taken
        intro j
        cases next : nextThread i with
        | some k => simp [State.holds, located, filled_next next]
        | none => simp [State.holds, located, filled_last next]
      cases taken
      cases called : input.success with
      | true =>
          exact .created i (by simp [located]) (by simp; rfl)
            (by simp [State.holds, located])
            (by simpa [called] using filled)
      | false =>
          exact .unfilled i located called (by simp; rfl)
            (by simpa [called] using filled)
  | assignContext i =>
      cases taken
      refine .kept rfl fun j => ?_
      cases nextThread i <;> simp [State.holds, located]
  | drainCamera =>
      cases taken
      cases input.success <;>
        exact .kept rfl fun j => by simp [State.holds, located]
  | lock =>
      rcases State.lock_map_eq_some taken with ⟨_, rfl⟩
      exact .kept rfl fun j => by simp [State.holds, located]
  | clearActive | enable | setDone | unlock | clearBlackout | clearResume =>
      cases taken
      exact .kept rfl fun j => by simp [State.holds, located]

theorem bodyStep_contexts {point : BodyPc} (located : s.pc = .body point)
    (taken : bodyStep s input point = some after) :
    ContextEffect s input after := by
  cases point with
  | popResult =>
      simp only [bodyStep] at taken
      split at taken
      · cases taken
        exact .kept rfl fun j => by simp [State.holds, located]
      · contradiction
  | display | publish | recycle =>
      cases taken
      exact .kept rfl fun j => by simp [State.holds, located]

theorem teardownStep_contexts {point : TeardownPc}
    (located : s.pc = .teardown point)
    (taken : teardownStep s input point = some after) :
    ContextEffect s input after := by
  cases point with
  | stopControl | closeListen =>
      cases taken
      exact .kept rfl fun j => by simp [State.holds, located]
  | closeCamera =>
      cases taken
      cases input.success <;>
        exact .kept rfl fun j => by simp [State.holds, located]
  | joinData | deinitOutput =>
      simp only [teardownStep] at taken
      split at taken
      · cases taken
        exact .kept rfl fun j => by simp [State.holds, located]
      · contradiction
  | deinitPool =>
      cases taken
      exact .kept rfl fun j => by
        simp [State.holds, located, first_le]
  | joinControl =>
      simp only [teardownStep] at taken
      split at taken
      · cases taken
        exact .kept rfl fun j => by simp [State.holds, located]
      · contradiction
  | pushSentinel i =>
      cases taken
      refine .kept rfl fun j => ?_
      cases nextThread i <;> simp [State.holds, located]
  | joinWorker i =>
      simp only [teardownStep] at taken
      split at taken
      · cases taken
        refine .kept rfl fun j => ?_
        cases nextThread i <;> simp [State.holds, located]
      · contradiction
  | destroy i =>
      cases taken
      refine .destroyed i (Or.inr located) rfl fun j => ?_
      cases next : nextThread i with
      | some k =>
          simp [State.holds, State.destroyContext, located,
            vacated_next next, Bool.and_assoc]
      | none =>
          simp only [State.holds, located, MainPc.holds, Bool.and_assoc,
            vacated_last next, Bool.and_false]

/-- Everything one step of the main thread can do to the contexts. -/
theorem mainStep_contexts (inv : Handshake s)
    (taken : mainStep s input = some after) : ContextEffect s input after := by
  simp only [mainStep] at taken
  split at taken
  case h_1 point located => exact startupStep_contexts located taken
  case h_2 site stage located => exact captureStep_contexts located taken
  case h_3 located =>
    have lit : s.flags.blackoutActive = false := by
      rw [inv.active (by simp [located])]
      simp [located]
    cases taken
    refine .kept rfl fun j => ?_
    cases s.flags.shutdownRequested <;>
      simp [State.holds, located, lit]
  case h_4 located =>
    cases taken
    refine .kept rfl fun j => ?_
    cases s.flags.blackoutRequested <;> simp [State.holds, located]
  case h_5 point located => exact entryStep_contexts located taken
  case h_6 point located => exact idleStep_contexts inv located taken
  case h_7 point located => exact resumeStep_contexts inv located taken
  case h_8 point located => exact bodyStep_contexts located taken
  case h_9 point located => exact teardownStep_contexts located taken
  all_goals contradiction

end Effect

/-! ## Live contexts are accounted for -/

/-- A resume has its first new context, `blackout_active` not yet cleared. -/
@[simp] def MainPc.rebuilt : MainPc → Bool
  | .resume (.dupContext _) | .resume (.assignContext _) | .resume .drainCamera
  | .resume .lock | .resume .clearActive | .exited .drain => true
  | _ => false

theorem MainPc.resuming_of_rebuilt {pc : MainPc} (rebuilt : pc.rebuilt = true) :
    pc.resuming = true ∧ pc.announced = true := by
  cases pc with
  | resume point => cases point <;> simp_all
  | exited call => cases call <;> simp_all
  | _ => simp_all

/-- What holds of the contexts in every run. -/
structure Accounts (s : State) : Prop where
  valid : s.table.Valid
  accounted : s.pc ≠ .aborted → s.table.Accounted s.holds
  bound : s.history.createdAtBlackout ≤ s.table.created
  /-- the entry of a blackout leaves no context behind -/
  recent : ∀ h, s.table.Live h → s.history.createdAtBlackout ≤ h
  /-- an entry not yet re-created after a blackout is older than it -/
  unheld : s.pc.announced = true → ∀ i h, s.holds i = false →
    s.table.slots i = some h → h < s.history.createdAtBlackout
  rebuilt : s.pc.rebuilt = true → ∃ h, s.table.Live h

namespace Accounts

theorem initial : Accounts system.init := by
  constructor
  case valid => constructor <;> simp [system, State.table]
  all_goals simp [system, Table.Accounted, Table.Live, State.table]

/-- A step that leaves the contexts alone and the main thread where it is. -/
theorem frame {s after : State} (inv : Accounts s)
    (table : after.table = s.table) (pc : after.pc = s.pc)
    (dark : after.flags.blackoutActive = s.flags.blackoutActive)
    (createdAtBlackout :
      after.history.createdAtBlackout = s.history.createdAtBlackout) :
    Accounts after := by
  have holds := holds_eq pc dark
  rcases inv with ⟨valid, accounted, bound, recent, unheld, rebuilt⟩
  constructor <;> simp only [table, pc, holds, createdAtBlackout] <;> assumption

section Main

variable {s after : State} {input : MainInput}

theorem valid_main (inv : Accounts s) (effect : ContextEffect s input after) :
    after.table.Valid := by
  cases effect with
  | created i _ table => exact table ▸ inv.valid.create i
  | destroyed i _ table => exact table ▸ inv.valid.destroy i
  | unfilled i _ _ table => exact table ▸ inv.valid
  | abandoned _ _ table => exact table ▸ inv.valid
  | kept table => exact table ▸ inv.valid

theorem accounted_main (inv : Accounts s) (effect : ContextEffect s input after)
    (running : s.pc ≠ .aborted) (going : after.pc ≠ .aborted) :
    after.table.Accounted after.holds := by
  have before := inv.accounted running
  cases effect with
  | created i _ table vacant filled =>
      exact table ▸ before.create inv.valid vacant filled
  | destroyed i _ table vacated => exact table ▸ before.destroy vacated
  | unfilled i _ _ table filled =>
      intro handle live
      rcases before handle (table ▸ live) with ⟨slot, taken, stored⟩
      exact ⟨slot, by simp [filled, taken], table ▸ stored⟩
  | abandoned _ _ _ located => exact absurd located going
  | kept table holds =>
      rw [table, funext holds]
      exact before

theorem created_main (effect : ContextEffect s input after) :
    s.table.created ≤ after.table.created := by
  cases effect with
  | created i _ table =>
      rw [table]
      exact Nat.le_succ _
  | destroyed i _ table =>
      rw [table]
      exact Nat.le_refl _
  | unfilled i _ _ table | abandoned _ _ table | kept table => rw [table]

theorem recent_main (inv : Accounts s) (effect : ContextEffect s input after)
    (handle : Nat) (live : after.table.Live handle) :
    s.history.createdAtBlackout ≤ handle := by
  cases effect with
  | created i _ table =>
      rw [table, Table.live_create inv.valid] at live
      rcases live with before | rfl
      · exact inv.recent handle before
      · exact inv.bound
  | destroyed i _ table =>
      rw [table, Table.live_destroy] at live
      exact inv.recent handle live.1
  | unfilled i _ _ table | abandoned _ _ table | kept table =>
      exact inv.recent handle (table ▸ live)

theorem unheld_main (inv : Accounts s) (effect : MainEffect s after)
    (contexts : ContextEffect s input after)
    (announced : after.pc.announced = true) (i : Fin nThreads) (handle : Nat)
    (vacant : after.holds i = false)
    (stored : after.table.slots i = some handle) :
    handle < after.history.createdAtBlackout := by
  have running := MainPc.running_of_announced announced
  have still := announced
  rw [effect.announced running] at announced
  rw [effect.createdAtBlackout]
  split at announced
  next storing =>
    -- `blackout_active` is being set: every entry was filled before
    cases contexts with
    | created j site => simp [storing] at site
    | destroyed j located => simp [storing] at located
    | unfilled j located => simp [storing] at located
    | abandoned obliged => simp [storing] at obliged
    | kept table =>
        rw [if_pos storing]
        exact inv.valid.slots i handle (table ▸ stored)
  next notStoring =>
    rw [if_neg notStoring]
    split at announced
    · cases announced
    have before := inv.unheld announced i handle
    cases contexts with
    | created j _ table _ filled =>
        simp only [filled, Bool.or_eq_false_iff, decide_eq_false_iff_not] at vacant
        rw [table, Table.slots_create_of_ne vacant.2] at stored
        exact before vacant.1 stored
    | destroyed j located =>
        rcases located with located | located <;> simp [located] at announced
    | unfilled j _ _ table filled =>
        simp only [filled, Bool.or_eq_false_iff] at vacant
        exact before vacant.1 (table ▸ stored)
    | abandoned _ _ _ located => simp [located] at still
    | kept table holds => exact before (holds i ▸ vacant) (table ▸ stored)

/-- The re-initialisation starts with a fresh context. -/
theorem rebuilt_start (taken : mainStep s input = some after)
    (rebuilt : after.pc.rebuilt = true) :
    s.pc.rebuilt = true ∨ s.pc = .resume .initContext ∧ input.success = true ∧
      after.table = s.table.create firstThread := by
  rcases resuming_start taken (MainPc.resuming_of_rebuilt rebuilt).1 with
    ⟨point, located, stepped⟩ | ⟨_, started⟩
  · cases point with
    | initContext =>
        cases stepped
        cases called : input.success with
        | true => exact Or.inr ⟨located, rfl, by simp; rfl⟩
        | false => simp [called] at rebuilt
    | dupContext | assignContext | drainCamera | lock | clearActive =>
        exact Or.inl (by simp [located])
    | initFailed | enable | setDone | unlock | clearBlackout | clearResume =>
        cases stepped
        simp at rebuilt
  · simp [started] at rebuilt

theorem rebuilt_main (inv : Accounts s)
    (contexts : ContextEffect s input after)
    (taken : mainStep s input = some after) (rebuilt : after.pc.rebuilt = true) :
    ∃ h, after.table.Live h := by
  rcases rebuilt_start taken rebuilt with before | ⟨_, _, table⟩
  · rcases inv.rebuilt before with ⟨h, live⟩
    cases contexts with
    | created i _ table =>
        exact ⟨h, table ▸ (Table.live_create inv.valid).mpr (Or.inl live)⟩
    | destroyed i located =>
        rcases located with located | located <;> simp [located] at before
    | unfilled i _ _ table | abandoned _ _ table | kept table =>
        exact ⟨h, table ▸ live⟩
  · exact ⟨_, table ▸ (Table.live_create inv.valid).mpr (Or.inr rfl)⟩

theorem main (hand : Handshake s) (inv : Accounts s)
    (taken : mainStep s input = some after) : Accounts after := by
  have effect := mainStep_effect taken
  have contexts := mainStep_contexts hand taken
  have running : s.pc ≠ .aborted := by
    intro located
    simp [mainStep, located] at taken
  constructor
  case valid => exact inv.valid_main contexts
  case accounted => exact inv.accounted_main contexts running
  case bound =>
    rw [effect.createdAtBlackout]
    split
    · exact created_main contexts
    · exact inv.bound.trans (created_main contexts)
  case recent =>
    intro handle live
    rw [effect.createdAtBlackout]
    split
    next storing =>
      have going : after.pc ≠ .aborted := by
        simp only [mainStep, storing, entryStep, Option.some.injEq] at taken
        simp [← taken]
      have vacant : ∀ i, after.holds i = false := by
        simp only [mainStep, storing, entryStep, Option.some.injEq] at taken
        simp [← taken, State.holds, MainPc.holds]
      exact absurd live
        ((inv.accounted_main contexts running going).none_live vacant handle)
    next => exact inv.recent_main contexts handle live
  case unheld => exact inv.unheld_main effect contexts
  case rebuilt => exact inv.rebuilt_main contexts taken

end Main

theorem step {s after : State} {label : Label} (hand : Handshake s)
    (inv : Accounts s) (taken : Pipeline.step s label = some after) :
    Accounts after := by
  cases label with
  | main input => exact inv.main hand taken
  | control input =>
      have effect := controlStep_effect taken
      exact inv.frame (table_eq effect.ctxs effect.rknn) effect.pc
        effect.blackoutActive (by rw [effect.history])
  | worker i input =>
      have frame := workerStep_frame taken
      exact inv.frame (table_eq frame.ctxs frame.rknn) frame.pc
        (by rw [frame.flags]) frame.createdAtBlackout

end Accounts

theorem reachable_accounts {s : State} (reach : system.Reachable s) :
    Accounts s :=
  System.ReachableUnder.invariant Accounts Accounts.initial
    (fun _ _ _ earlier inv _ taken =>
      inv.step (reachable_handshake earlier) taken) reach

/-! ## Held entries are live -/

/-- The main thread is at the `rknn_dup_context` of the resume path. -/
@[simp] def MainPc.duplicating : MainPc → Bool
  | .resume (.dupContext _) => true
  | _ => false

/-- The step is not a failing `rknn_dup_context` of the resume path. -/
def DupSucceeds (s : State) (label : Label) : Prop :=
  match label with
  | .main input => s.pc.duplicating = true → input.success = true
  | _ => True

instance (s : State) : DecidablePred (DupSucceeds s)
  | .main _ => inferInstanceAs (Decidable (_ → _))
  | .control _ | .worker _ _ => inferInstanceAs (Decidable True)

/-- Every held entry has a live context of its own. -/
structure Filled (s : State) : Prop where
  owned : s.table.Owned s.holds
  distinct : s.table.Distinct s.holds

namespace Filled

theorem initial : Filled system.init := by
  constructor <;> simp [system, State.table, State.holds, MainPc.holds,
    Table.Owned, Table.Distinct]

theorem frame {s after : State} (inv : Filled s) (table : after.table = s.table)
    (holds : after.holds = s.holds) : Filled after := by
  rcases inv with ⟨owned, distinct⟩
  constructor <;> simp only [table, holds] <;> assumption

theorem vacant {s : State} (vacant : ∀ i, s.holds i = false) : Filled s := by
  constructor
  · intro i held
    simp [vacant i] at held
  · intro i _ held
    simp [vacant i] at held

/-- The entry at which a destroy loop stands is held, or none is. -/
theorem destroys_held {s : State} {i : Fin nThreads}
    (located : s.pc = .entry (.destroy i) ∨ s.pc = .teardown (.destroy i)) :
    s.holds i = true ∨ ∀ j, s.holds j = false := by
  rcases located with located | located
  · simp [State.holds, located, MainPc.holds]
  · cases dark : s.flags.blackoutActive <;>
      simp [State.holds, located, MainPc.holds, dark]

theorem main {s after : State} {input : MainInput} (hand : Handshake s)
    (valid : s.table.Valid) (inv : Filled s)
    (succeeds : DupSucceeds s (.main input))
    (taken : mainStep s input = some after) : Filled after := by
  cases mainStep_contexts hand taken with
  | created i _ table _ filled =>
      exact ⟨table ▸ inv.owned.create valid filled,
        table ▸ inv.distinct.create valid filled⟩
  | destroyed i located table vacated =>
      rcases destroys_held located with held | none
      · exact ⟨table ▸ inv.owned.destroy inv.distinct held vacated,
          table ▸ inv.distinct.destroy vacated⟩
      · exact vacant fun j => by simp [vacated, none]
  | unfilled i located refused =>
      simp [succeeds (by simp [located])] at refused
  | abandoned _ _ _ located =>
      exact vacant fun j => by simp [State.holds, located, MainPc.holds]
  | kept table holds => exact inv.frame table (funext holds)

end Filled

theorem reachable_filled {s : State}
    (reach : system.ReachableUnder DupSucceeds s) : Filled s := by
  refine System.ReachableUnder.invariant Filled Filled.initial
    ?_ reach
  intro s label after earlier inv succeeds taken
  cases label with
  | main input =>
      exact inv.main (reachable_handshake earlier.reachable)
        (reachable_accounts earlier.reachable).valid succeeds taken
  | control input =>
      have effect := controlStep_effect taken
      exact inv.frame (table_eq effect.ctxs effect.rknn)
        (holds_eq effect.pc effect.blackoutActive)
  | worker i input =>
      have frame := workerStep_frame taken
      exact inv.frame (table_eq frame.ctxs frame.rknn)
        (holds_eq frame.pc (by rw [frame.flags]))

/-! ## Entries older than the blackout -/

/-- The step does not create `ctxs[i]`. -/
def LeavesEntry (i : Fin nThreads) (s : State) (label : Label) : Prop :=
  match label with
  | .main _ => s.pc.creates i = false
  | _ => True

instance (i : Fin nThreads) (s : State) : DecidablePred (LeavesEntry i s)
  | .main _ => inferInstanceAs (Decidable (_ = _))
  | .control _ | .worker _ _ => inferInstanceAs (Decidable True)

/-- `ctxs[i]` is older than the latest blackout. -/
def Stale (i : Fin nThreads) (s : State) : Prop :=
  ∀ h, s.ctxs i = some h → h < s.history.createdAtBlackout

/-- Only a creation of `ctxs[i]` itself makes it fresh. -/
theorem stale_step {i : Fin nThreads} {s after : State} {label : Label}
    (hand : Handshake s) (accounts : Accounts s) (stale : Stale i s)
    (leaves : LeavesEntry i s label) (taken : step s label = some after) :
    Stale i after := by
  cases label with
  | main input =>
      have effect := mainStep_effect taken
      have slot : after.table.slots i = s.table.slots i := by
        cases mainStep_contexts hand taken with
        | created j site table =>
            have elsewhere : i ≠ j := by
              rintro rfl
              rw [leaves] at site
              cases site
            rw [table, Table.slots_create_of_ne elsewhere]
        | destroyed j _ table => rw [table]; rfl
        | unfilled j _ _ table | abandoned _ _ table | kept table => rw [table]
      intro h stored
      rw [effect.createdAtBlackout]
      have older := stale h (slot.symm.trans stored)
      split
      · exact older.trans_le accounts.bound
      · exact older
  | control input =>
      have effect := controlStep_effect taken
      intro h stored
      rw [effect.history]
      exact stale h (effect.ctxs ▸ stored)
  | worker i input =>
      have frame := workerStep_frame taken
      simpa only [Stale, frame.ctxs, frame.createdAtBlackout] using stale

/-- After a failed `rknn_dup_context` on resume the entry keeps a destroyed
context. -/
theorem stale_of_failed_dup {i : Fin nThreads} {s after : State}
    {input : MainInput} (reach : system.Reachable s)
    (located : s.pc = .resume (.dupContext i)) (refused : input.success = false)
    (taken : mainStep s input = some after) : Stale i after := by
  have older := (reachable_accounts reach).unheld (by simp [located]) i
  simp only [State.holds, located, MainPc.holds] at older
  simp only [mainStep, located, resumeStep, refused, Option.some.injEq] at taken
  subst taken
  exact fun h stored => older h (by simp) stored

/-- It stays so, whatever follows, until that entry is created again. -/
theorem stale_after_failed_dup {i : Fin nThreads} {s after later : State}
    {input : MainInput} (reach : system.Reachable s)
    (located : s.pc = .resume (.dupContext i)) (refused : input.success = false)
    (taken : mainStep s input = some after)
    (path : system.Path (LeavesEntry i) after later) :
    system.Reachable later ∧ Stale i later := by
  have stepped : system.step s (.main input) = some after := taken
  have onward : system.Reachable after := reach.step True.intro stepped
  refine System.Path.preserves
    (fun s => system.Reachable s ∧ Stale i s) ?_ path
    ⟨onward, stale_of_failed_dup reach located refused taken⟩
  rintro s label after ⟨here, stale⟩ leaves taken
  exact ⟨here.step True.intro taken, stale_step (reachable_handshake here)
    (reachable_accounts here) stale leaves taken⟩

end KhadasYolo.Pipeline
