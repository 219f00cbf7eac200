import KhadasYolo.Summarizer.History

/-!
# What a snapshot contains

A presence episode opens with the frame that moves the machine from `NO_DRONE`
to `DRONE_PRESENT` and ends with the LLM window, however often the drone leaves
and comes back in between. The record loop tests the state before the switch,
and the switch clears the aggregates when it opens the episode: the snapshot
folds the UAV records of every later frame, and none of the opening frame. It
equals the fold over the whole episode exactly when the opening frame's records
leave no mark on the aggregates of their tracks.
-/

namespace KhadasYolo.Summarizer

open Ipc TransitionSystem

universe u

variable {F : Type u} [FloatOps F]

/-! ## Episodes of a history -/

/-- The tick whose frame starts an episode. -/
def Tick.opens (tick : Tick F) : Bool :=
  tick.before == .noDrone && tick.reached == .dronePresent

/-- The UAV records of the frame that started the latest episode. -/
def opening : List (Tick F) → List (WireTrackSummary F)
  | [] => []
  | tick :: earlier => if tick.opens then tick.uavs else opening earlier

/-- The UAV records of the frames after it, oldest first. -/
def later : List (Tick F) → List (WireTrackSummary F)
  | [] => []
  | tick :: earlier => if tick.opens then [] else later earlier ++ tick.uavs

/-- The UAV records of all frames of the latest episode. -/
def episode (history : List (Tick F)) : List (WireTrackSummary F) :=
  opening history ++ later history

omit [FloatOps F] in
theorem later_cons {tick : Tick F} {earlier : List (Tick F)}
    (running : tick.opens = false) :
    later (tick :: earlier) = later earlier ++ tick.uavs := by
  simp [later, running]

theorem aggregateOf_append (first second : List (WireTrackSummary F)) :
    aggregateOf (first ++ second) = second.foldl updateAggregate (aggregateOf first) :=
  List.foldl_append

omit [FloatOps F] in
/-- An LLM cycle writes one snapshot, that of its aggregates. -/
theorem mem_llmCycle {config : Config} {wrote : Bool} {gathered agg : Aggregate F}
    {path device : String} :
    .writeSnapshot path device agg ∈ llmCycle config wrote gathered ↔
      path = config.outPath ∧ device = config.device ∧ agg = gathered := by
  have broadcast : ∀ command,
      .writeSnapshot path device agg ∉ config.broadcast command := by
    intro command sent
    simp only [Config.broadcast] at sent
    split at sent
    next => simp at sent
    next => contradiction
  have qwen : .writeSnapshot path device agg ∉ config.runQwen wrote := by
    intro run
    simp only [Config.runQwen] at run
    split at run
    next => simp at run
    next => contradiction
  simp only [llmCycle, List.mem_append, List.mem_cons, broadcast, qwen, or_false,
    false_or, Effect.writeSnapshot.injEq]

/-- During an episode the aggregates fold the records that came after the
opening frame. -/
def Gathers (m : Machine F) (history : List (Tick F)) : Prop :=
  m.state.active = true → m.agg = aggregateOf (later history)

namespace TurnEffect

variable {config : Config} {m next : Machine F} {history : List (Tick F)}

/-- A turn keeps the aggregates in step with the frames recorded. -/
theorem gathers {tick : Option (Tick F)} (turn : TurnEffect config m tick next)
    (before : Gathers m history) : Gathers next (tick.toList ++ history) := by
  intro active
  cases turn with
  | links => exact before active
  | idles _ state => simp [State.active, state] at active
  | opens => rfl
  | stays _ uavs state | returns _ uavs state =>
      have gathered := before (by simp [State.active, state])
      rw [Option.toList_some, List.singleton_append, later_cons rfl,
        aggregateOf_append, ← gathered]
  | departs _ state | waits _ state =>
      have gathered := before (by simp [State.active, state])
      rw [Option.toList_some, List.singleton_append, later_cons rfl, List.append_nil,
        ← gathered]
  | expires => contradiction

/-- A turn that reaches the LLM window writes the fold over the frames recorded
since the opening one, its own included. -/
theorem snapshot {tick : Tick F} (turn : TurnEffect config m (some tick) next)
    (before : Gathers m history) (window : tick.reached = .llmWindow)
    (path device : String) (agg : Aggregate F) :
    .writeSnapshot path device agg ∈ tick.effects ↔
      path = config.outPath ∧ device = config.device ∧
        agg = aggregateOf (later (tick :: history)) := by
  cases turn with
  | expires _ _ state =>
      have gathered := before (by simp [State.active, state])
      rw [mem_llmCycle, later_cons rfl, List.append_nil, ← gathered]
  | idles | opens | stays | departs | returns | waits => contradiction

end TurnEffect

theorem reachable_gathers {config : Config} {watched : Watched F}
    (reach : (system config).Reachable watched) :
    Gathers watched.machine watched.history := by
  refine System.ReachableUnder.invariant
    (fun watched => Gathers watched.machine watched.history) (fun _ => rfl) ?_ reach
  intro before input after reached gathers _ taken
  rcases system_step (reachable_settled reached) taken with ⟨tick, turn, recorded⟩
  rw [recorded]
  exact turn.gathers gathers

/-- Every LLM window of a run writes the fold over the frames of its episode after
the opening one. -/
structure Gathering (config : Config) (watched : Watched F) : Prop where
  running : Gathers watched.machine watched.history
  written : ∀ tick earlier, (tick :: earlier) <:+ watched.history →
    tick.reached = .llmWindow → ∀ path device agg,
      .writeSnapshot path device agg ∈ tick.effects ↔
        path = config.outPath ∧ device = config.device ∧
          agg = aggregateOf (later (tick :: earlier))

theorem gathering {config : Config} {watched : Watched F}
    (reach : (system config).Reachable watched) : Gathering config watched where
  running := reachable_gathers reach
  written tick earlier made window := by
    rcases recorded_turn reach made with ⟨before, after, reached, turn⟩
    exact turn.snapshot (reachable_gathers reached) window

/-! ## The whole episode -/

namespace Schedule

/-- A drone track seen at one place with the given status and entry flag. -/
def sighting (status roiEntered : UInt8) : WireTrackSummary Float32 where
  className := #v[85, 65, 86, 0, 0, 0, 0, 0, 0, 0, 0, 0, 0, 0, 0, 0]
  trackId := 7
  framesSeen := 1
  firstSeenUs := 0
  lastSeenUs := 0
  durationMs := 0
  visibility := 1
  cx := 320
  cy := 240
  left := 300
  top := 220
  right := 340
  bottom := 260
  vx := 0
  vy := 0
  speed := 0
  headingDeg := 0
  accel := 0
  loiterScore := 0
  inRoi := 1
  roiEntered := roiEntered
  roiExited := 0
  status := status

/-- A drone appears inside the region, stays for one more frame and is gone for
the thirty seconds of the cooldown. -/
def visit : List (Input Float32) :=
  [.connect true,
    .receive (.frame [sighting 0 1]) 0 true,
    .receive (.frame [sighting 0 0]) 33 true,
    .receive (.frame [sighting 2 0]) 66 true,
    .receive .timeout 30066 true]

/-- The newest tick reached the LLM window with a map in which track 7 never
entered the region, though the first frame of the episode says that it did. -/
def entryMissing (watched : Watched Float32) : Bool :=
  match watched.history with
  | [] => false
  | tick :: earlier =>
      tick.reached == .llmWindow &&
        (opening (tick :: earlier)).any (fun s => s.trackId == 7 && s.roiEntered == 1) &&
        tick.effects.any fun effect =>
          match effect with
          | .writeSnapshot _ _ agg =>
              agg[(7 : UInt32)]?.map AggTrack.roiEntered == some false &&
                (aggregateOf (episode (tick :: earlier)))[(7 : UInt32)]?.map
                  AggTrack.roiEntered == some true
          | .sendControl _ _ | .system _ => false

theorem visit_entryMissing :
    ∃ watched, (system (Config.ofDevice "33")).Reachable watched ∧
      entryMissing watched = true :=
  System.reaches_of_replay _ System.unrestricted visit _ (by decide)

end Schedule

/-- Whenever a run reaches the LLM window, one map is handed to the snapshot
writer, and it is the fold over all UAV records of the episode exactly when the
records of the opening frame leave no mark on the aggregates of their tracks. -/
theorem snapshot_complete (config : Config) {watched : Watched F}
    (reach : (system config).Reachable watched) {tick : Tick F}
    {earlier : List (Tick F)} (made : (tick :: earlier) <:+ watched.history)
    (window : tick.reached = .llmWindow) :
    ∃ agg, (∀ path device other, .writeSnapshot path device other ∈ tick.effects ↔
        path = config.outPath ∧ device = config.device ∧ other = agg) ∧
      (agg = aggregateOf (episode (tick :: earlier)) ↔
        ∀ track, ofTrack track (opening (tick :: earlier)) ≠ [] →
          Repeated (ofTrack track (opening (tick :: earlier)))
            (ofTrack track (later (tick :: earlier)))) :=
  ⟨aggregateOf (later (tick :: earlier)),
    (gathering reach).written tick earlier made window, aggregateOf_eq_iff _ _⟩

/-- At the end of one visit of a drone the map that is handed over is not the fold over
its episode: the opening frame has left a mark. -/
theorem snapshot_complete_visit :
    ∃ (watched : Watched Float32) (tick : Tick Float32) (earlier : List (Tick Float32)),
      watched.history = tick :: earlier ∧
      ∃ agg, (∀ path device other, .writeSnapshot path device other ∈ tick.effects ↔
          path = (Config.ofDevice "33").outPath ∧
            device = (Config.ofDevice "33").device ∧ other = agg) ∧
        agg ≠ aggregateOf (episode (tick :: earlier)) ∧
        ∃ track, ofTrack track (opening (tick :: earlier)) ≠ [] ∧
          ¬ Repeated (ofTrack track (opening (tick :: earlier)))
            (ofTrack track (later (tick :: earlier))) := by
  rcases Schedule.visit_entryMissing with ⟨watched, reach, missing⟩
  cases made : watched.history with
  | nil => simp [Schedule.entryMissing, made] at missing
  | cons tick earlier =>
      simp only [Schedule.entryMissing, made, Bool.and_eq_true, beq_iff_eq,
        List.any_eq_true] at missing
      rcases missing with ⟨⟨window, _⟩, effect, member, shown⟩
      have newest : (tick :: earlier) <:+ watched.history := made ▸ List.suffix_refl _
      rcases snapshot_complete _ reach newest window with ⟨agg, written, complete⟩
      have differs : agg ≠ aggregateOf (episode (tick :: earlier)) := by
        cases effect with
        | writeSnapshot path device other =>
            rw [((written _ _ _).mp member).2.2, Bool.and_eq_true] at shown
            rintro rfl
            have absent := eq_of_beq shown.1
            rw [eq_of_beq shown.2] at absent
            contradiction
        | sendControl | system => contradiction
      rcases not_forall.mp (mt complete.mpr differs) with ⟨track, marked⟩
      exact ⟨watched, tick, earlier, made, agg, written, differs, track,
        Classical.not_imp.mp marked⟩

/-- A drone that is inside the region in the first frame of its episode: the map
handed over says that it never entered. -/
theorem opening_record_lost :
    ∃ (watched : Watched Float32) (tick : Tick Float32) (earlier : List (Tick Float32))
      (path device : String) (agg : Aggregate Float32),
      (system (Config.ofDevice "33")).Reachable watched ∧
      watched.history = tick :: earlier ∧ tick.reached = .llmWindow ∧
      .writeSnapshot path device agg ∈ tick.effects ∧
      (∃ s ∈ opening (tick :: earlier), s.trackId = 7 ∧ s.roiEntered = 1) ∧
      agg[(7 : UInt32)]?.map AggTrack.roiEntered = some false ∧
      agg ≠ aggregateOf (episode (tick :: earlier)) := by
  rcases Schedule.visit_entryMissing with ⟨watched, reach, missing⟩
  cases made : watched.history with
  | nil => simp [Schedule.entryMissing, made] at missing
  | cons tick earlier =>
      simp only [Schedule.entryMissing, made, Bool.and_eq_true, beq_iff_eq,
        List.any_eq_true] at missing
      rcases missing with ⟨⟨window, entering⟩, effect, member, shown⟩
      cases effect with
      | writeSnapshot path device agg =>
          rcases Bool.and_eq_true_iff.mp shown with ⟨absent, expected⟩
          refine ⟨watched, tick, earlier, path, device, agg, reach, made, window,
            member, entering, eq_of_beq absent, ?_⟩
          rintro rfl
          rw [eq_of_beq expected] at absent
          contradiction
      | sendControl | system => contradiction

/-- In exact arithmetic the loss shows whenever the opening frame carries exactly
one record of some track: the heading sums miss a unit vector. -/
theorem single_opening_record_lost (config : Config) {watched : Watched ℝ}
    (reach : (system config).Reachable watched) {tick : Tick ℝ}
    {earlier : List (Tick ℝ)} (made : (tick :: earlier) <:+ watched.history)
    (window : tick.reached = .llmWindow) {track : UInt32} {s : WireTrackSummary ℝ}
    (single : ofTrack track (opening (tick :: earlier)) = [s])
    {path device : String} {agg : Aggregate ℝ}
    (written : .writeSnapshot path device agg ∈ tick.effects) :
    agg ≠ aggregateOf (episode (tick :: earlier)) := by
  obtain ⟨_, _, rfl⟩ :=
    ((gathering reach).written tick earlier made window path device agg).mp written
  intro complete
  have repeated := (aggregateOf_eq_iff _ _).mp complete track (by rw [single]; nofun)
  rw [single] at repeated
  have cosZero : Real.cos (radians s) = 0 :=
    FloatOps.eq_zero_of_sumFrom_cons repeated.headingX
  have sinZero : Real.sin (radians s) = 0 :=
    FloatOps.eq_zero_of_sumFrom_cons repeated.headingY
  have unit := Real.cos_sq_add_sin_sq (radians s)
  rw [cosZero, sinZero] at unit
  norm_num at unit

end KhadasYolo.Summarizer
