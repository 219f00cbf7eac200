import KhadasYolo.Dataflow.Identity

/-!
# Identities across restarts of the tracker

Ids are unique within one tracker process, and every process starts with id 1. The
track manager lives on when its connection is lost, and takes a record of the next
process for another sighting of the track that had its id before. Observations stay
apart exactly when no id comes back that soon.
-/

namespace KhadasYolo.Dataflow

open Ageing Ipc Tracker Temporal TrackManager

universe u

/-- The track an observation shows: its tracker process, and the number of the
frame there that started it. -/
structure Origin where
  process : Nat
  born : Nat
  deriving DecidableEq, Repr

/-- A tracker process, and how many records of each of its delivered frames arrive.
A frame may be cut off by a lost connection. -/
structure Process (F : Type u) where
  inputs : List (Input F)
  arrives : Nat → Nat

/-- A frame as it arrives, and the number of the process that sent it. -/
structure Delivery (F : Type u) where
  process : Nat
  frame : Tracked F

/-- The track manager, with the origins of all observations that each of its states
has been updated with. -/
structure Provenance (F : Type u) where
  mgr : TrackManager F
  origins : UInt32 → List Origin

variable {F : Type u}

/-- The first records of a frame. -/
def truncate (frame : Tracked F) (arrived : Nat) : Tracked F :=
  { frame with outputs := frame.outputs.take arrived }

/-- All observations of a state show one track. -/
def Provenance.Undivided (self : Provenance F) : Prop :=
  ∀ id, self.mgr.tracks[id]?.isSome →
    ∀ first ∈ self.origins id, ∀ second ∈ self.origins id, first = second

/-- The sightings of an id in some deliveries, each with its origin. -/
def originsOf (id : UInt32) (deliveries : List (Delivery F)) : List (Option Origin) :=
  deliveries.map fun delivery =>
    delivery.frame.sighting (fun frame => ⟨delivery.process, frame.born id⟩) id

/-- The sightings of an id in some deliveries, each with its process. -/
def processesOf (id : UInt32) (deliveries : List (Delivery F)) : List (Option Nat) :=
  deliveries.map fun delivery => delivery.frame.sighting (fun _ => delivery.process) id

variable [FloatMath F]

/-- What arrives from one process. -/
def Process.deliveries (process : Process F) (number : Nat) : List (Delivery F) :=
  ((trackAll process.inputs).filter Tracked.delivered).mapIdx fun position frame =>
    ⟨number, truncate frame (process.arrives position)⟩

/-- What arrives from one process after the other. -/
def deliveriesFrom : Nat → List (Process F) → List (Delivery F)
  | _, [] => []
  | number, process :: rest => process.deliveries number ++ deliveriesFrom (number + 1) rest

/-- A record is folded into the state of its id, or into a new one. -/
def Provenance.receive (self : Provenance F) (delivery : Delivery F) : Provenance F where
  mgr := Dataflow.receive self.mgr delivery.frame
  origins id :=
    (if self.mgr.tracks[id]?.isSome then self.origins id else []) ++
      (recordsFor id (recordsOf delivery.frame)).map fun _ =>
        ⟨delivery.process, delivery.frame.born id⟩

def Provenance.start (roi : Roi) : Provenance F := ⟨.fresh roi, fun _ => []⟩

def Provenance.after (roi : Roi) (deliveries : List (Delivery F)) : Provenance F :=
  deliveries.foldl Provenance.receive (.start roi)

/-- The track manager does not know where a record comes from. -/
theorem after_mgr (roi : Roi) (deliveries : List (Delivery F)) :
    (Provenance.after roi deliveries).mgr =
      receiveAll (.fresh roi) (deliveries.map Delivery.frame) := by
  have folded : ∀ provenance : Provenance F, (deliveries.foldl Provenance.receive provenance).mgr =
      receiveAll provenance.mgr (deliveries.map Delivery.frame) := by
    induction deliveries with
    | nil => exact fun _ => rfl
    | cons delivery rest ih => exact fun provenance => ih (provenance.receive delivery)
  exact folded (.start roi)

/-! ## Origins of one state -/

/-- A state and its origins go with a life of its id. -/
structure Traces (provenance : Provenance F) (id : UInt32) (life : Option (Life Origin)) :
    Prop where
  follows : Option.Rel Follows provenance.mgr.tracks[id]? life
  origins : ∀ held ∈ life, provenance.origins id = held.sightings

omit [FloatMath F] in
theorem Traces.isSome_iff {provenance : Provenance F} {id : UInt32}
    {life : Option (Life Origin)} (traces : Traces provenance id life) :
    provenance.mgr.tracks[id]?.isSome = life.isSome := by
  have follows := traces.follows
  generalize provenance.mgr.tracks[id]? = held at follows
  cases follows <;> rfl

/-- What a delivery adds to the origins of a state. -/
theorem receive_origins {provenance : Provenance F} {id : UInt32}
    {life : Option (Life Origin)} (traces : Traces provenance id life)
    (delivery : Delivery F) :
    (provenance.receive delivery).origins id = life.elim [] Life.sightings ++
      (recordsFor id (recordsOf delivery.frame)).map fun _ =>
        ⟨delivery.process, delivery.frame.born id⟩ := by
  have former : (if provenance.mgr.tracks[id]?.isSome then provenance.origins id else []) =
      life.elim [] Life.sightings := by
    rw [traces.isSome_iff]
    cases life with
    | none => rfl
    | some life => exact traces.origins life rfl
  simp only [Provenance.receive, former]

/-- A delivery is a round in the life of every id. -/
theorem Traces.receive {provenance : Provenance F} {id : UInt32}
    {life : Option (Life Origin)} (traces : Traces provenance id life)
    {delivery : Delivery F} (numbered : WellNumbered delivery.frame) :
    Traces (provenance.receive delivery) id
      (round kMaxFramesLost.toNat life
        (delivery.frame.sighting (fun frame => ⟨delivery.process, frame.born id⟩) id)) where
  follows := by
    rw [Provenance.receive, Dataflow.receive, frame_tracks]
    apply turn_follows traces.follows
    rw [recordsFor_isEmpty numbered, Tracked.sighting]
    by_cases member : id ∈ delivery.frame.ids <;> simp [member]
  origins := by
    have empty := recordsFor_isEmpty numbered id
    have single := length_recordsFor numbered id
    rw [receive_origins traces]
    generalize recordsFor id (recordsOf delivery.frame) = records at empty single
    by_cases member : id ∈ delivery.frame.ids
    · rw [Tracked.sighting, if_pos member]
      rintro _ ⟨⟩
      rw [decide_eq_true member] at empty
      cases records with
      | nil => contradiction
      | cons rec rest =>
          have last : rest = [] := List.length_eq_zero_iff.mp (by simpa using single)
          subst last
          rfl
    · rw [Tracked.sighting, if_neg member]
      rw [decide_eq_false member] at empty
      rw [List.isEmpty_iff.mp empty, List.map_nil, List.append_nil]
      intro held goes
      cases life with
      | none => exact absurd goes (Option.not_mem_none held)
      | some life =>
          simp only [Ageing.round, Option.bind_some, Option.mem_def] at goes
          split at goes
          next =>
            cases goes
            rfl
          next => contradiction

theorem Traces.receiveAll {provenance : Provenance F} {id : UInt32}
    {life : Option (Life Origin)} (traces : Traces provenance id life)
    {deliveries : List (Delivery F)}
    (numbered : ∀ delivery ∈ deliveries, WellNumbered delivery.frame) :
    Traces (deliveries.foldl Provenance.receive provenance) id
      (lifeFrom kMaxFramesLost.toNat life (originsOf id deliveries)) := by
  induction deliveries generalizing provenance life with
  | nil => exact traces
  | cons delivery rest ih =>
      rw [List.forall_mem_cons] at numbered
      exact ih (traces.receive numbered.1) numbered.2

omit [FloatMath F] in
theorem traces_start (roi : Roi) (id : UInt32) :
    Traces (.start roi : Provenance F) id none where
  follows := by
    rw [Provenance.start, TrackManager.fresh, Std.ExtTreeMap.getElem?_empty]
    exact .none
  origins := nofun

omit [FloatMath F] in
/-- The state of every id is undivided when its life is. -/
theorem undivided_iff {provenance : Provenance F} {lives : UInt32 → Option (Life Origin)}
    (traces : ∀ id, Traces provenance id (lives id)) :
    provenance.Undivided ↔ ∀ id, ∀ life ∈ lives id, life.Uniform := by
  constructor
  · intro undivided id life held
    have alive := (traces id).isSome_iff
    rw [Option.mem_def.mp held] at alive
    have same := undivided id alive
    rwa [(traces id).origins life held] at same
  · intro uniform id alive
    rw [(traces id).isSome_iff] at alive
    rcases Option.isSome_iff_exists.mp alive with ⟨life, held⟩
    rw [(traces id).origins life held]
    exact uniform id life held

/-- At every moment all states are undivided, exactly when the origins of every id
are separated. -/
theorem undivided_iff_separate (roi : Roi) {deliveries : List (Delivery F)}
    (numbered : ∀ delivery ∈ deliveries, WellNumbered delivery.frame) :
    (∀ moment, moment <+: deliveries → (Provenance.after roi moment).Undivided) ↔
      ∀ id, Separate kMaxFramesLost.toNat none (originsOf id deliveries) := by
  have each : ∀ moment, moment <+: deliveries →
      ((Provenance.after roi moment).Undivided ↔ ∀ id, ∀ life ∈
        lifeFrom kMaxFramesLost.toNat none (originsOf id moment), life.Uniform) := by
    intro moment initial
    exact undivided_iff fun id => (traces_start roi id).receiveAll fun delivery member =>
      numbered delivery (initial.subset member)
  have joined : Joined kMaxFramesLost.toNat (none : Option (Life Origin)) none := trivial
  constructor
  · intro undivided id
    rw [← uniform_iff_separate joined]
    intro earlier initial
    rcases List.prefix_map_iff.mp initial with ⟨moment, before, rfl⟩
    exact (each moment before).mp (undivided moment before) id
  · intro separate moment initial
    rw [each moment initial]
    intro id
    exact (uniform_iff_separate joined _).mpr (separate id) _ (initial.map _)

/-! ## Processes instead of origins -/

section Processes

variable {processes : List (Process F)}

theorem mem_deliveriesFrom {number : Nat} {delivery : Delivery F}
    (member : delivery ∈ deliveriesFrom number processes) :
    ∃ position process frame arrived, delivery.process = number + position ∧
      processes[position]? = some process ∧ frame ∈ trackAll process.inputs ∧
      delivery.frame = truncate frame arrived := by
  induction processes generalizing number with
  | nil => contradiction
  | cons process rest ih =>
      rw [deliveriesFrom, List.mem_append] at member
      rcases member with here | later
      · rcases List.mem_mapIdx.mp here with ⟨position, inRange, same⟩
        subst same
        exact ⟨0, process, _, _, rfl, rfl,
          List.mem_of_mem_filter (List.getElem_mem inRange), rfl⟩
      · rcases ih later with ⟨position, other, frame, arrived, same, held, among, cut⟩
        exact ⟨position + 1, other, frame, arrived, by omega, held, among, cut⟩

omit [FloatMath F] in
theorem ids_truncate (frame : Tracked F) (arrived : Nat) :
    (truncate frame arrived).ids.Sublist frame.ids :=
  (List.take_sublist arrived frame.outputs).map TrackerOutput.trackId

variable (enough : ∀ process ∈ processes, EnoughIds process.inputs)

include enough

theorem deliveries_numbered :
    ∀ delivery ∈ deliveriesFrom 0 processes, WellNumbered delivery.frame := by
  intro delivery member
  rcases mem_deliveriesFrom member with ⟨_, process, frame, arrived, _, held, among, cut⟩
  have numbered := trackAll_ids (enough process (List.mem_of_getElem? held)) frame among
  rw [cut]
  exact ⟨numbered.1.sublist (ids_truncate frame arrived),
    fun zero => numbered.2 ((ids_truncate frame arrived).subset zero)⟩

/-- Within a process an id shows one track. -/
theorem same_born {first second : Delivery F} {id : UInt32}
    (inFirst : first ∈ deliveriesFrom 0 processes) (firstShows : id ∈ first.frame.ids)
    (inSecond : second ∈ deliveriesFrom 0 processes) (secondShows : id ∈ second.frame.ids)
    (same : first.process = second.process) : first.frame.born id = second.frame.born id := by
  rcases mem_deliveriesFrom inFirst with ⟨i, process, frame, k, number, held, among, cut⟩
  rcases mem_deliveriesFrom inSecond with ⟨j, other, last, l, again, found, within, short⟩
  have equal : i = j := by omega
  subst equal
  rw [held] at found
  cases found
  rcases trackAll_born (enough process (List.mem_of_getElem? held)) id with ⟨start, shows⟩
  rw [cut] at firstShows ⊢
  rw [short] at secondShows ⊢
  exact (shows frame among ((ids_truncate frame k).subset firstShows)).trans
    (shows last within ((ids_truncate last l).subset secondShows)).symm

theorem separate_origins_iff (id : UInt32) :
    Separate kMaxFramesLost.toNat none (originsOf id (deliveriesFrom 0 processes)) ↔
      Separate kMaxFramesLost.toNat none (processesOf id (deliveriesFrom 0 processes)) := by
  have shown : ∀ origin, some origin ∈ originsOf id (deliveriesFrom 0 processes) →
      ∃ delivery ∈ deliveriesFrom 0 processes, id ∈ delivery.frame.ids ∧
        origin = ⟨delivery.process, delivery.frame.born id⟩ := by
    intro origin member
    rcases List.mem_map.mp member with ⟨delivery, among, shows⟩
    rw [Tracked.sighting] at shows
    split at shows
    next present =>
      cases shows
      exact ⟨delivery, among, present, rfl⟩
    next => contradiction
  have injective : ∀ first second,
      some first ∈ originsOf id (deliveriesFrom 0 processes) →
      some second ∈ originsOf id (deliveriesFrom 0 processes) →
      first.process = second.process → first = second := by
    intro first second inFirst inSecond same
    rcases shown first inFirst with ⟨former, among, shows, rfl⟩
    rcases shown second inSecond with ⟨latter, within, again, rfl⟩
    exact congr (congrArg Origin.mk same) (same_born enough among shows within again same)
  have nothing : ∀ gap origin, (none : Option (Nat × Origin)) = some (gap, origin) →
      some origin ∈ originsOf id (deliveriesFrom 0 processes) := by
    intro gap origin impossible
    contradiction
  have processes_eq : processesOf id (deliveriesFrom 0 processes) =
      (originsOf id (deliveriesFrom 0 processes)).map (Option.map Origin.process) := by
    rw [processesOf, originsOf, List.map_map]
    apply List.map_congr_left
    intro delivery _
    by_cases member : id ∈ delivery.frame.ids <;> simp [Tracked.sighting, member]
  rw [processes_eq]
  exact (separate_map_iff injective nothing fun _ member => member).symm

end Processes

/-- At every moment the observations of each state show the same track of the same
process, exactly when an id that comes back from another process comes after more
than 30 frames without it. -/
theorem undivided_iff_apart (roi : Roi) {processes : List (Process F)}
    (enough : ∀ process ∈ processes, EnoughIds process.inputs) :
    (∀ moment, moment <+: deliveriesFrom 0 processes →
        (Provenance.after roi moment).Undivided) ↔
      ∀ id, Separate 30 none (processesOf id (deliveriesFrom 0 processes)) := by
  rw [undivided_iff_separate roi (deliveries_numbered enough)]
  exact forall_congr' (separate_origins_iff enough)

namespace Example

/-- A process that delivers one frame with one record. -/
def once (timestampUs : UInt64) : Process Float32 where
  inputs := [shown timestampUs true]
  arrives := fun _ => 1

/-- The tracker restarts after its first frame, and the next object is the first one
of the new process. -/
def restarted : List (Process Float32) := [once 1000, once 2000]

/-- The next object comes when the ids of the first process have been forgotten. -/
def paused : List (Process Float32) :=
  [once 1000, { inputs := .replicate 31 empty ++ [shown 2000 true], arrives := fun _ => 1 }]

end Example

set_option maxRecDepth 8000 in
/-- Nothing is mixed up by a restart with more than thirty frames in between. -/
theorem undivided_behind_pause :
    let deliveries := deliveriesFrom 0 Example.paused
    processesOf 1 deliveries = some 0 :: .replicate 31 none ++ [some 1] ∧
      (Provenance.after .disabled deliveries).Undivided := by
  have enough : ∀ process ∈ Example.paused, EnoughIds process.inputs := by
    intro process member
    simp only [Example.paused, List.mem_cons, List.not_mem_nil, or_false] at member
    rcases member with rfl | rfl <;> decide
  have sightings : processesOf 1 (deliveriesFrom 0 Example.paused) =
      some 0 :: .replicate 31 none ++ [some 1] := by decide
  have ids : (deliveriesFrom 0 Example.paused).map (fun delivery => delivery.frame.ids) =
      [1] :: .replicate 31 [] ++ [[1]] := by decide
  have count : (deliveriesFrom 0 Example.paused).length = 33 := by
    rw [← List.length_map, ids]
    rfl
  have only : ∀ delivery ∈ deliveriesFrom 0 Example.paused,
      ∀ id ∈ delivery.frame.ids, id = 1 := by
    intro delivery among id member
    have shown := List.mem_map_of_mem (f := fun delivery => delivery.frame.ids) among
    rw [ids] at shown
    simp only [List.cons_append, List.mem_cons, List.mem_append, List.mem_replicate,
      List.not_mem_nil, or_false] at shown
    rcases shown with one | ⟨_, nobody⟩ | one
    · simpa [one] using member
    · simp [nobody] at member
    · simpa [one] using member
  refine ⟨sightings, (undivided_iff_apart .disabled enough).mpr (fun id => ?_) _ List.prefix_rfl⟩
  by_cases same : id = 1
  · subst same
    rw [sightings]
    simp [Separate, List.replicate]
  · have nothing : processesOf id (deliveriesFrom 0 Example.paused) = .replicate 33 none := by
      rw [List.eq_replicate_iff]
      refine ⟨by rw [processesOf, List.length_map, count], fun seen member => ?_⟩
      rcases List.mem_map.mp member with ⟨delivery, among, rfl⟩
      exact if_neg fun member => same (only delivery among id member)
    rw [nothing]
    exact separate_replicate _ _

set_option maxRecDepth 4000 in
/-- The state of id 1 has counted a frame of either process, and keeps what it has of
the first. -/
theorem restart_divides :
    let deliveries := deliveriesFrom 0 Example.restarted
    let final := Provenance.after .disabled deliveries
    (∀ process ∈ Example.restarted, EnoughIds process.inputs) ∧
      final.origins 1 = [⟨0, 0⟩, ⟨1, 0⟩] ∧ ¬ final.Undivided ∧
      final.mgr.tracks[(1 : UInt32)]?.map (fun s => (s.framesSeen, s.firstSeenUs)) =
        some (2, 1000) := by
  dsimp only
  have enough : ∀ process ∈ Example.restarted, EnoughIds process.inputs := by
    intro process member
    simp only [Example.restarted, List.mem_cons, List.not_mem_nil, or_false] at member
    rcases member with rfl | rfl <;> decide
  have traces := (traces_start .disabled 1).receiveAll (deliveries_numbered enough)
  have life : lifeFrom kMaxFramesLost.toNat none
      (originsOf 1 (deliveriesFrom 0 Example.restarted)) = some ⟨0, [⟨0, 0⟩, ⟨1, 0⟩]⟩ := by
    decide
  rw [life, ← Provenance.after] at traces
  have origins := traces.origins _ rfl
  refine ⟨enough, origins, ?_, ?_⟩
  · intro undivided
    have same := undivided 1 traces.isSome_iff
    rw [origins] at same
    exact absurd (same ⟨0, 0⟩ (by decide) ⟨1, 0⟩ (by decide)) (by decide)
  · rw [after_mgr, receiveAll_tracks, TrackManager.fresh, Std.ExtTreeMap.getElem?_empty]
    decide

end KhadasYolo.Dataflow
