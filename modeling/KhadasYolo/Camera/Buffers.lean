import KhadasYolo.Lib.TransitionSystem
import Mathlib.Data.List.Perm.Basic
import Mathlib.Logic.Function.Basic
import Mathlib.Order.Basic

/-!
# The buffers of the camera

The driver fills empty buffers with frames in the order in which they were queued, and
hands filled ones out in that order; a frame that finds no empty buffer is lost.  The
program takes one buffer at a time, and puts it back when it has converted the frame.

During a blackout nobody takes a buffer, so that all of them fill up with old frames.  The
resume path takes and returns as many buffers as there are before it goes on.
-/

namespace KhadasYolo.Camera

open TransitionSystem

/-- `REQ_COUNT`. -/
def reqCount : Nat := 4

/-- The frames that the resume path drops. -/
def drained : Nat := 4

inductive Phase where
  | capturing
  | dark
  | draining (left : Nat)
  deriving DecidableEq, Repr

structure Filled where
  index : Nat
  frame : Nat
  deriving DecidableEq, Repr

/-- The queues of the driver, the oldest buffer first, and the buffer that the program has
between `read_mipi_frame_nv12` and `release_mipi_frame`. -/
structure State where
  empty : List Nat
  filled : List Filled
  held : Option Filled
  converted : Bool
  /-- the frame that the memory of a buffer shows -/
  memory : Nat → Nat
  /-- how many the sensor has produced -/
  frames : Nat
  phase : Phase
  captured : List Nat
  /-- the first frame behind the last resume, and those converted since -/
  resumed : Nat
  since : List Nat

inductive Action where
  | expose
  | read
  | convert
  | release
  | blackout
  | resume
  deriving DecidableEq, Repr

/-- The driver writes a frame into the next empty buffer. -/
def State.expose (s : State) : State :=
  match s.empty with
  | [] => { s with frames := s.frames + 1 }
  | index :: rest =>
      { s with
        empty := rest
        filled := s.filled ++ [⟨index, s.frames⟩]
        memory := Function.update s.memory index s.frames
        frames := s.frames + 1 }

def Phase.next : Phase → Phase
  | .capturing => .capturing
  | .dark => .dark
  | .draining left => if left ≤ 1 then .capturing else .draining (left - 1)

def step (s : State) : Action → Option State
  | .expose => some s.expose
  | .read =>
      match s.held, s.filled with
      | some _, _ => none
      | none, [] => none
      | none, first :: rest =>
          if s.phase = .dark then none
          else some { s with filled := rest, held := some first, converted := false }
  | .convert =>
      match s.held with
      | none => none
      | some buffer =>
          if s.phase = .capturing ∧ s.converted = false then
            some { s with
              converted := true
              captured := s.captured ++ [s.memory buffer.index]
              since := s.since ++ [s.memory buffer.index] }
          else none
  | .release =>
      match s.held with
      | none => none
      | some buffer =>
          if s.phase = .capturing ∧ s.converted = false then none
          else
            some { s with
              held := none
              empty := s.empty ++ [buffer.index]
              phase := s.phase.next }
  | .blackout =>
      if s.phase = .capturing ∧ s.held = none then some { s with phase := .dark } else none
  | .resume =>
      if s.phase = .dark then
        some { s with phase := .draining drained, resumed := s.frames, since := [] }
      else none

/-- The camera from `load_mipi_camera` on, with as many buffers as the driver has granted. -/
def camera (granted : Nat) : System State Action where
  init :=
    { empty := List.range granted
      filled := []
      held := none
      converted := false
      memory := fun _ => 0
      frames := 0
      phase := .capturing
      captured := []
      resumed := 0
      since := [] }
  step := step

/-! ## What every step keeps -/

/-- The buffers with a frame, the held one first. -/
def State.full (s : State) : List Filled := s.held.toList ++ s.filled

/-- The buffers with a frame that has not been converted. -/
def State.ahead (s : State) : List Filled := if s.converted then s.filled else s.full

/-- How many of the filled buffers may have frames from before the last resume. -/
def State.old (s : State) : Nat :=
  match s.phase with
  | .capturing => 0
  | .dark => 0
  | .draining left => left - s.held.toList.length

structure Sound (granted : Nat) (s : State) : Prop where
  places : (s.empty ++ s.full.map Filled.index).Perm (List.range granted)
  ordered : (s.captured ++ s.ahead.map Filled.frame).Pairwise (· < ·)
  past : ∀ frame ∈ s.captured ++ s.full.map Filled.frame, frame < s.frames
  shown : ∀ buffer ∈ s.full, s.memory buffer.index = buffer.frame
  stale : s.filled.countP (·.frame < s.resumed) ≤ s.old
  resumed : s.resumed ≤ s.frames
  idle : s.phase = .dark → s.held = none
  rounds : ∀ left, s.phase = .draining left → 0 < left
  fresh : s.phase = .capturing → ∀ buffer ∈ s.held, s.resumed ≤ buffer.frame
  since : ∀ frame ∈ s.since, s.resumed ≤ frame

theorem Sound.start (granted : Nat) : Sound granted (camera granted).init where
  places := .of_eq (List.append_nil _)
  ordered := List.Pairwise.nil
  past := nofun
  shown := nofun
  stale := Nat.le_refl _
  resumed := Nat.le_refl _
  idle _ := rfl
  rounds := nofun
  fresh _ := nofun
  since := nofun

section Steps

variable {granted : Nat} {s after : State}

theorem State.ahead_sublist (s : State) : s.ahead.Sublist s.full := by
  rw [State.ahead]
  split
  · exact List.sublist_append_right _ _
  · exact List.Sublist.refl _

/-- The driver does not write into a buffer that has a frame. -/
theorem Sound.apart (sound : Sound granted s) {index : Nat} {rest : List Nat}
    (next : s.empty = index :: rest) {buffer : Filled} (member : buffer ∈ s.full) :
    buffer.index ≠ index := by
  have distinct := sound.places.symm.nodup List.nodup_range
  rw [next, List.cons_append, List.nodup_cons, List.mem_append, not_or] at distinct
  rintro rfl
  exact distinct.1.2 (List.mem_map_of_mem member)

theorem Sound.past_ahead (sound : Sound granted s) :
    ∀ frame ∈ s.captured ++ s.ahead.map Filled.frame, frame < s.frames := by
  intro frame member
  rcases List.mem_append.mp member with old | ahead
  · exact sound.past frame (List.mem_append_left _ old)
  · exact sound.past frame
      (List.mem_append_right _ ((s.ahead_sublist.map Filled.frame).subset ahead))

theorem Sound.expose (sound : Sound granted s) : Sound granted s.expose := by
  rw [State.expose]
  split
  next =>
    exact { sound with
      past := fun frame member => Nat.lt_succ_of_lt (sound.past frame member)
      resumed := Nat.le_succ_of_le sound.resumed }
  next index rest next =>
    let new : Filled := ⟨index, s.frames⟩
    have full : s.held.toList ++ (s.filled ++ [new]) = s.full ++ [new] :=
      (List.append_assoc _ _ _).symm
    have ahead : (if s.converted then s.filled ++ [new] else s.held.toList ++ (s.filled ++ [new])) =
        s.ahead ++ [new] := by
      rw [full, State.ahead]
      split <;> rfl
    constructor
    · have places := sound.places
      rw [next] at places
      change (rest ++ (s.held.toList ++ (s.filled ++ [new])).map Filled.index).Perm _
      rw [full, List.map_append, List.map_singleton, ← List.append_assoc]
      exact (List.perm_append_singleton _ _).trans places
    · change (s.captured ++ List.map Filled.frame (if s.converted then s.filled ++ [new]
        else s.held.toList ++ (s.filled ++ [new]))).Pairwise (· < ·)
      rw [ahead, List.map_append, ← List.append_assoc]
      refine List.pairwise_append.mpr ⟨sound.ordered, List.pairwise_singleton _ _, ?_⟩
      intro frame member newest last
      rw [List.mem_singleton.mp last]
      exact sound.past_ahead frame member
    · change ∀ frame ∈ s.captured ++ (s.held.toList ++ (s.filled ++ [new])).map Filled.frame,
        frame < s.frames + 1
      rw [full, List.map_append, ← List.append_assoc, List.forall_mem_append]
      refine ⟨fun frame member => Nat.lt_succ_of_lt (sound.past frame member), ?_⟩
      exact List.forall_mem_singleton.mpr (Nat.lt_succ_self _)
    · change ∀ buffer ∈ s.held.toList ++ (s.filled ++ [new]),
        Function.update s.memory index s.frames buffer.index = buffer.frame
      rw [full, List.forall_mem_append]
      constructor
      · intro buffer member
        rw [Function.update_of_ne (sound.apart next member)]
        exact sound.shown buffer member
      · exact List.forall_mem_singleton.mpr (Function.update_self _ _ _)
    · change (s.filled ++ [new]).countP (·.frame < s.resumed) ≤ s.old
      have fresh : ¬ new.frame < s.resumed := Nat.not_lt.mpr sound.resumed
      rw [List.countP_append, List.countP_singleton, if_neg (by simpa using fresh)]
      exact sound.stale
    · exact Nat.le_succ_of_le sound.resumed
    · exact sound.idle
    · exact sound.rounds
    · exact sound.fresh
    · exact sound.since

/-- The oldest frame is taken; if it is not an old one, none is. -/
theorem Sound.read (sound : Sound granted s) {first : Filled} {rest : List Filled}
    (free : s.held = none) (next : s.filled = first :: rest) (awake : s.phase ≠ .dark) :
    Sound granted { s with filled := rest, held := some first, converted := false } := by
  have full : s.full = first :: rest := by rw [State.full, free, next]; rfl
  have ahead : s.ahead = first :: rest := by
    rw [State.ahead, full, next, ite_self]
  have sorted := sound.ordered
  rw [ahead] at sorted
  have later := (List.pairwise_cons.mp (List.pairwise_append.mp sorted).2.1).1
  have fewer : rest.countP (·.frame < s.resumed) ≤ s.old - 1 := by
    have stale := sound.stale
    rw [next, List.countP_cons] at stale
    by_cases old : first.frame < s.resumed
    · rw [if_pos (by simpa using old)] at stale
      exact Nat.le_sub_of_add_le stale
    · have none : rest.countP (·.frame < s.resumed) = 0 := by
        rw [List.countP_eq_zero]
        intro buffer member
        have larger := later _ (List.mem_map_of_mem member)
        rw [decide_eq_true_eq]
        omega
      rw [none]
      exact Nat.zero_le _
  have places := sound.places
  have past := sound.past
  have shown := sound.shown
  rw [full] at places past shown
  constructor
  · exact places
  · exact sorted
  · exact past
  · exact shown
  · refine Nat.le_trans fewer ?_
    rw [State.old, State.old, free]
    cases s.phase <;> simp
  · exact sound.resumed
  · exact fun dark => absurd dark awake
  · exact sound.rounds
  · intro capturing buffer held
    cases held
    have stale := sound.stale
    rw [State.old, capturing, next, Nat.le_zero, List.countP_eq_zero] at stale
    have young := stale first List.mem_cons_self
    rw [decide_eq_true_eq] at young
    exact Nat.le_of_not_lt young
  · exact sound.since

theorem Sound.convert (sound : Sound granted s) {buffer : Filled} (held : s.held = some buffer)
    (capturing : s.phase = .capturing) (once : s.converted = false) :
    Sound granted { s with
      converted := true
      captured := s.captured ++ [s.memory buffer.index]
      since := s.since ++ [s.memory buffer.index] } := by
  have full : s.full = buffer :: s.filled := by rw [State.full, held]; rfl
  have ahead : s.ahead = buffer :: s.filled := by
    rw [State.ahead, once, if_neg Bool.false_ne_true, full]
  have shows : s.memory buffer.index = buffer.frame :=
    sound.shown buffer (full ▸ List.mem_cons_self)
  rw [shows]
  constructor
  · exact sound.places
  · have ordered := sound.ordered
    rw [ahead, List.map_cons] at ordered
    change (s.captured ++ [buffer.frame] ++ s.filled.map Filled.frame).Pairwise (· < ·)
    rwa [List.append_assoc, List.singleton_append]
  · have past := sound.past
    have member : buffer.frame ∈ s.full.map Filled.frame := by
      rw [full]
      exact List.mem_cons_self
    change ∀ frame ∈ s.captured ++ [buffer.frame] ++ s.full.map Filled.frame, frame < s.frames
    intro frame among
    rw [List.append_assoc, List.mem_append, List.singleton_append, List.mem_cons] at among
    rcases among with old | rfl | later
    · exact past frame (List.mem_append_left _ old)
    · exact past _ (List.mem_append_right _ member)
    · exact past frame (List.mem_append_right _ later)
  · exact sound.shown
  · exact sound.stale
  · exact sound.resumed
  · exact sound.idle
  · exact sound.rounds
  · exact sound.fresh
  · change ∀ frame ∈ s.since ++ [buffer.frame], s.resumed ≤ frame
    rw [List.forall_mem_append, List.forall_mem_singleton]
    exact ⟨sound.since, sound.fresh capturing buffer held⟩

theorem State.filled_sublist (s : State) : s.filled.Sublist s.ahead := by
  rw [State.ahead]
  split
  · exact List.Sublist.refl _
  · exact List.sublist_append_right _ _

theorem Sound.release (sound : Sound granted s) {buffer : Filled}
    (held : s.held = some buffer) :
    Sound granted { s with
      held := none
      empty := s.empty ++ [buffer.index]
      phase := s.phase.next } := by
  have full : s.full = buffer :: s.filled := by rw [State.full, held]; rfl
  have places := sound.places
  have past := sound.past
  have shown := sound.shown
  rw [full] at places past shown
  constructor
  · change (s.empty ++ [buffer.index] ++ s.filled.map Filled.index).Perm _
    rwa [List.append_assoc, List.singleton_append]
  · change (s.captured ++ List.map Filled.frame
      (if s.converted then s.filled else [] ++ s.filled)).Pairwise (· < ·)
    rw [List.nil_append, ite_self]
    exact sound.ordered.sublist ((s.filled_sublist.map Filled.frame).append_left _)
  · intro frame member
    rcases List.mem_append.mp member with old | later
    · exact past frame (List.mem_append_left _ old)
    · exact past frame (List.mem_append_right _ (List.mem_cons_of_mem _ later))
  · exact fun other member => shown other (List.mem_cons_of_mem _ member)
  · refine Nat.le_trans sound.stale ?_
    rw [State.old, State.old, held]
    cases phase : s.phase with
    | capturing => exact Nat.le_refl _
    | dark => exact Nat.le_refl _
    | draining left =>
        by_cases last : left ≤ 1
        · simp only [Phase.next, if_pos last]
          exact Nat.le_of_eq (Nat.sub_eq_zero_of_le last)
        · simp only [Phase.next, if_neg last]
          exact Nat.le_refl _
  · exact sound.resumed
  · exact fun _ => rfl
  · intro left draining
    change s.phase.next = .draining left at draining
    cases phase : s.phase with
    | draining before =>
        rw [phase, Phase.next] at draining
        split at draining
        · contradiction
        · cases draining
          omega
    | _ =>
        rw [phase] at draining
        contradiction
  · exact fun _ => nofun
  · exact sound.since

/-- All buffers may have old frames. -/
theorem Sound.resume (sound : Sound granted s) (enough : granted ≤ reqCount)
    (dark : s.phase = .dark) :
    Sound granted { s with phase := .draining drained, resumed := s.frames, since := [] } := by
  have few := sound.places.length_eq
  rw [List.length_append, List.length_map, State.full, sound.idle dark, List.length_range]
    at few
  constructor
  · exact sound.places
  · exact sound.ordered
  · exact sound.past
  · exact sound.shown
  · refine Nat.le_trans (List.countP_le_length) ?_
    rw [State.old, sound.idle dark]
    rw [reqCount] at enough
    change s.empty.length + s.filled.length = granted at few
    change s.filled.length ≤ 4
    omega
  · exact Nat.le_refl _
  · exact nofun
  · rintro _ ⟨⟩
    decide
  · exact nofun
  · exact nofun

theorem sound_step {action : Action} (enough : granted ≤ reqCount) (sound : Sound granted s)
    (taken : step s action = some after) : Sound granted after := by
  cases action with
  | expose =>
      cases taken
      exact sound.expose
  | read =>
      rw [step] at taken
      split at taken
      · contradiction
      · contradiction
      next first rest free next =>
        split at taken
        · contradiction
        next awake =>
          cases taken
          exact sound.read free next awake
  | convert =>
      rw [step] at taken
      split at taken
      · contradiction
      next buffer held =>
        split at taken
        next ready =>
          cases taken
          exact sound.convert held ready.1 ready.2
        · contradiction
  | release =>
      rw [step] at taken
      split at taken
      · contradiction
      next buffer held =>
        split at taken
        · contradiction
        · cases taken
          exact sound.release held
  | blackout =>
      rw [step] at taken
      split at taken
      next ready =>
        cases taken
        have stale := sound.stale
        rw [State.old, ready.1] at stale
        exact { sound with
          stale := stale
          idle := fun _ => ready.2
          rounds := nofun
          fresh := nofun }
      · contradiction
  | resume =>
      rw [step] at taken
      split at taken
      next dark =>
        cases taken
        exact sound.resume enough dark
      · contradiction

end Steps

/-- With a driver that grants no more buffers than were requested, however the sensor and the
program interleave: every buffer is in exactly one place, the frames that are converted are
those that the sensor produced, in their order and none of them twice, and none of the
frames that are converted after a resume is from before it. -/
theorem no_stale_frames {granted : Nat} (enough : granted ≤ reqCount) {s : State}
    (reach : (camera granted).Reachable s) :
    (s.empty ++ s.full.map Filled.index).Perm (List.range granted) ∧
      s.captured.Pairwise (· < ·) ∧ (∀ frame ∈ s.captured, frame < s.frames) ∧
      (∀ buffer ∈ s.held, s.memory buffer.index = buffer.frame) ∧
      ∀ frame ∈ s.since, s.resumed ≤ frame := by
  have sound : Sound granted s := reach.invariant (Sound granted) (.start granted)
    fun _ _ _ _ sound _ taken => sound_step enough sound taken
  refine ⟨sound.places, (List.pairwise_append.mp sound.ordered).1, ?_, ?_, sound.since⟩
  · exact fun frame member => sound.past frame (List.mem_append_left _ member)
  · intro buffer held
    exact sound.shown buffer (List.mem_append_left _ (Option.mem_toList.mpr held))

def darkened : List Action :=
  [[.expose, .read, .convert, .release, .blackout], List.replicate 5 .expose,
    [.resume, .read, .release, .expose, .read, .release, .read, .release, .read, .release,
      .read, .convert]].flatten

/-- The first frame behind a blackout is a new one. -/
theorem no_stale_frames_blackout : ∃ s, (camera reqCount).Reachable s ∧ s.captured = [0, 6] ∧
    s.resumed = 6 ∧ s.since = [6] ∧ ∀ frame ∈ s.since, s.resumed ≤ frame := by
  have run := (camera reqCount).reaches_of_replay System.unrestricted darkened
    (fun s => s.captured == [0, 6] && s.resumed == 6 && s.since == [6]) (by decide)
  rcases run with ⟨s, reach, test⟩
  simp only [Bool.and_eq_true, beq_iff_eq] at test
  exact ⟨s, reach, test.1.1, test.1.2, test.2,
    (no_stale_frames (Nat.le_refl _) reach).2.2.2.2⟩

end KhadasYolo.Camera
