import KhadasYolo.Dataflow.RoundTrip

/-!
# Pauses on the events socket

Every `read` of the events socket gives up after the receive timeout. Between two
frames this is a timeout of `recv_frame`; inside a frame it breaks an exact read,
and the caller drops the connection of a peer that is still sending. So all frames
get through exactly when every pause sets in at the end of a frame.
-/

namespace KhadasYolo.Dataflow

open Ipc ByteStream Temporal Summarizer

universe u

/-- The frame of a successful call. -/
def events? {F : Type u} : Received F → Option (EventsFrame F)
  | .frame events => some events
  | .timeout => none
  | .disconnect => none

variable {F : Type u} [FloatMath F] [FloatBits F]

/-- The bytes of a sequence of frames. -/
def sentBytes (frames : List (SummaryFrame F)) : List UInt8 :=
  (frames.map SummaryFrame.bytes).flatten

/-- The calls return the frames in order with timeouts in between, and the loop
only ends when everything has been read. -/
structure GetsThrough (frames : List (SummaryFrame F)) (stream : List Arrival) : Prop where
  received : (eventsReader.drain stream).1.filterMap events? =
    frames.map SummaryFrame.received
  ended : (eventsReader (F := F).drain stream).2 = []

/-- So many bytes are some of the frames, whole. -/
def Boundary (frames : List (SummaryFrame F)) (offset : Nat) : Prop :=
  ∃ whole, offset = (sentBytes (frames.take whole)).length

/-! ## One call -/

theorem sentBytes_cons (frame : SummaryFrame F) (frames : List (SummaryFrame F)) :
    sentBytes (frame :: frames) = frame.bytes ++ sentBytes frames := rfl

theorem length_bytes (frame : SummaryFrame F) :
    frame.bytes.length =
      Codec.uint32.size + bodyLength 104 frame.received.records.length := by
  rw [frame.bytes_eq, length_frameBytes]
  rfl

theorem length_bytes_pos (frame : SummaryFrame F) : 0 < frame.bytes.length := by
  rw [length_bytes, bodyLength, WireFrameHeader.codec_size]
  omega

/-- Behind a frame, boundaries are those of the other frames. -/
theorem boundary_cons_iff (frame : SummaryFrame F) (frames : List (SummaryFrame F))
    (offset : Nat) :
    Boundary (frame :: frames) (frame.bytes.length + offset) ↔ Boundary frames offset := by
  constructor
  · rintro ⟨whole, same⟩
    cases whole with
    | zero =>
        have positive := length_bytes_pos frame
        simp only [List.take_zero, sentBytes, List.map_nil, List.flatten_nil,
          List.length_nil] at same
        omega
    | succ whole =>
        rw [List.take_succ_cons, sentBytes_cons, List.length_append] at same
        exact ⟨whole, by omega⟩
  · rintro ⟨whole, same⟩
    refine ⟨whole + 1, ?_⟩
    rw [List.take_succ_cons, sentBytes_cons, List.length_append, same]

/-- Inside a frame there is no boundary. -/
theorem not_boundary_inside {frame : SummaryFrame F} {frames : List (SummaryFrame F)}
    {offset : Nat} (started : 0 < offset) (inside : offset < frame.bytes.length) :
    ¬ Boundary (frame :: frames) offset := by
  rintro ⟨whole, same⟩
  cases whole with
  | zero =>
      simp only [List.take_zero, sentBytes, List.map_nil, List.flatten_nil,
        List.length_nil] at same
      omega
  | succ whole =>
      rw [List.take_succ_cons, sentBytes_cons, List.length_append] at same
      omega

/-- A first part of a frame is not taken for a frame. -/
theorem not_receivable_inside {frame : SummaryFrame F} {bytes more : List UInt8}
    (same : frame.bytes = bytes ++ more) (inside : bytes.length < frame.bytes.length) :
    ¬ Receivable bytes := by
  intro receivable
  have filled := receivable.filled
  have headed := receivable.headed
  have header : headerOf bytes = frame.received.header := by
    rw [← headerOf_append headed more, ← same, frame.bytes_eq,
      ← List.append_nil (frameBytes _ _ _), headerOf_frameBytes]
  have body : Codec.uint32.size + WireFrameHeader.codec.size + (bodyOf bytes).length =
      bytes.length := by
    rw [bodyOf, List.length_drop, List.length_drop]
    omega
  rw [header, frame.counted] at filled
  rw [length_bytes, bodyLength] at inside
  omega

/-! ## All calls -/

/-- With nothing left to send, the connection ends between two frames. -/
theorem getsThrough_nil {frames : List (SummaryFrame F)}
    (sent : contents [] = sentBytes frames) : GetsThrough frames [] := by
  cases frames with
  | nil =>
      have turn : eventsReader (F := F).next [] = (none, []) := by
        have shows : Shows [] [] [] := ⟨rfl, rfl⟩
        simp only [eventsReader, recvFrame_closed shows]
      constructor <;> rw [eventsReader.drain_none turn]
      rfl
  | cons frame frames =>
      have positive := length_bytes_pos frame
      have nothing := congrArg List.length sent
      rw [sentBytes_cons, List.length_append, contents, List.length_nil] at nothing
      omega

/-- A timeout does not matter. -/
theorem getsThrough_pause (frames : List (SummaryFrame F)) (later : List Arrival) :
    GetsThrough frames (.pause :: later) ↔ GetsThrough frames later := by
  have turn : eventsReader (F := F).next (.pause :: later) = (some .timeout, later) := by
    have shows : Shows (.pause :: later) [] (.pause :: later) := ⟨rfl, rfl⟩
    simp only [eventsReader, recvFrame_paused shows]
  constructor
  · rintro ⟨received, ended⟩
    rw [eventsReader.drain_some turn] at received ended
    exact ⟨received, ended⟩
  · rintro ⟨received, ended⟩
    constructor <;> rw [eventsReader.drain_some turn]
    · exact received
    · exact ended

/-- A frame that can be read at once is taken. -/
theorem getsThrough_frame {frame : SummaryFrame F} (frames : List (SummaryFrame F))
    {stream later : List Arrival} {more : List UInt8}
    (shows : Shows stream (frame.bytes ++ more) later) :
    ∃ rest, Shows rest more later ∧
      (GetsThrough (frame :: frames) stream ↔ GetsThrough frames rest) := by
  rw [frame.bytes_eq] at shows
  rcases recvFrame_frame frame.counted shows with ⟨rest, read, restShows⟩
  have turn : eventsReader.next stream = (some (.frame frame.received), rest) := by
    simp only [eventsReader, read]
  refine ⟨rest, restShows, ?_⟩
  constructor
  · rintro ⟨received, ended⟩
    rw [eventsReader.drain_some turn] at received ended
    exact ⟨(List.cons.inj received).2, ended⟩
  · rintro ⟨received, ended⟩
    constructor <;> rw [eventsReader.drain_some turn]
    · exact congrArg (frame.received :: ·) received
    · exact ended

/-- A frame that a pause interrupts is lost. -/
theorem not_getsThrough_inside {frame : SummaryFrame F} {frames : List (SummaryFrame F)}
    {stream : List Arrival} {more : List UInt8} (started : leading stream ≠ [])
    (same : frame.bytes = leading stream ++ more)
    (inside : (leading stream).length < frame.bytes.length) :
    ¬ GetsThrough (frame :: frames) stream := by
  have lost := recvFrame_refused (F := F) (shows_self stream) started
    (not_receivable_inside same inside)
  rintro ⟨received, ended⟩
  have turn : eventsReader (F := F).next stream = (none, (recvFrame (F := F) stream).2) := by
    simp only [eventsReader]
    generalize recvFrame (F := F) stream = outcome at lost
    rcases outcome with ⟨result, later⟩
    cases lost
    rfl
  rw [eventsReader.drain_none turn] at received
  cases received

/-- Behind the first frame, pauses are at boundaries of the other frames. -/
theorem boundaries_cons_iff {frame : SummaryFrame F} (frames : List (SummaryFrame F))
    {stream rest : List Arrival} {more : List UInt8}
    (shows : Shows stream (frame.bytes ++ more) (trailing stream))
    (restShows : Shows rest more (trailing stream)) :
    (∀ offset ∈ pauseOffsets 0 stream, Boundary (frame :: frames) offset) ↔
      ∀ offset ∈ pauseOffsets 0 rest, Boundary frames offset := by
  have shifted : pauseOffsets 0 stream =
      (pauseOffsets 0 rest).map (frame.bytes.length + ·) := by
    rw [pauseOffsets_eq 0 stream, shows.leading, pauseOffsets_eq 0 rest, restShows.leading,
      restShows.trailing, ← pauseOffsets_shift]
    congr 1
    simp only [List.length_append]
    omega
  rw [shifted, List.forall_mem_map]
  simp only [boundary_cons_iff]

/-- Every pause sets in at the end of a frame. -/
def Between (frames : List (SummaryFrame F)) (stream : List Arrival) : Prop :=
  ∀ offset ∈ pauseOffsets 0 stream, Boundary frames offset

/-- A stream that stops inside its first frame has a pause there. -/
theorem not_between_inside {frame : SummaryFrame F} {frames : List (SummaryFrame F)}
    {stream : List Arrival} (started : leading stream ≠ [])
    (inside : (leading stream).length < frame.bytes.length) (stops : trailing stream ≠ []) :
    ¬ Between (frame :: frames) stream := by
  rcases trailing_cases stream with ended | ⟨later, paused⟩
  · contradiction
  · intro between
    apply not_boundary_inside (List.length_pos_iff.mpr started) inside
    apply between
    rw [pauseOffsets_eq, paused, pauseOffsets, Nat.zero_add]
    exact List.mem_cons_self

/-- A call takes a pause or a frame, unless a pause falls inside that frame. -/
theorem getsThrough_step {frames : List (SummaryFrame F)} {stream : List Arrival}
    (sent : contents stream = sentBytes frames) :
    stream = [] ∨
      (∃ (others : List (SummaryFrame F)) (rest : List Arrival),
        weight rest < weight stream ∧ contents rest = sentBytes others ∧
        (GetsThrough frames stream ↔ GetsThrough others rest) ∧
        (Between frames stream ↔ Between others rest)) ∨
      ¬ GetsThrough frames stream ∧ ¬ Between frames stream := by
  by_cases empty : leading stream = []
  · rcases of_leading_nil empty with rfl | ⟨later, rfl⟩
    · exact .inl rfl
    · refine .inr (.inl ⟨frames, later, Nat.lt_succ_self _, sent,
        getsThrough_pause frames later, ?_⟩)
      rw [Between, pauseOffsets, List.forall_mem_cons]
      exact and_iff_right ⟨0, rfl⟩
  · cases frames with
    | nil =>
        rw [contents_eq] at sent
        exact absurd (List.append_eq_nil_iff.mp sent).1 empty
    | cons frame frames =>
        rw [contents_eq, sentBytes_cons] at sent
        by_cases complete : frame.bytes.length ≤ (leading stream).length
        · rcases List.prefix_of_prefix_length_le (List.prefix_append _ _)
            ⟨_, sent⟩ complete with ⟨more, same⟩
          have shows : Shows stream (frame.bytes ++ more) (trailing stream) :=
            ⟨same.symm, rfl⟩
          rcases getsThrough_frame frames shows with ⟨rest, restShows, through⟩
          have positive := length_bytes_pos frame
          refine .inr (.inl ⟨frames, rest, ?_, ?_, through,
            boundaries_cons_iff frames shows restShows⟩)
          · rw [shows.weight, restShows.weight, List.length_append]
            omega
          · rw [← same, List.append_assoc] at sent
            rw [contents_eq, restShows.leading, restShows.trailing]
            exact List.append_cancel_left sent
        · have inside := Nat.lt_of_not_le complete
          rcases List.prefix_of_prefix_length_le ⟨_, sent⟩ (List.prefix_append _ _)
            (Nat.le_of_lt inside) with ⟨more, same⟩
          rw [← same, List.append_assoc] at sent
          have missing := congrArg List.length same
          rw [List.length_append] at missing
          refine .inr (.inr ⟨not_getsThrough_inside empty same.symm inside,
            not_between_inside empty inside ?_⟩)
          intro ended
          have follows := congrArg List.length (List.append_cancel_left sent)
          rw [ended, contents, List.length_nil, List.length_append] at follows
          omega

theorem getsThrough_of_between {frames : List (SummaryFrame F)} {stream : List Arrival}
    (sent : contents stream = sentBytes frames) (between : Between frames stream) :
    GetsThrough frames stream := by
  induction measure : weight stream using Nat.strong_induction_on
    generalizing frames stream with
  | _ _ ih =>
      subst measure
      rcases getsThrough_step sent with rfl | ⟨others, rest, less, left, through, boundaries⟩ |
        ⟨_, inside⟩
      · exact getsThrough_nil sent
      · exact through.mpr (ih _ less left (boundaries.mp between) rfl)
      · exact absurd between inside

theorem between_of_getsThrough {frames : List (SummaryFrame F)} {stream : List Arrival}
    (sent : contents stream = sentBytes frames) (gets : GetsThrough frames stream) :
    Between frames stream := by
  induction measure : weight stream using Nat.strong_induction_on
    generalizing frames stream with
  | _ _ ih =>
      subst measure
      rcases getsThrough_step sent with rfl | ⟨others, rest, less, left, through, boundaries⟩ |
        ⟨lost, _⟩
      · exact nofun
      · exact boundaries.mpr (ih _ less left (through.mp gets) rfl)
      · exact absurd gets lost

/-- The frames get through exactly when no pause falls inside one of them. -/
theorem getsThrough_iff (frames : List (SummaryFrame F)) (stream : List Arrival)
    (sent : contents stream = sentBytes frames) :
    GetsThrough frames stream ↔
      ∀ offset ∈ pauseOffsets 0 stream, Boundary frames offset :=
  ⟨between_of_getsThrough sent, getsThrough_of_between sent⟩

namespace Example

/-- One frame, whole bytes in front of and behind a pause. -/
def pausedAfter (before : Nat) : List Arrival :=
  unpaused (bytewise (summary.bytes.take before)) ++
    .pause :: unpaused (bytewise (summary.bytes.drop before))

theorem contents_pausedAfter (before : Nat) :
    contents (pausedAfter before) = sentBytes [summary] := by
  have behind := contents_unpaused (bytewise (summary.bytes.drop before)) []
  rw [List.append_nil, joined_bytewise] at behind
  rw [pausedAfter, contents_unpaused, joined_bytewise, contents, behind, contents,
    List.append_nil, List.take_append_drop]
  simp [sentBytes]

theorem leading_pausedAfter (before : Nat) :
    leading (pausedAfter before) = summary.bytes.take before := by
  rw [pausedAfter, leading_unpaused, joined_bytewise, leading, List.append_nil]

end Example

/-- A pause in front of the frame does no harm. -/
theorem getsThrough_after_timeout :
    GetsThrough [Example.summary] (Example.pausedAfter 0) := by
  apply (getsThrough_iff _ _ (Example.contents_pausedAfter 0)).mpr
  have between : pauseOffsets 0 (Example.pausedAfter 0) = [0] :=
    congrArg (0 :: ·) (pauseOffsets_unpaused 0 _)
  rw [between]
  intro offset member
  rcases List.mem_singleton.mp member with rfl
  exact ⟨0, rfl⟩

/-- A pause after two bytes of the length prefix loses the frame. -/
theorem not_getsThrough_prefix :
    contents (Example.pausedAfter 2) = sentBytes [Example.summary] ∧
      ¬ GetsThrough [Example.summary] (Example.pausedAfter 2) := by
  refine ⟨Example.contents_pausedAfter 2, ?_⟩
  have length := length_bytes Example.summary
  rw [bodyLength, WireFrameHeader.codec_size] at length
  apply not_getsThrough_inside
  · rw [Example.leading_pausedAfter]
    apply List.ne_nil_of_length_pos
    rw [List.length_take]
    omega
  · rw [Example.leading_pausedAfter]
    exact (List.take_append_drop 2 _).symm
  · rw [Example.leading_pausedAfter, List.length_take]
    omega

end KhadasYolo.Dataflow
