import KhadasYolo.Ipc.Frames
import KhadasYolo.Summarizer.Machine

/-!
# Receiving an events frame

`recv_frame` reads from a socket with a receive timeout. Only its first `read`
tells a timeout from an error; every later one is part of an exact read, which
fails on either. The body length is compared with the size of the header and with
nothing else.
-/

namespace KhadasYolo.Summarizer

open Ipc ByteStream

universe u

/-- The header and the records of a received frame. -/
structure EventsFrame (F : Type u) where
  header : WireFrameHeader
  records : List (WireTrackSummary F)

/-- Outcome of `recv_frame`, with the header that the caller does not see. -/
inductive Received (F : Type u) where
  | frame (events : EventsFrame F)
  | timeout
  | disconnect

/-- What the caller sees. -/
def Received.result {F : Type u} : Received F → RecvResult F
  | .frame events => .frame events.records
  | .timeout => .timeout
  | .disconnect => .disconnect

variable {F : Type u} [FloatBits F]

/-- The part of `recv_frame` behind the length prefix. -/
def recvBody (bodyLen : UInt32) (stream : List Arrival) : Received F × List Arrival :=
  if bodyLen.toNat < WireFrameHeader.codec.size then (.disconnect, stream)
  else
    match readExact WireFrameHeader.codec.size stream with
    | (none, later) => (.disconnect, later)
    | (some headerBytes, later) =>
        let hdr := WireFrameHeader.codec.decode headerBytes
        match readRecords (WireTrackSummary.codec F) hdr.count.toNat later with
        | (records, last) =>
            if records.length = hdr.count.toNat then (.frame ⟨hdr, records⟩, last)
            else (.disconnect, last)

/-- `recv_frame`. An exact read of no bytes does nothing, so that the test whether
the first `read` got all four is not repeated here. -/
def recvFrame (stream : List Arrival) : Received F × List Arrival :=
  match read Codec.uint32.size stream with
  | (.closed, later) => (.disconnect, later)
  | (.wouldBlock, later) => (.timeout, later)
  | (.data start, later) =>
      match readExact (Codec.uint32.size - start.length) later with
      | (none, last) => (.disconnect, last)
      | (some rest, last) => recvBody (Codec.uint32.decode (start ++ rest)) last

/-- The bytes start with a frame that `recv_frame` takes: a header after a prefix
that is not too small for it, and all the records that the header counts. -/
structure Receivable (bytes : List UInt8) : Prop where
  headed : Codec.uint32.size + WireFrameHeader.codec.size ≤ bytes.length
  large : WireFrameHeader.codec.size ≤ prefixOf bytes
  filled : (headerOf bytes).count.toNat * 104 ≤ (bodyOf bytes).length

variable {stream later : List Arrival} {bytes : List UInt8}

/-- Between frames a pause is a timeout. -/
theorem recvFrame_paused (shows : Shows stream [] (.pause :: later)) :
    recvFrame (F := F) stream = (.timeout, later) := by
  have positive : 0 < Codec.uint32.size := by decide
  have effect := read_effect positive stream
  simp only [recvFrame]
  generalize read Codec.uint32.size stream = outcome at effect
  cases effect with
  | data bytes rest more nonempty short before after =>
      rw [shows.leading] at before
      exact absurd (List.append_eq_nil_iff.mp before.symm).1 nonempty
  | wouldBlock rest empty paused =>
      rw [shows.trailing] at paused
      cases paused
      rfl
  | closed empty ended =>
      rw [shows.trailing] at ended
      contradiction

/-- Between frames the end of the stream is a disconnect. -/
theorem recvFrame_closed (shows : Shows stream [] []) :
    recvFrame (F := F) stream = (.disconnect, []) := by
  have positive : 0 < Codec.uint32.size := by decide
  have effect := read_effect positive stream
  simp only [recvFrame]
  generalize read Codec.uint32.size stream = outcome at effect
  cases effect with
  | data bytes rest more nonempty short before after =>
      rw [shows.leading] at before
      exact absurd (List.append_eq_nil_iff.mp before.symm).1 nonempty
  | wouldBlock rest empty paused =>
      rw [shows.trailing] at paused
      contradiction
  | closed empty ended => rfl

/-- Once a byte is there, the four of the prefix are read to the end. -/
theorem recvFrame_prefixed (shows : Shows stream bytes later)
    (prefixed : Codec.uint32.size ≤ bytes.length) :
    ∃ rest, recvFrame (F := F) stream =
        recvBody (Codec.uint32.decode (bytes.take Codec.uint32.size)) rest ∧
      Shows rest (bytes.drop Codec.uint32.size) later := by
  have positive : 0 < Codec.uint32.size := by decide
  have effect := read_effect positive stream
  simp only [recvFrame]
  generalize read Codec.uint32.size stream = outcome at effect
  cases effect with
  | data start middle more nonempty short before after =>
      rw [shows.leading] at before
      rw [shows.trailing] at after
      rw [before, List.length_append] at prefixed
      have enough : Codec.uint32.size - start.length ≤ more.length := by omega
      rcases readExact_take after enough with ⟨rest, completed, restShows⟩
      refine ⟨rest, ?_, ?_⟩
      · simp only [completed]
        rw [before, List.take_append, List.take_of_length_le short]
      · rwa [before, List.drop_append, List.drop_of_length_le short, List.nil_append]
  | wouldBlock _ empty | closed empty =>
      rw [shows.leading] at empty
      rw [empty, List.length_nil] at prefixed
      omega

/-- A pause or the end of the stream inside the prefix is a disconnect. -/
theorem recvFrame_cut (shows : Shows stream bytes later) (started : bytes ≠ [])
    (short : bytes.length < Codec.uint32.size) :
    recvFrame (F := F) stream = (.disconnect, later.tail) := by
  have positive : 0 < Codec.uint32.size := by decide
  have effect := read_effect positive stream
  simp only [recvFrame]
  generalize read Codec.uint32.size stream = outcome at effect
  cases effect with
  | data start middle more nonempty _ before after =>
      rw [shows.leading] at before
      rw [shows.trailing] at after
      rw [before, List.length_append] at short
      dsimp only
      rw [readExact_short after (by omega)]
  | wouldBlock _ empty | closed empty =>
      rw [shows.leading] at empty
      exact absurd empty started

/-- A frame that is there as a whole is received. -/
theorem recvFrame_receivable (shows : Shows stream bytes later)
    (receivable : Receivable bytes) :
    ∃ rest, recvFrame stream =
        (.frame ⟨headerOf bytes, arrived (WireTrackSummary.codec F)
          (headerOf bytes).count.toNat (bodyOf bytes)⟩, rest) ∧
      Shows rest ((bodyOf bytes).drop ((headerOf bytes).count.toNat * 104)) later := by
  have complete := receivable.headed
  have filled := receivable.filled
  have headed : WireFrameHeader.codec.size ≤ (bytes.drop Codec.uint32.size).length := by
    rw [List.length_drop]
    omega
  rcases recvFrame_prefixed (F := F) shows (by omega) with ⟨middle, received, middleShows⟩
  rcases readExact_take middleShows headed with ⟨next, headerRead, nextShows⟩
  rcases readRecords_whole (WireTrackSummary.codec F) nextShows filled with
    ⟨rest, recordsRead, restShows⟩
  have large : ¬ (Codec.uint32.decode (bytes.take Codec.uint32.size)).toNat <
      WireFrameHeader.codec.size := Nat.not_lt.mpr receivable.large
  refine ⟨rest, ?_, restShows⟩
  rw [received, recvBody, if_neg large, headerRead]
  dsimp only
  rw [← headerOf, recordsRead]
  dsimp only
  rw [if_pos (length_arrived_whole _ filled)]
  rfl

/-- Anything else after the first byte is a disconnect. -/
theorem recvFrame_refused (shows : Shows stream bytes later) (started : bytes ≠ [])
    (refused : ¬ Receivable bytes) : (recvFrame (F := F) stream).1 = .disconnect := by
  by_cases prefixed : Codec.uint32.size ≤ bytes.length
  · rcases recvFrame_prefixed (F := F) shows prefixed with ⟨middle, received, middleShows⟩
    rw [received, recvBody]
    split
    next => rfl
    next large =>
      by_cases headed : WireFrameHeader.codec.size ≤ (bytes.drop Codec.uint32.size).length
      · rcases readExact_take middleShows headed with ⟨next, headerRead, nextShows⟩
        have cut : (bodyOf bytes).length < (headerOf bytes).count.toNat * 104 := by
          apply Nat.lt_of_not_le
          intro filled
          apply refused
          refine ⟨?_, Nat.le_of_not_lt large, filled⟩
          rw [List.length_drop] at headed
          omega
        rw [headerRead]
        dsimp only
        rw [← headerOf, readRecords_cut (WireTrackSummary.codec F) nextShows cut]
        dsimp only
        rw [if_neg (Nat.ne_of_lt (length_arrived_cut _ cut))]
      · rw [readExact_short middleShows (Nat.lt_of_not_le headed)]
  · rw [recvFrame_cut shows started (Nat.lt_of_not_le prefixed)]

/-- Only a frame that is there as a whole is received. -/
theorem receivable_of_frame {events : EventsFrame F}
    (read : recvFrame stream = (.frame events, later)) : Receivable (leading stream) := by
  have shows := shows_self stream
  by_contra refused
  by_cases started : leading stream = []
  · rw [started] at shows
    rcases trailing_cases stream with ended | ⟨rest, paused⟩
    · rw [ended] at shows
      rw [recvFrame_closed shows] at read
      cases read
    · rw [paused] at shows
      rw [recvFrame_paused shows] at read
      cases read
  · have failed := recvFrame_refused (F := F) shows started refused
    rw [read] at failed
    contradiction

/-- A frame that was sent with its own count is received. -/
theorem recvFrame_frame {hdr : WireFrameHeader} {records : List (WireTrackSummary F)}
    {more : List UInt8} (counted : hdr.count.toNat = records.length)
    (shows : Shows stream
      (frameBytes (WireTrackSummary.codec F) hdr records ++ more) later) :
    ∃ rest, recvFrame stream = (.frame ⟨hdr, records⟩, rest) ∧
      Shows rest more later := by
  have fits : bodyLength 104 records.length < 2 ^ 32 := by
    have bound := hdr.count.toNat_lt
    simp only [bodyLength, WireFrameHeader.codec_size]
    omega
  have announced := frameBytes_announces (WireTrackSummary.codec F) counted fits more
  have header := headerOf_frameBytes (WireTrackSummary.codec F) hdr records more
  rcases body_frameBytes (WireTrackSummary.codec F) counted more with
    ⟨filled, same, next⟩
  have receivable : Receivable (frameBytes (WireTrackSummary.codec F) hdr records ++ more) :=
    ⟨announced.complete, by rw [announced.agree, bodyLength]; omega,
      by rw [header]; exact filled⟩
  rcases recvFrame_receivable (F := F) shows receivable with ⟨rest, read, restShows⟩
  rw [header] at read restShows
  exact ⟨rest, by rw [read, same], by rwa [← next]⟩

theorem recvFrame_progress {received : Received F}
    (read : recvFrame stream = (received, later)) (going : received ≠ .disconnect) :
    weight later < weight stream := by
  have shows := shows_self stream
  by_cases started : leading stream = []
  · rw [started] at shows
    rcases trailing_cases stream with ended | ⟨rest, paused⟩
    · rw [ended] at shows
      rw [recvFrame_closed shows] at read
      exact absurd (Prod.mk.inj read).1.symm going
    · rw [paused] at shows
      rw [recvFrame_paused shows] at read
      rw [shows.weight, ← (Prod.mk.inj read).2]
      simp [ByteStream.weight]
  · by_cases receivable : Receivable (leading stream)
    · rcases recvFrame_receivable (F := F) shows receivable with ⟨rest, accepted, restShows⟩
      rw [accepted] at read
      have headed := receivable.headed
      rw [shows.weight, ← (Prod.mk.inj read).2, restShows.weight]
      simp only [bodyOf, List.length_drop]
      simp only [WireFrameHeader.codec_size] at headed ⊢
      omega
    · have refused := recvFrame_refused (F := F) shows started receivable
      rw [read] at refused
      exact absurd refused going

/-- The calls of `recv_frame` on one connection, up to the disconnect. -/
def eventsReader : Reader (Received F) where
  next stream :=
    match recvFrame (F := F) stream with
    | (.disconnect, later) => (none, later)
    | (.timeout, later) => (some .timeout, later)
    | (.frame events, later) => (some (.frame events), later)
  progress := by
    intro stream later item read
    split at read
    next => cases read
    next last received =>
      cases read
      exact recvFrame_progress received nofun
    next events last received =>
      cases read
      exact recvFrame_progress received nofun

end KhadasYolo.Summarizer
