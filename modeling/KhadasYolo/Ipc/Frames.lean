import KhadasYolo.Ipc.Wire
import KhadasYolo.Lib.ByteSink
import KhadasYolo.Lib.ByteStream

/-!
# Frames on a stream

The framing the three data planes share: a length prefix, a header and one record
per item. The sizes are encoded twice, as the body length in the prefix and as the
count in the header. Writers and readers of every plane are put together from the
functions of this module, at the record type of the plane.
-/

namespace KhadasYolo.Ipc

open ByteStream ByteSink

universe u

variable {ρ : Type u} (codec : Codec ρ)

/-! ## Writing -/

/-- The buffers that a publisher writes for one frame, in order. -/
def frameParts (bodySize : UInt32) (hdr : WireFrameHeader) (records : List ρ) :
    List (List UInt8) :=
  Codec.uint32.encode bodySize :: WireFrameHeader.codec.encode hdr ::
    records.map codec.encode

/-- The body length of a frame of that many records, as the readers compute it. -/
def bodyLength (recordSize count : Nat) : Nat := WireFrameHeader.codec.size + count * recordSize

/-- The bytes of a frame whose sizes agree. -/
def frameBytes (hdr : WireFrameHeader) (records : List ρ) : List UInt8 :=
  (frameParts codec (UInt32.ofNat (bodyLength codec.size records.length)) hdr
    records).flatten

/-! ## Reading -/

/-- The length prefix and the header, for the readers that compare the two sizes.
A frame that fails a check ends the connection. -/
def readHeader (recordSize : Nat) (stream : List Arrival) :
    Option WireFrameHeader × List Arrival :=
  match readExact Codec.uint32.size stream with
  | (none, later) => (none, later)
  | (some lengthBytes, later) =>
      let bodyLen := (Codec.uint32.decode lengthBytes).toNat
      if bodyLen < WireFrameHeader.codec.size then (none, later)
      else
        match readExact WireFrameHeader.codec.size later with
        | (none, last) => (none, last)
        | (some headerBytes, last) =>
            let hdr := WireFrameHeader.codec.decode headerBytes
            if bodyLen ≠ bodyLength recordSize hdr.count.toNat then (none, last)
            else (some hdr, last)

/-- The loop over the records, up to the first that does not arrive. -/
def readRecords : Nat → List Arrival → List ρ × List Arrival
  | 0, stream => ([], stream)
  | count + 1, stream =>
      match readExact codec.size stream with
      | (some bytes, later) =>
          match readRecords count later with
          | (records, last) => (codec.decode bytes :: records, last)
      | (none, later) => ([], later)

/-! ## What the bytes say -/

/-- The body length in the first bytes of a frame. -/
def prefixOf (bytes : List UInt8) : Nat :=
  (Codec.uint32.decode (bytes.take Codec.uint32.size)).toNat

/-- The header in the bytes of a frame. -/
def headerOf (bytes : List UInt8) : WireFrameHeader :=
  WireFrameHeader.codec.decode
    ((bytes.drop Codec.uint32.size).take WireFrameHeader.codec.size)

/-- Everything behind the header. -/
def bodyOf (bytes : List UInt8) : List UInt8 :=
  (bytes.drop Codec.uint32.size).drop WireFrameHeader.codec.size

/-- A frame has been announced: prefix and header are complete and their sizes
agree. -/
structure Announces (recordSize : Nat) (bytes : List UInt8) : Prop where
  complete : Codec.uint32.size + WireFrameHeader.codec.size ≤ bytes.length
  agree : prefixOf bytes = bodyLength recordSize (headerOf bytes).count.toNat

instance (recordSize : Nat) (bytes : List UInt8) :
    Decidable (Announces recordSize bytes) :=
  decidable_of_iff
    (Codec.uint32.size + WireFrameHeader.codec.size ≤ bytes.length ∧
      prefixOf bytes = bodyLength recordSize (headerOf bytes).count.toNat)
    ⟨fun both => ⟨both.1, both.2⟩, fun announces => ⟨announces.complete, announces.agree⟩⟩

/-- A frame from its prefix to its last record. -/
structure WholeFrame (recordSize : Nat) (bytes : List UInt8) : Prop where
  announced : Announces recordSize bytes
  length : bytes.length = Codec.uint32.size + prefixOf bytes

/-- A frame that has been announced and ends inside its records. -/
structure CutFrame (recordSize : Nat) (bytes : List UInt8) : Prop where
  announced : Announces recordSize bytes
  length : bytes.length < Codec.uint32.size + prefixOf bytes

instance (recordSize : Nat) (bytes : List UInt8) : Decidable (CutFrame recordSize bytes) :=
  decidable_of_iff
    (Announces recordSize bytes ∧ bytes.length < Codec.uint32.size + prefixOf bytes)
    ⟨fun both => ⟨both.1, both.2⟩, fun cut => ⟨cut.announced, cut.length⟩⟩

/-- Whole frames, followed by one that ends inside its records. -/
def CutInRecords (recordSize : Nat) (bytes : List UInt8) : Prop :=
  ∃ (frames : List (List UInt8)) (rest : List UInt8), bytes = frames.flatten ++ rest ∧
    (∀ frame ∈ frames, WholeFrame recordSize frame) ∧ CutFrame recordSize rest

/-- The records that some bytes hold completely, at most `count` of them. -/
def arrived : Nat → List UInt8 → List ρ
  | 0, _ => []
  | count + 1, bytes =>
      if codec.size ≤ bytes.length then
        codec.decode (bytes.take codec.size) :: arrived count (bytes.drop codec.size)
      else []

/-- All records arrive when their bytes do. -/
theorem length_arrived_whole {count : Nat} {bytes : List UInt8}
    (whole : count * codec.size ≤ bytes.length) :
    (arrived codec count bytes).length = count := by
  induction count generalizing bytes with
  | zero => rfl
  | succ count ih =>
      rw [Nat.succ_mul] at whole
      rw [arrived, if_pos (by omega), List.length_cons, ih]
      rw [List.length_drop]
      omega

/-- When bytes are missing, so is a record. -/
theorem length_arrived_cut {count : Nat} {bytes : List UInt8}
    (cut : bytes.length < count * codec.size) :
    (arrived codec count bytes).length < count := by
  induction count generalizing bytes with
  | zero => omega
  | succ count ih =>
      rw [Nat.succ_mul] at cut
      rw [arrived]
      split
      next enough =>
        apply Nat.succ_lt_succ
        apply ih
        rw [List.length_drop]
        omega
      next => exact Nat.succ_pos count

/-- Encoded records arrive as they are. -/
theorem arrived_encoded (records : List ρ) (more : List UInt8) :
    arrived codec records.length ((records.map codec.encode).flatten ++ more) = records := by
  induction records with
  | nil => rfl
  | cons record records ih =>
      rw [List.map_cons, List.flatten_cons, List.length_cons, List.append_assoc, arrived,
        if_pos (by simp), List.take_left' (codec.length_encode record),
        List.drop_left' (codec.length_encode record), codec.decode_encode, ih]

/-! ## Reading follows the bytes -/

variable {stream later : List Arrival} {bytes : List UInt8}

/-- A header is accepted when the bytes before the next pause announce a frame. -/
theorem readHeader_announced {recordSize : Nat} (shows : Shows stream bytes later)
    (announced : Announces recordSize bytes) :
    ∃ rest, readHeader recordSize stream = (some (headerOf bytes), rest) ∧
      Shows rest (bodyOf bytes) later := by
  have complete := announced.complete
  have prefixed : Codec.uint32.size ≤ bytes.length := by omega
  have headed : WireFrameHeader.codec.size ≤ (bytes.drop Codec.uint32.size).length := by
    rw [List.length_drop]
    omega
  rcases readExact_take shows prefixed with ⟨middle, prefixRead, middleShows⟩
  rcases readExact_take middleShows headed with ⟨rest, headerRead, restShows⟩
  refine ⟨rest, ?_, restShows⟩
  have agree := announced.agree
  simp only [prefixOf, headerOf] at agree
  simp only [readHeader, prefixRead, headerRead]
  rw [if_neg, if_neg (not_not.mpr agree)]
  · rfl
  · rw [agree, bodyLength]
    omega

/-- Otherwise the connection is given up. -/
theorem readHeader_refused {recordSize : Nat} (shows : Shows stream bytes later)
    (refused : ¬ Announces recordSize bytes) :
    (readHeader recordSize stream).1 = none := by
  simp only [readHeader]
  by_cases prefixed : Codec.uint32.size ≤ bytes.length
  · rcases readExact_take shows prefixed with ⟨middle, prefixRead, middleShows⟩
    simp only [prefixRead]
    split
    next => rfl
    next =>
      by_cases headed : WireFrameHeader.codec.size ≤ (bytes.drop Codec.uint32.size).length
      · rcases readExact_take middleShows headed with ⟨rest, headerRead, _⟩
        simp only [headerRead]
        rw [if_pos]
        intro agree
        apply refused
        refine ⟨?_, agree⟩
        rw [List.length_drop] at headed
        omega
      · rw [readExact_short middleShows (Nat.lt_of_not_le headed)]
  · rw [readExact_short shows (Nat.lt_of_not_le prefixed)]

/-- Nothing is left: the connection has ended between two frames. -/
theorem readHeader_ended {recordSize : Nat} (shows : Shows stream [] []) :
    readHeader recordSize stream = (none, []) := by
  rw [readHeader, readExact_short shows (by decide)]
  rfl

theorem readRecords_whole {count : Nat} (shows : Shows stream bytes later)
    (whole : count * codec.size ≤ bytes.length) :
    ∃ rest, readRecords codec count stream = (arrived codec count bytes, rest) ∧
      Shows rest (bytes.drop (count * codec.size)) later := by
  induction count generalizing stream bytes with
  | zero => exact ⟨stream, rfl, by simpa using shows⟩
  | succ count ih =>
      rw [Nat.succ_mul] at whole
      have enough : codec.size ≤ bytes.length := by omega
      rcases readExact_take shows enough with ⟨middle, recordRead, middleShows⟩
      rcases ih middleShows (by rw [List.length_drop]; omega) with
        ⟨rest, restRead, restShows⟩
      refine ⟨rest, ?_, ?_⟩
      · simp only [readRecords, recordRead, restRead, arrived, if_pos enough]
      · rwa [List.drop_drop, Nat.add_comm, ← Nat.succ_mul] at restShows

theorem readRecords_cut {count : Nat} (shows : Shows stream bytes later)
    (cut : bytes.length < count * codec.size) :
    readRecords codec count stream = (arrived codec count bytes, later.tail) := by
  induction count generalizing stream bytes with
  | zero => omega
  | succ count ih =>
      rw [Nat.succ_mul] at cut
      by_cases enough : codec.size ≤ bytes.length
      · rcases readExact_take shows enough with ⟨middle, recordRead, middleShows⟩
        simp only [readRecords, recordRead, arrived, if_pos enough]
        rw [ih middleShows (by rw [List.length_drop]; omega)]
      · simp only [readRecords, arrived, if_neg enough]
        rw [readExact_short shows (Nat.lt_of_not_le enough)]

theorem readRecords_weight (count : Nat) (stream : List Arrival) :
    weight (readRecords codec count stream).2 ≤ weight stream := by
  have shows := shows_self stream
  by_cases whole : count * codec.size ≤ (leading stream).length
  · rcases readRecords_whole codec shows whole with ⟨rest, read, restShows⟩
    rw [read, restShows.weight, shows.weight, List.length_drop]
    omega
  · rw [readRecords_cut codec shows (Nat.lt_of_not_le whole), shows.weight]
    rcases trailing_cases stream with ended | ⟨later, paused⟩
    · simp [ended]
    · rw [paused]
      simp only [List.tail_cons, weight]
      omega

/-- Accepting a header consumes it. -/
theorem readHeader_progress {recordSize : Nat} {stream later : List Arrival}
    {hdr : WireFrameHeader} (read : readHeader recordSize stream = (some hdr, later)) :
    weight later < weight stream := by
  have shows := shows_self stream
  by_cases announced : Announces recordSize (leading stream)
  · rcases readHeader_announced shows announced with ⟨rest, accepted, restShows⟩
    rw [accepted] at read
    cases read
    have complete := announced.complete
    rw [restShows.weight, shows.weight, bodyOf, List.length_drop, List.length_drop]
    simp only [WireFrameHeader.codec_size] at complete ⊢
    omega
  · have failed := readHeader_refused shows announced
    rw [read] at failed
    contradiction

/-! ## Streams of frames -/

section Streams

variable {recordSize : Nat} {bytes : List UInt8}

theorem prefixOf_append (complete : Codec.uint32.size + WireFrameHeader.codec.size ≤
    bytes.length) (more : List UInt8) : prefixOf (bytes ++ more) = prefixOf bytes := by
  rw [prefixOf, prefixOf, List.take_append_of_le_length (by omega)]

theorem headerOf_append (complete : Codec.uint32.size + WireFrameHeader.codec.size ≤
    bytes.length) (more : List UInt8) : headerOf (bytes ++ more) = headerOf bytes := by
  rw [headerOf, headerOf, List.drop_append_of_le_length (by omega),
    List.take_append_of_le_length (by rw [List.length_drop]; omega)]

theorem Announces.append (announced : Announces recordSize bytes) (more : List UInt8) :
    Announces recordSize (bytes ++ more) where
  complete := by
    have complete := announced.complete
    rw [List.length_append]
    omega
  agree := by
    rw [prefixOf_append announced.complete, headerOf_append announced.complete]
    exact announced.agree

theorem Announces.length_body (announced : Announces recordSize bytes) :
    Codec.uint32.size + WireFrameHeader.codec.size + (bodyOf bytes).length = bytes.length := by
  have complete := announced.complete
  rw [bodyOf, List.length_drop, List.length_drop]
  omega

/-- A frame is there as a whole exactly when all its records are. -/
theorem Announces.whole_iff (announced : Announces recordSize bytes) :
    Codec.uint32.size + prefixOf bytes ≤ bytes.length ↔
      (headerOf bytes).count.toNat * recordSize ≤ (bodyOf bytes).length := by
  have agree := announced.agree
  have body := announced.length_body
  rw [bodyLength] at agree
  omega

/-- What follows a frame in its body follows it in the stream. -/
theorem Announces.drop_body (announced : Announces recordSize bytes) :
    (bodyOf bytes).drop ((headerOf bytes).count.toNat * recordSize) =
      bytes.drop (Codec.uint32.size + prefixOf bytes) := by
  rw [bodyOf, List.drop_drop, List.drop_drop, announced.agree, bodyLength]

/-- What follows some whole frames of a stream. -/
def Behind (recordSize : Nat) (bytes rest : List UInt8) : Prop :=
  ∃ frames : List (List UInt8), bytes = frames.flatten ++ rest ∧
    ∀ frame ∈ frames, WholeFrame recordSize frame

theorem behind_self (bytes : List UInt8) : Behind recordSize bytes bytes := ⟨[], rfl, nofun⟩

/-- A whole frame in front is announced by the stream, with the same length. -/
theorem WholeFrame.append {frame : List UInt8} (whole : WholeFrame recordSize frame)
    (more : List UInt8) :
    Announces recordSize (frame ++ more) ∧
      Codec.uint32.size + prefixOf (frame ++ more) = frame.length := by
  refine ⟨whole.announced.append more, ?_⟩
  rw [prefixOf_append whole.announced.complete, whole.length]

/-- The frame at the front of a stream that holds it completely. -/
theorem Announces.wholeFrame (announced : Announces recordSize bytes)
    (whole : Codec.uint32.size + prefixOf bytes ≤ bytes.length) :
    WholeFrame recordSize (bytes.take (Codec.uint32.size + prefixOf bytes)) := by
  have length := List.length_take_of_le whole
  have complete : Codec.uint32.size + WireFrameHeader.codec.size ≤
      (bytes.take (Codec.uint32.size + prefixOf bytes)).length := by
    have agree := announced.agree
    rw [length, agree, bodyLength]
    omega
  have split := List.take_append_drop (Codec.uint32.size + prefixOf bytes) bytes
  have samePrefix : prefixOf (bytes.take (Codec.uint32.size + prefixOf bytes)) =
      prefixOf bytes := by
    conv_rhs => rw [← split]
    exact (prefixOf_append complete _).symm
  have sameHeader : headerOf (bytes.take (Codec.uint32.size + prefixOf bytes)) =
      headerOf bytes := by
    conv_rhs => rw [← split]
    exact (headerOf_append complete _).symm
  refine ⟨⟨complete, ?_⟩, ?_⟩
  · rw [samePrefix, sameHeader]
    exact announced.agree
  · rw [samePrefix, length]

/-- Behind the frames of a stream: behind none of them, or behind those after the
first. -/
theorem behind_iff_of_whole (announced : Announces recordSize bytes)
    (whole : Codec.uint32.size + prefixOf bytes ≤ bytes.length) {rest : List UInt8} :
    Behind recordSize bytes rest ↔
      rest = bytes ∨
        Behind recordSize (bytes.drop (Codec.uint32.size + prefixOf bytes)) rest := by
  constructor
  · rintro ⟨frames, rfl, allWhole⟩
    cases frames with
    | nil => exact .inl rfl
    | cons frame frames =>
        right
        have first := (allWhole frame List.mem_cons_self).append (frames.flatten ++ rest)
        refine ⟨frames, ?_, fun other member =>
          allWhole other (List.mem_cons_of_mem _ member)⟩
        rw [List.flatten_cons, List.append_assoc, first.2, List.drop_left]
  · rintro (rfl | ⟨frames, same, allWhole⟩)
    · exact behind_self rest
    · refine ⟨bytes.take (Codec.uint32.size + prefixOf bytes) :: frames, ?_, ?_⟩
      · rw [List.flatten_cons, List.append_assoc, ← same, List.take_append_drop]
      · exact List.forall_mem_cons.mpr ⟨announced.wholeFrame whole, allWhole⟩

/-- Without a whole frame at its front, a stream is all that is behind its frames. -/
theorem behind_iff_of_not_whole
    (broken : Announces recordSize bytes →
      bytes.length < Codec.uint32.size + prefixOf bytes) {rest : List UInt8} :
    Behind recordSize bytes rest ↔ rest = bytes := by
  constructor
  · rintro ⟨frames, rfl, allWhole⟩
    cases frames with
    | nil => rfl
    | cons frame frames =>
        have first := (allWhole frame List.mem_cons_self).append (frames.flatten ++ rest)
        rw [List.flatten_cons, List.append_assoc] at broken
        have short := broken first.1
        rw [first.2, List.length_append] at short
        omega
  · rintro rfl
    exact behind_self rest

/-- A stream is cut inside the records when what is behind its frames is. -/
theorem cutInRecords_iff :
    CutInRecords recordSize bytes ↔
      ∃ rest, Behind recordSize bytes rest ∧ CutFrame recordSize rest := by
  constructor
  · rintro ⟨frames, rest, same, allWhole, cut⟩
    exact ⟨rest, ⟨frames, same, allWhole⟩, cut⟩
  · rintro ⟨rest, ⟨frames, same, allWhole⟩, cut⟩
    exact ⟨frames, rest, same, allWhole, cut⟩

/-- A stream that does not start with a frame is not cut inside one. -/
theorem not_cut_of_refused (refused : ¬ Announces recordSize bytes) :
    ¬ CutInRecords recordSize bytes := by
  rw [cutInRecords_iff]
  rintro ⟨rest, behind, cut⟩
  rw [behind_iff_of_not_whole (fun announced => absurd announced refused)] at behind
  rw [behind] at cut
  exact refused cut.announced

/-- Behind a whole frame a stream is cut exactly if its rest is. -/
theorem cut_iff_of_whole (announced : Announces recordSize bytes)
    (whole : Codec.uint32.size + prefixOf bytes ≤ bytes.length) :
    CutInRecords recordSize bytes ↔
      CutInRecords recordSize (bytes.drop (Codec.uint32.size + prefixOf bytes)) := by
  simp only [cutInRecords_iff]
  constructor
  · rintro ⟨rest, behind, cut⟩
    rcases (behind_iff_of_whole announced whole).mp behind with rfl | behind
    · have short := cut.length
      omega
    · exact ⟨rest, behind, cut⟩
  · rintro ⟨rest, behind, cut⟩
    exact ⟨rest, (behind_iff_of_whole announced whole).mpr (.inr behind), cut⟩

theorem cut_of_short (announced : Announces recordSize bytes)
    (short : bytes.length < Codec.uint32.size + prefixOf bytes) :
    CutInRecords recordSize bytes :=
  cutInRecords_iff.mpr ⟨bytes, behind_self bytes, announced, short⟩

end Streams

/-! ## Whole frames -/

section Encoded

variable (length : UInt32) (hdr : WireFrameHeader) (rest : List UInt8)

theorem prefixOf_encode : prefixOf (Codec.uint32.encode length ++ rest) = length.toNat := by
  rw [prefixOf, List.take_left' (Codec.uint32.length_encode _), Codec.uint32.decode_encode]

theorem headerOf_encode :
    headerOf (Codec.uint32.encode length ++ (WireFrameHeader.codec.encode hdr ++ rest)) =
      hdr := by
  rw [headerOf, List.drop_left' (Codec.uint32.length_encode _),
    List.take_left' (WireFrameHeader.codec.length_encode _),
    WireFrameHeader.codec.decode_encode]

theorem bodyOf_encode :
    bodyOf (Codec.uint32.encode length ++ (WireFrameHeader.codec.encode hdr ++ rest)) =
      rest := by
  rw [bodyOf, List.drop_left' (Codec.uint32.length_encode _),
    List.drop_left' (WireFrameHeader.codec.length_encode _)]

end Encoded

section Whole

variable (hdr : WireFrameHeader) (records : List ρ)

theorem frameBytes_append (more : List UInt8) :
    frameBytes codec hdr records ++ more =
      Codec.uint32.encode (UInt32.ofNat (bodyLength codec.size records.length)) ++
        (WireFrameHeader.codec.encode hdr ++
          ((records.map codec.encode).flatten ++ more)) := by
  simp only [frameBytes, frameParts, List.flatten_cons, List.append_assoc]

theorem length_encoded :
    (records.map codec.encode).flatten.length = records.length * codec.size := by
  induction records with
  | nil => simp
  | cons record records ih =>
      rw [List.map_cons, List.flatten_cons, List.length_append, ih, codec.length_encode,
        List.length_cons, Nat.succ_mul, Nat.add_comm]

theorem length_frameBytes :
    (frameBytes codec hdr records).length =
      Codec.uint32.size + bodyLength codec.size records.length := by
  have parts := congrArg List.length (frameBytes_append codec hdr records [])
  simp only [List.append_nil, List.length_append, Codec.length_encode,
    length_encoded] at parts
  rw [parts, bodyLength]

theorem headerOf_frameBytes (more : List UInt8) :
    headerOf (frameBytes codec hdr records ++ more) = hdr := by
  rw [frameBytes_append, headerOf_encode]

theorem bodyOf_frameBytes (more : List UInt8) :
    bodyOf (frameBytes codec hdr records ++ more) =
      (records.map codec.encode).flatten ++ more := by
  rw [frameBytes_append, bodyOf_encode]

variable {hdr records}

theorem prefixOf_frameBytes (fits : bodyLength codec.size records.length < 2 ^ 32)
    (more : List UInt8) :
    prefixOf (frameBytes codec hdr records ++ more) =
      bodyLength codec.size records.length := by
  rw [frameBytes_append, prefixOf_encode]
  exact UInt32.toNat_ofNat_of_lt' fits

/-- A frame that was written with its own number of records is announced, whatever
follows it. -/
theorem frameBytes_announces (counted : hdr.count.toNat = records.length)
    (fits : bodyLength codec.size records.length < 2 ^ 32) (more : List UInt8) :
    Announces codec.size (frameBytes codec hdr records ++ more) where
  complete := by
    rw [List.length_append, length_frameBytes, bodyLength]
    omega
  agree := by rw [prefixOf_frameBytes codec fits, headerOf_frameBytes, counted]

/-- Its records are found behind its header, followed by what follows the frame. -/
theorem body_frameBytes (counted : hdr.count.toNat = records.length)
    (more : List UInt8) :
    let body := bodyOf (frameBytes codec hdr records ++ more)
    hdr.count.toNat * codec.size ≤ body.length ∧
      arrived codec hdr.count.toNat body = records ∧
      body.drop (hdr.count.toNat * codec.size) = more := by
  dsimp only
  rw [bodyOf_frameBytes, counted, arrived_encoded, ← length_encoded, List.drop_left,
    List.length_append]
  exact ⟨by omega, rfl, rfl⟩

end Whole

end KhadasYolo.Ipc
