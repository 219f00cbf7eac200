import Mathlib.Data.List.Basic

/-!
# Sockets that accept bytes in pieces

The sending side of a stream socket: each `send` is accepted in part, at least
one byte, or fails. The outcomes are a script; after it every `send` is accepted
whole. What has been accepted is what the peer can read.
-/

namespace ByteSink

universe u

/-- Outcome of one `send`: the bytes accepted beyond the first, or an error. -/
inductive Outcome where
  | accepts (more : Nat)
  | fails
  deriving DecidableEq, Repr

/-- A connected socket: the outcomes to come and the bytes accepted so far. -/
structure Sink where
  script : List Outcome
  sent : List UInt8
  deriving DecidableEq, Repr

/-- A peer that has read nothing and accepts everything. -/
def Sink.fresh : Sink := ⟨[], []⟩

/-- One `send`: the number of bytes accepted. -/
def Sink.send (sink : Sink) (bytes : List UInt8) : Option Nat × Sink :=
  match sink.script with
  | [] => (some bytes.length, ⟨[], sink.sent ++ bytes⟩)
  | .accepts more :: script =>
      (some (min (more + 1) bytes.length), ⟨script, sink.sent ++ bytes.take (more + 1)⟩)
  | .fails :: script => (none, ⟨script, sink.sent⟩)

/-- The loop of an exact write. Every round sends a byte or ends the loop. -/
def Sink.writeRounds : Nat → Sink → List UInt8 → Bool × Sink
  | _, sink, [] => (true, sink)
  | 0, sink, _ :: _ => (false, sink)
  | rounds + 1, sink, first :: rest =>
      match sink.send (first :: rest) with
      | (some accepted, next) => writeRounds rounds next ((first :: rest).drop accepted)
      | (none, next) => (false, next)

/-- Write all the bytes, or fail. -/
def Sink.writeExact (sink : Sink) (bytes : List UInt8) : Bool × Sink :=
  sink.writeRounds bytes.length bytes

/-- Write several buffers one after the other, up to the first failure. -/
def Sink.writeAll (sink : Sink) : List (List UInt8) → Bool × Sink
  | [] => (true, sink)
  | bytes :: rest =>
      match sink.writeExact bytes with
      | (true, next) => next.writeAll rest
      | (false, next) => (false, next)

/-- Send messages one after the other, up to the first failure. -/
def sendEach {μ : Type u} (write : Sink → μ → Bool × Sink) (sink : Sink) :
    List μ → Bool × Sink
  | [] => (true, sink)
  | message :: rest =>
      match write sink message with
      | (true, next) => sendEach write next rest
      | (false, next) => (false, next)

/-- Write to a peer, if there is one, and drop it when that fails: the peer that
remains and the bytes it accepted. -/
def offer (peer : Option Sink) (write : Sink → Bool × Sink) : Option Sink × List UInt8 :=
  match peer with
  | none => (none, [])
  | some sink =>
      match write sink with
      | (true, next) => (some next, next.sent.drop sink.sent.length)
      | (false, next) => (none, next.sent.drop sink.sent.length)

/-- A peer that accepts at most that many bytes beyond the first at each `send`. -/
def Sink.accepting (sends : List Nat) : Sink := ⟨sends.map .accepts, []⟩

/-- No `send` fails. -/
def Sink.Willing (sink : Sink) : Prop := .fails ∉ sink.script

/-- The next `send` fails. -/
def Sink.Refusing (sink : Sink) : Prop := sink.script.head? = some .fails

/-- A write adds an initial part of the bytes to what was sent; if it succeeds,
all of them. -/
structure WriteEffect (sink : Sink) (bytes : List UInt8) (outcome : Bool × Sink) :
    Prop where
  sent : ∃ part, part <+: bytes ∧ outcome.2.sent = sink.sent ++ part
  whole : outcome.1 = true → outcome.2.sent = sink.sent ++ bytes
  willing : sink.Willing → outcome.1 = true ∧ outcome.2.Willing

theorem Sink.willing_accepting (sends : List Nat) : (accepting sends).Willing := by
  simp [Willing, accepting]

namespace WriteEffect

variable {sink next : Sink} {bytes : List UInt8}

theorem trans {more : List UInt8} {outcome : Bool × Sink}
    (first : WriteEffect sink bytes (true, next))
    (second : WriteEffect next more outcome) :
    WriteEffect sink (bytes ++ more) outcome where
  sent := by
    rcases second.sent with ⟨part, initial, same⟩
    refine ⟨bytes ++ part, (List.prefix_append_right_inj bytes).mpr initial, ?_⟩
    rw [same, first.whole rfl, List.append_assoc]
  whole succeeded := by
    rw [second.whole succeeded, first.whole rfl, List.append_assoc]
  willing able := second.willing (first.willing able).2

theorem stop (more : List UInt8) (first : WriteEffect sink bytes (false, next)) :
    WriteEffect sink (bytes ++ more) (false, next) where
  sent := by
    rcases first.sent with ⟨part, initial, same⟩
    exact ⟨part, initial.trans (List.prefix_append bytes more), same⟩
  whole := nofun
  willing able := absurd (first.willing able).1 nofun

theorem length_le {outcome : Bool × Sink} (effect : WriteEffect sink bytes outcome) :
    sink.sent.length ≤ outcome.2.sent.length := by
  rcases effect.sent with ⟨part, _, same⟩
  rw [same, List.length_append]
  exact Nat.le_add_right _ _

theorem refl (sink : Sink) : WriteEffect sink [] (true, sink) where
  sent := ⟨[], List.prefix_rfl, (List.append_nil _).symm⟩
  whole _ := (List.append_nil _).symm
  willing able := ⟨rfl, able⟩

end WriteEffect

namespace Sink

/-- A `send` accepts an initial part, at least one byte, unless it fails. -/
theorem send_effect (sink : Sink) (first : UInt8) (rest : List UInt8) :
    match sink.send (first :: rest) with
    | (some accepted, next) => 0 < accepted ∧
        WriteEffect sink ((first :: rest).take accepted) (true, next)
    | (none, next) => WriteEffect sink [] (false, next) := by
  rcases sink with ⟨script, sent⟩
  cases script with
  | nil =>
      refine ⟨Nat.succ_pos _, ⟨⟨_, List.prefix_rfl, ?_⟩, fun _ => ?_, fun _ => ⟨rfl, nofun⟩⟩⟩
      · simp
      · simp
  | cons outcome script =>
      cases outcome with
      | accepts more =>
          refine ⟨by simp, ⟨⟨_, List.prefix_rfl, ?_⟩, fun _ => ?_, fun able => ⟨rfl, ?_⟩⟩⟩
          · simp
          · simp
          · exact fun failing => able (List.mem_cons_of_mem _ failing)
      | fails =>
          refine ⟨⟨[], List.prefix_rfl, by simp⟩, nofun, fun able => ?_⟩
          exact absurd List.mem_cons_self able

theorem writeRounds_effect {rounds : Nat} {bytes : List UInt8}
    (enough : bytes.length ≤ rounds) (sink : Sink) :
    WriteEffect sink bytes (sink.writeRounds rounds bytes) := by
  induction rounds generalizing sink bytes with
  | zero =>
      have nothing := List.length_eq_zero_iff.mp (Nat.le_zero.mp enough)
      subst nothing
      exact .refl sink
  | succ rounds ih =>
      cases bytes with
      | nil => exact .refl sink
      | cons first rest =>
          have effect := sink.send_effect first rest
          simp only [writeRounds]
          split
          next accepted next sent =>
            rw [sent] at effect
            have remaining : ((first :: rest).drop accepted).length ≤ rounds := by
              have positive := effect.1
              simp only [List.length_drop]
              omega
            have whole := effect.2.trans (ih remaining next)
            rwa [List.take_append_drop] at whole
          next next sent =>
            rw [sent] at effect
            exact effect.stop (first :: rest)

theorem writeExact_effect (sink : Sink) (bytes : List UInt8) :
    WriteEffect sink bytes (sink.writeExact bytes) :=
  writeRounds_effect (Nat.le_refl _) sink

theorem writeAll_effect (sink : Sink) (parts : List (List UInt8)) :
    WriteEffect sink parts.flatten (sink.writeAll parts) := by
  induction parts generalizing sink with
  | nil => exact .refl sink
  | cons bytes rest ih =>
      have effect := sink.writeExact_effect bytes
      simp only [writeAll, List.flatten_cons]
      split
      next next sent =>
        rw [sent] at effect
        exact effect.trans (ih next)
      next next sent =>
        rw [sent] at effect
        exact effect.stop rest.flatten

/-! ### One call of `send` -/

/-- The rounds of an exact write are as many as it needs. -/
theorem writeRounds_eq {first second : Nat} {bytes : List UInt8} (enough : bytes.length ≤ first)
    (also : bytes.length ≤ second) (sink : Sink) :
    sink.writeRounds first bytes = sink.writeRounds second bytes := by
  induction first generalizing second sink bytes with
  | zero =>
      cases List.length_eq_zero_iff.mp (Nat.le_zero.mp enough)
      simp only [writeRounds]
  | succ first ih =>
      cases bytes with
      | nil => simp only [writeRounds]
      | cons byte rest =>
          cases second with
          | zero => contradiction
          | succ second =>
              have effect := sink.send_effect byte rest
              simp only [writeRounds]
              split
              next accepted next sent =>
                rw [sent] at effect
                have positive := effect.1
                have length := List.length_drop (i := accepted) (l := byte :: rest)
                rw [List.length_cons] at enough also length
                apply ih <;> omega
              next => rfl

theorem writeRounds_enough {rounds : Nat} {bytes : List UInt8} (enough : bytes.length ≤ rounds)
    (sink : Sink) : sink.writeRounds rounds bytes = sink.writeExact bytes :=
  writeRounds_eq enough (Nat.le_refl _) sink

/-- The first call of `send` accepts some bytes. -/
theorem writeAll_accepts (script : List Outcome) (sent : List UInt8) (more : Nat) (first : UInt8)
    (rest : List UInt8) (later : List (List UInt8)) :
    writeAll ⟨.accepts more :: script, sent⟩ ((first :: rest) :: later) =
      writeAll ⟨script, sent ++ (first :: rest).take (more + 1)⟩
        ((first :: rest).drop (more + 1) :: later) := by
  have short : (rest.drop more).length ≤ rest.length := by
    rw [List.length_drop]
    exact Nat.sub_le _ _
  have same : (first :: rest).drop (min (more + 1) (first :: rest).length) = rest.drop more := by
    rw [List.length_cons, Nat.succ_min_succ, List.drop_succ_cons, ← List.drop_eq_drop_min]
  have round : writeExact ⟨.accepts more :: script, sent⟩ (first :: rest) =
      writeExact ⟨script, sent ++ (first :: rest).take (more + 1)⟩ (rest.drop more) := by
    rw [← writeRounds_enough short]
    change writeRounds _ _ (List.drop _ _) = _
    rw [same]
  rw [writeAll, round, List.drop_succ_cons, writeAll]

/-- The first call of `send` fails. -/
theorem writeAll_fails (script : List Outcome) (sent : List UInt8) (first : UInt8)
    (rest : List UInt8) (later : List (List UInt8)) :
    writeAll ⟨.fails :: script, sent⟩ ((first :: rest) :: later) = (false, ⟨script, sent⟩) :=
  rfl

end Sink

theorem sendEach_effect {μ : Type u} (parts : μ → List (List UInt8)) (sink : Sink)
    (messages : List μ) :
    WriteEffect sink (messages.map fun message => (parts message).flatten).flatten
      (sendEach (fun sink message => sink.writeAll (parts message)) sink messages) := by
  induction messages generalizing sink with
  | nil => exact .refl sink
  | cons message rest ih =>
      have effect := sink.writeAll_effect (parts message)
      simp only [sendEach, List.map_cons, List.flatten_cons]
      split
      next next sent =>
        rw [sent] at effect
        exact effect.trans (ih next)
      next next sent =>
        rw [sent] at effect
        exact effect.stop _

/-- What a peer accepts is an initial part of what was written. -/
theorem offer_prefix (peer : Option Sink) (parts : List (List UInt8)) :
    (offer peer (·.writeAll parts)).2 <+: parts.flatten := by
  cases peer with
  | none => exact List.nil_prefix
  | some sink =>
      rcases (sink.writeAll_effect parts).sent with ⟨part, initial, sent⟩
      simp only [offer]
      split
      next next written =>
        rw [written] at sent
        rwa [sent, List.drop_left]
      next next written =>
        rw [written] at sent
        rwa [sent, List.drop_left]

/-- A peer that remains has accepted everything. -/
theorem offer_kept {peer : Option Sink} {parts : List (List UInt8)}
    (kept : (offer peer (·.writeAll parts)).1.isSome) :
    (offer peer (·.writeAll parts)).2 = parts.flatten := by
  cases peer with
  | none => contradiction
  | some sink =>
      have effect := sink.writeAll_effect parts
      simp only [offer] at kept ⊢
      split at kept
      next next succeeded =>
        rw [succeeded] at effect
        dsimp only
        rw [effect.whole rfl, List.drop_left]
      next => contradiction

/-- A willing peer accepts everything and stays. -/
theorem offer_willing {sink : Sink} (able : sink.Willing) (parts : List (List UInt8)) :
    ∃ next, next.Willing ∧
      offer (some sink) (·.writeAll parts) = (some next, parts.flatten) := by
  have effect := sink.writeAll_effect parts
  rcases effect.willing able with ⟨succeeded, still⟩
  have sent := effect.whole succeeded
  refine ⟨(sink.writeAll parts).2, still, ?_⟩
  simp only [offer]
  split
  next next written =>
    rw [written] at sent ⊢
    rw [sent, List.drop_left]
  next next written =>
    rw [written] at succeeded
    contradiction

section Silent

variable {sink : Sink} (first : UInt8) (bytes : List UInt8)

theorem Sink.writeExact_refused (refusing : sink.Refusing) :
    ∃ next, sink.writeExact (first :: bytes) = (false, next) ∧ next.sent = sink.sent := by
  rcases sink with ⟨script, sent⟩
  cases script with
  | nil => cases refusing
  | cons outcome script =>
      cases refusing
      exact ⟨⟨script, sent⟩, rfl, rfl⟩

theorem Sink.writeExact_grows (willing : ¬ sink.Refusing) :
    sink.sent.length < (sink.writeExact (first :: bytes)).2.sent.length := by
  have effect := sink.send_effect first bytes
  simp only [writeExact, List.length_cons, writeRounds]
  split
  next accepted next step =>
    rw [step] at effect
    have start : sink.sent.length < next.sent.length := by
      have positive := effect.1
      have sent := effect.2.whole rfl
      rw [sent, List.length_append, List.length_take, List.length_cons]
      omega
    have remaining : ((first :: bytes).drop accepted).length ≤ bytes.length := by
      have positive := effect.1
      rw [List.length_drop, List.length_cons]
      omega
    exact Nat.lt_of_lt_of_le start (writeRounds_effect remaining next).length_le
  next next step =>
    rcases sink with ⟨script, sent⟩
    cases script with
    | nil => cases step
    | cons outcome script =>
        cases outcome with
        | accepts => cases step
        | fails => exact absurd rfl willing

/-- A peer gets nothing exactly when its first `send` fails. -/
theorem offer_silent_iff (peer : Option Sink) (parts : List (List UInt8)) :
    (offer peer (·.writeAll ((first :: bytes) :: parts))).2 = [] ↔
      ∀ sink ∈ peer, sink.Refusing := by
  cases peer with
  | none => exact iff_of_true rfl nofun
  | some sink =>
      have accepted : (offer (some sink) (·.writeAll ((first :: bytes) :: parts))).2 =
          (sink.writeAll ((first :: bytes) :: parts)).2.sent.drop sink.sent.length := by
        simp only [offer]
        split
        next next written => rw [written]
        next next written => rw [written]
      rw [accepted, List.drop_eq_nil_iff]
      simp only [Option.mem_some_iff, forall_eq', Sink.writeAll]
      by_cases refusing : sink.Refusing
      · rcases sink.writeExact_refused first bytes refusing with ⟨next, failed, same⟩
        rw [failed]
        exact iff_of_true (Nat.le_of_eq (congrArg List.length same)) refusing
      · have grows := sink.writeExact_grows first bytes refusing
        refine iff_of_false (Nat.not_le.mpr ?_) refusing
        split
        next next written =>
          rw [written] at grows
          exact Nat.lt_of_lt_of_le grows (next.writeAll_effect parts).length_le
        next next written =>
          rw [written] at grows
          exact grows

end Silent

end ByteSink
