import Mathlib.Data.List.Basic

/-!
# Stream sockets that block

A connected stream socket, as a thread sees it that reads from it and writes to it. A
`read` blocks while nothing has arrived and more can come, a `send` while the buffer has
no room and the peer is there. Only the peer ends this.
-/

namespace StreamSocket

/-- What the peer of a connection has done so far. -/
structure Peer where
  /-- what has arrived and is not read -/
  incoming : List UInt8
  /-- nothing more will arrive -/
  ended : Bool
  /-- the bytes that the buffer can take -/
  room : Nat
  /-- the peer has closed its end -/
  gone : Bool
  deriving DecidableEq, Repr

/-- What a peer can do. -/
inductive PeerAction where
  | supplies (bytes : List UInt8)
  | drains (count : Nat)
  | ends
  | leaves
  deriving DecidableEq, Repr

namespace Peer

/-- A new connection. -/
def fresh (room : Nat) : Peer := ⟨[], false, room, false⟩

def act (peer : Peer) : PeerAction → Peer
  | .supplies bytes =>
      if peer.ended then peer else { peer with incoming := peer.incoming ++ bytes }
  | .drains count => { peer with room := peer.room + count }
  | .ends => { peer with ended := true }
  | .leaves => { peer with ended := true, gone := true }

/-- `read` of some bytes, or of none at the end. It is `none` while the call blocks. -/
def read (peer : Peer) (limit more : Nat) : Option (List UInt8 × Peer) :=
  if peer.incoming = [] then
    if peer.ended then some ([], peer) else none
  else
    let count := min (more + 1) limit
    some (peer.incoming.take count, { peer with incoming := peer.incoming.drop count })

/-- `send` of some bytes: their number, or an error. It is `none` while the call blocks. -/
def send (peer : Peer) (bytes : List UInt8) (more : Nat) : Option (Option Nat × Peer) :=
  if peer.gone then some (none, peer)
  else if peer.room = 0 then none
  else
    let count := min (more + 1) (min peer.room bytes.length)
    some (some count, { peer with room := peer.room - count })

/-! ## What a peer has done already -/

/-- A `read` blocks. -/
def Silent (peer : Peer) : Prop := peer.incoming = [] ∧ peer.ended = false

/-- A `send` blocks. -/
def Stalled (peer : Peer) : Prop := peer.room = 0 ∧ peer.gone = false

instance (peer : Peer) : Decidable peer.Silent := inferInstanceAs (Decidable (_ ∧ _))

instance (peer : Peer) : Decidable peer.Stalled := inferInstanceAs (Decidable (_ ∧ _))

/-- That many bytes can be sent, or `send` fails. -/
def Takes (peer : Peer) (count : Nat) : Prop := peer.gone = true ∨ count ≤ peer.room

variable {peer next : Peer} {bytes : List UInt8} {limit more count : Nat}

theorem Takes.mono (takes : peer.Takes count) {fewer : Nat} (le : fewer ≤ count) :
    peer.Takes fewer :=
  takes.imp_right (Nat.le_trans le)

/-- A peer has gone on: more has arrived, unless it had ended, and there is no less room. -/
structure Later (peer next : Peer) (more : List UInt8) : Prop where
  incoming : next.incoming = peer.incoming ++ more
  ended : peer.ended = true → next.ended = true ∧ more = []
  takes : ∀ count, peer.Takes count → next.Takes count

/-- The action of a peer. -/
theorem act_later (peer : Peer) (action : PeerAction) :
    ∃ more, Later peer (peer.act action) more := by
  cases action with
  | supplies bytes =>
      rw [Peer.act]
      split
      next ended =>
        exact ⟨[], (List.append_nil _).symm, fun _ => ⟨ended, rfl⟩, fun _ takes => takes⟩
      next still =>
        exact ⟨bytes, rfl, fun ended => absurd ended still, fun _ takes => takes⟩
  | drains more =>
      exact ⟨[], (List.append_nil _).symm, fun ended => ⟨ended, rfl⟩,
        fun _ takes => takes.imp_right Nat.le_add_right_of_le⟩
  | ends =>
      exact ⟨[], (List.append_nil _).symm, fun _ => ⟨rfl, rfl⟩, fun _ takes => takes⟩
  | leaves =>
      exact ⟨[], (List.append_nil _).symm, fun _ => ⟨rfl, rfl⟩, fun _ _ => .inl rfl⟩

theorem Takes.not_stalled (takes : peer.Takes count) (positive : 0 < count) :
    ¬ peer.Stalled := by
  rintro ⟨full, present⟩
  rcases takes with gone | enough
  · rw [gone] at present
    contradiction
  · rw [full] at enough
    exact Nat.not_lt.mpr enough positive

/-- A `read` moves bytes, or finds the end. -/
theorem read_some {got : List UInt8} (returned : peer.read limit more = some (got, next)) :
    (got ++ next.incoming = peer.incoming ∧ got.length ≤ limit ∧ next.ended = peer.ended ∧
        next.room = peer.room ∧ next.gone = peer.gone) ∧
      (got = [] → 0 < limit → peer.incoming = [] ∧ peer.ended = true) := by
  rw [read] at returned
  split at returned
  next nothing =>
    split at returned
    next ended =>
      cases returned
      exact ⟨⟨rfl, Nat.zero_le _, rfl, rfl, rfl⟩, fun _ _ => ⟨nothing, ended⟩⟩
    next => contradiction
  next some =>
    cases returned
    refine ⟨⟨List.take_append_drop _ _, ?_, rfl, rfl, rfl⟩, fun none positive => ?_⟩
    · exact Nat.le_trans (List.length_take_le _ _) (Nat.min_le_right _ _)
    · rcases List.take_eq_nil_iff.mp none with zero | empty
      · omega
      · exact absurd empty some

/-- A `read` of all that has arrived. -/
theorem read_all (arrived : peer.incoming ≠ []) (within : peer.incoming.length ≤ limit) :
    peer.read limit peer.incoming.length =
      some (peer.incoming, { peer with incoming := [] }) := by
  have enough : peer.incoming.length ≤ min (peer.incoming.length + 1) limit :=
    Nat.le_min.mpr ⟨Nat.le_succ _, within⟩
  rw [read, if_neg arrived]
  simp only [List.take_of_length_le enough, List.drop_of_length_le enough]

/-- A `read` of as many bytes as were asked for. -/
theorem read_limit (positive : 0 < limit) (within : limit ≤ peer.incoming.length) :
    peer.read limit limit = some (peer.incoming.take limit,
      { peer with incoming := peer.incoming.drop limit }) := by
  have arrived : peer.incoming ≠ [] := by
    intro nothing
    rw [nothing] at within
    exact Nat.not_lt.mpr within positive
  rw [read, if_neg arrived, Nat.min_eq_right (Nat.le_succ limit)]

/-- A `send` accepts bytes for which there is room. -/
theorem send_some (returned : peer.send bytes more = some (some count, next)) :
    peer.gone = false ∧ count ≤ bytes.length ∧ next.gone = peer.gone ∧
      next.room + count = peer.room := by
  rw [send] at returned
  split at returned
  next => cases returned
  next present =>
    split at returned
    next => contradiction
    next =>
      cases returned
      refine ⟨Bool.eq_false_iff.mpr present, ?_, rfl, ?_⟩
      · exact Nat.le_trans (Nat.min_le_right _ _) (Nat.min_le_right _ _)
      · have fits : min (more + 1) (min peer.room bytes.length) ≤ peer.room :=
            Nat.le_trans (Nat.min_le_right _ _) (Nat.min_le_left _ _)
        exact Nat.sub_add_cancel fits

/-- The number of bytes that a `send` accepts, as one that any buffer of the peer could have
led to. -/
theorem send_accepts {first : UInt8}
    (returned : peer.send (first :: bytes) more = some (some count, next)) :
    ∃ some, count = min (some + 1) (first :: bytes).length := by
  rw [send] at returned
  split at returned
  next => cases returned
  next =>
    split at returned
    next => contradiction
    next room =>
      cases returned
      refine ⟨min more (peer.room - 1), ?_⟩
      rw [List.length_cons]
      omega

/-- A `send` of the first byte. -/
theorem send_one {first : UInt8} (present : peer.gone = false) (room : peer.room ≠ 0) :
    peer.send (first :: bytes) 0 = some (some 1, { peer with room := peer.room - 1 }) := by
  have one : min (0 + 1) (min peer.room (first :: bytes).length) = 1 := by
    rw [List.length_cons]
    omega
  rw [send, if_neg (Bool.eq_false_iff.mp present), if_neg room]
  simp only [one]

theorem Takes.send {later : Nat} (takes : peer.Takes (bytes.length + later))
    (returned : peer.send bytes more = some (some count, next)) :
    next.Takes (bytes.length - count + later) := by
  rcases send_some returned with ⟨present, fits, same, room⟩
  rcases takes with gone | enough
  · exact .inl (same.trans gone)
  · apply Or.inr
    omega

end Peer

/-! ## Several buffers -/

/-- What is left to send of several buffers, from the first byte on. -/
def unsent (left : List (List UInt8)) : List (List UInt8) := left.dropWhile List.isEmpty

theorem flatten_unsent (left : List (List UInt8)) : (unsent left).flatten = left.flatten := by
  induction left with
  | nil => rfl
  | cons bytes left ih =>
      cases bytes with
      | nil => exact ih
      | cons first rest => rfl

/-- The first buffer has a first byte. -/
def Begins (left : List (List UInt8)) : Prop :=
  ∃ first rest later, left = (first :: rest) :: later

theorem unsent_begins (left : List (List UInt8)) : unsent left = [] ∨ Begins (unsent left) := by
  induction left with
  | nil => exact .inl rfl
  | cons bytes left ih =>
      cases bytes with
      | nil => exact ih
      | cons first rest => exact .inr ⟨first, rest, left, rfl⟩

theorem Begins.length_pos {left : List (List UInt8)} (begins : Begins left) :
    0 < left.flatten.length := by
  rcases begins with ⟨first, rest, later, rfl⟩
  exact Nat.zero_lt_succ _

theorem unsent_begins_of_pos {left : List (List UInt8)} (some : 0 < left.flatten.length) :
    Begins (unsent left) := by
  apply (unsent_begins left).resolve_left
  intro none
  rw [← flatten_unsent, none] at some
  contradiction

/-- A property of a sender that stalls, and of one that sends a byte and has it then, is one
of every sender that runs out of room. -/
theorem runs_out {property : Peer → List (List UInt8) → Prop}
    (stalls : ∀ peer left, peer.Stalled → property peer left)
    (sends : ∀ peer first rest later, peer.gone = false → peer.room ≠ 0 →
      Begins (unsent (rest :: later)) →
      property { peer with room := peer.room - 1 } (unsent (rest :: later)) →
        property peer ((first :: rest) :: later))
    {peer : Peer} {left : List (List UInt8)} (present : peer.gone = false)
    (begins : Begins left) (short : peer.room < left.flatten.length) : property peer left := by
  generalize room : peer.room = free at short
  induction free generalizing peer left with
  | zero => exact stalls peer left ⟨room, present⟩
  | succ free ih =>
      rcases begins with ⟨first, rest, later, rfl⟩
      have remains : free < (rest :: later).flatten.length := by
        rw [List.flatten_cons, List.cons_append, List.length_cons] at short
        rw [List.flatten_cons]
        omega
      have next := unsent_begins_of_pos (Nat.zero_lt_of_lt remains)
      apply sends peer first rest later present (by omega) next
      apply ih
      · exact present
      · exact next
      · exact congrArg (· - 1) room
      · rw [flatten_unsent]
        exact remains

end StreamSocket
