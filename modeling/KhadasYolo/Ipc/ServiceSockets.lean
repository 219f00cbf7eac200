import KhadasYolo.Lib.HandleTable
import KhadasYolo.Lib.Ranking

/-!
# The sockets of a service

`bytetrack_service` and `temporal_service` have the same `main` but for the frames: a
listener, one connection to the service before it, and at most one consumer behind it.
Any call may fail, and a signal may come at any time.  `readExact` and `writeExact` count
as one call each.

Which sockets are open is known from where the service is.  So none is closed twice or
used behind its end, and the service leaves no socket behind.
-/

namespace KhadasYolo.Ipc.ServiceSockets

open TransitionSystem HandleTable

/-- The variables that hold a socket. -/
inductive Slot where
  | outListen
  | outConn
  | inFd
  deriving DecidableEq, Repr

/-- The next call of the service, or test of `g_running`. -/
inductive Pc where
  /- `bind_output` -/
  | unlinkOld
  | listenerSocket
  | bind
  | listen
  | getFlags
  | setFlags
  | closeUnbound
  /- the outer loop, and the loop of `connect_input` -/
  | outer
  | connecting
  | inputSocket
  | connect
  | closeRefused
  /- the frame loop -/
  | inner
  | readPrefix
  | readHeader
  | readRecord (left : Nat)
  | accept
  | sendPrefix
  | sendHeader
  | sendRecord (left : Nat)
  | closeConsumer
  | closeInput
  /- behind the loops -/
  | closeLast
  | closeListener
  | unlinkPath
  | exited (status : Nat)
  deriving DecidableEq, Repr

structure State where
  pc : Pc
  table : Table Slot
  /-- `out_conn >= 0` -/
  attached : Bool
  running : Bool
  /-- the path of the listener is there -/
  path : Bool
  /-- `unlink` has failed behind the loops -/
  kept : Bool

inductive Action where
  | signal
  /-- The next call, and whether it succeeds and what it has read is in order. A header
  has a number of records. -/
  | run (ok : Bool) (records : Nat)
  deriving DecidableEq, Repr

namespace State

variable (s : State)

@[simp] def goto (pc : Pc) : State := { s with pc := pc }

@[simp] def create (slot : Slot) (pc : Pc) : State :=
  { s with table := s.table.create slot, pc := pc }

@[simp] def destroy (slot : Slot) (pc : Pc) : State :=
  { s with table := s.table.destroy slot, pc := pc }

/-- A frame goes to the consumer, who is accepted first if there is none. -/
@[simp] def publish : State := s.goto (if s.attached then .sendPrefix else .accept)

/-- `main` goes on with the outcome of the next call. -/
def run (ok : Bool) (records : Nat) : Option State :=
  match s.pc with
  | .unlinkOld => some { s with path := s.path && !ok, pc := .listenerSocket }
  | .listenerSocket => some (if ok then s.create .outListen .bind else s.goto (.exited 1))
  -- a path that is there cannot be bound
  | .bind =>
      some (if ok && !s.path then { s with path := true, pc := .listen }
        else s.goto .closeUnbound)
  | .listen => some (s.goto (if ok then .getFlags else .closeUnbound))
  | .getFlags => some (s.goto .setFlags)
  | .setFlags => some (s.goto .outer)
  | .closeUnbound => some (s.destroy .outListen (.exited 1))
  | .outer => some (s.goto (if s.running then .connecting else .closeLast))
  | .connecting => some (s.goto (if s.running then .inputSocket else .closeLast))
  | .inputSocket => some (if ok then s.create .inFd .connect else s.goto .closeLast)
  | .connect => some (s.goto (if ok then .inner else .closeRefused))
  | .closeRefused => some (s.destroy .inFd .connecting)
  | .inner => some (s.goto (if s.running then .readPrefix else .closeInput))
  | .readPrefix => some (s.goto (if ok then .readHeader else .closeInput))
  | .readHeader => some (s.goto (if ok then .readRecord records else .closeInput))
  | .readRecord 0 => some s.publish
  -- a record that does not come ends the frame, and the frame is published
  | .readRecord (left + 1) => some (if ok then s.goto (.readRecord left) else s.publish)
  | .accept =>
      some (if ok then { s.create .outConn .sendPrefix with attached := true }
        else s.goto .inner)
  | .sendPrefix => some (s.goto (if ok then .sendHeader else .closeConsumer))
  | .sendHeader => some (s.goto (if ok then .sendRecord records else .closeConsumer))
  | .sendRecord 0 => some (s.goto .inner)
  | .sendRecord (left + 1) => some (s.goto (if ok then .sendRecord left else .closeConsumer))
  | .closeConsumer => some { s.destroy .outConn .inner with attached := false }
  | .closeInput => some (s.destroy .inFd .outer)
  | .closeLast =>
      some (if s.attached then { s.destroy .outConn .closeListener with attached := false }
        else s.goto .closeListener)
  | .closeListener => some (s.destroy .outListen .unlinkPath)
  | .unlinkPath => some { s with path := s.path && !ok, kept := !ok, pc := .exited 0 }
  | .exited _ => none

end State

/-- No frame has more than `most` records. -/
def step (most : Nat) (s : State) : Action → Option State
  | .signal => some { s with running := false }
  | .run ok records => if records ≤ most then s.run ok records else none

/-- A service, with a path that an earlier one may have left. -/
def service (most : Nat) (path : Bool) : System State Action where
  init :=
    { pc := .unlinkOld
      table := ⟨fun _ => none, 0, []⟩
      attached := false
      running := true
      path := path
      kept := false }
  step := step most

/-! ## Where the sockets are -/

/-- The listener is open. -/
@[simp] def Pc.listening : Pc → Bool
  | .unlinkOld | .listenerSocket | .unlinkPath | .exited _ => false
  | _ => true

/-- The connection to the service before is open. -/
@[simp] def Pc.connected : Pc → Bool
  | .connect | .closeRefused | .inner | .readPrefix | .readHeader | .readRecord _ | .accept
  | .sendPrefix | .sendHeader | .sendRecord _ | .closeConsumer | .closeInput => true
  | _ => false

/-- The variables that hold an open socket. -/
@[simp] def State.holds (s : State) : Slot → Bool
  | .outListen => s.pc.listening
  | .outConn => s.attached
  | .inFd => s.pc.connected

/-- The variable whose socket the next call is on. -/
def State.uses (s : State) : Option Slot :=
  match s.pc with
  | .bind | .listen | .getFlags | .setFlags | .closeUnbound | .accept | .closeListener =>
      some .outListen
  | .connect | .closeRefused | .readPrefix | .readHeader | .readRecord _ | .closeInput =>
      some .inFd
  | .sendPrefix | .sendHeader | .sendRecord _ | .closeConsumer => some .outConn
  | .closeLast => if s.attached then some .outConn else none
  | _ => none

/-- The service cannot be where it is with a consumer, or without. -/
def Pc.agrees (pc : Pc) (attached : Bool) : Bool :=
  match pc with
  | .sendPrefix | .sendHeader | .sendRecord _ | .closeConsumer => attached
  | .unlinkOld | .listenerSocket | .bind | .listen | .getFlags | .setFlags | .closeUnbound
  | .accept | .closeListener | .unlinkPath | .exited _ => !attached
  | _ => true

/-- The path is there between `bind` and the last `unlink`. -/
def State.placed (s : State) : Prop :=
  match s.pc with
  | .unlinkOld | .listenerSocket | .bind | .closeUnbound => True
  | .exited 0 => s.path = s.kept
  | .exited _ => True
  | _ => s.path = true

structure Sound (s : State) : Prop where
  valid : s.table.Valid
  accounted : s.table.Accounted s.holds
  owned : s.table.Owned s.holds
  distinct : s.table.Distinct s.holds
  nodup : s.table.destroyed.Nodup
  agrees : s.pc.agrees s.attached = true
  placed : s.placed

theorem Sound.start (most : Nat) (path : Bool) : Sound (service most path).init where
  valid := ⟨nofun, nofun⟩
  accounted _ live := absurd live.1 (Nat.not_lt_zero _)
  owned slot taken := by cases slot <;> contradiction
  distinct slot _ taken := by cases slot <;> contradiction
  nodup := List.nodup_nil
  agrees := rfl
  placed := trivial

section Steps

variable {s after : State} {slot : Slot}

/-- The sockets stay as they are. -/
theorem Sound.keep (sound : Sound s) (table : after.table = s.table)
    (holds : after.holds = s.holds) (agrees : after.pc.agrees after.attached = true)
    (placed : after.placed) : Sound after where
  valid := table ▸ sound.valid
  accounted := by rw [table, holds]; exact sound.accounted
  owned := by rw [table, holds]; exact sound.owned
  distinct := by rw [table, holds]; exact sound.distinct
  nodup := table ▸ sound.nodup
  agrees := agrees
  placed := placed

/-- A socket is opened into a variable without one. -/
theorem Sound.opens (sound : Sound s) (table : after.table = s.table.create slot)
    (vacant : s.holds slot = false)
    (filled : ∀ other, after.holds other = (s.holds other || decide (other = slot)))
    (agrees : after.pc.agrees after.attached = true)
    (placed : after.placed) : Sound after where
  valid := table ▸ sound.valid.create slot
  accounted := table ▸ sound.accounted.create sound.valid vacant filled
  owned := table ▸ sound.owned.create sound.valid filled
  distinct := table ▸ sound.distinct.create sound.valid filled
  nodup := table ▸ sound.nodup
  agrees := agrees
  placed := placed

/-- The socket of a variable is closed. -/
theorem Sound.closes (sound : Sound s) (table : after.table = s.table.destroy slot)
    (taken : s.holds slot = true)
    (vacated : ∀ other, after.holds other = (s.holds other && decide (other ≠ slot)))
    (agrees : after.pc.agrees after.attached = true)
    (placed : after.placed) : Sound after where
  valid := table ▸ sound.valid.destroy slot
  accounted := table ▸ sound.accounted.destroy vacated
  owned := table ▸ sound.owned.destroy sound.distinct taken vacated
  distinct := table ▸ sound.distinct.destroy vacated
  nodup := by
    rcases sound.owned slot taken with ⟨handle, stored, live⟩
    exact table ▸ Table.nodup_destroy sound.nodup stored live
  agrees := agrees
  placed := placed

theorem Sound.goto (sound : Sound s) {pc : Pc} (listening : pc.listening = s.pc.listening)
    (connected : pc.connected = s.pc.connected) (agrees : pc.agrees s.attached = true)
    (placed : (s.goto pc).placed) : Sound (s.goto pc) := by
  refine sound.keep rfl (funext fun slot => ?_) agrees placed
  cases slot with
  | outListen => exact listening
  | outConn => rfl
  | inFd => exact connected

/-- A frame is published behind its records. -/
theorem Sound.publish (sound : Sound s) {left : Nat} (located : s.pc = .readRecord left) :
    Sound s.publish := by
  have placed : s.path = true := by
    have before := sound.placed
    rwa [State.placed, located] at before
  cases attached : s.attached with
  | true =>
      rw [State.publish, attached, if_pos rfl]
      exact sound.goto (by rw [located]; rfl) (by rw [located]; rfl) attached placed
  | false =>
      rw [State.publish, attached, if_neg Bool.false_ne_true]
      exact sound.goto (by rw [located]; rfl) (by rw [located]; rfl)
        (by rw [Pc.agrees, attached]; rfl) placed

/-- One case for each place of the service. -/
theorem Sound.run (sound : Sound s) {ok : Bool} {records : Nat}
    (taken : s.run ok records = some after) : Sound after := by
  rcases s with ⟨pc, table, attached, running, path, kept⟩
  have agrees := sound.agrees
  cases pc with
  | unlinkOld =>
      cases taken
      exact sound.keep rfl (funext fun slot => by cases slot <;> rfl) agrees trivial
  | listenerSocket =>
      cases ok with
      | true =>
          cases taken
          exact sound.opens rfl rfl (fun slot => by cases slot <;> simp) agrees trivial
      | false =>
          cases taken
          exact sound.goto rfl rfl agrees trivial
  | bind =>
      cases ok with
      | true =>
          cases path with
          | true =>
              cases taken
              exact sound.goto rfl rfl agrees trivial
          | false =>
              cases taken
              exact sound.keep rfl (funext fun slot => by cases slot <;> rfl) agrees rfl
      | false =>
          cases taken
          exact sound.goto rfl rfl agrees trivial
  | listen =>
      cases ok with
      | true =>
          cases taken
          exact sound.goto rfl rfl agrees sound.placed
      | false =>
          cases taken
          exact sound.goto rfl rfl agrees trivial
  | getFlags =>
      cases taken
      exact sound.goto rfl rfl agrees sound.placed
  | setFlags =>
      cases taken
      exact sound.goto rfl rfl rfl sound.placed
  | closeUnbound =>
      cases taken
      exact sound.closes rfl rfl (fun slot => by cases slot <;> simp) agrees trivial
  | outer =>
      cases running <;> cases taken <;> exact sound.goto rfl rfl rfl sound.placed
  | connecting =>
      cases running <;> cases taken <;> exact sound.goto rfl rfl rfl sound.placed
  | inputSocket =>
      cases ok with
      | true =>
          cases taken
          exact sound.opens rfl rfl (fun slot => by cases slot <;> simp) rfl sound.placed
      | false =>
          cases taken
          exact sound.goto rfl rfl rfl sound.placed
  | connect =>
      cases ok <;> cases taken <;> exact sound.goto rfl rfl rfl sound.placed
  | closeRefused =>
      cases taken
      exact sound.closes rfl rfl (fun slot => by cases slot <;> simp) rfl sound.placed
  | inner =>
      cases running <;> cases taken <;> exact sound.goto rfl rfl rfl sound.placed
  | readPrefix =>
      cases ok <;> cases taken <;> exact sound.goto rfl rfl rfl sound.placed
  | readHeader =>
      cases ok <;> cases taken <;> exact sound.goto rfl rfl rfl sound.placed
  | readRecord left =>
      cases left with
      | zero =>
          cases taken
          exact sound.publish rfl
      | succ left =>
          cases ok with
          | true =>
              cases taken
              exact sound.goto rfl rfl rfl sound.placed
          | false =>
              cases taken
              exact sound.publish rfl
  | accept =>
      cases ok with
      | true =>
          cases attached with
          | true => contradiction
          | false =>
              cases taken
              exact sound.opens rfl rfl (fun slot => by cases slot <;> rfl) rfl sound.placed
      | false =>
          cases taken
          exact sound.goto rfl rfl rfl sound.placed
  | sendPrefix =>
      cases ok <;> cases taken <;> exact sound.goto rfl rfl agrees sound.placed
  | sendHeader =>
      cases ok <;> cases taken <;> exact sound.goto rfl rfl agrees sound.placed
  | sendRecord left =>
      cases left with
      | zero =>
          cases taken
          exact sound.goto rfl rfl rfl sound.placed
      | succ left =>
          cases ok <;> cases taken <;> exact sound.goto rfl rfl agrees sound.placed
  | closeConsumer =>
      cases attached with
      | true =>
          cases taken
          exact sound.closes rfl rfl (fun slot => by cases slot <;> simp) rfl sound.placed
      | false => contradiction
  | closeInput =>
      cases taken
      exact sound.closes rfl rfl (fun slot => by cases slot <;> simp) rfl sound.placed
  | closeLast =>
      cases attached with
      | true =>
          cases taken
          exact sound.closes rfl rfl (fun slot => by cases slot <;> simp) rfl sound.placed
      | false =>
          cases taken
          exact sound.goto rfl rfl rfl sound.placed
  | closeListener =>
      cases taken
      exact sound.closes rfl rfl (fun slot => by cases slot <;> simp) agrees sound.placed
  | unlinkPath =>
      cases taken
      have there : path = true := sound.placed
      subst there
      exact sound.keep rfl (funext fun slot => by cases slot <;> rfl) agrees rfl
  | exited status => contradiction

theorem sound_step {most : Nat} {action : Action} (sound : Sound s)
    (taken : step most s action = some after) : Sound after := by
  cases action with
  | signal =>
      cases taken
      exact sound.keep rfl rfl sound.agrees sound.placed
  | run ok records =>
      rw [step] at taken
      split at taken
      · exact sound.run taken
      · contradiction

end Steps

theorem sound_of_reachable {most : Nat} {path : Bool} {s : State}
    (reach : (service most path).Reachable s) : Sound s :=
  reach.invariant Sound (.start most path) fun _ _ _ _ sound _ taken => sound_step sound taken

/-- Every call is on a socket that is open. -/
theorem Sound.holds_uses {s : State} (sound : Sound s) {slot : Slot} (used : s.uses = some slot) :
    s.holds slot = true := by
  rcases s with ⟨pc, table, attached, running, path, kept⟩
  have agrees := sound.agrees
  cases pc with
  | sendPrefix | sendHeader | sendRecord | closeConsumer => cases used; exact agrees
  | closeLast => cases attached <;> cases used; rfl
  | _ => cases used <;> rfl

/-! ## The way out -/

/-- How many calls are left at most once the service is told to end. -/
def Pc.left (most : Nat) : Pc → Nat
  | .exited _ => 0
  | .unlinkPath | .closeUnbound => 1
  | .closeListener => 2
  | .closeLast => 3
  | .outer | .connecting => 4
  | .closeInput | .closeRefused | .setFlags => 5
  | .inner | .getFlags => 6
  | .closeConsumer | .connect | .listen => 7
  | .inputSocket | .bind => 8
  | .listenerSocket => 9
  | .unlinkOld => 10
  | .sendRecord records => 8 + records
  | .sendHeader => 9 + most
  | .sendPrefix => 10 + most
  | .accept => 11 + most
  | .readRecord records => 12 + most + records
  | .readHeader => 13 + most + most
  | .readPrefix => 14 + most + most

/-- A frame in work has no more records than any. -/
def Pc.fits (most : Nat) : Pc → Prop
  | .readRecord left | .sendRecord left => left ≤ most
  | _ => True

theorem left_le {most : Nat} {pc : Pc} (fits : pc.fits most) : pc.left most ≤ 14 + 2 * most := by
  cases pc <;> simp only [Pc.left, Pc.fits] at fits ⊢ <;> omega

theorem fits_run {most records : Nat} {s after : State} {ok : Bool} (fits : s.pc.fits most)
    (few : records ≤ most) (taken : s.run ok records = some after) : after.pc.fits most := by
  rcases s with ⟨pc, table, attached, running, path, kept⟩
  cases pc with
  | bind => cases ok <;> cases path <;> cases taken <;> trivial
  | outer | connecting | inner => cases running <;> cases taken <;> trivial
  | readHeader | sendHeader =>
      cases ok with
      | true =>
          cases taken
          exact few
      | false =>
          cases taken
          trivial
  | readRecord left =>
      cases left with
      | zero => cases attached <;> cases taken <;> trivial
      | succ left =>
          cases ok with
          | true =>
              cases taken
              exact Nat.le_of_succ_le fits
          | false => cases attached <;> cases taken <;> trivial
  | sendRecord left =>
      cases left with
      | zero =>
          cases taken
          trivial
      | succ left =>
          cases ok with
          | true =>
              cases taken
              exact Nat.le_of_succ_le fits
          | false =>
              cases taken
              trivial
  | _ => cases ok <;> cases attached <;> cases taken <;> trivial

theorem left_run {most records : Nat} {s after : State} {ok : Bool} (few : records ≤ most)
    (stopping : s.running = false) (taken : s.run ok records = some after) :
    after.pc.left most < s.pc.left most ∧ after.running = false := by
  rcases s with ⟨pc, table, attached, running, path, kept⟩
  cases stopping
  cases pc with
  | bind => cases ok <;> cases path <;> cases taken <;> simp [Pc.left]
  | readRecord left =>
      cases left <;> cases ok <;> cases attached <;> cases taken <;> simp [Pc.left]
      all_goals omega
  | sendRecord left =>
      cases left <;> cases ok <;> cases taken <;> simp [Pc.left]
      all_goals omega
  | _ =>
      cases ok <;> cases attached <;> cases taken <;> simp [Pc.left]
      all_goals omega

def Action.isRun : Action → Bool
  | .signal => false
  | .run _ _ => true

/-- Every call brings a service that was told to end closer to its end. -/
def stopping (most : Nat) (path : Bool) :
    System.Ranking (service most path) (fun s => s.running = false) Action.isRun where
  rank s := s.pc.left most
  keeps {_ action _} stopping taken := by
    cases action with
    | signal => cases taken; rfl
    | run ok records =>
        rcases Option.ite_none_right_eq_some.mp taken with ⟨few, taken⟩
        exact (left_run few stopping taken).2
  lowers {_ action _} stopping taken counted := by
    cases action with
    | signal => contradiction
    | run ok records =>
        rcases Option.ite_none_right_eq_some.mp taken with ⟨few, taken⟩
        exact (left_run few stopping taken).1
  levels {_ action _} _ taken counted := by
    cases action with
    | signal => cases taken; exact Nat.le_refl _
    | run ok records => contradiction

theorem fits_of_reachable {most : Nat} {path : Bool} {s : State}
    (reach : (service most path).Reachable s) : s.pc.fits most :=
  reach.invariant (fun s => s.pc.fits most) trivial fun _ action _ _ fits _ taken => by
    cases action with
    | signal =>
        cases taken
        exact fits
    | run ok records =>
        rcases Option.ite_none_right_eq_some.mp taken with ⟨few, taken⟩
        exact fits_run fits few taken

/-- The service stops nowhere but at its end. -/
theorem exited_of_stuck {s : State} (stuck : ∀ ok, s.run ok 0 = none) :
    ∃ status, s.pc = .exited status := by
  rcases s with ⟨pc, table, attached, running, path, kept⟩
  cases pc with
  | exited status => exact ⟨status, rfl⟩
  | readRecord left => cases left <;> exact absurd (stuck true) nofun
  | sendRecord left => cases left <;> exact absurd (stuck true) nofun
  | _ => exact absurd (stuck true) nofun

/-- No socket is held at the end. -/
theorem Sound.vacant {s : State} (sound : Sound s) {status : Nat} (ended : s.pc = .exited status)
    (slot : Slot) : s.holds slot = false := by
  have agrees := sound.agrees
  rw [ended] at agrees
  cases slot with
  | outListen => simp [ended]
  | outConn => simpa [Pc.agrees] using agrees
  | inFd => simp [ended]

/-- Every call is on an open socket and none is closed twice, whatever fails and whenever
the signal comes.  At the end all sockets are closed, and a service that could start has
removed its path, unless that `unlink` failed.  Behind a signal the service makes few more
calls, where a frame counts with its records. -/
theorem service_sockets {most : Nat} {path : Bool} {s : State}
    (reach : (service most path).Reachable s) :
    (∀ slot, s.uses = some slot → ∃ handle,
      s.table.slots slot = some handle ∧ s.table.Live handle) ∧
    s.table.destroyed.Nodup ∧
    (∀ handle, s.table.Live handle → ∃ slot,
      s.holds slot = true ∧ s.table.slots slot = some handle) ∧
    (∀ status, s.pc = .exited status →
      (∀ handle < s.table.created, s.table.destroyed.count (some handle) = 1) ∧
      (status = 0 → s.path = s.kept)) ∧
    (s.running = false → ∀ schedule later,
      (service most path).replay System.unrestricted s schedule = some later →
      schedule.countP Action.isRun ≤ 14 + 2 * most ∧
      ((∀ ok, later.run ok 0 = none) → ∃ status, later.pc = .exited status)) := by
  have sound := sound_of_reachable reach
  refine ⟨fun slot used => sound.owned slot (sound.holds_uses used), sound.nodup,
    sound.accounted, fun status ended => ⟨fun handle created => ?_, fun success => ?_⟩,
    fun told schedule later run => ⟨?_, exited_of_stuck⟩⟩
  · exact Table.count_destroyed sound.accounted (sound.vacant ended) sound.nodup created
  · subst success
    have placed := sound.placed
    rwa [State.placed, ended] at placed
  · have bound := ((stopping most path).countP_add_rank_le told run).1
    have atMost := left_le (fits_of_reachable reach)
    exact Nat.le_of_add_right_le (Nat.le_trans bound atMost)

/-- A refused connection, a frame that ends inside its records, a consumer that leaves at
its first record, a second one, and then the signal. -/
def consumers : List Action :=
  [List.replicate 9 (.run true 0), [.run false 0], List.replicate 6 (.run true 0),
    [.run true 2, .run true 0, .run false 0], List.replicate 2 (.run true 0), [.run true 1],
    [.run false 0], List.replicate 5 (.run true 0), List.replicate 4 (.run true 0), [.signal],
    List.replicate 6 (.run true 0)].flatten

theorem service_sockets_consumers : ∃ s, (service 2 false).Reachable s ∧ s.pc = .exited 0 ∧
    s.table.created = 5 ∧ s.path = false ∧
    ∀ handle < 5, s.table.destroyed.count (some handle) = 1 := by
  have run := (service 2 false).reaches_of_replay System.unrestricted consumers
    (fun s => s.pc == .exited 0 && s.table.created == 5 && !s.kept) (by decide)
  rcases run with ⟨s, reach, test⟩
  simp only [Bool.and_eq_true, beq_iff_eq, Bool.not_eq_true'] at test
  have ⟨⟨ended, created⟩, removed⟩ := test
  have ⟨closed, gone⟩ := (service_sockets reach).2.2.2.1 0 ended
  exact ⟨s, reach, ended, created, (gone rfl).trans removed, created ▸ closed⟩

end KhadasYolo.Ipc.ServiceSockets
