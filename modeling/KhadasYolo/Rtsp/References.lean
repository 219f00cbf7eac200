import KhadasYolo.Rtsp.Stream
import Mathlib.Algebra.GroupWithZero.Nat

/-!
# References to the source element

Every reference to an element belongs to its media, to `g_appsrc` or to a call.  A step
moves references between them, so none is used behind its end, and what the calls leave
behind can be read off the history of `g_appsrc`.
-/

namespace KhadasYolo.Rtsp

open TransitionSystem

/-! ## One step of a call -/

/-- `g_appsrc` has a reference of its own to the element. -/
def Shared.keeps (s : Shared) (stale : Bool) (element : Nat) : Nat :=
  if s.appsrc = some element ∧ stale = false then 1 else 0

/-- A call can use what it has and what it finds. -/
structure Pc.Held (pc : Pc) (s : Shared) : Prop where
  owned : ∀ element, pc.owns element = true → 0 < s.refs element
  kept : pc.inside = true → pc.stale = false → ∀ element, s.appsrc = some element →
    0 < s.refs element
  copied : ∀ copy, pc = .pushRef copy → copy = s.appsrc

namespace Shared

variable {s : Shared} {element : Nat}

theorem touch_eq (held : 0 < s.refs element) : s.touch element = s := by
  rw [touch, beq_false_of_ne (Nat.ne_of_gt held), Bool.or_false]

theorem ref_refs (s : Shared) (element other : Nat) :
    (s.ref element).refs other = s.refs other + (element == other).toNat := by
  by_cases same : element = other
  · subst same
    simp [ref]
  · simp [ref, same, Function.update_of_ne (Ne.symm same)]

theorem unref_refs (held : 0 < s.refs element) (other : Nat) :
    (s.unref element).refs other + (element == other).toNat = s.refs other := by
  by_cases same : element = other
  · subst same
    simp [unref]
    omega
  · simp [unref, same, Function.update_of_ne (Ne.symm same)]

theorem ref_faulted (held : 0 < s.refs element) : (s.ref element).faulted = s.faulted := by
  rw [ref, touch_eq held]

theorem unref_faulted (held : 0 < s.refs element) : (s.unref element).faulted = s.faulted := by
  rw [unref, touch_eq held]

end Shared

section Next

variable {pc : Pc} {s : Shared}

/-- No call uses an element that has gone. -/
theorem Pc.Held.unfaulted (held : pc.Held s) : (pc.next s).2.faulted = s.faulted := by
  cases pc with
  | pushRef copy =>
      cases copy with
      | none => rfl
      | some x => exact Shared.ref_faulted (held.kept rfl rfl x (held.copied _ rfl).symm)
  | pushUnlock copy => cases copy <;> rfl
  | pushEmit x => exact congrArg _ (Shared.touch_eq (held.owned x (beq_self_eq_true x)))
  | pushUnref x => exact Shared.unref_faulted (held.owned x (beq_self_eq_true x))
  | configureSet x => exact congrArg _ (Shared.touch_eq (held.owned x (beq_self_eq_true x)))
  | configureRelease x =>
      rw [Pc.next, Shared.unrefAppsrc]
      split
      next => rfl
      next old found => exact Shared.unref_faulted (held.kept rfl rfl old found)
  | deinitFlush =>
      rw [Pc.next]
      split
      next => rfl
      next old found => exact congrArg _ (Shared.touch_eq (held.kept rfl rfl old found))
  | deinitRelease =>
      rw [Pc.next, Shared.unrefAppsrc]
      split
      next => rfl
      next old found => exact Shared.unref_faulted (held.kept rfl rfl old found)
  | deinitQuit =>
      rw [Pc.next]
      split <;> rfl
  | _ => rfl

theorem Shared.unrefAppsrc_refs (held : ∀ x, s.appsrc = some x → 0 < s.refs x)
    (element : Nat) : s.unrefAppsrc.refs element + s.keeps false element = s.refs element := by
  rw [unrefAppsrc, keeps]
  split
  next none => simp [none]
  next old found =>
    rw [← unref_refs (held old found) element, found]
    by_cases same : old = element <;> simp [same]

/-- The references to an element move between the calls and `g_appsrc`. -/
theorem Pc.Held.balanced (held : pc.Held s) (element : Nat) :
    (pc.next s).2.refs element + s.keeps pc.stale element + (pc.owns element).toNat =
      s.refs element + (pc.next s).2.keeps (pc.next s).1.stale element +
        ((pc.next s).1.owns element).toNat := by
  cases pc with
  | pushRef copy =>
      cases copy with
      | none => rfl
      | some x =>
          have more := s.ref_refs x element
          simp only [Pc.next, Pc.owns, Bool.toNat_false]
          have same : (s.ref x).keeps false element = s.keeps false element := rfl
          change _ + s.keeps false element + 0 = _ + (s.ref x).keeps false element + _
          omega
  | pushUnlock copy => cases copy <;> rfl
  | pushEmit x =>
      rw [Pc.next, Shared.touch_eq (held.owned x (beq_self_eq_true x))]
      rfl
  | pushUnref x =>
      have fewer := Shared.unref_refs (held.owned x (beq_self_eq_true x)) element
      change (s.unref x).refs element + s.keeps false element + (x == element).toNat =
        s.refs element + s.keeps false element + 0
      omega
  | configureSet x =>
      rw [Pc.next, Shared.touch_eq (held.owned x (beq_self_eq_true x))]
      rfl
  | configureRelease x =>
      have fewer := Shared.unrefAppsrc_refs (held.kept rfl rfl) element
      change s.unrefAppsrc.refs element + s.keeps false element + (x == element).toNat =
        s.refs element + s.unrefAppsrc.keeps true element + (x == element).toNat
      rw [fewer, Shared.keeps, if_neg (by simp), Nat.add_zero]
  | configureStore x =>
      by_cases same : x = element <;> simp [Pc.next, Shared.keeps, Pc.stale, Pc.owns, same]
  | deinitFlush =>
      rw [Pc.next]
      split
      next => rfl
      next old found =>
        rw [Shared.touch_eq (held.kept rfl rfl old found)]
        rfl
  | deinitRelease =>
      have fewer := Shared.unrefAppsrc_refs (held.kept rfl rfl) element
      change s.unrefAppsrc.refs element + s.keeps false element + 0 =
        s.refs element + s.unrefAppsrc.keeps true element + 0
      rw [fewer, Shared.keeps, if_neg (by simp), Nat.add_zero]
  | deinitClear =>
      simp [Pc.next, Shared.keeps, Pc.stale, Pc.owns]
  | deinitQuit =>
      rw [Pc.next]
      split <;> rfl
  | _ => rfl

end Next

/-! ## The reference counts -/

/-- `g_appsrc` is about to be replaced, by the call inside. -/
def State.stale (s : State) : Bool :=
  (s.mutex.bind (s.calls[·]?)).any Pc.stale

/-- The references to every element: the media, `g_appsrc` and the calls. -/
def Balanced (s : State) : Prop :=
  ∀ element, s.shared.refs element =
    s.medias.count element + s.shared.keeps s.stale element +
      s.calls.countP (Pc.owns element)

/-- What holds in every state. -/
structure Sound (s : State) : Prop where
  exclusive : Exclusive s
  balanced : Balanced s
  unfaulted : s.shared.faulted = false
  fresh : ∀ element, s.made ≤ element → s.shared.refs element = 0
  copied : ∀ (call : Nat) copy, s.calls[call]? = some (.pushRef copy) → copy = s.shared.appsrc
  appsrc : s.shared.appsrc = current s.shared.history
  pushed : ∀ copy older, (Event.pushed copy :: older) <:+ s.shared.history →
    copy = current older

theorem Sound.start : Sound stream.init where
  exclusive _ := ⟨nofun, fun ⟨_, found, _⟩ => nomatch found⟩
  balanced _ := rfl
  unfaulted := rfl
  fresh _ _ := rfl
  copied _ _ := nofun
  appsrc := rfl
  pushed _ _ suffix := nomatch List.suffix_nil.mp suffix

/-- One call goes on. -/
theorem countP_next {calls : List Pc} {call : Nat} {pc : Pc} (found : calls[call]? = some pc)
    (next : Pc) (p : Pc → Bool) :
    (calls.set call next).countP p + (p pc).toNat = calls.countP p + (p next).toNat := by
  rcases List.getElem?_eq_some_iff.mp found with ⟨inRange, rfl⟩
  have counted : p calls[call] = true → 0 < calls.countP p := fun this =>
    List.countP_pos_iff.mpr ⟨_, List.getElem_mem inRange, this⟩
  rw [List.countP_set inRange]
  cases there : p calls[call] with
  | false => cases p next <;> rfl
  | true =>
      have positive := counted there
      cases p next <;> simp <;> omega

section Calls

theorem Pc.inside_of_stale {pc : Pc} (stale : pc.stale = true) : pc.inside = true := by
  cases pc <;> first | rfl | contradiction

/-- The calls outside leave `g_appsrc` alone. -/
theorem Pc.next_outside {s : Shared} {pc : Pc} (outside : pc.inside = false) :
    (pc.next s).2.appsrc = s.appsrc ∧ (pc.next s).1.stale = false ∧ pc.stale = false := by
  cases pc with
  | deinitQuit =>
      rw [Pc.next]
      split <;> exact ⟨rfl, rfl, rfl⟩
  | _ => first | exact ⟨rfl, rfl, rfl⟩ | contradiction

theorem Exclusive.stale_of_inside {s : State} {call : Nat} {pc : Pc} (exclusive : Exclusive s)
    (found : s.calls[call]? = some pc) (inside : pc.inside = true) : s.stale = pc.stale := by
  rw [State.stale, (exclusive.inside_iff found).mpr inside, Option.bind_some, found]
  rfl

theorem State.stale_of_free {s : State} (free : s.mutex = none) : s.stale = false := by
  rw [State.stale, free]
  rfl

variable {s : State} {call : Nat} {pc : Pc} (sound : Sound s)
  (found : s.calls[call]? = some pc) (free : pc.locks = true → s.mutex = none)

include sound found in
theorem Sound.held : pc.Held s.shared where
  owned element owns := by
    have member := List.countP_pos_iff.mpr ⟨pc, List.mem_of_getElem? found, owns⟩
    rw [sound.balanced element]
    exact Nat.add_pos_right _ member
  kept inside fixed element points := by
    have one : s.shared.keeps s.stale element = 1 := by
      rw [sound.exclusive.stale_of_inside found inside, fixed]
      exact if_pos ⟨points, rfl⟩
    rw [sound.balanced element, one]
    omega
  copied copy same := sound.copied call copy (same ▸ found)

include sound found free in
/-- Whether `g_appsrc` is stale changes with the call that goes on, if at all. -/
theorem Sound.stale_advance :
    (s.stale = pc.stale ∧ (s.advance call pc).stale = (pc.next s.shared).1.stale) ∨
      (pc.inside = false ∧ (s.advance call pc).stale = s.stale) := by
  have after := sound.exclusive.advance found free
  have place : (s.advance call pc).calls[call]? = some (pc.next s.shared).1 :=
    List.getElem?_set_self (List.getElem?_eq_some_iff.mp found).1
  have next := Pc.inside_next s.shared pc
  cases inside : pc.inside with
  | true =>
      refine .inl ⟨sound.exclusive.stale_of_inside found inside, ?_⟩
      cases later : (pc.next s.shared).1.inside with
      | true => exact after.stale_of_inside place later
      | false =>
          have unlocks : pc.locks = false ∧ pc.unlocks = true := by
            simpa [inside, later] using next.symm
          have open_ : (s.advance call pc).mutex = none := by
            rw [State.advance, unlocks.1, unlocks.2]
            rfl
          rw [State.stale_of_free open_]
          cases stale : (pc.next s.shared).1.stale with
          | false => rfl
          | true => exact absurd (later.symm.trans (Pc.inside_of_stale stale)) nofun
  | false =>
      cases locks : pc.locks with
      | true =>
          rw [locks, Bool.true_or] at next
          refine .inl ⟨?_, after.stale_of_inside place next⟩
          rw [State.stale_of_free (free locks), (Pc.next_outside (s := s.shared) inside).2.2]
      | false =>
          refine .inr ⟨rfl, ?_⟩
          have unlocks : pc.unlocks = false := by
            cases unlocks : pc.unlocks with
            | false => rfl
            | true => exact absurd (inside.symm.trans (Pc.inside_of_unlocks unlocks)) nofun
          have mutex : (s.advance call pc).mutex = s.mutex := by
            rw [State.advance, locks, unlocks]
            rfl
          rw [State.stale, State.stale, mutex]
          cases holder : s.mutex with
          | none => rfl
          | some other =>
              have apart : call ≠ other := by
                rintro rfl
                exact absurd (inside.symm.trans ((sound.exclusive.inside_iff found).mp holder))
                  nofun
              rw [Option.bind_some, Option.bind_some, State.advance, List.getElem?_set_ne apart]

include sound found free in
theorem Sound.balanced_advance : Balanced (s.advance call pc) := by
  intro element
  have moved := (sound.held found).balanced element
  have counted := countP_next found (pc.next s.shared).1 (Pc.owns element)
  have before := sound.balanced element
  change (pc.next s.shared).2.refs element = s.medias.count element +
    (pc.next s.shared).2.keeps (s.advance call pc).stale element +
      (s.calls.set call (pc.next s.shared).1).countP (Pc.owns element)
  rcases sound.stale_advance found free with ⟨own, later⟩ | ⟨outside, same⟩
  · rw [later]
    rw [own] at before
    omega
  · rcases Pc.next_outside (s := s.shared) outside with ⟨field, late, early⟩
    rw [same]
    have kept (stale : Bool) : (pc.next s.shared).2.keeps stale element =
        s.shared.keeps stale element := by
      rw [Shared.keeps, Shared.keeps, field]
    rw [late, early, kept] at moved
    rw [kept]
    omega

/-- An element that nobody has a reference to keeps none. -/
theorem Pc.Held.gone {pc : Pc} {s : Shared} (held : pc.Held s) {element : Nat}
    (gone : s.refs element = 0) : (pc.next s).2.refs element = 0 := by
  have other {x : Nat} (positive : 0 < s.refs x) : element ≠ x := by
    rintro rfl
    exact absurd positive (by omega)
  have cleared (points : ∀ x, s.appsrc = some x → 0 < s.refs x) :
      s.unrefAppsrc.refs element = 0 := by
    rw [Shared.unrefAppsrc]
    split
    next => exact gone
    next old found =>
      exact (Function.update_of_ne (other (points old found)) _ _).trans gone
  cases pc with
  | pushRef copy =>
      cases copy with
      | none => exact gone
      | some x =>
          have positive := held.kept rfl rfl x (held.copied _ rfl).symm
          exact (Function.update_of_ne (other positive) _ _).trans gone
  | pushUnlock copy => cases copy <;> exact gone
  | pushUnref x =>
      have positive := held.owned x (beq_self_eq_true x)
      exact (Function.update_of_ne (other positive) _ _).trans gone
  | configureRelease x => exact cleared (held.kept rfl rfl)
  | deinitRelease => exact cleared (held.kept rfl rfl)
  | deinitFlush =>
      rw [Pc.next]
      split <;> exact gone
  | deinitQuit =>
      rw [Pc.next]
      split <;> exact gone
  | _ => exact gone

/-- What a step writes into the history. -/
theorem Pc.next_recorded (s : Shared) (pc : Pc) :
    ((pc.next s).2.history = s.history ∧ (pc.next s).2.appsrc = s.appsrc) ∨
      ((pc.next s).2.history = .pushed s.appsrc :: s.history ∧
        (pc.next s).2.appsrc = s.appsrc) ∨
      (∃ x, (pc.next s).2.history = .stored x :: s.history ∧
        (pc.next s).2.appsrc = some x) ∨
      ((pc.next s).2.history = .released :: s.history ∧ (pc.next s).2.appsrc = none) := by
  have unref : s.unrefAppsrc.history = s.history ∧ s.unrefAppsrc.appsrc = s.appsrc := by
    rw [Shared.unrefAppsrc]
    split <;> exact ⟨rfl, rfl⟩
  cases pc with
  | pushRead => exact .inr (.inl ⟨rfl, rfl⟩)
  | pushRef copy => cases copy <;> exact .inl ⟨rfl, rfl⟩
  | pushUnlock copy => cases copy <;> exact .inl ⟨rfl, rfl⟩
  | configureRelease x => exact .inl unref
  | configureStore x => exact .inr (.inr (.inl ⟨x, rfl, rfl⟩))
  | deinitFlush =>
      rw [Pc.next]
      split <;> exact .inl ⟨rfl, rfl⟩
  | deinitRelease => exact .inl unref
  | deinitClear => exact .inr (.inr (.inr ⟨rfl, rfl⟩))
  | deinitQuit =>
      rw [Pc.next]
      split <;> exact .inl ⟨rfl, rfl⟩
  | _ => exact .inl ⟨rfl, rfl⟩

/-- Only the read of `g_appsrc` leads to its copy. -/
theorem Pc.next_copied {s : Shared} {pc : Pc} {copy : Option Nat}
    (copied : (pc.next s).1 = .pushRef copy) :
    copy = s.appsrc ∧ (pc.next s).2.appsrc = s.appsrc := by
  cases pc with
  | pushRead =>
      cases copied
      exact ⟨rfl, rfl⟩
  | pushRef copy => cases copy <;> contradiction
  | pushUnlock copy => cases copy <;> contradiction
  | deinitFlush =>
      rw [Pc.next] at copied
      split at copied <;> contradiction
  | deinitQuit =>
      rw [Pc.next] at copied
      split at copied <;> contradiction
  | _ => contradiction

include sound found free in
theorem Sound.advance : Sound (s.advance call pc) where
  exclusive := sound.exclusive.advance found free
  balanced := sound.balanced_advance found free
  unfaulted := (sound.held found).unfaulted.trans sound.unfaulted
  fresh element new := (sound.held found).gone (sound.fresh element new)
  copied other copy place := by
    by_cases same : call = other
    · subst same
      rw [State.advance, List.getElem?_set_self (List.getElem?_eq_some_iff.mp found).1] at place
      rcases Pc.next_copied (Option.some.inj place) with ⟨read, kept⟩
      exact read.trans kept.symm
    · rw [State.advance, List.getElem?_set_ne same] at place
      have holder := (sound.exclusive.inside_iff place).mpr rfl
      have outside : pc.inside = false := by
        cases inside : pc.inside with
        | false => rfl
        | true =>
            have this := (sound.exclusive.inside_iff found).mpr inside
            exact absurd (Option.some.inj (this.symm.trans holder)) same
      exact (sound.copied other copy place).trans (Pc.next_outside outside).1.symm
  appsrc := by
    have before := sound.appsrc
    change (pc.next s.shared).2.appsrc = current (pc.next s.shared).2.history
    rcases Pc.next_recorded s.shared pc with
      ⟨same, field⟩ | ⟨read, field⟩ | ⟨x, stored, field⟩ | ⟨released, field⟩
    · rw [same, field, before]
    · rw [read, field, before]
      rfl
    · rw [stored, field]
      rfl
    · rw [released, field]
      rfl
  pushed copy older suffix := by
    have before := sound.pushed copy older
    change _ <:+ (pc.next s.shared).2.history at suffix
    rcases Pc.next_recorded s.shared pc with
      ⟨same, _⟩ | ⟨read, _⟩ | ⟨x, stored, _⟩ | ⟨released, _⟩
    · exact before (same ▸ suffix)
    · rw [read, List.suffix_cons_iff] at suffix
      rcases suffix with now | earlier
      · cases now
        exact sound.appsrc
      · exact before earlier
    · rw [stored, List.suffix_cons_iff] at suffix
      exact before (suffix.resolve_left nofun)
    · rw [released, List.suffix_cons_iff] at suffix
      exact before (suffix.resolve_left nofun)

end Calls

/-! ## The other steps -/

section Steps

variable {s after : State}

/-- A new call has not changed the call inside. -/
theorem Exclusive.stale_append (exclusive : Exclusive s) {pc : Pc}
    (calls : after.calls = s.calls ++ [pc]) (mutex : after.mutex = s.mutex) :
    after.stale = s.stale := by
  rw [State.stale, State.stale, mutex]
  cases holder : s.mutex with
  | none => rfl
  | some call =>
      rcases (exclusive call).mp holder with ⟨_, found, _⟩
      rw [Option.bind_some, Option.bind_some, calls,
        List.getElem?_append_left (List.getElem?_eq_some_iff.mp found).1]

/-- A new call has not read `g_appsrc`. -/
theorem Sound.copied_append (sound : Sound s) {pc : Pc} (outside : pc.inside = false)
    (call : Nat) (copy : Option Nat)
    (place : (s.calls ++ [pc])[call]? = some (.pushRef copy)) : copy = s.shared.appsrc := by
  rw [List.getElem?_append] at place
  split at place
  · exact sound.copied call copy place
  · rcases List.mem_singleton.mp (List.mem_of_getElem? place) with rfl
    exact absurd outside nofun

/-- A call begins that has no reference yet. -/
theorem Sound.begin (sound : Sound s) {pc : Pc} (outside : pc.inside = false)
    (empty : ∀ element, pc.owns element = false) :
    Sound { s with calls := s.calls ++ [pc] } where
  exclusive := sound.exclusive.append rfl rfl outside
  balanced element := by
    have same : State.stale { s with calls := s.calls ++ [pc] } = s.stale :=
      sound.exclusive.stale_append rfl rfl
    rw [same, List.countP_append, List.countP_singleton, empty, sound.balanced element]
    rfl
  unfaulted := sound.unfaulted
  fresh := sound.fresh
  copied := sound.copied_append outside
  appsrc := sound.appsrc
  pushed := sound.pushed

/-- The media and the call each have a reference to the new element. -/
theorem Sound.configure (sound : Sound s) : Sound s.configure where
  exclusive := sound.exclusive.append rfl rfl rfl
  balanced element := by
    have balanced := sound.balanced element
    have same : s.configure.stale = s.stale := sound.exclusive.stale_append rfl rfl
    change Function.update s.shared.refs s.made 2 element =
      (s.made :: s.medias).count element + s.shared.keeps s.configure.stale element +
        (s.calls ++ [Pc.configureSet s.made]).countP (Pc.owns element)
    rw [same, List.countP_append, List.countP_singleton, Pc.owns, List.count_cons]
    by_cases new : s.made = element
    · have unused := sound.fresh s.made (Nat.le_refl _)
      rw [← new] at balanced ⊢
      rw [Function.update_self, beq_self_eq_true]
      simp only [if_true]
      omega
    · rw [Function.update_of_ne (Ne.symm new), beq_false_of_ne new]
      simpa using balanced
  unfaulted := sound.unfaulted
  fresh element new := by
    change s.made + 1 ≤ element at new
    exact (Function.update_of_ne (by omega) _ _).trans (sound.fresh element (by omega))
  copied := sound.copied_append rfl
  appsrc := sound.appsrc
  pushed := sound.pushed

/-- The server gives back the reference of a media. -/
theorem Sound.drop (sound : Sound s) {element : Nat} (member : element ∈ s.medias) :
    Sound (s.drop element) := by
  have present := List.count_pos_iff.mpr member
  have balanced := sound.balanced element
  have held : 0 < s.shared.refs element := by omega
  have fewer := Shared.unref_refs held
  constructor
  · exact sound.exclusive
  · intro other
    have before := sound.balanced other
    have less := fewer other
    change (s.shared.unref element).refs other = (s.medias.erase element).count other +
      s.shared.keeps s.stale other + s.calls.countP (Pc.owns other)
    rw [List.count_erase]
    by_cases same : element = other
    · subst same
      rw [beq_self_eq_true, Bool.toNat_true] at less
      rw [beq_self_eq_true, if_pos rfl]
      omega
    · rw [beq_false_of_ne same, Bool.toNat_false] at less
      rw [beq_false_of_ne same, if_neg Bool.false_ne_true]
      omega
  · exact (Shared.unref_faulted held).trans sound.unfaulted
  · intro other new
    have less := fewer other
    rw [sound.fresh other new] at less
    exact Nat.eq_zero_of_add_eq_zero_right less
  · exact sound.copied
  · exact sound.appsrc
  · exact sound.pushed

/-- The main loop has no part in the references. -/
theorem Sound.turn (sound : Sound s) (loop : MainLoop) :
    Sound { s with shared := { s.shared with loop := loop } } where
  exclusive := sound.exclusive
  balanced := sound.balanced
  unfaulted := sound.unfaulted
  fresh := sound.fresh
  copied := sound.copied
  appsrc := sound.appsrc
  pushed := sound.pushed

theorem sound_step {action : Action} (sound : Sound s) (taken : step s action = some after) :
    Sound after := by
  cases action with
  | push =>
      cases taken
      exact sound.begin rfl fun _ => rfl
  | configure =>
      cases taken
      exact sound.configure
  | deinit =>
      rw [step] at taken
      split at taken
      · contradiction
      · cases taken
        exact sound.begin rfl fun _ => rfl
  | drop element =>
      rw [step] at taken
      split at taken
      next member =>
        cases taken
        exact sound.drop member
      · contradiction
  | run call =>
      rcases run_cases taken with ⟨pc, found, _, free, _, rfl⟩
      exact sound.advance found free
  | turn =>
      rcases turn_cases taken with ⟨loop, _, rfl⟩
      exact sound.turn loop

end Steps

theorem reachable_sound {s : State} (reach : stream.Reachable s) : Sound s :=
  reach.invariant Sound .start fun _ _ _ _ sound _ taken => sound_step sound taken

end KhadasYolo.Rtsp
