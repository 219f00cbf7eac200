import Mathlib.Data.List.Nodup
import Mathlib.Logic.Function.Basic

/-!
# Tables of handles

A program keeps the handles that a library gave it in a table of slots.  Every
successful creation returns a fresh handle; destroying is a call on the content
of a slot, whatever that content is.  Whether every handle is destroyed exactly
once then depends on which slots the program takes to be filled, a set that the
program's control state determines.  The lemmas say how creating into a vacant
slot and destroying from a held one change what the table owns.
-/

namespace HandleTable

universe u

/-- Slots with their contents, the number of handles created so far, and the
arguments of all destroy calls, oldest first. -/
structure Table (Slot : Type u) where
  slots : Slot → Option Nat
  created : Nat
  destroyed : List (Option Nat)

namespace Table

variable {Slot : Type u} (table : Table Slot)

/-- A handle is live from its creation to the first destroy call on it. -/
def Live (handle : Nat) : Prop :=
  handle < table.created ∧ some handle ∉ table.destroyed

/-- A successful creation into `slot`. -/
def create [DecidableEq Slot] (slot : Slot) : Table Slot where
  slots := Function.update table.slots slot (some table.created)
  created := table.created + 1
  destroyed := table.destroyed

/-- A destroy call on the content of `slot`. -/
def destroy (slot : Slot) : Table Slot where
  slots := table.slots
  created := table.created
  destroyed := table.destroyed ++ [table.slots slot]

/-- No slot and no destroy call mentions a handle that does not exist yet. -/
structure Valid : Prop where
  slots : ∀ slot handle, table.slots slot = some handle → handle < table.created
  destroyed : ∀ handle, some handle ∈ table.destroyed → handle < table.created

/-- Every live handle is in a held slot. -/
def Accounted (held : Slot → Bool) : Prop :=
  ∀ handle, table.Live handle →
    ∃ slot, held slot = true ∧ table.slots slot = some handle

/-- Every held slot has a live handle. -/
def Owned (held : Slot → Bool) : Prop :=
  ∀ slot, held slot = true →
    ∃ handle, table.slots slot = some handle ∧ table.Live handle

/-- No two held slots share a handle. -/
def Distinct (held : Slot → Bool) : Prop :=
  ∀ slot other, held slot = true → held other = true →
    table.slots slot = table.slots other → slot = other

variable {table} {held held' : Slot → Bool} {slot : Slot} {handle : Nat}

/-! ## Creation -/

section Creation

variable [DecidableEq Slot]

@[simp] theorem slots_create_self :
    (table.create slot).slots slot = some table.created :=
  Function.update_self ..

theorem slots_create_of_ne {other : Slot} (elsewhere : other ≠ slot) :
    (table.create slot).slots other = table.slots other :=
  Function.update_of_ne elsewhere ..

theorem live_create (valid : table.Valid) :
    (table.create slot).Live handle ↔
      table.Live handle ∨ handle = table.created := by
  simp only [Live, create]
  constructor
  · rintro ⟨exists_, kept⟩
    rcases Nat.lt_succ_iff_lt_or_eq.mp exists_ with old | new
    · exact Or.inl ⟨old, kept⟩
    · exact Or.inr new
  · rintro (⟨old, kept⟩ | rfl)
    · exact ⟨Nat.lt_succ_of_lt old, kept⟩
    · refine ⟨Nat.lt_succ_self _, fun gone => ?_⟩
      exact absurd (valid.destroyed _ gone) (Nat.lt_irrefl _)

theorem Valid.create (valid : table.Valid) (slot : Slot) :
    (table.create slot).Valid where
  slots other handle stored := by
    by_cases same : other = slot
    · subst same
      rw [slots_create_self, Option.some.injEq] at stored
      exact stored ▸ Nat.lt_succ_self _
    · rw [slots_create_of_ne same] at stored
      exact Nat.lt_succ_of_lt (valid.slots _ _ stored)
  destroyed handle gone := Nat.lt_succ_of_lt (valid.destroyed _ gone)

/-- Creating into a vacant slot accounts for the new handle and loses none. -/
theorem Accounted.create (valid : table.Valid) (accounted : table.Accounted held)
    (vacant : held slot = false)
    (filled : ∀ other, held' other = (held other || decide (other = slot))) :
    (table.create slot).Accounted held' := by
  intro handle live
  rcases (live_create valid).mp live with old | rfl
  · rcases accounted handle old with ⟨owner, taken, stored⟩
    have elsewhere : owner ≠ slot := by
      rintro rfl
      simp [vacant] at taken
    exact ⟨owner, by simp [filled, taken],
      (slots_create_of_ne elsewhere).trans stored⟩
  · exact ⟨slot, by simp [filled], slots_create_self⟩

theorem Owned.create (valid : table.Valid) (owned : table.Owned held)
    (filled : ∀ other, held' other = (held other || decide (other = slot))) :
    (table.create slot).Owned held' := by
  intro other taken
  by_cases same : other = slot
  · subst same
    exact ⟨table.created, slots_create_self,
      (live_create valid).mpr (Or.inr rfl)⟩
  · rcases owned other (by simpa [filled, same] using taken) with ⟨handle, stored, live⟩
    exact ⟨handle, (slots_create_of_ne same).trans stored,
      (live_create valid).mpr (Or.inl live)⟩

theorem Distinct.create (valid : table.Valid) (distinct : table.Distinct held)
    (filled : ∀ other, held' other = (held other || decide (other = slot))) :
    (table.create slot).Distinct held' := by
  have fresh : ∀ other, table.slots other ≠ some table.created := fun other stored =>
    absurd (valid.slots _ _ stored) (Nat.lt_irrefl _)
  intro left right leftHeld rightHeld same
  by_cases leftNew : left = slot <;> by_cases rightNew : right = slot
  · rw [leftNew, rightNew]
  · rw [leftNew, slots_create_self, slots_create_of_ne rightNew] at same
    exact absurd same.symm (fresh right)
  · rw [rightNew, slots_create_self, slots_create_of_ne leftNew] at same
    exact absurd same (fresh left)
  · rw [slots_create_of_ne leftNew, slots_create_of_ne rightNew] at same
    exact distinct left right (by simpa [filled, leftNew] using leftHeld)
      (by simpa [filled, rightNew] using rightHeld) same

end Creation

/-! ## Destruction -/

theorem live_destroy :
    (table.destroy slot).Live handle ↔
      table.Live handle ∧ table.slots slot ≠ some handle := by
  simp only [Live, destroy, List.mem_append, List.mem_singleton, not_or, and_assoc]
  exact and_congr_right' (and_congr_right' ⟨Ne.symm, Ne.symm⟩)

theorem Valid.destroy (valid : table.Valid) (slot : Slot) :
    (table.destroy slot).Valid where
  slots := valid.slots
  destroyed handle gone := by
    simp only [Table.destroy, List.mem_append, List.mem_singleton] at gone
    exact gone.elim (valid.destroyed _) fun stored => valid.slots _ _ stored.symm

theorem Accounted.destroy [DecidableEq Slot]
    (accounted : table.Accounted held)
    (vacated : ∀ other, held' other = (held other && decide (other ≠ slot))) :
    (table.destroy slot).Accounted held' := by
  intro handle live
  rcases live_destroy.mp live with ⟨before, kept⟩
  rcases accounted handle before with ⟨owner, taken, stored⟩
  have elsewhere : owner ≠ slot := by
    rintro rfl
    exact kept stored
  exact ⟨owner, by simp [vacated, taken, elsewhere], stored⟩

/-- Destroying from a held slot leaves the other held slots alone. -/
theorem Owned.destroy [DecidableEq Slot] (owned : table.Owned held)
    (distinct : table.Distinct held) (taken : held slot = true)
    (vacated : ∀ other, held' other = (held other && decide (other ≠ slot))) :
    (table.destroy slot).Owned held' := by
  intro other otherTaken
  simp only [vacated, Bool.and_eq_true, decide_eq_true_eq] at otherTaken
  rcases owned other otherTaken.1 with ⟨handle, stored, live⟩
  refine ⟨handle, stored, live_destroy.mpr ⟨live, fun shared => ?_⟩⟩
  exact otherTaken.2 (distinct other slot otherTaken.1 taken (stored.trans shared.symm))

theorem Distinct.destroy [DecidableEq Slot]
    (distinct : table.Distinct held)
    (vacated : ∀ other, held' other = (held other && decide (other ≠ slot))) :
    (table.destroy slot).Distinct held' := by
  intro left right leftHeld rightHeld
  simp only [vacated, Bool.and_eq_true] at leftHeld rightHeld
  exact distinct left right leftHeld.1 rightHeld.1

/-- A destroy call on a live handle repeats no earlier one. -/
theorem nodup_destroy (nodup : table.destroyed.Nodup)
    (stored : table.slots slot = some handle) (live : table.Live handle) :
    (table.destroy slot).destroyed.Nodup := by
  simp only [Table.destroy, stored]
  exact List.Nodup.append nodup (List.nodup_singleton _)
    (List.disjoint_singleton.mpr live.2)

/-! ## At the end of a run -/

/-- Once no slot is held, every handle has been destroyed. -/
theorem Accounted.none_live (accounted : table.Accounted held)
    (vacant : ∀ slot, held slot = false) (handle : Nat) : ¬table.Live handle := by
  intro live
  rcases accounted handle live with ⟨slot, taken, _⟩
  simp [vacant slot] at taken

theorem count_destroyed (accounted : table.Accounted held)
    (vacant : ∀ slot, held slot = false) (nodup : table.destroyed.Nodup)
    (exists_ : handle < table.created) :
    table.destroyed.count (some handle) = 1 := by
  have gone : some handle ∈ table.destroyed := by
    by_contra kept
    exact accounted.none_live vacant handle ⟨exists_, kept⟩
  exact List.count_eq_one_of_mem nodup gone

end Table

end HandleTable
