import Mathlib.Data.List.Basic

/-!
# Running maxima

A running maximum replaces the held value only by a strictly larger one. Folded
over a list it is the least upper bound of the start and the list, so a first
part of the list can be left out exactly when the rest already reaches it.
-/

namespace RunningMax

universe u

variable {α : Type u} [LE α] [LT α] [DecidableLT α] [Std.IsLinearOrder α]
  [Std.LawfulOrderLT α]

/-- Keep the held value unless the new one is strictly larger. -/
def larger (held value : α) : α := if value > held then value else held

theorem le_larger_iff {held value bound : α} :
    bound ≤ larger held value ↔ bound ≤ held ∨ bound ≤ value := by
  unfold larger
  split
  next above =>
    constructor
    · exact .inr
    · rintro (low | low)
      · exact Std.le_trans low (Std.le_of_lt above)
      · exact low
  next below =>
    constructor
    · exact .inl
    · rintro (low | low)
      · exact low
      · exact Std.le_trans low (Std.not_lt.mp below)

theorem larger_le_iff {held value bound : α} :
    larger held value ≤ bound ↔ held ≤ bound ∧ value ≤ bound := by
  unfold larger
  split
  next above =>
    exact ⟨fun high => ⟨Std.le_trans (Std.le_of_lt above) high, high⟩, And.right⟩
  next below =>
    exact ⟨fun high => ⟨high, Std.le_trans (Std.not_lt.mp below) high⟩, And.left⟩

theorem le_foldl_larger_iff {start bound : α} {values : List α} :
    bound ≤ values.foldl larger start ↔
      bound ≤ start ∨ ∃ value ∈ values, bound ≤ value := by
  induction values generalizing start with
  | nil => simp
  | cons first rest ih =>
      rw [List.foldl_cons, ih, le_larger_iff, List.exists_mem_cons_iff, or_assoc]

theorem foldl_larger_le_iff {start bound : α} {values : List α} :
    values.foldl larger start ≤ bound ↔
      start ≤ bound ∧ ∀ value ∈ values, value ≤ bound := by
  induction values generalizing start with
  | nil => simp
  | cons first rest ih =>
      rw [List.foldl_cons, ih, larger_le_iff, List.forall_mem_cons, and_assoc]

/-- The first part of a list shows in the running maximum unless each of its
values is reached by the start or by the rest. -/
theorem foldl_larger_eq_append_iff {start : α} {first second : List α} :
    second.foldl larger start = (first ++ second).foldl larger start ↔
      ∀ value ∈ first, value ≤ start ∨ ∃ other ∈ second, value ≤ other := by
  have reached : (first ++ second).foldl larger start ≤ second.foldl larger start ↔
      ∀ value ∈ first, value ≤ start ∨ ∃ other ∈ second, value ≤ other := by
    simp only [foldl_larger_le_iff, List.forall_mem_append, ← le_foldl_larger_iff]
    have own := foldl_larger_le_iff.mp (Std.le_refl (second.foldl larger start))
    exact ⟨fun bound => bound.2.1, fun bound => ⟨own.1, bound, own.2⟩⟩
  have below : second.foldl larger start ≤ (first ++ second).foldl larger start := by
    have own := foldl_larger_le_iff.mp
      (Std.le_refl ((first ++ second).foldl larger start))
    exact foldl_larger_le_iff.mpr
      ⟨own.1, fun value member => own.2 value (List.mem_append_right first member)⟩
  rw [← reached]
  constructor
  · intro same
    rw [← same]
    exact Std.le_refl _
  · exact Std.le_antisymm below

end RunningMax
