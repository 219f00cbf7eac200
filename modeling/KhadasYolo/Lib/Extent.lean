import Mathlib.Order.Bounds.Basic
import Mathlib.Order.MinMax

/-!
# Running extrema

A fold that never lowers a measure reaches what each of its steps reaches. A running
minimum or maximum over a list that starts with one of its values is the least or the
greatest of them.
-/

namespace Extent

universe u

variable {α : Type u}

/-- A fold that keeps one of its operands keeps one of the values. -/
theorem foldl_mem {keep : α → α → α}
    (keeps : ∀ held value, keep held value = held ∨ keep held value = value)
    (start : α) (values : List α) : values.foldl keep start ∈ start :: values := by
  induction values generalizing start with
  | nil => exact List.mem_cons_self
  | cons first rest ih =>
      rw [List.foldl_cons]
      rcases List.mem_cons.mp (ih (keep start first)) with same | later
      · rw [same]
        rcases keeps start first with held | new
        · rw [held]
          exact List.mem_cons_self
        · rw [new]
          exact List.mem_cons_of_mem _ List.mem_cons_self
      · exact List.mem_cons_of_mem _ (List.mem_cons_of_mem _ later)

/-! ## Folds that never lower a measure -/

section Measure

variable {State : Type*} {β : Type*} [Preorder β] {measure : State → β}
  {step : State → α → State}

theorem le_foldl (grows : ∀ state value, measure state ≤ measure (step state value))
    (start : State) (values : List α) : measure start ≤ measure (values.foldl step start) := by
  induction values generalizing start with
  | nil => exact le_rfl
  | cons first rest ih => exact (grows start first).trans (ih _)

/-- What one value reaches, the fold reaches. -/
theorem le_foldl_of_mem (grows : ∀ state value, measure state ≤ measure (step state value))
    {bound : β} {value : α} {values : List α} (member : value ∈ values)
    (reaches : ∀ state, bound ≤ measure (step state value)) (start : State) :
    bound ≤ measure (values.foldl step start) := by
  rcases List.append_of_mem member with ⟨before, after, rfl⟩
  rw [List.foldl_append, List.foldl_cons]
  exact (reaches _).trans (le_foldl grows _ after)

end Measure

/-! ## Extrema of values -/

variable [LinearOrder α]

theorem foldl_min_le (start : α) (values : List α) :
    values.foldl min start ≤ start ∧ ∀ value ∈ values, values.foldl min start ≤ value := by
  induction values generalizing start with
  | nil => exact ⟨le_rfl, nofun⟩
  | cons first rest ih =>
      rcases ih (min start first) with ⟨low, others⟩
      rw [List.foldl_cons, List.forall_mem_cons]
      exact ⟨low.trans (min_le_left _ _), low.trans (min_le_right _ _), others⟩

theorem isLeast_foldl_min {start : α} {values : List α} (member : start ∈ values) :
    IsLeast {value | value ∈ values} (values.foldl min start) := by
  constructor
  · rcases List.mem_cons.mp (foldl_mem min_choice start values) with same | found
    · rw [same]
      exact member
    · exact found
  · exact (foldl_min_le start values).2

theorem isGreatest_foldl_max {start : α} {values : List α} (member : start ∈ values) :
    IsGreatest {value | value ∈ values} (values.foldl max start) :=
  @isLeast_foldl_min αᵒᵈ _ start values member

end Extent
