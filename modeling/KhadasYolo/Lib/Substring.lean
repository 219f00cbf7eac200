import Mathlib.Data.List.Basic

/-!
# The first occurrence of a pattern

A search in a text that is put together from pieces goes from piece to piece. A piece in
which no occurrence begins is passed over, and what follows the first occurrence does not
depend on the pieces before it.
-/

namespace Substring

universe u

variable {α : Type u} [DecidableEq α]

/-- The position of the first occurrence of the pattern. -/
def find (pattern : List α) : List α → Option Nat
  | [] => if pattern <+: [] then some 0 else none
  | first :: rest =>
      if pattern <+: first :: rest then some 0 else (find pattern rest).map (· + 1)

/-- The text after the first occurrence. -/
def following (pattern text : List α) : Option (List α) :=
  (find pattern text).map fun position => text.drop (position + pattern.length)

/-- No occurrence begins in the piece before the rest. -/
def Clear (pattern piece rest : List α) : Prop :=
  ∀ later, later ≠ [] → later <:+ piece → ¬ pattern <+: later ++ rest

variable {pattern text piece rest : List α} {first : α}

theorem find_append (pattern rest : List α) : find pattern (pattern ++ rest) = some 0 := by
  cases whole : pattern ++ rest with
  | nil =>
      rw [List.append_eq_nil_iff] at whole
      rw [whole.1]
      rfl
  | cons first more =>
      rw [find, if_pos (whole ▸ List.prefix_append pattern rest)]

theorem following_append (pattern rest : List α) :
    following pattern (pattern ++ rest) = some rest := by
  rw [following, find_append, Option.map_some, Nat.zero_add, List.drop_left]

theorem following_nil (some : pattern ≠ []) : following pattern [] = none := by
  have absent : ¬ pattern <+: [] := fun initial => some (List.prefix_nil.mp initial)
  rw [following, find, if_neg absent, Option.map_none]

theorem following_cons (absent : ¬ pattern <+: first :: rest) :
    following pattern (first :: rest) = following pattern rest := by
  rw [following, find, if_neg absent, Option.map_map, following]
  apply congrArg (Option.map · (find pattern rest))
  funext position
  rw [Function.comp_apply, Nat.add_right_comm, List.drop_succ_cons]

/-- A search passes over a clear piece. -/
theorem following_clear (clear : Clear pattern piece rest) :
    following pattern (piece ++ rest) = following pattern rest := by
  induction piece with
  | nil => rfl
  | cons first piece ih =>
      rw [List.cons_append, following_cons]
      · apply ih
        intro later some ending
        exact clear later some (ending.trans (List.suffix_cons first piece))
      · exact clear _ (List.cons_ne_nil first piece) List.suffix_rfl

/-- A search stops at an occurrence behind a clear piece. -/
theorem following_first (clear : Clear pattern piece (pattern ++ rest)) :
    following pattern (piece ++ (pattern ++ rest)) = some rest := by
  rw [following_clear clear, following_append]

theorem isSome_find_iff : (find pattern text).isSome = (following pattern text).isSome :=
  (Option.isSome_map).symm

/-! ## Pieces -/

omit [DecidableEq α] in
/-- A pattern does not begin where its first element is not. -/
theorem clear_of_not_mem {more : List α} (absent : first ∉ piece) :
    Clear (first :: more) piece rest := by
  intro later some ending initial
  cases later with
  | nil => exact some rfl
  | cons begin later =>
      rw [List.cons_append, List.cons_prefix_cons] at initial
      apply absent
      rw [initial.1]
      exact ending.subset List.mem_cons_self

omit [DecidableEq α] in
/-- Two lists up to their first delimiter. -/
theorem prefix_delimited {delimiter : α} {left right more later : List α}
    (outside : delimiter ∉ left) (also : delimiter ∉ right) :
    left ++ delimiter :: more <+: right ++ delimiter :: later ↔
      left = right ∧ more <+: later := by
  constructor
  · intro initial
    induction left generalizing right with
    | nil =>
        cases right with
        | nil => exact ⟨rfl, (List.cons_prefix_cons.mp initial).2⟩
        | cons first right =>
            have same := (List.cons_prefix_cons.mp initial).1
            rw [same] at also
            exact absurd List.mem_cons_self also
    | cons first left ih =>
        cases right with
        | nil =>
            have same := (List.cons_prefix_cons.mp initial).1
            rw [same] at outside
            exact absurd List.mem_cons_self outside
        | cons begin right =>
            rcases List.cons_prefix_cons.mp initial with ⟨rfl, inside⟩
            have tails := ih (List.not_mem_of_not_mem_cons outside)
              (List.not_mem_of_not_mem_cons also) inside
            exact ⟨congrArg (first :: ·) tails.1, tails.2⟩
  · rintro ⟨rfl, initial⟩
    apply (List.prefix_append_right_inj left).mpr
    exact List.cons_prefix_cons.mpr ⟨rfl, initial⟩

/-- The elements before the first delimiter. -/
theorem take_find_singleton (delimiter : α) (front rest : List α) :
    ∃ count, find [delimiter] (front ++ delimiter :: rest) = some count ∧
      (front ++ delimiter :: rest).take count = front.takeWhile (· != delimiter) := by
  induction front with
  | nil => exact ⟨0, find_append [delimiter] rest, rfl⟩
  | cons first front ih =>
      rcases ih with ⟨count, found, before⟩
      by_cases same : first = delimiter
      · refine ⟨0, ?_, ?_⟩
        · rw [same]
          exact find_append [delimiter] _
        · rw [List.take_zero, List.takeWhile_cons_of_neg]
          simp [same]
      · have absent : ¬ [delimiter] <+: first :: (front ++ delimiter :: rest) := by
          intro initial
          exact same (List.cons_prefix_cons.mp initial).1.symm
        refine ⟨count + 1, ?_, ?_⟩
        · rw [List.cons_append, find, if_neg absent, found, Option.map_some]
        · rw [List.cons_append, List.take_succ_cons, before, List.takeWhile_cons_of_pos]
          simp [same]

end Substring
