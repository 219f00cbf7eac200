import Mathlib.Data.List.Basic

/-!
# Words

The words of a text are what stands between its blanks.  Texts can be changed between
the words in any way: blanks translated into other blanks, and runs of a blank squeezed
into one.
-/

namespace Words

universe u

variable {α : Type u}

/-- The words of a text, without the empty ones between two blanks. -/
def words (blank : α → Bool) (text : List α) : List (List α) :=
  (text.splitOnP blank).filter fun word => !word.isEmpty

/-- A run of the element becomes a single one. -/
def squeeze [DecidableEq α] (element : α) : List α → List α
  | [] => []
  | [last] => [last]
  | first :: second :: rest =>
      if first = element ∧ second = element then squeeze element (second :: rest)
      else first :: squeeze element (second :: rest)

variable {blank : α → Bool}

/-- A blank ends a word. -/
theorem words_append_cons {separator : α} (isBlank : blank separator = true)
    (text rest : List α) :
    words blank (text ++ separator :: rest) = words blank text ++ words blank rest := by
  rw [words, List.splitOnP_append_cons text rest isBlank, List.filter_append]
  rfl

/-- Lines, each of them with a blank at its end. -/
theorem words_lines {separator : α} (isBlank : blank separator = true)
    (lines : List (List α)) :
    words blank (lines.flatMap (· ++ [separator])) = lines.flatMap (words blank) := by
  induction lines with
  | nil => rfl
  | cons line lines ih =>
      rw [List.flatMap_cons, List.flatMap_cons, List.append_assoc, List.singleton_append,
        words_append_cons isBlank, ih]

/-! ## Between the words -/

/-- The words of a text behind the first letters of one, the last letter first. -/
noncomputable def wordsBehind (blank : α → Bool) (letters text : List α) : List (List α) :=
  (text.splitOnPPrepend blank letters).filter fun word => !word.isEmpty

theorem wordsBehind_nil (text : List α) : wordsBehind blank [] text = words blank text := rfl

theorem wordsBehind_blank {first : α} (isBlank : blank first = true) (letters rest : List α) :
    wordsBehind blank letters (first :: rest) =
      wordsBehind blank letters [] ++ words blank rest := by
  rw [wordsBehind, List.splitOnPPrepend_cons_pos isBlank, ← List.singleton_append,
    List.filter_append]
  rfl

theorem wordsBehind_letter {first : α} (isLetter : blank first = false)
    (letters rest : List α) :
    wordsBehind blank letters (first :: rest) = wordsBehind blank (first :: letters) rest := by
  rw [wordsBehind, List.splitOnPPrepend_cons_neg isLetter, wordsBehind]

/-- Blanks become blanks. -/
theorem words_map {translate : α → α} (keeps : ∀ x, blank x = false → translate x = x)
    (blanks : ∀ x, blank x = true → blank (translate x) = true) (text : List α) :
    words blank (text.map translate) = words blank text := by
  rw [← wordsBehind_nil, ← wordsBehind_nil]
  generalize ([] : List α) = letters
  induction text generalizing letters with
  | nil => rfl
  | cons first rest ih =>
      rw [List.map_cons]
      cases kind : blank first with
      | true =>
          rw [wordsBehind_blank (blanks first kind), wordsBehind_blank kind,
            ← wordsBehind_nil, ih, wordsBehind_nil]
      | false => rw [keeps first kind, wordsBehind_letter kind, wordsBehind_letter kind, ih]

section Squeeze

variable [DecidableEq α] {element : α}

theorem words_squeeze (isBlank : blank element = true) (text : List α) :
    words blank (squeeze element text) = words blank text := by
  rw [← wordsBehind_nil, ← wordsBehind_nil]
  generalize ([] : List α) = letters
  fun_induction squeeze element text generalizing letters with
  | case1 => rfl
  | case2 => rfl
  | case3 first second rest both ih =>
      rw [ih, both.1, both.2, wordsBehind_blank isBlank, wordsBehind_blank isBlank,
        ← wordsBehind_nil (element :: rest), wordsBehind_blank isBlank]
      rfl
  | case4 first second rest _ ih =>
      cases kind : blank first with
      | true => rw [wordsBehind_blank kind, wordsBehind_blank kind, ← wordsBehind_nil, ih,
          wordsBehind_nil]
      | false => rw [wordsBehind_letter kind, wordsBehind_letter kind, ih]

theorem squeeze_subset (text : List α) : squeeze element text ⊆ text := by
  fun_induction squeeze element text with
  | case1 => exact List.Subset.refl _
  | case2 => exact List.Subset.refl _
  | case3 first second rest _ ih => exact List.subset_cons_of_subset first ih
  | case4 first second rest _ ih => exact List.cons_subset_cons first ih

theorem head?_squeeze (text : List α) : (squeeze element text).head? = text.head? := by
  fun_induction squeeze element text with
  | case1 => rfl
  | case2 => rfl
  | case3 first second rest both ih => rw [ih, both.1, both.2, List.head?_cons, List.head?_cons]
  | case4 => rfl

/-- No two of the element stand side by side. -/
theorem squeeze_single (text : List α) : ¬ [element, element] <:+: squeeze element text := by
  fun_induction squeeze element text with
  | case1 => exact fun inside => absurd (List.infix_nil.mp inside) nofun
  | case2 => exact fun inside => absurd inside.length_le (by simp)
  | case3 first second rest _ ih => exact ih
  | case4 first second rest other ih =>
      intro inside
      rcases List.infix_cons_iff.mp inside with front | later
      · rcases List.cons_prefix_cons.mp front with ⟨same, next⟩
        have head : (squeeze element (second :: rest)).head? = some second :=
          head?_squeeze (second :: rest)
        rcases next with ⟨more, next⟩
        rw [← next] at head
        exact other ⟨same.symm, (Option.some.inj head).symm⟩
      · exact ih later

end Squeeze

end Words
