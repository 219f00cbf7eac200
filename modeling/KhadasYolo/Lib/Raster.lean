import Mathlib.Algebra.Order.Group.Int
import Mathlib.Algebra.Order.Ring.Int
import Mathlib.Tactic.Ring

/-!
# Pixels in a buffer

An image lies in a buffer row by row. A pixel has an index, the row times the pixels of a
row and the column more. A block of pixels that is written with the rows of a larger
buffer stays in that buffer when its last pixel does.
-/

namespace Raster

/-- The index of a pixel in rows of `stride` pixels. -/
def index (stride row col : Int) : Int := row * stride + col

variable {stride height row col rows cols : Int}

theorem index_nonneg (wide : 0 ≤ stride) (rowLow : 0 ≤ row) (colLow : 0 ≤ col) :
    0 ≤ index stride row col :=
  add_nonneg (mul_nonneg rowLow wide) colLow

theorem index_lt (colLow : 0 ≤ col) (colHigh : col < stride) (rowHigh : row < height) :
    index stride row col < stride * height := by
  have wide : 0 ≤ stride := colLow.trans colHigh.le
  calc index stride row col
      < row * stride + stride := by
        apply add_lt_add_right
        exact colHigh
    _ = stride * (row + 1) := by ring
    _ ≤ stride * height := by
        apply mul_le_mul_of_nonneg_left _ wide
        exact Int.add_one_le_of_lt rowHigh

/-- The rows and the columns of a block start at zero. -/
def Block (rows cols : Int) (within : Int → Int → Prop) : Prop :=
  ∀ row col, 0 ≤ row → row < rows → 0 ≤ col → col < cols → within row col

/-- A block stays in the buffer exactly when its last pixel does. -/
theorem block_iff (wide : 0 ≤ stride) (someRow : 0 < rows) (someCol : 0 < cols) :
    Block rows cols (fun row col => index stride row col < stride * height) ↔
      index stride (rows - 1) (cols - 1) < stride * height := by
  constructor
  · intro every
    apply every
    · exact Int.sub_nonneg.mpr someRow
    · exact sub_one_lt rows
    · exact Int.sub_nonneg.mpr someCol
    · exact sub_one_lt cols
  · intro last row col _ rowHigh _ colHigh
    apply lt_of_le_of_lt _ last
    apply add_le_add
    · apply mul_le_mul_of_nonneg_right _ wide
      exact Int.le_sub_one_of_lt rowHigh
    · exact Int.le_sub_one_of_lt colHigh

/-- Rows of full length. -/
theorem full_rows_iff (wide : 0 < stride) (nonneg : 0 ≤ rows) (high : 0 ≤ height) :
    Block rows stride (fun row col => index stride row col < stride * height) ↔
      rows ≤ height := by
  rcases nonneg.eq_or_lt with rfl | someRow
  · constructor
    · intro _
      exact high
    · intro _ row col low below
      exact absurd (low.trans_lt below) (lt_irrefl 0)
  · rw [block_iff wide.le someRow wide]
    have last : index stride (rows - 1) (stride - 1) = stride * rows - 1 := by
      rw [index]
      ring
    rw [last, Int.sub_one_lt_iff]
    exact mul_le_mul_iff_of_pos_left wide

/-- As many rows as the buffer has. -/
theorem full_cols_iff (wide : 0 < stride) (nonneg : 0 ≤ cols) (high : 0 < height) :
    Block height cols (fun row col => index stride row col < stride * height) ↔
      cols ≤ stride := by
  rcases nonneg.eq_or_lt with rfl | someCol
  · constructor
    · intro _
      exact wide.le
    · intro _ row col _ _ low below
      exact absurd (low.trans_lt below) (lt_irrefl 0)
  · rw [block_iff wide.le high someCol]
    have last : index stride (height - 1) (cols - 1) = stride * height + (cols - stride) - 1 := by
      rw [index]
      ring
    rw [last, Int.sub_one_lt_iff, add_le_iff_nonpos_right, sub_nonpos]

end Raster
