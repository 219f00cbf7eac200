import KhadasYolo.Lib.FloatConvert
import KhadasYolo.Lib.Raster

/-!
# The letterbox

`rga_letterbox_rgb` scales a frame into the model input. The orientation of the frame
alone decides which of the two sizes is filled, and the other size follows from the same
scale.
-/

namespace KhadasYolo.Rga

open Raster

universe u

/-- The locals of `rga_letterbox_rgb`. Both scales of the caller are `scale`. -/
structure Letterbox (F : Type u) where
  scale : F
  resizeW : Int32
  resizeH : Int32

section Source

variable {F : Type u} [FloatConvert F]

/-- A size of the model over one of the frame. -/
def scaleOf (model src : Int32) : F :=
  FloatConvert.ofInt model.toInt / FloatConvert.ofInt src.toInt

/-- A size of the frame in pixels of the model. -/
def resized (scale : F) (src : Int32) : Int32 :=
  Int32.ofInt (FloatConvert.truncate (scale * FloatConvert.ofInt src.toInt))

def letterbox (srcW srcH modelW modelH : Int32) : Letterbox F :=
  if srcW > srcH then
    let scale : F := scaleOf modelW srcW
    { scale := scale
      resizeW := modelW
      resizeH := resized scale srcH }
  else
    let scale : F := scaleOf modelH srcH
    { scale := scale
      resizeH := modelH
      resizeW := resized scale srcW }

end Source

/-- The bytes of a model buffer of `BufPool`. -/
def modelBytes (modelW modelH modelCh : Int32) : Int :=
  modelW.toInt * modelH.toInt * modelCh.toInt

/-- The bytes that the resize writes, with rows of `modelW` pixels, are in the buffer. -/
def Letterbox.WritesInside {F : Type u} (box : Letterbox F) (modelW modelH : Int32) : Prop :=
  Block box.resizeH.toInt box.resizeW.toInt fun row col =>
    ∀ channel, 0 ≤ channel → channel < 3 →
      0 ≤ index modelW.toInt row col * 3 + channel ∧
        index modelW.toInt row col * 3 + channel < modelBytes modelW modelH 3

/-- The image that the resize writes fits the model input and its buffer. -/
structure Letterbox.Fits {F : Type u} (box : Letterbox F) (modelW modelH : Int32) : Prop where
  width : 0 ≤ box.resizeW.toInt ∧ box.resizeW.toInt ≤ modelW.toInt
  height : 0 ≤ box.resizeH.toInt ∧ box.resizeH.toInt ≤ modelH.toInt
  inside : box.WritesInside modelW modelH

/-- The size that follows from the scale is not larger than that of the model, up to the
fraction that the conversion drops. -/
def Proportioned (srcW srcH modelW modelH : Int32) : Prop :=
  if srcW > srcH then modelW.toInt * srcH.toInt < (modelH.toInt + 1) * srcW.toInt
  else modelH.toInt * srcW.toInt < (modelW.toInt + 1) * srcH.toInt

/-! ## The size that follows -/

section Resized

variable {model src other bound : Int32}

/-- The size that follows is not larger than the one that is filled. -/
theorem toInt_resized (sized : 0 < src.toInt) (target : 0 ≤ model.toInt)
    (nonneg : 0 ≤ other.toInt) (smaller : other.toInt ≤ src.toInt) :
    (resized (scaleOf model src : ℝ) other).toInt =
      ⌊(model.toInt / src.toInt * other.toInt : ℝ)⌋ := by
  have positive : (0 : ℝ) < src.toInt := Int.cast_pos.mpr sized
  have low : (0 : ℝ) ≤ model.toInt / src.toInt * other.toInt := by
    apply mul_nonneg
    · exact div_nonneg (Int.cast_nonneg target) positive.le
    · exact Int.cast_nonneg nonneg
  have high : (model.toInt / src.toInt * other.toInt : ℝ) ≤ model.toInt := by
    rw [div_mul_eq_mul_div, div_le_iff₀ positive]
    apply mul_le_mul_of_nonneg_left
    · exact Int.cast_le.mpr smaller
    · exact Int.cast_nonneg target
  have floor : ⌊(model.toInt / src.toInt * other.toInt : ℝ)⌋ ≤ model.toInt :=
    Int.cast_le.mp ((Int.floor_le _).trans high)
  have unscaled : FloatConvert.truncate ((scaleOf model src : ℝ) *
      FloatConvert.ofInt other.toInt) = ⌊(model.toInt / src.toInt * other.toInt : ℝ)⌋ :=
    FloatConvert.truncate_of_nonneg low
  have zero := Int.floor_nonneg.mpr low
  have last := model.toInt_lt
  rw [resized, unscaled]
  exact Int32.toInt_ofInt_of_le (by omega) (by omega)

theorem resized_le_iff (sized : 0 < src.toInt) (target : 0 ≤ model.toInt)
    (nonneg : 0 ≤ other.toInt) (smaller : other.toInt ≤ src.toInt) :
    (resized (scaleOf model src : ℝ) other).toInt ≤ bound.toInt ↔
      model.toInt * other.toInt < (bound.toInt + 1) * src.toInt := by
  have positive : (0 : ℝ) < src.toInt := Int.cast_pos.mpr sized
  rw [toInt_resized sized target nonneg smaller, Int.floor_le_iff, div_mul_eq_mul_div,
    div_lt_iff₀ positive]
  exact_mod_cast Iff.rfl

theorem resized_nonneg (sized : 0 < src.toInt) (target : 0 ≤ model.toInt)
    (nonneg : 0 ≤ other.toInt) (smaller : other.toInt ≤ src.toInt) :
    0 ≤ (resized (scaleOf model src : ℝ) other).toInt := by
  rw [toInt_resized sized target nonneg smaller]
  apply Int.floor_nonneg.mpr
  apply mul_nonneg
  · exact div_nonneg (Int.cast_nonneg target) (Int.cast_nonneg sized.le)
  · exact Int.cast_nonneg nonneg

end Resized

/-! ## The buffer -/

section Buffer

variable {modelW modelH : Int32}

/-- The three bytes of a pixel are in the buffer together. -/
theorem writesInside_iff {F : Type u} {box : Letterbox F} (wide : 0 ≤ modelW.toInt) :
    box.WritesInside modelW modelH ↔ Block box.resizeH.toInt box.resizeW.toInt fun row col =>
      index modelW.toInt row col < modelW.toInt * modelH.toInt := by
  have three : (3 : Int32).toInt = 3 := by decide
  constructor
  · intro inside row col rowLow rowHigh colLow colHigh
    have last := (inside row col rowLow rowHigh colLow colHigh 2 (by decide) (by decide)).2
    rw [modelBytes, three] at last
    omega
  · intro inside row col rowLow rowHigh colLow colHigh channel low high
    have below := inside row col rowLow rowHigh colLow colHigh
    have nonneg := index_nonneg wide rowLow colLow
    rw [modelBytes, three]
    omega

variable {F : Type u} {box : Letterbox F}

/-- An image as wide as the model input. -/
theorem full_width_iff (full : box.resizeW = modelW) (wide : 0 < modelW.toInt)
    (high : 0 ≤ modelH.toInt) (nonneg : 0 ≤ box.resizeH.toInt) :
    (box.Fits modelW modelH ↔ box.resizeH.toInt ≤ modelH.toInt) ∧
      (box.WritesInside modelW modelH ↔ box.resizeH.toInt ≤ modelH.toInt) := by
  have inside : box.WritesInside modelW modelH ↔ box.resizeH.toInt ≤ modelH.toInt := by
    rw [writesInside_iff wide.le, full]
    exact full_rows_iff wide nonneg high
  constructor
  · constructor
    · intro fits
      exact fits.height.2
    · intro below
      constructor
      · rw [full]
        exact ⟨wide.le, le_rfl⟩
      · exact ⟨nonneg, below⟩
      · exact inside.mpr below
  · exact inside

/-- An image as high as the model input. -/
theorem full_height_iff (full : box.resizeH = modelH) (wide : 0 < modelW.toInt)
    (high : 0 < modelH.toInt) (nonneg : 0 ≤ box.resizeW.toInt) :
    (box.Fits modelW modelH ↔ box.resizeW.toInt ≤ modelW.toInt) ∧
      (box.WritesInside modelW modelH ↔ box.resizeW.toInt ≤ modelW.toInt) := by
  have inside : box.WritesInside modelW modelH ↔ box.resizeW.toInt ≤ modelW.toInt := by
    rw [writesInside_iff wide.le, full]
    exact full_cols_iff wide nonneg high
  constructor
  · constructor
    · intro fits
      exact fits.width.2
    · intro below
      constructor
      · exact ⟨nonneg, below⟩
      · rw [full]
        exact ⟨high.le, le_rfl⟩
      · exact inside.mpr below
  · exact inside

end Buffer

theorem landscape_iff {srcW srcH : Int32} : srcW > srcH ↔ srcH.toInt < srcW.toInt :=
  Int32.lt_iff_toInt_lt

/-- The letterboxed image fits the model input exactly when the size that follows from the
scale does. -/
theorem letterbox_fits_iff (srcW srcH modelW modelH : Int32) (wide : 0 < srcW.toInt)
    (high : 0 < srcH.toInt) (modelWide : 0 < modelW.toInt) (modelHigh : 0 < modelH.toInt) :
    ((letterbox srcW srcH modelW modelH : Letterbox ℝ).Fits modelW modelH ↔
      Proportioned srcW srcH modelW modelH) ∧
    ((letterbox srcW srcH modelW modelH : Letterbox ℝ).WritesInside modelW modelH ↔
      Proportioned srcW srcH modelW modelH) := by
  rw [letterbox, Proportioned]
  split
  next landscape =>
    have smaller := (landscape_iff.mp landscape).le
    rw [← resized_le_iff wide modelWide.le high.le smaller]
    apply full_width_iff rfl modelWide modelHigh.le
    exact resized_nonneg wide modelWide.le high.le smaller
  next portrait =>
    have smaller := not_lt.mp (landscape_iff.not.mp portrait)
    rw [← resized_le_iff high modelHigh.le wide.le smaller]
    apply full_height_iff rfl modelWide modelHigh
    exact resized_nonneg high modelHigh.le wide.le smaller

theorem letterbox_fits_iff_vga :
    (letterbox 640 480 640 640 : Letterbox ℝ).Fits 640 640 := by
  apply (letterbox_fits_iff 640 480 640 640 (by decide) (by decide) (by decide)
    (by decide)).1.mpr
  rw [Proportioned, if_pos (by decide)]
  decide

/-- The frame of a camera in a model input of half its height. -/
theorem letterbox_overflows : ¬ (letterbox 640 480 640 320 : Letterbox ℝ).Fits 640 320 := by
  intro fits
  have landscape : (640 : Int32) > 480 := by decide
  have below := fits.height.2
  rw [letterbox, if_pos landscape, resized_le_iff (by decide) (by decide) (by decide)
    (by decide)] at below
  exact absurd below (by decide)

/-- A square model input has room for every frame. -/
theorem proportioned_square {srcW srcH model : Int32} (wide : 0 < srcW.toInt)
    (high : 0 < srcH.toInt) (sized : 0 ≤ model.toInt) : Proportioned srcW srcH model model := by
  rw [Proportioned]
  split
  next landscape =>
    have smaller := (landscape_iff.mp landscape).le
    calc model.toInt * srcH.toInt
        ≤ model.toInt * srcW.toInt := by
          apply mul_le_mul_of_nonneg_left smaller sized
      _ < (model.toInt + 1) * srcW.toInt := by
          apply mul_lt_mul_of_pos_right _ wide
          exact lt_add_one model.toInt
  next portrait =>
    have smaller := not_lt.mp (landscape_iff.not.mp portrait)
    calc model.toInt * srcW.toInt
        ≤ model.toInt * srcH.toInt := by
          apply mul_le_mul_of_nonneg_left smaller sized
      _ < (model.toInt + 1) * srcH.toInt := by
          apply mul_lt_mul_of_pos_right _ high
          exact lt_add_one model.toInt

end KhadasYolo.Rga
