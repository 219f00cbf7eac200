import KhadasYolo.Ipc.DataPublisher
import KhadasYolo.Lib.Raster
import Mathlib.Data.Int.Range
import Mathlib.Logic.Function.Basic

/-!
# Boxes on the display

`draw_box_sw` draws the outline of a box in software. It clips the box to the image once
and then draws the four edges again and again, every time one pixel further inside, each
with a test of its own. The arithmetic is that of `int`.
-/

namespace KhadasYolo.Rga

open Ipc Raster

universe u

/-- The box as `draw_box_sw` takes it. -/
structure Rect where
  x : Int32
  y : Int32
  w : Int32
  h : Int32

/-- The corners of the box clipped to the image. The last row and the last column are not
part of it. -/
structure Corners where
  x0 : Int32
  y0 : Int32
  x1 : Int32
  y1 : Int32

structure Pixel where
  row : Int32
  col : Int32
  deriving DecidableEq

/-- The values of a loop counter. -/
def counter (first last : Int32) : List Int32 :=
  (Int.range first.toInt last.toInt).map Int32.ofInt

def clip (imgW imgH : Int32) (box : Rect) : Corners where
  x0 := if box.x < 0 then 0 else box.x
  y0 := if box.y < 0 then 0 else box.y
  x1 := if box.x + box.w > imgW then imgW else box.x + box.w
  y1 := if box.y + box.h > imgH then imgH else box.y + box.h

/-- The loop over the columns of a row. -/
def Corners.across (c : Corners) (row : Int32) : List Pixel :=
  (counter c.x0 c.x1).map fun col => ⟨row, col⟩

/-- The loop over the rows of a column. -/
def Corners.down (c : Corners) (col : Int32) : List Pixel :=
  (counter c.y0 c.y1).map fun row => ⟨row, col⟩

/-- The four edges at a distance of `t` pixels from the outline. -/
def Corners.edges (c : Corners) (imgW imgH t : Int32) : List Pixel :=
  let top := c.y0 + t
  let bottom := c.y1 - 1 - t
  let left := c.x0 + t
  let right := c.x1 - 1 - t
  (if top < imgH then c.across top else []) ++
    (if bottom ≥ 0 ∧ bottom < imgH then c.across bottom else []) ++
    (if left < imgW then c.down left else []) ++
    (if right ≥ 0 ∧ right < imgW then c.down right else [])

/-- The pixels that are written, in their order. -/
def drawnPixels (imgW imgH : Int32) (box : Rect) (thickness : Int32) : List Pixel :=
  let c := clip imgW imgH box
  if c.x0 ≥ c.x1 ∨ c.y0 ≥ c.y1 then []
  else (counter 0 thickness).flatMap (c.edges imgW imgH)

/-- The bytes of a pixel start here. -/
def Pixel.offset (p : Pixel) (imgW : Int32) : Int32 := (p.row * imgW + p.col) * 3

/-- The three stores for a pixel. -/
def paint (imgW : Int32) (colourRgb : UInt32) (bgr : Int → UInt8) (p : Pixel) : Int → UInt8 :=
  let r := ((colourRgb >>> 16) &&& 0xFF).toUInt8
  let g := ((colourRgb >>> 8) &&& 0xFF).toUInt8
  let b := (colourRgb &&& 0xFF).toUInt8
  let start := (p.offset imgW).toInt
  Function.update (Function.update (Function.update bgr start b) (start + 1) g) (start + 2) r

/-- `draw_box_sw`. The buffer is the memory from its first byte on. -/
def drawBoxSw (bgr : Int → UInt8) (imgW imgH : Int32) (box : Rect) (colourRgb : UInt32)
    (thickness : Int32) : Int → UInt8 :=
  (drawnPixels imgW imgH box thickness).foldl (paint imgW colourRgb) bgr

/-- The arguments for a detection. -/
def drawnRect (box : BoxRect) : Rect where
  x := box.left
  y := box.top
  w := box.right - box.left
  h := box.bottom - box.top

/-- The main loop draws the detections of a frame. -/
def drawDetections {F : Type u} (display : Int → UInt8) (width height : Int32)
    (group : DetectResultGroup F) : Int → UInt8 :=
  group.detections.foldl
    (fun display det => drawBoxSw display width height (drawnRect det.box) 0xFFA500 6) display

/-! ## The written pixels -/

section Pixels

variable {imgW imgH thickness t : Int32} {box : Rect} {c : Corners} {p : Pixel}

theorem mem_counter {first last i : Int32} :
    i ∈ counter first last ↔ first.toInt ≤ i.toInt ∧ i.toInt < last.toInt := by
  rw [counter, List.mem_map]
  constructor
  · rintro ⟨n, member, rfl⟩
    have between := Int.mem_range_iff.mp member
    have low := first.le_toInt
    have high := last.toInt_lt
    rwa [Int32.toInt_ofInt_of_le (by omega) (by omega)]
  · intro between
    exact ⟨i.toInt, Int.mem_range_iff.mpr between, i.ofInt_toInt⟩

theorem mem_across {row : Int32} : p ∈ c.across row ↔
    p.row = row ∧ c.x0.toInt ≤ p.col.toInt ∧ p.col.toInt < c.x1.toInt := by
  rw [Corners.across, List.mem_map]
  constructor
  · rintro ⟨col, member, rfl⟩
    exact ⟨rfl, mem_counter.mp member⟩
  · rintro ⟨rfl, between⟩
    exact ⟨p.col, mem_counter.mpr between, rfl⟩

theorem mem_down {col : Int32} : p ∈ c.down col ↔
    p.col = col ∧ c.y0.toInt ≤ p.row.toInt ∧ p.row.toInt < c.y1.toInt := by
  rw [Corners.down, List.mem_map]
  constructor
  · rintro ⟨row, member, rfl⟩
    exact ⟨rfl, mem_counter.mp member⟩
  · rintro ⟨rfl, between⟩
    exact ⟨p.row, mem_counter.mpr between, rfl⟩

theorem mem_edges : p ∈ c.edges imgW imgH t ↔
    (c.y0 + t < imgH ∧ p ∈ c.across (c.y0 + t)) ∨
      ((c.y1 - 1 - t ≥ 0 ∧ c.y1 - 1 - t < imgH) ∧ p ∈ c.across (c.y1 - 1 - t)) ∨
      (c.x0 + t < imgW ∧ p ∈ c.down (c.x0 + t)) ∨
      ((c.x1 - 1 - t ≥ 0 ∧ c.x1 - 1 - t < imgW) ∧ p ∈ c.down (c.x1 - 1 - t)) := by
  simp only [Corners.edges, List.mem_append, List.mem_ite_nil_right, or_assoc]

/-- What the corners have in common with the image. -/
structure Clipped (imgW imgH : Int32) (c : Corners) : Prop where
  left : 0 ≤ c.x0.toInt
  top : 0 ≤ c.y0.toInt
  right : c.x1.toInt ≤ imgW.toInt
  bottom : c.y1.toInt ≤ imgH.toInt

theorem toInt_low (n : Int32) : (if n < 0 then 0 else n).toInt = max n.toInt 0 := by
  split
  next below =>
    have negative := Int32.lt_iff_toInt_lt.mp below
    rw [Int32.toInt_zero] at negative ⊢
    exact (max_eq_right negative.le).symm
  next above =>
    have nonneg := Int32.le_iff_toInt_le.mp (Int32.not_lt.mp above)
    rw [Int32.toInt_zero] at nonneg
    exact (max_eq_left nonneg).symm

theorem toInt_high (n limit : Int32) :
    (if n > limit then limit else n).toInt = min n.toInt limit.toInt := by
  split
  next above =>
    exact (min_eq_right (Int32.lt_iff_toInt_lt.mp above).le).symm
  next below =>
    exact (min_eq_left (Int32.le_iff_toInt_le.mp (Int32.not_lt.mp below))).symm

theorem clipped_clip (imgW imgH : Int32) (box : Rect) :
    Clipped imgW imgH (clip imgW imgH box) where
  left := (toInt_low _).symm ▸ le_max_right _ _
  top := (toInt_low _).symm ▸ le_max_right _ _
  right := (toInt_high _ _).symm ▸ min_le_right _ _
  bottom := (toInt_high _ _).symm ▸ min_le_right _ _

/-- A pixel of the image. -/
structure InImage (imgW imgH : Int32) (p : Pixel) : Prop where
  row : 0 ≤ p.row.toInt ∧ p.row.toInt < imgH.toInt
  col : 0 ≤ p.col.toInt ∧ p.col.toInt < imgW.toInt

/-- A pixel in a row or a column of the corners. -/
def Corners.Covers (c : Corners) (p : Pixel) : Prop :=
  (c.y0.toInt ≤ p.row.toInt ∧ p.row.toInt < c.y1.toInt) ∨
    (c.x0.toInt ≤ p.col.toInt ∧ p.col.toInt < c.x1.toInt)

theorem across_inImage (clipped : Clipped imgW imgH c) {row : Int32} (low : 0 ≤ row.toInt)
    (high : row < imgH) (member : p ∈ c.across row) : InImage imgW imgH p ∧ c.Covers p := by
  rcases mem_across.mp member with ⟨rfl, first, last⟩
  refine ⟨⟨⟨low, Int32.lt_iff_toInt_lt.mp high⟩, ?_⟩, .inr ⟨first, last⟩⟩
  exact ⟨clipped.left.trans first, last.trans_le clipped.right⟩

theorem down_inImage (clipped : Clipped imgW imgH c) {col : Int32} (low : 0 ≤ col.toInt)
    (high : col < imgW) (member : p ∈ c.down col) : InImage imgW imgH p ∧ c.Covers p := by
  rcases mem_down.mp member with ⟨rfl, first, last⟩
  refine ⟨⟨?_, ⟨low, Int32.lt_iff_toInt_lt.mp high⟩⟩, .inl ⟨first, last⟩⟩
  exact ⟨clipped.top.trans first, last.trans_le clipped.bottom⟩

/-- One round of the four edges. The lower and the right edge test both ends, the others
rely on the sums. -/
theorem edges_inImage (clipped : Clipped imgW imgH c) (top : 0 ≤ (c.y0 + t).toInt)
    (left : 0 ≤ (c.x0 + t).toInt) (member : p ∈ c.edges imgW imgH t) :
    InImage imgW imgH p ∧ c.Covers p := by
  rcases mem_edges.mp member with
    ⟨high, edge⟩ | ⟨⟨low, high⟩, edge⟩ | ⟨high, edge⟩ | ⟨⟨low, high⟩, edge⟩
  · exact across_inImage clipped top high edge
  · exact across_inImage clipped (Int32.le_iff_toInt_le.mp low) high edge
  · exact down_inImage clipped left high edge
  · exact down_inImage clipped (Int32.le_iff_toInt_le.mp low) high edge

end Pixels

/-! ## The frame -/

/-- The lower right corner of the box fits in `int`. -/
structure BoxFits (box : Rect) : Prop where
  right : -2 ^ 31 ≤ box.x.toInt + box.w.toInt ∧ box.x.toInt + box.w.toInt < 2 ^ 31
  bottom : -2 ^ 31 ≤ box.y.toInt + box.h.toInt ∧ box.y.toInt + box.h.toInt < 2 ^ 31

/-- The sums with the distances from the outline fit in `int`. -/
structure ThicknessFits (box : Rect) (thickness : Int32) : Prop where
  cols : max box.x.toInt 0 + thickness.toInt ≤ 2 ^ 31
  rows : max box.y.toInt 0 + thickness.toInt ≤ 2 ^ 31

/-- The columns of the box clipped to the image. -/
def ClippedCol (imgW : Int32) (box : Rect) (col : Int) : Prop :=
  max box.x.toInt 0 ≤ col ∧ col < min (box.x.toInt + box.w.toInt) imgW.toInt

/-- The rows of the box clipped to the image. -/
def ClippedRow (imgH : Int32) (box : Rect) (row : Int) : Prop :=
  max box.y.toInt 0 ≤ row ∧ row < min (box.y.toInt + box.h.toInt) imgH.toInt

/-- A pixel of the image in a row or a column of the clipped box. -/
structure Within (imgW imgH : Int32) (box : Rect) (p : Pixel) : Prop where
  inImage : InImage imgW imgH p
  index : 0 ≤ index imgW.toInt p.row.toInt p.col.toInt ∧
    index imgW.toInt p.row.toInt p.col.toInt < imgW.toInt * imgH.toInt
  clipped : ClippedRow imgH box p.row.toInt ∨ ClippedCol imgW box p.col.toInt

section Frame

variable {imgW imgH thickness : Int32} {box : Rect} {p : Pixel}

theorem toInt_add_of_fits {a b : Int32} (low : -2 ^ 31 ≤ a.toInt + b.toInt)
    (high : a.toInt + b.toInt < 2 ^ 31) : (a + b).toInt = a.toInt + b.toInt := by
  rw [Int32.toInt_add]
  exact Int.bmod_eq_of_le (by omega) (by omega)

/-- The columns of the corners are those of the clipped box. -/
theorem clippedCol_iff (fits : BoxFits box) {col : Int} :
    ClippedCol imgW box col ↔ (clip imgW imgH box).x0.toInt ≤ col ∧
      col < (clip imgW imgH box).x1.toInt := by
  rw [clip, toInt_low, toInt_high, toInt_add_of_fits fits.right.1 fits.right.2]
  rfl

theorem clippedRow_iff (fits : BoxFits box) {row : Int} :
    ClippedRow imgH box row ↔ (clip imgW imgH box).y0.toInt ≤ row ∧
      row < (clip imgW imgH box).y1.toInt := by
  rw [clip, toInt_low, toInt_high, toInt_add_of_fits fits.bottom.1 fits.bottom.2]
  rfl

/-- A sum with a distance is a pixel not before the first one. -/
theorem sum_nonneg {first t : Int32} (low : 0 ≤ first.toInt) (nonneg : 0 ≤ t.toInt)
    (below : t.toInt < thickness.toInt) (fits : first.toInt + thickness.toInt ≤ 2 ^ 31) :
    0 ≤ (first + t).toInt := by
  rw [toInt_add_of_fits (by omega) (by omega)]
  exact add_nonneg low nonneg

theorem drawnPixels_within (fits : BoxFits box) (sums : ThicknessFits box thickness)
    (member : p ∈ drawnPixels imgW imgH box thickness) : Within imgW imgH box p := by
  have clipped := clipped_clip imgW imgH box
  rw [drawnPixels] at member
  split at member
  next => contradiction
  next =>
    rcases List.mem_flatMap.mp member with ⟨t, turn, edge⟩
    rcases mem_counter.mp turn with ⟨nonneg, below⟩
    have cols : (clip imgW imgH box).x0.toInt + thickness.toInt ≤ 2 ^ 31 := by
      rw [clip, toInt_low]
      exact sums.cols
    have rows : (clip imgW imgH box).y0.toInt + thickness.toInt ≤ 2 ^ 31 := by
      rw [clip, toInt_low]
      exact sums.rows
    rcases edges_inImage clipped (sum_nonneg clipped.top nonneg below rows)
      (sum_nonneg clipped.left nonneg below cols) edge with ⟨inImage, covers⟩
    constructor
    · exact inImage
    · constructor
      · exact index_nonneg (inImage.col.1.trans inImage.col.2.le) inImage.row.1 inImage.col.1
      · exact index_lt inImage.col.1 inImage.col.2 inImage.row.2
    · exact covers.imp (clippedRow_iff fits).mpr (clippedCol_iff fits).mpr

/-- Nothing is drawn of a box that leaves no pixel of the image. -/
theorem drawnPixels_empty (fits : BoxFits box)
    (empty : (∀ row, ¬ ClippedRow imgH box row) ∨ ∀ col, ¬ ClippedCol imgW box col) :
    drawnPixels imgW imgH box thickness = [] := by
  rw [drawnPixels]
  apply if_pos
  rcases empty with rows | cols
  · right
    apply Int32.le_iff_toInt_le.mpr
    by_contra inside
    exact rows _ ((clippedRow_iff fits).mpr ⟨le_rfl, not_le.mp inside⟩)
  · left
    apply Int32.le_iff_toInt_le.mpr
    by_contra inside
    exact cols _ ((clippedCol_iff fits).mpr ⟨le_rfl, not_le.mp inside⟩)

/-- The offset of a pixel, unless the buffer is too large for `int`. -/
theorem toInt_offset (within : Within imgW imgH box p)
    (small : imgW.toInt * imgH.toInt * 3 ≤ 2 ^ 31) :
    (p.offset imgW).toInt = index imgW.toInt p.row.toInt p.col.toInt * 3 := by
  have nonneg := within.index.1
  have below := within.index.2
  have col := within.inImage.col.1
  have row : 0 ≤ p.row.toInt * imgW.toInt :=
    mul_nonneg within.inImage.row.1 (col.trans within.inImage.col.2.le)
  have three : (3 : Int32).toInt = 3 := by decide
  rw [index] at nonneg below ⊢
  have rows : (p.row * imgW).toInt = p.row.toInt * imgW.toInt := by
    rw [Int32.toInt_mul]
    exact Int.bmod_eq_of_le (by omega) (by omega)
  have pixels : (p.row * imgW + p.col).toInt = p.row.toInt * imgW.toInt + p.col.toInt := by
    rw [toInt_add_of_fits, rows] <;> rw [rows] <;> omega
  rw [Pixel.offset, Int32.toInt_mul, pixels, three]
  exact Int.bmod_eq_of_le (by omega) (by omega)

theorem paint_apart {colourRgb : UInt32} {bgr : Int → UInt8} {n : Int}
    (apart : n < (p.offset imgW).toInt ∨ (p.offset imgW).toInt + 2 < n) :
    paint imgW colourRgb bgr p n = bgr n := by
  rw [paint, Function.update_of_ne (by omega), Function.update_of_ne (by omega),
    Function.update_of_ne (by omega)]

/-- A byte that no pixel of the list has. -/
theorem foldl_paint_apart {colourRgb : UInt32} {bgr : Int → UInt8} {n : Int}
    (pixels : List Pixel)
    (apart : ∀ p ∈ pixels, n < (p.offset imgW).toInt ∨ (p.offset imgW).toInt + 2 < n) :
    pixels.foldl (paint imgW colourRgb) bgr n = bgr n := by
  induction pixels generalizing bgr with
  | nil => rfl
  | cons p pixels ih =>
      rw [List.forall_mem_cons] at apart
      rw [List.foldl_cons, ih apart.2]
      exact paint_apart apart.1

/-- The bytes outside the frame are kept. -/
theorem drawBoxSw_apart {bgr : Int → UInt8} {colourRgb : UInt32} {n : Int}
    (fits : BoxFits box) (sums : ThicknessFits box thickness)
    (small : imgW.toInt * imgH.toInt * 3 ≤ 2 ^ 31)
    (outside : n < 0 ∨ imgW.toInt * imgH.toInt * 3 ≤ n) :
    drawBoxSw bgr imgW imgH box colourRgb thickness n = bgr n := by
  apply foldl_paint_apart
  intro p member
  have within := drawnPixels_within fits sums member
  have nonneg := within.index.1
  have below := within.index.2
  rw [toInt_offset within small]
  omega

end Frame

/-- The drawing stays in the frame. The offsets are those of the pixels as long as the
size of the buffer fits in `int`. -/
theorem draw_box_within (bgr : Int → UInt8) (imgW imgH : Int32) (box : Rect)
    (colourRgb : UInt32) (thickness : Int32) (fits : BoxFits box) :
    (ThicknessFits box thickness → ∀ p ∈ drawnPixels imgW imgH box thickness,
      Within imgW imgH box p) ∧
      (ThicknessFits box thickness → imgW.toInt * imgH.toInt * 3 ≤ 2 ^ 31 →
        ∀ n, n < 0 ∨ imgW.toInt * imgH.toInt * 3 ≤ n →
          drawBoxSw bgr imgW imgH box colourRgb thickness n = bgr n) ∧
      ((∀ row, ¬ ClippedRow imgH box row) ∨ (∀ col, ¬ ClippedCol imgW box col) →
        drawBoxSw bgr imgW imgH box colourRgb thickness = bgr) := by
  constructor
  · intro sums p
    exact drawnPixels_within fits sums
  constructor
  · intro sums small n outside
    exact drawBoxSw_apart fits sums small outside
  · intro empty
    rw [drawBoxSw, drawnPixels_empty fits empty]
    rfl

/-- A box that reaches over the left and the lower end of the image. -/
theorem draw_box_within_corner :
    (∀ p ∈ drawnPixels 640 480 ⟨-5, 470, 20, 30⟩ 6, Within 640 480 ⟨-5, 470, 20, 30⟩ p) ∧
      (⟨475, 14⟩ : Pixel) ∈ drawnPixels 640 480 ⟨-5, 470, 20, 30⟩ 6 := by
  constructor
  · exact (draw_box_within (fun _ => 0) 640 480 ⟨-5, 470, 20, 30⟩ 0 6
      ⟨by decide, by decide⟩).1 ⟨by decide, by decide⟩
  · decide

/-! ## The main loop -/

section Detections

variable {width height : Int32} {box : BoxRect}

/-- The corners of a detection are not negative, and the outline ends in `int`. -/
structure Drawable (box : BoxRect) : Prop where
  left : 0 ≤ box.left.toInt ∧ box.left.toInt + 6 ≤ 2 ^ 31
  top : 0 ≤ box.top.toInt ∧ box.top.toInt + 6 ≤ 2 ^ 31
  right : 0 ≤ box.right.toInt
  bottom : 0 ≤ box.bottom.toInt

/-- The width and the height lead back to the lower right corner. -/
theorem toInt_add_sub {first last : Int32} (low : 0 ≤ first.toInt) (high : 0 ≤ last.toInt) :
    first.toInt + (last - first).toInt = last.toInt := by
  have firstBelow := first.toInt_lt
  have lastBelow := last.toInt_lt
  rw [Int32.toInt_sub, Int.bmod_eq_of_le (by omega) (by omega)]
  omega

theorem Drawable.boxFits (drawable : Drawable box) : BoxFits (drawnRect box) := by
  have right := toInt_add_sub drawable.left.1 drawable.right
  have bottom := toInt_add_sub drawable.top.1 drawable.bottom
  constructor
  · rw [drawnRect, right]
    exact ⟨box.right.le_toInt, box.right.toInt_lt⟩
  · rw [drawnRect, bottom]
    exact ⟨box.bottom.le_toInt, box.bottom.toInt_lt⟩

theorem Drawable.thicknessFits (drawable : Drawable box) :
    ThicknessFits (drawnRect box) 6 := by
  have six : (6 : Int32).toInt = 6 := by decide
  constructor
  · rw [drawnRect, six, max_eq_left drawable.left.1]
    exact drawable.left.2
  · rw [drawnRect, six, max_eq_left drawable.top.1]
    exact drawable.top.2

/-- The detections of a frame are drawn in its display buffer. -/
theorem drawDetections_apart {F : Type u} {group : DetectResultGroup F}
    (drawable : ∀ det ∈ group.detections, Drawable det.box)
    (small : width.toInt * height.toInt * 3 ≤ 2 ^ 31) (display : Int → UInt8) {n : Int}
    (outside : n < 0 ∨ width.toInt * height.toInt * 3 ≤ n) :
    drawDetections display width height group n = display n := by
  rw [drawDetections]
  generalize group.detections = detections at drawable
  induction detections generalizing display with
  | nil => rfl
  | cons det detections ih =>
      rw [List.forall_mem_cons] at drawable
      rw [List.foldl_cons, ih _ drawable.2]
      exact drawBoxSw_apart drawable.1.boxFits drawable.1.thicknessFits small outside

end Detections

end KhadasYolo.Rga
