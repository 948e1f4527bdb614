import Mathlib.Algebra.Order.Ring.Int
import RasterSketch.Raster.Buffer
/-!
# Pixels of pictures and of buffers

The colour of a pixel is told by its own samples (`Mode.toRgba_pixel_append`), so that a picture of the same colours in
another mode makes the same buffer.  A buffer is asked for a pixel by its row and its column (`Buffer.pixel_natCast`).
-/
namespace RasterSketch

namespace Mode

theorem toRgba_nil (mode : Mode) : mode.toRgba [] = [] := by cases mode <;> rfl

theorem toRgba_pixel_append (mode : Mode) {pixel : List UInt8} (h : pixel.length = mode.samples) (rest : List UInt8) :
    mode.toRgba (pixel ++ rest) = mode.toRgba pixel ++ mode.toRgba rest := by
  match mode, pixel, h with
  | .bilevel, [v], _ => simp [toRgba]
  | .grey, [v], _ => simp [toRgba]
  | .greyAlpha, [v, a], _ => simp [toRgba]
  | .rgb, [r, g, b], _ => simp [toRgba]
  | .rgba, [r, g, b, a], _ => simp [toRgba]
  | .indexed palette, [i], _ => simp [toRgba]
  | .indexedAlpha palette, [i, a], _ => simp [toRgba]

end Mode

def Pixel.channels (px : Pixel) : List UInt8 := [px.r, px.g, px.b, px.a]

theorem four_of_drop {bytes : List UInt8} {i : Nat} (h : i + 4 ≤ bytes.length) :
    [bytes.toArray.getD i 0, bytes.toArray.getD (i + 1) 0, bytes.toArray.getD (i + 2) 0, bytes.toArray.getD (i + 3) 0] =
      (bytes.drop i).take 4 := by
  have hget : ∀ j, bytes.toArray.getD (i + j) 0 = (bytes.drop i).getD j 0 := fun j => by
    rw [Array.getD_eq_getD_getElem?, List.getElem?_toArray, List.getD_eq_getElem?_getD, List.getElem?_drop]
  have hlength : 4 ≤ (bytes.drop i).length := by
    rw [List.length_drop]
    omega
  show [bytes.toArray.getD (i + 0) 0, bytes.toArray.getD (i + 1) 0, bytes.toArray.getD (i + 2) 0,
    bytes.toArray.getD (i + 3) 0] = _
  rw [hget, hget, hget, hget]
  match bytes.drop i, hlength with
  | _ :: _ :: _ :: _ :: _, _ => rfl

/-- An index counts from the start of its axis or from the end, and not past either. -/
theorem bounds_of_axisIndex {axis size i : Nat} {k : Int} (h : axisIndex axis size k = .ok i) :
    -(size : Int) ≤ k ∧ k < size := by
  unfold axisIndex at h
  split at h
  · omega
  · split at h
    · omega
    · cases h

theorem checkIndex_of_lt {n size : Nat} (h : n < size) (hsize : size ≤ 2 ^ 63) : checkIndex n = .ok () := by
  have hfits : fitsWord n = true := by
    unfold fitsWord
    rw [Bool.and_eq_true, decide_eq_true_eq, decide_eq_true_eq]
    omega
  rw [checkIndex, if_pos hfits]

namespace Buffer

theorem rowIndex_natCast {b : Buffer} {y : Nat} (hy : y < b.height) : b.rowIndex y = .ok y := by
  unfold rowIndex axisIndex
  rw [if_pos (by omega), Int.toNat_natCast]
  rfl

theorem columnIndex_natCast {b : Buffer} {x : Nat} (hx : x < b.width) : b.columnIndex x = .ok x := by
  unfold columnIndex axisIndex
  rw [if_pos (by omega), Int.toNat_natCast]
  rfl

/-- The pixel of a column and of a row by its index, from either end. -/
theorem pixel_of_rowIndex {b : Buffer} {x row : Nat} {y : Int} (hx : x < b.width) (hw : b.width ≤ 2 ^ 63)
    (hc : checkIndex y = .ok ()) (hrow : b.rowIndex y = .ok row) : b.pixel x y = .ok (b.pixelAt x row) := by
  unfold pixel
  rw [hc, checkIndex_of_lt hx hw, hrow, columnIndex_natCast hx]
  rfl

theorem pixel_natCast {b : Buffer} {x y : Nat} (hx : x < b.width) (hy : y < b.height) (hw : b.width ≤ 2 ^ 63)
    (hh : b.height ≤ 2 ^ 63) : b.pixel x y = .ok (b.pixelAt x y) :=
  pixel_of_rowIndex hx hw (checkIndex_of_lt hy hh) (rowIndex_natCast hy)

theorem index_lt {x y w h : Nat} (hx : x < w) (hy : y < h) : y * w + x < w * h := by
  calc y * w + x < y * w + w := Nat.add_lt_add_left hx _
    _ = (y + 1) * w := (Nat.succ_mul y w).symm
    _ ≤ h * w := Nat.mul_le_mul_right w hy
    _ = w * h := Nat.mul_comm h w

theorem ofPicture_congr {p q : Picture} (hw : p.width = q.width) (hh : p.height = q.height)
    (hcolours : p.rgba = q.rgba) : ofPicture p = ofPicture q := by
  unfold ofPicture
  simp only [hw, hh, hcolours]

end Buffer

end RasterSketch
