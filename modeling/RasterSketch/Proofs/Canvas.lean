import RasterSketch.Proofs.Fields
/-!
# Images on the canvas

An image fills the square that it is fitted into but for a pixel, and keeps its shape but for a pixel
(`Grid.compute_fits_canvas`).  The longer side comes to lie within half a pixel of the bound before it is cut, for one
rounding of a bound below `2 ^ 50` is less than that.
-/
namespace RasterSketch

open Magnitude

namespace Grid

/-- A canvas no side of which exceeds the bound, whose longer side comes short of it by a pixel at most, and whose sides
are less than a pixel away from those of the image at the scale. -/
structure FitsCanvas (w h bound : Int) (g : Grid) : Prop where
  step_pos : 1 ≤ g.step
  cellSize_pos : 1 ≤ g.cellSize
  scale_finite : g.scale.isFinite = true
  scaledWidth_range : 0 ≤ g.scaledWidth ∧ g.scaledWidth ≤ bound
  scaledHeight_range : 0 ≤ g.scaledHeight ∧ g.scaledHeight ≤ bound
  reaches : bound - 1 ≤ max g.scaledWidth g.scaledHeight
  width_near : |(g.scaledWidth : ℚ) - w * g.scale.value| < 1
  height_near : |(g.scaledHeight : ℚ) - h * g.scale.value| < 1

variable {w h base bound n : Int} {g : Grid} {s m : Magnitude}

/-- The longer side at the scale is within half a pixel of the bound. -/
theorem abs_longer_sub_le (hb : IsSize bound) (hb' : bound < 2 ^ 50) (hn : IsSize n) (hr : Rounds (bound / n) s) :
    |n * s.value - bound| ≤ 1 / 2 := by
  have hside := ((Nearly.refl hn.pos).mul (scale_nearly hb hn hr)).abs_sub_le (by decide)
  rw [mul_div_cancel₀ _ hn.pos.ne'] at hside
  have hlt : (bound : ℚ) ≤ 2 ^ 50 := by exact_mod_cast hb'.le
  calc |n * s.value - bound| ≤ bound * 2 ^ (-51 : ℤ) := hside
    _ ≤ 2 ^ 50 * 2 ^ (-51 : ℤ) := mul_le_mul_of_nonneg_right hlt (two_zpow_pos _).le
    _ = 1 / 2 := by norm_num

theorem floor_side_le (hb : IsSize bound) (hb' : bound < 2 ^ 50) (hle : n * s.value ≤ bound + 1 / 2)
    (hr : Rounds (n * s.value) m) : ⌊m.value⌋ ≤ bound := by
  obtain ⟨hb1, -⟩ := hb
  have hhalf : IsValue ((bound : ℚ) + 1 / 2) := by
    have hv := isValue_half (n := 2 * bound + 1) (by omega) (by omega)
    rwa [Int.cast_add, Int.cast_mul, Int.cast_ofNat, Int.cast_one, add_div, mul_div_cancel_left₀ _ two_ne_zero] at hv
  have hm := hr.value_le hhalf hle
  have hlt : (⌊m.value⌋ : ℚ) < (bound + 1 : Int) := by
    push_cast
    linarith [Int.floor_le m.value]
  have : ⌊m.value⌋ < bound + 1 := by exact_mod_cast hlt
  omega

theorem abs_floor_side_lt (hb' : bound < 2 ^ 50) (hle : n * s.value ≤ bound + 1 / 2) (hr : Rounds (n * s.value) m) :
    |(⌊m.value⌋ : ℚ) - n * s.value| < 1 := by
  have hlt : (bound : ℚ) ≤ 2 ^ 50 := by exact_mod_cast hb'.le
  have hlimit : (n : ℚ) * s.value ≤ 2 ^ 52 := by linarith
  rw [abs_lt]
  exact ⟨by linarith [hr.lt_floor_add_one hlimit], by linarith [hr.floor_lt_add_one hlimit]⟩

theorem le_floor_longer (hb : IsSize bound) (hge : bound - 1 / 2 ≤ n * s.value) (hr : Rounds (n * s.value) m) :
    bound - 1 ≤ ⌊m.value⌋ := by
  obtain ⟨hb1, hb2⟩ := hb
  have hv : IsValue ((bound - 1 : Int) : ℚ) := isValue_intCast (by omega) (by omega)
  refine Int.le_floor.2 (hr.le_value hv ?_)
  push_cast
  linarith

theorem RoundedFrom.cellSize_pos (hf : g.RoundedFrom w h base bound s) (hs : (2 : ℚ) ^ (-53 : ℤ) ≤ s.value) :
    1 ≤ g.cellSize := by
  obtain ⟨z, m, hz, hm, hcell⟩ := hf.cellSize
  have hge := le_cell hf.step_pos hz hs
  have hpos : 0 < m.value := (two_zpow_pos _).trans_le (hm.le_value (isValue_two_zpow (by decide) (by decide)) hge)
  rw [hcell]
  exact Int.one_le_ceil_iff.2 hpos

/-- **An image fits the canvas, and its longer side fills it but for a pixel.** -/
theorem compute_fits_canvas (w h base bound : Int) (hw : IsSize w) (hh : IsSize h) (hb : IsSize base)
    (ht : 1 ≤ bound) (ht' : bound < 2 ^ 50) :
    ∃ g, compute w h base bound = .ok g ∧ g.FitsCanvas w h bound := by
  have hbound : IsSize bound := ⟨ht, ht'.trans (by decide)⟩
  obtain ⟨g, s, hg, hf⟩ := exists_roundedFrom hw hh hb hbound
  have hscale : g.scale.value = s.value := by rw [hf.scale_eq]; rfl
  have hlonger := abs_le.1 (abs_longer_sub_le hbound ht' (hw.max hh) hf.scale)
  have hside : ∀ n : Int, n ≤ max w h → n * s.value ≤ bound + 1 / 2 := fun n hn => by
    have : (n : ℚ) * s.value ≤ (max w h : Int) * s.value :=
      mul_le_mul_of_nonneg_right (by exact_mod_cast hn) s.value_nonneg
    linarith
  obtain ⟨mw, hrw, hwidth⟩ := hf.scaledWidth
  obtain ⟨mh, hrh, hheight⟩ := hf.scaledHeight
  have hreach : bound - 1 ≤ max g.scaledWidth g.scaledHeight := by
    rcases le_total w h with hle | hle
    · rw [max_eq_right hle] at hlonger
      rw [hheight]
      exact (le_floor_longer hbound (by linarith) hrh).trans (le_max_right _ _)
    · rw [max_eq_left hle] at hlonger
      rw [hwidth]
      exact (le_floor_longer hbound (by linarith) hrw).trans (le_max_left _ _)
  refine ⟨g, hg, hf.step_pos, hf.cellSize_pos (scale_bounds hbound (hw.max hh) hf.scale).1, ?_, ?_, ?_, hreach, ?_, ?_⟩
  · rw [hf.scale_eq]
    rfl
  · rw [hwidth]
    exact ⟨Int.floor_nonneg.2 mw.value_nonneg, floor_side_le hbound ht' (hside w (le_max_left _ _)) hrw⟩
  · rw [hheight]
    exact ⟨Int.floor_nonneg.2 mh.value_nonneg, floor_side_le hbound ht' (hside h (le_max_right _ _)) hrh⟩
  · rw [hwidth, hscale]
    exact abs_floor_side_lt ht' (hside w (le_max_left _ _)) hrw
  · rw [hheight, hscale]
    exact abs_floor_side_lt ht' (hside h (le_max_right _ _)) hrh

/-- A small image within the bound that is taken unless another is asked for. -/
theorem small_fits_canvas : IsSize 97 ∧ IsSize 31 ∧ IsSize 8 ∧ 1 ≤ targetMax ∧ targetMax < 2 ^ 50 ∧
    ∃ g, compute 97 31 8 targetMax = .ok g ∧ g.FitsCanvas 97 31 targetMax :=
  ⟨by decide, by decide, by decide, by decide, by decide,
    compute_fits_canvas 97 31 8 targetMax (by decide) (by decide) (by decide) (by decide) (by decide)⟩

end Grid
end RasterSketch
