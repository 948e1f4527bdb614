import RasterSketch.Proofs.Density
/-!
# Coarser grids

A larger image or a larger stride makes a grid coarser, a larger bound makes it finer, and on one canvas a coarser grid
has larger cells and fewer of them (`Grid.compute_monotone`).  Each operation on the way is rounded, but rounding keeps
the order of what is rounded, and so does a cut to a whole number: the fields of two grids are compared one by one, each
through the fields that it is made of.
-/
namespace RasterSketch

open Magnitude

namespace Grid

/-- A grid of an image that is no coarser than another: its strides and cells are no larger, and its cells no fewer. -/
structure NoCoarser (w h : Int) (g g' : Grid) : Prop where
  step_le : g.step ≤ g'.step
  cellSize_le : g.cellSize ≤ g'.cellSize
  cells_ge : ∃ n n', countCells w h g.step = .ok n ∧ countCells w h g'.step = .ok n' ∧ n' ≤ n

variable {w w' h h' base base' bound bound' : Int} {g g' : Grid} {s s' : Magnitude}

/-! ## Field by field -/

/-- A larger image in a smaller square is scaled to less. -/
theorem RoundedFrom.scale_le (hf : g.RoundedFrom w h base bound s) (hf' : g'.RoundedFrom w' h' base' bound' s')
    (hb : 1 ≤ bound) (hlonger : 0 < max w h) (hle : max w h ≤ max w' h') (hbound : bound' ≤ bound) :
    s'.value ≤ s.value := by
  have hb' : (0 : ℚ) ≤ bound := by exact_mod_cast (by omega : 0 ≤ bound)
  refine hf'.scale.mono hf.scale (div_le_div₀ hb' ?_ ?_ ?_)
  · exact_mod_cast hbound
  · exact_mod_cast hlonger
  · exact_mod_cast hle

/-- A smaller scale turns a stride of the canvas into a larger one of the image. -/
theorem RoundedFrom.step_le (hf : g.RoundedFrom w h base bound s) (hf' : g'.RoundedFrom w' h' base' bound' s')
    (hs' : 0 < s'.value) (hs : s'.value ≤ s.value) (hb : 1 ≤ base) (hbase : base ≤ base') : g.step ≤ g'.step := by
  obtain ⟨m, hm, hstep⟩ := hf.step
  obtain ⟨m', hm', hstep'⟩ := hf'.step
  have hb' : (0 : ℚ) ≤ base' := by exact_mod_cast (by omega : 0 ≤ base')
  have hshare : base / s.value ≤ base' / s'.value := div_le_div₀ hb' (by exact_mod_cast hbase) hs' hs
  rw [hstep, hstep']
  exact max_le_max_left 1 (Int.floor_le_floor (hm.mono hm' hshare))

/-- At one scale a larger stride makes larger cells. -/
theorem RoundedFrom.cellSize_le (hf : g.RoundedFrom w h base bound s) (hf' : g'.RoundedFrom w' h' base' bound' s)
    (hstep : g.step ≤ g'.step) : g.cellSize ≤ g'.cellSize := by
  obtain ⟨z, m, hz, hm, hcell⟩ := hf.cellSize
  obtain ⟨z', m', hz', hm', hcell'⟩ := hf'.cellSize
  have hdouble : z.value ≤ z'.value := hz.mono hz' (by exact_mod_cast hstep)
  rw [hcell, hcell']
  exact Int.ceil_le_ceil (hm.mono hm' (mul_le_mul_of_nonneg_right hdouble s.value_nonneg))

/-- **A larger stride leaves no more cells of an image.** -/
theorem countCells_anti {step step' : Int} (hw : 0 ≤ w) (hw' : w < 2 ^ 53) (hh : 0 ≤ h) (hh' : h < 2 ^ 53)
    (hs : 1 ≤ step) (hle : step ≤ step') (hs' : step' < 2 ^ 1024) :
    ∃ n n', countCells w h step = .ok n ∧ countCells w h step' = .ok n' ∧ n' ≤ n := by
  refine ⟨_, _, countCells_eq hw hw' hh hh' hs (hle.trans_lt hs'), countCells_eq hw hw' hh hh' (hs.trans hle) hs', ?_⟩
  have hpos : (0 : ℚ) < step := by exact_mod_cast hs
  have hle' : (step : ℚ) ≤ step' := by exact_mod_cast hle
  have hside : ∀ n : Int, 0 ≤ n → ⌈(n : ℚ) / step'⌉ ≤ ⌈(n : ℚ) / step⌉ ∧ 0 ≤ ⌈(n : ℚ) / step'⌉ := by
    intro n hn
    have hn' : (0 : ℚ) ≤ n := by exact_mod_cast hn
    exact ⟨Int.ceil_le_ceil (div_le_div_of_nonneg_left hn' hpos hle'),
      Int.ceil_nonneg (div_nonneg hn' (hpos.le.trans hle'))⟩
  obtain ⟨hrows, hrows0⟩ := hside h hh
  obtain ⟨hcolumns, hcolumns0⟩ := hside w hw
  exact mul_le_mul hrows hcolumns hcolumns0 (hrows0.trans hrows)

/-! ## Whole grids -/

/-- **On one canvas the grid of a smaller stride is no coarser.** -/
theorem exists_noCoarser (hw : IsSize w) (hh : IsSize h) (hb : IsSize base) (hb' : IsSize base') (ht : IsSize bound)
    (hbase : base ≤ base') :
    ∃ g g', compute w h base bound = .ok g ∧ compute w h base' bound = .ok g' ∧ g.NoCoarser w h g' := by
  obtain ⟨g, s, hg, hf⟩ := exists_roundedFrom hw hh hb ht
  obtain ⟨g', s', hg', hf'⟩ := exists_roundedFrom hw hh hb' ht
  obtain rfl : s = s' := hf.scale.unique hf'.scale
  have hs0 : 0 < s.value := (two_zpow_pos _).trans_le (hf.scale_bounds hw hh ht).1
  have hstep := hf.step_le hf' hs0 le_rfl hb.1 hbase
  exact ⟨g, g', hg, hg', hstep, hf.cellSize_le hf' hstep,
    countCells_anti (by linarith [hw.1]) hw.2 (by linarith [hh.1]) hh.2 hf.step_pos hstep (step_bounds hg').2⟩

/-- **A stride grows with the image and with the stride of the canvas, and shrinks with the bound**; on one canvas the
grid of a smaller stride is no coarser, and so the legacy grid of an image is no coarser than that of any style. -/
theorem compute_monotone (w w' h h' base base' bound bound' : Int) (hw : IsSize w) (hw' : IsSize w') (hh : IsSize h)
    (hh' : IsSize h') (hb : IsSize base) (hb' : IsSize base') (ht : IsSize bound) (ht' : IsSize bound')
    (hwidth : w ≤ w') (hheight : h ≤ h') (hbase : base ≤ base') (hbound : bound' ≤ bound) :
    (∃ g g', compute w h base bound = .ok g ∧ compute w' h' base' bound' = .ok g' ∧ g.step ≤ g'.step) ∧
      (∃ g g', compute w h base bound = .ok g ∧ compute w h base' bound = .ok g' ∧ g.NoCoarser w h g') ∧
      ∀ style : Style, ∃ g g', compute w h StyleConfig.legacy.baseStep bound = .ok g ∧
        compute w h style.config.baseStep bound = .ok g' ∧ g.NoCoarser w h g' := by
  refine ⟨?_, exists_noCoarser hw hh hb hb' ht hbase, fun style => ?_⟩
  · obtain ⟨g, s, hg, hf⟩ := exists_roundedFrom hw hh hb ht
    obtain ⟨g', s', hg', hf'⟩ := exists_roundedFrom hw' hh' hb' ht'
    have hs0 : 0 < s'.value := (two_zpow_pos _).trans_le (hf'.scale_bounds hw' hh' ht').1
    have hlonger : 0 < max w h := by exact_mod_cast (hw.max hh).pos
    have hs := hf.scale_le hf' ht.1 hlonger (max_le_max hwidth hheight) hbound
    exact ⟨g, g', hg, hg', hf.step_le hf' hs0 hs hb.1 hbase⟩
  · exact exists_noCoarser hw hh (by decide : IsSize 4) (by decide : IsSize 8) ht (by decide : (4 : Int) ≤ 8)

/-- A wide image, and a higher one in a smaller square with a larger stride. -/
theorem wide_and_high : IsSize 97 ∧ IsSize 97 ∧ IsSize 31 ∧ IsSize 4650 ∧ IsSize 3 ∧ IsSize 8 ∧ IsSize targetMax ∧
    IsSize 91 ∧ (97 : Int) ≤ 97 ∧ (31 : Int) ≤ 4650 ∧ (3 : Int) ≤ 8 ∧ 91 ≤ targetMax ∧
    (∃ g g', compute 97 31 3 targetMax = .ok g ∧ compute 97 4650 8 91 = .ok g' ∧ g.step ≤ g'.step) ∧
      (∃ g g', compute 97 31 3 targetMax = .ok g ∧ compute 97 31 8 targetMax = .ok g' ∧ g.NoCoarser 97 31 g') ∧
      ∀ style : Style, ∃ g g', compute 97 31 StyleConfig.legacy.baseStep targetMax = .ok g ∧
        compute 97 31 style.config.baseStep targetMax = .ok g' ∧ g.NoCoarser 97 31 g' :=
  ⟨by decide, by decide, by decide, by decide, by decide, by decide, by decide, by decide, by decide, by decide,
    by decide, by decide, compute_monotone 97 97 31 4650 3 8 targetMax 91 (by decide) (by decide) (by decide)
      (by decide) (by decide) (by decide) (by decide) (by decide) (by decide) (by decide) (by decide) (by decide)⟩

end Grid
end RasterSketch
