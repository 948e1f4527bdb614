import RasterSketch.Proofs.Density
import RasterSketch.Proofs.Number.Between
import RasterSketch.Proofs.Scan.Bands
/-!
# Samples counted beforehand

The cells of an image are counted without a scan, as the product of two ceilings of rounded quotients.  A scan that runs
to its end has just that many samples, for every stride that a double can be and at every scale, and at the scale of one
it does run to its end (`Grid.countCells_predicts`).
-/
namespace RasterSketch

namespace Buffer

variable {b : Buffer} {step : Nat} {scale : Number}

/-- **A scan that runs to its end has a sample for each column of each row** from its first row on. -/
theorem length_scan (hs : 0 < step) (first : Nat) {samples : List Sample}
    (h : (b.scan step scale first).toList = .ok samples) :
    samples.length = (Scan.cells b.height step - first) * Scan.cells b.width step := by
  rcases Nat.eq_zero_or_pos b.width with hw | hw
  · -- the rows of a buffer without columns have no points to walk over
    unfold scan at h
    rw [dif_neg (by omega), Delivery.toList_eq_ok, items_rowsFrom_of_no_columns (by omega) hw] at h
    rw [← h.2, hw, Scan.cells_zero hs]
    rfl
  · rw [Scan.scan_eq b hs hw, Delivery.toList_traverse] at h
    rw [(mapM_eq_ok.1 h).2, List.length_map, Scan.length_gridPoints]

theorem hasProduct_one {c : Int} (h0 : 0 ≤ c) (hc : c < 2 ^ 53) : Scan.HasProduct (.real 1.0) c := by
  have hone : Double.Between 1 1 (1.0 : Double) := Double.between_literal (by decide) (by decide) (by decide)
  obtain ⟨y, hy, hbetween⟩ := hone.scale (c := 0) (d := 2 ^ 53 - 1) h0 (by omega) (by decide) (by decide)
  exact ⟨.real y, by rw [Number.scale, hy]; rfl, hbetween.isFinite⟩

/-- At the scale of one a scan runs to its end. -/
theorem exists_scan_one (hs : 0 < step) (hw : b.width < 2 ^ 53) (hh : b.height < 2 ^ 53) :
    ∃ samples, (b.scan step (.real 1.0) 0).toList = .ok samples := by
  have hvisits : ∀ c, b.Visits step (0 : Nat) c → Scan.HasProduct (.real 1.0) c := by
    rintro c ⟨gy, -, hy, rfl | ⟨gx, hx, rfl⟩⟩
    · exact hasProduct_one (by positivity) (by omega)
    · exact hasProduct_one (by positivity) (by omega)
  obtain ⟨samples, hsamples, -⟩ := toList_scan_cells hs (by omega) (by omega) hvisits
  exact ⟨samples, hsamples⟩

end Buffer

namespace Grid

/-- **The cells of an image are counted exactly, and a scan has a sample for each of them**: a scan at the scale of one,
which runs to its end, and every other scan that does. -/
theorem countCells_predicts (w h step : Int) (hw : 0 ≤ w) (hw' : w < 2 ^ 53) (hh : 0 ≤ h) (hh' : h < 2 ^ 53)
    (hs : 1 ≤ step) (hs' : step < 2 ^ 1024) :
    countCells w h step = .ok (⌈(h : ℚ) / step⌉ * ⌈(w : ℚ) / step⌉) ∧
      ∀ b : Buffer, b.width = w → b.height = h →
        (∃ samples, (b.scan step (.real 1.0) 0).toList = .ok samples) ∧
        ∀ scale samples, (b.scan step scale 0).toList = .ok samples →
          countCells w h step = .ok samples.length := by
  have hcount := countCells_eq hw hw' hh hh' hs hs'
  refine ⟨hcount, ?_⟩
  rintro b rfl rfl
  obtain ⟨step, rfl⟩ := Int.eq_ofNat_of_zero_le (by omega : 0 ≤ step)
  have hpos : 0 < step := by omega
  refine ⟨Buffer.exists_scan_one hpos (by exact_mod_cast hw') (by exact_mod_cast hh'), fun scale samples h => ?_⟩
  have hceil : ∀ n : Nat, ⌈((n : Int) : ℚ) / (step : Int)⌉ = Scan.cells n step := fun n => by
    rw [Int.cast_natCast, Int.cast_natCast, Scan.cells_eq_ceil hpos, Int.natCast_ceil_eq_ceil (by positivity)]
  rw [hcount, hceil, hceil, Buffer.length_scan hpos 0 h, Nat.sub_zero, Nat.cast_mul]

/-- A stride so large that the quotients are less than the least normal double. -/
theorem threeByTwo_in_one_cell : (0 : Int) ≤ 3 ∧ (3 : Int) < 2 ^ 53 ∧ (0 : Int) ≤ 2 ∧ (2 : Int) < 2 ^ 53 ∧
    (1 : Int) ≤ 2 ^ 1024 - 1 ∧ (2 : Int) ^ 1024 - 1 < 2 ^ 1024 ∧
    countCells 3 2 (2 ^ 1024 - 1) =
      .ok (⌈((2 : Int) : ℚ) / (2 ^ 1024 - 1 : Int)⌉ * ⌈((3 : Int) : ℚ) / (2 ^ 1024 - 1 : Int)⌉) ∧
    ∃ samples, (Buffer.threeByTwo.scan (2 ^ 1024 - 1) (.real 1.0) 0).toList = .ok samples ∧
      countCells 3 2 (2 ^ 1024 - 1) = .ok samples.length := by
  have hstep : (1 : Int) < 2 ^ 1024 := one_lt_pow₀ (by decide) (by decide)
  obtain ⟨hcount, hscans⟩ := countCells_predicts 3 2 (2 ^ 1024 - 1) (by decide) (by decide) (by decide) (by decide)
    (by omega) (by omega)
  obtain ⟨⟨samples, hsamples⟩, hlength⟩ := hscans Buffer.threeByTwo rfl rfl
  exact ⟨by decide, by decide, by decide, by decide, by omega, by omega, hcount, samples, hsamples,
    hlength _ _ hsamples⟩

end Grid
end RasterSketch
