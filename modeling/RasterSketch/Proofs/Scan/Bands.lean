import RasterSketch.Proofs.Drawing
/-!
# Scans in bands

The bands of a buffer hold what its scan gives, and fail as the scan does (`Buffer.bands_follow`).  Where the scan fails
midway, the bands before the one with the failing row are handed out, and what the scan gave of that band is lost.
-/
namespace RasterSketch
namespace Scan

variable {b : Buffer} {step perBand : Nat} {scale : Number}

/-! ## Single bands -/

theorem getElem?_upTo {first : Int} {rows j : Nat} (h : (upTo perBand 0 rows)[j]? = some first) :
    j < cells rows perBand ∧ first = ((j * perBand : Nat) : Int) := by
  unfold upTo at h
  rw [Int.sub_zero, Int.toNat_natCast, List.getElem?_map] at h
  obtain ⟨k, hk, rfl⟩ := Option.map_eq_some_iff.1 h
  obtain ⟨hj, rfl⟩ := List.getElem?_eq_some_iff.1 hk
  rw [List.length_range] at hj
  refine ⟨hj, ?_⟩
  rw [List.getElem_range]
  push_cast
  ring

theorem length_samples_bandAt {first : Nat} {band : Band} (h : bandAt b step scale perBand first = .ok band) :
    band.samples.length = min perBand (cells b.height step - first) * cells b.width step := by
  have hmap := samples_bandAt b step scale perBand first
  rw [h] at hmap
  rw [(mapM_eq_ok.1 hmap.symm).2, List.length_map, length_bandPoints]

theorem getElem?_gridPoints {columns step rows i : Nat} {p : Nat × Int} (hc : 0 < columns)
    (h : (gridPoints columns step 0 rows)[i]? = some p) :
    i / columns < rows ∧ p = (i % columns * step, ((i / columns * step : Nat) : Int)) := by
  have hi : i < rows * columns := by
    rw [← length_gridPoints columns step 0 rows]
    exact (List.getElem?_eq_some_iff.1 h).1
  have hrow : i / columns < rows := (Nat.div_lt_iff_lt_mul hc).2 hi
  have hplace : columns * (i / columns) + i % columns = i := Nat.div_add_mod i columns
  have hcolumn : i - i / columns * columns = i % columns := by rw [Nat.mul_comm]; omega
  have hlt : i % columns < columns := Nat.mod_lt _ hc
  have hsplit : rows = i / columns + (1 + (rows - (i / columns + 1))) := by omega
  refine ⟨hrow, ?_⟩
  rw [hsplit, gridPoints_add, gridPoints_add, Nat.zero_add,
    List.getElem?_append_right (by rw [length_gridPoints, Nat.mul_comm]; omega), length_gridPoints, hcolumn,
    List.getElem?_append_left (by rw [length_gridPoints, Nat.one_mul]; exact hlt)] at h
  unfold gridPoints rowPoints at h
  simp only [List.range'_one, List.flatMap_cons, List.flatMap_nil, List.append_nil, List.getElem?_map,
    List.getElem?_range hlt] at h
  exact (Option.some.inj h).symm

end Scan

namespace Buffer

/-- The rows of the grid of a buffer. -/
def gridRows (b : Buffer) (step : Int) : Nat := ⌈(b.height : ℚ) / step⌉₊

def gridColumns (b : Buffer) (step : Int) : Nat := ⌈(b.width : ℚ) / step⌉₊

/-- How bands of so many rows follow a scan.  If it runs to its end so do they, and hold its samples: each band those of
its rows, the last one of the rows that are left.  If it fails they fail with it, behind the bands that lie before the
row in which it does. -/
structure BandsFollow (b : Buffer) (step : Int) (scale : Number) (perBand : Int) : Prop where
  ofEnd : (b.scan step scale 0).failure = none →
    (b.bands step scale perBand).failure = none ∧
      (b.bands step scale perBand).items.flatMap (·.samples) = (b.scan step scale 0).items ∧
      (b.isEmpty = false → (b.bands step scale perBand).items.map (·.samples.length) =
        (List.range ⌈(b.gridRows step : ℚ) / perBand⌉₊).map fun j =>
          min perBand.toNat (b.gridRows step - j * perBand.toNat) * b.gridColumns step)
  ofFailure : b.isEmpty = false → ∀ e, (b.scan step scale 0).failure = some e →
    (b.bands step scale perBand).failure = some e ∧
      ∃ row < b.gridRows step, ∃ column < b.gridColumns step,
        Scan.samplePoint b scale (column * step.toNat, row * step) = .error e ∧
        (b.scan step scale 0).items.length = row * b.gridColumns step + column ∧
        (b.bands step scale perBand).items.length = row / perBand.toNat ∧
        (b.bands step scale perBand).items.flatMap (·.samples) =
          (b.scan step scale 0).items.take (row / perBand.toNat * perBand.toNat * b.gridColumns step)

section

variable {b : Buffer} {step perBand : Nat} {scale : Number}

theorem gridRows_eq (hs : 0 < step) : b.gridRows step = Scan.cells b.height step := (Scan.cells_eq_ceil hs).symm

theorem gridColumns_eq (hs : 0 < step) : b.gridColumns step = Scan.cells b.width step := (Scan.cells_eq_ceil hs).symm

/-- The scan is the walk through the points of the bands. -/
theorem scan_eq_flatMap (hs : 0 < step) (hw : 0 < b.width) (hp : 0 < perBand) :
    b.scan step scale 0 = .traverse (Scan.samplePoint b scale)
      ((Scan.upTo perBand 0 (b.gridRows step : Nat)).flatMap
        (Scan.bandPoints (b.gridColumns step) step (b.gridRows step) perBand)) := by
  have hpoints := Scan.gridPoints_eq_flatMap (b.gridColumns step) step (b.gridRows step) hp 0
  rw [gridRows_eq hs, gridColumns_eq hs] at hpoints ⊢
  have hscan := Scan.scan_eq b hs hw scale 0
  rw [hpoints] at hscan
  exact hscan

/-- The bands of a buffer that is not empty, with the number of rows that is named. -/
def WalksBands (b : Buffer) (step : Nat) (scale : Number) (perBand : Nat) : Prop :=
  b.bands step scale perBand =
    .traverse (Scan.bandAt b step scale perBand) (Scan.upTo perBand 0 (b.gridRows step : Nat))

theorem length_samples_item (hs : 0 < step) (hbands : b.WalksBands step scale perBand) {j : Nat} {band : Band}
    (h : (b.bands step scale perBand).items[j]? = some band) :
    band.samples.length = min perBand (b.gridRows step - j * perBand) * b.gridColumns step := by
  rw [hbands] at h
  obtain ⟨first, hfirst, hband⟩ := Delivery.getElem?_items h
  obtain ⟨-, rfl⟩ := Scan.getElem?_upTo hfirst
  rw [gridRows_eq hs, gridColumns_eq hs]
  exact Scan.length_samples_bandAt hband

theorem map_length_items (hs : 0 < step) (hp : 0 < perBand) (hbands : b.WalksBands step scale perBand)
    (hend : (b.bands step scale perBand).failure = none) :
    (b.bands step scale perBand).items.map (·.samples.length) =
      (List.range ⌈(b.gridRows step : ℚ) / perBand⌉₊).map fun j =>
        min perBand (b.gridRows step - j * perBand) * b.gridColumns step := by
  have hlength : (b.bands step scale perBand).items.length = Scan.cells (b.gridRows step) perBand := by
    rw [hbands] at hend ⊢
    rw [Delivery.length_items hend, Scan.upTo, List.length_map, List.length_range, Int.sub_zero, Int.toNat_natCast]
  rw [← Scan.cells_eq_ceil hp]
  refine List.ext_getElem (by rw [List.length_map, List.length_map, List.length_range, hlength]) fun j hj hj' => ?_
  rw [List.getElem_map, List.getElem_map, List.getElem_range]
  rw [List.length_map] at hj
  exact length_samples_item hs hbands (List.getElem?_eq_getElem hj)

theorem length_flatMap_items (hs : 0 < step) (hbands : b.WalksBands step scale perBand)
    (hk : (b.bands step scale perBand).items.length * perBand < b.gridRows step) :
    ((b.bands step scale perBand).items.flatMap (·.samples)).length =
      (b.bands step scale perBand).items.length * perBand * b.gridColumns step := by
  have hfull : (b.bands step scale perBand).items.map (·.samples.length) =
      List.replicate (b.bands step scale perBand).items.length (perBand * b.gridColumns step) := by
    refine List.eq_replicate_iff.2 ⟨List.length_map _, fun n hn => ?_⟩
    obtain ⟨band, hband, rfl⟩ := List.mem_map.1 hn
    obtain ⟨j, hj, rfl⟩ := List.mem_iff_getElem.1 hband
    have hnext : (j + 1) * perBand ≤ (b.bands step scale perBand).items.length * perBand := Nat.mul_le_mul_right _ hj
    rw [Nat.add_mul, Nat.one_mul] at hnext
    rw [length_samples_item hs hbands (List.getElem?_eq_getElem hj), Nat.min_eq_left (by omega)]
  rw [List.length_flatMap, hfull, List.sum_replicate_nat, Nat.mul_assoc]

/-- A scan that fails does so at a point of the grid, behind the samples of the points before. -/
theorem exists_point_of_failure (hs : 0 < step) (hw : 0 < b.width) {e : Error}
    (hfail : (b.scan step scale 0).failure = some e) :
    ∃ row < b.gridRows step, ∃ column < b.gridColumns step,
      Scan.samplePoint b scale (column * step, ((row * step : Nat) : Int)) = .error e ∧
      (b.scan step scale 0).items.length = row * b.gridColumns step + column := by
  have hC : 0 < b.gridColumns step := by
    rw [gridColumns_eq hs, Scan.lt_cells_iff hs, Nat.zero_mul]
    exact hw
  have hscan := Scan.scan_eq b hs hw scale 0
  rw [Nat.sub_zero, ← gridRows_eq hs, ← gridColumns_eq hs, Int.natCast_zero] at hscan
  rw [hscan] at hfail ⊢
  obtain ⟨point, hpoint, hbad⟩ := Delivery.exists_of_failure hfail
  obtain ⟨hrow, rfl⟩ := Scan.getElem?_gridPoints hC hpoint
  exact ⟨_, hrow, _, Nat.mod_lt _ hC, hbad, (Nat.div_add_mod' _ _).symm⟩

/-- The band of a row, by the samples before the row is through: those of whole bands, and of a part of one. -/
theorem band_of_row {columns row column bands part : Nat} (hc : column < columns) (hpart : part < perBand * columns)
    (h : row * columns + column = bands * perBand * columns + part) : row / perBand = bands := by
  have hlow : bands * perBand * columns < (row + 1) * columns := by
    rw [Nat.add_mul, Nat.one_mul]
    omega
  have hhigh : row * columns < (bands + 1) * perBand * columns := by
    rw [Nat.add_mul, Nat.one_mul, Nat.add_mul]
    omega
  exact Nat.div_eq_of_lt_le (Nat.le_of_lt_succ (Nat.lt_of_mul_lt_mul_right hlow)) (Nat.lt_of_mul_lt_mul_right hhigh)

/-- Where a scan fails: its items are the samples of the points before, and the bands before that of the point are full. -/
theorem bands_of_failure (hs : 0 < step) (hw : 0 < b.width) (hp : 0 < perBand)
    (hbands : b.WalksBands step scale perBand) {e : Error} (hfail : (b.scan step scale 0).failure = some e) :
    (b.bands step scale perBand).failure = some e ∧
      ∃ row < b.gridRows step, ∃ column < b.gridColumns step,
        Scan.samplePoint b scale (column * step, ((row * step : Nat) : Int)) = .error e ∧
        (b.scan step scale 0).items.length = row * b.gridColumns step + column ∧
        (b.bands step scale perBand).items.length = row / perBand ∧
        (b.bands step scale perBand).items.flatMap (·.samples) =
          (b.scan step scale 0).items.take (row / perBand * perBand * b.gridColumns step) := by
  have hgroup : ∀ first, Band.samples <$> Scan.bandAt b step scale perBand first =
      (Scan.bandPoints (b.gridColumns step) step (b.gridRows step) perBand first).mapM (Scan.samplePoint b scale) := by
    rw [gridRows_eq hs, gridColumns_eq hs]
    exact Scan.samples_bandAt b step scale perBand
  obtain ⟨hfailure, part, hitems, -, hpart⟩ := Delivery.traverse_flatMap hgroup
    (Scan.upTo perBand 0 (b.gridRows step : Nat))
  rw [← scan_eq_flatMap hs hw hp, ← hbands] at hfailure hitems
  rw [← hbands] at hpart
  refine ⟨hfailure.symm.trans hfail, ?_⟩
  -- the band that fails begins with a row of the grid, and what was scanned of it is less than a band
  obtain ⟨first, hfirst, hlt⟩ := hpart e (hfailure.symm.trans hfail)
  obtain ⟨hk, rfl⟩ := Scan.getElem?_upTo hfirst
  rw [Scan.lt_cells_iff hp] at hk
  rw [Scan.length_bandPoints] at hlt
  have hfull := length_flatMap_items hs hbands hk
  have hlength : (b.scan step scale 0).items.length =
      (b.bands step scale perBand).items.length * perBand * b.gridColumns step + part.length := by
    rw [hitems, List.length_append, hfull]
  have hbound : part.length < perBand * b.gridColumns step :=
    hlt.trans_le (Nat.mul_le_mul_right _ (Nat.min_le_left _ _))
  obtain ⟨row, hrow, column, hcolumn, hbad, hplace⟩ := exists_point_of_failure hs hw hfail
  have hband : row / perBand = (b.bands step scale perBand).items.length :=
    band_of_row hcolumn hbound (hplace.symm.trans hlength)
  refine ⟨row, hrow, column, hcolumn, hbad, hplace, hband.symm, ?_⟩
  rw [hband, hitems, List.take_left' hfull]

theorem items_rowsFrom_of_no_columns (hs : 0 < step) (hw : b.width = 0) (y : Int) :
    (Scan.rowsFrom b step hs scale y).items = [] := by
  rw [Scan.rowsFrom]
  split
  · rw [Delivery.items_append, items_rowsFrom_of_no_columns hs hw (y + step), Scan.row, hw, Scan.cells_zero hs]
    cases Scan.rowAt b scale y <;> rfl
  · rfl
termination_by (b.height - y).toNat

theorem items_scan_of_isEmpty (hs : 0 < step) (he : b.isEmpty = true) : (b.scan step scale 0).items = [] := by
  unfold scan
  rw [dif_neg (by omega)]
  rcases isEmpty_eq_true.1 he with hw | hh
  · exact items_rowsFrom_of_no_columns _ hw _
  · rw [Scan.rowsFrom, if_neg (by omega)]
    rfl

end

/-- **The bands of a buffer are its scan**, cut behind every so many rows, and fail as the scan does. -/
theorem bands_follow (b : Buffer) (step : Int) (scale : Number) (perBand : Int) (hw : b.width < 2 ^ 53)
    (hh : b.height < 2 ^ 53) (hs : 1 ≤ step) (hs' : step < 2 ^ 1024) (hp : 1 ≤ perBand) :
    b.BandsFollow step scale perBand := by
  obtain ⟨step, rfl⟩ := Int.eq_ofNat_of_zero_le (by omega : 0 ≤ step)
  obtain ⟨perBand, rfl⟩ := Int.eq_ofNat_of_zero_le (by omega : 0 ≤ perBand)
  have hstep : 0 < step := by omega
  have hperBand : 0 < perBand := by omega
  cases he : b.isEmpty with
  | true =>
    have hbands : b.bands step scale perBand = .finished := by
      unfold bands
      rw [if_neg (by omega), dif_neg (by omega), he]
      rfl
    refine ⟨fun _ => ?_, fun h => absurd (he.symm.trans h) (by decide)⟩
    rw [hbands, items_scan_of_isEmpty hstep he]
    exact ⟨rfl, rfl, fun h => absurd (he.symm.trans h) (by decide)⟩
  | false =>
    obtain ⟨hw0, hh0⟩ := isEmpty_eq_false.1 he
    have hbands : b.WalksBands step scale perBand := by
      unfold WalksBands
      rw [gridRows_eq hstep]
      exact bands_eq b hstep (by exact_mod_cast hs') hw0 hw hh0 hh scale hperBand
    refine ⟨fun hend => ?_, fun _ e hfail => ?_⟩
    · obtain ⟨hfailure, part, hitems, hpart, -⟩ := Delivery.traverse_flatMap
        (Scan.samples_bandAt b step scale perBand) (Scan.upTo perBand 0 (b.gridRows step : Nat))
      rw [← gridRows_eq hstep, ← gridColumns_eq hstep, ← scan_eq_flatMap hstep hw0 hperBand, ← hbands]
        at hfailure hitems
      rw [← hbands] at hpart
      have hnone := hfailure.symm.trans hend
      rw [hitems, hpart hnone, List.append_nil]
      exact ⟨hnone, rfl, fun _ => map_length_items hstep hperBand hbands hnone⟩
    · exact_mod_cast bands_of_failure hstep hw0 hperBand hbands hfail

/-- A scan that fails midway: twice the scale is past the largest double. -/
theorem threeByTwo_bands_follow :
    threeByTwo.width < 2 ^ 53 ∧ threeByTwo.height < 2 ^ 53 ∧ (1 : Int) ≤ 1 ∧ (1 : Int) < 2 ^ 1024 ∧ (1 : Int) ≤ 1 ∧
      (threeByTwo.scan 1 (.real (.ofRatio false (twoTo 1023) 1)) 0).failure.isSome = true ∧
      threeByTwo.BandsFollow 1 (.real (.ofRatio false (twoTo 1023) 1)) 1 := by
  have hstep : (1 : Int) < 2 ^ 1024 := one_lt_pow₀ (by decide) (by decide)
  exact ⟨by decide, by decide, by decide, hstep, by decide, by decide +kernel,
    bands_follow _ _ _ _ (by decide) (by decide) (by decide) hstep (by decide)⟩

end Buffer
end RasterSketch
