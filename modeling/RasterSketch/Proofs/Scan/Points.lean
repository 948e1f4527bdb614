import Mathlib.Algebra.Order.Floor.Semiring
import Mathlib.Data.Rat.Floor
import Mathlib.Tactic.Ring
import RasterSketch.Proofs.Grid
import RasterSketch.Proofs.Raster.Pixels
import RasterSketch.Scan.Band
/-!
# Scans as lists of points

A scan is a walk over the points of its grid: the samples of a buffer that has columns are the images of the points
in row-major order (`scan_eq`), failures included.  A band is the same walk over the points of its rows, so that the
bands of a buffer are the images of their first rows (`bands_eq`); that their number and size are found through
rounded quotients makes no difference for a buffer of fewer than `2 ^ 53` rows and columns.
-/
namespace RasterSketch

theorem Buffer.isEmpty_eq_true {b : Buffer} : b.isEmpty = true ↔ b.width = 0 ∨ b.height = 0 := by
  rw [isEmpty, Bool.or_eq_true, beq_iff_eq, beq_iff_eq]

theorem Buffer.isEmpty_eq_false {b : Buffer} : b.isEmpty = false ↔ 0 < b.width ∧ 0 < b.height := by
  rw [← Bool.not_eq_true, isEmpty_eq_true, not_or, Nat.pos_iff_ne_zero, Nat.pos_iff_ne_zero]

namespace Scan

/-! ## Multiples -/

theorem cells_le_iff {size step k : Nat} (hs : 0 < step) : cells size step ≤ k ↔ size ≤ k * step := by
  unfold cells
  rw [Nat.div_le_iff_le_mul_add_pred hs, Nat.mul_comm]
  omega

theorem lt_cells_iff {size step k : Nat} (hs : 0 < step) : k < cells size step ↔ k * step < size := by
  rw [← Nat.not_le, cells_le_iff hs, Nat.not_le]

theorem cells_zero {step : Nat} (hs : 0 < step) : cells 0 step = 0 :=
  Nat.le_zero.1 ((cells_le_iff hs).2 (Nat.zero_le _))

/-- **The multiples below a size are as many as its quotient, rounded up.** -/
theorem cells_eq_ceil {size step : Nat} (hs : 0 < step) : cells size step = ⌈(size : ℚ) / step⌉₊ := by
  have hq : (0 : ℚ) < step := by exact_mod_cast hs
  refine eq_of_forall_ge_iff fun k => ?_
  rw [cells_le_iff hs, Nat.ceil_le, div_le_iff₀ hq]
  exact_mod_cast Iff.rfl

theorem cells_sub_mul {size step : Nat} (hs : 0 < step) (k : Nat) :
    cells (size - k * step) step = cells size step - k := by
  refine eq_of_forall_ge_iff fun n => ?_
  rw [cells_le_iff hs, Nat.sub_le_iff_le_add, Nat.sub_le_iff_le_add, cells_le_iff hs, Nat.add_mul]

theorem cells_of_pos {size step : Nat} (hs : 0 < step) (h : 0 < size) :
    cells size step = cells (size - step) step + 1 := by
  have h0 : 0 < cells size step := (lt_cells_iff hs).2 (by omega)
  have h1 : cells (size - 1 * step) step = cells size step - 1 := cells_sub_mul hs 1
  rw [Nat.one_mul] at h1
  omega

/-- `from`, `from + step` and so on, as far as they are below a limit. -/
def upTo (step : Nat) (start limit : Int) : List Int :=
  (List.range (cells (limit - start).toNat step)).map fun k : Nat => start + k * step

theorem upTo_of_lt {step : Nat} (hs : 0 < step) {start limit : Int} (h : start < limit) :
    upTo step start limit = start :: upTo step (start + step) limit := by
  unfold upTo
  have hsub : (limit - (start + step)).toNat = (limit - start).toNat - step := by omega
  rw [cells_of_pos hs (by omega : 0 < (limit - start).toNat), hsub, List.range_succ_eq_map, List.map_cons,
    List.map_map, Nat.cast_zero, Int.zero_mul, Int.add_zero]
  refine congrArg (start :: ·) (List.map_congr_left fun k _ => ?_)
  simp only [Function.comp_apply, Nat.succ_eq_add_one]
  push_cast
  ring

theorem upTo_of_le {step : Nat} {start limit : Int} (hs : 0 < step) (h : limit ≤ start) :
    upTo step start limit = [] := by
  have h0 : (limit - start).toNat = 0 := by omega
  rw [upTo, h0, cells_zero hs, List.range_zero, List.map_nil]

theorem upTo_mul {step : Nat} (hs : 0 < step) (first size : Nat) :
    upTo step (first * step) size =
      (List.range' first (cells size step - first)).map fun k => ((k * step : Nat) : Int) := by
  have hsub : ((size : Int) - first * step).toNat = size - first * step := by
    rw [← Int.natCast_mul]
    omega
  rw [upTo, hsub, cells_sub_mul hs, List.range'_eq_map_range, List.map_map]
  refine List.map_congr_left fun k _ => ?_
  simp only [Function.comp_apply]
  push_cast
  ring

/-! ## Points -/

/-- The sample of the point in column `x` and in the row called `y`. -/
def samplePoint (b : Buffer) (scale : Number) (p : Nat × Int) : Except Error Sample := do
  let (destY, row) ← rowAt b scale p.2
  sampleAt b scale p.2 destY row p.1

/-- Every `step`-th point of the row called `y`. -/
def rowPoints (columns step : Nat) (y : Int) : List (Nat × Int) :=
  (List.range columns).map fun i => (i * step, y)

/-- The points of so many rows of a grid from `first` on, row after row. -/
def gridPoints (columns step first rows : Nat) : List (Nat × Int) :=
  (List.range' first rows).flatMap fun k => rowPoints columns step ((k * step : Nat) : Int)

theorem gridPoints_add (columns step first m n : Nat) :
    gridPoints columns step first (m + n) =
      gridPoints columns step first m ++ gridPoints columns step (first + m) n := by
  unfold gridPoints
  rw [← List.range'_append_1, List.flatMap_append]

theorem length_gridPoints (columns step first rows : Nat) :
    (gridPoints columns step first rows).length = rows * columns := by
  simp [gridPoints, rowPoints, List.length_flatMap]

theorem mem_gridPoints {columns step rows gx gy : Nat} (hx : gx < columns) (hy : gy < rows) :
    (gx * step, ((gy * step : Nat) : Int)) ∈ gridPoints columns step 0 rows :=
  List.mem_flatMap.2 ⟨gy, List.mem_range'_1.2 ⟨Nat.zero_le _, by omega⟩,
    List.mem_map.2 ⟨gx, List.mem_range.2 hx, rfl⟩⟩

theorem exists_of_mem_gridPoints {columns step rows : Nat} {p : Nat × Int} (h : p ∈ gridPoints columns step 0 rows) :
    ∃ gx gy, gx < columns ∧ gy < rows ∧ p = (gx * step, ((gy * step : Nat) : Int)) := by
  obtain ⟨gy, hy, hp⟩ := List.mem_flatMap.1 h
  obtain ⟨gx, hx, rfl⟩ := List.mem_map.1 hp
  rw [List.mem_range'_1] at hy
  exact ⟨gx, gy, List.mem_range.1 hx, by omega, rfl⟩

theorem flatMap_gridPoints {α : Type} (columns step first rows : Nat) (f : Nat × Int → List α) :
    (gridPoints columns step first rows).flatMap f =
      (List.range' first rows).flatMap fun gy =>
        (List.range columns).flatMap fun gx => f (gx * step, ((gy * step : Nat) : Int)) := by
  unfold gridPoints rowPoints
  rw [List.flatMap_assoc]
  simp only [List.flatMap_map]

theorem placed_eq_ok {scale : Number} {c d : Int} :
    placed scale c = .ok d ↔ (scale.scale c >>= Number.floor) = .ok d := by
  unfold placed
  cases scale.scale c with
  | error e => exact ⟨fun h => (by cases h), fun h => (by cases h)⟩
  | ok v => exact mapError_eq_ok

/-- A scan places a coordinate where the grid has it. -/
theorem placed_real_eq_ok {g : Grid} {c d : Int} : placed (.real g.scale) c = .ok d ↔ g.place c = .ok d := by
  rw [placed_eq_ok, Number.scale, Grid.place]
  cases g.scale.scale c <;> exact Iff.rfl

/-- **The sample of a point has the channels of a pixel in its column, and lies where its coordinates come to lie.**  The
row is the one that the point names, from either end. -/
theorem samplePoint_eq_ok_of_row {b : Buffer} {scale : Number} {x : Nat} {y : Int} {s : Sample} :
    samplePoint b scale (x, y) = .ok s ↔ ∃ destX destY row, checkIndex y = .ok () ∧ b.rowIndex y = .ok row ∧
      placed scale x = .ok destX ∧ placed scale y = .ok destY ∧
        s = ⟨x, y, (b.pixelAt x row).r.toNat, (b.pixelAt x row).g.toNat, (b.pixelAt x row).b.toNat,
          (b.pixelAt x row).a.toNat, destX, destY⟩ := by
  unfold samplePoint rowAt sampleAt
  constructor
  · intro h
    obtain ⟨⟨destY, row⟩, hrow, hs⟩ := bind_eq_ok.1 h
    obtain ⟨d, hd, hrow⟩ := bind_eq_ok.1 hrow
    obtain ⟨⟨⟩, hc, hrow⟩ := bind_eq_ok.1 hrow
    obtain ⟨k, hk, hrow⟩ := bind_eq_ok.1 hrow
    obtain ⟨destX, hx, hs⟩ := bind_eq_ok.1 hs
    cases hrow
    cases hs
    exact ⟨destX, destY, row, hc, hk, hx, hd, rfl⟩
  · rintro ⟨destX, destY, row, hc, hrow, hx, hy, rfl⟩
    dsimp only
    rw [hy, hc, hrow, hx]
    rfl

/-- In a row of the image the pixel is that of the point itself. -/
theorem samplePoint_eq_ok {b : Buffer} {scale : Number} {x y : Nat} (hy : y < b.height) {s : Sample} :
    samplePoint b scale (x, y) = .ok s ↔ ∃ destX destY, checkIndex y = .ok () ∧
      placed scale x = .ok destX ∧ placed scale y = .ok destY ∧
        s = ⟨x, y, (b.pixelAt x y).r.toNat, (b.pixelAt x y).g.toNat, (b.pixelAt x y).b.toNat,
          (b.pixelAt x y).a.toNat, destX, destY⟩ := by
  rw [samplePoint_eq_ok_of_row]
  constructor
  · rintro ⟨destX, destY, row, hc, hrow, hx, hy', rfl⟩
    rw [Buffer.rowIndex_natCast hy] at hrow
    cases hrow
    exact ⟨destX, destY, hc, hx, hy', rfl⟩
  · rintro ⟨destX, destY, hc, hx, hy', rfl⟩
    exact ⟨destX, destY, y, hc, Buffer.rowIndex_natCast hy, hx, hy', rfl⟩

/-! ## Rows -/

theorem row_eq (b : Buffer) {step : Nat} (hs : 0 < step) (hw : 0 < b.width) (scale : Number) (y : Int) :
    row b step scale y = .traverse (samplePoint b scale) (rowPoints (cells b.width step) step y) := by
  unfold row rowPoints
  rw [Delivery.traverse_map]
  cases hr : rowAt b scale y with
  | error e =>
    -- the failure of the row is that of its first point, which there is
    obtain ⟨n, hn⟩ := Nat.exists_eq_succ_of_ne_zero ((lt_cells_iff hs).2 (by rwa [Nat.zero_mul] : 0 * step < b.width)).ne'
    rw [hn, List.range_succ_eq_map, Delivery.traverse]
    simp only [samplePoint, hr]
    rfl
  | ok p =>
    obtain ⟨destY, r⟩ := p
    refine Delivery.traverse_congr fun i _ => ?_
    simp only [samplePoint, hr]
    rfl

theorem rowsFrom_eq (b : Buffer) {step : Nat} (hs : 0 < step) (hw : 0 < b.width) (scale : Number) (y : Int) :
    rowsFrom b step hs scale y =
      .traverse (samplePoint b scale) ((upTo step y b.height).flatMap (rowPoints (cells b.width step) step)) := by
  unfold rowsFrom
  split
  · rename_i h
    rw [rowsFrom_eq b hs hw scale (y + step), row_eq b hs hw, Delivery.traverse_append, upTo_of_lt hs h,
      List.flatMap_cons]
  · rename_i h
    rw [upTo_of_le hs (by omega)]
    rfl
termination_by (b.height - y).toNat

/-- **A scan from a row of the grid on is the walk over the points from that row on.** -/
theorem scan_eq (b : Buffer) {step : Nat} (hs : 0 < step) (hw : 0 < b.width) (scale : Number) (first : Nat) :
    b.scan step scale first =
      .traverse (samplePoint b scale)
        (gridPoints (cells b.width step) step first (cells b.height step - first)) := by
  unfold Buffer.scan
  rw [dif_neg (by omega)]
  simp only [Int.toNat_natCast]
  rw [rowsFrom_eq b hs hw, upTo_mul hs, List.flatMap_map]
  rfl

/-! ## Bands -/

/-- The band whose first row is given, on the grid of a buffer. -/
def bandAt (b : Buffer) (step : Nat) (scale : Number) (perBand : Nat) (first : Int) : Except Error Band := do
  let count : Int := min perBand ((cells b.height step : Nat) - first)
  let samples ← (gridPoints (cells b.width step) step first.toNat count.toNat).mapM (samplePoint b scale)
  return ⟨first, count, samples⟩

/-- A request for the samples of a band takes just those from the scan that begins with it. -/
theorem take_scan (b : Buffer) {step : Nat} (hs : 0 < step) (hw : 0 < b.width) (scale : Number) (first count : Nat)
    (hc : first + count ≤ cells b.height step) :
    let taken := (b.scan step scale first).take (count * cells b.width step)
    let points := gridPoints (cells b.width step) step first count
    taken.items = (Delivery.traverse (samplePoint b scale) points).items ∧
      taken.ending = .ofFailure (Delivery.traverse (samplePoint b scale) points).failure := by
  have hrest : cells b.height step - first = count + (cells b.height step - first - count) := by omega
  rw [scan_eq b hs hw, hrest, gridPoints_add, ← length_gridPoints (cells b.width step) step first count]
  exact Delivery.take_traverse _ _ _

theorem bandsFrom_eq (b : Buffer) {step : Nat} (hs : 0 < step) (hw : 0 < b.width) (scale : Number) {perBand : Nat}
    (hp : (1 : Int) ≤ perBand) (first : Int) (hf : 0 ≤ first) :
    bandsFrom b step scale perBand hp (cells b.height step : Nat) (cells b.width step : Nat) first =
      .traverse (bandAt b step scale perBand) (upTo perBand first (cells b.height step : Nat)) := by
  unfold bandsFrom
  split
  · rename_i h
    rw [upTo_of_lt (by omega) h, Delivery.traverse, bandsFrom_eq b hs hw scale hp (first + perBand) (by omega)]
    obtain ⟨k, rfl⟩ := Int.eq_ofNat_of_zero_le hf
    obtain ⟨n, hn⟩ := Int.eq_ofNat_of_zero_le (by omega : 0 ≤ min (perBand : Int) ((cells b.height step : Nat) - k))
    obtain ⟨hi, he⟩ := take_scan b hs hw scale k n (by omega)
    have ht := Delivery.toList_traverse (samplePoint b scale) (gridPoints (cells b.width step) step k n)
    unfold Delivery.toList at ht
    simp only [bandAt, hn, Int.toNat_natCast, ← Int.natCast_mul, he, hi, ← ht]
    cases (Delivery.traverse (samplePoint b scale) (gridPoints (cells b.width step) step k n)).failure with
    | none => rfl
    | some e => rfl
  · rename_i h
    rw [upTo_of_le (by omega) (by omega)]
    rfl
termination_by (cells b.height step - first).toNat

/-- The points of the band whose first row is given. -/
def bandPoints (columns step rows perBand : Nat) (first : Int) : List (Nat × Int) :=
  gridPoints columns step first.toNat (min (perBand : Int) (rows - first)).toNat

theorem length_bandPoints (columns step rows perBand k : Nat) :
    (bandPoints columns step rows perBand k).length = min perBand (rows - k) * columns := by
  have hcount : (min (perBand : Int) (rows - (k : Nat))).toNat = min perBand (rows - k) := by omega
  rw [bandPoints, length_gridPoints, hcount]

/-- **The points of a grid are those of its bands**, none lost or repeated. -/
theorem gridPoints_eq_flatMap (columns step rows : Nat) {perBand : Nat} (hp : 0 < perBand) (first : Nat) :
    gridPoints columns step first (rows - first) =
      (upTo perBand first rows).flatMap (bandPoints columns step rows perBand) := by
  by_cases hf : first < rows
  · have hrest : rows - first = min perBand (rows - first) + (rows - (first + perBand)) := by omega
    have hcount : (min (perBand : Int) (rows - (first : Nat))).toNat = min perBand (rows - first) := by omega
    have hnext : gridPoints columns step (first + min perBand (rows - first)) (rows - (first + perBand)) =
        gridPoints columns step (first + perBand) (rows - (first + perBand)) := by
      rcases Nat.lt_or_ge rows (first + perBand) with hlt | hge
      · have h0 : rows - (first + perBand) = 0 := by omega
        rw [h0]
        rfl
      · rw [Nat.min_eq_left (by omega)]
    rw [upTo_of_lt hp (by omega), List.flatMap_cons, bandPoints, Int.toNat_natCast, hcount, ← Int.natCast_add,
      ← gridPoints_eq_flatMap columns step rows hp (first + perBand), ← hnext, ← gridPoints_add, ← hrest]
  · rw [Nat.sub_eq_zero_of_le (by omega), upTo_of_le hp (by omega)]
    rfl
termination_by rows - first

theorem samples_bandAt (b : Buffer) (step : Nat) (scale : Number) (perBand : Nat) (first : Int) :
    Band.samples <$> bandAt b step scale perBand first =
      (bandPoints (cells b.width step) step (cells b.height step) perBand first).mapM (samplePoint b scale) := by
  unfold bandAt bandPoints
  dsimp only
  cases List.mapM (samplePoint b scale) _ <;> rfl

/-- **The bands of a grid hold its samples**, if no sample is missing. -/
theorem mapM_bandAt {b : Buffer} {step : Nat} {scale : Number} {perBand : Nat} (hp : 0 < perBand)
    {samples : List Sample}
    (h : (gridPoints (cells b.width step) step 0 (cells b.height step)).mapM (samplePoint b scale) = .ok samples) :
    ∃ bands, (upTo perBand 0 (cells b.height step : Nat)).mapM (bandAt b step scale perBand) = .ok bands ∧
      bands.flatMap (·.samples) = samples := by
  have hpoints := gridPoints_eq_flatMap (cells b.width step) step (cells b.height step) hp 0
  rw [Nat.sub_zero] at hpoints
  rw [hpoints, ← Delivery.toList_traverse] at h
  obtain ⟨hnone, rfl⟩ := Delivery.toList_eq_ok.1 h
  obtain ⟨hf, part, hitems, hpart, -⟩ := Delivery.traverse_flatMap (samples_bandAt b step scale perBand)
    (upTo perBand (0 : Nat) (cells b.height step : Nat))
  rw [hf] at hnone
  rw [hitems, hpart hnone, List.append_nil, ← Delivery.toList_traverse]
  exact ⟨_, Delivery.toList_eq_ok.2 ⟨hnone, rfl⟩, rfl⟩

end Scan

/-- **The bands of a buffer are the images of their first rows.** -/
theorem Buffer.bands_eq (b : Buffer) {step : Nat} (hs : 0 < step) (hs' : step < 2 ^ 1024) (hw : 0 < b.width)
    (hw' : b.width < 2 ^ 53) (hh : 0 < b.height) (hh' : b.height < 2 ^ 53) (scale : Number) {perBand : Nat}
    (hp : 0 < perBand) :
    b.bands step scale perBand =
      .traverse (Scan.bandAt b step scale perBand) (Scan.upTo perBand 0 (Scan.cells b.height step : Nat)) := by
  have hq : ∀ n : Nat, n < 2 ^ 53 → ceilQuotient n step = .ok (Scan.cells n step : Nat) := fun n hn => by
    rw [ceilQuotient_eq hn hs hs', Scan.cells_eq_ceil hs,
      Int.natCast_ceil_eq_ceil (div_nonneg (Nat.cast_nonneg n) (Nat.cast_nonneg step))]
  unfold bands
  rw [if_neg (by omega), dif_neg (by omega), isEmpty_eq_false.2 ⟨hw, hh⟩, hq _ hw', hq _ hh']
  exact Scan.bandsFrom_eq b hs hw scale (by omega) 0 (Int.le_refl 0)

end RasterSketch
