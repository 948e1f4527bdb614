import RasterSketch.Delivery
import RasterSketch.Raster.Buffer
/-!
# Scanning a buffer

A scan visits a buffer in rows from the top, every `step`-th row and pixel, and hands out a sample
for each: where it is from, its channels, and where it comes to lie.  A scan can begin at any row of
the grid; before the first one the rows count from the bottom.
-/

namespace RasterSketch

structure Sample where
  sourceX : Int
  sourceY : Int
  r : Int
  g : Int
  b : Int
  a : Int
  destX : Int
  destY : Int
  deriving DecidableEq, Inhabited

namespace Scan

/-- How many of `size` places are multiples of `step`. -/
def cells (size step : Nat) : Nat := (size + step - 1) / step

/-- Where a coordinate comes to lie on the canvas. -/
def placed (scale : Number) (c : Int) : Except Error Int := do
  ((← scale.scale c).floor).mapError .arithmetic

/-- The sample of column `x` in `row`, which is called `y`. -/
def sampleAt (b : Buffer) (scale : Number) (y destY : Int) (row x : Nat) : Except Error Sample := do
  let p := b.pixelAt x row
  return ⟨x, y, p.r.toNat, p.g.toNat, p.b.toNat, p.a.toNat, ← placed scale x, destY⟩

/-- Where the row called `y` comes to lie, and which one it is. -/
def rowAt (b : Buffer) (scale : Number) (y : Int) : Except Error (Int × Nat) := do
  let destY ← placed scale y
  checkIndex y
  return (destY, ← b.rowIndex y)

/-- The samples of the row called `y`. -/
def row (b : Buffer) (step : Nat) (scale : Number) (y : Int) : Delivery Error Sample :=
  match rowAt b scale y with
  | .error e => .failed e
  | .ok (destY, row) =>
    Delivery.traverse (fun i => sampleAt b scale y destY row (i * step))
      (List.range (cells b.width step))

/-- The samples of all rows from the one called `y` on. -/
def rowsFrom (b : Buffer) (step : Nat) (step_pos : 0 < step) (scale : Number) (y : Int) :
    Delivery Error Sample :=
  if y < b.height then
    (row b step scale y).append fun _ => rowsFrom b step step_pos scale (y + step)
  else .finished
termination_by (b.height - y).toNat

end Scan

/-- The samples of a buffer from a row of the grid on. -/
def Buffer.scan (b : Buffer) (step : Int) (scale : Number) (startRow : Int) :
    Delivery Error Sample :=
  if h : step < 1 then .failed (.argument (.step step))
  else Scan.rowsFrom b step.toNat (by omega) scale (startRow * step)

end RasterSketch
