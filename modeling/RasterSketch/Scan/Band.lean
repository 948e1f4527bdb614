import RasterSketch.Scan.Basic
/-!
# Scanning in bands

The same samples in lists of so many rows each, so that a sketch can be written while the image is
scanned.  Each band is a scan of its own that begins at its first row and is cut at the number of
samples that the band should have.
-/

namespace RasterSketch

/-- Some rows of a grid, from the first on, and their samples. -/
structure Band where
  first : Int
  rows : Int
  samples : List Sample

/-- What is noted when a band has been scanned. -/
def Band.note (band : Band) : String :=
  "Sampled grid rows " ++ Decimal.intText band.first ++ "-" ++
    Decimal.intText (band.first + band.rows - 1) ++ " (" ++
    Decimal.intText band.samples.length ++ " cells)"

namespace Scan

/-- The bands of a grid of so many rows and columns, from the row `first` on. -/
def bandsFrom (b : Buffer) (step : Int) (scale : Number) (perBand : Int) (perBand_pos : 1 ≤ perBand)
    (rows columns first : Int) : Delivery Error Band :=
  if first < rows then
    let count := min perBand (rows - first)
    let taken := (b.scan step scale first).take (count * columns).toNat
    match taken.ending with
    | .failed e => .failed e
    | _ => .item ⟨first, count, taken.items⟩ fun _ =>
      bandsFrom b step scale perBand perBand_pos rows columns (first + perBand)
  else .finished
termination_by (rows - first).toNat

end Scan

/-- The samples of a buffer in bands of `perBand` rows. -/
def Buffer.bands (b : Buffer) (step : Int) (scale : Number) (perBand : Int) : Delivery Error Band :=
  if step < 1 then .failed (.argument (.step step))
  else if h : perBand < 1 then .failed (.argument (.rowsPerChunk perBand))
  else if b.isEmpty then .finished
  else match ceilQuotient b.height step, ceilQuotient b.width step with
    | .error e, _ => .failed (.arithmetic e)
    | _, .error e => .failed (.arithmetic e)
    | .ok rows, .ok columns => Scan.bandsFrom b step scale perBand (by omega) rows columns 0

end RasterSketch
