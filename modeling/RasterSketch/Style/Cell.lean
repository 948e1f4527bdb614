import RasterSketch.Scan.Basic
import RasterSketch.Style.Basic
/-!
# Cells

What all styles derive from an accepted sample: its brightness, and a size that grows with it from
one to the size of the cell.
-/

namespace RasterSketch

def StyleConfig.accepts (c : StyleConfig) (s : Sample) : Bool := c.alphaThreshold < s.a

structure Cell where
  sample : Sample
  brightness : Double
  cellSize : Int
  variableSize : Double
  includeAlpha : Bool

namespace Cell

/-- The brightness as a share of the brightest. -/
def shareOf (brightness : Double) : Double := brightness.div 255.0

def ofSample (s : Sample) (cellSize : Int) (includeAlpha : Bool) : Except ArithmeticError Cell := do
  let brightness ← Double.quotient (s.r + s.g + s.b) 3
  let grown ← (shareOf brightness).scale (cellSize - 1)
  return ⟨s, brightness, cellSize, grown + 1.0, includeAlpha⟩

def x (c : Cell) : Int := c.sample.destX

def y (c : Cell) : Int := c.sample.destY

def center (c : Cell) : Except ArithmeticError (Double × Double) := do
  let half ← Double.quotient c.cellSize 2
  return (← half.shift c.x, ← half.shift c.y)

def colour (c : Cell) : List Int :=
  let s := c.sample
  if c.includeAlpha then [s.r, s.g, s.b, s.a] else [s.r, s.g, s.b]

end Cell

end RasterSketch
