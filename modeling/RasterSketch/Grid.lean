import RasterSketch.Error
/-!
# The grid of a sketch

An image is fitted into a square of the canvas, and a stride in canvas pixels is turned back into
one of image pixels.  The arithmetic is that of doubles, rounded at each step.
-/

namespace RasterSketch

structure Grid where
  width : Int
  height : Int
  scale : Double
  scaledWidth : Int
  scaledHeight : Int
  step : Int
  cellSize : Int

/-- The longest side of a canvas, in pixels, if nothing else is said. -/
def targetMax : Int := 400

namespace Grid

/-- The grid of an image of positive size, for a positive stride and bound. -/
def fit (width height baseStep bound : Int) : Except ArithmeticError Grid := do
  let across ← Double.quotient bound width
  let down ← Double.quotient bound height
  let scale := Double.min across down
  let stride ← (← (← Double.ofInt baseStep).divide scale).floor
  let step := max 1 stride
  return {
    width, height, scale, step
    scaledWidth := ← (← scale.scale width).floor
    scaledHeight := ← (← scale.scale height).floor
    cellSize := ← (← scale.scale step).ceil }

def checkSize (width height : Int) : Except Error Unit :=
  if width ≤ 0 ∨ height ≤ 0 then .error (.buffer (.emptyImage width height)) else .ok ()

def compute (width height baseStep bound : Int) : Except Error Grid := do
  checkSize width height
  if bound ≤ 0 then throw (.buffer (.canvasBound bound))
  if baseStep < 1 then throw (.argument (.baseStep baseStep))
  (fit width height baseStep bound).mapError .arithmetic

/-- The number of cells that a stride leaves of an image, through rounded quotients. -/
def countCells (width height step : Int) : Except ArithmeticError Int := do
  let rows ← ceilQuotient height step
  let columns ← ceilQuotient width step
  return rows * columns

end Grid

end RasterSketch
