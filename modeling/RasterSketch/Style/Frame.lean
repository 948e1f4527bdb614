import RasterSketch.Grid
import RasterSketch.Sketch.Program
import RasterSketch.Style.Emit
/-!
# Programs of a style

A style gives an empty program with its canvas, its clock and the helper that its expressions call
(`StyleRef.frame`), and fills it with the cells of the samples that are accepted (`Style.build`).
-/

namespace RasterSketch

/-- The helper of every program: a value between two others. -/
def lerpHelper : Statement :=
  let a := Expr.variable "a"
  let b := Expr.variable "b"
  .function "lerpValue" ["a", "b", "amount"] [.result (a + (b - a) * .variable "amount")]

namespace StyleRef

/-- What the `ascii` style says once for all its glyphs. -/
def textPrologue (r : StyleRef) (grid : Grid) : Except ArithmeticError (List Statement) := do
  if r.isExactly .ascii then
    let size ← (← (0.8 : Double).scale grid.cellSize).ceil
    let middle := Expr.variable "CENTER"
    return [.callInts "fill" [0], .callInts "textSize" [size], .call "textAlign" [middle, middle]]
  else return []

/-- The program of a style without any cells. -/
def frame (r : StyleRef) (grid : Grid) : Except Error Program := do
  let style ← r.lookup
  let create := Statement.callInts "createCanvas" [grid.scaledWidth, grid.scaledHeight]
  let text ← r.textPrologue grid
  match style.canvas with
  | .still =>
    return {
      setup := [create, .call "noLoop" [], .callInts "background" [255]]
      prologue := .call "noStroke" [] :: text
      helpers := [lerpHelper] }
  | .moving clock =>
    let hues := r.isExactly .psychedelic
    let colours : List Statement :=
      if hues then [.call "colorMode" [.variable "HSB", 360, 100, 100, 100]] else []
    return {
      globals := [.declare clock.name 0]
      setup := create :: colours
      prologue := .callInts "background" [if hues then 0 else 255] :: .call "noStroke" [] :: text
      epilogue := [.increment clock.name (.real clock.tick)]
      helpers := [lerpHelper] }

end StyleRef

namespace Style

/-- The statements of a sample: none if it is not accepted. -/
def draw (style : Style) (config : StyleConfig) (cellSize : Int) (s : Sample) :
    Except Error (List Statement) := do
  if config.accepts s then style.emit (← Cell.ofSample s cellSize config.includeAlpha)
  else return []

/-- The statements of all samples in their order, up to the first failure. -/
def drawAll (style : Style) (config : StyleConfig) (cellSize : Int) :
    Delivery Error Sample → Except Error (List Statement)
  | .finished => .ok []
  | .failed e => .error e
  | .item s rest => do
    let first ← style.draw config cellSize s
    let others ← style.drawAll config cellSize (rest ())
    return first ++ others

/-- The program of a style for samples in scan order. -/
def build (style : Style) (grid : Grid) (samples : Delivery Error Sample) (config : StyleConfig) :
    Except Error Program := do
  let p ← (StyleRef.style style).frame grid
  let statements ← style.drawAll config grid.cellSize samples
  return { p with statements }

end Style

end RasterSketch
