import RasterSketch.Style.Cell
import RasterSketch.Style.Ramp
/-!
# Drawing one cell

The statements by which each style draws a cell.  Moving styles draw with expressions of their
clock.
-/

namespace RasterSketch

namespace Statement

def callInts (name : String) (args : List Int) : Statement := .call name (args.map Expr.int)

end Statement

namespace Cell

def fill (c : Cell) : Statement := .callInts "fill" c.colour

def square (c : Cell) : Statement := .callInts "rect" [c.x, c.y, c.cellSize, c.cellSize]

def circleAt (cx cy : Double) (diameter : Expr) : Statement :=
  .call "circle" [.real cx, .real cy, diameter]

def pixels (c : Cell) : List Statement := [c.fill, c.square]

def circles (c : Cell) : Except Error (List Statement) := do
  let (cx, cy) ← c.center
  return [c.fill, circleAt cx cy (.int c.cellSize)]

def triangles (c : Cell) : Except Error (List Statement) := do
  let half ← Double.quotient c.cellSize 2
  let apex ← half.shift c.x
  let right := c.x + c.cellSize
  let bottom := c.y + c.cellSize
  return [c.fill,
    .call "triangle" [.real apex, .int c.y, .int c.x, .int bottom, .int right, .int bottom]]

def lines (c : Cell) : Except Error (List Statement) := do
  let weight ← (← (0.8 : Double).scale c.cellSize).ceil
  let bottom ← c.variableSize.shift c.y
  return [.callInts "stroke" c.colour, .callInts "strokeWeight" [weight],
    .call "line" [.int c.x, .int c.y, .int c.x, .real bottom]]

def dots (c : Cell) : Except Error (List Statement) := do
  let (cx, cy) ← c.center
  return [c.fill, circleAt cx cy (.real c.variableSize)]

def ascii (c : Cell) : Except Error (List Statement) := do
  let (cx, cy) ← c.center
  let i ← rampIndex (.real c.brightness) asciiRamp.length
  let glyph ← (glyphAt asciiRamp i).mapError .index
  return [.call "text" [.text (String.singleton glyph), .real cx, .real cy]]

/-- Colours in hue, saturation and value.  The hue is offset by a full turn, so that it stays
positive whatever sign the remainder takes. -/
def psychedelic (c : Cell) : Except Error (List Statement) := do
  let t := Expr.variable "t"
  let x := Expr.int c.x
  let y := Expr.int c.y
  let (cx, cy) ← c.center
  let seed := Expr.real (shareOf c.brightness * 360.0 + 360.0)
  let hue := (seed + t * 40 + (t + x * 0.01).sin * 60) % 360
  let saturation := 70 + (t + y * 0.02).sin * 30
  let value := 80 + (t + x * 0.03).cos * 20
  let pulse := ((t + (x * 0.02 + y * 0.01)).sin + 1) / 2
  let least ← (0.5 : Double).scale c.cellSize
  let most ← (1.5 : Double).scale c.cellSize
  let size := Expr.apply "lerpValue" [.real least, .real most, pulse]
  return [.call "fill" [hue, saturation, value], .call "ellipse" [.real cx, .real cy, size, size]]

def statue (c : Cell) : Except Error (List Statement) := do
  let marble ← (c.brightness * 0.8 + 40.0).floor
  return [.callInts "fill" [marble - 20, marble - 10, marble + 15], c.square]

def animation (c : Cell) : Except Error (List Statement) := do
  let frame := Expr.variable "frame"
  let s := c.sample
  let (cx, cy) ← c.center
  let phase := Expr.int c.x * 0.05 + Expr.int c.y * 0.05
  let wave := (frame + phase).sin * 5
  let alpha := 155 + (frame * 2 + phase).sin * 100
  return [.call "fill" [.int s.r, .int s.g, .int s.b, alpha],
    .call "circle" [Expr.real cx + wave, Expr.real cy + wave, .int c.cellSize]]

end Cell

/-- The statements by which a style draws a cell. -/
def Style.emit : Style → Cell → Except Error (List Statement)
  | .pixels, c => .ok c.pixels
  | .circles, c => c.circles
  | .triangles, c => c.triangles
  | .lines, c => c.lines
  | .dots, c => c.dots
  | .ascii, c => c.ascii
  | .psychedelic, c => c.psychedelic
  | .statue, c => c.statue
  | .animation, c => c.animation

end RasterSketch
