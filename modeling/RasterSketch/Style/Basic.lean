import RasterSketch.Error
/-!
# Drawing styles

The nine ways in which the cells of a grid are drawn, which of them move, and by what clock; and the
density of the grid and the pixels accepted for it.
-/

namespace RasterSketch

inductive Style where
  | pixels
  | circles
  | triangles
  | lines
  | dots
  | ascii
  | psychedelic
  | statue
  | animation
  deriving DecidableEq

/-- A variable of the sketch that grows by a tick with every frame. -/
structure Clock where
  name : String
  tick : Double

inductive Canvas where
  | still
  | moving (clock : Clock)

namespace Style

def all : List Style :=
  [pixels, circles, triangles, lines, dots, ascii, psychedelic, statue, animation]

def name : Style → String
  | pixels => "pixels"
  | circles => "circles"
  | triangles => "triangles"
  | lines => "lines"
  | dots => "dots"
  | ascii => "ascii"
  | psychedelic => "psychedelic"
  | statue => "statue"
  | animation => "animation"

def ofName? (name : Text) : Option Style := all.find? (·.name = name)

theorem ofName?_name (s : Style) : ofName? s.name = some s := by cases s <;> decide

def ofValue? : Value → Option Style
  | .bare name => ofName? name
  | _ => none

/-- The style that a value names. -/
def ofValue (v : Value) : Except Error Style :=
  match ofValue? v with
  | some s => .ok s
  | none => .error (.argument (.unknownStyle v))

def canvas : Style → Canvas
  | psychedelic => .moving ⟨"t", 0.05⟩
  | animation => .moving ⟨"frame", 0.1⟩
  | _ => .still

end Style

/-- How a caller says which style is meant: with the style itself, or with a value that is looked up
by its name.  A frame made for a mere name has no part that hangs on the style itself. -/
inductive StyleRef where
  | style (s : Style)
  | named (v : Value)

namespace StyleRef

/-- The style that is looked up. -/
def lookup : StyleRef → Except Error Style
  | style s => .ok s
  | named v => match v with
    | .list _ => .error (.kind (.unhashable v))
    | .record _ _ => .error (.kind (.unhashable v))
    | v => match Style.ofValue? v with
      | some s => .ok s
      | none => .error (.key v)

def isExactly (r : StyleRef) (s : Style) : Bool :=
  match r with
  | style t => s = t
  | named _ => false

end StyleRef

/-- The density of a grid in canvas pixels, the alpha that a pixel has to exceed, and whether the
alpha shows in the colour. -/
structure StyleConfig where
  baseStep : Int := 8
  alphaThreshold : Int := 128
  includeAlpha : Bool := false

/-- A denser grid of all pixels that are not wholly transparent, with their alpha. -/
def StyleConfig.legacy : StyleConfig := ⟨4, 0, true⟩

/-- The configuration of a style for which none is given. -/
def Style.config (_ : Style) : StyleConfig := {}

end RasterSketch
