import RasterSketch.Error
/-!
# Glyph ramps

A ramp is a row of glyphs from the densest to the lightest; brightness, from 0 to 255, is a place in
it.
-/

namespace RasterSketch

/-- The ramp of the `ascii` style. -/
def asciiRamp : String := "@%#*+=-:. "

/-- The place of a brightness in a ramp of `length` glyphs. -/
def rampIndex (brightness : Number) (length : Nat) : Except ArithmeticError Int := do
  let share ← brightness.dividedBy 255
  (← share.scale ((length : Int) - 1)).floor

/-- The glyph at a place, which counts from the end if it is negative. -/
def glyphAt (ramp : String) (i : Int) : Except IndexError Char := do
  checkItemIndex i
  let place := if i < 0 then i + ramp.length else i
  if place < 0 then throw .glyph
  match ramp.toList[place.toNat]? with
  | some c => return c
  | none => throw .glyph

end RasterSketch
