import RasterSketch.Error
/-!
# Numerals

The literal of a value that ought to be a number.
-/

namespace RasterSketch

def Value.numeral : Value → Except Error String
  | .expr (.number n) => n.literal.mapError .render
  | .truth _ => .error (.render .boolean)
  | v => .error (.kind (.notNumber v))

end RasterSketch
