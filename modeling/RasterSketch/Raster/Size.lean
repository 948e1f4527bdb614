import RasterSketch.Error
/-!
# Sizes of pictures

The width and the height of a picture are half words, and its rows have to have room.
-/

namespace RasterSketch

/-- Sizes and channels are half words. -/
def checkHalfWord (n : Int) : Except WordError Unit :=
  if !fitsWord n then .error .noWord
  else if greatestHalfWord < n then .error .aboveHalfWord
  else if n < -greatestHalfWord - 1 then .error .belowHalfWord
  else .ok ()

/-- The widest picture that there is room for. -/
def widthLimit : Int := 536870910

/-- More bits than there may be in a row that is decoded. -/
def rowBits : Nat := 0x7fffffff

/-- The size of a picture, and the room for its rows. -/
def checkSize (width height : Int) : Except SizeError Unit := do
  (checkHalfWord width).mapError .word
  (checkHalfWord height).mapError .word
  if widthLimit < width then throw .outOfMemory

/-- The room for the rows of a picture that is decoded, of pixels of so many bytes. -/
def checkDecodedRow (width pixelBytes : Nat) : Except SizeError Unit :=
  if rowBits / (8 * pixelBytes) < width + 7 then .error .outOfMemory else .ok ()

end RasterSketch
