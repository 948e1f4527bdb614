import RasterSketch.Raster.Png
import RasterSketch.Raster.Pnm
import RasterSketch.Raster.Size
/-!
# Image files

Two formats are read, PNG and the binary forms of PNM.  Other data is no image.  The size is known
from the header, and an image of no pixels or of too many is refused before its data is looked at.
-/

namespace RasterSketch

/-- As many pixels are allowed if nothing else is said; an image may have twice the number. -/
def defaultPixelLimit : Nat := 89478485

namespace ImageHeader

def of? (bytes : List UInt8) : Except ImageError (Option ImageHeader) := do
  match ← Png.header? bytes with
  | some h => return some h
  | none => (Pnm.header? bytes).mapError .malformed

def pixels (h : ImageHeader) : Nat := h.width * h.height

/-- The bytes that a pixel takes while it is decoded. -/
def pixelBytes (h : ImageHeader) : Nat :=
  match h.format with
  | .png => h.mode.samples
  | .pnm brightest => Pnm.pixelBytes h brightest

/-- Whether there is room for the image. -/
def checkRoom (h : ImageHeader) : Except SizeError Unit := do
  checkSize h.width h.height
  checkDecodedRow h.width h.pixelBytes

def picture (h : ImageHeader) : Except ImageError Picture := do
  h.checkRoom.mapError .size
  let samples ← match h.format with
    | .png => Png.samples h
    | .pnm brightest => Pnm.samples h brightest
  match Picture.ofSamples? h.width h.height h.mode samples with
  | some p => return p
  | none => throw .unidentified

end ImageHeader

/-- The picture of an image file.  An image without pixels is none. -/
def Picture.decode (pixelLimit : Int) (bytes : List UInt8) : Except ImageError Picture := do
  match ← ImageHeader.of? bytes with
  | none => throw .unidentified
  | some h =>
    if h.pixels = 0 then throw .unidentified
    if 2 * pixelLimit < h.pixels then throw (.tooLarge h.pixels (2 * pixelLimit))
    h.picture

end RasterSketch
