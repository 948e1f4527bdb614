import RasterSketch.Raster.Picture
/-!
# Headers of image files

What the start of an image file tells of it.  The data of the pixels is behind it.
-/

namespace RasterSketch

inductive ImageFormat where
  | png
  | pnm (brightest : Nat)

/-- What the start of an image file tells, and the bytes behind it. -/
structure ImageHeader where
  format : ImageFormat
  mode : Mode
  width : Nat
  height : Nat
  data : List UInt8

end RasterSketch
