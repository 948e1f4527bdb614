import RasterSketch.Raster.Bytes
/-!
# Recognising SVG

Vector graphics are told from the start of the data alone: an `svg` element behind blanks within
the first 1024 bytes, or an XML declaration there and an `svg` element within the first 4096.
-/

namespace RasterSketch.Svg

def openTag : List UInt8 := ascii "<svg"

def declaration : List UInt8 := ascii "<?xml"

/-- The first bytes without the blanks at their start. -/
def head (data : List UInt8) : List UInt8 := (data.take 1024).dropWhile isAsciiBlank

def looksLikeSvg (data : List UInt8) : Bool :=
  openTag.isPrefixOf (head data) ||
    (declaration.isPrefixOf (head data) && occurs openTag (data.take 4096))

end RasterSketch.Svg
