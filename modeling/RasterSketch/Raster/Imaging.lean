import RasterSketch.Raster.Buffer
import RasterSketch.Raster.Image
/-!
# Decoding images

Images are decoded by a library of their own, which knows many formats and sooner or later others:
it makes an image of data or fails, and gives the colours of an image.  All that is done with images
is done with any such library (`Imaging`).  One of them comes with this one; it reads the formats of
`RasterSketch.Raster.Image` (`Imaging.bundled`).
-/

namespace RasterSketch

/-- How data fails to be decoded: by a failure that is told as such, in words of its own, or by any
other error. -/
inductive DecoderFailure where
  | reported (reason : Text)
  | other (error : Error) (notOwn : error.isOwn = false)

/-- A library that decodes images. -/
structure Imaging where
  Image : Type
  decode : Bytes → Except DecoderFailure Image
  width : Image → Nat
  height : Image → Nat
  /-- Red, green, blue and alpha of all pixels, row after row. -/
  rgba : Image → List UInt8
  length_rgba : ∀ image, (rgba image).length = width image * height image * channels

namespace Imaging

/-- What is made of a failure to decode an image of the formats that are known here. -/
def failureOf : ImageError → DecoderFailure
  | .malformed e => .other (.format e) rfl
  | .size e => .other (.ofSize e) (by cases e <;> rfl)
  | e => .reported e.message

/-- The decoder of this library, which takes images of so many pixels. -/
def bundled (pixelLimit : Int) : Imaging where
  Image := Picture
  decode data := (Picture.decode pixelLimit data).mapError failureOf
  width := Picture.width
  height := Picture.height
  rgba := Picture.rgba
  length_rgba := Picture.length_rgba

/-- A limit of pixels stands for the decoder that has it. -/
instance : Coe Int Imaging := ⟨bundled⟩

end Imaging

namespace Buffer

def ofImage (imaging : Imaging) (image : imaging.Image) : Buffer where
  width := imaging.width image
  height := imaging.height image
  bytes := (imaging.rgba image).toArray
  size_eq := imaging.length_rgba image

/-- The buffer of the image in data.  A failure that is told as such has the name of the data. -/
def decode (imaging : Imaging) (name : Text) (data : Bytes) : Except Error Buffer :=
  match imaging.decode data with
  | .ok image => .ok (ofImage imaging image)
  | .error (.reported reason) => .error (.decode (.undecodable name reason))
  | .error (.other e _) => .error e

end Buffer

end RasterSketch
