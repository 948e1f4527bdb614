import RasterSketch.Raster.Picture
import RasterSketch.Raster.Size
/-!
# Filling a picture

A picture may be handed over as the values of its pixels.  A value out of range counts as the
nearest one in range, and pixels for which there are no values are zero.  A pixel of several
channels may also be one integer, whose bytes are the channels.  A palette turns grey into indices.
-/

namespace RasterSketch

/-! ## Pixels -/

/-- The sample nearest to a value. -/
def nearestSample (value : Int) : UInt8 := UInt8.ofNat (min 255 value.toNat)

/-- The sample nearest to a double, and the greatest for one that is no number. -/
def nearestSampleOf (x : Double) : UInt8 :=
  match x.truncate with
  | .ok n => nearestSample n
  | .error _ => if x.isNegative then 0 else 255

/-- What stands for a pixel: its channels, or one value. -/
inductive PixelValue where
  | channels (values : List Value)
  | single (value : Value)

/-- The samples of red, green, blue and alpha that have a place in a mode.  Grey and an index are
the red one. -/
def Mode.placed : Mode → (r g b a : UInt8) → List UInt8
  | .greyAlpha, r, _, _, a => [r, a]
  | .indexedAlpha _, r, _, _, a => [r, a]
  | .rgb, r, g, b, _ => [r, g, b]
  | .rgba, r, g, b, a => [r, g, b, a]
  | _, r, _, _, _ => [r]

/-- The byte of an integer at the given place, the lowest first. -/
def byteAt (n : Int) : (place : Nat) → UInt8
  | 0 => UInt8.ofNat (n % 256).toNat
  | k + 1 => byteAt (n / 256) k

/-- The integer that a value is, if it is one. -/
def Value.integer? : Value → Option Int
  | .expr (.number (.int n)) => some n
  | .truth b => some (if b then 1 else 0)
  | _ => none

/-- The pixel of an integer whose bytes are red, green, blue and alpha, the red one lowest. -/
def Mode.packed (mode : Mode) (n : Int) : Except Error (List UInt8) :=
  if fitsWord n then .ok (mode.placed (byteAt n 0) (byteAt n 1) (byteAt n 2) (byteAt n 3))
  else .error (.word .tooBig)

/-- The sample of a value that has to be an integer, and to pass a check. -/
def checkedSample (check : Int → Except WordError Unit) (v : Value) : Except Error UInt8 :=
  match v.integer? with
  | none => .error (.kind (.notInteger v))
  | some n => do
    (check n).mapError .word
    return nearestSample n

/-- The sample of the first channel, which may be any word. -/
def firstSample : Value → Except Error UInt8 :=
  checkedSample fun n => if fitsWord n then .ok () else .error .tooBig

/-- The sample of another channel, which may be any half word. -/
def laterSample : Value → Except Error UInt8 := checkedSample checkHalfWord

/-- A pixel that has not the channels of its mode. -/
def Mode.miscounted (mode : Mode) : Except Error (List UInt8) :=
  .error (.picture (if mode.samples = 2 then .greyChannels else .colourChannels))

/-- The pixel of channels.  A sole one counts as one integer; a missing alpha is opaque, and one
that has no place is dropped. -/
def Mode.ofChannels (mode : Mode) : List Value → Except Error (List UInt8)
  | [v] => match v.integer? with
    | some n => mode.packed n
    | none => mode.miscounted
  | [v, a] =>
    if mode.samples = 2 then do
      let v ← firstSample v
      return mode.placed v v v (← laterSample a)
    else mode.miscounted
  | r :: g :: b :: alpha =>
    if mode.samples = 2 ∨ 1 < alpha.length then mode.miscounted
    else do
      let r ← firstSample r
      let g ← laterSample g
      let b ← laterSample b
      return mode.placed r g b (← laterSample (alpha.headD (.expr 255)))
  | [] => mode.miscounted

/-- The sample that is all of a pixel.  It is taken as a double. -/
def soleSample : Value → Except Error UInt8
  | .list _ => .error (.picture .nested)
  | .bare _ => .error (.picture .nested)
  | .truth b => .ok (if b then 1 else 0)
  | .expr (.number (.int n)) => do
    let _ ← Double.ofInt n
    return nearestSample n
  | .expr (.number (.real x)) => .ok (nearestSampleOf x)
  | v => .error (.kind (.notNumber v))

/-- The samples of a pixel.  In a mode of one channel a value is the sample itself, in any other it
has to be an integer. -/
def Mode.pixel (mode : Mode) (value : PixelValue) : Except Error (List UInt8) :=
  if mode.samples = 1 then
    match value with
    | .single v => do return [← soleSample v]
    | .channels _ => .error (.picture .nested)
  else
    match value with
    | .single v => match v.integer? with
      | some n => mode.packed n
      | none => .error (.picture .noPixel)
    | .channels values => mode.ofChannels values

def Mode.pixels (mode : Mode) : List PixelValue → Except Error (List UInt8)
  | [] => .ok []
  | value :: rest => do
    let first ← mode.pixel value
    let others ← mode.pixels rest
    return first ++ others

/-! ## Palettes -/

/-- The colours of a palette of reds, greens and blues; what makes no whole colour is dropped. -/
def coloursOf : List UInt8 → List Colour
  | r :: g :: b :: rest => ⟨r, g, b⟩ :: coloursOf rest
  | _ => []

/-- A value of a palette has to be a byte. -/
def checkPaletteByte (n : Int) : Except WordError Unit :=
  if !fitsWord n then .error .noWord
  else if n < 0 then .error .belowByte
  else if 255 < n then .error .aboveByte
  else .ok ()

def paletteBytes : List Value → Except Error (List UInt8)
  | [] => .ok []
  | v :: vs => do
    let b ← checkedSample checkPaletteByte v
    let bs ← paletteBytes vs
    return b :: bs

/-- The mode of indices into a palette, of at most 256 colours, in the place of grey. -/
def Mode.withPalette (mode : Mode) (values : List Value) : Except Error Mode := do
  let indexed : List Colour → Mode ← match mode with
    | .grey => pure .indexed
    | .indexed _ => pure .indexed
    | .greyAlpha => pure .indexedAlpha
    | .indexedAlpha _ => pure .indexedAlpha
    | _ => throw (.picture .paletteMode)
  let colours := coloursOf (← paletteBytes values)
  if 256 < colours.length then throw (.picture .paletteTooLong)
  return indexed colours

/-! ## Pictures -/

/-- The picture of the given size whose first pixels have these values. -/
def Picture.ofFirst (width height : Nat) (mode : Mode) (pixels : List PixelValue) :
    Except Error Picture := do
  let size := width * height
  if size < pixels.length then throw (.picture .tooManyPixels)
  let samples ← mode.pixels pixels
  let missing := List.replicate ((size - pixels.length) * mode.samples) 0
  match Picture.ofSamples? width height mode (samples ++ missing) with
  | some p => return p
  | none => throw (.picture .tooManyPixels)

/-- The picture of the given size, with a palette or without, whose first pixels have these
values. -/
def Picture.filled (width height : Int) (mode : Mode) (palette : Option (List Value))
    (pixels : List PixelValue) : Except Error Picture := do
  if width < 0 ∨ height < 0 then throw (.picture .negativeSize)
  (checkSize width height).mapError Error.ofSize
  let mode ← match palette with
    | none => pure mode
    | some values => mode.withPalette values
  ofFirst width.toNat height.toNat mode pixels

end RasterSketch
