import RasterSketch.Error
import RasterSketch.Raster.Picture
import RasterSketch.Raster.PixelArray
/-!
# Pixel buffers

The one form in which an image is sketched: its size and four bytes for each pixel, row after row
from the top left, neither more nor fewer.  A buffer is a value; nothing that is done to the list
or array it was made of reaches it.
-/

namespace RasterSketch

structure Pixel where
  r : UInt8
  g : UInt8
  b : UInt8
  a : UInt8
  deriving DecidableEq, Inhabited

structure Buffer where
  width : Nat
  height : Nat
  bytes : Array UInt8
  size_eq : bytes.size = width * height * channels

/-- Values in one row, as bytes or as values of any kind. -/
inductive Flat where
  | bytes (given : List UInt8)
  | items (given : List Value)

namespace Flat

def length : Flat → Nat
  | .bytes given => given.length
  | .items given => given.length

/-- The values as they are kept, if they are bytes. -/
def kept : Flat → List UInt8
  | .bytes given => given
  | .items _ => []

/-- The bytes of the values: numbers without their fractions, all of them in range. -/
def toBytes : Flat → Except Error (List UInt8)
  | .bytes given => .ok given
  | .items given => do
    let (_, values) ← (Value.leaves given).mapError .array
    let ks ← ElementType.word.integers values
    if ks.all fun k => 0 ≤ k ∧ k ≤ 255 then return ks.map fun k => UInt8.ofNat k.toNat
    else throw (.buffer .valueRange)

end Flat

/-- What values in one row are handed over in. -/
inductive Container where
  | bytes
  | byteArray
  | view
  | list
  | fixedList

namespace Container

/-- The byte of a value; what is no byte is an error of its own in either container. -/
def byteOf (outOfRange : ArgumentError) : Value → Except Error UInt8
  | .truth b => .ok (if b then 1 else 0)
  | .expr (.number (.int n)) =>
    if 0 ≤ n ∧ n ≤ 255 then .ok (UInt8.ofNat n.toNat) else .error (.argument outOfRange)
  | v => .error (.kind (.notInteger v))

def bytesOf (outOfRange : ArgumentError) : List Value → Except Error (List UInt8)
  | [] => .ok []
  | v :: vs => do
    let b ← byteOf outOfRange v
    let bs ← bytesOf outOfRange vs
    return b :: bs

/-- The values as the container holds them; only a list or a fixed list holds any value. -/
def hold (c : Container) (values : List Value) : Except Error Flat :=
  match c with
  | bytes => Flat.bytes <$> bytesOf .bytesRange values
  | view => Flat.bytes <$> bytesOf .bytesRange values
  | byteArray => Flat.bytes <$> bytesOf .byteRange values
  | list => .ok (.items values)
  | fixedList => .ok (.items values)

end Container

/-- The values after the one at an index, which may count from the end, has been set.  In a row of
bytes it has to be a byte, and that is looked at first. -/
def Flat.set (flat : Flat) (index : Int) (v : Value) : Except Error Flat :=
  match flat with
  | .items given => do
    let i ← (axisIndex 0 given.length index).mapError fun _ => .index .listItem
    return .items (given.set i v)
  | .bytes given => do
    let b ← Container.byteOf .byteRange v
    let i ← (axisIndex 0 given.length index).mapError fun _ => .index .byteItem
    return .bytes (given.set i b)

namespace Buffer

def isEmpty (b : Buffer) : Bool := b.width == 0 || b.height == 0

/-- The pixel of column `x` and row `y`. -/
def pixelAt (b : Buffer) (x y : Nat) : Pixel :=
  let i := channels * (y * b.width + x)
  ⟨b.bytes.getD i 0, b.bytes.getD (i + 1) 0, b.bytes.getD (i + 2) 0, b.bytes.getD (i + 3) 0⟩

/-- The row of an index that may count from the end. -/
def rowIndex (b : Buffer) (y : Int) : Except Error Nat := (axisIndex 0 b.height y).mapError .index

def columnIndex (b : Buffer) (x : Int) : Except Error Nat := (axisIndex 1 b.width x).mapError .index

/-- The pixel at indices that may count from the end; the row is looked at first. -/
def pixel (b : Buffer) (x y : Int) : Except Error Pixel := do
  checkIndex y
  checkIndex x
  let row ← b.rowIndex y
  let column ← b.columnIndex x
  return b.pixelAt column row

/-- A buffer of the given size, if there are just the bytes for it. -/
def ofBytes (width height : Nat) (bytes : List UInt8) : Except BufferError Buffer :=
  if h : bytes.length = width * height * channels then .ok ⟨width, height, bytes.toArray, h⟩
  else .error (.valueCount width height bytes.length)

def checkDimensions (width height : Int) : Except BufferError Unit :=
  if width < 0 ∨ height < 0 then .error (.negativeDimensions width height) else .ok ()

/-- A buffer of values in one row. -/
def ofFlat (width height : Int) (flat : Flat) : Except Error Buffer := do
  (checkDimensions width height).mapError .buffer
  let expected := width * height * channels
  if (flat.length : Int) ≠ expected then
    if Decimal.exceedsLimit expected then throw (.argument .tooManyDigits)
    throw (.buffer (.valueCount width height flat.length))
  let bytes ← flat.toBytes
  (checkExtent [height, width, channels] 1).mapError .array
  let _ ← (dimensions [height, width, channels] bytes.length).mapError .array
  (ofBytes width.toNat height.toNat bytes).mapError .buffer

/-- A buffer of pixels, whose values are put in one row. -/
def ofPixels (width height : Int) (pixels : List (List Value)) : Except Error Buffer :=
  ofFlat width height (.items pixels.flatten)

/-- A buffer of an array, which has to have its shape and to be made of bytes. -/
def ofArray (width height : Int) (array : PixelArray) : Except BufferError Buffer := do
  checkDimensions width height
  if array.shape ≠ [height.toNat, width.toNat, channels] then
    throw (.shape array.shape height width)
  if !array.layout.isByte then throw (.elementType array.layout.name)
  ofBytes width.toNat height.toNat array.bytes

def ofPicture (p : Picture) : Buffer where
  width := p.width
  height := p.height
  bytes := p.rgba.toArray
  size_eq := p.length_rgba

end Buffer

end RasterSketch
