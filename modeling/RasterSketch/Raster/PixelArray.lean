import RasterSketch.Raster.ElementValue
/-!
# Arrays of pixels

An array has a shape and elements of one layout.  Its dimensions and the number of its bytes have to
fit a word of 64 bits, even if one of its dimensions is zero and it has no element at all.  Only of
an array of bytes are the elements themselves of interest.
-/

namespace RasterSketch

structure PixelArray where
  shape : List Nat
  layout : Layout
  bytes : List UInt8

/-- The size of an array in bytes but for the dimensions that are zero. -/
def extent (shape : List Int) (elementBytes : Nat) : Int :=
  shape.foldl (fun n d => if d = 0 then n else n * d) elementBytes

def checkExtent (shape : List Int) (elementBytes : Nat) : Except ArrayError Unit :=
  if !shape.all fitsWord then .error .dimensionTooLarge
  else if !fitsWord (extent shape elementBytes) then .error .tooBig
  else .ok ()

/-- The product of the dimensions that are known, and whether there is one that is not.  The product
of the first of them has to be a word each time. -/
def knownSize (mismatch : ArrayError) (known : Nat) (unknown : Bool) :
    List Int → Except ArrayError (Nat × Bool)
  | [] => .ok (known, unknown)
  | d :: ds =>
    if d < 0 then
      if unknown then .error .twoUnknown else knownSize mismatch known true ds
    else if fitsWord (known * d) then knownSize mismatch (known * d.toNat) unknown ds
    else .error mismatch

/-- The dimensions of a shape for so many elements.  A negative one is what the others leave. -/
def dimensions (shape : List Int) (size : Nat) : Except ArrayError (List Nat) := do
  let mismatch := .shapeMismatch size shape
  let (known, unknown) ← knownSize mismatch 1 false shape
  if unknown then
    if known = 0 ∨ size % known ≠ 0 then throw mismatch
  else if known ≠ size then throw mismatch
  return shape.map fun d => if d < 0 then size / known else d.toNat

/-- An index has to fit a word.  One that fits without a sign is too large, any other is none. -/
def checkIndex (i : Int) : Except Error Unit :=
  if fitsWord i then .ok ()
  else if 0 ≤ i ∧ i < 0x10000000000000000 then .error (.word .noWord)
  else .error (.index .notIndex)

/-- An index from the start of an axis, or from its end if negative. -/
def axisIndex (axis size : Nat) (i : Int) : Except IndexError Nat :=
  if 0 ≤ i ∧ i < size then .ok i.toNat
  else if -(size : Int) ≤ i ∧ i < 0 then .ok (i + size).toNat
  else .error (.outside i axis size)

namespace PixelArray

/-- The type of elements and the number of them that each value makes. -/
def spread : Layout → Layout × Nat
  | .row r => (.single r.type, r.count)
  | .record fields => (.record fields, 1)

/-- The elements that are bytes. -/
def bytesOf (count : Nat) (values : List Value) : Except Error (List UInt8) := do
  let ns ← ElementType.byte.integers values
  return ns.flatMap fun n => List.replicate count (UInt8.ofNat n.toNat)

/-- The array of so many elements in the given shape. -/
def ofElements (shape : List Int) (layout : Layout) (count : Nat) (bytes : List UInt8) :
    Except Error PixelArray := do
  if Value.dimensionLimit < shape.length then throw (.array (.tooManyDimensions shape.length))
  if !shape.all fitsWord then throw (.array .dimensionTooLarge)
  let shape ← (dimensions shape count).mapError .array
  (checkExtent (shape.map fun (n : Nat) => n) layout.bytes).mapError .array
  return ⟨shape, layout, bytes⟩

/-- The array of the given shape with elements of the layout of a name. -/
def ofValues (shape : List Int) (layoutName : Text) (values : List Value) :
    Except Error PixelArray := do
  match layoutName.toString? with
  | none => throw (.name ((NameFault.ofSurrogate? 0 layoutName.codes).getD .zero))
  | some name =>
    let layout ← (Layout.ofName name).mapError fun e => .array (.elementName e)
    let (_, values) ← (Value.leaves values).mapError .array
    let (layout, count) := spread (← layout.fitTo values)
    layout.checks values
    let bytes ← if layout.isByte then bytesOf count values else .ok []
    ofElements shape layout (count * values.length) bytes

def size (a : PixelArray) : Nat := a.shape.foldl (· * ·) 1

/-- The array after the element at a place in the row of all elements has been set.  Only bytes are
kept. -/
def setAt (a : PixelArray) (place : Nat) (v : Value) : Except Error PixelArray := do
  a.layout.check v
  if !a.layout.isByte then return a
  let n ← ElementType.byte.integer v
  return { a with bytes := a.bytes.set place (UInt8.ofNat n.toNat) }

/-- The array after an element has been set.  The elements count in one row, and from its end if the
index is negative. -/
def set (a : PixelArray) (index : Int) (v : Value) : Except Error PixelArray := do
  checkIndex index
  let place ← (axisIndex 0 a.size index).mapError .index
  a.setAt place v

end PixelArray

end RasterSketch
