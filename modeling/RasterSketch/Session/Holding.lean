import RasterSketch.Raster.Filled
import RasterSketch.Session.Memory
import RasterSketch.Session.Named
/-!
# Holding a buffer

A session that holds one buffer at a time, with the values that it was made of.  Both are in memory,
where the values can be set by whoever handed them over.  The buffer has a copy of its own, which
cannot be set.  A construction that fails leaves what is held.
-/

namespace RasterSketch

/-- Whether the items of a container can be set. -/
def Container.checkSet (c : Container) (index : Int) : Except Error Unit := do
  match c with
  | .list => (checkItemIndex index).mapError .index
  | .byteArray => (checkItemIndex index).mapError .index
  | .fixedList =>
    (checkItemIndex index).mapError .index
    throw (.kind (.fixedItems "tuple"))
  | .bytes =>
    (checkItemIndex index).mapError .index
    throw (.kind (.fixedItems "bytes"))
  | .view => throw (.kind .readOnlyMemory)

/-- What a buffer was made of, if its items can be told. -/
inductive Material where
  | nothing
  | items (container : Container) (place : Nat)
  | array (given : StoredArray)

namespace Material

/-- The error of setting an item where there are none. -/
def noItems : Error := .kind (.fixedItems Value.nothing.kind)

/-- The memory after an item of what a buffer was made of has been set. -/
def setItem (material : Material) (m : Memory) (index : Int) (v : Value) : Except Error Memory :=
  match material with
  | .nothing => .error noItems
  | .items container place => do
    container.checkSet index
    return m.write place (← (m.read place).set index v)
  | .array given => given.change m fun array => array.set index v

end Material

/-- A step makes a buffer of values, of pixels, of an array or of a picture; or it looks at a pixel,
sets an item of what the buffer was made of, or tries to set a channel of a pixel. -/
inductive HoldingStep where
  | ofValues (width height : Int) (container : Container) (values : List Value)
  | ofPixels (width height : Int) (pixels : List (List Value))
  | ofArray (width height : Int) (array : Except Error PixelArray)
  | ofPicture (picture : Except Error Picture)
  | pixel (x y : Int)
  | setItem (index : Int) (value : Value)
  | setPixel (x y channel : Int := 0) (value : Value := .nothing)

/-- The buffer that is held, or a pixel of it. -/
inductive HoldingAnswer where
  | held (buffer : Buffer)
  | pixel (p : Pixel)

/-- A buffer in memory: its size, the array of its pixels, and what it was made of. -/
structure Held where
  width : Int
  height : Int
  pixels : StoredArray
  material : Material

/-- The buffer as it stands, if its array is one of a buffer of its size. -/
def Held.read (c : Held) (m : Memory) : Except Error Buffer :=
  (Buffer.ofArray c.width c.height (c.pixels.read m)).mapError .buffer

/-- What a session holds: nothing at first. -/
structure Holding where
  memory : Memory
  current : Option Held

namespace Holding

def empty : Holding := ⟨.empty, none⟩

/-- What is held, which is asked for something. -/
def held (h : Holding) (asked : String) : Except Error Held :=
  match h.current with
  | some c => .ok c
  | none => .error (.noBuffer asked)

/-- The buffer that is held, which is asked for something. -/
def buffer (h : Holding) (asked : String) : Except Error Buffer := do
  (← h.held asked).read h.memory

/-- The session, and the buffer that is held as the answer. -/
def shown (h : Holding) : Holding × Except Error HoldingAnswer :=
  (h, do return .held (← h.buffer "pixels"))

/-- The session after a construction in a memory where what the buffer is made of has been put.  The
buffer gets a copy of its own. -/
def keep (h : Holding) (m : Memory) (material : Material) :
    Except Error Buffer → Holding × Except Error HoldingAnswer
  | .ok b =>
    let pixels := ⟨[b.height, b.width, channels], .single .byte, m.next, false⟩
    shown ⟨m.add (.bytes b.bytes.toList), some ⟨b.width, b.height, pixels, material⟩⟩
  | .error e => (h, .error e)

/-- The session after a change of memory. -/
def change (h : Holding) : Except Error Memory → Holding × Except Error HoldingAnswer
  | .ok m => shown { h with memory := m }
  | .error e => (h, .error e)

/-- The session after a step, and the answer. -/
def step (h : Holding) : HoldingStep → Holding × Except Error HoldingAnswer
  | .ofValues width height container values =>
    match container.hold values with
    | .error e => (h, .error e)
    | .ok flat =>
      let m := h.memory.add flat
      let place := h.memory.next
      h.keep m (.items container place) (Buffer.ofFlat width height (m.read place))
  | .ofPixels width height pixels =>
    h.keep h.memory .nothing (Buffer.ofPixels width height pixels)
  | .ofArray width height array =>
    match array with
    | .error e => (h, .error e)
    | .ok a =>
      let m := h.memory.add (.bytes a.bytes)
      let given := ⟨a.shape, a.layout, h.memory.next, true⟩
      h.keep m (.array given) ((Buffer.ofArray width height (given.read m)).mapError .buffer)
  | .ofPicture picture => h.keep h.memory .nothing (Buffer.ofPicture <$> picture)
  | .pixel x y => (h, do return .pixel (← (← h.buffer "pixel").pixel x y))
  | .setItem index value =>
    match h.current with
    | none => (h, .error Material.noItems)
    | some c => h.change (c.material.setItem h.memory index value)
  | .setPixel x y channel value =>
    h.change do (← h.held "pixels").pixels.setElement h.memory [y, x, channel] value

end Holding

end RasterSketch
