import RasterSketch.Raster.Buffer
/-!
# Values in memory

Rows of values that can be reached from more than one side.  A row has a place, which stays when the
row is changed, and whoever knows the place sees the change.  Rows at other places are not disturbed
(`Memory.read_write_of_ne`), and a row that is added has the place behind them all
(`Memory.read_add_next`).
-/

namespace RasterSketch

structure Memory where
  rows : List Flat

namespace Memory

def empty : Memory := ⟨[]⟩

/-- The row at a place; there are no values where no row was put. -/
def read (m : Memory) (place : Nat) : Flat := m.rows.getD place (.items [])

/-- The place of the row that is added next. -/
def next (m : Memory) : Nat := m.rows.length

def add (m : Memory) (row : Flat) : Memory := ⟨m.rows ++ [row]⟩

def write (m : Memory) (place : Nat) (row : Flat) : Memory := ⟨m.rows.set place row⟩

variable {m : Memory} {row : Flat} {place other : Nat}

theorem read_add_next : (m.add row).read m.next = row := by
  unfold read add next
  rw [List.getD_eq_getElem?_getD, List.getElem?_concat_length, Option.getD_some]

theorem read_write_of_ne (h : other ≠ place) : (m.write place row).read other = m.read other := by
  unfold read write
  rw [List.getD_eq_getElem?_getD, List.getElem?_set_ne h.symm, ← List.getD_eq_getElem?_getD]

theorem next_add : (m.add row).next = m.next + 1 := List.length_append

end Memory

/-! ## Arrays -/

/-- An array whose elements are in memory, and whether they may be set. -/
structure StoredArray where
  shape : List Nat
  layout : Layout
  place : Nat
  writable : Bool

/-- The place of an element in the row of all elements, behind those before its own axes.  It has an
index for each axis. -/
def elementPlace (axis before : Nat) : (shape : List Nat) → (indices : List Int) →
    Except IndexError Nat
  | size :: shape, index :: indices => do
    let i ← axisIndex axis size index
    elementPlace (axis + 1) (before * size + i) shape indices
  | _, _ => .ok before

namespace StoredArray

/-- The array as it stands. -/
def read (a : StoredArray) (m : Memory) : PixelArray := ⟨a.shape, a.layout, (m.read a.place).kept⟩

/-- The memory after the array has been changed.  Whether it may be is looked at before anything
else is. -/
def change (a : StoredArray) (m : Memory) (changed : PixelArray → Except Error PixelArray) :
    Except Error Memory := do
  if !a.writable then throw (.argument .readOnly)
  return m.write a.place (.bytes (← changed (a.read m)).bytes)

/-- The memory after the element at the given indices has been set. -/
def setElement (a : StoredArray) (m : Memory) (indices : List Int) (v : Value) :
    Except Error Memory :=
  a.change m fun array => do
    indices.forM checkIndex
    array.setAt (← (elementPlace 0 0 array.shape indices).mapError .index) v

end StoredArray

end RasterSketch
